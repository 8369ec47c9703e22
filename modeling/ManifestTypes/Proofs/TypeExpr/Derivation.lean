import ManifestTypes.Proofs.TypeExpr.Moves
import ManifestTypes.TypeExpr.Grammar

/-!
# What the reader has read

A state holds all that has been read. `State.written` writes it out again by the grammar, and a
move adds the lexeme that it takes. In the other direction the lexemes of a record type lead the
reader to that record type, as far as its literals are not nested too deeply.
-/

namespace ManifestTypes.TypeExpr

/-! ## Lexemes of fields -/

def headLexemes (key : String) (atoms : List String) : List Lexeme :=
  .ofLabel key :: .mark .colon :: atoms.map .identifier

def separatorAfter (shape : Shape) (fields : List Field) : List Lexeme :=
  if fields.isEmpty then [] else [.mark shape.separator]

theorem Field.lexemes_plain (key : String) (atoms : List String) :
    (Field.plain key atoms).lexemes = headLexemes key atoms := by
  simp [Field.lexemes, headLexemes]

theorem Field.lexemes_literal (key : String) (atoms : List String) (shape : Shape)
    (fields : List Field) :
    (Field.literal key atoms shape fields).lexemes =
      headLexemes key atoms ++ .mark shape.opening :: Field.lexemesAll shape true fields
        ++ [.mark shape.closing] := by
  simp [Field.lexemes, headLexemes]

theorem Field.lexemesAll_concat (shape : Shape) (isFirst : Bool) (fields : List Field)
    (f : Field) :
    Field.lexemesAll shape isFirst (fields ++ [f]) =
      Field.lexemesAll shape isFirst fields
        ++ (if isFirst && fields.isEmpty then [] else [.mark shape.separator]) ++ f.lexemes := by
  induction fields generalizing isFirst with
  | nil => cases isFirst <;> simp [Field.lexemesAll]
  | cons g rest ih => simp [Field.lexemesAll, ih]

theorem Field.lexemesAll_concat_of_first (shape : Shape) (fields : List Field) (f : Field) :
    Field.lexemesAll shape true (fields ++ [f]) =
      Field.lexemesAll shape true fields ++ separatorAfter shape fields ++ f.lexemes := by
  rw [Field.lexemesAll_concat, Bool.true_and, separatorAfter]

theorem Field.nestingAll_append (first second : List Field) :
    Field.nestingAll (first ++ second) =
      max (Field.nestingAll first) (Field.nestingAll second) := by
  induction first with
  | nil => simp [Field.nestingAll]
  | cons f rest ih => simp [Field.nestingAll, ih, Nat.max_assoc]

theorem Field.nestingAll_concat (fields : List Field) (f : Field) :
    Field.nestingAll (fields ++ [f]) = max (Field.nestingAll fields) f.nesting := by
  simp [Field.nestingAll_append, Field.nestingAll]

/-- The text of a label tells its kind. -/
theorem ofLabel_of_label? {l : Lexeme} {key : String} (hl : l.Spelled)
    (hlabel : l.label? = some key) : Lexeme.ofLabel key = l := by
  cases hl with
  | identifier first rest hfirst hrest =>
      cases hlabel
      have hquote : first ≠ quote := by
        rintro rfl
        rw [not_isAlpha_quote] at hfirst
        cases hfirst
      simp [Lexeme.ofLabel, hquote]
  | quotedLabel body hbody hquotable =>
      cases hlabel
      simp [Lexeme.ofLabel]
  | mark m => cases hlabel

/-! ## Read so far -/

def Place.written (shape : Shape) (fields : List Field) : Place → List Lexeme
  | .opened | .closed => []
  | .separated => [.mark shape.separator]
  | .labelled key => separatorAfter shape fields ++ [.ofLabel key]
  | .applying key atoms => separatorAfter shape fields ++ headLexemes key atoms.toList

/-- The lexemes up to the opening bracket of the innermost literal. -/
def writtenBefore : List Enclosing → Shape → List Lexeme
  | [], shape => [.mark shape.opening]
  | e :: outer, shape =>
    writtenBefore outer e.shape ++ Field.lexemesAll e.shape true e.fields.toList
      ++ (Place.applying e.key e.atoms).written e.shape e.fields.toList ++ [.mark shape.opening]

def State.written : State → List Lexeme
  | .start => []
  | .inside outer shape fields place =>
    writtenBefore outer shape ++ Field.lexemesAll shape true fields.toList
      ++ place.written shape fields.toList
  | .complete record => record.lexemes

/-- Whether the complete fields of a literal suit a place in it. -/
def Place.Follows (fields : List Field) : Place → Prop
  | .opened => fields = []
  | .separated | .closed => fields ≠ []
  | .labelled _ | .applying .. => True

def rootShape : List Enclosing → Shape → Shape
  | [], shape => shape
  | e :: outer, _ => rootShape outer e.shape

/-- No complete field in an enclosing literal is nested too deeply. -/
def Fits : List Enclosing → Prop
  | [] => True
  | e :: outer =>
    outer.length + 1 + Field.nestingAll e.fields.toList ≤ maxNesting ∧ Fits outer

/-- What holds in an open literal, whatever has been read. -/
structure Coherent (outer : List Enclosing) (shape : Shape) (fields : Array Field)
    (place : Place) : Prop where
  root : rootShape outer shape = .record
  follows : place.Follows fields.toList
  room : outer.length + 1 + Field.nestingAll fields.toList ≤ maxNesting
  fits : Fits outer

def State.Coherent : State → Prop
  | .start => True
  | .inside outer shape fields place => TypeExpr.Coherent outer shape fields place
  | .complete record => record.nesting ≤ maxNesting

theorem Place.written_of_complete {place : Place} {fields done : Array Field}
    (hdone : place.complete? fields = some done) (shape : Shape) :
    Field.lexemesAll shape true done.toList =
      Field.lexemesAll shape true fields.toList ++ place.written shape fields.toList := by
  cases place with
  | opened => cases hdone; simp [Place.written]
  | separated => cases hdone
  | labelled key => cases hdone
  | applying key atoms =>
      cases hdone
      rw [Array.toList_push, Field.lexemesAll_concat_of_first, Field.lexemes_plain,
        List.append_assoc]
      rfl
  | closed => cases hdone; simp [Place.written]

theorem Place.nestingAll_of_complete {place : Place} {fields done : Array Field}
    (hdone : place.complete? fields = some done) :
    Field.nestingAll done.toList = Field.nestingAll fields.toList := by
  cases place with
  | opened => cases hdone; rfl
  | separated => cases hdone
  | labelled key => cases hdone
  | applying key atoms =>
      cases hdone
      rw [Array.toList_push, Field.nestingAll_concat, Field.nesting, Nat.max_zero]
  | closed => cases hdone; rfl

theorem Place.ne_nil_of_complete {place : Place} {fields done : Array Field}
    (hdone : place.complete? fields = some done) (hplace : place ≠ .opened)
    (hfollows : place.Follows fields.toList) : done.toList ≠ [] := by
  cases place with
  | opened => exact absurd rfl hplace
  | separated => cases hdone
  | labelled key => cases hdone
  | applying key atoms => cases hdone; simp
  | closed => cases hdone; exact hfollows

/-- Closing a literal adds its closing bracket. -/
theorem close_preserves {outer : List Enclosing} {shape : Shape} {done : Array Field}
    (hroot : rootShape outer shape = .record)
    (hroom : outer.length + 1 + Field.nestingAll done.toList ≤ maxNesting) (hfits : Fits outer) :
    (State.close outer shape done).Coherent ∧
      (State.close outer shape done).written =
        writtenBefore outer shape ++ Field.lexemesAll shape true done.toList
          ++ [.mark shape.closing] := by
  cases outer with
  | nil =>
      cases hroot
      refine ⟨?_, rfl⟩
      simp only [List.length_nil] at hroom
      simp only [State.close, State.Coherent, RecordType.nesting]
      omega
  | cons e outer =>
      obtain ⟨hhead, hfits⟩ := hfits
      simp only [List.length_cons] at hroom
      refine ⟨⟨hroot, by simp [Place.Follows], ?_, hfits⟩, ?_⟩
      · rw [Array.toList_push, Field.nestingAll_concat, Field.nesting]
        omega
      · simp [State.close, State.written, writtenBefore, Place.written,
          Field.lexemesAll_concat_of_first, Field.lexemes_literal]

/-- A move adds the lexeme that it takes to what has been read. -/
theorem State.Move.preserves {s t : State} {l : Lexeme} (h : Move s l t) (hs : s.Coherent)
    (hl : l.Spelled) : t.Coherent ∧ t.written = s.written ++ [l] := by
  cases h with
  | start => exact ⟨⟨rfl, rfl, by simp [Field.nestingAll, maxNesting], trivial⟩, rfl⟩
  | @label outer shape fields place l key hplace hlabel =>
      refine ⟨⟨hs.root, trivial, hs.room, hs.fits⟩, ?_⟩
      have hkey := ofLabel_of_label? hl hlabel
      have hfollows := hs.follows
      cases place with
      | opened =>
          simp only [Place.Follows] at hfollows
          simp [State.written, Place.written, separatorAfter, hkey, hfollows]
      | separated =>
          have hempty : fields.toList.isEmpty = false := List.isEmpty_eq_false_iff.mpr hfollows
          simp only [State.written, Place.written, separatorAfter, hempty, hkey]
          simp
      | labelled key => cases hplace
      | applying key atoms => cases hplace
      | closed => cases hplace
  | colon =>
      refine ⟨⟨hs.root, trivial, hs.room, hs.fits⟩, ?_⟩
      simp [State.written, Place.written, headLexemes]
  | name =>
      refine ⟨⟨hs.root, trivial, hs.room, hs.fits⟩, ?_⟩
      simp [State.written, Place.written, headLexemes]
  | @descend outer shape inner fields key atoms hroom =>
      refine ⟨⟨hs.root, rfl, ?_, hs.room, hs.fits⟩, ?_⟩
      · simp only [Field.nestingAll, List.length_cons]
        omega
      · simp [State.written, writtenBefore, Place.written, Field.lexemesAll]
  | @separate outer shape fields done place hplace hdone =>
      have hnesting := Place.nestingAll_of_complete hdone
      have hwritten := Place.written_of_complete hdone shape
      refine ⟨⟨hs.root, Place.ne_nil_of_complete hdone hplace hs.follows, ?_, hs.fits⟩, ?_⟩
      · rw [hnesting]
        exact hs.room
      · simp [State.written, hwritten, Place.written]
  | @close outer shape fields done place hdone =>
      have hnesting := Place.nestingAll_of_complete hdone
      have hwritten := Place.written_of_complete hdone shape
      have hclose := close_preserves hs.root (hnesting ▸ hs.room) hs.fits
      refine ⟨hclose.1, ?_⟩
      rw [hclose.2, hwritten]
      simp [State.written]

/-- What has been read is written out again after any run. -/
theorem State.steps_preserves {s t : State} {ls : List Lexeme} (h : s.steps ls = .ok t)
    (hs : s.Coherent) (hls : ∀ l ∈ ls, l.Spelled) :
    t.Coherent ∧ t.written = s.written ++ ls := by
  induction ls generalizing s with
  | nil =>
      cases h
      exact ⟨hs, (List.append_nil _).symm⟩
  | cons l ls ih =>
      rw [steps_cons] at h
      cases hstep : s.step l with
      | error e => rw [hstep] at h; cases h
      | ok next =>
          rw [hstep] at h
          obtain ⟨hnext, hwritten⟩ :=
            (step_eq_ok_iff.mp hstep).preserves hs (hls l List.mem_cons_self)
          obtain ⟨ht, hrest⟩ := ih h hnext fun m hm => hls m (List.mem_cons_of_mem l hm)
          exact ⟨ht, by rw [hrest, hwritten, List.append_assoc, List.singleton_append]⟩

/-! ## Reading what is written -/

theorem State.steps_names (outer : List Enclosing) (shape : Shape) (fields : Array Field)
    (key : String) (atoms : Array String) (names : List String) :
    (State.inside outer shape fields (.applying key atoms)).steps (names.map .identifier) =
      .ok (.inside outer shape fields (.applying key (atoms ++ names))) := by
  induction names generalizing atoms with
  | nil => simp
  | cons name rest ih =>
      rw [List.map_cons, steps_cons_of_move .name, ih]
      simp

theorem State.steps_head {outer : List Enclosing} {shape : Shape} {fields : Array Field}
    {place : Place} (hplace : place.AwaitsLabel) (key : String) (atoms : List String) :
    (State.inside outer shape fields place).steps (headLexemes key atoms) =
      .ok (.inside outer shape fields (.applying key atoms.toArray)) := by
  have hlabel : (Lexeme.ofLabel key).label? = some key := by
    unfold Lexeme.ofLabel
    split <;> rfl
  rw [headLexemes, steps_cons_of_move (.label hplace hlabel), steps_cons_of_move .colon,
    steps_names]
  simp

mutual

/-- The lexemes of a field lead from where a label may stand to where the field is complete. -/
theorem State.steps_field {outer : List Enclosing} {shape : Shape} {fields : Array Field}
    {place : Place} (hplace : place.AwaitsLabel) (f : Field)
    (hroom : outer.length + 1 + f.nesting ≤ maxNesting) :
    ∃ fields' place', (State.inside outer shape fields place).steps f.lexemes =
        .ok (.inside outer shape fields' place') ∧
      place' ≠ .opened ∧ place'.complete? fields' = some (fields.push f) := by
  cases f with
  | plain key atoms =>
      rw [Field.lexemes_plain, steps_head hplace]
      exact ⟨_, _, rfl, by simp, by simp [Place.complete?]⟩
  | literal key atoms inner body =>
      rw [Field.nesting] at hroom
      obtain ⟨body', place', hbody, hdone⟩ := State.steps_fields
        (⟨shape, fields, key, atoms.toArray⟩ :: outer) inner body #[] .opened true (by simp) rfl
        (by simp only [List.length_cons]; omega)
      have hinner : outer.length + 1 < maxNesting := by omega
      have hhead : (State.inside outer shape fields place).steps (headLexemes key atoms) =
          .ok (.inside outer shape fields (.applying key atoms.toArray)) :=
        steps_head hplace key atoms
      rw [Field.lexemes_literal, List.append_assoc, steps_append_of_ok hhead, List.cons_append,
        steps_cons_of_move (.descend hinner), steps_append_of_ok hbody,
        steps_cons_of_move (.close hdone), steps_nil]
      refine ⟨_, _, rfl, by simp, ?_⟩
      simp [Place.complete?]

/-- The lexemes of several fields lead from the opening bracket or from behind a field to where
all are complete. -/
theorem State.steps_fields (outer : List Enclosing) (shape : Shape) (fs : List Field)
    (fields : Array Field) (place : Place) (isFirst : Bool)
    (hfirst : isFirst = true ↔ place = .opened) {done : Array Field}
    (hdone : place.complete? fields = some done)
    (hroom : outer.length + 1 + Field.nestingAll fs ≤ maxNesting) :
    ∃ fields' place', (State.inside outer shape fields place).steps
        (Field.lexemesAll shape isFirst fs) = .ok (.inside outer shape fields' place') ∧
      place'.complete? fields' = some (done ++ fs) := by
  cases fs with
  | nil => exact ⟨fields, place, rfl, by simpa using hdone⟩
  | cons f rest =>
      rw [Field.nestingAll] at hroom
      have hlabel : ∃ place₀, place₀.AwaitsLabel ∧ (State.inside outer shape fields place).steps
          (if isFirst then [] else [.mark shape.separator]) =
            .ok (.inside outer shape done place₀) := by
        cases isFirst with
        | true =>
            cases hfirst.mp rfl
            cases hdone
            exact ⟨.opened, trivial, rfl⟩
        | false =>
            have hplace : place ≠ .opened := fun h => Bool.false_ne_true (hfirst.mpr h)
            refine ⟨.separated, trivial, ?_⟩
            rw [if_neg Bool.false_ne_true, steps_cons_of_move (.separate hplace hdone), steps_nil]
      have hfieldRoom : outer.length + 1 + f.nesting ≤ maxNesting := by omega
      obtain ⟨place₀, hplace₀, hstart⟩ := hlabel
      obtain ⟨fields₁, place₁, hfield, hne, hdone₁⟩ := State.steps_field hplace₀ f hfieldRoom
      obtain ⟨fields', place', hrest, hdone'⟩ := State.steps_fields outer shape rest fields₁ place₁
        false (by simp [hne]) hdone₁ (by omega)
      refine ⟨fields', place', ?_, by simpa using hdone'⟩
      rw [Field.lexemesAll, List.append_assoc, steps_append_of_ok hstart,
        steps_append_of_ok hfield, hrest]

end

/-- The lexemes of a record type are read as that record type. -/
theorem State.steps_lexemes {r : RecordType} (h : r.nesting ≤ maxNesting) :
    State.start.steps r.lexemes = .ok (.complete r) := by
  rw [RecordType.nesting] at h
  obtain ⟨fields, place, hfields, hdone⟩ := State.steps_fields [] .record r.fields #[] .opened true
    (by simp) rfl (by simp only [List.length_nil]; omega)
  rw [RecordType.lexemes, List.cons_append, steps_cons_of_move .start, steps_append_of_ok hfields]
  have hclose : Move (.inside [] .record fields place) (.mark .closeBrace)
      (close [] .record (#[] ++ r.fields)) := .close hdone
  rw [steps_cons_of_move hclose, steps_nil]
  simp [close]

end ManifestTypes.TypeExpr
