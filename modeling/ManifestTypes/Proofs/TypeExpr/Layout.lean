import ManifestTypes.Proofs.TypeExpr.Printing

/-!
# The lines of a printed type

Below its first line a printed type has one line for each field at any depth, and one for the
bracket that closes a literal. They come in the order of the tree, and how far in a line stands is
told by the literals that it lies in.
-/

namespace ManifestTypes.TypeExpr

/-! ## Rows -/

/-- A line below the first one. The literal that it belongs to is told by the shapes of the
literals that applications end in on the way to it, the innermost first. -/
inductive Row where
  | field (tails : List Shape) (isFirst : Bool) (f : Field)
  | closing (tails : List Shape) (atoms : List String)

mutual

/-- The row of a field, before the rows of the literal that it ends in. -/
def Field.rows (tails : List Shape) (isFirst : Bool) : Field → List Row
  | .plain key atoms => [.field tails isFirst (.plain key atoms)]
  | .literal key atoms shape fields =>
    .field tails isFirst (.literal key atoms shape fields) ::
      Field.rowsAll (shape :: tails) true fields ++ [.closing (shape :: tails) atoms]

def Field.rowsAll (tails : List Shape) (isFirst : Bool) : List Field → List Row
  | [] => []
  | f :: rest => f.rows tails isFirst ++ Field.rowsAll tails false rest

end

def RecordType.rows (r : RecordType) : List Row :=
  Field.rowsAll [] true r.fields ++ [.closing [] []]

/-- The shape of the literal that tails lead to, which is the outermost record if there are none. -/
def shapeBehind (tails : List Shape) : Shape :=
  tails.headD .record

/-- The number of tabs before the fields of a literal: two more for each record on the way to it,
and one more for each union. -/
def indentation (level : Nat) (tails : List Shape) : Nat :=
  level + 2 * tails.count .record + tails.count .union

def Row.tabs (level : Nat) : Row → Nat
  | .field tails _ _ => indentation level tails
  | .closing tails _ => indentation level tails - 1

def textBeforeTail : List String → String
  | [] => ""
  | first :: rest =>
    first ++ String.join (rest.map (openingText (rest.length + 2) ++ ·)) ++ " "

def textAfterTail : List String → String
  | [] => ""
  | _ :: rest => String.join (rest.map fun _ => closingText (rest.length + 2))

def Field.valueOnLine : Field → String
  | .plain _ atoms => chain atoms none
  | .literal _ atoms shape _ => textBeforeTail atoms ++ shape.opening.char.toString

def Row.text : Row → String
  | .field tails isFirst f =>
    (if isFirst then "" else (shapeBehind tails).continuation) ++ f.key ++ ": " ++ f.valueOnLine
  | .closing tails atoms => (shapeBehind tails).closing.char.toString ++ textAfterTail atoms

def Row.line (level : Nat) (row : Row) : String :=
  TypeExpr.tabs (row.tabs level) ++ row.text

/-! ## Printed text by rows -/

def linesText (level : Nat) (rows : List Row) : String :=
  String.join (rows.map fun row => row.line level ++ "\n")

theorem linesText_append (level : Nat) (first second : List Row) :
    linesText level (first ++ second) = linesText level first ++ linesText level second := by
  rw [linesText, List.map_append, String.join_append]
  rfl

theorem linesText_cons (level : Nat) (row : Row) (rest : List Row) :
    linesText level (row :: rest) = row.line level ++ "\n" ++ linesText level rest := by
  rw [linesText, List.map_cons, String.join_cons]
  rfl

theorem linesText_nil (level : Nat) : linesText level [] = "" := rfl

theorem chain_some (atoms : List String) (text : String) :
    chain atoms (some text) = textBeforeTail atoms ++ text ++ textAfterTail atoms := by
  cases atoms with
  | nil => simp [chain_nil, textBeforeTail, textAfterTail]
  | cons first rest =>
      rw [chain_cons]
      simp [textBeforeTail, textAfterTail, String.append_assoc]

/-- A tail stands one level further in than its field does, and a record one more. -/
theorem indentation_cons (level : Nat) (shape : Shape) (tails : List Shape) :
    indentation level (shape :: tails) = indentation level tails + 1 + shape.inset := by
  cases shape with
  | record => simp [indentation, Shape.inset]; omega
  | union => simp [indentation, Shape.inset]; omega

mutual

theorem Field.linesText_rows (level : Nat) (tails : List Shape) (isFirst : Bool) (f : Field) :
    linesText level (f.rows tails isFirst) =
      tabs (indentation level tails) ++ (if isFirst then "" else (shapeBehind tails).continuation)
        ++ f.render (indentation level tails) := by
  cases f with
  | plain key atoms =>
      simp only [Field.rows, linesText_cons, linesText_nil, Row.line, Row.tabs, Row.text,
        Field.valueOnLine, Field.key, Field.render, String.append_assoc, String.append_empty]
  | literal key atoms shape fields =>
      have hfields := Field.linesText_rowsAll level (shape :: tails) true fields
      have hshape : shapeBehind (shape :: tails) = shape := rfl
      rw [hshape, indentation_cons] at hfields
      simp only [Field.rows, linesText_append, linesText_cons, linesText_nil, hfields, Row.line,
        Row.tabs, Row.text, hshape, indentation_cons, Field.valueOnLine, Field.key, Field.render,
        chain_some, bracketed, String.append_assoc, String.append_empty, List.cons_append]

theorem Field.linesText_rowsAll (level : Nat) (tails : List Shape) (isFirst : Bool)
    (fields : List Field) :
    linesText level (Field.rowsAll tails isFirst fields) =
      Field.renderFields (shapeBehind tails) (indentation level tails) isFirst fields := by
  cases fields with
  | nil => rfl
  | cons f rest =>
      rw [Field.rowsAll, linesText_append, Field.linesText_rows level tails isFirst f,
        Field.linesText_rowsAll level tails false rest, Field.renderFields]

end

/-- The first line holds the opening brace, and each row has a line. -/
theorem RecordType.render_eq_linesText (r : RecordType) (level : Nat) :
    r.render level ++ "\n" = "\x7b" ++ "\n" ++ linesText level r.rows := by
  have hopening : Shape.record.opening.char.toString = "\x7b" := rfl
  have houtermost : shapeBehind [] = .record := rfl
  have hlevel : indentation level [] = level := rfl
  simp only [RecordType.rows, linesText_append, Field.linesText_rowsAll, linesText_cons,
    linesText_nil, RecordType.render, Literal.render, bracketed, hopening, houtermost, hlevel,
    Row.line, Row.tabs, Row.text, textAfterTail, String.append_assoc, String.append_empty]

/-! ## Texts without line feeds and tabs -/

/-- A text in which no line ends and no tab stands. -/
def StaysInLine (text : String) : Prop :=
  '\n' ∉ text.toList ∧ '\t' ∉ text.toList

instance (text : String) : Decidable (StaysInLine text) :=
  inferInstanceAs (Decidable (_ ∧ _))

theorem staysInLine_append {first second : String} (hfirst : StaysInLine first)
    (hsecond : StaysInLine second) : StaysInLine (first ++ second) := by
  simp only [StaysInLine, String.toList_append, List.mem_append, not_or]
  exact ⟨⟨hfirst.1, hsecond.1⟩, hfirst.2, hsecond.2⟩

theorem staysInLine_join {texts : List String} (h : ∀ text ∈ texts, StaysInLine text) :
    StaysInLine (String.join texts) := by
  induction texts with
  | nil => exact ⟨by simp, by simp⟩
  | cons text rest ih =>
      obtain ⟨htext, hrest⟩ := List.forall_mem_cons.mp h
      rw [String.join_cons]
      exact staysInLine_append htext (ih hrest)

theorem staysInLine_openingText (parts : Nat) : StaysInLine (openingText parts) := by
  unfold openingText
  split <;> decide

theorem staysInLine_closingText (parts : Nat) : StaysInLine (closingText parts) := by
  unfold closingText
  split <;> decide

theorem staysInLine_opened {names : List String} (parts : Nat)
    (h : ∀ name ∈ names, StaysInLine name) :
    StaysInLine (String.join (names.map (openingText parts ++ ·))) :=
  staysInLine_join <| List.forall_mem_map.mpr fun name hname =>
    staysInLine_append (staysInLine_openingText parts) (h name hname)

theorem staysInLine_closed (names : List String) (parts : Nat) :
    StaysInLine (String.join (names.map fun _ => closingText parts)) :=
  staysInLine_join <| List.forall_mem_map.mpr fun _ _ => staysInLine_closingText parts

theorem staysInLine_textBeforeTail {atoms : List String} (h : ∀ name ∈ atoms, StaysInLine name) :
    StaysInLine (textBeforeTail atoms) := by
  cases atoms with
  | nil => decide
  | cons first rest =>
      obtain ⟨hfirst, hrest⟩ := List.forall_mem_cons.mp h
      exact staysInLine_append (staysInLine_append hfirst (staysInLine_opened _ hrest)) (by decide)

theorem staysInLine_textAfterTail (atoms : List String) : StaysInLine (textAfterTail atoms) := by
  cases atoms with
  | nil => decide
  | cons first rest => exact staysInLine_closed rest _

theorem staysInLine_chain_none {atoms : List String} (h : ∀ name ∈ atoms, StaysInLine name) :
    StaysInLine (chain atoms none) := by
  cases atoms with
  | nil => decide
  | cons first rest =>
      obtain ⟨hfirst, hrest⟩ := List.forall_mem_cons.mp h
      rw [chain_cons]
      exact staysInLine_append (staysInLine_append (staysInLine_append hfirst
        (staysInLine_opened _ hrest)) (by decide)) (staysInLine_closed rest _)

theorem staysInLine_valueOnLine {f : Field} (h : ∀ name ∈ f.atoms, StaysInLine name) :
    StaysInLine f.valueOnLine := by
  cases f with
  | plain key atoms => exact staysInLine_chain_none h
  | literal key atoms shape fields =>
      have hopening : StaysInLine shape.opening.char.toString := by cases shape <;> decide
      exact staysInLine_append (staysInLine_textBeforeTail h) hopening

theorem staysInLine_fieldRow (tails : List Shape) (isFirst : Bool) {f : Field}
    (hkey : StaysInLine f.key) (hatoms : ∀ name ∈ f.atoms, StaysInLine name) :
    StaysInLine (Row.field tails isFirst f).text := by
  have hseparator : StaysInLine (if isFirst then "" else (shapeBehind tails).continuation) := by
    cases isFirst with
    | true => exact ⟨by simp, by simp⟩
    | false => cases shapeBehind tails <;> decide
  exact staysInLine_append (staysInLine_append (staysInLine_append hseparator hkey) (by decide))
    (staysInLine_valueOnLine hatoms)

theorem staysInLine_closingRow (tails : List Shape) (atoms : List String) :
    StaysInLine (Row.closing tails atoms).text := by
  have hclosing : StaysInLine (shapeBehind tails).closing.char.toString := by
    cases shapeBehind tails <;> decide
  exact staysInLine_append hclosing (staysInLine_textAfterTail atoms)

theorem staysInLine_head {key : String} {atoms : List String} {ls : List Lexeme}
    (h : ∀ l ∈ headLexemes key atoms ++ ls, StaysInLine l.text) :
    StaysInLine key ∧ ∀ name ∈ atoms, StaysInLine name := by
  constructor
  · have hkey := h (.ofLabel key) (by simp [headLexemes])
    rwa [Lexeme.text_ofLabel] at hkey
  · intro name hname
    exact h (.identifier name) (by simp [headLexemes, hname])

mutual

theorem Field.staysInLine_rows (tails : List Shape) (isFirst : Bool) (f : Field)
    (h : ∀ l ∈ f.lexemes, StaysInLine l.text) :
    ∀ row ∈ f.rows tails isFirst, StaysInLine row.text := by
  cases f with
  | plain key atoms =>
      rw [Field.lexemes_plain, ← List.append_nil (headLexemes key atoms)] at h
      obtain ⟨hkey, hatoms⟩ := staysInLine_head h
      have hrow := staysInLine_fieldRow tails isFirst (f := .plain key atoms) hkey hatoms
      simpa [Field.rows] using hrow
  | literal key atoms shape fields =>
      rw [Field.lexemes_literal, List.append_assoc] at h
      obtain ⟨hkey, hatoms⟩ := staysInLine_head h
      have hrow := staysInLine_fieldRow tails isFirst (f := .literal key atoms shape fields)
        hkey hatoms
      have hrows := Field.staysInLine_rowsAll (shape :: tails) shape true fields fun l hl =>
        h l (by simp [hl])
      rw [Field.rows, List.cons_append, List.forall_mem_cons, List.forall_mem_append,
        List.forall_mem_singleton]
      exact ⟨hrow, hrows, staysInLine_closingRow _ atoms⟩

theorem Field.staysInLine_rowsAll (tails : List Shape) (shape : Shape) (isFirst : Bool)
    (fields : List Field) (h : ∀ l ∈ Field.lexemesAll shape isFirst fields, StaysInLine l.text) :
    ∀ row ∈ Field.rowsAll tails isFirst fields, StaysInLine row.text := by
  cases fields with
  | nil => simp [Field.rowsAll]
  | cons f rest =>
      rw [Field.lexemesAll] at h
      rw [Field.rowsAll, List.forall_mem_append]
      exact ⟨Field.staysInLine_rows tails isFirst f fun l hl => h l (by simp [hl]),
        Field.staysInLine_rowsAll tails shape false rest fun l hl => h l (by simp [hl])⟩

end

theorem RecordType.staysInLine_rows {r : RecordType} (h : ∀ l ∈ r.lexemes, StaysInLine l.text) :
    ∀ row ∈ r.rows, StaysInLine row.text := by
  rw [RecordType.rows, List.forall_mem_append, List.forall_mem_singleton]
  refine ⟨Field.staysInLine_rowsAll [] .record true r.fields fun l hl => h l ?_,
    staysInLine_closingRow [] []⟩
  simp [RecordType.lexemes, hl]

/-! ## Lines -/

/-- All tabs before such a text are counted, and none in it. -/
theorem takeWhile_tabs_append {text : String} (count : Nat) (h : StaysInLine text) :
    (tabs count ++ text).toList.takeWhile (· == '\t') = List.replicate count '\t' := by
  have hrun : ∀ c ∈ List.replicate count '\t', (c == '\t') = true := by simp
  have hstop : text.toList.head?.any (· == '\t') = false := by
    cases hhead : text.toList.head? with
    | none => rfl
    | some c =>
        have hc : c ≠ '\t' := fun heq => h.2 (heq ▸ List.mem_of_head? hhead)
        simp [hc]
  rw [String.toList_append, tabs, String.toList_ofList]
  exact (Text.takeWhile_append_stop hrun hstop).1

theorem flatMap_concat_eq_intercalate {α : Type} (separator : α) {lines : List (List α)}
    (h : lines ≠ []) :
    (lines.flatMap fun line => line ++ [separator]) =
      [separator].intercalate lines ++ [separator] := by
  induction lines with
  | nil => exact absurd rfl h
  | cons line rest ih =>
      cases rest with
      | nil => simp
      | cons next rest => rw [List.flatMap_cons, ih (by simp), List.intercalate_cons_cons]; simp

/-- Below the opening brace a printed type has the lines of its rows. Each of them stands exactly as
far in as its row says, and a closing bracket one tab less than the fields of its literal. -/
theorem lines_render (r : RecordType) {level : Nat} (hlevel : 1 ≤ level)
    (h : ∀ l ∈ r.lexemes, StaysInLine l.text) :
    (r.render level).toList.splitOn '\n' =
      ("\x7b" :: r.rows.map (Row.line level)).map String.toList ∧
    (∀ row ∈ r.rows,
      (row.line level).toList.takeWhile (· == '\t') = List.replicate (row.tabs level) '\t') ∧
    ∀ tails atoms isFirst f,
      (Row.closing tails atoms).tabs level + 1 = (Row.field tails isFirst f).tabs level := by
  refine ⟨?lines, ?tabs, ?closing⟩
  case lines =>
    have htext : (r.render level).toList ++ ['\n'] =
        (("\x7b" :: r.rows.map (Row.line level)).map String.toList).flatMap (· ++ ['\n']) := by
      have hrows := congrArg String.toList (r.render_eq_linesText level)
      simpa [linesText, String.toList_join, List.flatMap_map, Function.comp_def] using hrows
    rw [flatMap_concat_eq_intercalate _ (by simp), List.append_left_inj] at htext
    rw [htext]
    refine List.splitOn_intercalate _ ?_ (by simp)
    simp only [List.map_cons, List.map_map, List.forall_mem_cons, List.forall_mem_map]
    refine ⟨by decide, fun row hrow => ?_⟩
    have hrow := (RecordType.staysInLine_rows h row hrow).1
    simp [Row.line, tabs, hrow]
  case tabs =>
    exact fun row hrow => takeWhile_tabs_append _ (RecordType.staysInLine_rows h row hrow)
  case closing =>
    intro tails atoms isFirst f
    simp only [Row.tabs, indentation]
    omega

theorem lines_render_mixedRecord :
    (∀ l ∈ mixedRecord.lexemes, StaysInLine l.text) ∧
    (mixedRecord.render 1).toList.splitOn '\n' = List.map String.toList
      ["\x7b", "\t`a, b`: Map ( Text ( Text ) )", "\t, c: ", "\t, c: \x7b", "\t\t\x7d",
        "\t, d: Optional ( List ( List <", "\t\tE: ", "\t\t | F: List <", "\t\t>", "\t\t | G: \x7b",
        "\t\t\t\tc: Bool", "\t\t\t\x7d", "\t> ) )", "\x7d"] := by
  have hlexemes : ∀ l ∈ mixedRecord.lexemes, StaysInLine l.text := by decide
  exact ⟨hlexemes, (lines_render mixedRecord Nat.one_pos hlexemes).1⟩

end ManifestTypes.TypeExpr
