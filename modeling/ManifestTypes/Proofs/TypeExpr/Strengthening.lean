import ManifestTypes.Proofs.TypeExpr.Printing
import ManifestTypes.TypeExpr.Strengthen

/-!
# What strengthening keeps

A strengthened type is as readable as the type itself and is not changed by another pass. It is
nested as deeply as before except where a record under `image` becomes a union with a record
inside, which takes one more literal.
-/

namespace ManifestTypes.TypeExpr

/-! ## A second pass -/

theorem optional_optional (atoms : List String) : optional (optional atoms) = optional atoms := by
  by_cases h : atoms.head? = some "Optional"
  · simp [optional, h]
  · simp [optional, h]

theorem Field.makeOptional_makeOptional (f : Field) :
    f.makeOptional.makeOptional = f.makeOptional := by
  cases f <;> simp [Field.makeOptional, optional_optional]

theorem containsKey_withField (added : Field) (fields : List Field) :
    Field.containsKey (withField added fields) added.key = true := by
  unfold withField
  split
  · next h => exact h
  · simp [Field.containsKey]

theorem withField_withField (added : Field) (fields : List Field) :
    withField added (withField added fields) = withField added fields := by
  rw [withField, if_pos (containsKey_withField added fields)]

mutual

theorem Field.strengthen_strengthen (f : Field) : f.strengthen.strengthen = f.strengthen := by
  match f with
  | .plain key atoms => rfl
  | .literal key atoms .union fields => rfl
  | .literal key atoms .record fields =>
      cases hrule : Rule.ofKey key with
      | containerResources => simp [Field.strengthen, hrule]
      | image => simp [Field.strengthen, hrule]
      | metadata => simp [Field.strengthen, hrule, withField_withField]
      | env => simp [Field.strengthen, hrule, Field.makeOptional_makeOptional]
      | descend => simp [Field.strengthen, hrule, Field.strengthenAll_strengthenAll fields]

theorem Field.strengthenAll_strengthenAll (fields : List Field) :
    Field.strengthenAll (Field.strengthenAll fields) = Field.strengthenAll fields := by
  match fields with
  | [] => rfl
  | f :: rest =>
      simp [Field.strengthenAll, Field.strengthen_strengthen f,
        Field.strengthenAll_strengthenAll rest]

end

mutual

theorem Field.holdsEnv_strengthen (f : Field) : f.strengthen.holdsEnv = f.holdsEnv := by
  match f with
  | .plain key atoms => rfl
  | .literal key atoms .union fields => rfl
  | .literal key atoms .record fields =>
      cases hrule : Rule.ofKey key with
      | containerResources => simp [Field.strengthen, Field.holdsEnv, hrule]
      | image => simp [Field.strengthen, Field.holdsEnv, hrule]
      | metadata => simp [Field.strengthen, Field.holdsEnv, hrule]
      | env => simp [Field.strengthen, Field.holdsEnv, hrule]
      | descend =>
          simp [Field.strengthen, Field.holdsEnv, hrule, Field.anyHoldsEnv_strengthenAll fields]

theorem Field.anyHoldsEnv_strengthenAll (fields : List Field) :
    Field.anyHoldsEnv (Field.strengthenAll fields) = Field.anyHoldsEnv fields := by
  match fields with
  | [] => rfl
  | f :: rest =>
      simp [Field.strengthenAll, Field.anyHoldsEnv, Field.holdsEnv_strengthen f,
        Field.anyHoldsEnv_strengthenAll rest]

end

theorem strengthen_additionalEnv : additionalEnv.strengthen = additionalEnv := by
  decide

theorem holdsEnv_additionalEnv : additionalEnv.holdsEnv = false := by
  decide

theorem strengthenAll_withField_additionalEnv (fields : List Field) :
    Field.strengthenAll (withField additionalEnv (Field.strengthenAll fields)) =
      withField additionalEnv (Field.strengthenAll fields) := by
  unfold withField
  split
  · exact Field.strengthenAll_strengthenAll fields
  · have hfields := Field.strengthenAll_strengthenAll fields
    rw [Field.strengthenAll_eq_map] at hfields ⊢
    rw [List.map_append, hfields, List.map_singleton, strengthen_additionalEnv]

theorem anyHoldsEnv_withField_additionalEnv (fields : List Field) :
    Field.anyHoldsEnv (withField additionalEnv fields) = Field.anyHoldsEnv fields := by
  unfold withField
  split
  · rfl
  · simp [Field.anyHoldsEnv_eq_any, holdsEnv_additionalEnv]

theorem RecordType.strengthen_strengthen (r : RecordType) :
    r.strengthen.strengthen = r.strengthen := by
  cases henv : Field.anyHoldsEnv r.fields with
  | true =>
      have hagain := anyHoldsEnv_withField_additionalEnv (Field.strengthenAll r.fields)
      rw [Field.anyHoldsEnv_strengthenAll, henv] at hagain
      simp [RecordType.strengthen, henv, hagain, strengthenAll_withField_additionalEnv,
        withField_withField]
  | false =>
      simp [RecordType.strengthen, henv, Field.anyHoldsEnv_strengthenAll,
        Field.strengthenAll_strengthenAll]

/-! ## Labels and names -/

theorem Field.readableAll_append (first second : List Field) :
    Field.ReadableAll (first ++ second) ↔ Field.ReadableAll first ∧ Field.ReadableAll second := by
  induction first with
  | nil => simp [Field.ReadableAll]
  | cons f rest ih => simp [Field.ReadableAll, ih, and_assoc]

theorem readableAll_containerResources : Field.ReadableAll containerResources := by
  decide

theorem readableAll_imageAlternatives : Field.ReadableAll imageAlternatives := by
  decide

theorem readable_namespaceField : namespaceField.Readable := by
  decide

theorem readable_additionalEnv : additionalEnv.Readable := by
  decide

theorem isName_Optional : IsName "Optional" := by
  decide

theorem isName_of_mem_optional {atoms : List String} (h : ∀ name ∈ atoms, IsName name) :
    ∀ name ∈ optional atoms, IsName name := by
  intro name hname
  unfold optional at hname
  split at hname
  · exact h name hname
  · rcases List.mem_cons.mp hname with rfl | hname
    · exact isName_Optional
    · exact h name hname

theorem Field.Readable.makeOptional {f : Field} (h : f.Readable) : f.makeOptional.Readable := by
  cases f with
  | plain key atoms => exact ⟨h.1, isName_of_mem_optional h.2⟩
  | literal key atoms shape fields => exact ⟨h.1, isName_of_mem_optional h.2.1, h.2.2⟩

theorem Field.ReadableAll.map_makeOptional {fields : List Field} (h : Field.ReadableAll fields) :
    Field.ReadableAll (fields.map Field.makeOptional) := by
  induction fields with
  | nil => trivial
  | cons f rest ih => exact ⟨Field.Readable.makeOptional h.1, ih h.2⟩

theorem Field.ReadableAll.withField {fields : List Field} {added : Field}
    (h : Field.ReadableAll fields) (hadded : added.Readable) :
    Field.ReadableAll (withField added fields) := by
  unfold TypeExpr.withField
  split
  · exact h
  · exact (Field.readableAll_append fields [added]).mpr ⟨h, hadded, trivial⟩

mutual

theorem Field.Readable.strengthen {f : Field} (h : f.Readable) : f.strengthen.Readable := by
  match f with
  | .plain key atoms => exact h
  | .literal key atoms .union fields => exact h
  | .literal key atoms .record fields =>
      obtain ⟨hkey, hatoms, hfields⟩ := h
      cases hrule : Rule.ofKey key with
      | containerResources =>
          simp only [Field.strengthen, hrule]
          exact ⟨hkey, hatoms, readableAll_containerResources⟩
      | image =>
          simp only [Field.strengthen, hrule]
          exact ⟨hkey, hatoms, readableAll_imageAlternatives⟩
      | metadata =>
          simp only [Field.strengthen, hrule]
          exact ⟨hkey, hatoms, hfields.withField readable_namespaceField⟩
      | env =>
          simp only [Field.strengthen, hrule]
          exact ⟨hkey, hatoms, hfields.map_makeOptional⟩
      | descend =>
          simp only [Field.strengthen, hrule]
          exact ⟨hkey, hatoms, Field.ReadableAll.strengthenAll hfields⟩

theorem Field.ReadableAll.strengthenAll {fields : List Field} (h : Field.ReadableAll fields) :
    Field.ReadableAll (Field.strengthenAll fields) := by
  match fields with
  | [] => trivial
  | f :: rest => exact ⟨Field.Readable.strengthen h.1, Field.ReadableAll.strengthenAll h.2⟩

end

theorem RecordType.Readable.strengthen {r : RecordType} (h : r.Readable) :
    r.strengthen.Readable := by
  have hfields := Field.ReadableAll.strengthenAll h
  simp only [RecordType.strengthen, RecordType.Readable]
  split
  · exact hfields.withField readable_additionalEnv
  · exact hfields

/-! ## Nesting -/

theorem Field.nesting_makeOptional (f : Field) : f.makeOptional.nesting = f.nesting := by
  cases f <;> simp [Field.makeOptional, Field.nesting]

theorem Field.nestingAll_map_makeOptional (fields : List Field) :
    Field.nestingAll (fields.map Field.makeOptional) = Field.nestingAll fields := by
  induction fields with
  | nil => rfl
  | cons f rest ih => simp [Field.nestingAll, Field.nesting_makeOptional, ih]

theorem nestingAll_withField_le_iff {added : Field} {room : Nat} (h : added.nesting ≤ room)
    (fields : List Field) :
    Field.nestingAll (withField added fields) ≤ room ↔ Field.nestingAll fields ≤ room := by
  unfold withField
  split
  · rfl
  · rw [Field.nestingAll_concat, Nat.max_le]
    exact and_iff_left h

mutual

/-- Whether the rule for `image` acts on a record with no room for a literal inside, where a
number of literals may lie within each other. -/
def Field.imageAtLimit : Nat → Field → Bool
  | _, .plain _ _ => false
  | _, .literal _ _ .union _ => false
  | room, .literal key _ .record fields =>
    match Rule.ofKey key with
    | .image => room == 1
    | .descend => Field.anyImageAtLimit (room - 1) fields
    | _ => false

def Field.anyImageAtLimit : Nat → List Field → Bool
  | _, [] => false
  | room, f :: rest => f.imageAtLimit room || Field.anyImageAtLimit room rest

end

/-- Whether strengthening replaces an `image` record that is nested as deeply as possible. -/
def RecordType.imageAtLimit (r : RecordType) : Bool :=
  Field.anyImageAtLimit (maxNesting - 1) r.fields

mutual

theorem Field.nesting_strengthen_le_iff {room : Nat} {f : Field} (h : f.nesting ≤ room) :
    f.strengthen.nesting ≤ room ↔ f.imageAtLimit room = false := by
  match f with
  | .plain key atoms => simp [Field.strengthen, Field.imageAtLimit, h]
  | .literal key atoms .union fields => simp [Field.strengthen, Field.imageAtLimit, h]
  | .literal key atoms .record fields =>
      rw [Field.nesting] at h
      cases hrule : Rule.ofKey key with
      | containerResources =>
          have hfixed : Field.nestingAll containerResources = 0 := by decide
          simp only [Field.strengthen, Field.imageAtLimit, hrule, Field.nesting, hfixed]
          exact iff_of_true (by omega) trivial
      | image =>
          have hfixed : Field.nestingAll imageAlternatives = 1 := by decide
          simp only [Field.strengthen, Field.imageAtLimit, hrule, Field.nesting, hfixed,
            beq_eq_false_iff_ne]
          omega
      | metadata =>
          have hadded : namespaceField.nesting ≤ room - 1 := by
            rw [show namespaceField.nesting = 0 by decide]
            exact Nat.zero_le _
          have hfields := (nestingAll_withField_le_iff hadded fields).mpr (by omega)
          simp only [Field.strengthen, Field.imageAtLimit, hrule, Field.nesting]
          exact iff_of_true (by omega) trivial
      | env =>
          simp only [Field.strengthen, Field.imageAtLimit, hrule, Field.nesting,
            Field.nestingAll_map_makeOptional]
          exact iff_of_true h trivial
      | descend =>
          have hinner : Field.nestingAll fields ≤ room - 1 := by omega
          have ih := Field.nestingAll_strengthenAll_le_iff hinner
          simp only [Field.strengthen, Field.imageAtLimit, hrule, Field.nesting]
          rw [← ih]
          omega

theorem Field.nestingAll_strengthenAll_le_iff {room : Nat} {fields : List Field}
    (h : Field.nestingAll fields ≤ room) :
    Field.nestingAll (Field.strengthenAll fields) ≤ room ↔
      Field.anyImageAtLimit room fields = false := by
  match fields with
  | [] => simp [Field.strengthenAll, Field.nestingAll, Field.anyImageAtLimit]
  | f :: rest =>
      rw [Field.nestingAll, Nat.max_le] at h
      rw [Field.strengthenAll, Field.nestingAll, Nat.max_le, Field.anyImageAtLimit,
        Bool.or_eq_false_iff, Field.nesting_strengthen_le_iff h.1,
        Field.nestingAll_strengthenAll_le_iff h.2]

end

/-- Only an `image` record on the last level makes a strengthened type too deep. -/
theorem RecordType.nesting_strengthen_le_iff {r : RecordType} (h : r.nesting ≤ maxNesting) :
    r.strengthen.nesting ≤ maxNesting ↔ r.imageAtLimit = false := by
  have hroom : Field.nestingAll r.fields ≤ maxNesting - 1 := Nat.le_sub_one_of_lt h
  have hfields := Field.nestingAll_strengthenAll_le_iff hroom
  have hadded : additionalEnv.nesting ≤ maxNesting - 1 := by decide
  have hall := nestingAll_withField_le_iff hadded (Field.strengthenAll r.fields)
  have hmax : 0 < maxNesting := by decide
  rw [RecordType.imageAtLimit, ← hfields]
  simp only [RecordType.strengthen, RecordType.nesting]
  split <;> omega

/-! ## Reading the result -/

theorem RecordType.spells_line (r : RecordType) (h : r.Readable) (level : Nat) :
    Spells (r.render level ++ "\n").toList r.lexemes := by
  have hbreak : Spells "\n".toList [] := spells_ignored (by decide)
  have hline := (r.spells_render h level).before hbreak (by decide)
  rwa [List.append_nil, ← String.toList_append] at hline

theorem parse_strengthened {source text : String} {r : RecordType} (h : parse source = .ok r)
    (htext : Spells text.toList r.strengthen.lexemes) (hlimit : r.imageAtLimit = false) :
    parse text = .ok r.strengthen := by
  have hnesting := (parse_eq_ok_iff_spells.mp h).2
  have hkept := (RecordType.nesting_strengthen_le_iff hnesting).mpr hlimit
  exact parse_eq_ok_iff_spells.mpr ⟨htext, hkept⟩

theorem parse_strengthened_at_limit {source text : String} {r : RecordType}
    (h : parse source = .ok r) (htext : Spells text.toList r.strengthen.lexemes)
    (hlimit : r.imageAtLimit = true) : ∃ e, parse text = .error e := by
  have hnesting := (parse_eq_ok_iff_spells.mp h).2
  refine parse_eq_error_of_spells htext (Nat.lt_of_not_le fun hle => ?_)
  rw [RecordType.nesting_strengthen_le_iff hnesting, hlimit] at hle
  cases hle

theorem render_strengthen_unreadable {r : RecordType} (level : Nat)
    (h : parse (r.render level) = .ok r) (hlimit : r.imageAtLimit = true) :
    parse (r.strengthen.render level) ≠ .ok r.strengthen := by
  intro hagain
  have hspells := r.strengthen.spells_render (readable_of_parse h).strengthen level
  obtain ⟨e, he⟩ := parse_strengthened_at_limit h hspells hlimit
  rw [he] at hagain
  cases hagain

/-! ## An `image` record on the last level -/

def buriedImage : Nat → Field
  | 0 => .literal "image" [] .record []
  | depth + 1 => .literal "a" [] .record [buriedImage depth]

theorem readable_buriedImage (depth : Nat) : (buriedImage depth).Readable := by
  induction depth with
  | zero => decide
  | succ depth ih =>
      have hkey : IsLabel "a" := by decide
      exact ⟨hkey, by simp, ih, trivial⟩

theorem nesting_buriedImage (depth : Nat) : (buriedImage depth).nesting = depth + 1 := by
  induction depth with
  | zero => rfl
  | succ depth ih => simp [buriedImage, Field.nesting, Field.nestingAll, ih]

theorem imageAtLimit_buriedImage (depth : Nat) :
    (buriedImage depth).imageAtLimit (depth + 1) = true := by
  induction depth with
  | zero => rfl
  | succ depth ih =>
      have hrule : Rule.ofKey "a" = .descend := rfl
      simp [buriedImage, Field.imageAtLimit, Field.anyImageAtLimit, hrule, ih]

def deepestImage : RecordType :=
  ⟨[buriedImage 254]⟩

theorem nesting_deepestImage : deepestImage.nesting = maxNesting := by
  rw [deepestImage, RecordType.nesting, Field.nestingAll, Field.nestingAll, nesting_buriedImage]
  rfl

theorem imageAtLimit_deepestImage : deepestImage.imageAtLimit = true := by
  have hroom : maxNesting - 1 = 254 + 1 := rfl
  rw [RecordType.imageAtLimit, deepestImage, Field.anyImageAtLimit, hroom,
    imageAtLimit_buriedImage]
  rfl

theorem parse_deepestImage : parse (deepestImage.render 1) = .ok deepestImage := by
  have hreadable : deepestImage.Readable := ⟨readable_buriedImage 254, trivial⟩
  have hnesting := Nat.le_of_eq nesting_deepestImage
  exact parse_eq_ok_iff_spells.mpr ⟨deepestImage.spells_render hreadable 1, hnesting⟩

end ManifestTypes.TypeExpr
