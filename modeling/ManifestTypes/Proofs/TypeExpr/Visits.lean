import Mathlib
import ManifestTypes.Proofs.TypeExpr.Strengthening

/-!
# Where strengthening acts

Labels may repeat, so fields are told apart by their places. The fields that a pass looks at are
said from the outermost record on, without the pass, and what becomes of each of them is said rule
by rule. Together this fixes the strengthened type. The types that rules put in are those that the
texts for them are read as.
-/

namespace ManifestTypes.TypeExpr

/-! ## Places -/

/-- The field at a place, which lists indices from the field outwards: its own, then the one of
the field that it lies in, up to one in the outermost record. -/
def RecordType.fieldAt? (r : RecordType) : List Nat → Option Field
  | [] => none
  | [i] => r.fields[i]?
  | i :: outer => do
    let field ← r.fieldAt? outer
    let tail ← field.tail
    tail.fields[i]?

/-- The labels that have a rule of their own, under which records are not searched. -/
def ruledLabels : List String :=
  ["limits", "requests", "image", "metadata", "env"]

/-- The fields that a pass looks at, with their places: those of the outermost record, and those
of a record that ends such a field under a label without a rule. -/
inductive Visited (r : RecordType) : List Nat → Field → Prop where
  | outermost {i : Nat} {f : Field} (hf : r.fields[i]? = some f) : Visited r [i] f
  | inside {place : List Nat} {f : Field} {inner : List Field} {i : Nat} {g : Field}
      (hf : Visited r place f) (hinner : f.record? = some inner) (hkey : f.key ∉ ruledLabels)
      (hg : inner[i]? = some g) : Visited r (i :: place) g

theorem RecordType.fieldAt?_inside {r : RecordType} {place : List Nat} {f : Field}
    {tail : Literal} (hf : r.fieldAt? place = some f) (htail : f.tail = some tail) (i : Nat) :
    r.fieldAt? (i :: place) = tail.fields[i]? := by
  cases place with
  | nil => cases hf
  | cons =>
      rw [RecordType.fieldAt?, hf]
      · simp [htail]
      · exact List.cons_ne_nil _ _

/-- A field ends in its names, in a union or in a record. -/
theorem Field.cases_end {motive : Field → Prop}
    (plain : ∀ key atoms, motive (.plain key atoms))
    (union : ∀ key atoms fields, motive (.literal key atoms .union fields))
    (record : ∀ key atoms fields, motive (.literal key atoms .record fields)) (f : Field) :
    motive f := by
  cases f with
  | plain key atoms => exact plain key atoms
  | literal key atoms shape fields =>
      cases shape with
      | union => exact union key atoms fields
      | record => exact record key atoms fields

theorem Field.record?_eq_some_iff {f : Field} {inner : List Field} :
    f.record? = some inner ↔ f = .literal f.key f.atoms .record inner := by
  cases f using Field.cases_end with
  | plain key atoms => simp [Field.record?, Field.tail, Field.value]
  | union key atoms fields => simp [Field.record?, Field.tail, Field.value]
  | record key atoms fields =>
      simp [Field.record?, Field.tail, Field.value, Field.key, Field.atoms]

theorem Field.record?_of_tail {f : Field} {inner : List Field}
    (h : f.tail = some ⟨.record, inner⟩) : f.record? = some inner := by
  rw [Field.record?, h]

theorem Field.eq_of_parts {f g : Field} (hkey : g.key = f.key) (hatoms : g.atoms = f.atoms)
    (htail : g.tail = f.tail) : g = f := by
  rw [← Field.ofValue_value f, ← Field.ofValue_value g, hkey]
  congr 1
  cases hf : f.value
  cases hg : g.value
  simp_all [Field.atoms, Field.tail]

/-- What holds of a literal if it holds of its fields holds of every field. -/
theorem Field.induction {motive : Field → Prop}
    (plain : ∀ key atoms, motive (.plain key atoms))
    (literal : ∀ key atoms shape fields, (∀ f ∈ fields, motive f) →
      motive (.literal key atoms shape fields)) (f : Field) : motive f := by
  match f with
  | .plain key atoms => exact plain key atoms
  | .literal key atoms shape fields =>
      exact literal key atoms shape fields fun g hg => Field.induction plain literal g
termination_by sizeOf f
decreasing_by
  have := List.sizeOf_lt_of_mem hg
  simp
  omega

/-! ## What becomes of a visited field -/

/-- A variable that has become optional, with nothing else changed. -/
structure MadeOptional (before after : Field) : Prop where
  key : after.key = before.key
  atoms : after.atoms =
    if before.atoms.head? = some "Optional" then before.atoms else "Optional" :: before.atoms
  tail : after.tail = before.tail

def AllMadeOptional (before after : List Field) : Prop :=
  after.length = before.length ∧ ∀ (i : Nat) (f : Field), before[i]? = some f →
    ∃ g, after[i]? = some g ∧ MadeOptional f g

/-- What the application of a visited field ends in after the pass, by the rule for its label. -/
inductive NewTail (f : Field) : Option Literal → Prop where
  | unchanged (hrecord : f.record? = none) : NewTail f f.tail
  | resources {inner : List Field} (hrecord : f.record? = some inner)
      (hkey : f.key = "limits" ∨ f.key = "requests") :
      NewTail f (some ⟨.record, containerResources⟩)
  | image {inner : List Field} (hrecord : f.record? = some inner) (hkey : f.key = "image") :
      NewTail f (some ⟨.union, imageAlternatives⟩)
  | namespaced {inner : List Field} (hrecord : f.record? = some inner)
      (hkey : f.key = "metadata") (hthere : ∃ g ∈ inner, g.key = "namespace") :
      NewTail f (some ⟨.record, inner⟩)
  | withNamespace {inner : List Field} (hrecord : f.record? = some inner)
      (hkey : f.key = "metadata") (hmissing : ∀ g ∈ inner, g.key ≠ "namespace") :
      NewTail f (some ⟨.record, inner ++ [.plain "namespace" ["Optional", "Text"]]⟩)
  | environment {inner after : List Field} (hrecord : f.record? = some inner)
      (hkey : f.key = "env") (hvariables : AllMadeOptional inner after) :
      NewTail f (some ⟨.record, after⟩)
  | searched {inner after : List Field} (hrecord : f.record? = some inner)
      (hkey : f.key ∉ ruledLabels) (hlength : after.length = inner.length) :
      NewTail f (some ⟨.record, after⟩)

/-- An `env` record is visited, and the outermost record has no field for more variables. -/
def RecordType.LacksEnv (r : RecordType) : Prop :=
  (∃ place f inner, Visited r place f ∧ f.key = "env" ∧ f.record? = some inner) ∧
    ∀ f ∈ r.fields, f.key ≠ "additionalEnv"

/-- Every visited field is in its place with its label and its names and ends as its rule says,
and the outermost record has gained a field at most. -/
structure StrengthenedTo (r t : RecordType) : Prop where
  visited : ∀ place f, Visited r place f →
    ∃ g, t.fieldAt? place = some g ∧ g.key = f.key ∧ g.atoms = f.atoms ∧ NewTail f g.tail
  gained : r.LacksEnv → t.fields.length = r.fields.length + 1 ∧
    t.fields[r.fields.length]? = some additionalEnv
  kept : ¬ r.LacksEnv → t.fields.length = r.fields.length

/-! ## The fixed types -/

theorem parse_containerResourcesSource :
    parse containerResourcesSource = .ok ⟨containerResources⟩ := by
  cbv

theorem parse_imageSource :
    parse imageSource = .ok ⟨[.literal "image" [] .union imageAlternatives]⟩ := by
  cbv

theorem parse_additionalEnvSource : parse additionalEnvSource = .ok ⟨[additionalEnv]⟩ := by
  cbv

/-! ## One field -/

def Rule.IsFor : Rule → String → Prop
  | .containerResources, key => key = "limits" ∨ key = "requests"
  | .image, key => key = "image"
  | .metadata, key => key = "metadata"
  | .env, key => key = "env"
  | .descend, key => key ∉ ruledLabels

theorem Rule.ofKey_eq_iff {key : String} {rule : Rule} :
    Rule.ofKey key = rule ↔ rule.IsFor key := by
  unfold Rule.ofKey
  cases rule <;> simp only [Rule.IsFor, ruledLabels] <;> grind

theorem containsKey_eq_true_iff {fields : List Field} {key : String} :
    Field.containsKey fields key = true ↔ ∃ f ∈ fields, f.key = key := by
  simp [Field.containsKey]

theorem Field.madeOptional (f : Field) : MadeOptional f f.makeOptional := by
  cases f <;> exact ⟨rfl, rfl, rfl⟩

theorem MadeOptional.eq {f g : Field} (h : MadeOptional f g) : g = f.makeOptional := by
  have hf := f.madeOptional
  exact Field.eq_of_parts (h.key.trans hf.key.symm) (h.atoms.trans hf.atoms.symm)
    (h.tail.trans hf.tail.symm)

theorem allMadeOptional_iff {before after : List Field} :
    AllMadeOptional before after ↔ after = before.map Field.makeOptional := by
  constructor
  · rintro ⟨hlength, heach⟩
    refine List.ext_getElem (by simp [hlength]) fun i hi hi' => ?_
    have hbound : i < before.length := hlength ▸ hi
    obtain ⟨g, hg, hmade⟩ := heach i before[i] (List.getElem?_eq_getElem hbound)
    rw [List.getElem_map, ← hmade.eq]
    exact (List.getElem?_eq_some_iff.mp hg).2
  · rintro rfl
    exact ⟨List.length_map _, fun i f hf => ⟨f.makeOptional, by simp [hf], f.madeOptional⟩⟩

theorem Field.key_strengthen (f : Field) : f.strengthen.key = f.key := by
  cases f using Field.cases_end with
  | plain key atoms => rfl
  | union key atoms fields => rfl
  | record key atoms fields =>
      cases hrule : Rule.ofKey key <;> simp [Field.strengthen, hrule, Field.key]

theorem Field.atoms_strengthen (f : Field) : f.strengthen.atoms = f.atoms := by
  cases f using Field.cases_end with
  | plain key atoms => rfl
  | union key atoms fields => rfl
  | record key atoms fields =>
      cases hrule : Rule.ofKey key <;> simp [Field.strengthen, hrule, Field.atoms, Field.value]

theorem Field.eq_strengthen {f g : Field} (hkey : g.key = f.key) (hatoms : g.atoms = f.atoms)
    (htail : g.tail = f.strengthen.tail) : g = f.strengthen :=
  Field.eq_of_parts (hkey.trans f.key_strengthen.symm) (hatoms.trans f.atoms_strengthen.symm) htail

theorem Field.strengthen_of_record?_eq_none {f : Field} (h : f.record? = none) :
    f.strengthen = f := by
  cases f using Field.cases_end with
  | plain key atoms => rfl
  | union key atoms fields => rfl
  | record key atoms fields => cases h

def Rule.newLiteral : Rule → List Field → Literal
  | .containerResources, _ => ⟨.record, TypeExpr.containerResources⟩
  | .image, _ => ⟨.union, imageAlternatives⟩
  | .metadata, inner => ⟨.record, withField namespaceField inner⟩
  | .env, inner => ⟨.record, inner.map Field.makeOptional⟩
  | .descend, inner => ⟨.record, inner.map Field.strengthen⟩

theorem Field.tail_strengthen (rule : Rule) {f : Field} {inner : List Field}
    (h : f.record? = some inner) (hrule : rule.IsFor f.key) :
    f.strengthen.tail = some (rule.newLiteral inner) := by
  have hkey : Rule.ofKey f.key = rule := Rule.ofKey_eq_iff.mpr hrule
  rw [Field.record?_eq_some_iff.mp h, Field.strengthen, hkey]
  cases rule <;>
    simp [Field.tail, Field.value, Rule.newLiteral, Field.strengthenAll_eq_map]

theorem withField_of_mem {added : Field} {fields : List Field}
    (h : ∃ f ∈ fields, f.key = added.key) : withField added fields = fields := by
  rw [withField, if_pos (containsKey_eq_true_iff.mpr h)]

theorem withField_of_not_mem {added : Field} {fields : List Field}
    (h : ∀ f ∈ fields, f.key ≠ added.key) : withField added fields = fields ++ [added] := by
  rw [withField, if_neg]
  intro hthere
  obtain ⟨f, hf, hkey⟩ := containsKey_eq_true_iff.mp hthere
  exact h f hf hkey

theorem Field.newTail_strengthen (f : Field) : NewTail f f.strengthen.tail := by
  cases hrecord : f.record? with
  | none =>
      rw [Field.strengthen_of_record?_eq_none hrecord]
      exact .unchanged hrecord
  | some inner =>
      obtain ⟨rule, hrule⟩ : ∃ rule, Rule.ofKey f.key = rule := ⟨_, rfl⟩
      have hkey := Rule.ofKey_eq_iff.mp hrule
      rw [Field.tail_strengthen rule hrecord hkey]
      cases rule with
      | containerResources => exact .resources hrecord hkey
      | image => exact .image hrecord hkey
      | metadata =>
          by_cases hthere : ∃ g ∈ inner, g.key = "namespace"
          · rw [Rule.newLiteral, withField_of_mem hthere]
            exact .namespaced hrecord hkey hthere
          · have hmissing : ∀ g ∈ inner, g.key ≠ "namespace" :=
              fun g hg hname => hthere ⟨g, hg, hname⟩
            rw [Rule.newLiteral, withField_of_not_mem hmissing]
            exact .withNamespace hrecord hkey hmissing
      | env => exact .environment hrecord hkey (allMadeOptional_iff.mpr rfl)
      | descend => exact .searched hrecord hkey (List.length_map _)

/-- The rules leave no choice, but for the fields of a record that is searched. -/
theorem NewTail.eq_or_searched {f : Field} {tail : Option Literal} (h : NewTail f tail) :
    tail = f.strengthen.tail ∨
      ∃ inner after, f.record? = some inner ∧ f.key ∉ ruledLabels ∧
        after.length = inner.length ∧ tail = some ⟨.record, after⟩ := by
  cases h with
  | unchanged hrecord =>
      left
      rw [Field.strengthen_of_record?_eq_none hrecord]
  | resources hrecord hkey =>
      exact .inl (Field.tail_strengthen .containerResources hrecord hkey).symm
  | image hrecord hkey => exact .inl (Field.tail_strengthen .image hrecord hkey).symm
  | namespaced hrecord hkey hthere =>
      left
      rw [Field.tail_strengthen .metadata hrecord hkey, Rule.newLiteral, withField_of_mem hthere]
  | withNamespace hrecord hkey hmissing =>
      left
      rw [Field.tail_strengthen .metadata hrecord hkey, Rule.newLiteral,
        withField_of_not_mem hmissing]
      rfl
  | environment hrecord hkey hvariables =>
      left
      rw [Field.tail_strengthen .env hrecord hkey, Rule.newLiteral,
        allMadeOptional_iff.mp hvariables]
  | searched hrecord hkey hlength => exact .inr ⟨_, _, hrecord, hkey, hlength, rfl⟩

/-! ## The search for variables -/

theorem Field.holdsEnv_eq_true_iff {f : Field} :
    f.holdsEnv = true ↔ ∃ inner, f.record? = some inner ∧
      (f.key = "env" ∨ f.key ∉ ruledLabels ∧ ∃ g ∈ inner, g.holdsEnv = true) := by
  cases f using Field.cases_end with
  | plain key atoms => simp [Field.holdsEnv, Field.record?, Field.tail, Field.value]
  | union key atoms fields =>
      simp [Field.holdsEnv, Field.record?, Field.tail, Field.value]
  | record key atoms fields =>
      have henv : Rule.ofKey key = .env ↔ key = "env" := Rule.ofKey_eq_iff
      have hdescend : Rule.ofKey key = .descend ↔ key ∉ ruledLabels := Rule.ofKey_eq_iff
      simp only [Field.holdsEnv, Field.record?, Field.tail, Field.value, Field.key,
        Option.some.injEq, exists_eq_left', ← henv, ← hdescend]
      cases Rule.ofKey key <;> simp [Field.anyHoldsEnv_eq_any]

theorem Visited.anyHoldsEnv {r : RecordType} {place : List Nat} {f : Field}
    (h : Visited r place f) (henv : f.holdsEnv = true) : Field.anyHoldsEnv r.fields = true := by
  induction h with
  | outermost hf =>
      rw [Field.anyHoldsEnv_eq_any, List.any_eq_true]
      exact ⟨_, List.mem_of_getElem? hf, henv⟩
  | inside hf hinner hkey hg ih =>
      apply ih
      rw [Field.holdsEnv_eq_true_iff]
      exact ⟨_, hinner, .inr ⟨hkey, _, List.mem_of_getElem? hg, henv⟩⟩

theorem Visited.exists_env {r : RecordType} {f : Field} :
    ∀ {place}, Visited r place f → f.holdsEnv = true →
      ∃ place g inner, Visited r place g ∧ g.key = "env" ∧ g.record? = some inner := by
  induction f using Field.induction with
  | plain key atoms =>
      intro place _ henv
      cases henv
  | literal key atoms shape fields ih =>
      intro place h henv
      obtain ⟨inner, hinner, hkey | ⟨hkey, g, hg, hgenv⟩⟩ :=
        Field.holdsEnv_eq_true_iff.mp henv
      · exact ⟨place, _, inner, h, hkey, hinner⟩
      · obtain ⟨i, hi⟩ := List.mem_iff_getElem?.mp hg
        cases shape with
        | union => cases hinner
        | record =>
            cases hinner
            exact ih g hg (.inside h rfl hkey hi) hgenv

theorem anyHoldsEnv_eq_true_iff {r : RecordType} :
    Field.anyHoldsEnv r.fields = true ↔
      ∃ place f inner, Visited r place f ∧ f.key = "env" ∧ f.record? = some inner := by
  constructor
  · intro h
    rw [Field.anyHoldsEnv_eq_any, List.any_eq_true] at h
    obtain ⟨f, hf, henv⟩ := h
    obtain ⟨i, hi⟩ := List.mem_iff_getElem?.mp hf
    exact Visited.exists_env (.outermost hi) henv
  · intro h
    obtain ⟨place, f, inner, hf, hkey, hinner⟩ := h
    exact hf.anyHoldsEnv (Field.holdsEnv_eq_true_iff.mpr ⟨inner, hinner, .inl hkey⟩)

/-! ## Strengthened types -/

theorem exists_key_map_strengthen (fields : List Field) (key : String) :
    (∃ f ∈ fields.map Field.strengthen, f.key = key) ↔ ∃ f ∈ fields, f.key = key := by
  constructor
  · rintro ⟨g, hg, rfl⟩
    obtain ⟨f, hf, rfl⟩ := List.mem_map.mp hg
    exact ⟨f, hf, f.key_strengthen.symm⟩
  · rintro ⟨f, hf, rfl⟩
    exact ⟨f.strengthen, List.mem_map_of_mem hf, f.key_strengthen⟩

theorem RecordType.fields_strengthen_of_lacksEnv {r : RecordType} (h : r.LacksEnv) :
    r.strengthen.fields = r.fields.map Field.strengthen ++ [additionalEnv] := by
  have henv := anyHoldsEnv_eq_true_iff.mpr h.1
  simp only [RecordType.strengthen, henv, if_true, Field.strengthenAll_eq_map]
  refine withField_of_not_mem fun f hf hkey => ?_
  obtain ⟨g, hg, hgkey⟩ := (exists_key_map_strengthen r.fields _).mp ⟨f, hf, hkey⟩
  exact h.2 g hg hgkey

theorem RecordType.fields_strengthen_of_not_lacksEnv {r : RecordType} (h : ¬ r.LacksEnv) :
    r.strengthen.fields = r.fields.map Field.strengthen := by
  cases henv : Field.anyHoldsEnv r.fields with
  | false => simp [RecordType.strengthen, henv, Field.strengthenAll_eq_map]
  | true =>
      simp only [RecordType.strengthen, henv, if_true, Field.strengthenAll_eq_map]
      apply withField_of_mem
      rw [exists_key_map_strengthen]
      by_cases hthere : ∃ f ∈ r.fields, f.key = "additionalEnv"
      · exact hthere
      · refine absurd ⟨anyHoldsEnv_eq_true_iff.mp henv, fun f hf hkey => ?_⟩ h
        exact hthere ⟨f, hf, hkey⟩

theorem RecordType.getElem?_strengthen {r : RecordType} {i : Nat} {f : Field}
    (h : r.fields[i]? = some f) : r.strengthen.fields[i]? = some f.strengthen := by
  have hmap : (r.fields.map Field.strengthen)[i]? = some f.strengthen := by simp [h]
  by_cases hlacks : r.LacksEnv
  · rw [RecordType.fields_strengthen_of_lacksEnv hlacks]
    obtain ⟨hbound, -⟩ := List.getElem?_eq_some_iff.mp hmap
    rw [List.getElem?_append_left hbound, hmap]
  · rw [RecordType.fields_strengthen_of_not_lacksEnv hlacks, hmap]

theorem Visited.fieldAt?_strengthen {r : RecordType} {place : List Nat} {f : Field}
    (h : Visited r place f) : r.strengthen.fieldAt? place = some f.strengthen := by
  induction h with
  | outermost hf => exact RecordType.getElem?_strengthen hf
  | inside hf hinner hkey hg ih =>
      have htail := Field.tail_strengthen .descend hinner hkey
      rw [RecordType.fieldAt?_inside ih htail, Rule.newLiteral, List.getElem?_map, hg]
      rfl

theorem strengthenedTo_strengthen (r : RecordType) : StrengthenedTo r r.strengthen where
  visited place f h :=
    ⟨f.strengthen, h.fieldAt?_strengthen, f.key_strengthen, f.atoms_strengthen,
      f.newTail_strengthen⟩
  gained h := by simp [RecordType.fields_strengthen_of_lacksEnv h]
  kept h := by simp [RecordType.fields_strengthen_of_not_lacksEnv h]

theorem StrengthenedTo.fieldAt?_eq {r t : RecordType} (h : StrengthenedTo r t) (f : Field) :
    ∀ {place}, Visited r place f → t.fieldAt? place = some f.strengthen := by
  induction f using Field.induction with
  | plain key atoms =>
      intro place hf
      obtain ⟨g, hg, hkey, hatoms, htail⟩ := h.visited _ _ hf
      rcases htail.eq_or_searched with hsame | ⟨inner, after, hinner, -⟩
      · rw [hg, Field.eq_strengthen hkey hatoms hsame]
      · cases hinner
  | literal key atoms shape fields ih =>
      intro place hf
      obtain ⟨g, hg, hkey, hatoms, htail⟩ := h.visited _ _ hf
      rcases htail.eq_or_searched with hsame | ⟨inner, after, hinner, hfree, hlength, hafter⟩
      · rw [hg, Field.eq_strengthen hkey hatoms hsame]
      · cases shape with
        | union => cases hinner
        | record =>
            cases hinner
            have hsame : after = fields.map Field.strengthen := by
              refine List.ext_getElem (by simp [hlength]) fun i hi hi' => ?_
              have hbound : i < fields.length := hlength ▸ hi
              have hvisited := Visited.inside hf rfl hfree (List.getElem?_eq_getElem hbound)
              have hfound := ih fields[i] (List.getElem_mem hbound) hvisited
              rw [RecordType.fieldAt?_inside hg hafter] at hfound
              rw [List.getElem_map]
              exact (List.getElem?_eq_some_iff.mp hfound).2
            rw [hg, Field.eq_strengthen hkey hatoms]
            rw [hafter, Field.tail_strengthen .descend rfl hfree, Rule.newLiteral, hsame]

/-- Behind the visited fields of the outermost record there is no choice. -/
theorem StrengthenedTo.getElem?_eq {r t u : RecordType} (ht : StrengthenedTo r t)
    (hu : StrengthenedTo r u) {i : Nat} (hi : r.fields.length ≤ i) :
    t.fields[i]? = u.fields[i]? := by
  by_cases hlacks : r.LacksEnv
  · obtain ⟨htlength, htlast⟩ := ht.gained hlacks
    obtain ⟨hulength, hulast⟩ := hu.gained hlacks
    by_cases hlast : i = r.fields.length
    · rw [hlast, htlast, hulast]
    · rw [List.getElem?_eq_none (by omega), List.getElem?_eq_none (by omega)]
  · have htlength := ht.kept hlacks
    have hulength := hu.kept hlacks
    rw [List.getElem?_eq_none (by omega), List.getElem?_eq_none (by omega)]

/-- The rules for visited fields and for the outermost record describe the strengthened type
and no other. -/
theorem strengthenedTo_iff (r t : RecordType) : StrengthenedTo r t ↔ t = r.strengthen := by
  constructor
  · intro h
    have hfields : t.fields = r.strengthen.fields := by
      refine List.ext_getElem? fun i => ?_
      by_cases hi : i < r.fields.length
      · have hvisited : Visited r [i] r.fields[i] := .outermost (List.getElem?_eq_getElem hi)
        exact (h.fieldAt?_eq _ hvisited).trans hvisited.fieldAt?_strengthen.symm
      · exact h.getElem?_eq (strengthenedTo_strengthen r) (Nat.le_of_not_lt hi)
    cases t
    exact congrArg RecordType.mk hfields
  · rintro rfl
    exact strengthenedTo_strengthen r

/-! ## Repeated passes -/

def Field.count (fields : List Field) (key : String) : Nat :=
  fields.countP fun f => f.key == key

def RecordType.strengthenTimes (passes : Nat) (r : RecordType) : RecordType :=
  Nat.repeat RecordType.strengthen passes r

theorem RecordType.strengthenTimes_succ (passes : Nat) (r : RecordType) :
    r.strengthenTimes (passes + 1) = r.strengthen := by
  induction passes with
  | zero => rfl
  | succ passes ih =>
      change (r.strengthenTimes (passes + 1)).strengthen = r.strengthen
      rw [ih, RecordType.strengthen_strengthen]

theorem Field.count_eq_zero_iff {fields : List Field} {key : String} :
    Field.count fields key = 0 ↔ ∀ f ∈ fields, f.key ≠ key := by
  simp [Field.count, List.countP_eq_zero]

theorem Field.count_withField (added : Field) (fields : List Field) :
    Field.count (withField added fields) added.key = max 1 (Field.count fields added.key) := by
  by_cases hthere : ∃ f ∈ fields, f.key = added.key
  · have hpos : Field.count fields added.key ≠ 0 := fun hzero => by
      obtain ⟨f, hf, hkey⟩ := hthere
      exact Field.count_eq_zero_iff.mp hzero f hf hkey
    rw [withField_of_mem hthere]
    omega
  · have hmissing : ∀ f ∈ fields, f.key ≠ added.key := fun f hf hkey => hthere ⟨f, hf, hkey⟩
    rw [withField_of_not_mem hmissing, Field.count_eq_zero_iff.mpr hmissing]
    simpa [Field.count] using hmissing

theorem Field.count_map_strengthen (fields : List Field) (key : String) :
    Field.count (fields.map Field.strengthen) key = Field.count fields key := by
  simp [Field.count, List.countP_map, Function.comp_def, Field.key_strengthen]

theorem RecordType.count_strengthen_le (r : RecordType) :
    Field.count r.strengthen.fields "additionalEnv" ≤
      max 1 (Field.count r.fields "additionalEnv") := by
  have hmap := Field.count_map_strengthen r.fields "additionalEnv"
  have hadded : Field.count (withField additionalEnv (r.fields.map Field.strengthen))
      "additionalEnv" = max 1 (Field.count (r.fields.map Field.strengthen) "additionalEnv") :=
    Field.count_withField additionalEnv _
  simp only [RecordType.strengthen, Field.strengthenAll_eq_map]
  split <;> omega

/-- The first pass is the last one that changes anything. After any number of passes `metadata`
has one `namespace` or those that it had, the variables of an `env` are optional once, and the
outermost record has one `additionalEnv` or those that it had, in which there is nothing to do. -/
theorem strengthen_repeated (r : RecordType) :
    r.strengthen.strengthen = r.strengthen ∧
    additionalEnv.strengthen = additionalEnv ∧ additionalEnv.holdsEnv = false ∧
    ∀ passes,
      r.strengthenTimes (passes + 1) = r.strengthen ∧
      Field.count (r.strengthenTimes (passes + 1)).fields "additionalEnv" ≤
        max 1 (Field.count r.fields "additionalEnv") ∧
      ∀ place f inner, Visited r place f → f.record? = some inner →
        (f.key = "metadata" → ∃ g after,
          (r.strengthenTimes (passes + 1)).fieldAt? place = some g ∧ g.record? = some after ∧
            Field.count after "namespace" = max 1 (Field.count inner "namespace")) ∧
        (f.key = "env" → ∃ g after,
          (r.strengthenTimes (passes + 1)).fieldAt? place = some g ∧ g.record? = some after ∧
            AllMadeOptional inner after) := by
  refine ⟨r.strengthen_strengthen, strengthen_additionalEnv, holdsEnv_additionalEnv, ?_⟩
  intro passes
  rw [RecordType.strengthenTimes_succ]
  refine ⟨rfl, r.count_strengthen_le, fun place f inner hf hinner => ⟨?_, ?_⟩⟩
  · intro hkey
    have htail := Field.tail_strengthen .metadata hinner hkey
    exact ⟨f.strengthen, _, hf.fieldAt?_strengthen, Field.record?_of_tail htail,
      Field.count_withField namespaceField inner⟩
  · intro hkey
    have htail := Field.tail_strengthen .env hinner hkey
    exact ⟨f.strengthen, _, hf.fieldAt?_strengthen, Field.record?_of_tail htail,
      allMadeOptional_iff.mpr rfl⟩

end ManifestTypes.TypeExpr
