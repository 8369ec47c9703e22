import Mathlib.Algebra.Group.Int.Defs
import ManifestTypes.Proofs.Attempt.Faults
import ManifestTypes.Value.OfNode

/-!
# Values that are read from nodes

A node has a value unless a key in it has no text or an integer in it does not fit. A node is gone
through depth first, and the first of these that is come to is the one that is reported.
-/

namespace ManifestTypes

namespace Node

/-! ## What is gone through -/

/-- A node where a value stands, or a key of a mapping. -/
inductive Part where
  | key (node : Node)
  | value (node : Node)

mutual

/-- All that is looked at, each value before what is in it and each key before its value. Keys are
not gone into. -/
def parts : Node → List Part
  | .sequence elements => .value (.sequence elements) :: partsAll elements
  | .mapping entries => .value (.mapping entries) :: partsEach entries
  | .tagged tag node => .value (.tagged tag node) :: parts node
  | scalar => [.value scalar]

def partsAll : List Node → List Part
  | [] => []
  | node :: rest => parts node ++ partsAll rest

def partsEach : List (Node × Node) → List Part
  | [] => []
  | (key, node) :: rest => .key key :: (parts node ++ partsEach rest)

end

/-- What cannot be read, and the error that it is reported with. No document has an integer that is
smaller than those of 64 bits with sign. -/
inductive Part.Refused : Part → ValueError → Prop
  | nullKey : Refused (.key .null) (.unsupportedKey .null)
  | sequenceKey (elements : List Node) :
    Refused (.key (.sequence elements)) (.unsupportedKey (.sequence elements))
  | mappingKey (entries : List (Node × Node)) :
    Refused (.key (.mapping entries)) (.unsupportedKey (.mapping entries))
  | taggedKey (tag : String) (node : Node) :
    Refused (.key (.tagged tag node)) (.unsupportedKey (.tagged tag node))
  | integer {n : Int} (h : 2 ^ 63 - 1 < n ∨ n < -2 ^ 63) :
    Refused (.value (.number (.integer n))) (.integerOutOfRange n)

def Part.IsRefused (p : Part) : Prop :=
  ∃ e, p.Refused e

/-- The message for a part that is refused. -/
def Part.complaint : Part → String
  | .key node => "unsupported object key: " ++ node.description
  | .value (.number (.integer n)) => "integer out of range: " ++ toString n
  | .value _ => ""

theorem Part.Refused.message {p : Part} {e : ValueError} (h : p.Refused e) :
    e.message = p.complaint := by
  cases h <;> rfl

/-- What holds of the scalars, of a sequence or mapping if it holds of the values in it, and of a
tagged node if it holds of the node, holds of every node. -/
theorem induction {motive : Node → Prop} (null : motive .null)
    (boolean : ∀ b, motive (.boolean b)) (number : ∀ n, motive (.number n))
    (string : ∀ s, motive (.string s))
    (sequence : ∀ elements, (∀ node ∈ elements, motive node) → motive (.sequence elements))
    (mapping : ∀ entries, (∀ e ∈ entries, motive e.2) → motive (.mapping entries))
    (tagged : ∀ tag node, motive node → motive (.tagged tag node)) (node : Node) :
    motive node := by
  refine @Node.rec motive (fun elements => ∀ node ∈ elements, motive node)
    (fun entries => ∀ e ∈ entries, motive e.2) (fun e => motive e.2) null boolean number string
    sequence mapping tagged ?noElement ?element ?noEntry ?entry ?pair node
  case noElement => exact fun _ h => nomatch h
  case element => exact fun _ _ hnode hrest => List.forall_mem_cons.mpr ⟨hnode, hrest⟩
  case noEntry => exact fun _ h => nomatch h
  case entry => exact fun _ _ hentry hrest => List.forall_mem_cons.mpr ⟨hentry, hrest⟩
  case pair => exact fun _ _ _ hnode => hnode

theorem parts_sequence (elements : List Node) :
    parts (.sequence elements) = .value (.sequence elements) :: elements.flatMap parts := by
  suffices h : partsAll elements = elements.flatMap parts by rw [parts, h]
  induction elements with
  | nil => rfl
  | cons node rest ih => rw [partsAll, ih, List.flatMap_cons]

theorem parts_mapping (entries : List (Node × Node)) :
    parts (.mapping entries) =
      .value (.mapping entries) :: entries.flatMap fun e => .key e.1 :: parts e.2 := by
  suffices h : partsEach entries = entries.flatMap fun e => .key e.1 :: parts e.2 by
    rw [parts, h]
  induction entries with
  | nil => rfl
  | cons e rest ih =>
      rw [partsEach, ih, List.flatMap_cons]
      rfl

end Node

namespace Value

open Manifest (faultOf? faultOf?_map faultOf?_mapM)
open Node (Part parts)

/-! ## Reading at one level -/

def ofEntry (entry : Node × Node) : Except ValueError (String × Value) :=
  match entry.1.keyText? with
  | none => .error (.unsupportedKey entry.1)
  | some text => (text, ·) <$> ofNode entry.2

theorem ofNode_sequence (elements : List Node) :
    ofNode (.sequence elements) = Value.list <$> elements.mapM ofNode := by
  suffices h : ofNodes elements = elements.mapM ofNode by
    rw [ofNode, h]
    rfl
  induction elements with
  | nil => rfl
  | cons node rest ih =>
      rw [ofNodes, ih, List.mapM_cons]
      rfl

theorem ofNode_mapping (entries : List (Node × Node)) :
    ofNode (.mapping entries) = ofPairs <$> entries.mapM ofEntry := by
  suffices h : ofEntries entries = entries.mapM ofEntry by
    rw [ofNode, h]
    rfl
  induction entries with
  | nil => rfl
  | cons e rest ih =>
      rw [ofEntries, ih, List.mapM_cons, ofEntry]
      cases e.1.keyText? with
      | none => rfl
      | some text => cases ofNode e.2 <;> rfl

/-! ## The first fault -/

theorem ofInteger?_eq_none_iff {n : Int} : ofInteger? n = none ↔ 2 ^ 63 - 1 < n ∨ n < -2 ^ 63 := by
  have hmin : Int64.minValue.toInt = -2 ^ 63 := by decide
  have hmax : Int64.maxValue.toInt = 2 ^ 63 - 1 := by decide
  unfold ofInteger?
  rw [hmin, hmax]
  split
  · simp
    omega
  · simp
    omega

def refusal? : Part → Option ValueError
  | .key node =>
    match node.keyText? with
    | some _ => none
    | none => some (.unsupportedKey node)
  | .value (.number (.integer n)) =>
    match ofInteger? n with
    | some _ => none
    | none => some (.integerOutOfRange n)
  | .value _ => none

theorem refusal?_integer (n : Int) :
    refusal? (.value (.number (.integer n))) =
      if 2 ^ 63 - 1 < n ∨ n < -2 ^ 63 then some (.integerOutOfRange n) else none := by
  rw [refusal?]
  split
  · next h => rw [if_neg (ofInteger?_eq_none_iff.not.mp (by simp [h]))]
  · next h => rw [if_pos (ofInteger?_eq_none_iff.mp h)]

theorem refusal?_eq_some_iff {p : Part} {e : ValueError} : refusal? p = some e ↔ p.Refused e := by
  constructor
  · intro h
    cases p with
    | key node =>
        cases node <;> cases h
        · exact .nullKey
        · exact .sequenceKey _
        · exact .mappingKey _
        · exact .taggedKey _ _
    | value node =>
        cases node with
        | number n =>
            cases n with
            | decimal x => cases h
            | integer n =>
                rw [refusal?_integer] at h
                split at h
                · next hn =>
                    cases h
                    exact .integer hn
                · cases h
        | _ => cases h
  · intro h
    cases h with
    | integer hn => rw [refusal?_integer, if_pos hn]
    | _ => rfl

theorem refusal?_eq_none_iff {p : Part} : refusal? p = none ↔ ¬ p.IsRefused := by
  simp [Node.Part.IsRefused, ← refusal?_eq_some_iff, Option.eq_none_iff_forall_ne_some]

theorem faultOf?_ofEntry (entry : Node × Node) :
    faultOf? (ofEntry entry) = (refusal? (.key entry.1)).or (faultOf? (ofNode entry.2)) := by
  rw [ofEntry, refusal?]
  cases entry.1.keyText? with
  | none => rfl
  | some text => exact faultOf?_map (text, ·) (ofNode entry.2)

theorem faultOf?_ofInteger (n : Int) :
    faultOf? (ofNode (.number (.integer n))) = refusal? (.value (.number (.integer n))) := by
  rw [ofNode, refusal?]
  cases ofInteger? n <;> rfl

theorem faultOf?_ofNode (node : Node) :
    faultOf? (ofNode node) = node.parts.findSome? refusal? := by
  induction node using Node.induction with
  | null => rfl
  | boolean b => rfl
  | string s => rfl
  | number n =>
      cases n with
      | decimal x => rfl
      | integer n =>
          rw [faultOf?_ofInteger]
          exact List.findSome?_singleton.symm
  | sequence elements ih =>
      rw [ofNode_sequence, faultOf?_map, faultOf?_mapM, Node.parts_sequence, List.findSome?_cons,
        Manifest.findSome?_flatMap]
      exact Manifest.findSome?_congr ih
  | mapping entries ih =>
      rw [ofNode_mapping, faultOf?_map, faultOf?_mapM, Node.parts_mapping, List.findSome?_cons,
        Manifest.findSome?_flatMap]
      refine Manifest.findSome?_congr fun e he => ?_
      rw [faultOf?_ofEntry, ih e he, List.findSome?_cons]
      cases refusal? (.key e.1) <;> rfl
  | tagged tag node ih =>
      rw [ofNode, ih, parts, List.findSome?_cons]
      rfl

/-! ## The value -/

theorem ofInteger?_eq_some_iff {n : Int} {v : Value} :
    ofInteger? n = some v ↔ ∃ m : Int64, m.toInt = n ∧ v = .integer m := by
  constructor
  · intro h
    have hrange : ¬ (2 ^ 63 - 1 < n ∨ n < -2 ^ 63) := by
      rw [← ofInteger?_eq_none_iff, h]
      simp
    unfold ofInteger? at h
    split at h
    · cases h
      exact ⟨.ofInt n, Int64.toInt_ofInt_of_le (by omega) (by omega), rfl⟩
    · cases h
  · rintro ⟨m, rfl, rfl⟩
    rw [ofInteger?, if_pos ⟨m.minValue_le_toInt, m.toInt_le⟩, Int64.ofInt_toInt]

theorem ofNode_integer_eq_ok_iff {n : Int} {v : Value} :
    ofNode (.number (.integer n)) = .ok v ↔ ∃ m : Int64, m.toInt = n ∧ v = .integer m := by
  rw [← ofInteger?_eq_some_iff, ofNode]
  split
  · next h => simp [h]
  · next h => simp [h]

inductive KeyText : Node → String → Prop
  | string (s : String) : KeyText (.string s) s
  | number (n : Number) : KeyText (.number n) n.text
  | boolean (b : Bool) : KeyText (.boolean b) (if b then "true" else "false")

theorem keyText?_eq_some_iff {node : Node} {text : String} :
    node.keyText? = some text ↔ KeyText node text := by
  constructor
  · intro h
    cases node <;> cases h
    · exact .boolean _
    · exact .number _
    · exact .string _
  · intro h
    cases h <;> rfl

/-- What becomes of a node. Tags are dropped, scalars and elements stay in their places, and of a
mapping the last value of each text of a key is kept in the place of the first. -/
inductive ReadAs : Node → Value → Prop
  | null : ReadAs .null .null
  | boolean (b : Bool) : ReadAs (.boolean b) (.boolean b)
  | integer (n : Int64) : ReadAs (.number (.integer n.toInt)) (.integer n)
  | decimal (x : Float) : ReadAs (.number (.decimal x)) (.decimal x)
  | string (s : String) : ReadAs (.string s) (.string s)
  | sequence {elements : List Node} {values : List Value}
    (hvalues : List.Forall₂ ReadAs elements values) : ReadAs (.sequence elements) (.list values)
  | mapping {entries : List (Node × Node)} {pairs members : Keyed String Value}
    (hkeys : List.Forall₂ KeyText (entries.map Prod.fst) (pairs.map Prod.fst))
    (hvalues : List.Forall₂ ReadAs (entries.map Prod.snd) (pairs.map Prod.snd))
    (hmembers : Keyed.LastOfEach pairs members) : ReadAs (.mapping entries) (.object members)
  | tagged {node : Node} {v : Value} (tag : String) (h : ReadAs node v) :
    ReadAs (.tagged tag node) v

theorem ofEntry_eq_ok_iff {entry : Node × Node} {pair : String × Value} :
    ofEntry entry = .ok pair ↔ KeyText entry.1 pair.1 ∧ ofNode entry.2 = .ok pair.2 := by
  obtain ⟨text, v⟩ := pair
  rw [← keyText?_eq_some_iff]
  unfold ofEntry
  split
  · next h => simp [h]
  · next h => simp [h, map_eq_ok_iff, and_comm]

theorem ofNode_mapping_eq_ok_iff {entries : List (Node × Node)} {v : Value} :
    ofNode (.mapping entries) = .ok v ↔ ∃ pairs members,
      List.Forall₂ KeyText (entries.map Prod.fst) (pairs.map Prod.fst) ∧
        List.Forall₂ (fun node w => ofNode node = .ok w) (entries.map Prod.snd)
          (pairs.map Prod.snd) ∧
        Keyed.LastOfEach pairs members ∧ v = .object members := by
  simp only [ofNode_mapping, map_eq_ok_iff, mapM_eq_ok_iff, ofEntry_eq_ok_iff,
    Keyed.lastOfEach_iff, forall₂_pairs_iff (S := fun node w => ofNode node = .ok w), ofPairs]
  constructor
  · rintro ⟨pairs, ⟨hkeys, hvalues⟩, rfl⟩
    exact ⟨pairs, _, hkeys, hvalues, rfl, rfl⟩
  · rintro ⟨pairs, _, hkeys, hvalues, rfl, rfl⟩
    exact ⟨pairs, ⟨hkeys, hvalues⟩, rfl⟩

theorem ofNode_eq_ok_iff {node : Node} {v : Value} : ofNode node = .ok v ↔ ReadAs node v := by
  induction node using Node.induction generalizing v with
  | null =>
      constructor
      · intro h; cases h; exact .null
      · intro h; cases h; rfl
  | boolean b =>
      constructor
      · intro h; cases h; exact .boolean b
      · intro h; cases h; rfl
  | string s =>
      constructor
      · intro h; cases h; exact .string s
      · intro h; cases h; rfl
  | number n =>
      cases n with
      | decimal x =>
          constructor
          · intro h; cases h; exact .decimal x
          · intro h; cases h; rfl
      | integer n =>
          rw [ofNode_integer_eq_ok_iff]
          constructor
          · rintro ⟨m, rfl, rfl⟩
            exact .integer m
          · intro h
            cases h with
            | integer m => exact ⟨m, rfl, rfl⟩
  | sequence elements ih =>
      rw [ofNode_sequence, map_eq_ok_iff]
      simp only [mapM_eq_ok_iff, forall₂_congr_of_mem fun node hnode _ => ih node hnode]
      constructor
      · rintro ⟨values, hvalues, rfl⟩
        exact .sequence hvalues
      · intro h
        cases h with
        | sequence hvalues => exact ⟨_, hvalues, rfl⟩
  | mapping entries ih =>
      have hnodes : ∀ node ∈ entries.map Prod.snd, ∀ w, ofNode node = .ok w ↔ ReadAs node w :=
        List.forall_mem_map.mpr fun e he _ => ih e he
      simp only [ofNode_mapping_eq_ok_iff, forall₂_congr_of_mem hnodes]
      constructor
      · rintro ⟨pairs, members, hkeys, hvalues, hmembers, rfl⟩
        exact .mapping hkeys hvalues hmembers
      · intro h
        cases h with
        | mapping hkeys hvalues hmembers => exact ⟨_, _, hkeys, hvalues, hmembers, rfl⟩
  | tagged tag node ih =>
      rw [ofNode, ih]
      constructor
      · exact .tagged tag
      · intro h
        cases h with
        | tagged _ h => exact h

/-- A node has a value exactly if nothing in it is refused, and the value is what the node is read
as. Else the first part that is refused tells the error and its message, also where another value
takes the place of the one that it stands in. -/
theorem ofNode_exact (node : Node) :
    ((∃ v, ofNode node = .ok v) ↔ ∀ p ∈ node.parts, ¬ p.IsRefused) ∧
    (∀ e, ofNode node = .error e ↔
      ∃ before p after, node.parts = before ++ p :: after ∧ p.Refused e ∧
        e.message = p.complaint ∧ ∀ q ∈ before, ¬ q.IsRefused) ∧
    ∀ v, ofNode node = .ok v ↔ ReadAs node v := by
  refine ⟨?succeeds, ?fails, fun v => ofNode_eq_ok_iff⟩
  case succeeds =>
    rw [← Manifest.faultOf?_eq_none_iff, faultOf?_ofNode, List.findSome?_eq_none_iff]
    simp only [refusal?_eq_none_iff]
  case fails =>
    intro e
    rw [← Manifest.faultOf?_eq_some_iff, faultOf?_ofNode, List.findSome?_eq_some_iff]
    simp only [refusal?_eq_some_iff, refusal?_eq_none_iff]
    constructor
    · rintro ⟨before, p, after, hparts, hrefused, hbefore⟩
      exact ⟨before, p, after, hparts, hrefused, hrefused.message, hbefore⟩
    · rintro ⟨before, p, after, hparts, hrefused, -, hbefore⟩
      exact ⟨before, p, after, hparts, hrefused, hbefore⟩

/-- An integer that is too large is refused, although a later value takes its place. As a key it
has a text. -/
example :
    ofNode (.mapping [(.number (.integer (2 ^ 63)), .number (.integer (2 ^ 63))),
      (.string "9223372036854775808", .null)]) = .error (.integerOutOfRange (2 ^ 63)) := rfl

end Value

end ManifestTypes
