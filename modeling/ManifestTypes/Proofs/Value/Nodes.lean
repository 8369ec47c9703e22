import ManifestTypes.Proofs.Keyed.Gathering
import ManifestTypes.Proofs.Value.Objects
import ManifestTypes.Proofs.Value.Reading

/-!
# Values as documents

Every value is read from some document node: the node that holds the same as the value, with
strings for the keys.
-/

namespace ManifestTypes.Value

mutual

def toNode : Value → Node
  | .null => .null
  | .boolean b => .boolean b
  | .integer n => .number (.integer n.toInt)
  | .decimal x => .number (.decimal x)
  | .string s => .string s
  | .list elements => .sequence (toNodes elements)
  | .object members => .mapping (toEntries members)

def toNodes : List Value → List Node
  | [] => []
  | v :: rest => toNode v :: toNodes rest

def toEntries : List (String × Value) → List (Node × Node)
  | [] => []
  | (key, v) :: rest => (.string key, toNode v) :: toEntries rest

/-- Without the floating-point numbers that are not finite, which become null. -/
def finiteOrNull : Value → Value
  | .decimal x => if x.isFinite then .decimal x else .null
  | .list elements => .list (finiteOrNullAll elements)
  | .object members => .object (finiteOrNullEach members)
  | v => v

def finiteOrNullAll : List Value → List Value
  | [] => []
  | v :: rest => finiteOrNull v :: finiteOrNullAll rest

def finiteOrNullEach : List (String × Value) → List (String × Value)
  | [] => []
  | (key, v) :: rest => (key, finiteOrNull v) :: finiteOrNullEach rest

def decimals : Value → List Float
  | .decimal x => [x]
  | .list elements => decimalsAll elements
  | .object members => decimalsEach members
  | _ => []

def decimalsAll : List Value → List Float
  | [] => []
  | v :: rest => decimals v ++ decimalsAll rest

def decimalsEach : List (String × Value) → List Float
  | [] => []
  | (_, v) :: rest => decimals v ++ decimalsEach rest

/-- How many lists and objects stand inside each other. -/
def depth : Value → Nat
  | .list elements => depthAll elements + 1
  | .object members => depthEach members + 1
  | _ => 0

def depthAll : List Value → Nat
  | [] => 0
  | v :: rest => max (depth v) (depthAll rest)

def depthEach : List (String × Value) → Nat
  | [] => 0
  | (_, v) :: rest => max (depth v) (depthEach rest)

end

/-! ## Level by level -/

variable {elements : List Value} {members : List (String × Value)}

theorem toNode_list (elements : List Value) :
    (Value.list elements).toNode = .sequence (elements.map toNode) := by
  rw [toNode]
  congr 1
  induction elements with
  | nil => rfl
  | cons v rest ih => rw [toNodes, ih, List.map_cons]

theorem toNode_object (members : List (String × Value)) :
    (Value.object members).toNode = .mapping (members.map fun m => (.string m.1, m.2.toNode)) := by
  rw [toNode]
  congr 1
  induction members with
  | nil => rfl
  | cons m rest ih => rw [toEntries, ih, List.map_cons]

theorem finiteOrNull_list (elements : List Value) :
    (Value.list elements).finiteOrNull = .list (elements.map finiteOrNull) := by
  rw [finiteOrNull]
  congr 1
  induction elements with
  | nil => rfl
  | cons v rest ih => rw [finiteOrNullAll, ih, List.map_cons]

theorem finiteOrNull_object (members : List (String × Value)) :
    (Value.object members).finiteOrNull =
      .object (members.map fun m => (m.1, m.2.finiteOrNull)) := by
  rw [finiteOrNull]
  congr 1
  induction members with
  | nil => rfl
  | cons m rest ih => rw [finiteOrNullEach, ih, List.map_cons]

theorem decimals_list (elements : List Value) :
    (Value.list elements).decimals = elements.flatMap decimals := by
  rw [decimals]
  induction elements with
  | nil => rfl
  | cons v rest ih => rw [decimalsAll, ih, List.flatMap_cons]

theorem decimals_object (members : List (String × Value)) :
    (Value.object members).decimals = members.flatMap fun m => m.2.decimals := by
  rw [decimals]
  induction members with
  | nil => rfl
  | cons m rest ih => rw [decimalsEach, ih, List.flatMap_cons]

theorem depth_lt_list {v : Value} (h : v ∈ elements) : v.depth < (Value.list elements).depth := by
  rw [depth, Nat.lt_succ_iff]
  induction h with
  | head rest => exact Nat.le_max_left _ _
  | tail _ _ ih => exact Nat.le_trans ih (Nat.le_max_right _ _)

theorem depth_lt_object {m : String × Value} (h : m ∈ members) :
    m.2.depth < (Value.object members).depth := by
  rw [depth, Nat.lt_succ_iff]
  induction h with
  | head rest => exact Nat.le_max_left _ _
  | tail _ _ ih => exact Nat.le_trans ih (Nat.le_max_right _ _)

/-! ## Reading the node of a value -/

theorem readAs_toNode {v : Value} (h : v.Distinct) : ReadAs v.toNode v := by
  induction v using Value.induction with
  | atom v helements hmembers =>
      cases v with
      | null => exact .null
      | boolean b => exact .boolean b
      | integer n => exact .integer n
      | decimal x => exact .decimal x
      | string s => exact .string s
      | list elements => cases helements
      | object members => cases hmembers
  | list elements ih =>
      rw [toNode_list]
      refine .sequence (List.forall₂_map_left_iff.mpr (List.forall₂_same.mpr fun v hv => ?_))
      exact ih v hv (distinctAll_iff.mp h v hv)
  | object members ih =>
      obtain ⟨hkeys, hvalues⟩ := h
      have hnodes : List.Forall₂ (fun e m => KeyText e.1 m.1 ∧ ReadAs e.2 m.2)
          (members.map fun m => (Node.string m.1, m.2.toNode)) members := by
        refine List.forall₂_map_left_iff.mpr (List.forall₂_same.mpr fun m hm => ?_)
        exact ⟨.string m.1, ih m hm (distinctEach_iff.mp hvalues m hm)⟩
      obtain ⟨htexts, hread⟩ := forall₂_pairs_iff.mp hnodes
      rw [toNode_object]
      exact .mapping htexts hread (Keyed.lastOfEach_iff.mpr (Keyed.ofList_of_nodup hkeys).symm)

/-- A value is what is read from its node. -/
theorem ofNode_toNode {v : Value} (h : v.Distinct) : ofNode v.toNode = .ok v :=
  ofNode_eq_ok_iff.mpr (readAs_toNode h)

/-- The keys of objects stay. -/
theorem distinct_finiteOrNull {v : Value} (h : v.Distinct) : v.finiteOrNull.Distinct := by
  induction v using Value.induction with
  | atom v helements hmembers =>
      cases v with
      | decimal x => rw [finiteOrNull]; split <;> trivial
      | list elements => cases helements
      | object members => cases hmembers
      | _ => trivial
  | list elements ih =>
      rw [finiteOrNull_list, Distinct, distinctAll_iff, List.forall_mem_map]
      exact fun v hv => ih v hv (distinctAll_iff.mp h v hv)
  | object members ih =>
      rw [finiteOrNull_object, Distinct, distinctEach_iff, List.forall_mem_map, Keyed.keys,
        List.map_map]
      exact ⟨h.1, fun m hm => ih m hm (distinctEach_iff.mp h.2 m hm)⟩

end ManifestTypes.Value
