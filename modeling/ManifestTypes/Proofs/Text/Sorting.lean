import Mathlib.Data.List.Permutation
import Mathlib.Data.List.Sort
import ManifestTypes.Proofs.Text.ByteOrder

/-!
# Sorting by texts

Items are sorted by a text that each of them has. Items of one text keep their order, so there is
one list only that a list can be sorted to.
-/

namespace ManifestTypes.Text

variable {α : Type} {key : α → String}

/-- The same items in the byte order of their texts. Those of one text stand in the order in which
they stood before. -/
structure SortedBy (key : α → String) (before after : List α) : Prop where
  perm : after.Perm before
  ordered : after.Pairwise fun a b => bytes (key a) ≤ bytes (key b)
  stable : ∀ text, after.filter (key · == text) = before.filter (key · == text)

theorem decide_le_trans (key : α → String) (a b c : α) (hab : decide (key a ≤ key b) = true)
    (hbc : decide (key b ≤ key c) = true) : decide (key a ≤ key c) = true :=
  decide_eq_true (String.le_trans (of_decide_eq_true hab) (of_decide_eq_true hbc))

theorem decide_le_total (key : α → String) (a b : α) :
    (decide (key a ≤ key b) || decide (key b ≤ key a)) = true := by
  simpa only [Bool.or_eq_true, decide_eq_true_eq] using String.le_total (key a) (key b)

theorem pairwise_mergeSort (key : α → String) (items : List α) :
    (items.mergeSort fun a b => decide (key a ≤ key b)).Pairwise fun a b => key a ≤ key b := by
  have hsorted := List.pairwise_mergeSort (decide_le_trans key) (decide_le_total key) items
  simpa only [decide_eq_true_eq] using hsorted

/-- A stable sort keeps the items of each key in their order. -/
theorem filter_mergeSort (key : α → String) (items : List α) (k : String) :
    (items.mergeSort fun a b => decide (key a ≤ key b)).filter (key · == k) =
      items.filter (key · == k) := by
  have hsorted : (items.filter (key · == k)).Pairwise fun a b => decide (key a ≤ key b) = true := by
    refine List.pairwise_of_forall_mem_list fun a ha b hb => ?_
    rw [beq_iff_eq.mp (List.mem_filter.mp ha).2, beq_iff_eq.mp (List.mem_filter.mp hb).2]
    exact decide_eq_true (String.le_refl k)
  have hsublist : (items.filter (key · == k)).Sublist
      (items.mergeSort fun a b => decide (key a ≤ key b)) :=
    List.sublist_mergeSort (decide_le_trans key) (decide_le_total key) hsorted
      List.filter_sublist
  have hfiltered := hsublist.filter (key · == k)
  simp only [List.filter_filter, Bool.and_self] at hfiltered
  exact (hfiltered.eq_of_length ((List.mergeSort_perm _ _).filter _).length_eq.symm).symm

/-- The first item of a sorted list has the smallest text that occurs. -/
theorem key_le_of_mem {a b : α} {rest : List α}
    (h : (a :: rest).Pairwise fun a b => key a ≤ key b) (hb : b ∈ a :: rest) : key a ≤ key b := by
  rcases List.mem_cons.mp hb with rfl | hrest
  · exact String.le_refl _
  · exact List.rel_of_pairwise_cons h hrest

theorem mem_of_filter_eq {before after : List α} {a : α}
    (h : ∀ text, after.filter (key · == text) = before.filter (key · == text)) (ha : a ∈ after) :
    a ∈ before := by
  have hmem : a ∈ after.filter (key · == key a) := List.mem_filter.mpr ⟨ha, beq_self_eq_true _⟩
  rw [h] at hmem
  exact (List.mem_filter.mp hmem).1

/-- Sorted lists are the same if they have the same items of each text in the same order. -/
theorem eq_of_pairwise_of_filter_eq {xs ys : List α} (hxs : xs.Pairwise fun a b => key a ≤ key b)
    (hys : ys.Pairwise fun a b => key a ≤ key b)
    (h : ∀ text, xs.filter (key · == text) = ys.filter (key · == text)) : xs = ys := by
  induction xs generalizing ys with
  | nil =>
      rw [eq_comm, List.eq_nil_iff_forall_not_mem]
      intro y hy
      exact List.not_mem_nil (mem_of_filter_eq (fun text => (h text).symm) hy)
  | cons x xs ih =>
      cases ys with
      | nil => exact absurd (mem_of_filter_eq h List.mem_cons_self) List.not_mem_nil
      | cons y ys =>
          have hkey : key x = key y :=
            String.le_antisymm
              (key_le_of_mem hxs (mem_of_filter_eq (fun text => (h text).symm) List.mem_cons_self))
              (key_le_of_mem hys (mem_of_filter_eq h List.mem_cons_self))
          have hhead : x = y := by
            have hfirst := h (key x)
            simp only [List.filter_cons, ← hkey, beq_self_eq_true, if_true, List.cons.injEq]
              at hfirst
            exact hfirst.1
          subst hhead
          have hrest : ∀ text, xs.filter (key · == text) = ys.filter (key · == text) := by
            intro text
            have htext := h text
            by_cases hx : key x == text
            · simpa [List.filter_cons, hx] using htext
            · simpa [List.filter_cons, hx] using htext
          rw [ih hxs.of_cons hys.of_cons hrest]

theorem sortedBy_iff {before after : List α} :
    SortedBy key before after ↔
      after = before.mergeSort fun a b => decide (key a ≤ key b) := by
  constructor
  · intro h
    have hordered : after.Pairwise fun a b => key a ≤ key b :=
      h.ordered.imp le_iff_bytes_le.mpr
    refine eq_of_pairwise_of_filter_eq hordered (pairwise_mergeSort key before) fun text => ?_
    rw [h.stable, filter_mergeSort]
  · rintro rfl
    exact ⟨List.mergeSort_perm _ _, (pairwise_mergeSort key before).imp le_iff_bytes_le.mp,
      filter_mergeSort key before⟩

theorem mergeSort_mergeSort (key : α → String) (items : List α) :
    (items.mergeSort fun a b => decide (key a ≤ key b)).mergeSort
      (fun a b => decide (key a ≤ key b)) =
        items.mergeSort fun a b => decide (key a ≤ key b) := by
  apply List.mergeSort_of_pairwise
  simpa only [decide_eq_true_eq] using pairwise_mergeSort key items

end ManifestTypes.Text
