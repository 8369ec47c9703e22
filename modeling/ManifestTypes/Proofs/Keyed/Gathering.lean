import Mathlib.Data.List.Basic
import Mathlib.Data.List.Induction
import Mathlib.Data.List.Nodup
import ManifestTypes.Keyed

/-!
# Gathering items by key

Items are taken one after the other, and each changes what stands below its key. The keys come in
the order in which they first appear, and what stands below a key depends on the items of that key
alone.
-/

namespace ManifestTypes.Keyed

variable {κ α ρ : Type} [BEq κ]

theorem keys_map {κ α β : Type} (pairs : Keyed κ α) (f : κ × α → β) :
    keys (pairs.map fun p => (p.1, f p)) = keys pairs := by
  simp only [keys, List.map_map, Function.comp_def]

/-- A last item of a kind has none of that kind behind it. -/
theorem exists_of_getLast?_filter {p : α → Bool} {items : List α} {item : α}
    (h : (items.filter p).getLast? = some item) :
    ∃ before after, items = before ++ item :: after ∧ p item ∧ ∀ x ∈ after, ¬ p x := by
  obtain ⟨earlier, hlast⟩ := List.getLast?_eq_some_iff.mp h
  obtain ⟨front, back, rfl, -, hback⟩ := List.filter_eq_append_iff.mp hlast
  obtain ⟨between, after, rfl, -, hitem, hafter⟩ := List.filter_eq_cons_iff.mp hback
  exact ⟨front ++ between, after, by simp, hitem, List.filter_eq_nil_iff.mp hafter⟩

/-- Takes the items in order. Each puts below its key what `add` makes of the value there. -/
def gather (key : ρ → κ) (add : Option α → ρ → α) (items : List ρ) : Keyed κ α :=
  items.foldl (fun pairs item => pairs.upsert (key item) (add · item)) []

def accumulate (add : Option α → ρ → α) (start : Option α) (items : List ρ) : Option α :=
  items.foldl (fun value item => some (add value item)) start

theorem gather_concat (key : ρ → κ) (add : Option α → ρ → α) (items : List ρ) (item : ρ) :
    gather key add (items ++ [item]) =
      (gather key add items).upsert (key item) (add · item) := by
  simp [gather]

theorem accumulate_concat (add : Option α → ρ → α) (start : Option α) (items : List ρ)
    (item : ρ) : accumulate add start (items ++ [item]) =
      some (add (accumulate add start items) item) := by
  simp [accumulate]

/-- A value that is there once an item has been taken is the one that starts from the default. -/
theorem accumulate_getD (step : α → ρ → α) (default : α) (items : List ρ) :
    accumulate (fun value item => step (value.getD default) item) none items =
      if items = [] then none else some (items.foldl step default) := by
  -- Items are taken from the left, so the induction is on the last one.
  induction items using List.reverseRecOn with
  | nil => rfl
  | append_singleton items item ih =>
      rw [accumulate_concat, ih]
      by_cases h : items = [] <;> simp [h]

/-- Where nothing is kept of the value before, the last item counts. -/
theorem accumulate_last (f : ρ → α) (items : List ρ) :
    accumulate (fun _ item => f item) none items = items.getLast?.map f := by
  induction items using List.reverseRecOn with
  | nil => rfl
  | append_singleton items item ih => rw [accumulate_concat, List.getLast?_concat, Option.map_some]

theorem insert_map {β : Type} (f : α → β) (pairs : Keyed κ α) (key : κ) (value : α) :
    insert (pairs.map fun p => (p.1, f p.2)) key (f value) =
      (insert pairs key value).map fun p => (p.1, f p.2) := by
  induction pairs with
  | nil => rfl
  | cons p rest ih =>
      simp only [List.map_cons, insert, ih]
      split <;> rfl

/-- Values can be changed before or after they are put below their keys. -/
theorem ofList_map {β : Type} (f : α → β) (pairs : List (κ × α)) :
    ofList (pairs.map fun p => (p.1, f p.2)) = (ofList pairs).map fun p => (p.1, f p.2) := by
  induction pairs using List.reverseRecOn with
  | nil => rfl
  | append_singleton pairs p ih =>
      simp only [ofList] at ih
      simp only [ofList, List.map_append, List.foldl_append, List.map_singleton, List.foldl_cons,
        List.foldl_nil, ih, insert_map]

section Lawful

variable [LawfulBEq κ]

theorem get?_map {β : Type} (f : κ → α → β) (pairs : Keyed κ α) (key : κ) :
    get? (pairs.map fun p => (p.1, f p.1 p.2)) key = (get? pairs key).map (f key) := by
  induction pairs with
  | nil => rfl
  | cons p rest ih =>
      obtain ⟨k, v⟩ := p
      rw [List.map_cons, get?_cons, get?_cons, ih]
      by_cases hk : k = key
      · subst hk
        simp
      · simp [hk]

theorem get?_modify (pairs : Keyed κ α) (key : κ) (change : α → α) (k : κ) :
    get? (modify pairs key change) k =
      if key == k then (get? pairs k).map change else get? pairs k := by
  induction pairs with
  | nil => simp [modify, get?]
  | cons p rest ih =>
      obtain ⟨k', v⟩ := p
      by_cases hk : k' = key
      · subst hk
        simp only [modify, beq_self_eq_true, if_true, get?_cons]
        split <;> rfl
      · simp only [modify, beq_iff_eq, hk, if_false, get?_cons, ih]
        grind

/-! ## One change -/

theorem insert_eq_upsert (pairs : Keyed κ α) (key : κ) (value : α) :
    insert pairs key value = upsert pairs key fun _ => value := by
  induction pairs with
  | nil => rfl
  | cons p rest ih =>
      obtain ⟨k, v⟩ := p
      by_cases h : k = key
      · subst h
        simp [insert, upsert]
      · simp [insert, upsert, h, ih]

theorem get?_upsert (pairs : Keyed κ α) (key : κ) (change : Option α → α) (k : κ) :
    get? (upsert pairs key change) k =
      if key == k then some (change (get? pairs key)) else get? pairs k := by
  induction pairs with
  | nil => simp [upsert, get?]
  | cons p rest ih =>
      obtain ⟨k', v⟩ := p
      by_cases hk : k' = key
      · subst hk
        simp only [upsert, beq_self_eq_true, if_true, get?_cons]
        split <;> rfl
      · simp only [upsert, beq_iff_eq, hk, if_false, get?_cons, ih]
        grind

theorem keys_upsert (pairs : Keyed κ α) (key : κ) (change : Option α → α) :
    keys (upsert pairs key change) =
      if key ∈ keys pairs then keys pairs else keys pairs ++ [key] := by
  induction pairs with
  | nil => simp [upsert, keys]
  | cons p rest ih =>
      obtain ⟨k, v⟩ := p
      by_cases hk : k = key
      · subst hk
        simp [upsert, keys]
      · have hne : key ≠ k := fun h => hk h.symm
        simp only [keys] at ih
        by_cases hmem : key ∈ rest.map Prod.fst
        · simp [upsert, hk, keys, ih, hmem]
        · simp [upsert, hk, hne, keys, ih, hmem]

theorem nodup_keys_upsert {pairs : Keyed κ α} (h : (keys pairs).Nodup) (key : κ)
    (change : Option α → α) : (keys (upsert pairs key change)).Nodup := by
  rw [keys_upsert]
  split
  · exact h
  · next hmem =>
      rw [List.nodup_append]
      refine ⟨h, by simp, fun a ha b hb hab => hmem ?_⟩
      rwa [← List.mem_singleton.mp hb, ← hab]

/-- A key that is not there is added at the end, and stays there. -/
theorem upsert_at_end {pairs : Keyed κ α} {key : κ} (h : key ∉ keys pairs) (value : Option α)
    (change : Option α → α) :
    upsert (pairs ++ (value.map (key, ·)).toList) key change = pairs ++ [(key, change value)] := by
  induction pairs with
  | nil => cases value <;> simp [upsert]
  | cons p rest ih =>
      obtain ⟨k, v⟩ := p
      simp only [keys, List.map_cons, List.mem_cons, not_or] at h
      have hne : k ≠ key := fun heq => h.1 heq.symm
      simp [upsert, hne, ih h.2]

/-! ## All items -/

theorem keys_gather (key : ρ → κ) (add : Option α → ρ → α) (items : List ρ) :
    keys (gather key add items) = (items.map key).eraseDups := by
  induction items using List.reverseRecOn with
  | nil => rfl
  | append_singleton items item ih =>
      rw [gather_concat, keys_upsert, ih, List.map_append, List.map_singleton,
        List.eraseDups_append]
      by_cases h : key item ∈ items.map key <;> simp [List.removeAll, h, List.eraseDups_cons]

theorem nodup_keys_gather (key : ρ → κ) (add : Option α → ρ → α) (items : List ρ) :
    (keys (gather key add items)).Nodup := by
  induction items using List.reverseRecOn with
  | nil => exact List.nodup_nil
  | append_singleton items item ih =>
      rw [gather_concat]
      exact nodup_keys_upsert ih _ _

theorem nodup_eraseDups (ks : List κ) : ks.eraseDups.Nodup := by
  have hkeys := nodup_keys_gather id (fun (_ : Option Unit) _ => ()) ks
  rwa [keys_gather, List.map_id] at hkeys

theorem eraseDups_perm {ks ks' : List κ} (h : ks.Perm ks') : ks.eraseDups.Perm ks'.eraseDups := by
  refine (List.perm_ext_iff_of_nodup (nodup_eraseDups ks) (nodup_eraseDups ks')).mpr fun k => ?_
  rw [List.mem_eraseDups, List.mem_eraseDups, h.mem_iff]

theorem get?_gather (key : ρ → κ) (add : Option α → ρ → α) (items : List ρ) (k : κ) :
    get? (gather key add items) k = accumulate add none (items.filter (key · == k)) := by
  induction items using List.reverseRecOn with
  | nil => rfl
  | append_singleton items item ih =>
      rw [gather_concat, get?_upsert, List.filter_append]
      by_cases h : key item = k
      · subst h
        simp [accumulate_concat, ih]
      · simp [h, ih]

/-- A mapping is known from its keys and from what stands below them. -/
theorem eq_filterMap_keys {pairs : Keyed κ α} (h : (keys pairs).Nodup) :
    pairs = (keys pairs).filterMap fun k => (get? pairs k).map (k, ·) := by
  induction pairs with
  | nil => rfl
  | cons p rest ih =>
      obtain ⟨k, v⟩ := p
      simp only [keys, List.map_cons, List.nodup_cons] at h
      have hrest : ∀ k' ∈ keys rest, get? ((k, v) :: rest) k' = get? rest k' := by
        intro k' hk'
        have hne : k ≠ k' := fun heq => h.1 (heq ▸ hk')
        simp [get?_cons, hne]
      simp only [keys, List.map_cons, List.filterMap_cons, get?_cons, beq_self_eq_true, if_true,
        Option.map_some, List.cons.injEq, true_and]
      rw [List.filterMap_congr fun k' hk' => by rw [← get?_cons, hrest k' hk']]
      exact ih h.2

theorem gather_eq (key : ρ → κ) (add : Option α → ρ → α) (items : List ρ) :
    gather key add items = (items.map key).eraseDups.filterMap fun k =>
      (accumulate add none (items.filter (key · == k))).map (k, ·) := by
  rw [eq_filterMap_keys (nodup_keys_gather key add items), keys_gather]
  simp only [get?_gather]

theorem gather_getD (key : ρ → κ) (step : α → ρ → α) (default : α) (items : List ρ) :
    gather key (fun value item => step (value.getD default) item) items =
      (items.map key).eraseDups.map fun k =>
        (k, (items.filter (key · == k)).foldl step default) := by
  rw [gather_eq]
  refine List.filterMap_eq_map_iff_forall_eq_some.mpr fun k hk => ?_
  obtain ⟨item, hitem, hkey⟩ := List.mem_map.mp (List.mem_eraseDups.mp hk)
  have hne : items.filter (key · == k) ≠ [] :=
    List.ne_nil_of_mem (List.mem_filter.mpr ⟨hitem, beq_iff_eq.mpr hkey⟩)
  rw [accumulate_getD, if_neg hne]
  rfl

theorem gather_last (key : ρ → κ) (f : ρ → α) (items : List ρ) :
    gather key (fun _ item => f item) items =
      (items.map key).eraseDups.filterMap fun k =>
        (items.filter (key · == k)).getLast?.map fun item => (k, f item) := by
  simp [gather_eq, accumulate_last, Function.comp_def]

theorem ofList_map_eq_gather (key : ρ → κ) (f : ρ → α) (items : List ρ) :
    ofList (items.map fun item => (key item, f item)) =
      gather key (fun _ item => f item) items := by
  simp only [ofList, gather, List.foldl_map, insert_eq_upsert]

theorem ofList_eq_gather (pairs : List (κ × α)) :
    ofList pairs = gather Prod.fst (fun _ p => p.2) pairs := by
  simpa using ofList_map_eq_gather Prod.fst Prod.snd pairs

/-- Pairs without a repeated key are a mapping as they are. -/
theorem ofList_of_nodup {pairs : Keyed κ α} (h : (keys pairs).Nodup) : ofList pairs = pairs := by
  induction pairs using List.reverseRecOn with
  | nil => rfl
  | append_singleton pairs p ih =>
      rw [keys, List.map_append, List.nodup_append] at h
      obtain ⟨hpairs, -, hfresh⟩ := h
      have hp : p.1 ∉ keys pairs := fun hmem => hfresh p.1 hmem p.1 (by simp) rfl
      have hend := upsert_at_end hp none fun _ => p.2
      simp only [Option.map_none, Option.toList_none, List.append_nil] at hend
      rw [ofList, List.foldl_append]
      change insert (ofList pairs) p.1 p.2 = pairs ++ [p]
      rw [ih hpairs, insert_eq_upsert, hend]

theorem mem_of_get?_eq_some {pairs : Keyed κ α} {key : κ} {value : α}
    (h : get? pairs key = some value) : (key, value) ∈ pairs := by
  induction pairs with
  | nil => cases h
  | cons p rest ih =>
      obtain ⟨k, v⟩ := p
      rw [get?_cons] at h
      by_cases hk : k = key
      · subst hk
        simp_all
      · simp_all

/-- What stands below a key is found there, if no key stands twice. -/
theorem get?_eq_some_iff {pairs : Keyed κ α} (hkeys : (keys pairs).Nodup) {key : κ} {value : α} :
    get? pairs key = some value ↔ (key, value) ∈ pairs := by
  refine ⟨mem_of_get?_eq_some, fun hmem => ?_⟩
  induction pairs with
  | nil => cases hmem
  | cons p rest ih =>
      obtain ⟨k, v⟩ := p
      simp only [keys, List.map_cons, List.nodup_cons] at hkeys
      rw [get?_cons]
      rcases List.mem_cons.mp hmem with heq | hrest
      · cases heq
        simp
      · have hne : k ≠ key := fun heq => hkeys.1 (heq ▸ List.mem_map_of_mem hrest)
        simpa [hne] using ih hkeys.2 hrest

theorem mem_of_mem_ofList {pairs : List (κ × α)} {p : κ × α} (h : p ∈ ofList pairs) :
    p ∈ pairs := by
  rw [ofList_eq_gather, gather_last] at h
  obtain ⟨k, -, hlast⟩ := List.mem_filterMap.mp h
  obtain ⟨q, hq, rfl⟩ := Option.map_eq_some_iff.mp hlast
  obtain ⟨hmem, hkey⟩ := List.mem_filter.mp (List.mem_of_getLast? hq)
  rwa [← beq_iff_eq.mp hkey]

/-- Two mappings that have the same values differ in their order at most. -/
theorem perm_of_get?_eq {ps qs : Keyed κ α} (hps : (keys ps).Nodup) (hqs : (keys qs).Nodup)
    (h : ∀ key, get? ps key = get? qs key) : ps.Perm qs := by
  have hps' : ps.Nodup := List.Nodup.of_map _ hps
  have hqs' : qs.Nodup := List.Nodup.of_map _ hqs
  refine (List.perm_ext_iff_of_nodup hps' hqs').mpr fun ⟨key, value⟩ => ?_
  rw [← get?_eq_some_iff hps, ← get?_eq_some_iff hqs, h]

/-- The order of pairs of different keys only decides on the order of the mapping. -/
theorem ofList_perm {ps qs : List (κ × α)}
    (h : ∀ key, ps.filter (·.1 == key) = qs.filter (·.1 == key)) :
    (ofList ps).Perm (ofList qs) := by
  rw [ofList_eq_gather, ofList_eq_gather]
  refine perm_of_get?_eq (nodup_keys_gather _ _ _) (nodup_keys_gather _ _ _) fun key => ?_
  rw [get?_gather, get?_gather, h]

/-! ## The last value of each key -/

/-- Each key of the pairs once, in the order in which they first occur, and below it the value that
comes last. -/
structure LastOfEach (pairs members : Keyed κ α) : Prop where
  keys : Keyed.keys members = (Keyed.keys pairs).eraseDups
  values : ∀ m ∈ members, ∃ before after, pairs = before ++ m :: after ∧ ∀ p ∈ after, p.1 ≠ m.1

theorem lastOfEach_ofList (pairs : Keyed κ α) : LastOfEach pairs (ofList pairs) := by
  constructor
  case keys =>
    rw [ofList_eq_gather, keys_gather]
    rfl
  case values =>
    intro m hm
    rw [ofList_eq_gather, gather_last] at hm
    obtain ⟨key, -, hlast⟩ := List.mem_filterMap.mp hm
    obtain ⟨p, hp, rfl⟩ := Option.map_eq_some_iff.mp hlast
    obtain ⟨before, after, hpairs, hkey, hafter⟩ := exists_of_getLast?_filter hp
    rw [beq_iff_eq] at hkey
    subst hkey
    exact ⟨before, after, hpairs, fun q hq heq => hafter q hq (beq_iff_eq.mpr heq)⟩

/-- What stands before the last pair of a key does not count for this key. -/
theorem get?_ofList_of_last {before after : Keyed κ α} {p : κ × α} (h : ∀ q ∈ after, q.1 ≠ p.1) :
    get? (ofList (before ++ p :: after)) p.1 = some p.2 := by
  have hafter : after.filter (·.1 == p.1) = [] := by
    rw [List.filter_eq_nil_iff]
    exact fun q hq heq => h q hq (beq_iff_eq.mp heq)
  rw [ofList_eq_gather, get?_gather, accumulate_last, List.filter_append,
    List.filter_cons, if_pos (beq_self_eq_true p.1), hafter, List.getLast?_concat]
  rfl

theorem lastOfEach_iff {pairs members : Keyed κ α} :
    LastOfEach pairs members ↔ members = ofList pairs := by
  constructor
  · intro h
    have hmade : keys (ofList pairs) = keys members :=
      (lastOfEach_ofList pairs).keys.trans h.keys.symm
    have hnodup : (keys members).Nodup := by
      rw [h.keys]
      exact nodup_eraseDups _
    have hnodup' : (keys (ofList pairs)).Nodup := by rwa [hmade]
    rw [eq_filterMap_keys hnodup, eq_filterMap_keys hnodup', hmade]
    refine List.filterMap_congr fun key hkey => ?_
    obtain ⟨m, hm, rfl⟩ := List.mem_map.mp hkey
    obtain ⟨before, after, rfl, hafter⟩ := h.values m hm
    rw [get?_ofList_of_last hafter, (get?_eq_some_iff hnodup).mpr hm]
  · rintro rfl
    exact lastOfEach_ofList pairs

/-! ## Lists of items below their keys -/

theorem foldl_concat {α : Type} (items : List α) :
    items.foldl (fun acc item => acc ++ [item]) [] = items := by
  induction items using List.reverseRecOn with
  | nil => rfl
  | append_singleton items item ih => rw [List.foldl_append, ih]; rfl

theorem gather_lists (key : ρ → κ) (items : List ρ) :
    gather key (fun group item => group.getD [] ++ [item]) items =
      (items.map key).eraseDups.map fun k => (k, items.filter (key · == k)) := by
  rw [gather_getD key fun group item => group ++ [item]]
  simp only [foldl_concat]

theorem upsert_concat_perm (pairs : Keyed κ (List ρ)) (key : κ) (item : ρ) :
    ((upsert pairs key fun group => group.getD [] ++ [item]).flatMap Prod.snd).Perm
      (pairs.flatMap Prod.snd ++ [item]) := by
  induction pairs with
  | nil => simp [upsert]
  | cons p rest ih =>
      obtain ⟨k, group⟩ := p
      by_cases hk : k = key
      · subst hk
        simpa [upsert] using (List.perm_append_singleton item _).symm.append_left group
      · simpa [upsert, hk] using ih.append_left group

/-- Taking the items key by key only reorders them. -/
theorem flatMap_filter_perm (key : ρ → κ) (items : List ρ) :
    ((items.map key).eraseDups.flatMap fun k => items.filter (key · == k)).Perm items := by
  suffices h : ((gather key (fun group item => group.getD [] ++ [item]) items).flatMap
      Prod.snd).Perm items by
    rwa [gather_lists, List.flatMap_map] at h
  induction items using List.reverseRecOn with
  | nil => exact .refl _
  | append_singleton items item ih =>
      rw [gather_concat]
      exact (upsert_concat_perm _ _ _).trans (ih.append_right [item])

/-! ## Items that stand together -/

theorem gather_append (key : ρ → κ) (add : Option α → ρ → α) (items block : List ρ) {k : κ}
    (hk : k ∉ items.map key) (hblock : ∀ item ∈ block, key item = k) :
    gather key add (items ++ block) =
      gather key add items ++ ((accumulate add none block).map (k, ·)).toList := by
  induction block using List.reverseRecOn with
  | nil => simp [accumulate]
  | append_singleton block item ih =>
      have hitem : key item = k := hblock item (by simp)
      have hrest : ∀ item ∈ block, key item = k := fun item h => hblock item (by simp [h])
      have hfresh : k ∉ keys (gather key add items) := by
        rwa [keys_gather, List.mem_eraseDups]
      rw [← List.append_assoc, gather_concat, ih hrest, hitem, upsert_at_end hfresh,
        accumulate_concat]
      rfl

/-- Items that come key by key are gathered block by block. -/
theorem gather_blocks (key : ρ → κ) (add : Option α → ρ → α) {blocks : Keyed κ (List ρ)}
    (hkeys : (keys blocks).Nodup) (hblocks : ∀ b ∈ blocks, ∀ item ∈ b.2, key item = b.1) :
    gather key add (blocks.flatMap Prod.snd) =
      blocks.filterMap fun b => (accumulate add none b.2).map (b.1, ·) := by
  induction blocks using List.reverseRecOn with
  | nil => rfl
  | append_singleton blocks b ih =>
      simp only [keys, List.map_append, List.map_singleton] at hkeys
      have hrest : ∀ b ∈ blocks, ∀ item ∈ b.2, key item = b.1 :=
        fun b' hb' => hblocks b' (by simp [hb'])
      have hfresh : b.1 ∉ (blocks.flatMap Prod.snd).map key := by
        intro hmem
        obtain ⟨item, hitem, hkey⟩ := List.mem_map.mp hmem
        obtain ⟨b', hb', hitem⟩ := List.mem_flatMap.mp hitem
        have hsame : b'.1 = b.1 := (hrest b' hb' item hitem).symm.trans hkey
        exact (List.nodup_append.mp hkeys).2.2 b'.1 (List.mem_map_of_mem hb') b.1 (by simp) hsame
      rw [List.flatMap_append, List.flatMap_singleton, gather_append key add _ _ hfresh
        (hblocks b (by simp)), ih (List.nodup_append.mp hkeys).1 hrest, List.filterMap_append]
      cases hvalue : accumulate add none b.2 <;> simp [hvalue]

theorem gather_blocks_getD (key : ρ → κ) (step : α → ρ → α) (default : α)
    {blocks : Keyed κ (List ρ)} (hkeys : (keys blocks).Nodup)
    (hblocks : ∀ b ∈ blocks, ∀ item ∈ b.2, key item = b.1) :
    gather key (fun value item => step (value.getD default) item) (blocks.flatMap Prod.snd) =
      (blocks.filter fun b => !b.2.isEmpty).map fun b => (b.1, b.2.foldl step default) := by
  rw [gather_blocks key _ hkeys hblocks, ← List.filterMap_eq_map, List.filterMap_filter]
  refine List.filterMap_congr fun b _ => ?_
  obtain ⟨k, block⟩ := b
  cases block <;> simp [accumulate_getD]

end Lawful

end ManifestTypes.Keyed
