import ManifestTypes.Catalog.Parser
import ManifestTypes.Proofs.Catalog.Words
import ManifestTypes.Proofs.Keyed.Gathering

/-!
# Which texts are catalogs

The words of a catalog are those of its entries, with commas between them and braces around them.
`parse_ok_iff_entries` says that nothing else is read, and which path each name gets.
-/

namespace ManifestTypes.Catalog

/-! ## Entries -/

/-- A line of a catalog. -/
structure Entry where
  name : String
  path : String
  hash? : Option String
  pinned : ∀ hash ∈ hash?, isHash hash = true

namespace Entry

/-- `name '=' path [ hash ]` -/
def words (e : Entry) : List Word :=
  [.word e.name, .symbol '=', .word e.path] ++ (e.hash?.map Word.word).toList

/-- Entries with commas between them, between braces. -/
def catalogWords (entries : List Entry) : List Word :=
  .symbol '{' :: [.symbol ','].intercalate (entries.map words) ++ [.symbol '}']

def lead (entries : List Entry) : List Word :=
  entries.flatMap fun e => e.words ++ [.symbol ',']

def gathered (entries : List Entry) : Catalog :=
  ofList (entries.map fun e => (e.name, e.path))

theorem lead_concat (entries : List Entry) (e : Entry) :
    lead (entries ++ [e]) = lead entries ++ e.words ++ [.symbol ','] := by
  simp [lead]

theorem intercalate_concat (entries : List Entry) (e : Entry) :
    [.symbol ','].intercalate ((entries ++ [e]).map words) = lead entries ++ e.words := by
  induction entries with
  | nil => simp [lead]
  | cons first rest ih =>
      have hne : (rest ++ [e]).map words ≠ [] := by simp
      obtain ⟨second, more, hrest⟩ := List.exists_cons_of_ne_nil hne
      rw [List.cons_append, List.map_cons, hrest, lead, List.flatMap_cons]
      rw [hrest] at ih
      simp [List.intercalate, lead] at ih ⊢
      exact ih

theorem catalogWords_concat (entries : List Entry) (e : Entry) :
    catalogWords (entries ++ [e]) =
      (.symbol '{' :: lead entries) ++ (e.words ++ [.symbol '}']) := by
  rw [catalogWords, intercalate_concat, List.cons_append, List.cons_append, List.append_assoc]

theorem gathered_concat (entries : List Entry) (e : Entry) :
    gathered (entries ++ [e]) = (gathered entries).insert e.name e.path := by
  simp [gathered, ofList]

theorem entries_ofList (pairs : List (String × String)) :
    (ofList pairs).entries = Keyed.ofList pairs :=
  (List.foldl_hom Catalog.entries fun _ _ => rfl).symm

theorem keys_gathered (entries : List Entry) :
    (gathered entries).entries.keys = (entries.map name).eraseDups := by
  rw [gathered, entries_ofList, Keyed.ofList_map_eq_gather, Keyed.keys_gather]

theorem get?_gathered (entries : List Entry) (key : String) :
    (gathered entries).get? key = (entries.filter (·.name == key)).getLast?.map path := by
  rw [gathered, get?, entries_ofList, Keyed.ofList_map_eq_gather, Keyed.get?_gather,
    Keyed.accumulate_last]

end Entry

/-- A catalog is known from the order of its names and from their paths. -/
theorem eq_of_get?_eq {c d : Catalog} (hkeys : c.entries.keys = d.entries.keys)
    (hpaths : ∀ name, c.get? name = d.get? name) : c = d := by
  have hentries : c.entries = d.entries := by
    rw [Keyed.eq_filterMap_keys c.nodup, Keyed.eq_filterMap_keys d.nodup, hkeys]
    exact List.filterMap_congr fun name _ => congrArg (Option.map (name, ·)) (hpaths name)
  cases c
  cases d
  cases hentries
  rfl

/-! ## Runs -/

namespace State

def steps (s : State) (ws : List Word) : Option State :=
  ws.foldlM step s

theorem steps_cons (s : State) (w : Word) (ws : List Word) :
    s.steps (w :: ws) = (s.step w).bind fun t => t.steps ws := rfl

theorem steps_append (s : State) (first second : List Word) :
    s.steps (first ++ second) = (s.steps first).bind fun t => t.steps second :=
  List.foldlM_append

theorem run_eq_ok_iff {s t : State} {ps : List Placed} :
    s.run ps = .ok t ↔ s.steps (ps.map Placed.word) = some t := by
  induction ps generalizing s with
  | nil => simp [run, steps]
  | cons p rest ih =>
      rw [List.map_cons, steps_cons, run]
      cases s.step p.word with
      | none => simp
      | some next => exact ih

/-- The words that are read up to a state, and the entries that it holds. -/
def ReadFrom (ws : List Word) : State → Prop
  | .start => ws = []
  | .opened => ws = [.symbol '{']
  | .separated c => ∃ before e, ws = .symbol '{' :: Entry.lead (before ++ [e]) ∧
      c = Entry.gathered (before ++ [e])
  | .named c name => ∃ before, ws = .symbol '{' :: Entry.lead before ++ [.word name] ∧
      c = Entry.gathered before
  | .assigned c name => ∃ before,
      ws = .symbol '{' :: Entry.lead before ++ [.word name, .symbol '='] ∧
      c = Entry.gathered before
  | .located c => ∃ before e, e.hash? = none ∧
      ws = .symbol '{' :: Entry.lead before ++ e.words ∧ c = Entry.gathered (before ++ [e])
  | .pinned c => ∃ before e, ws = .symbol '{' :: Entry.lead before ++ e.words ∧
      c = Entry.gathered (before ++ [e])
  | .complete c => ∃ entries, ws = Entry.catalogWords entries ∧ c = Entry.gathered entries

theorem readFrom_separated (before : List Entry) (e : Entry) :
    (State.separated (Entry.gathered (before ++ [e]))).ReadFrom
      (.symbol '{' :: Entry.lead before ++ e.words ++ [.symbol ',']) :=
  ⟨before, e, by simp [Entry.lead_concat], rfl⟩

theorem readFrom_complete (before : List Entry) (e : Entry) :
    (State.complete (Entry.gathered (before ++ [e]))).ReadFrom
      (.symbol '{' :: Entry.lead before ++ e.words ++ [.symbol '}']) :=
  ⟨before ++ [e], by simp [Entry.catalogWords_concat], rfl⟩

theorem ReadFrom.step {s t : State} {ws : List Word} {w : Word} (h : s.ReadFrom ws)
    (hstep : s.step w = some t) : t.ReadFrom (ws ++ [w]) := by
  unfold State.step at hstep
  split at hstep
  · cases hstep
    obtain rfl := h
    rfl
  · cases hstep
    obtain rfl := h
    exact ⟨[], rfl, rfl⟩
  · cases hstep
    obtain rfl := h
    exact ⟨[], rfl, rfl⟩
  · cases hstep
    obtain ⟨before, e, rfl, rfl⟩ := h
    exact ⟨before ++ [e], rfl, rfl⟩
  · cases hstep
    obtain ⟨before, rfl, rfl⟩ := h
    exact ⟨before, by simp, rfl⟩
  · next name path =>
    cases hstep
    obtain ⟨before, rfl, rfl⟩ := h
    refine ⟨before, ⟨name, path, none, by simp⟩, rfl, by simp [Entry.words], ?_⟩
    rw [Entry.gathered_concat]
  · next hash =>
    split at hstep
    · next hhash =>
      cases hstep
      obtain ⟨before, ⟨name, path, _, _⟩, rfl, rfl, rfl⟩ := h
      refine ⟨before, ⟨name, path, some hash, by simpa using hhash⟩, by simp [Entry.words], ?_⟩
      rw [Entry.gathered_concat, Entry.gathered_concat]
    · cases hstep
  · cases hstep
    obtain ⟨before, e, -, rfl, rfl⟩ := h
    exact readFrom_separated before e
  · cases hstep
    obtain ⟨before, e, -, rfl, rfl⟩ := h
    exact readFrom_complete before e
  · cases hstep
    obtain ⟨before, e, rfl, rfl⟩ := h
    exact readFrom_separated before e
  · cases hstep
    obtain ⟨before, e, rfl, rfl⟩ := h
    exact readFrom_complete before e
  · cases hstep

theorem readFrom_of_steps {ws : List Word} {s : State} (h : start.steps ws = some s) :
    s.ReadFrom ws := by
  induction ws using List.reverseRecOn generalizing s with
  | nil =>
      cases h
      rfl
  | append_singleton ws w ih =>
      rw [steps_append, Option.bind_eq_some_iff] at h
      obtain ⟨before, hbefore, hlast⟩ := h
      rw [steps_cons, Option.bind_eq_some_iff] at hlast
      obtain ⟨_, hstep, hnil⟩ := hlast
      cases hnil
      exact (ih hbefore).step hstep

/-- Where a name can stand, an entry can stand, and a comma or a brace behind it. -/
theorem steps_words {s : State} {c : Catalog} {e : Entry}
    (h : s.step (.word e.name) = some (.named c e.name)) :
    ∃ t, s.steps e.words = some t ∧
      t.step (.symbol ',') = some (.separated (c.insert e.name e.path)) ∧
      t.step (.symbol '}') = some (.complete (c.insert e.name e.path)) := by
  obtain ⟨name, path, hash?, hpinned⟩ := e
  cases hash? with
  | none =>
      refine ⟨.located (c.insert name path), ?_, rfl, rfl⟩
      rw [Entry.words, List.cons_append, steps_cons, h]
      rfl
  | some hash =>
      refine ⟨.pinned (c.insert name path), ?_, rfl, rfl⟩
      rw [Entry.words, List.cons_append, steps_cons, h]
      simp [steps, step, hpinned hash rfl]

theorem steps_lead (before : List Entry) :
    ∃ s, start.steps (.symbol '{' :: Entry.lead before) = some s ∧
      ∀ name, s.step (.word name) = some (.named (Entry.gathered before) name) := by
  induction before using List.reverseRecOn with
  | nil => exact ⟨.opened, rfl, fun _ => rfl⟩
  | append_singleton before e ih =>
      obtain ⟨s, hs, hname⟩ := ih
      obtain ⟨t, ht, hcomma, -⟩ := steps_words (hname e.name)
      refine ⟨.separated (Entry.gathered (before ++ [e])), ?_, fun _ => rfl⟩
      rw [Entry.lead_concat, List.append_assoc, ← List.cons_append, steps_append, hs,
        Option.bind_some, steps_append, ht, Option.bind_some, steps_cons, hcomma,
        Entry.gathered_concat]
      rfl

theorem steps_catalogWords (entries : List Entry) :
    start.steps (Entry.catalogWords entries) = some (.complete (Entry.gathered entries)) := by
  rcases entries.eq_nil_or_concat with rfl | ⟨before, e, rfl⟩
  · rfl
  · obtain ⟨s, hs, hname⟩ := steps_lead before
    obtain ⟨t, ht, -, hbrace⟩ := steps_words (hname e.name)
    rw [List.concat_eq_append, Entry.catalogWords_concat, steps_append, hs, Option.bind_some,
      steps_append, ht, Option.bind_some, steps_cons, hbrace, Entry.gathered_concat]
    rfl

theorem steps_eq_complete_iff {ws : List Word} {c : Catalog} :
    start.steps ws = some (.complete c) ↔
      ∃ entries, ws = Entry.catalogWords entries ∧ c = Entry.gathered entries := by
  constructor
  · exact readFrom_of_steps
  · rintro ⟨entries, rfl, rfl⟩
    exact steps_catalogWords entries

end State

/-! ## Catalogs -/

theorem parse_eq_ok_iff_steps {source : String} {c : Catalog} :
    parse source = .ok c ↔
      State.start.steps ((words 0 source.toList).map Placed.word) = some (.complete c) := by
  rw [← State.run_eq_ok_iff, parse]
  cases State.start.run (words 0 source.toList) with
  | error m => simp [bind, Except.bind]
  | ok s => cases s <;> simp [bind, Except.bind]

/-- A text is read as a catalog if its words are those of entries, and only then. The catalog has
each name once, where its first entry stands, with the path of its last. -/
theorem parse_ok_iff_entries (source : String) (c : Catalog) :
    parse source = .ok c ↔
      ∃ entries : List Entry, SplitsInto source.toList (Entry.catalogWords entries) ∧
        c.entries.keys = (entries.map Entry.name).eraseDups ∧
        ∀ name, c.get? name = (entries.filter (·.name == name)).getLast?.map Entry.path := by
  rw [parse_eq_ok_iff_steps, State.steps_eq_complete_iff]
  constructor
  · rintro ⟨entries, hwords, rfl⟩
    exact ⟨entries, splitsInto_iff.mpr hwords, Entry.keys_gathered entries,
      Entry.get?_gathered entries⟩
  · rintro ⟨entries, hwords, hkeys, hpaths⟩
    refine ⟨entries, splitsInto_iff.mp hwords, eq_of_get?_eq ?_ fun name => ?_⟩
    · rw [hkeys, Entry.keys_gathered]
    · rw [hpaths, Entry.get?_gathered]

end ManifestTypes.Catalog
