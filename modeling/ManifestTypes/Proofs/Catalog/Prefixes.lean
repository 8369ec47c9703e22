import ManifestTypes.Proofs.Catalog.Entries

/-!
# Where catalogs break off

Words are viable if some accepted text starts with them. A reading fails at the first word that is
not viable behind those before it, or at the end of the text, and what it asks for there may
indeed follow.
-/

namespace ManifestTypes.Catalog

/-- The words of some text that is read as a catalog. -/
def Accepted (ws : List Word) : Prop :=
  ∃ source c, parse source = .ok c ∧ SplitsInto source.toList ws

/-- Some accepted words start with these. -/
def Viable (ws : List Word) : Prop :=
  ∃ rest, Accepted (ws ++ rest)

theorem Viable.of_prefix {first ws : List Word} (h : Viable ws) (hpre : first <+: ws) :
    Viable first := by
  obtain ⟨middle, rfl⟩ := hpre
  obtain ⟨rest, hrest⟩ := h
  exact ⟨middle ++ rest, by rwa [← List.append_assoc]⟩

theorem accepted_iff {ws : List Word} (hspelled : ∀ w ∈ ws, w.Spelled) :
    Accepted ws ↔ ∃ c, State.start.steps ws = some (.complete c) := by
  constructor
  · rintro ⟨source, c, hparse, hsplits⟩
    exact ⟨c, splitsInto_iff.mp hsplits ▸ parse_eq_ok_iff_steps.mp hparse⟩
  · rintro ⟨c, hsteps⟩
    obtain ⟨source, hsplits⟩ := exists_splitsInto hspelled
    refine ⟨source, c, parse_eq_ok_iff_steps.mpr ?_, hsplits⟩
    rwa [splitsInto_iff.mp hsplits]

theorem Accepted.spelled {ws : List Word} (h : Accepted ws) : ∀ w ∈ ws, w.Spelled := by
  obtain ⟨_, _, _, hsplits⟩ := h
  exact hsplits.spelled

/-! ## Completions -/

theorem spelled_sign {c : Char} (h : c = '{' ∨ c = '=' ∨ c = '}') : (Word.symbol c).Spelled := by
  rcases h with rfl | rfl | rfl
  all_goals exact .symbol _ (by decide +kernel) (by decide +kernel)

theorem spelled_opening : (Word.symbol '{').Spelled :=
  spelled_sign (.inl rfl)

theorem spelled_equals : (Word.symbol '=').Spelled :=
  spelled_sign (.inr (.inl rfl))

theorem spelled_closing : (Word.symbol '}').Spelled :=
  spelled_sign (.inr (.inr rfl))

theorem spelled_a : (Word.word "a").Spelled :=
  .word 'a' [] (by decide) (by simp)

def State.Completes (s : State) : Prop :=
  ∃ ws c, (∀ w ∈ ws, w.Spelled) ∧ s.steps ws = some (.complete c)

theorem State.Completes.of_step {s t : State} {w : Word} (ht : t.Completes) (hw : w.Spelled)
    (hstep : s.step w = some t) : s.Completes := by
  obtain ⟨ws, c, hws, hsteps⟩ := ht
  refine ⟨w :: ws, c, List.forall_mem_cons.mpr ⟨hw, hws⟩, ?_⟩
  rw [steps_cons, hstep, Option.bind_some, hsteps]

theorem State.completes_complete (c : Catalog) : (State.complete c).Completes :=
  ⟨[], c, by simp, rfl⟩

theorem State.completes (s : State) : s.Completes := by
  have hlocated (c : Catalog) : (State.located c).Completes :=
    (completes_complete c).of_step spelled_closing rfl
  have hassigned (c : Catalog) (name : String) : (State.assigned c name).Completes :=
    (hlocated _).of_step spelled_a rfl
  have hnamed (c : Catalog) (name : String) : (State.named c name).Completes :=
    (hassigned c name).of_step spelled_equals rfl
  have hopened : State.opened.Completes := (completes_complete empty).of_step spelled_closing rfl
  cases s with
  | start => exact hopened.of_step spelled_opening rfl
  | opened => exact hopened
  | separated c => exact (hnamed c "a").of_step spelled_a rfl
  | named c name => exact hnamed c name
  | assigned c name => exact hassigned c name
  | located c => exact hlocated c
  | pinned c => exact (completes_complete c).of_step spelled_closing rfl
  | complete c => exact completes_complete c

theorem viable_iff {ws : List Word} (hspelled : ∀ w ∈ ws, w.Spelled) :
    Viable ws ↔ ∃ s, State.start.steps ws = some s := by
  constructor
  · rintro ⟨rest, hrest⟩
    obtain ⟨c, hsteps⟩ := (accepted_iff hrest.spelled).mp hrest
    rw [State.steps_append, Option.bind_eq_some_iff] at hsteps
    obtain ⟨s, hs, -⟩ := hsteps
    exact ⟨s, hs⟩
  · rintro ⟨s, hs⟩
    obtain ⟨rest, c, hrest, hsteps⟩ := s.completes
    have hall : ∀ w ∈ ws ++ rest, w.Spelled := List.forall_mem_append.mpr ⟨hspelled, hrest⟩
    refine ⟨rest, (accepted_iff hall).mpr ⟨c, ?_⟩⟩
    rw [State.steps_append, hs, Option.bind_some, hsteps]

/-! ## What may follow -/

/-- What is asked for behind some words may stand there: a symbol or any word makes them longer
and keeps them viable, and at the end of the input they are accepted. -/
def MayFollow (before : List Word) : Expectation → Prop
  | .mark c => Viable (before ++ [.symbol c])
  | .typeName | .importPath => ∀ name, (Word.word name).Spelled → Viable (before ++ [.word name])
  | .endOfInput => Accepted before
  | .fieldLabel | .nestingWithin _ => False

theorem mayFollow_expected {before : List Word} {s : State}
    (hspelled : ∀ w ∈ before, w.Spelled) (hsteps : State.start.steps before = some s) :
    MayFollow before s.expected := by
  have hviable (w : Word) (t : State) (hw : w.Spelled) (hstep : s.step w = some t) :
      Viable (before ++ [w]) := by
    refine (viable_iff (List.forall_mem_append.mpr ⟨hspelled, by simpa using hw⟩)).mpr ⟨t, ?_⟩
    rw [State.steps_append, hsteps, Option.bind_some, State.steps_cons, hstep]
    rfl
  cases s with
  | start => exact hviable _ _ spelled_opening rfl
  | opened => exact fun name hname => hviable _ _ hname rfl
  | separated c => exact fun name hname => hviable _ _ hname rfl
  | named c name => exact hviable _ _ spelled_equals rfl
  | assigned c name => exact fun path hpath => hviable _ _ hpath rfl
  | located c => exact hviable _ _ spelled_closing rfl
  | pinned c => exact hviable _ _ spelled_closing rfl
  | complete c => exact (accepted_iff hspelled).mpr ⟨c, hsteps⟩

/-! ## Where a reading fails -/

theorem State.exists_of_run_eq_error {s : State} {start : Nat} {items : List Spaced} {m : Mismatch}
    (h : s.run (place start items) = .error m) :
    ∃ before item after t, items = before ++ item :: after ∧
      s.steps (before.map Spaced.word) = some t ∧ t.step item.word = none ∧
      m = ⟨t.expected, some item.word.text,
        start + Text.byteLength (before.flatMap Spaced.text ++ item.gap)⟩ := by
  induction items generalizing s start with
  | nil => cases h
  | cons first items ih =>
      rw [place, run] at h
      cases hstep : s.step first.word with
      | none =>
          rw [hstep] at h
          cases h
          exact ⟨[], first, items, s, rfl, rfl, hstep, rfl⟩
      | some next =>
          rw [hstep] at h
          obtain ⟨before, item, after, t, rfl, hsteps, hbad, rfl⟩ := ih h
          refine ⟨first :: before, item, after, t, rfl, ?_, hbad, ?_⟩
          · rw [List.map_cons, steps_cons, hstep, Option.bind_some, hsteps]
          · simp [Nat.add_assoc]

theorem parse_eq_error_iff {source : String} {m : Mismatch} :
    parse source = .error m ↔
      State.start.run (words 0 source.toList) = .error m ∨
        ∃ s, State.start.run (words 0 source.toList) = .ok s ∧ (∀ c, s ≠ .complete c) ∧
          m = ⟨s.expected, none, source.utf8ByteSize⟩ := by
  rw [parse]
  cases State.start.run (words 0 source.toList) with
  | error m' => simp [bind, Except.bind]
  | ok s => cases s <;> simp [bind, Except.bind, eq_comm]

/-- The words break off at a word: those before it are viable, those up to it are not. -/
structure BreaksAt (ws before : List Word) (w : Word) : Prop where
  start : before ++ [w] <+: ws
  viable : ∀ shorter, shorter <+: before → Viable shorter
  broken : ¬ Viable (before ++ [w])

/-- A report names the word at which a text breaks off. If there is none, it names the end. -/
structure NamesBreak (source : String) (items : List Spaced) (m : Mismatch) : Prop where
  inside : (∃ i, ¬ Viable ((items.map Spaced.word).take i)) →
    ∃ before item after, items = before ++ item :: after ∧
      BreaksAt (items.map Spaced.word) (before.map Spaced.word) item.word ∧
      m.found = some item.word.text ∧
      m.position = Text.byteLength (before.flatMap Spaced.text ++ item.gap) ∧
      MayFollow (before.map Spaced.word) m.expected
  ending : (∀ i, Viable ((items.map Spaced.word).take i)) →
    m.found = none ∧ m.position = source.utf8ByteSize ∧
      MayFollow (items.map Spaced.word) m.expected

/-- A text that is no catalog is refused at its first word behind which it cannot be completed,
or at its end if it is too short. What is asked for could have followed there. -/
theorem refused_at_first_break {source : String} {m : Mismatch} (h : parse source = .error m) :
    ∃ items trailing, Divided source.toList items trailing ∧ NamesBreak source items m := by
  obtain ⟨items, trailing, hdivided⟩ := exists_divided source.toList
  have hspelled : ∀ w ∈ items.map Spaced.word, w.Spelled :=
    List.forall_mem_map.mpr hdivided.spelled
  refine ⟨items, trailing, hdivided, ?_⟩
  rcases parse_eq_error_iff.mp h with hrun | ⟨s, hrun, -, rfl⟩
  · rw [hdivided.words_eq] at hrun
    obtain ⟨before, item, after, t, rfl, hsteps, hbad, rfl⟩ := State.exists_of_run_eq_error hrun
    rw [List.map_append, List.map_cons, List.append_cons] at hspelled
    obtain ⟨hupto, -⟩ := List.forall_mem_append.mp hspelled
    obtain ⟨hbefore, -⟩ := List.forall_mem_append.mp hupto
    have hviable : Viable (before.map Spaced.word) := (viable_iff hbefore).mpr ⟨t, hsteps⟩
    have hbroken : ¬ Viable (before.map Spaced.word ++ [item.word]) := by
      rw [viable_iff hupto, State.steps_append, hsteps, Option.bind_some, State.steps_cons, hbad]
      simp
    have hstart : before.map Spaced.word ++ [item.word] <+:
        (before ++ item :: after).map Spaced.word :=
      ⟨after.map Spaced.word, by simp⟩
    constructor
    · intro _
      exact ⟨before, item, after, rfl, ⟨hstart, fun shorter => hviable.of_prefix, hbroken⟩, rfl,
        by simp, mayFollow_expected hbefore hsteps⟩
    · intro hall
      have hwhole := hall ((before ++ item :: after).map Spaced.word).length
      rw [List.take_length] at hwhole
      exact absurd (hwhole.of_prefix hstart) hbroken
  · have hsteps := State.run_eq_ok_iff.mp hrun
    rw [splitsInto_iff.mp ⟨items, trailing, hdivided, rfl⟩] at hsteps
    have hviable := (viable_iff hspelled).mpr ⟨s, hsteps⟩
    constructor
    · rintro ⟨i, hbroken⟩
      exact absurd (hviable.of_prefix (List.take_prefix i _)) hbroken
    · intro _
      exact ⟨rfl, rfl, mayFollow_expected hspelled hsteps⟩

def twiceHashed : String :=
  "\x7b\u2003été = ./péage sha256:0 sha256:1 \x7d"

theorem words_twiceHashed : words 0 twiceHashed.toList =
    [⟨.symbol '{', 0⟩, ⟨.word "été", 4⟩, ⟨.symbol '=', 10⟩, ⟨.word "./péage", 12⟩,
      ⟨.word "sha256:0", 21⟩, ⟨.word "sha256:1", 30⟩, ⟨.symbol '}', 39⟩] := by
  decide +kernel

theorem parse_twiceHashed : parse twiceHashed = .error ⟨.mark '}', some "sha256:1", 30⟩ := by
  rw [parse, words_twiceHashed]
  rfl

theorem refused_at_second_hash :
    parse twiceHashed = .error ⟨.mark '}', some "sha256:1", 30⟩ ∧
      ∃ items trailing, Divided twiceHashed.toList items trailing ∧
        NamesBreak twiceHashed items ⟨.mark '}', some "sha256:1", 30⟩ :=
  ⟨parse_twiceHashed, refused_at_first_break parse_twiceHashed⟩

end ManifestTypes.Catalog
