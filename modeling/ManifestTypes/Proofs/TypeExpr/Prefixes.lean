import ManifestTypes.Proofs.TypeExpr.Parsing

/-!
# Where type expressions break off

Tokens are viable if some accepted text starts with them. The reader fails at the first token
that is not viable behind those before it, whatever comes later, and what it asks for there may
indeed follow. `Asks` says what that is without the reader, and `asks_iff` that the reader agrees.
-/

namespace ManifestTypes.TypeExpr

/-- The tokens of some text that is read as a record type. -/
def Accepted (tokens : List Token) : Prop :=
  ∃ source record, parse source = .ok record ∧ tokenize source = .ok tokens

/-- Some accepted tokens start with these. -/
def Viable (tokens : List Token) : Prop :=
  ∃ rest, Accepted (tokens ++ rest)

theorem Viable.of_prefix {first tokens : List Token} (h : Viable tokens)
    (hpre : first <+: tokens) : Viable first := by
  obtain ⟨middle, rfl⟩ := hpre
  obtain ⟨rest, hrest⟩ := h
  exact ⟨middle ++ rest, by rwa [← List.append_assoc]⟩

/-! ## Accepted tokens and runs -/

theorem Accepted.steps {tokens : List Token} (h : Accepted tokens) :
    ∃ record, State.start.steps (tokens.map Token.lexeme) = .ok (.complete record) := by
  obtain ⟨source, record, hparse, htokens⟩ := h
  obtain ⟨-, rfl⟩ := tokenize_eq_ok_iff.mp htokens
  obtain ⟨-, hsteps⟩ := parse_eq_ok_iff_steps.mp hparse
  exact ⟨record, by rwa [Reading.map_lexeme_tokens]⟩

theorem Viable.steps {tokens : List Token} (h : Viable tokens) :
    ∃ s, State.start.steps (tokens.map Token.lexeme) = .ok s := by
  obtain ⟨rest, hrest⟩ := h
  obtain ⟨record, hsteps⟩ := hrest.steps
  rw [List.map_append] at hsteps
  cases hfirst : State.start.steps (tokens.map Token.lexeme) with
  | ok s => exact ⟨s, rfl⟩
  | error e =>
      rw [State.steps_append_of_error hfirst] at hsteps
      cases hsteps

/-! ## Completions -/

def State.Completes (s : State) : Prop :=
  ∃ ls record, (∀ l ∈ ls, l.Spelled) ∧ s.steps ls = .ok (.complete record)

theorem State.Move.completes {s t : State} {l : Lexeme} (h : Move s l t) (hl : l.Spelled)
    (ht : t.Completes) : s.Completes := by
  obtain ⟨ls, record, hls, hsteps⟩ := ht
  refine ⟨l :: ls, record, ?_, ?_⟩
  · intro m hm
    rcases List.mem_cons.mp hm with rfl | hm
    · exact hl
    · exact hls m hm
  · rw [steps_cons_of_move h, hsteps]

theorem State.completes_complete (record : RecordType) : (State.complete record).Completes :=
  ⟨[], record, fun _ hl => absurd hl List.not_mem_nil, rfl⟩

/-- From where a field may end, the open literals can be closed one after the other. -/
theorem State.completes_of_complete? (outer : List Enclosing) (shape : Shape)
    {fields done : Array Field} {place : Place} (hdone : place.complete? fields = some done) :
    (State.inside outer shape fields place).Completes := by
  induction outer generalizing shape fields done place with
  | nil => exact (Move.close hdone).completes (.mark _) (completes_complete _)
  | cons e outer ih =>
      have hclosed : (close (e :: outer) shape done).Completes := ih e.shape rfl
      exact (Move.close hdone).completes (.mark _) hclosed

theorem spelled_identifier_a : (Lexeme.identifier "a").Spelled :=
  .identifier 'a' [] (by decide) (by simp)

theorem State.completes (s : State) : s.Completes := by
  cases s with
  | start =>
      have hopened : (State.inside [] .record #[] .opened).Completes :=
        completes_of_complete? [] .record rfl
      exact Move.start.completes (.mark _) hopened
  | complete record => exact completes_complete record
  | inside outer shape fields place =>
      have hlabelled : ∀ key, (State.inside outer shape fields (.labelled key)).Completes :=
        fun key => Move.colon.completes (.mark _) (completes_of_complete? outer shape rfl)
      cases place with
      | opened => exact completes_of_complete? outer shape rfl
      | separated =>
          have hplace : Place.separated.AwaitsLabel := trivial
          have hlabel : (Lexeme.identifier "a").label? = some "a" := rfl
          exact (Move.label hplace hlabel).completes spelled_identifier_a (hlabelled "a")
      | labelled key => exact hlabelled key
      | applying key atoms => exact completes_of_complete? outer shape rfl
      | closed => exact completes_of_complete? outer shape rfl

def spaced (ls : List Lexeme) : List Char :=
  ls.flatMap fun l => ' ' :: l.text.toList

theorem carriesOn_spaced (ls : List Lexeme) : carriesOn (spaced ls) = false := by
  cases ls with
  | nil => rfl
  | cons l ls => exact (by decide : isIdentifierRest ' ' = false)

theorem spells_spaced {ls : List Lexeme} (h : ∀ l ∈ ls, l.Spelled) : Spells (spaced ls) ls := by
  induction ls with
  | nil => exact spells_ignored (by simp [spaced])
  | cons l ls ih =>
      have hspace : Spells [' '] [] := spells_ignored (by decide)
      have hword := hspace.append (h l List.mem_cons_self).spells fun h => absurd h (by decide)
      have hrest := ih fun m hm => h m (List.mem_cons_of_mem l hm)
      exact hword.append hrest fun _ => carriesOn_spaced ls

/-- The first tokens of a text can be followed by any lexemes that the reader takes there. -/
theorem accepted_take {text : List Char} {n : Nat} {ls : List Lexeme} {record : RecordType}
    (hls : ∀ l ∈ ls, l.Spelled)
    (hsteps : State.start.steps ((read text).lexemes.take n ++ ls) = .ok (.complete record)) :
    ∃ rest, rest.map Token.lexeme = ls ∧ Accepted ((read text).tokens.take n ++ rest) := by
  let cut := ((read text).items.take n).flatMap Spaced.text
  have hcut : read cut = ⟨(read text).items.take n, [], []⟩ := read_take text n
  have hcutTokens : (read cut).tokens = (read text).tokens.take n := by
    rw [hcut]
    exact place_take 0 n (read text).items
  have hcutLexemes : (read cut).lexemes = (read text).lexemes.take n := by
    rw [hcut]
    exact List.map_take
  have hspaced := spells_spaced hls
  have hread : read (cut ++ spaced ls) = (read cut).append (read (spaced ls)) :=
    read_append (by rw [hcut]) fun _ => carriesOn_spaced ls
  have hlexemes : (read (cut ++ spaced ls)).lexemes = (read text).lexemes.take n ++ ls := by
    rw [hread, Reading.lexemes_append, hspaced.2, hcutLexemes]
  have hunread : (read (cut ++ spaced ls)).unread = [] := by
    rw [hread, Reading.unread_append]
    exact hspaced.1
  obtain ⟨rest, htokens⟩ : (read cut).tokens <+: (read (cut ++ spaced ls)).tokens := by
    rw [hread]
    exact Reading.tokens_prefix_append _ _
  refine ⟨rest, ?_, String.ofList (cut ++ spaced ls), record, ?_, ?_⟩
  · rw [← Reading.map_lexeme_tokens, ← htokens, List.map_append, Reading.map_lexeme_tokens,
      hcutLexemes] at hlexemes
    exact List.append_cancel_left hlexemes
  · rw [parse_eq_ok_iff_steps, String.toList_ofList, hlexemes]
    exact ⟨hunread, hsteps⟩
  · rw [tokenize_eq_ok_iff, String.toList_ofList, ← htokens, hcutTokens]
    exact ⟨hunread, rfl⟩

/-! ## Runs over the first tokens of a text -/

section Runs

variable {text : List Char} {n : Nat} {s : State}

theorem viable_take (hsteps : State.start.steps ((read text).lexemes.take n) = .ok s) :
    Viable ((read text).tokens.take n) := by
  obtain ⟨ls, record, hls, hrest⟩ := s.completes
  rw [← State.steps_append_of_ok hsteps] at hrest
  obtain ⟨rest, -, haccepted⟩ := accepted_take hls hrest
  exact ⟨rest, haccepted⟩

theorem viable_take_concat (hsteps : State.start.steps ((read text).lexemes.take n) = .ok s)
    {l : Lexeme} {t : State} (hl : l.Spelled) (hmove : State.Move s l t) :
    ∃ position, Viable ((read text).tokens.take n ++ [⟨l, position⟩]) := by
  obtain ⟨ls, record, hls, hrest⟩ := t.completes
  have hall : ∀ m ∈ l :: ls, m.Spelled := by
    simpa using ⟨hl, hls⟩
  rw [← State.steps_cons_of_move hmove, ← State.steps_append_of_ok hsteps] at hrest
  obtain ⟨rest, hlexemes, haccepted⟩ := accepted_take hall hrest
  obtain ⟨token, rest, rfl, rfl, -⟩ := List.map_eq_cons_iff.mp hlexemes
  exact ⟨token.position, rest, by simpa using haccepted⟩

theorem accepted_take_complete {record : RecordType}
    (hsteps : State.start.steps ((read text).lexemes.take n) = .ok (.complete record)) :
    Accepted ((read text).tokens.take n) := by
  rw [← List.append_nil ((read text).lexemes.take n)] at hsteps
  obtain ⟨rest, hlexemes, haccepted⟩ := accepted_take (by simp) hsteps
  rw [List.map_eq_nil_iff.mp hlexemes, List.append_nil] at haccepted
  exact haccepted

end Runs

theorem steps_take_of_run {text : List Char} {s : State}
    (hrun : State.start.run (read text).tokens = .ok s) :
    State.start.steps ((read text).lexemes.take (read text).tokens.length) = .ok s := by
  rw [← Reading.map_lexeme_tokens, ← List.map_take, List.take_length]
  exact State.run_eq_ok_iff.mp hrun

/-- The tokens of a text are viable exactly if the reader takes them all. -/
theorem viable_tokens_iff (text : List Char) :
    Viable (read text).tokens ↔ ∃ s, State.start.run (read text).tokens = .ok s := by
  constructor
  · intro h
    obtain ⟨s, hsteps⟩ := h.steps
    exact ⟨s, State.run_eq_ok_iff.mpr hsteps⟩
  · intro h
    obtain ⟨s, hrun⟩ := h
    have hviable := viable_take (steps_take_of_run hrun)
    rwa [List.take_length] at hviable

theorem accepted_tokens_iff (text : List Char) :
    Accepted (read text).tokens ↔
      ∃ record, State.start.run (read text).tokens = .ok (.complete record) := by
  constructor
  · intro h
    obtain ⟨record, hsteps⟩ := h.steps
    exact ⟨record, State.run_eq_ok_iff.mpr hsteps⟩
  · intro h
    obtain ⟨record, hrun⟩ := h
    have haccepted := accepted_take_complete (steps_take_of_run hrun)
    rwa [List.take_length] at haccepted

theorem exists_not_viable_iff (text : List Char) :
    (∃ i ≤ (read text).tokens.length, ¬ Viable ((read text).tokens.take i)) ↔
      ∃ m, State.start.run (read text).tokens = .error m := by
  constructor
  · intro h
    obtain ⟨i, -, hbroken⟩ := h
    cases hrun : State.start.run (read text).tokens with
    | error m => exact ⟨m, rfl⟩
    | ok s =>
        have hviable := (viable_tokens_iff text).mpr ⟨s, hrun⟩
        exact absurd (hviable.of_prefix (List.take_prefix i _)) hbroken
  · intro h
    obtain ⟨m, hrun⟩ := h
    refine ⟨_, Nat.le_refl _, ?_⟩
    rw [List.take_length, viable_tokens_iff, hrun]
    intro h
    obtain ⟨s, hs⟩ := h
    cases hs

/-! ## Where a reading fails -/

/-- The tokens break off at a token: those before it are viable, those up to it are not. -/
structure BreaksAt (tokens before : List Token) (token : Token) : Prop where
  start : before ++ [token] <+: tokens
  viable : ∀ shorter, shorter <+: before → Viable shorter
  broken : ¬ Viable (before ++ [token])

/-- What is asked for behind some tokens may stand there: a mark or any label makes the tokens
longer and keeps them viable, and at the end of the input they are accepted. -/
def MayFollow (before : List Token) : Expectation → Prop
  | .mark c => ∃ m position, m.char = c ∧ Viable (before ++ [⟨.mark m, position⟩])
  | .fieldLabel => ∀ l : Lexeme, l.Spelled → l.label?.isSome →
    ∃ position, Viable (before ++ [⟨l, position⟩])
  | .endOfInput => Accepted before
  | .nestingWithin _ | .typeName | .importPath => True

/-- What a reader asks for behind some tokens: the record at the start, a label wherever any may
stand, a colon behind a label, else the end of the innermost literal, and behind the outermost the
end of the input. -/
inductive Asks (before : List Token) : Expectation → Prop
  | opening (hnothing : before = []) : Asks before (.mark Mark.openBrace.char)
  | label (hlabel : MayFollow before .fieldLabel) : Asks before .fieldLabel
  | colon (hcolon : MayFollow before (.mark Mark.colon.char)) : Asks before (.mark Mark.colon.char)
  | closing {shape : Shape} (hfield : ¬ MayFollow before .fieldLabel)
      (hclosing : MayFollow before (.mark shape.closing.char)) :
      Asks before (.mark shape.closing.char)
  | endOfInput (haccepted : MayFollow before .endOfInput) : Asks before .endOfInput

/-- A name may follow the tokens, but not every label. -/
def InApplication (before : List Token) : Prop :=
  ¬ MayFollow before .fieldLabel ∧
    ∃ name position, Viable (before ++ [⟨.identifier name, position⟩])

/-- What is reported where a lexeme breaks off a reading. A literal where a name may stand is too
deep. -/
inductive Reports (before : List Token) (l : Lexeme) : Expectation → Prop
  | tooDeep {inner : Shape} (happlication : InApplication before) (hopens : l = .mark inner.opening) :
      Reports before l (.nestingWithin maxNesting)
  | asked {e : Expectation} (hasks : Asks before e)
      (hfits : ¬ (InApplication before ∧ ∃ inner : Shape, l = .mark inner.opening)) :
      Reports before l e

section Expected

variable {text : List Char} {n : Nat} {s : State}
  (hsteps : State.start.steps ((read text).lexemes.take n) = .ok s)

include hsteps

theorem mayFollow_expected : MayFollow ((read text).tokens.take n) s.expected := by
  have hmark : ∀ m t, State.Move s (.mark m) t →
      MayFollow ((read text).tokens.take n) (.mark m.char) := by
    intro m t hmove
    obtain ⟨position, hviable⟩ := viable_take_concat hsteps (.mark m) hmove
    exact ⟨m, position, rfl, hviable⟩
  cases s with
  | start => exact hmark _ _ .start
  | complete record => exact accepted_take_complete hsteps
  | inside outer shape fields place =>
      have hlabel : place.AwaitsLabel →
          MayFollow ((read text).tokens.take n) .fieldLabel := by
        intro hplace l hl hsome
        obtain ⟨key, hkey⟩ := Option.isSome_iff_exists.mp hsome
        exact viable_take_concat hsteps hl (.label hplace hkey)
      cases place with
      | opened => exact hlabel trivial
      | separated => exact hlabel trivial
      | labelled key => exact hmark _ _ .colon
      | applying key atoms => exact hmark _ _ (.close rfl)
      | closed => exact hmark _ _ (.close rfl)

/-- What keeps the tokens viable is a move from the state they lead to. -/
theorem exists_move_of_viable {l : Lexeme} {position : Nat}
    (h : Viable ((read text).tokens.take n ++ [⟨l, position⟩])) : ∃ t, State.Move s l t := by
  obtain ⟨t, ht⟩ := h.steps
  rw [List.map_append, List.map_take, Reading.map_lexeme_tokens, List.map_singleton,
    State.steps_concat_eq_ok_iff] at ht
  obtain ⟨u, hu, hmove⟩ := ht
  cases hsteps.symm.trans hu
  exact ⟨t, hmove⟩

theorem exists_move_of_mayFollow {m : Mark}
    (h : MayFollow ((read text).tokens.take n) (.mark m.char)) : ∃ t, State.Move s (.mark m) t := by
  obtain ⟨m', position, hchar, hviable⟩ := h
  have hsame : some m' = some m := by
    rw [← Mark.ofChar?_char m', hchar, Mark.ofChar?_char]
  cases hsame
  exact exists_move_of_viable hsteps hviable

/-- Any label may follow exactly where one is awaited. -/
theorem mayFollow_fieldLabel_iff :
    MayFollow ((read text).tokens.take n) .fieldLabel ↔ s.expected = .fieldLabel := by
  constructor
  · intro h
    have hquotable : isQuotable 'a' = true := by decide
    have hspelled : (Lexeme.quotedLabel (String.ofList [quote, 'a', quote])).Spelled :=
      .quotedLabel ['a'] (by simp) (by simpa using hquotable)
    obtain ⟨position, hviable⟩ := h _ hspelled rfl
    obtain ⟨t, hmove⟩ := exists_move_of_viable hsteps hviable
    cases hmove with
    | label hplace hlabel => exact State.expected_of_awaitsLabel _ _ _ hplace
  · intro h
    have hfollow := mayFollow_expected hsteps
    rwa [h] at hfollow

theorem inApplication_iff : InApplication ((read text).tokens.take n) ↔ s.IsApplying := by
  rw [InApplication, mayFollow_fieldLabel_iff hsteps]
  constructor
  · intro h
    obtain ⟨hfield, name, position, hviable⟩ := h
    obtain ⟨t, hmove⟩ := exists_move_of_viable hsteps hviable
    cases hmove with
    | label hplace hlabel => exact absurd (State.expected_of_awaitsLabel _ _ _ hplace) hfield
    | name => trivial
  · intro h
    match s with
    | .inside outer shape fields (.applying key atoms) =>
        obtain ⟨position, hviable⟩ := viable_take_concat hsteps spelled_identifier_a .name
        exact ⟨by simp [State.expected], "a", position, hviable⟩

/-- A state asks for just what is settled by the tokens that lead to it. -/
theorem asks_iff {e : Expectation} :
    Asks ((read text).tokens.take n) e ↔ e = s.expected := by
  have hfollow := mayFollow_expected hsteps
  constructor
  · intro h
    cases h with
    | opening hnothing =>
        rw [← Reading.map_lexeme_tokens, ← List.map_take, hnothing] at hsteps
        cases hsteps
        rfl
    | label hlabel => exact ((mayFollow_fieldLabel_iff hsteps).mp hlabel).symm
    | colon hcolon =>
        obtain ⟨t, hmove⟩ := exists_move_of_mayFollow hsteps hcolon
        exact hmove.expected_of_colon.symm
    | closing hfield hclosing =>
        rw [mayFollow_fieldLabel_iff hsteps] at hfield
        obtain ⟨t, hmove⟩ := exists_move_of_mayFollow hsteps hclosing
        exact (hmove.expected_of_closing.resolve_left hfield).symm
    | endOfInput haccepted =>
        obtain ⟨record, hrecord⟩ := haccepted.steps
        rw [List.map_take, Reading.map_lexeme_tokens] at hrecord
        cases hsteps.symm.trans hrecord
        rfl
  · rintro rfl
    match s with
    | .start =>
        refine .opening ?_
        have hnothing := State.eq_nil_of_steps_eq_start hsteps
        rw [← Reading.map_lexeme_tokens, ← List.map_take] at hnothing
        exact List.map_eq_nil_iff.mp hnothing
    | .complete record => exact .endOfInput hfollow
    | .inside outer shape fields .opened => exact .label hfollow
    | .inside outer shape fields .separated => exact .label hfollow
    | .inside outer shape fields (.labelled key) => exact .colon hfollow
    | .inside outer shape fields (.applying key atoms) =>
        refine .closing ?_ hfollow
        rw [mayFollow_fieldLabel_iff hsteps]
        simp [State.expected]
    | .inside outer shape fields .closed =>
        refine .closing ?_ hfollow
        rw [mayFollow_fieldLabel_iff hsteps]
        simp [State.expected]

theorem reports_of_step_eq_error {l : Lexeme} {e : Expectation} (hstep : s.step l = .error e) :
    Reports ((read text).tokens.take n) l e := by
  rcases State.step_eq_error hstep with ⟨hopens, rfl⟩ | ⟨hfits, rfl⟩
  · obtain ⟨happlying, inner, hl⟩ := hopens
    exact .tooDeep ((inApplication_iff hsteps).mpr happlying) hl
  · rw [State.Opens, ← inApplication_iff hsteps] at hfits
    exact .asked ((asks_iff hsteps).mpr rfl) hfits

end Expected

theorem breaksAt_of_run_eq_error {text : List Char} {m : Mismatch}
    (hrun : State.start.run (read text).tokens = .error m) :
    ∃ before token, BreaksAt (read text).tokens before token ∧
      m.found = some token.lexeme.text ∧ m.position = token.position ∧
      MayFollow before m.expected ∧ Reports before token.lexeme m.expected := by
  obtain ⟨before, token, after, t, htokens, hsteps, hstep, hfound, hposition⟩ :=
    State.run_eq_error_iff.mp hrun
  have hbefore : (read text).tokens.take before.length = before := by
    rw [htokens, List.take_left]
  have hlexemes : (read text).lexemes.take before.length = before.map Token.lexeme := by
    rw [← Reading.map_lexeme_tokens, ← List.map_take, hbefore]
  rw [← hlexemes] at hsteps
  have hviable := viable_take hsteps
  have hexpected := mayFollow_expected hsteps
  have hreports := reports_of_step_eq_error hsteps hstep
  have hbroken : ¬ Viable ((read text).tokens.take before.length ++ [token]) := by
    intro hbroken
    obtain ⟨u, hmove⟩ := exists_move_of_viable hsteps hbroken
    rw [hmove.step] at hstep
    cases hstep
  rw [hbefore] at hviable hexpected hreports hbroken
  refine ⟨before, token, ⟨?_, fun shorter h => hviable.of_prefix h, hbroken⟩, hfound, hposition,
    ?_, hreports⟩
  · exact ⟨after, by rw [htokens, List.append_assoc, List.singleton_append]⟩
  · rcases State.step_eq_error hstep with ⟨-, h⟩ | ⟨-, h⟩
    · rw [h]
      trivial
    · rw [h]
      exact hexpected

theorem asks_of_run_eq_ok {text : List Char} {s : State}
    (hrun : State.start.run (read text).tokens = .ok s) :
    MayFollow (read text).tokens s.expected ∧ Asks (read text).tokens s.expected := by
  have hsteps := steps_take_of_run hrun
  have hfollow := mayFollow_expected hsteps
  have hasks := (asks_iff hsteps).mpr rfl
  rw [List.take_length] at hfollow hasks
  exact ⟨hfollow, hasks⟩

theorem parse_eq_lexical_iff {source : String} {fault : LexError} :
    parse source = .error (.lexical fault) ↔
      tokenize source = .error fault ∧ Viable (read source.toList).tokens := by
  rw [viable_tokens_iff]
  unfold parse tokenize
  cases hrun : State.start.run (read source.toList).tokens with
  | error m => simp [hrun]
  | ok s =>
      cases hfault : (read source.toList).fault? with
      | some fault => simp [hrun, hfault]
      | none => cases s <;> simp [hrun, hfault]

theorem parse_eq_mismatch_iff {source : String} {m : Mismatch} :
    parse source = .error (.mismatch m) ↔
      State.start.run (read source.toList).tokens = .error m ∨
        (∃ tokens, tokenize source = .ok tokens) ∧
          ∃ s, State.start.run (read source.toList).tokens = .ok s ∧
            (∀ record, s ≠ .complete record) ∧ m = ⟨s.expected, none, source.utf8ByteSize⟩ := by
  unfold parse tokenize
  cases hrun : State.start.run (read source.toList).tokens with
  | error m => simp [hrun]
  | ok s =>
      cases hfault : (read source.toList).fault? with
      | some fault => simp [hrun, hfault]
      | none => cases s <;> simp [hrun, hfault, eq_comm]

theorem State.found_of_run_eq_error {s : State} {tokens : List Token} {m : Mismatch}
    (h : s.run tokens = .error m) : ∃ text, m.found = some text := by
  obtain ⟨before, token, after, t, -, -, -, hfound, -⟩ := State.run_eq_error_iff.mp h
  exact ⟨token.lexeme.text, hfound⟩

theorem parse_eq_found_iff {source text : String} {expected : Expectation} {position : Nat} :
    parse source = .error (.mismatch ⟨expected, some text, position⟩) ↔
      State.start.run (read source.toList).tokens = .error ⟨expected, some text, position⟩ := by
  simp [parse_eq_mismatch_iff]

theorem parse_eq_end_iff {source : String} {expected : Expectation} {position : Nat} :
    parse source = .error (.mismatch ⟨expected, none, position⟩) ↔
      (∃ all, tokenize source = .ok all) ∧
        ∃ s, State.start.run (read source.toList).tokens = .ok s ∧
          (∀ record, s ≠ .complete record) ∧ expected = s.expected ∧
            position = source.utf8ByteSize := by
  have hrun : State.start.run (read source.toList).tokens ≠
      .error ⟨expected, none, position⟩ := by
    intro h
    obtain ⟨text, htext⟩ := State.found_of_run_eq_error h
    cases htext
  simp [parse_eq_mismatch_iff, hrun]

/-- A reading fails at the first place where its text can no longer be completed: at a lexical
fault if all tokens before it are viable, else at the last token of the shortest prefix that is
not viable, and at the end of the text if its tokens are viable but too few. What it asks for may
stand there and is settled by the tokens before, unless it refuses a literal for its depth. -/
theorem parse_fails_at_first_break (source : String) :
    let tokens := (read source.toList).tokens
    (∀ fault, parse source = .error (.lexical fault) ↔
      tokenize source = .error fault ∧ Viable tokens) ∧
    ((∃ expected text position,
        parse source = .error (.mismatch ⟨expected, some text, position⟩)) ↔
      ∃ i ≤ tokens.length, ¬ Viable (tokens.take i)) ∧
    (∀ expected text position,
      parse source = .error (.mismatch ⟨expected, some text, position⟩) →
        ∃ before token, BreaksAt tokens before token ∧ text = token.lexeme.text ∧
          position = token.position ∧ MayFollow before expected ∧
          Reports before token.lexeme expected) ∧
    ((∃ expected, parse source = .error (.mismatch ⟨expected, none, source.utf8ByteSize⟩)) ↔
      (∃ all, tokenize source = .ok all) ∧ Viable tokens ∧ ¬ Accepted tokens) ∧
    ∀ expected position, parse source = .error (.mismatch ⟨expected, none, position⟩) →
      position = source.utf8ByteSize ∧ MayFollow tokens expected ∧ Asks tokens expected := by
  intro tokens
  refine ⟨fun fault => parse_eq_lexical_iff, ?_, ?_, ?_, ?_⟩
  · rw [exists_not_viable_iff]
    constructor
    · intro h
      obtain ⟨expected, text, position, h⟩ := h
      exact ⟨_, parse_eq_found_iff.mp h⟩
    · intro h
      obtain ⟨⟨expected, found, position⟩, hrun⟩ := h
      obtain ⟨text, rfl⟩ := State.found_of_run_eq_error hrun
      exact ⟨expected, text, position, parse_eq_found_iff.mpr hrun⟩
  · intro expected text position h
    obtain ⟨before, token, hbreak, htext, hrest⟩ :=
      breaksAt_of_run_eq_error (parse_eq_found_iff.mp h)
    exact ⟨before, token, hbreak, Option.some.inj htext, hrest⟩
  · rw [viable_tokens_iff, accepted_tokens_iff]
    constructor
    · intro h
      obtain ⟨expected, h⟩ := h
      obtain ⟨hall, s, hrun, hopen, -, -⟩ := parse_eq_end_iff.mp h
      refine ⟨hall, ⟨s, hrun⟩, ?_⟩
      intro h
      obtain ⟨record, hrecord⟩ := h
      rw [hrun] at hrecord
      exact hopen record (Except.ok.inj hrecord)
    · intro h
      obtain ⟨hall, ⟨s, hrun⟩, hopen⟩ := h
      refine ⟨s.expected, parse_eq_end_iff.mpr ⟨hall, s, hrun, ?_, rfl, rfl⟩⟩
      rintro record rfl
      exact hopen ⟨record, hrun⟩
  · intro expected position h
    obtain ⟨-, s, hrun, -, rfl, hposition⟩ := parse_eq_end_iff.mp h
    exact ⟨hposition, asks_of_run_eq_ok hrun⟩

end ManifestTypes.TypeExpr
