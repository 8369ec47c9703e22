import ManifestTypes.Proofs.Text.Classes
import ManifestTypes.TypeExpr.Lexer

/-!
# How texts are taken apart

The lexemes of a text are determined by its parts. `lexeme?_eq_some_iff` gives the words of each
kind apart from the reader, and `read_append` says that two texts which do not run together at
their seam are read one after the other.
-/

namespace ManifestTypes.TypeExpr

/-! ## Words -/

/-- The text of a lexeme is a word of its kind. -/
inductive Lexeme.Spelled : Lexeme → Prop
  | identifier (first : Char) (rest : List Char) (hfirst : first.isAlpha = true)
      (hrest : ∀ c ∈ rest, isIdentifierRest c = true) :
      Spelled (.identifier (String.ofList (first :: rest)))
  | quotedLabel (body : List Char) (hbody : body ≠ [])
      (hquotable : ∀ c ∈ body, isQuotable c = true) :
      Spelled (.quotedLabel (String.ofList (quote :: body ++ [quote])))
  | mark (m : Mark) : Spelled (.mark m)

def carriesOn (text : List Char) : Bool :=
  text.head?.any isIdentifierRest

/-- A lexeme is complete in front of a text. Only identifiers can be carried on. -/
def Lexeme.StopsAt (l : Lexeme) (text : List Char) : Prop :=
  ∀ name, l = .identifier name → carriesOn text = false

theorem isIdentifierRest_of_isAlpha {c : Char} (h : c.isAlpha = true) :
    isIdentifierRest c = true := by
  simp [isIdentifierRest, Char.isAlphanum, h]

theorem toNat_of_isAlpha {c : Char} (h : c.isAlpha = true) :
    (65 ≤ c.toNat ∧ c.toNat ≤ 90) ∨ (97 ≤ c.toNat ∧ c.toNat ≤ 122) := by
  rcases Bool.or_eq_true_iff.mp h with hupper | hlower
  · obtain ⟨hleast, hmost⟩ := of_decide_eq_true hupper
    exact .inl ⟨UInt32.le_iff_toNat_le.mp hleast, UInt32.le_iff_toNat_le.mp hmost⟩
  · obtain ⟨hleast, hmost⟩ := Bool.and_eq_true_iff.mp hlower
    have hleast' := UInt32.le_iff_toNat_le.mp (of_decide_eq_true hleast)
    have hmost' := UInt32.le_iff_toNat_le.mp (of_decide_eq_true hmost)
    exact .inr ⟨hleast', hmost'⟩

theorem toNat_of_isDigit {c : Char} (h : c.isDigit = true) : 48 ≤ c.toNat ∧ c.toNat ≤ 57 := by
  obtain ⟨hleast, hmost⟩ := Bool.and_eq_true_iff.mp h
  exact ⟨UInt32.le_iff_toNat_le.mp (of_decide_eq_true hleast),
    UInt32.le_iff_toNat_le.mp (of_decide_eq_true hmost)⟩

/-- The characters of identifiers are all in ASCII, apart from white space and parentheses. -/
theorem not_isIgnored_of_isIdentifierRest {c : Char} (h : isIdentifierRest c = true) :
    isIgnored c = false := by
  have hrange : 45 ≤ c.toNat ∧ c.toNat ≤ 122 := by
    simp only [isIdentifierRest, Char.isAlphanum, Bool.or_eq_true, beq_iff_eq] at h
    obtain ((halpha | hdigit) | rfl) | rfl := h
    · have hletter := toNat_of_isAlpha halpha
      omega
    · have hnumber := toNat_of_isDigit hdigit
      omega
    · decide
    · decide
  have hblank : Text.isBlank c = false := by
    simp only [Text.isBlank, Text.blankRanges, Text.Ranges.contains, List.any_cons, List.any_nil,
      Bool.or_false, Bool.or_eq_false_iff, Bool.and_eq_false_iff, decide_eq_false_iff_not]
    omega
  have hopen : c ≠ '(' := by rintro rfl; exact absurd hrange (by decide)
  have hclose : c ≠ ')' := by rintro rfl; exact absurd hrange (by decide)
  simp [isIgnored, hblank, hopen, hclose]

theorem not_isIgnored_of_isAlpha {c : Char} (h : c.isAlpha = true) : isIgnored c = false :=
  not_isIgnored_of_isIdentifierRest (isIdentifierRest_of_isAlpha h)

theorem not_isAlpha_quote : quote.isAlpha = false := by
  decide

theorem not_isAlpha_mark (m : Mark) : m.char.isAlpha = false := by
  cases m <;> decide

theorem quotedRest?_eq_some_iff {text rest : List Char} {l : Lexeme} :
    quotedRest? text = some (l, rest) ↔
      ∃ body, body ≠ [] ∧ (∀ c ∈ body, isQuotable c = true) ∧
        l = .quotedLabel (String.ofList (quote :: body ++ [quote])) ∧
        text = body ++ quote :: rest := by
  constructor
  · intro h
    have hsplit := List.takeWhile_append_dropWhile (p := isQuotable) (l := text)
    unfold quotedRest? at h
    split at h
    · next b body c tail hbody htail =>
      split at h
      · next hc =>
        cases h
        refine ⟨b :: body, by simp, fun x hx => Text.mem_takeWhile (hbody ▸ hx), rfl, ?_⟩
        rw [← hsplit, hbody, htail, hc]
      · cases h
    · cases h
  · intro h
    obtain ⟨body, hbody, hquotable, rfl, rfl⟩ := h
    have hstop : (quote :: rest).head?.any isQuotable = false := rfl
    obtain ⟨htake, hdrop⟩ := Text.takeWhile_append_stop hquotable hstop
    obtain ⟨b, body, rfl⟩ := List.exists_cons_of_ne_nil hbody
    unfold quotedRest?
    rw [htake, hdrop]
    simp

/-- What the reader takes for a lexeme are the words, each as long as possible. -/
theorem lexeme?_eq_some_iff {text rest : List Char} {l : Lexeme} :
    lexeme? text = some (l, rest) ↔
      text = l.text.toList ++ rest ∧ l.Spelled ∧ l.StopsAt rest := by
  constructor
  · intro h
    refine ⟨(lexeme?_text h).symm, ?_⟩
    cases text with
    | nil => cases h
    | cons c tail =>
        simp only [lexeme?] at h
        split at h
        · next hc =>
          cases h
          exact ⟨.identifier c _ hc fun x hx => Text.mem_takeWhile hx,
            fun _ _ => Text.head?_dropWhile_any _ _⟩
        · split at h
          · obtain ⟨body, hbody, hquotable, rfl, -⟩ := quotedRest?_eq_some_iff.mp h
            exact ⟨.quotedLabel body hbody hquotable, fun _ heq => by cases heq⟩
          · obtain ⟨m, -, heq⟩ := Option.map_eq_some_iff.mp h
            cases heq
            exact ⟨.mark m, fun _ heq => by cases heq⟩
  · intro h
    obtain ⟨rfl, hspelled, hstop⟩ := h
    cases hspelled with
    | identifier first name hfirst hname =>
        obtain ⟨htake, hdrop⟩ := Text.takeWhile_append_stop hname (hstop _ rfl)
        simp [Lexeme.text, lexeme?, hfirst, htake, hdrop]
    | quotedLabel body hbody hquotable =>
        have hrest : quotedRest? (body ++ quote :: rest) = some (_, rest) :=
          quotedRest?_eq_some_iff.mpr ⟨body, hbody, hquotable, rfl, rfl⟩
        simp [Lexeme.text, lexeme?, not_isAlpha_quote, hrest]
    | mark m =>
        have hquote : m.char ≠ quote := by cases m <;> decide
        simp [Lexeme.text, lexeme?, not_isAlpha_mark, hquote]

instance (l : Lexeme) : Decidable l.Spelled :=
  decidable_of_iff (lexeme? l.text.toList = some (l, [])) <| by
    rw [lexeme?_eq_some_iff]
    exact ⟨fun h => h.2.1, fun h => ⟨(List.append_nil _).symm, h, fun _ _ => rfl⟩⟩

/-- The character that a lexeme starts with is none that is passed over. -/
theorem lexeme?_head_not_ignored {text rest : List Char} {l : Lexeme}
    (h : lexeme? text = some (l, rest)) : text.head?.any isIgnored = false := by
  obtain ⟨rfl, hspelled, -⟩ := lexeme?_eq_some_iff.mp h
  cases hspelled with
  | identifier first name hfirst hname =>
      simp [Lexeme.text, not_isIgnored_of_isAlpha hfirst]
  | quotedLabel body hbody hquotable =>
      have hquote : isIgnored quote = false := by decide
      simp [Lexeme.text, hquote]
  | mark m => cases m <;> rfl

/-! ## Readings of a text in parts -/

def Reading.cons (s : Spaced) (r : Reading) : Reading :=
  { r with items := s :: r.items }

theorem read_of_lexeme {gap text rest : List Char} {l : Lexeme}
    (hgap : ∀ c ∈ gap, isIgnored c = true) (h : lexeme? text = some (l, rest)) :
    read (gap ++ text) = (read rest).cons ⟨gap, l⟩ := by
  obtain ⟨htake, hdrop⟩ := Text.takeWhile_append_stop hgap (lexeme?_head_not_ignored h)
  rw [read]
  split
  · next hnone => rw [hdrop, h] at hnone; cases hnone
  · next l' rest' hsome =>
    rw [hdrop, h] at hsome
    cases hsome
    rw [htake]
    rfl

theorem read_of_no_lexeme {gap text : List Char} (hgap : ∀ c ∈ gap, isIgnored c = true)
    (hhead : text.head?.any isIgnored = false) (h : lexeme? text = none) :
    read (gap ++ text) = ⟨[], gap, text⟩ := by
  obtain ⟨htake, hdrop⟩ := Text.takeWhile_append_stop hgap hhead
  rw [read]
  split
  · rw [htake, hdrop]
  · next l' rest' hsome => rw [hdrop, h] at hsome; cases hsome

theorem read_ignored {gap : List Char} (hgap : ∀ c ∈ gap, isIgnored c = true) :
    read gap = ⟨[], gap, []⟩ := by
  have hnone : lexeme? [] = none := rfl
  have h := read_of_no_lexeme hgap rfl hnone
  rwa [List.append_nil] at h

theorem read_nil : read [] = ⟨[], [], []⟩ :=
  read_ignored fun _ hc => absurd hc List.not_mem_nil

/-- A text is ignored characters and then either what is no lexeme or a lexeme and a text. -/
theorem readCases {motive : List Char → Prop}
    (unread : ∀ gap text, (∀ c ∈ gap, isIgnored c = true) → text.head?.any isIgnored = false →
      lexeme? text = none → motive (gap ++ text))
    (lexeme : ∀ gap text l rest, (∀ c ∈ gap, isIgnored c = true) →
      lexeme? text = some (l, rest) → motive rest → motive (gap ++ text))
    (text : List Char) : motive text := by
  induction text using read.induct with
  | case1 text rest h =>
      rw [← List.takeWhile_append_dropWhile (p := isIgnored) (l := text)]
      exact unread _ _ (fun c hc => Text.mem_takeWhile hc) (Text.head?_dropWhile_any _ _) h
  | case2 text rest l rest' h ih =>
      rw [← List.takeWhile_append_dropWhile (p := isIgnored) (l := text)]
      exact lexeme _ _ l rest' (fun c hc => Text.mem_takeWhile hc) h ih

/-- Every lexeme that is read is a word of its kind. -/
theorem spelled_of_mem_read (text : List Char) :
    ∀ s ∈ (read text).items, s.lexeme.Spelled := by
  induction text using readCases with
  | unread gap text hgap hhead h => simp [read_of_no_lexeme hgap hhead h]
  | lexeme gap text l rest hgap h ih =>
      rw [read_of_lexeme hgap h]
      intro s hs
      rcases List.mem_cons.mp hs with rfl | hs
      · exact (lexeme?_eq_some_iff.mp h).2.1
      · exact ih s hs

def Reading.lexemes (r : Reading) : List Lexeme :=
  r.items.map Spaced.lexeme

theorem map_lexeme_place (start : Nat) (items : List Spaced) :
    (place start items).map Token.lexeme = items.map Spaced.lexeme := by
  induction items generalizing start with
  | nil => rfl
  | cons s rest ih => simp [place, ih]

theorem Reading.map_lexeme_tokens (r : Reading) : r.tokens.map Token.lexeme = r.lexemes :=
  map_lexeme_place 0 r.items

theorem place_append (start : Nat) (first second : List Spaced) :
    place start (first ++ second) =
      place start first ++ place (start + Text.byteLength (first.flatMap Spaced.text)) second := by
  induction first generalizing start with
  | nil => simp [place]
  | cons s rest ih => simp [place, ih, Nat.add_assoc]

theorem place_take (start n : Nat) (items : List Spaced) :
    place start (items.take n) = (place start items).take n := by
  induction items generalizing start n with
  | nil => simp [place]
  | cons item rest ih =>
      cases n with
      | zero => rfl
      | succ n => simp [place, ih]

/-! ## Seams -/

def endsInName (text : List Char) : Bool :=
  text.getLast?.any isIdentifierRest

theorem endsInName_append {first second : List Char} (h : second ≠ []) :
    endsInName (first ++ second) = endsInName second := by
  obtain ⟨init, c, rfl⟩ := List.eq_nil_or_concat second |>.resolve_left h
  simp [endsInName]

theorem ne_nil_of_endsInName {text : List Char} (h : endsInName text = true) : text ≠ [] := by
  rintro rfl
  cases h

def Reading.append (r s : Reading) : Reading :=
  match s.items with
  | [] => ⟨r.items, r.trailing ++ s.trailing, s.unread⟩
  | ⟨gap, l⟩ :: rest => ⟨r.items ++ ⟨r.trailing ++ gap, l⟩ :: rest, s.trailing, s.unread⟩

theorem Reading.lexemes_append (r s : Reading) :
    (r.append s).lexemes = r.lexemes ++ s.lexemes := by
  rcases s with ⟨_ | ⟨⟨gap, l⟩, rest⟩, trailing, unread⟩ <;>
    simp [Reading.append, Reading.lexemes]

theorem Reading.unread_append (r s : Reading) : (r.append s).unread = s.unread := by
  rcases s with ⟨_ | ⟨⟨gap, l⟩, rest⟩, trailing, unread⟩ <;> rfl

theorem Reading.append_cons (item : Spaced) (r s : Reading) :
    (r.cons item).append s = (r.append s).cons item := by
  rcases s with ⟨_ | ⟨⟨gap, l⟩, rest⟩, trailing, unread⟩ <;> rfl

theorem Reading.tokens_prefix_append (r s : Reading) : r.tokens <+: (r.append s).tokens := by
  rcases s with ⟨_ | ⟨⟨gap, l⟩, rest⟩, trailing, unread⟩
  · exact List.prefix_rfl
  · simp [Reading.append, Reading.tokens, place_append]

theorem read_ignored_append {gap : List Char} (hgap : ∀ c ∈ gap, isIgnored c = true)
    (text : List Char) : read (gap ++ text) = (Reading.mk [] gap []).append (read text) := by
  induction text using readCases with
  | unread inner text hinner hhead h =>
      have hboth : ∀ c ∈ gap ++ inner, isIgnored c = true := by
        simpa [or_imp, forall_and] using ⟨hgap, hinner⟩
      rw [← List.append_assoc, read_of_no_lexeme hboth hhead h, read_of_no_lexeme hinner hhead h]
      rfl
  | lexeme inner text l rest hinner h ih =>
      have hboth : ∀ c ∈ gap ++ inner, isIgnored c = true := by
        simpa [or_imp, forall_and] using ⟨hgap, hinner⟩
      rw [← List.append_assoc, read_of_lexeme hboth h, read_of_lexeme hinner h]
      rfl

/-- An identifier ends in a character that identifiers may have. -/
theorem Lexeme.Spelled.endsInName {name : String} (h : (Lexeme.identifier name).Spelled) :
    endsInName name.toList = true := by
  cases h with
  | identifier first rest hfirst hrest =>
      have hall : ∀ c ∈ first :: rest, isIdentifierRest c = true := by
        simpa using ⟨isIdentifierRest_of_isAlpha hfirst, hrest⟩
      have hlast := hall _ (List.getLast_mem (List.cons_ne_nil first rest))
      simpa [TypeExpr.endsInName, List.getLast?_eq_some_getLast] using hlast

/-- Two texts are read one after the other if the first is read completely and no identifier
runs on over their seam. -/
theorem read_append {first second : List Char} (hread : (read first).unread = [])
    (hseam : endsInName first = true → carriesOn second = false) :
    read (first ++ second) = (read first).append (read second) := by
  induction first using readCases with
  | unread gap text hgap hhead h =>
      rw [read_of_no_lexeme hgap hhead h] at hread ⊢
      cases hread
      rw [List.append_nil, read_ignored_append hgap]
  | lexeme gap text l rest hgap h ih =>
      rw [read_of_lexeme hgap h] at hread ⊢
      obtain ⟨rfl, hspelled, hstop⟩ := lexeme?_eq_some_iff.mp h
      have hrest : endsInName rest = true → carriesOn second = false := by
        intro hname
        have hne := ne_nil_of_endsInName hname
        rw [endsInName_append (by simp [hne]), endsInName_append hne] at hseam
        exact hseam hname
      have hnext : lexeme? (l.text.toList ++ rest ++ second) = some (l, rest ++ second) := by
        refine lexeme?_eq_some_iff.mpr ⟨List.append_assoc .., hspelled, ?_⟩
        rintro name rfl
        cases rest with
        | nil =>
            have hname := hspelled.endsInName
            refine hseam ?_
            rw [List.append_nil]
            exact (endsInName_append (ne_nil_of_endsInName hname)).trans hname
        | cons c rest => exact hstop name rfl
      rw [List.append_assoc, read_of_lexeme hgap hnext, ih hread hrest, Reading.append_cons]

theorem carriesOn_of_prefix {first text : List Char} (hpre : first <+: text)
    (h : carriesOn text = false) : carriesOn first = false := by
  obtain ⟨rest, rfl⟩ := hpre
  cases first with
  | nil => rfl
  | cons c first => exact h

theorem flatMap_take_prefix (text : List Char) (n : Nat) :
    ((read text).items.take n).flatMap Spaced.text <+: text := by
  have htext := Reading.text_read text
  rw [Reading.consumed, ← List.take_append_drop n (read text).items, List.flatMap_append,
    List.append_assoc, List.append_assoc] at htext
  exact ⟨_, htext⟩

/-- The text up to one of its lexemes is read as the lexemes up to there. -/
theorem read_take (text : List Char) (n : Nat) :
    read (((read text).items.take n).flatMap Spaced.text) = ⟨(read text).items.take n, [], []⟩ := by
  induction text using readCases generalizing n with
  | unread gap text hgap hhead h =>
      rw [read_of_no_lexeme hgap hhead h]
      simpa using read_nil
  | lexeme gap text l rest hgap h ih =>
      rw [read_of_lexeme hgap h]
      cases n with
      | zero => exact read_nil
      | succ n =>
          obtain ⟨-, hspelled, hstop⟩ := lexeme?_eq_some_iff.mp h
          have hpre := flatMap_take_prefix rest n
          have hword : lexeme? (l.text.toList ++ ((read rest).items.take n).flatMap Spaced.text) =
              some (l, ((read rest).items.take n).flatMap Spaced.text) :=
            lexeme?_eq_some_iff.mpr
              ⟨rfl, hspelled, fun name heq => carriesOn_of_prefix hpre (hstop name heq)⟩
          have hread := read_of_lexeme hgap hword
          rw [ih n] at hread
          simpa [Reading.cons, Spaced.text] using hread

/-! ## Texts that are read completely -/

/-- A text is read completely, as some lexemes. -/
def Spells (text : List Char) (lexemes : List Lexeme) : Prop :=
  (read text).unread = [] ∧ (read text).lexemes = lexemes

theorem Spells.append {first second : List Char} {ls ms : List Lexeme} (hfirst : Spells first ls)
    (hsecond : Spells second ms) (hseam : endsInName first = true → carriesOn second = false) :
    Spells (first ++ second) (ls ++ ms) := by
  unfold Spells
  rw [read_append hfirst.1 hseam, Reading.unread_append, Reading.lexemes_append, hfirst.2,
    hsecond.2]
  exact ⟨hsecond.1, rfl⟩

theorem spells_ignored {gap : List Char} (hgap : gap.all isIgnored = true) : Spells gap [] := by
  have hread := read_ignored (List.all_eq_true.mp hgap)
  simp [Spells, hread, Reading.lexemes]

theorem Lexeme.Spelled.read_text {l : Lexeme} (h : l.Spelled) :
    read l.text.toList = ⟨[⟨[], l⟩], [], []⟩ := by
  have hword : lexeme? l.text.toList = some (l, []) :=
    lexeme?_eq_some_iff.mpr ⟨(List.append_nil _).symm, h, fun _ _ => rfl⟩
  have hread : read l.text.toList = (read []).cons ⟨[], l⟩ :=
    read_of_lexeme (fun _ hc => absurd hc List.not_mem_nil) hword
  rw [hread, read_nil]
  rfl

theorem Lexeme.Spelled.spells {l : Lexeme} (h : l.Spelled) : Spells l.text.toList [l] := by
  rw [Spells, h.read_text]
  exact ⟨rfl, rfl⟩

theorem Spells.spelled {text : List Char} {ls : List Lexeme} (h : Spells text ls) :
    ∀ l ∈ ls, l.Spelled := by
  rw [← h.2]
  simpa [Reading.lexemes] using spelled_of_mem_read text

/-! ## Tokens -/

theorem Reading.fault?_eq_none_iff (r : Reading) : r.fault? = none ↔ r.unread = [] := by
  unfold fault?
  split <;> simp_all

theorem tokenize_eq_ok_iff {source : String} {tokens : List Token} :
    tokenize source = .ok tokens ↔
      (read source.toList).unread = [] ∧ (read source.toList).tokens = tokens := by
  rw [← Reading.fault?_eq_none_iff]
  unfold tokenize
  cases h : (read source.toList).fault? with
  | none => simp [h]
  | some fault => simp [h]

theorem tokenize_lexemes_iff {source : String} {ls : List Lexeme} :
    (∃ tokens, tokenize source = .ok tokens ∧ tokens.map Token.lexeme = ls) ↔
      Spells source.toList ls := by
  constructor
  · intro h
    obtain ⟨tokens, htokens, rfl⟩ := h
    obtain ⟨hunread, rfl⟩ := tokenize_eq_ok_iff.mp htokens
    exact ⟨hunread, (Reading.map_lexeme_tokens _).symm⟩
  · intro h
    obtain ⟨hunread, rfl⟩ := h
    exact ⟨_, tokenize_eq_ok_iff.mpr ⟨hunread, rfl⟩, Reading.map_lexeme_tokens _⟩

/-- The words are the texts that are read as one lexeme and nothing else. -/
theorem tokenize_text_iff {l : Lexeme} : tokenize l.text = .ok [⟨l, 0⟩] ↔ l.Spelled := by
  constructor
  · intro h
    have hspells : Spells l.text.toList [l] := tokenize_lexemes_iff.mp ⟨_, h, rfl⟩
    exact hspells.spelled l List.mem_cons_self
  · intro h
    rw [tokenize_eq_ok_iff, h.read_text]
    exact ⟨rfl, rfl⟩

/-- Reading stops behind a text if no lexeme starts there and none runs on. -/
theorem tokenize_stops {first rest : String} {c : Char} (hread : (read first.toList).unread = [])
    (hseam : endsInName first.toList = true → carriesOn (c :: rest.toList) = false)
    (hignored : isIgnored c = false) (hquote : c ≠ quote)
    (hnone : lexeme? (c :: rest.toList) = none) :
    tokenize (first ++ c.toString ++ rest) = .error ⟨first.utf8ByteSize, c.toString⟩ := by
  have hchars : (first ++ c.toString ++ rest).toList = first.toList ++ c :: rest.toList := by
    simp
  have hgap : ∀ d ∈ ([] : List Char), isIgnored d = true := fun _ h => absurd h List.not_mem_nil
  have hstopped : read (c :: rest.toList) = ⟨[], [], c :: rest.toList⟩ :=
    read_of_no_lexeme hgap hignored hnone
  have hunread : (read (first.toList ++ c :: rest.toList)).unread = c :: rest.toList := by
    rw [read_append hread hseam, Reading.unread_append, hstopped]
  have hconsumed : (read (first.toList ++ c :: rest.toList)).consumed = first.toList := by
    have htext := Reading.text_read (first.toList ++ c :: rest.toList)
    rwa [hunread, List.append_left_inj] at htext
  have hunexpected : unexpectedText (c :: rest.toList) = [c] := if_neg hquote
  rw [tokenize, hchars, Reading.fault?, hunread, hconsumed, if_neg (by simp), hunexpected,
    Text.byteLength_toList]
  rfl

end ManifestTypes.TypeExpr
