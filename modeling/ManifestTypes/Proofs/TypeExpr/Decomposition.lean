import ManifestTypes.Proofs.TypeExpr.Lexing

/-!
# The one way to take a text apart

A text that is made of lexemes and gaps is so in one way, and the reader finds it. `read_eq_iff`
says what the reader finds, also in texts that are not made so, and `tokenize_decomposes` says it
of the tokens and of the fault.
-/

namespace ManifestTypes.TypeExpr

def Lexeme.IsIdentifier (l : Lexeme) : Prop :=
  ∃ name, l = .identifier name

/-! ## Readings -/

/-- A text taken apart up to where no lexeme starts, with each lexeme as long as possible. -/
structure Divided (text : List Char) (items : List Spaced) (trailing unread : List Char) :
    Prop where
  whole : text = items.flatMap Spaced.text ++ (trailing ++ unread)
  gaps : ∀ s ∈ items, ∀ c ∈ s.gap, isIgnored c = true
  blank : ∀ c ∈ trailing, isIgnored c = true
  spelled : ∀ s ∈ items, s.lexeme.Spelled
  stops : ∀ before s after, items = before ++ s :: after →
    s.lexeme.StopsAt (after.flatMap Spaced.text ++ (trailing ++ unread))
  notIgnored : unread.head?.any isIgnored = false
  noLexeme : ∀ (l : Lexeme) rest, l.Spelled → unread ≠ l.text.toList ++ rest

/-- No lexeme is read exactly where no word stands. Where an identifier is carried on, a longer one
stands in its place. -/
theorem lexeme?_eq_none_iff {text : List Char} :
    lexeme? text = none ↔ ∀ (l : Lexeme) rest, l.Spelled → text ≠ l.text.toList ++ rest := by
  constructor
  · rintro h l rest hspelled rfl
    by_cases hidentifier : l.IsIdentifier
    · obtain ⟨name, rfl⟩ := hidentifier
      cases hspelled with
      | identifier first name hfirst hname => simp [Lexeme.text, lexeme?, hfirst] at h
    · have hstops : l.StopsAt rest := fun name heq => absurd ⟨name, heq⟩ hidentifier
      have hword := lexeme?_eq_some_iff.mpr ⟨rfl, hspelled, hstops⟩
      rw [h] at hword
      cases hword
  · intro h
    cases hread : lexeme? text with
    | none => rfl
    | some found =>
        obtain ⟨htext, hspelled, -⟩ := lexeme?_eq_some_iff.mp hread
        exact absurd htext (h found.1 found.2 hspelled)

theorem Lexeme.Spelled.text_ne_nil {l : Lexeme} (h : l.Spelled) : l.text.toList ≠ [] := by
  cases h <;> simp [Lexeme.text]

theorem divided_read (text : List Char) :
    Divided text (read text).items (read text).trailing (read text).unread := by
  induction text using readCases with
  | unread gap text hgap hhead h =>
      rw [read_of_no_lexeme hgap hhead h]
      exact ⟨rfl, by simp, hgap, by simp, by simp, hhead, lexeme?_eq_none_iff.mp h⟩
  | lexeme gap text l rest hgap h ih =>
      rw [read_of_lexeme hgap h]
      obtain ⟨rfl, hspelled, hstop⟩ := lexeme?_eq_some_iff.mp h
      refine ⟨?text, List.forall_mem_cons.mpr ⟨hgap, ih.gaps⟩, ih.blank,
        List.forall_mem_cons.mpr ⟨hspelled, ih.spelled⟩, ?stops, ih.notIgnored, ih.noLexeme⟩
      case text =>
        have htext := ih.whole
        simp only [Reading.cons, List.flatMap_cons, Spaced.text, List.append_assoc] at htext ⊢
        rw [← htext]
      case stops =>
        intro before s after hitems
        cases before with
        | nil =>
            obtain ⟨rfl, rfl⟩ := List.cons.inj hitems
            exact ih.whole ▸ hstop
        | cons first before => exact ih.stops before s after (List.cons.inj hitems).2

theorem Divided.read_eq {text : List Char} {items : List Spaced} {trailing unread : List Char}
    (h : Divided text items trailing unread) : read text = ⟨items, trailing, unread⟩ := by
  induction items generalizing text with
  | nil =>
      rw [h.whole]
      exact read_of_no_lexeme h.blank h.notIgnored (lexeme?_eq_none_iff.mpr h.noLexeme)
  | cons s rest ih =>
      obtain ⟨hgap, hgaps⟩ := List.forall_mem_cons.mp h.gaps
      obtain ⟨hword, hspelled⟩ := List.forall_mem_cons.mp h.spelled
      have hrest : Divided (rest.flatMap Spaced.text ++ (trailing ++ unread)) rest trailing
          unread :=
        ⟨rfl, hgaps, h.blank, hspelled, fun before t after hitems =>
          h.stops (s :: before) t after (congrArg (s :: ·) hitems), h.notIgnored, h.noLexeme⟩
      have hlexeme := lexeme?_eq_some_iff.mpr ⟨rfl, hword, h.stops [] s rest rfl⟩
      have hread := read_of_lexeme hgap hlexeme
      rw [ih hrest] at hread
      rw [h.whole, List.flatMap_cons, Spaced.text, List.append_assoc, List.append_assoc, hread]
      rfl

/-- The reader finds the one way to take a text apart. -/
theorem read_eq_iff {text : List Char} {items : List Spaced} {trailing unread : List Char} :
    read text = ⟨items, trailing, unread⟩ ↔ Divided text items trailing unread := by
  constructor
  · intro h
    have hdivided := divided_read text
    rwa [h] at hdivided
  · exact Divided.read_eq

/-! ## Texts that are made of lexemes and gaps -/

/-- An identifier and another one directly behind it. -/
def Spaced.RunsInto (s t : Spaced) : Prop :=
  s.lexeme.IsIdentifier ∧ t.gap = [] ∧ t.lexeme.IsIdentifier

/-- A text is made of items, each a gap and a word, and a gap at the end. No two identifiers run
together. -/
structure Decomposes (text : List Char) (items : List Spaced) (trailing : List Char) : Prop where
  whole : text = items.flatMap Spaced.text ++ trailing
  gaps : ∀ s ∈ items, ∀ c ∈ s.gap, isIgnored c = true
  blank : ∀ c ∈ trailing, isIgnored c = true
  spelled : ∀ s ∈ items, s.lexeme.Spelled
  apart : ∀ before s t after, items = before ++ s :: t :: after → ¬ s.RunsInto t

theorem carriesOn_gap_append {gap : List Char} (hgap : ∀ c ∈ gap, isIgnored c = true)
    (text : List Char) : carriesOn (gap ++ text) = true ↔ gap = [] ∧ carriesOn text = true := by
  cases gap with
  | nil => simp
  | cons c gap =>
      have hc : isIdentifierRest c = false := by
        have hignored := hgap c List.mem_cons_self
        cases hrest : isIdentifierRest c with
        | false => rfl
        | true => rw [not_isIgnored_of_isIdentifierRest hrest] at hignored; cases hignored
      simp [carriesOn, hc]

theorem carriesOn_spelled {l : Lexeme} (h : l.Spelled) (text : List Char) :
    carriesOn (l.text.toList ++ text) = true ↔ l.IsIdentifier := by
  cases h with
  | identifier first rest hfirst hrest =>
      simp [Lexeme.text, carriesOn, isIdentifierRest_of_isAlpha hfirst, Lexeme.IsIdentifier]
  | quotedLabel body hbody hquotable =>
      have hquote : isIdentifierRest quote = false := by decide
      simp [Lexeme.text, carriesOn, hquote, Lexeme.IsIdentifier]
  | mark m =>
      have hmark : isIdentifierRest m.char = false := by cases m <;> decide
      simp [Lexeme.text, carriesOn, hmark, Lexeme.IsIdentifier]

/-- Items carry an identifier on only if the first is an identifier without a gap before it. -/
theorem carriesOn_items {items : List Spaced} {trailing : List Char}
    (hgaps : ∀ s ∈ items, ∀ c ∈ s.gap, isIgnored c = true)
    (htrailing : ∀ c ∈ trailing, isIgnored c = true)
    (hspelled : ∀ s ∈ items, s.lexeme.Spelled) :
    carriesOn (items.flatMap Spaced.text ++ trailing) = true ↔
      ∃ t rest, items = t :: rest ∧ t.gap = [] ∧ t.lexeme.IsIdentifier := by
  cases items with
  | nil =>
      have hnone := carriesOn_gap_append htrailing []
      simpa [carriesOn] using hnone
  | cons t rest =>
      rw [List.flatMap_cons, Spaced.text, List.append_assoc, List.append_assoc,
        carriesOn_gap_append (hgaps t List.mem_cons_self),
        carriesOn_spelled (hspelled t List.mem_cons_self)]
      simp

/-- The items before where the reader stops are a text made of lexemes and gaps. -/
theorem Divided.decomposes {text : List Char} {items : List Spaced} {trailing unread : List Char}
    (h : Divided text items trailing unread) :
    Decomposes (items.flatMap Spaced.text ++ trailing) items trailing := by
  refine ⟨rfl, h.gaps, h.blank, h.spelled, ?_⟩
  rintro before s t after rfl ⟨⟨name, hname⟩, hgap, hidentifier⟩
  have hspelled : t.lexeme.Spelled := h.spelled t (by simp)
  have hstop := h.stops before s (t :: after) rfl name hname
  rw [List.flatMap_cons, Spaced.text, hgap, List.nil_append, List.append_assoc] at hstop
  rw [(carriesOn_spelled hspelled _).mpr hidentifier] at hstop
  cases hstop

theorem Decomposes.divided {text : List Char} {items : List Spaced} {trailing : List Char}
    (h : Decomposes text items trailing) : Divided text items trailing [] := by
  refine ⟨by rw [List.append_nil]; exact h.whole, h.gaps, h.blank, h.spelled, ?stops, rfl, ?none⟩
  case stops =>
    rintro before s after rfl name hname
    rw [List.append_nil, Bool.eq_false_iff, ne_eq, carriesOn_items
      (fun t ht => h.gaps t (by simp [ht])) h.blank fun t ht => h.spelled t (by simp [ht])]
    rintro ⟨t, rest, rfl, hgap, hidentifier⟩
    exact h.apart before s t rest rfl ⟨⟨name, hname⟩, hgap, hidentifier⟩
  case none =>
    intro l rest hspelled htext
    exact hspelled.text_ne_nil (List.append_eq_nil_iff.mp htext.symm).1

theorem read_eq_iff_decomposes {text : List Char} {items : List Spaced} {trailing : List Char} :
    read text = ⟨items, trailing, []⟩ ↔ Decomposes text items trailing := by
  rw [read_eq_iff]
  constructor
  · intro h
    have hdecomposes := h.decomposes
    have hwhole := h.whole
    rw [List.append_nil] at hwhole
    rwa [← hwhole] at hdecomposes
  · exact Decomposes.divided

/-! ## Tokens and faults -/

/-- The tokens are the lexemes of the items, each at the number of bytes before its text. -/
def TokensOf (tokens : List Token) (items : List Spaced) : Prop :=
  ∀ i, tokens[i]? = items[i]?.map fun s =>
    Token.mk s.lexeme <| Text.byteLength ((items.take i).flatMap Spaced.text ++ s.gap)

theorem getElem?_place (start i : Nat) (items : List Spaced) :
    (place start items)[i]? = items[i]?.map fun s =>
      Token.mk s.lexeme <|
        start + Text.byteLength ((items.take i).flatMap Spaced.text ++ s.gap) := by
  induction items generalizing start i with
  | nil => simp [place]
  | cons s rest ih =>
      cases i with
      | zero => simp [place]
      | succ i => simp [place, ih, Nat.add_assoc]

theorem tokensOf_iff {tokens : List Token} {items : List Spaced} :
    TokensOf tokens items ↔ place 0 items = tokens := by
  rw [List.ext_getElem?_iff]
  simp only [TokensOf, getElem?_place, Nat.zero_add, eq_comm]

inductive FirstLine : List Char → List Char → Prop
  | all (line : List Char) (hline : '\n' ∉ line) : FirstLine line line
  | lineFeed (line rest : List Char) (hline : '\n' ∉ line) (hlast : line.getLast? ≠ some '\r') :
      FirstLine (line ++ '\n' :: rest) line
  | carriageReturn (line rest : List Char) (hline : '\n' ∉ line) :
      FirstLine (line ++ '\r' :: '\n' :: rest) line

/-- What a fault shows of the text that cannot be read. -/
inductive Shown : List Char → List Char → Prop
  | line {rest text : List Char} (h : FirstLine (quote :: rest) text) : Shown (quote :: rest) text
  | character {c : Char} (rest : List Char) (h : c ≠ quote) : Shown (c :: rest) [c]

theorem firstLine_spec (text : List Char) : FirstLine text (firstLine text) := by
  have hsplit := List.takeWhile_append_dropWhile (p := (· != '\n')) (l := text)
  have hline : '\n' ∉ text.takeWhile (· != '\n') := by
    intro hmem
    simpa using Text.mem_takeWhile hmem
  unfold firstLine
  generalize text.takeWhile (· != '\n') = line at hsplit hline
  cases htail : text.dropWhile (· != '\n') with
  | nil =>
      rw [htail, List.append_nil] at hsplit
      subst hsplit
      simpa using FirstLine.all line hline
  | cons c rest =>
      have hhead := Text.head?_dropWhile_any (· != '\n') text
      have hc : c = '\n' := by simpa [htail] using hhead
      rw [htail, hc] at hsplit
      subst hsplit
      have hlength : line.length < (line ++ '\n' :: rest).length := by simp
      by_cases hlast : line.getLast? = some '\r'
      · rw [if_pos ⟨hlength, hlast⟩]
        obtain ⟨init, rfl⟩ := List.getLast?_eq_some_iff.mp hlast
        rw [List.dropLast_concat, List.append_assoc]
        exact .carriageReturn init rest fun h => hline (by simp [h])
      · rw [if_neg fun h => hlast h.2]
        exact .lineFeed line rest hline hlast

theorem shown_unexpectedText {text : List Char} (h : text ≠ []) :
    Shown text (unexpectedText text) := by
  obtain ⟨c, rest, rfl⟩ := List.exists_cons_of_ne_nil h
  rw [unexpectedText]
  split
  · next hc =>
      subst hc
      exact .line (firstLine_spec _)
  · next hc => exact .character rest hc

/-- A text has tokens exactly if it is made of lexemes and gaps without identifiers that run
together. It is so in one way, and the tokens are the lexemes, each with the offset of its text. Of
any other text the tokens up to a place are found, and the fault stands behind the gap that follows
them, where neither a lexeme nor a gap goes on. It shows the character there, or the rest of the line
from a back-quote on. -/
theorem tokenize_decomposes (source : String) :
    (∀ tokens, tokenize source = .ok tokens ↔
      ∃ items trailing, Decomposes source.toList items trailing ∧ TokensOf tokens items) ∧
    (∀ items items' trailing trailing', Decomposes source.toList items trailing →
      Decomposes source.toList items' trailing' → items = items' ∧ trailing = trailing') ∧
    ((∀ items trailing, ¬ Decomposes source.toList items trailing) →
      ∃ items trailing unread shown,
        Divided source.toList items trailing unread ∧
        Decomposes (items.flatMap Spaced.text ++ trailing) items trailing ∧
        TokensOf (read source.toList).tokens items ∧
        Shown unread shown ∧
        tokenize source = .error
          ⟨Text.byteLength (items.flatMap Spaced.text ++ trailing), String.ofList shown⟩) := by
  refine ⟨fun tokens => ?tokens, ?unique, ?fault⟩
  case tokens =>
    simp only [tokenize_eq_ok_iff, ← read_eq_iff_decomposes, tokensOf_iff]
    constructor
    · rintro ⟨hunread, htokens⟩
      exact ⟨(read source.toList).items, (read source.toList).trailing, by rw [← hunread], htokens⟩
    · rintro ⟨items, trailing, hread, htokens⟩
      rw [hread]
      exact ⟨rfl, htokens⟩
  case unique =>
    intro items items' trailing trailing' h h'
    have hread := read_eq_iff_decomposes.mpr h
    have hread' := read_eq_iff_decomposes.mpr h'
    simpa using hread.symm.trans hread'
  case fault =>
    intro hnone
    have hdivided := divided_read source.toList
    have hunread : (read source.toList).unread ≠ [] := by
      intro h
      exact hnone _ _ (read_eq_iff_decomposes.mp (by rw [← h]))
    refine ⟨_, _, _, _, hdivided, hdivided.decomposes, tokensOf_iff.mpr rfl,
      shown_unexpectedText hunread, ?_⟩
    rw [tokenize, Reading.fault?, if_neg hunread]
    rfl

end ManifestTypes.TypeExpr
