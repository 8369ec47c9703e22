import ManifestTypes.Catalog.Word
import ManifestTypes.Proofs.Text.Classes

/-!
# The words of a text

Every text is made of words and white space in one way in which each word is as long as possible.
`Divided` says so apart from the reader, `exists_divided` says that there is such a way for each
text, and `Divided.words_eq` that the reader finds it.
-/

namespace ManifestTypes.Catalog

/-! ## Single words -/

/-- A word, or any other character that is no white space. -/
inductive Word.Spelled : Word → Prop
  | word (first : Char) (rest : List Char) (hfirst : isWordStart first = true)
      (hrest : ∀ c ∈ rest, isWordRest c = true) :
      Spelled (.word (String.ofList (first :: rest)))
  | symbol (c : Char) (hstart : isWordStart c = false) (hblank : Text.isBlank c = false) :
      Spelled (.symbol c)

def Word.StopsAt (w : Word) (text : List Char) : Prop :=
  ∀ name, w = .word name → text.head?.any isWordRest = false

theorem not_isWordRest_of_isBlank {c : Char} (h : Text.isBlank c = true) :
    isWordRest c = false := by
  have hsign (d : Char) (hd : Text.isBlank d = false) : (c == d) = false := by
    rw [beq_eq_false_iff_ne]
    rintro rfl
    rw [h] at hd
    cases hd
  simp only [isWordRest, Text.not_isAlphabetic_of_isBlank h, Text.not_isNumeric_of_isBlank h,
    hsign '.' rfl, hsign '_' rfl, hsign '-' rfl, hsign ':' rfl, hsign '/' rfl, Bool.or_self]

theorem isWordRest_of_isWordStart {c : Char} (h : isWordStart c = true) : isWordRest c = true := by
  simp only [isWordStart, Bool.or_eq_true, beq_iff_eq] at h
  rcases h with h | h <;> simp [isWordRest, h]

theorem not_isBlank_of_isWordStart {c : Char} (h : isWordStart c = true) :
    Text.isBlank c = false := by
  cases hblank : Text.isBlank c with
  | false => rfl
  | true =>
      have hrest := not_isWordRest_of_isBlank hblank
      rw [isWordRest_of_isWordStart h] at hrest
      cases hrest

theorem Word.Spelled.head_not_isBlank {w : Word} (h : w.Spelled) (rest : List Char) :
    (w.text.toList ++ rest).head?.any Text.isBlank = false := by
  cases h with
  | word first name hfirst hname => simp [Word.text, not_isBlank_of_isWordStart hfirst]
  | symbol c hstart hblank => simp [Word.text, hblank]

/-- What the reader takes where no white space stands are the words, each as long as possible. -/
theorem word?_eq_some_iff {text rest : List Char} {w : Word}
    (hblank : text.head?.any Text.isBlank = false) :
    word? text = some (w, rest) ↔ text = w.text.toList ++ rest ∧ w.Spelled ∧ w.StopsAt rest := by
  constructor
  · intro h
    refine ⟨(word?_text h).symm, ?_⟩
    cases text with
    | nil => cases h
    | cons c tail =>
        rw [word?] at h
        split at h
        · next hc =>
            cases h
            exact ⟨.word c _ hc fun x hx => Text.mem_takeWhile hx,
              fun _ _ => Text.head?_dropWhile_any _ _⟩
        · next hc =>
            cases h
            exact ⟨.symbol c (by simpa using hc) (by simpa using hblank),
              fun _ heq => by cases heq⟩
  · rintro ⟨rfl, hspelled, hstop⟩
    cases hspelled with
    | word first name hfirst hname =>
        obtain ⟨htake, hdrop⟩ := Text.takeWhile_append_stop hname (hstop _ rfl)
        simp [Word.text, word?, hfirst, htake, hdrop]
    | symbol c hstart hblank => simp [Word.text, word?, hstart]

theorem word?_ne_none {c : Char} {rest : List Char} : word? (c :: rest) ≠ none := by
  rw [word?]
  split <;> simp

/-! ## Whole texts -/

structure Spaced where
  gap : List Char
  word : Word
  deriving DecidableEq

def Spaced.text (s : Spaced) : List Char :=
  s.gap ++ s.word.text.toList

/-- A text is made of items, each white space and a word, and white space at the end. No word is
carried on by what follows it. -/
structure Divided (text : List Char) (items : List Spaced) (trailing : List Char) : Prop where
  whole : text = items.flatMap Spaced.text ++ trailing
  gaps : ∀ s ∈ items, ∀ c ∈ s.gap, Text.isBlank c = true
  blank : ∀ c ∈ trailing, Text.isBlank c = true
  spelled : ∀ s ∈ items, s.word.Spelled
  stops : ∀ before s after, items = before ++ s :: after →
    s.word.StopsAt (after.flatMap Spaced.text ++ trailing)

theorem divided_nil_iff {text trailing : List Char} :
    Divided text [] trailing ↔ text = trailing ∧ ∀ c ∈ trailing, Text.isBlank c = true := by
  constructor
  · intro h
    exact ⟨h.whole, h.blank⟩
  · rintro ⟨rfl, hblank⟩
    exact ⟨rfl, by simp, hblank, by simp, by simp⟩

/-- Behind the first word stands a text that is divided in turn. -/
theorem divided_cons_iff {text trailing : List Char} {s : Spaced} {items : List Spaced} :
    Divided text (s :: items) trailing ↔
      ∃ rest, text = s.text ++ rest ∧ (∀ c ∈ s.gap, Text.isBlank c = true) ∧ s.word.Spelled ∧
        s.word.StopsAt rest ∧ Divided rest items trailing := by
  constructor
  · intro h
    obtain ⟨hgap, hgaps⟩ := List.forall_mem_cons.mp h.gaps
    obtain ⟨hword, hspelled⟩ := List.forall_mem_cons.mp h.spelled
    refine ⟨items.flatMap Spaced.text ++ trailing, ?_, hgap, hword, h.stops [] s items rfl,
      rfl, hgaps, h.blank, hspelled, fun before t after hitems =>
        h.stops (s :: before) t after (congrArg (s :: ·) hitems)⟩
    rw [h.whole, List.flatMap_cons, List.append_assoc]
  · rintro ⟨rest, rfl, hgap, hword, hstop, h⟩
    refine ⟨?whole, List.forall_mem_cons.mpr ⟨hgap, h.gaps⟩, h.blank,
      List.forall_mem_cons.mpr ⟨hword, h.spelled⟩, ?stops⟩
    case whole => rw [List.flatMap_cons, List.append_assoc, ← h.whole]
    case stops =>
      intro before t after hitems
      cases before with
      | nil =>
          obtain ⟨rfl, rfl⟩ := List.cons.inj hitems
          exact h.whole ▸ hstop
      | cons first before => exact h.stops before t after (List.cons.inj hitems).2

def place (start : Nat) : List Spaced → List Placed
  | [] => []
  | s :: rest =>
    ⟨s.word, start + Text.byteLength s.gap⟩ :: place (start + Text.byteLength s.text) rest

theorem words_of_blank {gap : List Char} (hgap : ∀ c ∈ gap, Text.isBlank c = true) (start : Nat) :
    words start gap = [] := by
  have hend : ([] : List Char).head?.any Text.isBlank = false := rfl
  obtain ⟨-, hdrop⟩ := Text.takeWhile_append_stop hgap hend
  rw [List.append_nil] at hdrop
  rw [words]
  split
  · rfl
  · next w rest hword => rw [hdrop] at hword; cases hword

theorem words_of_word {gap text rest : List Char} {w : Word}
    (hgap : ∀ c ∈ gap, Text.isBlank c = true) (hhead : text.head?.any Text.isBlank = false)
    (h : word? text = some (w, rest)) (start : Nat) :
    words start (gap ++ text) = ⟨w, start + Text.byteLength gap⟩ ::
      words (start + Text.byteLength (gap ++ w.text.toList)) rest := by
  obtain ⟨htake, hdrop⟩ := Text.takeWhile_append_stop hgap hhead
  rw [words]
  split
  · next hnone => rw [hdrop, h] at hnone; cases hnone
  · next w' rest' hsome =>
    rw [hdrop, h] at hsome
    cases hsome
    simp [htake, Nat.add_assoc]

theorem Divided.words_eq {text trailing : List Char} {items : List Spaced}
    (h : Divided text items trailing) (start : Nat) : words start text = place start items := by
  induction items generalizing text start with
  | nil =>
      obtain ⟨rfl, hblank⟩ := divided_nil_iff.mp h
      exact words_of_blank hblank start
  | cons s items ih =>
      obtain ⟨rest, rfl, hgap, hword, hstop, hrest⟩ := divided_cons_iff.mp h
      have hhead := hword.head_not_isBlank rest
      have hread := (word?_eq_some_iff hhead).mpr ⟨rfl, hword, hstop⟩
      rw [Spaced.text, List.append_assoc, words_of_word hgap hhead hread, ih hrest]
      rfl

theorem exists_divided (text : List Char) : ∃ items trailing, Divided text items trailing := by
  induction hn : text.length using Nat.strongRecOn generalizing text with
  | ind n ih =>
      have hsplit := List.takeWhile_append_dropWhile (p := Text.isBlank) (l := text)
      have hgap : ∀ c ∈ text.takeWhile Text.isBlank, Text.isBlank c = true :=
        fun c hc => Text.mem_takeWhile hc
      have hhead := Text.head?_dropWhile_any Text.isBlank text
      have hlength := (List.dropWhile_suffix (l := text) Text.isBlank).length_le
      generalize text.takeWhile Text.isBlank = gap at hsplit hgap
      generalize text.dropWhile Text.isBlank = tail at hsplit hhead hlength
      cases hread : word? tail with
      | none =>
          cases tail with
          | nil => exact ⟨[], gap, divided_nil_iff.mpr ⟨by simpa using hsplit.symm, hgap⟩⟩
          | cons c rest => exact absurd hread word?_ne_none
      | some found =>
          obtain ⟨w, rest⟩ := found
          have hshorter : rest.length < n := hn ▸ Nat.lt_of_lt_of_le (word?_length hread) hlength
          obtain ⟨items, trailing, hrest⟩ := ih _ hshorter rest rfl
          obtain ⟨rfl, hspelled, hstop⟩ := (word?_eq_some_iff hhead).mp hread
          refine ⟨⟨gap, w⟩ :: items, trailing, divided_cons_iff.mpr
            ⟨rest, ?_, hgap, hspelled, hstop, hrest⟩⟩
          rw [← hsplit, Spaced.text, List.append_assoc]

def SplitsInto (text : List Char) (ws : List Word) : Prop :=
  ∃ items trailing, Divided text items trailing ∧ items.map Spaced.word = ws

theorem map_word_place (start : Nat) (items : List Spaced) :
    (place start items).map Placed.word = items.map Spaced.word := by
  induction items generalizing start with
  | nil => rfl
  | cons s rest ih => simp [place, ih]

theorem splitsInto_iff {text : List Char} {ws : List Word} :
    SplitsInto text ws ↔ (words 0 text).map Placed.word = ws := by
  constructor
  · rintro ⟨items, trailing, h, rfl⟩
    rw [h.words_eq, map_word_place]
  · rintro rfl
    obtain ⟨items, trailing, h⟩ := exists_divided text
    exact ⟨items, trailing, h, by rw [h.words_eq, map_word_place]⟩

theorem SplitsInto.spelled {text : List Char} {ws : List Word} (h : SplitsInto text ws) :
    ∀ w ∈ ws, w.Spelled := by
  obtain ⟨items, trailing, hdivided, rfl⟩ := h
  exact List.forall_mem_map.mpr hdivided.spelled

/-- Words can be written with a space before each. -/
theorem exists_splitsInto {ws : List Word} (h : ∀ w ∈ ws, w.Spelled) :
    ∃ source : String, SplitsInto source.toList ws := by
  suffices hspaced : ∃ text, Divided text (ws.map (Spaced.mk [' '])) [] ∧
      text.head?.any isWordRest = false by
    obtain ⟨text, hdivided, -⟩ := hspaced
    refine ⟨String.ofList text, _, [], by rwa [String.toList_ofList], ?_⟩
    rw [List.map_map]
    exact List.map_id ws
  have hspace : ∀ c ∈ [' '], Text.isBlank c = true := List.forall_mem_singleton.mpr rfl
  induction ws with
  | nil => exact ⟨[], divided_nil_iff.mpr ⟨rfl, by simp⟩, rfl⟩
  | cons w ws ih =>
      obtain ⟨hword, hrest⟩ := List.forall_mem_cons.mp h
      obtain ⟨rest, hdivided, hhead⟩ := ih hrest
      refine ⟨' ' :: (w.text.toList ++ rest), divided_cons_iff.mpr
        ⟨rest, rfl, hspace, hword, fun _ _ => hhead, hdivided⟩, ?_⟩
      simpa using not_isWordRest_of_isBlank (hspace ' ' (by simp))

end ManifestTypes.Catalog
