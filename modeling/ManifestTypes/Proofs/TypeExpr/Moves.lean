import ManifestTypes.Proofs.TypeExpr.Lexing
import ManifestTypes.TypeExpr.Parser

/-!
# What the reader does with a lexeme

`Move` lists the ways on from a state, and `step_eq_ok_iff` says that the reader takes exactly
those. A run over tokens is a chain of moves that ends at the first token without one.
-/

namespace ManifestTypes.TypeExpr

/-- Behind an opening bracket or a separator a label may stand. -/
def Place.AwaitsLabel : Place → Prop
  | .opened | .separated => True
  | .labelled _ | .applying .. | .closed => False

/-- The fields of the innermost literal if it were closed at the place. -/
def Place.complete? (fields : Array Field) : Place → Option (Array Field)
  | .opened | .closed => some fields
  | .applying key atoms => some (fields.push (.plain key atoms.toList))
  | .separated | .labelled _ => none

namespace State

/-- The ways on from a state, each with the lexeme that is taken. -/
inductive Move : State → Lexeme → State → Prop
  | start : Move .start (.mark .openBrace) (.inside [] .record #[] .opened)
  | label {outer : List Enclosing} {shape : Shape} {fields : Array Field} {place : Place}
      {l : Lexeme} {key : String} (hplace : place.AwaitsLabel) (hlabel : l.label? = some key) :
      Move (.inside outer shape fields place) l (.inside outer shape fields (.labelled key))
  | colon {outer : List Enclosing} {shape : Shape} {fields : Array Field} {key : String} :
      Move (.inside outer shape fields (.labelled key)) (.mark .colon)
        (.inside outer shape fields (.applying key #[]))
  | name {outer : List Enclosing} {shape : Shape} {fields : Array Field} {key : String}
      {atoms : Array String} {atom : String} :
      Move (.inside outer shape fields (.applying key atoms)) (.identifier atom)
        (.inside outer shape fields (.applying key (atoms.push atom)))
  | descend {outer : List Enclosing} {shape inner : Shape} {fields : Array Field} {key : String}
      {atoms : Array String} (hroom : outer.length + 1 < maxNesting) :
      Move (.inside outer shape fields (.applying key atoms)) (.mark inner.opening)
        (.inside (⟨shape, fields, key, atoms⟩ :: outer) inner #[] .opened)
  | separate {outer : List Enclosing} {shape : Shape} {fields done : Array Field} {place : Place}
      (hplace : place ≠ .opened) (hdone : place.complete? fields = some done) :
      Move (.inside outer shape fields place) (.mark shape.separator)
        (.inside outer shape done .separated)
  | close {outer : List Enclosing} {shape : Shape} {fields done : Array Field} {place : Place}
      (hdone : place.complete? fields = some done) :
      Move (.inside outer shape fields place) (.mark shape.closing) (close outer shape done)

theorem ofOpening?_separator (s : Shape) : Shape.ofOpening? s.separator = none := by
  cases s <;> rfl

theorem ofOpening?_closing (s : Shape) : Shape.ofOpening? s.closing = none := by
  cases s <;> rfl

theorem closing_ne_separator (s : Shape) : s.closing ≠ s.separator := by
  cases s <;> decide

theorem Move.step {s t : State} {l : Lexeme} (h : Move s l t) : s.step l = .ok t := by
  cases h with
  | start => rfl
  | @label outer shape fields place l key hplace hlabel =>
      cases place with
      | opened => simp [State.step, hlabel]
      | separated => simp [State.step, hlabel]
      | labelled key => cases hplace
      | applying key atoms => cases hplace
      | closed => cases hplace
  | colon => simp [State.step]
  | name => simp [State.step]
  | descend hroom => simp [State.step, hroom]
  | @separate outer shape fields done place hplace hdone =>
      cases place with
      | opened => exact absurd rfl hplace
      | separated => cases hdone
      | labelled key => cases hdone
      | applying key atoms =>
          cases hdone
          simp [State.step, ofOpening?_separator]
      | closed =>
          cases hdone
          simp [State.step]
  | @close outer shape fields done place hdone =>
      cases place with
      | opened =>
          cases hdone
          simp [State.step, Lexeme.label?]
      | separated => cases hdone
      | labelled key => cases hdone
      | applying key atoms =>
          cases hdone
          simp [State.step, ofOpening?_closing, closing_ne_separator]
      | closed =>
          cases hdone
          simp [State.step, closing_ne_separator]

theorem step_eq_ok_iff {s t : State} {l : Lexeme} : s.step l = .ok t ↔ Move s l t := by
  refine ⟨fun h => ?_, Move.step⟩
  match s with
  | .start =>
      simp only [State.step] at h
      split at h
      · next hl => cases h; subst hl; exact .start
      · cases h
  | .complete r => cases h
  | .inside outer shape fields .opened =>
      simp only [State.step] at h
      split at h
      · next key hlabel => cases h; exact .label trivial hlabel
      · split at h
        · next hl => cases h; subst hl; exact .close rfl
        · cases h
  | .inside outer shape fields .separated =>
      simp only [State.step] at h
      split at h
      · next key hlabel => cases h; exact .label trivial hlabel
      · cases h
  | .inside outer shape fields (.labelled key) =>
      simp only [State.step] at h
      split at h
      · next hl => cases h; subst hl; exact .colon
      · cases h
  | .inside outer shape fields (.applying key atoms) =>
      simp only [State.step] at h
      split at h
      · cases h; exact .name
      · cases h
      · split at h
        · next inner hinner =>
          split at h
          · next hroom =>
            cases h
            rw [Shape.ofOpening?_eq_some hinner]
            exact .descend hroom
          · cases h
        · split at h
          · next hm => cases h; subst hm; exact .separate (by simp) rfl
          · split at h
            · next hm => cases h; subst hm; exact .close rfl
            · cases h
  | .inside outer shape fields .closed =>
      simp only [State.step] at h
      split at h
      · next hl => cases h; subst hl; exact .separate (by simp) rfl
      · split at h
        · next hl => cases h; subst hl; exact .close rfl
        · cases h

theorem expected_of_awaitsLabel (outer : List Enclosing) (shape : Shape) (fields : Array Field)
    {place : Place} (h : place.AwaitsLabel) :
    (State.inside outer shape fields place).expected = .fieldLabel := by
  cases place with
  | opened => rfl
  | separated => rfl
  | labelled key => cases h
  | applying key atoms => cases h
  | closed => cases h

/-- A colon is taken only where it is asked for. -/
theorem Move.expected_of_colon {s t : State} (h : Move s (.mark .colon) t) :
    s.expected = .mark Mark.colon.char := by
  generalize hl : Lexeme.mark .colon = l at h
  cases h with
  | start => cases hl
  | label hplace hlabel => cases hl; cases hlabel
  | colon => rfl
  | name => cases hl
  | @descend outer shape inner => cases inner <;> cases hl
  | @separate outer shape => cases shape <;> cases hl
  | @close outer shape => cases shape <;> cases hl

/-- A closing bracket is taken where it is asked for or a field could begin. -/
theorem Move.expected_of_closing {s t : State} {shape : Shape}
    (h : Move s (.mark shape.closing) t) :
    s.expected = .fieldLabel ∨ s.expected = .mark shape.closing.char := by
  generalize hl : Lexeme.mark shape.closing = l at h
  cases h with
  | start => cases shape <;> cases hl
  | label hplace hlabel => cases hl; cases hlabel
  | colon => cases shape <;> cases hl
  | name => cases hl
  | @descend outer shape' inner => cases shape <;> cases inner <;> cases hl
  | @separate outer shape' => cases shape <;> cases shape' <;> cases hl
  | @close outer shape' fields done place hdone =>
      have hsame : shape' = shape := by
        cases shape <;> cases shape' <;> first | rfl | cases hl
      subst hsame
      cases place with
      | opened => exact .inl rfl
      | separated => exact .inl rfl
      | labelled key => cases hdone
      | applying key atoms => exact .inr rfl
      | closed => exact .inr rfl

/-- Behind the colon of a field or a name in its application. -/
def IsApplying : State → Prop
  | .inside _ _ _ (.applying ..) => True
  | _ => False

/-- The lexeme opens a literal at the end of an application. -/
def Opens (s : State) (l : Lexeme) : Prop :=
  s.IsApplying ∧ ∃ inner : Shape, l = .mark inner.opening

theorem expected_of_step_eq_error {s : State} {l : Lexeme} {e : Expectation}
    (hplace : ¬ s.IsApplying) (h : s.step l = .error e) : e = s.expected := by
  match s with
  | .start =>
      simp only [step] at h
      split at h <;> cases h
      rfl
  | .complete record =>
      cases h
      rfl
  | .inside outer shape fields .opened =>
      simp only [step] at h
      repeat' split at h
      all_goals cases h
      rfl
  | .inside outer shape fields .separated =>
      simp only [step] at h
      split at h <;> cases h
      rfl
  | .inside outer shape fields (.labelled key) =>
      simp only [step] at h
      split at h <;> cases h
      rfl
  | .inside outer shape fields (.applying key atoms) => exact absurd trivial hplace
  | .inside outer shape fields .closed =>
      simp only [step] at h
      repeat' split at h
      all_goals cases h
      rfl

/-- Only a literal that there is no room for is refused for something else than what is asked
for. -/
theorem step_eq_error {s : State} {l : Lexeme} {e : Expectation} (h : s.step l = .error e) :
    (s.Opens l ∧ e = .nestingWithin maxNesting) ∨ (¬ s.Opens l ∧ e = s.expected) := by
  by_cases hplace : s.IsApplying
  · match s, hplace with
    | .inside outer shape fields (.applying key atoms), happlying =>
      cases l with
      | identifier atom => cases h
      | quotedLabel label =>
          cases h
          exact .inr ⟨by simp [Opens], rfl⟩
      | mark m =>
          simp only [step] at h
          cases hinner : Shape.ofOpening? m with
          | some inner =>
              have hopens : Lexeme.mark m = .mark inner.opening := by
                rw [Shape.ofOpening?_eq_some hinner]
              rw [hinner] at h
              simp only at h
              split at h <;> cases h
              exact .inl ⟨⟨happlying, inner, hopens⟩, rfl⟩
          | none =>
              rw [hinner] at h
              simp only at h
              repeat' split at h
              all_goals cases h
              refine .inr ⟨fun hopens => ?_, rfl⟩
              obtain ⟨-, inner, hm⟩ := hopens
              cases hm
              simp at hinner
  · exact .inr ⟨fun hopens => hplace hopens.1, expected_of_step_eq_error hplace h⟩

def steps (s : State) (ls : List Lexeme) : Except Expectation State :=
  ls.foldlM step s

@[simp] theorem steps_nil (s : State) : s.steps [] = .ok s := rfl

theorem steps_cons (s : State) (l : Lexeme) (ls : List Lexeme) :
    s.steps (l :: ls) = (s.step l).bind fun t => t.steps ls := rfl

theorem steps_cons_of_move {s t : State} {l : Lexeme} (h : Move s l t) (ls : List Lexeme) :
    s.steps (l :: ls) = t.steps ls := by
  rw [steps_cons, h.step]
  rfl

theorem steps_append_of_ok {s t : State} {first : List Lexeme} (h : s.steps first = .ok t)
    (second : List Lexeme) : s.steps (first ++ second) = t.steps second := by
  unfold steps at *
  rw [List.foldlM_append, h]
  rfl

theorem steps_append_of_error {s : State} {e : Expectation} {first : List Lexeme}
    (h : s.steps first = .error e) (second : List Lexeme) :
    s.steps (first ++ second) = .error e := by
  unfold steps at *
  rw [List.foldlM_append, h]
  rfl

theorem steps_concat_eq_ok_iff {s u : State} {ls : List Lexeme} {l : Lexeme} :
    s.steps (ls ++ [l]) = .ok u ↔ ∃ t, s.steps ls = .ok t ∧ Move t l u := by
  cases h : s.steps ls with
  | error e => simp [steps_append_of_error h]
  | ok t =>
      rw [steps_append_of_ok h, steps_cons]
      cases hstep : t.step l <;> simp [Except.bind, ← step_eq_ok_iff, hstep]

theorem Move.ne_start {s t : State} {l : Lexeme} (h : Move s l t) : t ≠ .start := by
  cases h with
  | @close outer shape fields done place hdone => cases outer <;> simp [State.close]
  | _ => simp

theorem eq_nil_of_steps_eq_start {s : State} {ls : List Lexeme} (h : s.steps ls = .ok .start) :
    ls = [] := by
  rcases List.eq_nil_or_concat ls with hnil | ⟨first, l, rfl⟩
  · exact hnil
  · rw [List.concat_eq_append, steps_concat_eq_ok_iff] at h
    obtain ⟨t, -, hmove⟩ := h
    exact absurd rfl hmove.ne_start

/-! ## Runs over tokens -/

theorem run_eq_ok_iff {s t : State} {tokens : List Token} :
    s.run tokens = .ok t ↔ s.steps (tokens.map Token.lexeme) = .ok t := by
  induction tokens generalizing s with
  | nil => simp [run]
  | cons token rest ih =>
      rw [List.map_cons, steps_cons, run]
      cases s.step token.lexeme with
      | error e => simp [Except.bind]
      | ok next => exact ih

/-- A run fails at the first token that cannot be taken. -/
theorem run_eq_error_iff {s : State} {tokens : List Token} {m : Mismatch} :
    s.run tokens = .error m ↔
      ∃ before token after t, tokens = before ++ token :: after ∧
        s.steps (before.map Token.lexeme) = .ok t ∧ t.step token.lexeme = .error m.expected ∧
        m.found = some token.lexeme.text ∧ m.position = token.position := by
  induction tokens generalizing s with
  | nil => simp [run]
  | cons token rest ih =>
      rw [run]
      constructor
      · intro h
        cases hstep : s.step token.lexeme with
        | error e =>
            rw [hstep] at h
            cases h
            exact ⟨[], token, rest, s, rfl, rfl, hstep, rfl, rfl⟩
        | ok next =>
            rw [hstep] at h
            obtain ⟨before, bad, after, t, rfl, hsteps, hbad, hrest⟩ := ih.mp h
            refine ⟨token :: before, bad, after, t, rfl, ?_, hbad, hrest⟩
            rw [List.map_cons, steps_cons_of_move (step_eq_ok_iff.mp hstep), hsteps]
      · intro h
        obtain ⟨before, bad, after, t, htokens, hsteps, hbad, hfound, hposition⟩ := h
        cases before with
        | nil =>
            cases hsteps
            obtain ⟨rfl, rfl⟩ := List.cons.inj htokens
            rw [hbad]
            cases m
            cases hfound
            cases hposition
            rfl
        | cons head before =>
            obtain ⟨rfl, rfl⟩ := List.cons.inj htokens
            rw [List.map_cons, steps_cons] at hsteps
            cases hstep : s.step token.lexeme with
            | error e => rw [hstep] at hsteps; cases hsteps
            | ok next =>
                rw [hstep] at hsteps
                exact ih.mpr ⟨before, bad, after, t, rfl, hsteps, hbad, hfound, hposition⟩

end State

end ManifestTypes.TypeExpr
