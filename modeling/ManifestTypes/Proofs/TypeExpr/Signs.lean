import ManifestTypes.Proofs.TypeExpr.Lexing

/-!
# Lexemes with the parentheses between them

Round parentheses are passed over like blanks. Here they are kept, in the order in which they stand
among the lexemes.
-/

namespace ManifestTypes.TypeExpr

/-- A lexeme or a round parenthesis. -/
inductive Sign where
  | lexeme (l : Lexeme)
  | openParen
  | closeParen
  deriving DecidableEq

def Sign.ofParen? : Char → Option Sign
  | '(' => some .openParen
  | ')' => some .closeParen
  | _ => none

def Sign.lexeme? : Sign → Option Lexeme
  | .lexeme l => some l
  | _ => none

def parens (gap : List Char) : List Sign :=
  gap.filterMap Sign.ofParen?

def Spaced.signs (s : Spaced) : List Sign :=
  parens s.gap ++ [.lexeme s.lexeme]

/-- The lexemes of a text and the parentheses before, between and after them. -/
def Reading.signs (r : Reading) : List Sign :=
  r.items.flatMap Spaced.signs ++ parens r.trailing

theorem parens_append (first second : List Char) :
    parens (first ++ second) = parens first ++ parens second :=
  List.filterMap_append

theorem lexemes_parens (gap : List Char) : (parens gap).filterMap Sign.lexeme? = [] := by
  rw [parens, List.filterMap_filterMap, List.filterMap_eq_nil_iff]
  intro c _
  unfold Sign.ofParen?
  split <;> rfl

/-- Without the parentheses the lexemes are left. -/
theorem Reading.lexemes_signs (r : Reading) : r.signs.filterMap Sign.lexeme? = r.lexemes := by
  have hitem : ∀ s : Spaced, s.signs.filterMap Sign.lexeme? = [s.lexeme] := by
    intro s
    rw [Spaced.signs, List.filterMap_append, lexemes_parens]
    rfl
  rw [Reading.signs, List.filterMap_append, lexemes_parens, List.filterMap_flatMap]
  simp only [hitem, List.append_nil, Reading.lexemes, List.map_eq_flatMap]

theorem Reading.signs_append (r s : Reading) : (r.append s).signs = r.signs ++ s.signs := by
  rcases s with ⟨_ | ⟨⟨gap, l⟩, rest⟩, trailing, unread⟩ <;>
    simp [Reading.append, Reading.signs, Spaced.signs, parens_append]

/-! ## Texts that are read completely -/

/-- A text is read completely, as some lexemes and parentheses. -/
def Writes (text : List Char) (signs : List Sign) : Prop :=
  (read text).unread = [] ∧ (read text).signs = signs

theorem Writes.spells {text : List Char} {signs : List Sign} (h : Writes text signs) :
    Spells text (signs.filterMap Sign.lexeme?) := by
  obtain ⟨hunread, rfl⟩ := h
  exact ⟨hunread, (Reading.lexemes_signs _).symm⟩

theorem Writes.append {first second : List Char} {ss ts : List Sign} (hfirst : Writes first ss)
    (hsecond : Writes second ts) (hseam : endsInName first = true → carriesOn second = false) :
    Writes (first ++ second) (ss ++ ts) := by
  unfold Writes
  rw [read_append hfirst.1 hseam, Reading.unread_append, Reading.signs_append, hfirst.2,
    hsecond.2]
  exact ⟨hsecond.1, rfl⟩

theorem writes_ignored {gap : List Char} (hgap : gap.all isIgnored = true) :
    Writes gap (parens gap) := by
  have hread := read_ignored (List.all_eq_true.mp hgap)
  simp [Writes, hread, Reading.signs]

theorem Lexeme.Spelled.writes {l : Lexeme} (h : l.Spelled) :
    Writes l.text.toList [.lexeme l] := by
  rw [Writes, h.read_text]
  exact ⟨rfl, rfl⟩

theorem writes_mark (m : Mark) : Writes [m.char] [.lexeme (.mark m)] := by
  simpa [Lexeme.text] using (Lexeme.Spelled.mark m).writes

theorem Writes.before {first second : List Char} {ss ts : List Sign} (hfirst : Writes first ss)
    (hsecond : Writes second ts) (hseam : carriesOn second = false) :
    Writes (first ++ second) (ss ++ ts) :=
  hfirst.append hsecond fun _ => hseam

theorem Writes.after {first second : List Char} {ss ts : List Sign} (hfirst : Writes first ss)
    (hsecond : Writes second ts) (hseam : endsInName first = false) :
    Writes (first ++ second) (ss ++ ts) :=
  hfirst.append hsecond fun h => absurd h (by rw [hseam]; exact Bool.false_ne_true)

end ManifestTypes.TypeExpr
