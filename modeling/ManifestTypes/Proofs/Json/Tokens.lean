import ManifestTypes.Json.Reader
import ManifestTypes.Proofs.Json.Numerals
import ManifestTypes.Proofs.Json.Strings

/-!
# Reading token by token

The tokens of a text are found before any of them is taken. A text whose first token is known can as
well be read by taking that token and reading on behind it.
-/

namespace ManifestTypes.Json

open Text (digits?)

variable {limit : Nat} {state state' : Assembly.State Unit} {text rest : List Char} {t : Token}

/-! ## The first token -/

theorem token?_blank {c : Char} (h : isBlank c = true) (rest : List Char) :
    token? (c :: rest) = none := by
  simp only [isBlank, Bool.or_eq_true, beq_iff_eq] at h
  obtain ((rfl | rfl) | rfl) | rfl := h <;>
    simp [token?, sign?, word?, afterWord?, numeral?, minus, digits?]

theorem tokens?_of_token? (h : token? text = some (t, rest)) :
    tokens? text = (tokens? rest).map (t :: ·) := by
  cases text with
  | nil => cases h
  | cons c cs =>
      have hblank : isBlank c = false := by
        rw [← Bool.not_eq_true]
        intro hc
        rw [token?_blank hc] at h
        cases h
      have hdrop : (c :: cs).dropWhile isBlank = c :: cs :=
        List.dropWhile_cons_of_neg (by simp [hblank])
      rw [tokens?, if_neg (by simp [hblank])]
      split
      · next hnone =>
          rw [hdrop, h] at hnone
          cases hnone
      · next hsome =>
          rw [hdrop, h] at hsome
          cases hsome
          rfl

theorem tokens?_nil : tokens? [] = some [] := by
  rw [tokens?]
  rfl

/-- A number starts with a sign or a digit, as nothing else does. -/
theorem token?_numeral {n : Numeral} (h : numeral? text = some (n, rest)) :
    token? text = some (.number n, rest) := by
  cases text with
  | nil => cases h
  | cons c cs =>
      have hfirst : c = '-' ∨ c.isDigit = true := by
        by_cases hminus : c = '-'
        · exact .inl hminus
        · refine .inr (Classical.byContradiction fun hdigit => ?_)
          have hplain : minus (c :: cs) = (false, c :: cs) :=
            minus.eq_2 _ fun tail htail => hminus (List.cons.inj htail).1
          simp [numeral?, hplain, digits?, hdigit] at h
      have hnot : ∀ d : Char, d ≠ '-' → d.isDigit = false → c ≠ d := by
        rintro d hminus hdigit rfl
        obtain rfl | hc := hfirst
        · exact hminus rfl
        · rw [hdigit] at hc
          cases hc
      have hsign : sign? c = none := by
        rw [sign?.eq_def]
        split <;> first | rfl | exact absurd rfl (hnot _ (by decide) (by decide))
      have hword : word? (c :: cs) = none := by
        have hn : c ≠ 'n' := hnot 'n' (by decide) (by decide)
        have ht : c ≠ 't' := hnot 't' (by decide) (by decide)
        have hf : c ≠ 'f' := hnot 'f' (by decide) (by decide)
        simp [word?, afterWord?, hn.symm, ht.symm, hf.symm]
      simp only [token?, hsign, if_neg (hnot '"' (by decide) (by decide)), hword, h, Option.map_some,
        Option.none_or]

/-! ## Reading on behind a token -/

def readFrom (limit : Nat) (state : Assembly.State Unit) (text : List Char) :
    Except ReadError (Assembly.State Unit) :=
  match tokens? text with
  | none => .error .malformed
  | some tokens => tokens.foldlM (step limit) state

theorem readFrom_nil : readFrom limit state [] = .ok state := by
  rw [readFrom, tokens?_nil]
  rfl

theorem readFrom_token (htoken : token? text = some (t, rest))
    (hstep : step limit state t = .ok state') :
    readFrom limit state text = readFrom limit state' rest := by
  rw [readFrom, readFrom, tokens?_of_token? htoken]
  cases tokens? rest with
  | none => rfl
  | some tokens =>
      simp only [Option.map_some, List.foldlM_cons, hstep]
      rfl

theorem readNode_of_readFrom {source : String} {node : Node}
    (h : readFrom limit (.value []) source.toList = .ok (.complete node)) :
    readNode limit source = .ok node := by
  rw [readFrom] at h
  rw [readNode]
  cases htokens : tokens? source.toList with
  | none =>
      rw [htokens] at h
      cases h
  | some tokens =>
      rw [htokens] at h
      simp only [h]
      rfl

end ManifestTypes.Json
