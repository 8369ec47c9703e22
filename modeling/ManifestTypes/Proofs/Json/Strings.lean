import ManifestTypes.Json.Token
import ManifestTypes.Json.Writer

/-!
# Quoted strings

A string is read back from its quoted text, whatever characters it holds.
-/

namespace ManifestTypes.Json

open Text (hexValue?)

theorem hexValue?_hexDigit : ∀ n < 16, hexValue? (hexDigit n) = some n := by
  decide

/-- The escape of a control character that has no letter. -/
theorem unicode?_control {c : Char} (h : c.toNat < 0x20) (more : List Char) :
    unicode? ('0' :: '0' :: hexDigit (c.toNat / 16) :: hexDigit (c.toNat % 16) :: more) =
      some (.ok c, more) := by
  have hunit : unit? ('0' :: '0' :: hexDigit (c.toNat / 16) :: hexDigit (c.toNat % 16) :: more) =
      some (c.toNat, more) := by
    have hzero : hexValue? '0' = some 0 := hexValue?_hexDigit 0 (by decide)
    simp only [unit?, hzero, hexValue?_hexDigit _ (show c.toNat / 16 < 16 by omega),
      hexValue?_hexDigit _ (show c.toNat % 16 < 16 by omega), Option.bind_eq_bind,
      Option.bind_some, Option.some.injEq, Prod.mk.injEq, and_true]
    omega
  simp only [unicode?, hunit, Option.bind_eq_bind, Option.bind_some]
  rw [if_neg (by omega), if_neg (by omega), Char.ofNat_toNat]

theorem stringRest?_escaped {text more : List Char} {d : Except EscapeFault Char}
    (h : escaped? text = some (d, more)) :
    stringRest? ('\\' :: text) =
      (stringRest? more).map fun (ds, rest) => (consChar d ds, rest) := by
  rw [stringRest?, if_neg (by decide), if_pos rfl]
  split
  · next hnone => rw [h] at hnone; cases hnone
  · next hsome => rw [h] at hsome; cases hsome; rfl

/-- Each character is read back from what is written for it. -/
theorem stringRest?_escape (c : Char) (more : List Char) :
    stringRest? (escape c ++ more) =
      (stringRest? more).map fun (cs, rest) => (consChar (.ok c) cs, rest) := by
  unfold escape
  split
  · next hc => subst hc; exact stringRest?_escaped rfl
  split
  · next hc => subst hc; exact stringRest?_escaped rfl
  split
  · next hc => subst hc; exact stringRest?_escaped rfl
  split
  · next hc => subst hc; exact stringRest?_escaped rfl
  split
  · next hc => subst hc; exact stringRest?_escaped rfl
  split
  · next hc => subst hc; exact stringRest?_escaped rfl
  split
  · next hc => subst hc; exact stringRest?_escaped rfl
  split
  · next hcontrol => exact stringRest?_escaped (unicode?_control hcontrol more)
  · next hquote hslash _ _ _ _ _ hcontrol =>
      rw [List.singleton_append, stringRest?, if_neg hquote, if_neg hslash, if_neg hcontrol]

theorem stringRest?_quoted (cs rest : List Char) :
    stringRest? (cs.flatMap escape ++ '"' :: rest) = some (.ok cs, rest) := by
  induction cs with
  | nil => rw [List.flatMap_nil, List.nil_append, stringRest?, if_pos rfl]
  | cons c cs ih =>
      rw [List.flatMap_cons, List.append_assoc, stringRest?_escape, ih]
      rfl

theorem token?_quoted (s : String) (rest : List Char) :
    token? ((quoted s).toList ++ rest) = some (.string s, rest) := by
  have htext : (quoted s).toList ++ rest = '"' :: (s.toList.flatMap escape ++ '"' :: rest) := by
    simp [quoted]
  rw [htext, token?]
  simp [sign?, stringRest?_quoted, stringToken]

end ManifestTypes.Json
