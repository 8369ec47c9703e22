import ManifestTypes.Proofs.Text.Classes
import ManifestTypes.Text.Digits

/-!
# Digits at the start of a text

Digits are read up to the first character that is none, and the digits of a number stand for it.
-/

namespace ManifestTypes.Text

theorem digits?_append {ds rest : List Char} (hne : ds ≠ [])
    (hds : ∀ c ∈ ds, c.isDigit = true) (hrest : rest.head?.any Char.isDigit = false) :
    digits? (ds ++ rest) = some (ds, rest) := by
  obtain ⟨htake, hdrop⟩ := takeWhile_append_stop hds hrest
  rw [digits?, htake, hdrop]
  cases ds with
  | nil => exact absurd rfl hne
  | cons c ds => rfl

theorem isDigit_of_mem_toDigits {n : Nat} {c : Char} (h : c ∈ Nat.toDigits 10 n) :
    c.isDigit = true :=
  Nat.isDigit_of_mem_toDigits (by decide) (by decide) h

theorem digitsValue_toDigits (n : Nat) : digitsValue (Nat.toDigits 10 n) = n :=
  Nat.ofDigitChars_ten_toDigits

/-- No zero stands before the other digits of a number. -/
theorem head?_toDigits {n : Nat} (h : 0 < n) : (Nat.toDigits 10 n).head? ≠ some '0' := by
  induction n using Nat.strongRecOn with
  | ind n ih =>
      rw [Nat.toDigits_eq_if (by decide)]
      split
      · next hsmall =>
          have hdigit : ∀ d < 10, 0 < d → d.digitChar ≠ '0' := by decide
          simpa using hdigit n hsmall h
      · next hlarge =>
          have hrest := ih (n / 10) (by omega) (by omega)
          obtain ⟨c, ds, hds⟩ := List.exists_cons_of_ne_nil
            (Nat.toDigits_ne_nil (n := n / 10) (b := 10))
          rw [hds] at hrest ⊢
          exact hrest

end ManifestTypes.Text
