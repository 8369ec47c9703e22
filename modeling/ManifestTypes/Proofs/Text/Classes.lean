import ManifestTypes.Text.Alphabetic
import ManifestTypes.Text.Blank
import ManifestTypes.Text.Numeric

/-!
# Classes of characters

Runs of characters of one class at the start of a text, and classes that have no character in
common.
-/

namespace ManifestTypes.Text

/-! ## Runs -/

/-- A run ends where the text goes on with a character of another class. -/
theorem takeWhile_append_stop {p : Char → Bool} {run rest : List Char}
    (hrun : ∀ c ∈ run, p c = true) (hrest : rest.head?.any p = false) :
    (run ++ rest).takeWhile p = run ∧ (run ++ rest).dropWhile p = rest := by
  rw [List.takeWhile_append_of_pos hrun, List.dropWhile_append_of_pos hrun]
  cases rest with
  | nil => simp
  | cons c rest =>
      have hc : p c = false := by simpa using hrest
      simp [hc]

theorem head?_dropWhile_any (p : Char → Bool) (text : List Char) :
    (text.dropWhile p).head?.any p = false := by
  have h := List.head?_dropWhile_not p text
  cases hd : (text.dropWhile p).head? with
  | none => rfl
  | some c => simpa [hd] using h

theorem mem_takeWhile {p : Char → Bool} {text : List Char} {c : Char}
    (h : c ∈ text.takeWhile p) : p c = true := by
  have hall := List.all_takeWhile (p := p) (l := text)
  exact List.all_eq_true.mp hall c h

/-! ## White space is neither letter nor number -/

def Ranges.disjoint (first second : Ranges) : Bool :=
  first.all fun r => second.all fun s => Nat.blt r.2 s.1 || Nat.blt s.2 r.1

theorem Ranges.not_contains_of_disjoint {first second : Ranges} {c : Char}
    (hdisjoint : first.disjoint second = true) (h : first.contains c = true) :
    second.contains c = false := by
  obtain ⟨r, hr, hleast, hmost⟩ := contains_iff.mp h
  rw [Bool.eq_false_iff, ne_eq, contains_iff]
  rintro ⟨s, hs, hleast', hmost'⟩
  have hapart := List.all_eq_true.mp (List.all_eq_true.mp hdisjoint r hr) s hs
  simp only [Bool.or_eq_true, Nat.blt_eq] at hapart
  omega

theorem not_isAlphabetic_of_isBlank {c : Char} (h : isBlank c = true) : isAlphabetic c = false := by
  have hdisjoint : blankRanges.disjoint alphabeticRanges = true := by decide +kernel
  exact Ranges.not_contains_of_disjoint hdisjoint h

theorem not_isNumeric_of_isBlank {c : Char} (h : isBlank c = true) : isNumeric c = false := by
  have hdisjoint : blankRanges.disjoint numericRanges = true := by decide +kernel
  exact Ranges.not_contains_of_disjoint hdisjoint h

end ManifestTypes.Text
