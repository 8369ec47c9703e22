import Mathlib
import ManifestTypes.Decimal.Shortest

/-!
# Shortest decimals of floating-point numbers

A finite floating-point number is a zero or a positive binary number with a sign, and the shortest
decimal of a positive number is positive.
-/

namespace ManifestTypes.Decimal

/-! ## What the bits of a finite number stand for -/

open Float.Model in
theorem exponent_of_isFinite {x : Float} (h : x.isFinite = true) :
    x.toBits.toNat / 2 ^ 52 % 2 ^ 11 ≠ 2047 := by
  intro hexponent
  have hall : @UnpackedFloat.unpackExponent Format.binary64 x.toBits.toBitVec = -1#11 := by
    rw [← BitVec.toNat_inj]
    simpa [UnpackedFloat.unpackExponent, Nat.shiftRight_eq_div_pow] using hexponent
  have hmodel : (UnpackedFloat.unpack Format.binary64 x.toBits.toBitVec).isFinite = true := h
  by_cases hmantissa :
      @UnpackedFloat.unpackMantissa Format.binary64 x.toBits.toBitVec = 0#52 <;>
    simp [UnpackedFloat.unpack, hall, hmantissa, UnpackedFloat.isFinite] at hmodel

theorem ofBits_of_isFinite {x : Float} (h : x.isFinite = true) :
    ∃ negative, Parts.ofBits x.toBits = .zero negative ∨
      ∃ b : Binary, 0 < b.mantissa ∧ Parts.ofBits x.toBits = .finite negative b := by
  refine ⟨Nat.pow 2 63 ≤ x.toBits.toNat, ?_⟩
  have hexponent := exponent_of_isFinite h
  simp only [Parts.ofBits, Nat.pow_eq]
  rw [if_neg hexponent]
  split
  · split
    · exact .inl rfl
    · next hfraction => exact .inr ⟨_, Nat.pos_of_ne_zero hfraction, rfl⟩
  · exact .inr ⟨_, Nat.add_pos_left (by decide) _, rfl⟩

/-! ## Decimals on a grid -/

namespace Binary

variable {b : Binary}

/-- Zero is read as no positive number. -/
theorem readsBack_zero (h : 0 < b.mantissa) (k : Int) : b.readsBack 0 k = false := by
  have hlower : 0 < 4 * b.mantissa - (if b.narrowBelow then 1 else 2) := by
    split <;> omega
  have hgreater : b.compareQuarters (4 * b.mantissa - (if b.narrowBelow then 1 else 2)) 0 k =
      .gt := by
    rw [compareQuarters, Nat.zero_mul, Nat.zero_mul]
    exact Nat.compare_eq_gt.mpr
      (Nat.mul_pos (Nat.mul_pos hlower (Nat.pow_pos (by decide))) (Nat.pow_pos (by decide)))
  simp [readsBack, hgreater]

theorem onGrid?_pos (h : 0 < b.mantissa) {k : Int} {d : Decimal} (hd : b.onGrid? k = some d) :
    0 < d.coefficient := by
  have hbelow : b.readsBack (b.floorAt k) k = true → 0 < b.floorAt k := by
    intro hreads
    refine Nat.pos_of_ne_zero fun hzero => ?_
    rw [hzero, readsBack_zero h] at hreads
    cases hreads
  simp only [onGrid?] at hd
  split at hd
  · cases hd
  · next hreads _ =>
      cases hd
      exact hbelow hreads
  · cases hd
    exact Nat.succ_pos _
  · next hreads _ =>
      have hpos := hbelow hreads
      split at hd <;> cases hd
      · exact hpos
      · exact Nat.succ_pos _
      · dsimp only
        split
        · exact hpos
        · exact Nat.succ_pos _

theorem lt_pow_digitCount (n : Nat) : n < 10 ^ digitCount n :=
  (Nat.length_toDigits_le_iff (by decide) Nat.length_toDigits_pos).mp (Nat.le_refl _)

theorem pow_digitCount_le {n : Nat} (h : 0 < n) : 10 ^ (digitCount n - 1) ≤ n := by
  rcases Nat.eq_zero_or_pos (digitCount n - 1) with hzero | hpos
  · rw [hzero]
    exact h
  · rw [← Nat.not_lt, ← Nat.length_toDigits_le_iff (by decide) hpos]
    have : digitCount n = (Nat.toDigits 10 n).length := rfl
    omega

theorem floorAt_pos_iff {k : Int} :
    0 < b.floorAt k ↔ 10 ^ k.toNat * 2 ^ (-b.exponent).toNat ≤
      b.mantissa * 2 ^ b.exponent.toNat * 10 ^ (-k).toNat := by
  simp only [floorAt, Nat.div_pos_iff, Nat.pow_eq, and_iff_right_iff_imp]
  exact fun _ => Nat.mul_pos (Nat.pow_pos (by decide)) (Nat.pow_pos (by decide))

/-- A number that has digits before the point is not less than the power of ten of the first. -/
theorem pow_le_of_whole {n : Nat}
    (hwhole : 0 < b.mantissa * 2 ^ b.exponent.toNat / 2 ^ (-b.exponent).toNat)
    (hn : n ≤ digitCount (b.mantissa * 2 ^ b.exponent.toNat / 2 ^ (-b.exponent).toNat) - 1) :
    10 ^ n * 2 ^ (-b.exponent).toNat ≤ b.mantissa * 2 ^ b.exponent.toNat := by
  rw [← Nat.le_div_iff_mul_le (Nat.pow_pos (by decide))]
  exact Nat.le_trans (Nat.pow_le_pow_right (by decide) hn) (pow_digitCount_le hwhole)

/-- Below one, as many places are enough as the number of times it goes into one has digits. -/
theorem le_pow_of_inverse (h : 0 < b.mantissa) {places : Nat}
    (hplaces : digitCount ((2 ^ (-b.exponent).toNat + b.mantissa - 1) / b.mantissa - 1) ≤ places) :
    2 ^ (-b.exponent).toNat ≤ b.mantissa * 10 ^ places := by
  have hlt := lt_pow_digitCount ((2 ^ (-b.exponent).toNat + b.mantissa - 1) / b.mantissa - 1)
  have hpow := Nat.pow_le_pow_right (by decide : 0 < 10) hplaces
  have hle : (2 ^ (-b.exponent).toNat + b.mantissa - 1) / b.mantissa ≤ 10 ^ places := by omega
  have hdiv := Nat.lt_mul_div_succ (2 ^ (-b.exponent).toNat + b.mantissa - 1) h
  have hmul := Nat.mul_le_mul_left b.mantissa hle
  rw [Nat.mul_add, Nat.mul_one] at hdiv
  omega

/-- The number is not less than the power of ten of its leading digit. -/
theorem floorAt_pos (h : 0 < b.mantissa) {k : Int} (hk : k ≤ b.leadingExponent) :
    0 < b.floorAt k := by
  rw [floorAt_pos_iff]
  have hwhole : b.floorAt 0 =
      b.mantissa * 2 ^ b.exponent.toNat / 2 ^ (-b.exponent).toNat := by
    simp [floorAt]
  simp only [leadingExponent, hwhole, Nat.pow_eq, Int.negOfNat_eq, Int.ofNat_eq_natCast] at hk
  split at hk
  · next hone =>
      calc 10 ^ k.toNat * 2 ^ (-b.exponent).toNat
          ≤ b.mantissa * 2 ^ b.exponent.toNat := pow_le_of_whole hone (by omega)
        _ ≤ b.mantissa * 2 ^ b.exponent.toNat * 10 ^ (-k).toNat :=
            Nat.le_mul_of_pos_right _ (Nat.pow_pos (by decide))
  · have hk' : k.toNat = 0 := by omega
    calc 10 ^ k.toNat * 2 ^ (-b.exponent).toNat
        = 2 ^ (-b.exponent).toNat := by rw [hk', Nat.pow_zero, Nat.one_mul]
      _ ≤ b.mantissa * 10 ^ (-k).toNat := le_pow_of_inverse h (by omega)
      _ ≤ b.mantissa * 2 ^ b.exponent.toNat * 10 ^ (-k).toNat :=
          Nat.mul_le_mul_right _ (Nat.le_mul_of_pos_right _ (Nat.pow_pos (by decide)))

end Binary

theorem trimZeros_pos {coefficient : Nat} (h : 0 < coefficient) (exponent : Int) :
    0 < (trimZeros coefficient exponent).coefficient := by
  fun_induction trimZeros coefficient exponent with
  | case1 coefficient exponent hzero ih => exact ih (by omega)
  | case2 => exact h

/-- A decimal on the coarsest grid that has one is the shortest, if it ends in no zero. -/
theorem shortest_of_findSome? {b : Binary} {d : Decimal}
    (hfound : (List.range 17).findSome? (fun (more : Nat) =>
      b.onGrid? (b.leadingExponent - more)) = some d)
    (hlast : d.coefficient % 10 ≠ 0) : shortest b = d := by
  rw [shortest, hfound, Option.getD_some, trimZeros, if_neg fun htrim => hlast htrim.2]

theorem shortest_pos {b : Binary} (h : 0 < b.mantissa) : 0 < (shortest b).coefficient := by
  rw [shortest]
  apply trimZeros_pos
  cases hfound : (List.range 17).findSome? fun (more : Nat) =>
      b.onGrid? (b.leadingExponent - more) with
  | none => exact Binary.floorAt_pos h (by omega)
  | some d =>
      obtain ⟨more, -, hmore⟩ := List.exists_of_findSome?_eq_some hfound
      exact Binary.onGrid?_pos h hmore

end ManifestTypes.Decimal
