import ManifestTypes.Json.Numeral
import ManifestTypes.Json.Writer
import ManifestTypes.Proofs.Decimal.Shortest
import ManifestTypes.Proofs.Text.Digits

/-!
# Texts of numbers

A number is read by the parts of its text, whatever stands behind it that cannot belong to it. The
texts that integers and finite floating-point numbers are written as have such parts.
-/

namespace ManifestTypes.Json

open Text (digits? digits?_append digitsValue isDigit_of_mem_toDigits digitsValue_toDigits
  head?_toDigits)

/-! ## Parts of a number -/

structure Spelling where
  negative : Bool
  whole : List Char
  fraction : List Char
  exponent : Option (Bool × List Char)

namespace Spelling

def fractionText : List Char → List Char
  | [] => []
  | c :: ds => '.' :: c :: ds

def exponentText : Option (Bool × List Char) → List Char
  | none => []
  | some (negative, ds) => 'e' :: (if negative then '-' else '+') :: ds

def text (s : Spelling) : List Char :=
  (if s.negative then ['-'] else []) ++
    (s.whole ++ (fractionText s.fraction ++ exponentText s.exponent))

def exponentValue : Option (Bool × List Char) → Int
  | none => 0
  | some (negative, ds) => if negative then Int.negOfNat (digitsValue ds) else digitsValue ds

def numeral (s : Spelling) : Numeral :=
  ⟨s.negative, s.whole, s.fraction, exponentValue s.exponent,
    s.fraction.isEmpty && s.exponent.isNone⟩

/-- Digits stand where they should, and no zero before others. -/
structure Proper (s : Spelling) : Prop where
  wholeNonempty : s.whole ≠ []
  wholeDigits : ∀ c ∈ s.whole, c.isDigit = true
  unpadded : s.whole.head? = some '0' → s.whole = ['0']
  fractionDigits : ∀ c ∈ s.fraction, c.isDigit = true
  exponentDigits : ∀ e ∈ s.exponent, e.2 ≠ [] ∧ ∀ c ∈ e.2, c.isDigit = true

end Spelling

def continuesNumber (c : Char) : Bool :=
  c.isDigit || c == '.' || c == 'e' || c == 'E'

theorem head?_any_of_imp {p q : Char → Bool} {text : List Char}
    (h : text.head?.any p = false) (himp : ∀ c, q c = true → p c = true) :
    text.head?.any q = false := by
  cases text with
  | nil => rfl
  | cons c rest =>
      rw [List.head?_cons, Option.any_some, ← Bool.not_eq_true] at h ⊢
      exact fun hq => h (himp c hq)

theorem exponent?_text {e : Option (Bool × List Char)} {rest : List Char}
    (he : ∀ p ∈ e, p.2 ≠ [] ∧ ∀ c ∈ p.2, c.isDigit = true)
    (hrest : rest.head?.any continuesNumber = false) :
    exponent? (Spelling.exponentText e ++ rest) =
      some (Spelling.exponentValue e, e.isSome, rest) := by
  cases e with
  | none =>
      cases rest with
      | nil => rfl
      | cons c rest =>
          have hc : ¬ (c = 'e' ∨ c = 'E') := by
            rintro (rfl | rfl) <;> simp [continuesNumber] at hrest
          exact if_neg hc
  | some p =>
      obtain ⟨negative, ds⟩ := p
      obtain ⟨hne, hds⟩ := he _ rfl
      have hdigit : rest.head?.any Char.isDigit = false :=
        head?_any_of_imp hrest fun c hc => by simp [continuesNumber, hc]
      have hread : digits? (ds ++ rest) = some (ds, rest) := digits?_append hne hds hdigit
      cases negative <;>
        simp [Spelling.exponentText, Spelling.exponentValue, exponent?, Text.sign, hread]

theorem fraction?_text {ds rest : List Char} (hds : ∀ c ∈ ds, c.isDigit = true)
    (hrest : rest.head?.any (fun c => c.isDigit || c == '.') = false) :
    fraction? (Spelling.fractionText ds ++ rest) = some (ds, rest) := by
  have hdigit : rest.head?.any Char.isDigit = false :=
    head?_any_of_imp hrest fun c hc => by simp [hc]
  cases ds with
  | nil =>
      cases rest with
      | nil => rfl
      | cons c rest =>
          have hc : c ≠ '.' := by
            rintro rfl
            simp at hrest
          rw [Spelling.fractionText, List.nil_append, fraction?.eq_2]
          intro tail htail
          exact hc (List.cons.inj htail).1
  | cons c ds => exact digits?_append (List.cons_ne_nil c ds) hds hdigit

theorem minus_text {s : Spelling} (h : s.Proper) (rest : List Char) :
    minus (s.text ++ rest) = (s.negative,
      s.whole ++ (Spelling.fractionText s.fraction ++ (Spelling.exponentText s.exponent ++ rest))) := by
  obtain ⟨c, ds, hwhole⟩ := List.exists_cons_of_ne_nil h.wholeNonempty
  have hc : c ≠ '-' := by
    rintro rfl
    exact absurd (h.wholeDigits '-' (hwhole ▸ List.mem_cons_self)) (by decide)
  cases hnegative : s.negative with
  | true => simp [Spelling.text, hnegative, minus]
  | false =>
      simp only [Spelling.text, hnegative, hwhole, List.append_assoc, List.nil_append,
        List.cons_append, Bool.false_eq_true, if_false]
      exact minus.eq_2 _ fun tail htail => hc (List.cons.inj htail).1

theorem numeral?_text {s : Spelling} (h : s.Proper) {rest : List Char}
    (hrest : rest.head?.any continuesNumber = false) :
    numeral? (s.text ++ rest) = some (s.numeral, rest) := by
  have hexponent : (Spelling.exponentText s.exponent ++ rest).head?.any
      (fun c => c.isDigit || c == '.') = false := by
    cases s.exponent with
    | none =>
        refine head?_any_of_imp hrest fun c hc => ?_
        simp only [continuesNumber, hc, Bool.true_or]
    | some p => rfl
  have hfraction : (Spelling.fractionText s.fraction ++
      (Spelling.exponentText s.exponent ++ rest)).head?.any Char.isDigit = false := by
    cases s.fraction with
    | nil => exact head?_any_of_imp hexponent fun c hc => by simp [hc]
    | cons c ds => rfl
  rw [numeral?, minus_text h, digits?_append h.wholeNonempty h.wholeDigits hfraction]
  simp only [Option.bind_eq_bind, Option.bind_some, fraction?_text h.fractionDigits hexponent,
    exponent?_text h.exponentDigits hrest]
  rw [if_neg fun hpadded => hpadded.2 (h.unpadded hpadded.1)]
  cases hsome : s.exponent <;> simp [Spelling.numeral, hsome]

/-! ## Integers -/

def integerSpelling (n : Int) : Spelling :=
  ⟨n < 0, Nat.toDigits 10 n.natAbs, [], none⟩

theorem toList_toString (n : Int) :
    (toString n).toList = (if n < 0 then ['-'] else []) ++ Nat.toDigits 10 n.natAbs := by
  rw [Int.toString_eq_repr, Int.repr_eq_if]
  by_cases hnegative : n < 0
  · have habs : (-n).toNat = n.natAbs := by omega
    rw [if_neg (by omega), if_pos hnegative]
    simp [String.toList_append, habs]
  · have habs : n.toNat = n.natAbs := by omega
    rw [if_pos (by omega), if_neg hnegative]
    simp [habs]

theorem text_integerSpelling (n : Int) : (integerSpelling n).text = (toString n).toList := by
  rw [toList_toString]
  simp [Spelling.text, integerSpelling, Spelling.fractionText, Spelling.exponentText]

theorem unpadded_toDigits {n : Nat} (h : (Nat.toDigits 10 n).head? = some '0') :
    Nat.toDigits 10 n = ['0'] := by
  rcases Nat.eq_zero_or_pos n with rfl | hpos
  · rfl
  · exact absurd h (head?_toDigits hpos)

theorem proper_integerSpelling (n : Int) : (integerSpelling n).Proper where
  wholeNonempty := Nat.toDigits_ne_nil
  wholeDigits _ hc := isDigit_of_mem_toDigits hc
  unpadded := unpadded_toDigits
  fractionDigits _ hc := absurd hc List.not_mem_nil
  exponentDigits _ he := by cases he

theorem number?_integer {n : Int} (hleast : -2 ^ 63 ≤ n) (hmost : n < 2 ^ 63) :
    (integerSpelling n).numeral.number? = some (.integer n) := by
  have hmagnitude : digitsValue (integerSpelling n).numeral.whole = n.natAbs :=
    digitsValue_toDigits n.natAbs
  have hwhole : (integerSpelling n).numeral.isWhole = true := rfl
  have hsign : (integerSpelling n).numeral.negative = decide (n < 0) := rfl
  simp only [Numeral.number?, hmagnitude, hwhole, hsign, true_and, Nat.pow_eq]
  by_cases hnegative : n < 0
  · rw [if_neg (by simp [hnegative]), if_neg (by omega), if_pos ⟨by simpa using hnegative, by omega⟩,
      Int.negOfNat_eq, Int.ofNat_eq_natCast]
    congr 2
    omega
  · rw [if_pos ⟨by simpa using hnegative, by omega⟩]
    congr 2
    omega

/-! ## Floating-point numbers -/

open Decimal (digits layout)

/-- Exponents are written with a sign. -/
theorem toList_exponentText (n : Int) :
    (decimalStyle.exponentText n).toList =
      (if n < 0 then '-' else '+') :: Nat.toDigits 10 n.natAbs := by
  rw [Decimal.Style.exponentText]
  by_cases hnegative : n < 0
  · rw [if_neg (by simp [hnegative]), toList_toString, if_pos hnegative, if_pos hnegative]
    rfl
  · rw [if_pos ⟨rfl, by omega⟩, String.toList_append, toList_toString, if_neg hnegative,
      if_neg hnegative]
    rfl

/-- The text of a floating-point number without a sign, which has a point or an exponent. -/
def SpelledUnsigned (text : List Char) : Prop :=
  ∃ s : Spelling, s.Proper ∧ s.negative = false ∧ s.text = text ∧ s.numeral.isWhole = false

theorem proper_cons {first : Char} {more fraction : List Char}
    {exponent : Option (Bool × List Char)} (hfirst : first = '0' → more = [])
    (hwhole : ∀ c ∈ first :: more, c.isDigit = true)
    (hfraction : ∀ c ∈ fraction, c.isDigit = true)
    (hexponent : ∀ e ∈ exponent, e.2 ≠ [] ∧ ∀ c ∈ e.2, c.isDigit = true) :
    (⟨false, first :: more, fraction, exponent⟩ : Spelling).Proper where
  wholeNonempty := List.cons_ne_nil first more
  wholeDigits := hwhole
  unpadded hhead := by
    have hzero : first = '0' := by simpa using hhead
    rw [hzero, hfirst hzero]
  fractionDigits := hfraction
  exponentDigits := hexponent

theorem isDigit_of_mem_zeros {n : Nat} {c : Char} (h : c ∈ List.replicate n '0') :
    c.isDigit = true := by
  rw [(List.mem_replicate.mp h).2]
  rfl

theorem spelledUnsigned_zero : SpelledUnsigned ['0', '.', '0'] :=
  ⟨⟨false, ['0'], ['0'], none⟩, proper_cons (fun _ => rfl) (by simp) (by simp) (by simp), rfl, rfl,
    rfl⟩

section Layouts

variable {first : Char} {tail : List Char}

/-- Digits, zeros and a point at the end. -/
theorem spelledUnsigned_padded (hfirst : first ≠ '0') (hds : ∀ c ∈ first :: tail, c.isDigit = true)
    (zeros : Nat) :
    SpelledUnsigned (first :: tail ++ List.replicate zeros '0' ++ ['.', '0']) := by
  have hwhole : ∀ c ∈ first :: (tail ++ List.replicate zeros '0'), c.isDigit = true := by
    rw [← List.cons_append]
    exact List.forall_mem_append.mpr ⟨hds, fun _ => isDigit_of_mem_zeros⟩
  refine ⟨⟨false, first :: (tail ++ List.replicate zeros '0'), ['0'], none⟩,
    proper_cons (absurd · hfirst) hwhole (by simp) (by simp), rfl, ?_, rfl⟩
  simp [Spelling.text, Spelling.fractionText, Spelling.exponentText]

/-- A point between digits. -/
theorem spelledUnsigned_pointed (hfirst : first ≠ '0') (hds : ∀ c ∈ first :: tail, c.isDigit = true)
    {before : Nat} (hbefore : before < tail.length) :
    SpelledUnsigned ((first :: tail).take (before + 1) ++
      '.' :: (first :: tail).drop (before + 1)) := by
  obtain ⟨c, rest, hdrop⟩ : ∃ c rest, tail.drop before = c :: rest :=
    List.exists_cons_of_ne_nil fun hnil => by
      rw [List.drop_eq_nil_iff] at hnil
      omega
  have hwhole : ∀ c ∈ first :: tail.take before, c.isDigit = true := by
    rw [← List.take_succ_cons]
    exact fun c hc => hds c (List.mem_of_mem_take hc)
  have hfraction : ∀ d ∈ c :: rest, d.isDigit = true := by
    rw [← hdrop]
    exact fun d hd => hds d (List.mem_cons_of_mem _ (List.mem_of_mem_drop hd))
  refine ⟨⟨false, first :: tail.take before, c :: rest, none⟩,
    proper_cons (absurd · hfirst) hwhole hfraction (by simp), rfl, ?_, rfl⟩
  rw [List.take_succ_cons, List.drop_succ_cons, hdrop]
  simp [Spelling.text, Spelling.fractionText, Spelling.exponentText]

/-- Zeros behind a point, and then digits. -/
theorem spelledUnsigned_small (hds : ∀ c ∈ first :: tail, c.isDigit = true) (zeros : Nat) :
    SpelledUnsigned ('0' :: '.' :: List.replicate zeros '0' ++ first :: tail) := by
  obtain ⟨c, rest, hfraction⟩ : ∃ c rest, List.replicate zeros '0' ++ first :: tail = c :: rest :=
    List.exists_cons_of_ne_nil (by simp)
  have hdigits : ∀ d ∈ c :: rest, d.isDigit = true := by
    rw [← hfraction]
    exact List.forall_mem_append.mpr ⟨fun _ => isDigit_of_mem_zeros, hds⟩
  refine ⟨⟨false, ['0'], c :: rest, none⟩,
    proper_cons (fun _ => rfl) (by simp) hdigits (by simp), rfl, ?_, rfl⟩
  simp [Spelling.text, Spelling.fractionText, Spelling.exponentText, hfraction]

/-- One digit, the others behind a point, and an exponent. -/
theorem spelledUnsigned_scientific (hds : ∀ c ∈ first :: tail, c.isDigit = true) (exponent : Int) :
    SpelledUnsigned (first :: Spelling.fractionText tail ++
      'e' :: (decimalStyle.exponentText exponent).toList) := by
  have hwhole : ∀ c ∈ [first], c.isDigit = true :=
    fun c hc => hds c (List.mem_singleton.mp hc ▸ List.mem_cons_self)
  refine ⟨⟨false, [first], tail, some (exponent < 0, Nat.toDigits 10 exponent.natAbs)⟩,
    proper_cons (fun _ => rfl) hwhole (fun c hc => hds c (List.mem_cons_of_mem _ hc)) ?_, rfl, ?_,
    by simp [Spelling.numeral]⟩
  · rintro _ ⟨⟩
    exact ⟨Nat.toDigits_ne_nil, fun c hc => isDigit_of_mem_toDigits hc⟩
  · rw [toList_exponentText]
    simp [Spelling.text, Spelling.exponentText]

end Layouts

/-- Every layout of a positive decimal is one of these. -/
theorem spelledUnsigned_layout {d : Decimal} (h : 0 < d.coefficient) :
    SpelledUnsigned (layout decimalStyle d).toList := by
  obtain ⟨first, tail, hdigits⟩ : ∃ first tail, digits d.coefficient = first :: tail :=
    List.exists_cons_of_ne_nil Nat.toDigits_ne_nil
  have hds : ∀ c ∈ first :: tail, c.isDigit = true := by
    rw [← hdigits]
    exact fun c hc => isDigit_of_mem_toDigits hc
  have hfirst : first ≠ '0' := by
    rintro rfl
    exact head?_toDigits h (congrArg List.head? hdigits)
  simp only [layout, String.toList_ofList, hdigits]
  split
  case isTrue => exact spelledUnsigned_padded hfirst hds _
  case isFalse hlarge =>
    split
    case isTrue hpoint =>
      obtain ⟨before, hbefore⟩ :
          ∃ n : Nat, (((first :: tail).length : Int) + d.exponent).toNat = n + 1 :=
        ⟨(((first :: tail).length : Int) + d.exponent).toNat - 1, by omega⟩
      rw [hbefore]
      refine spelledUnsigned_pointed hfirst hds ?_
      simp only [List.length_cons] at hbefore hpoint hlarge
      omega
    case isFalse =>
      split
      case isTrue => exact spelledUnsigned_small hds _
      case isFalse => cases tail <;> exact spelledUnsigned_scientific hds _

theorem decimalText_of_zero {x : Float} (h : x.isFinite = true) {negative : Bool}
    (hparts : Decimal.Parts.ofBits x.toBits = .zero negative) :
    decimalText x = (if negative then "-" else "") ++ "0.0" := by
  rw [decimalText, if_pos h, Decimal.render, hparts]

theorem decimalText_of_finite {x : Float} (h : x.isFinite = true) {negative : Bool}
    {b : Decimal.Binary} (hparts : Decimal.Parts.ofBits x.toBits = .finite negative b) :
    decimalText x =
      (if negative then "-" else "") ++ layout decimalStyle (Decimal.shortest b) := by
  rw [decimalText, if_pos h, Decimal.render, hparts]

/-- Every finite floating-point number is written with a point or an exponent. -/
theorem exists_spelling_decimal {x : Float} (h : x.isFinite = true) :
    ∃ s : Spelling, s.Proper ∧ s.text = (decimalText x).toList ∧ s.numeral.isWhole = false := by
  have hsign : ∀ (negative : Bool) {text : String}, SpelledUnsigned text.toList →
      ∃ s : Spelling, s.Proper ∧ s.text = ((if negative then "-" else "") ++ text).toList ∧
        s.numeral.isWhole = false := by
    rintro negative text ⟨s, hproper, hunsigned, htext, hwhole⟩
    refine ⟨{ s with negative }, ⟨hproper.1, hproper.2, hproper.3, hproper.4, hproper.5⟩, ?_,
      hwhole⟩
    rw [String.toList_append, ← htext]
    cases negative <;> simp [Spelling.text, hunsigned]
  obtain ⟨negative, hzero | ⟨b, hpositive, hfinite⟩⟩ := Decimal.ofBits_of_isFinite h
  · rw [decimalText_of_zero h hzero]
    exact hsign negative spelledUnsigned_zero
  · rw [decimalText_of_finite h hfinite]
    exact hsign negative (spelledUnsigned_layout (Decimal.shortest_pos hpositive))

/-- Where its text is read as the number, nothing else is read instead. -/
theorem number?_decimal {s : Spelling} {x : Float} (hwhole : s.numeral.isWhole = false)
    (hfinite : x.isFinite = true) (hread : s.numeral.toFloat = x) :
    s.numeral.number? = some (.decimal x) := by
  simp [Numeral.number?, hwhole, hread, hfinite]

end ManifestTypes.Json
