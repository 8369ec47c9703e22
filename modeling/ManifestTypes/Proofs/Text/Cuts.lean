import Mathlib.Data.List.Infix
import ManifestTypes.Text.Split

/-!
# Cuts of texts

A text is cut at the first place of a separator, or at the last one of a character. The parts and
the separator make up the text again, and which place it was is told by what one of the parts does
not hold.
-/

namespace ManifestTypes.Text

section First

variable {text before after : List Char} {sign : Char} {rest : List Char}

theorem splitFirst?_eq_none_iff :
    splitFirst? (sign :: rest) text = none ↔ ¬ (sign :: rest) <:+: text := by
  induction text with
  | nil => simp [splitFirst?]
  | cons c text ih =>
      rw [splitFirst?, List.infix_cons_iff, not_or, ← ih]
      by_cases hstarts : (sign :: rest) <+: c :: text
      · simp [hstarts]
      · simp [hstarts]

theorem of_splitFirst?_eq_some (h : splitFirst? (sign :: rest) text = some (before, after)) :
    text = before ++ (sign :: rest) ++ after ∧ ¬ (sign :: rest) <:+: before := by
  induction text generalizing before with
  | nil => cases h
  | cons c text ih =>
      rw [splitFirst?] at h
      split at h
      · next hstarts =>
          cases h
          have hstart := List.isPrefixOf_iff_prefix.mp hstarts
          exact ⟨(List.prefix_append_drop hstart).trans (by simp), by simp⟩
      · next hstarts =>
          obtain ⟨⟨before, after⟩, hcut, hparts⟩ := Option.map_eq_some_iff.mp h
          cases hparts
          obtain ⟨rfl, hbefore⟩ := ih hcut
          refine ⟨by simp, fun hinside => ?_⟩
          rcases List.infix_cons_iff.mp hinside with hstart | hlater
          · have hlonger : c :: before <+: c :: (before ++ (sign :: rest) ++ after) :=
              ⟨sign :: rest ++ after, by simp⟩
            exact hstarts (List.isPrefixOf_iff_prefix.mpr (hstart.trans hlonger))
          · exact hbefore hlater

/-- A separator whose first character does not come again in it cannot start before its place and
reach into it. -/
theorem not_prefix_of_not_infix {c : Char} (after : List Char) (hsign : sign ∉ rest)
    (hbefore : ¬ (sign :: rest) <:+: c :: before) :
    ¬ (sign :: rest) <+: c :: before ++ (sign :: rest) ++ after := by
  intro h
  rw [List.append_assoc] at h
  rcases List.prefix_or_prefix_of_prefix h (List.prefix_append _ _) with hinside | ⟨more, hmore⟩
  · exact hbefore hinside.isInfix
  · -- What is left of the separator behind the part before starts with the separator again.
    have hagain : more <+: (sign :: rest) ++ after := by
      rwa [← List.prefix_append_right_inj (c :: before), hmore]
    rw [List.cons_append, List.cons.injEq] at hmore
    obtain ⟨rfl, hrest⟩ := hmore
    cases more with
    | nil => exact hbefore (by simp [← hrest])
    | cons d more =>
        obtain ⟨rfl, -⟩ := List.cons_prefix_cons.mp hagain
        exact hsign (by simp [← hrest])

theorem splitFirst?_append (hsign : sign ∉ rest) (hbefore : ¬ (sign :: rest) <:+: before) :
    splitFirst? (sign :: rest) (before ++ (sign :: rest) ++ after) = some (before, after) := by
  induction before with
  | nil => simp [splitFirst?]
  | cons c before ih =>
      have hlater : ¬ (sign :: rest) <:+: before := fun h => hbefore (List.infix_cons h)
      have hstart := not_prefix_of_not_infix after hsign hbefore
      rw [List.cons_append, List.cons_append] at hstart ⊢
      rw [splitFirst?, if_neg (by rwa [List.isPrefixOf_iff_prefix]), ih hlater]
      rfl

/-- The cut is at the first place where the separator stands. -/
theorem splitFirst?_eq_some_iff (hsign : sign ∉ rest) :
    splitFirst? (sign :: rest) text = some (before, after) ↔
      text = before ++ (sign :: rest) ++ after ∧ ¬ (sign :: rest) <:+: before := by
  refine ⟨of_splitFirst?_eq_some, ?_⟩
  rintro ⟨rfl, hbefore⟩
  exact splitFirst?_append hsign hbefore

/-! A character as the separator. -/

theorem splitFirst?_singleton_eq_none_iff : splitFirst? [sign] text = none ↔ sign ∉ text := by
  rw [splitFirst?_eq_none_iff, List.singleton_infix_iff]

theorem splitFirst?_singleton_eq_some_iff :
    splitFirst? [sign] text = some (before, after) ↔
      text = before ++ sign :: after ∧ sign ∉ before := by
  rw [splitFirst?_eq_some_iff List.not_mem_nil, List.singleton_infix_iff, List.append_assoc]
  rfl

end First

section Last

variable {separator : Char} {text before after : List Char}

theorem splitLast?_eq_none_iff : splitLast? separator text = none ↔ separator ∉ text := by
  induction text with
  | nil => simp [splitLast?]
  | cons c text ih =>
      rw [splitLast?, List.mem_cons, not_or, ← ih]
      cases splitLast? separator text with
      | some cut => simp
      | none => simp [eq_comm]

theorem of_splitLast?_eq_some (h : splitLast? separator text = some (before, after)) :
    text = before ++ separator :: after ∧ separator ∉ after := by
  induction text generalizing before with
  | nil => cases h
  | cons c text ih =>
      rw [splitLast?] at h
      split at h
      · next hcut =>
          cases h
          obtain ⟨rfl, hafter⟩ := ih hcut
          exact ⟨rfl, hafter⟩
      · next hcut =>
          split at h
          · next hc =>
              cases h
              exact ⟨by rw [hc]; rfl, splitLast?_eq_none_iff.mp hcut⟩
          · cases h

theorem splitLast?_append (before : List Char) (hafter : separator ∉ after) :
    splitLast? separator (before ++ separator :: after) = some (before, after) := by
  induction before with
  | nil => rw [List.nil_append, splitLast?, splitLast?_eq_none_iff.mpr hafter, if_pos rfl]
  | cons c before ih => rw [List.cons_append, splitLast?, ih]

end Last

end ManifestTypes.Text
