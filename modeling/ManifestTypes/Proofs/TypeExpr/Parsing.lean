import ManifestTypes.Proofs.TypeExpr.Derivation

/-!
# Which texts are type expressions

A text is read as a record type exactly if it spells the lexemes of that record type and these
are not nested too deeply. Gaps and offsets do not count.
-/

namespace ManifestTypes.TypeExpr

theorem State.steps_eq_complete_iff {ls : List Lexeme} (hls : ∀ l ∈ ls, l.Spelled)
    {r : RecordType} :
    State.start.steps ls = .ok (.complete r) ↔ ls = r.lexemes ∧ r.nesting ≤ maxNesting := by
  constructor
  · intro h
    obtain ⟨hnesting, hwritten⟩ := State.steps_preserves h trivial hls
    exact ⟨hwritten.symm, hnesting⟩
  · intro h
    obtain ⟨rfl, hnesting⟩ := h
    exact State.steps_lexemes hnesting

/-- A reading that is accepted ends in a complete record and leaves nothing. -/
theorem parse_eq_ok_iff_steps {source : String} {r : RecordType} :
    parse source = .ok r ↔
      (read source.toList).unread = [] ∧
        State.start.steps (read source.toList).lexemes = .ok (.complete r) := by
  rw [← Reading.fault?_eq_none_iff, ← Reading.map_lexeme_tokens, ← State.run_eq_ok_iff]
  unfold parse
  cases hrun : State.start.run (read source.toList).tokens with
  | error m => simp [hrun]
  | ok s =>
      cases hfault : (read source.toList).fault? with
      | some fault => simp [hrun, hfault]
      | none => cases s <;> simp [hrun, hfault]

theorem parse_eq_ok_iff_spells {source : String} {r : RecordType} :
    parse source = .ok r ↔ Spells source.toList r.lexemes ∧ r.nesting ≤ maxNesting := by
  rw [parse_eq_ok_iff_steps]
  constructor
  · intro h
    obtain ⟨hunread, hsteps⟩ := h
    have hspells : Spells source.toList (read source.toList).lexemes := ⟨hunread, rfl⟩
    obtain ⟨hlexemes, hnesting⟩ := (State.steps_eq_complete_iff hspells.spelled).mp hsteps
    exact ⟨⟨hunread, hlexemes⟩, hnesting⟩
  · intro h
    obtain ⟨hspells, hnesting⟩ := h
    refine ⟨hspells.1, ?_⟩
    rw [hspells.2]
    exact State.steps_lexemes hnesting

/-! ## Depth of lexemes -/

def Lexeme.openBehind (l : Lexeme) (depth : Nat) : Nat :=
  match l with
  | .mark .openBrace | .mark .openAngle => depth + 1
  | .mark .closeBrace | .mark .closeAngle => depth - 1
  | _ => depth

/-- The most literals that are open at a time. -/
def peak (depth : Nat) : List Lexeme → Nat
  | [] => depth
  | l :: ls => max depth (peak (l.openBehind depth) ls)

theorem le_peak (depth : Nat) (ls : List Lexeme) : depth ≤ peak depth ls := by
  cases ls with
  | nil => exact Nat.le_refl _
  | cons l ls => exact Nat.le_max_left _ _

theorem peak_cons_of_flat {l : Lexeme} {depth : Nat} (h : l.openBehind depth = depth)
    (ls : List Lexeme) : peak depth (l :: ls) = peak depth ls := by
  rw [peak, h]
  exact Nat.max_eq_right (le_peak depth ls)

theorem openBehind_ofLabel (key : String) (depth : Nat) :
    (Lexeme.ofLabel key).openBehind depth = depth := by
  unfold Lexeme.ofLabel
  split <;> rfl

theorem peak_head (key : String) (atoms : List String) (depth : Nat) (ls : List Lexeme) :
    peak depth (headLexemes key atoms ++ ls) = peak depth ls := by
  have hnames : peak depth (atoms.map .identifier ++ ls) = peak depth ls := by
    induction atoms with
    | nil => rfl
    | cons name rest ih => exact (peak_cons_of_flat rfl _).trans ih
  rw [headLexemes, List.cons_append, List.cons_append,
    peak_cons_of_flat (openBehind_ofLabel key depth), peak_cons_of_flat rfl, hnames]

mutual

theorem peak_field (f : Field) (depth : Nat) (ls : List Lexeme) :
    peak depth (f.lexemes ++ ls) = max (depth + f.nesting) (peak depth ls) := by
  have hle := le_peak depth ls
  cases f with
  | plain key atoms =>
      rw [Field.lexemes_plain, peak_head, Field.nesting]
      omega
  | literal key atoms shape fields =>
      have hopening : (Lexeme.mark shape.opening).openBehind depth = depth + 1 := by
        cases shape <;> rfl
      have hclosing : (Lexeme.mark shape.closing).openBehind (depth + 1) = depth := by
        cases shape <;> rfl
      rw [Field.lexemes_literal, List.append_assoc, List.append_assoc, peak_head,
        List.cons_append, peak, hopening, peak_fields shape true fields, List.singleton_append,
        peak, hclosing, Field.nesting]
      omega

theorem peak_fields (shape : Shape) (isFirst : Bool) (fields : List Field) (depth : Nat)
    (ls : List Lexeme) :
    peak depth (Field.lexemesAll shape isFirst fields ++ ls) =
      max (depth + Field.nestingAll fields) (peak depth ls) := by
  have hle := le_peak depth ls
  cases fields with
  | nil =>
      rw [Field.lexemesAll, Field.nestingAll, List.nil_append]
      omega
  | cons f rest =>
      have hseparator : ∀ ms, peak depth
          ((if isFirst then [] else [Lexeme.mark shape.separator]) ++ ms) = peak depth ms := by
        intro ms
        cases isFirst with
        | true => rfl
        | false => exact peak_cons_of_flat (by cases shape <;> rfl) ms
      rw [Field.lexemesAll, List.append_assoc, List.append_assoc, hseparator, peak_field f,
        peak_fields shape false rest, Field.nestingAll]
      omega

end

/-- The lexemes of a record type tell how deep it is nested. -/
theorem peak_lexemes (r : RecordType) : peak 0 r.lexemes = r.nesting := by
  have hfields := peak_fields .record true r.fields 1 [.mark .closeBrace]
  have hclosing : peak 1 [.mark .closeBrace] = 1 := rfl
  rw [hclosing] at hfields
  rw [RecordType.lexemes, List.cons_append, peak]
  change max 0 (peak 1 _) = _
  rw [hfields, RecordType.nesting]
  omega

/-- A text that spells a record type which is nested too deeply is refused. -/
theorem parse_eq_error_of_spells {source : String} {r : RecordType}
    (h : Spells source.toList r.lexemes) (hdeep : maxNesting < r.nesting) :
    ∃ e, parse source = .error e := by
  cases hparse : parse source with
  | error e => exact ⟨e, rfl⟩
  | ok r' =>
      obtain ⟨hspells, hnesting⟩ := parse_eq_ok_iff_spells.mp hparse
      have hsame : r'.lexemes = r.lexemes := hspells.2.symm.trans h.2
      rw [← peak_lexemes, hsame, peak_lexemes] at hnesting
      exact absurd hnesting (Nat.not_le_of_lt hdeep)

/-- Accepted are exactly the texts whose tokens are those that a record type is written by, if
its literals are not nested too deeply. So two texts with the same lexemes are read alike. -/
theorem parse_eq_ok_iff (source : String) (r : RecordType) :
    (parse source = .ok r ↔
      ∃ tokens, tokenize source = .ok tokens ∧ tokens.map Token.lexeme = r.lexemes ∧
        r.nesting ≤ maxNesting) ∧
    ∀ other tokens tokens', tokenize source = .ok tokens → tokenize other = .ok tokens' →
      tokens.map Token.lexeme = tokens'.map Token.lexeme →
      (parse source = .ok r ↔ parse other = .ok r) := by
  constructor
  · rw [parse_eq_ok_iff_spells, ← tokenize_lexemes_iff]
    constructor
    · intro h
      obtain ⟨⟨tokens, htokens, hlexemes⟩, hnesting⟩ := h
      exact ⟨tokens, htokens, hlexemes, hnesting⟩
    · intro h
      obtain ⟨tokens, htokens, hlexemes, hnesting⟩ := h
      exact ⟨⟨tokens, htokens, hlexemes⟩, hnesting⟩
  · intro other tokens tokens' hsource hother hsame
    have hfirst := tokenize_lexemes_iff.mp ⟨tokens, hsource, rfl⟩
    have hsecond := tokenize_lexemes_iff.mp ⟨tokens', hother, hsame.symm⟩
    simp only [parse_eq_ok_iff_spells, Spells, hfirst.1, hfirst.2, hsecond.1, hsecond.2]

end ManifestTypes.TypeExpr
