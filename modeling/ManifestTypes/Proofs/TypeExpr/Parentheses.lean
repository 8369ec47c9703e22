import ManifestTypes.Proofs.TypeExpr.Applications
import ManifestTypes.Proofs.TypeExpr.Printing

/-!
# What printed parentheses mean

A value is printed so that its parts are applied from the right where parentheses count: each name
to all that comes after it. The parentheses lie within the value and match.
-/

namespace ManifestTypes.TypeExpr

/-! ## Values as trees -/

/-- Each part is applied to all that comes after it. -/
def nest (first : Expr) : List Expr → Expr
  | [] => first
  | second :: rest => .apply first (nest second rest)

def nest? : List Expr → Option Expr
  | [] => none
  | first :: rest => some (nest first rest)

mutual

def Field.expr? : Field → Option Expr
  | .plain _ atoms => nest? (atoms.map .name)
  | .literal _ atoms shape fields =>
    (Field.exprs? fields).bind fun inner => nest? (atoms.map .name ++ [.literal shape inner])

def Field.exprs? : List Field → Option (List (String × Expr))
  | [] => some []
  | f :: rest => f.expr?.bind fun e => (Field.exprs? rest).map ((f.key, e) :: ·)

end

mutual

/-- No value is empty, at any depth. -/
def Field.HasParts : Field → Prop
  | .plain _ atoms => atoms ≠ []
  | .literal _ _ _ fields => Field.HaveParts fields

def Field.HaveParts : List Field → Prop
  | [] => True
  | f :: rest => f.HasParts ∧ Field.HaveParts rest

end

mutual

/-- No function of an application is an application itself. -/
def Expr.LeansRight : Expr → Prop
  | .name _ => True
  | .apply function argument =>
    (∀ f a, function ≠ .apply f a) ∧ function.LeansRight ∧ argument.LeansRight
  | .literal _ fields => Expr.LeanRight fields

def Expr.LeanRight : List (String × Expr) → Prop
  | [] => True
  | (_, e) :: rest => e.LeansRight ∧ Expr.LeanRight rest

end

theorem leansRight_nest {atoms : List String} {last : Option Expr} {e : Expr}
    (hlast : ∀ e, last = some e → e.LeansRight)
    (h : nest? (atoms.map .name ++ last.toList) = some e) : e.LeansRight := by
  cases atoms with
  | nil =>
      cases last with
      | none => cases h
      | some t =>
          cases h
          exact hlast t rfl
  | cons first rest =>
      cases h
      have hname : ∀ f a, Expr.name first ≠ .apply f a := by
        intro f a heq
        cases heq
      induction rest generalizing first with
      | nil =>
          cases last with
          | none => trivial
          | some t => exact ⟨hname, trivial, hlast t rfl⟩
      | cons second rest ih => exact ⟨hname, trivial, ih second fun _ _ => Expr.noConfusion⟩

/-! ## Chains -/

theorem foldl_apply_eq_nest {first : Expr} {rest : List Expr} (h : rest.length ≤ 1) :
    rest.foldl .apply first = nest first rest := by
  rcases rest with _ | ⟨second, _ | ⟨third, rest⟩⟩
  · rfl
  · rfl
  · simp at h

theorem args_names (names : List String) {ts : List Sign} {es : List Expr} (h : Args ts es) :
    Args ((names.flatMap fun name => [.lexeme (.identifier name)]) ++ ts)
      (names.map .name ++ es) := by
  induction names with
  | nil => exact h
  | cons name rest ih => simpa using Args.cons (.name name) ih

/-- A chain that is printed with parentheses. -/
theorem app_parenthesized (first : String) (rest : List String) {ts : List Sign} {es : List Expr}
    (h : Args ts es) (hlength : es.length ≤ 1) :
    App (.lexeme (.identifier first) ::
        (rest.flatMap fun name => [.openParen, .lexeme (.identifier name)]) ++ ts ++
          List.replicate rest.length .closeParen)
      (nest (.name first) (rest.map .name ++ es)) := by
  induction rest generalizing first with
  | nil =>
      have happ : App ([.lexeme (.identifier first)] ++ ts) (es.foldl .apply (.name first)) :=
        .arguments (.name first) h
      rw [foldl_apply_eq_nest hlength] at happ
      simpa using happ
  | cons second rest ih =>
      have happ := App.arguments (.name first) (.cons (.parenthesized (ih second)) .nil)
      simpa [List.replicate_succ', nest] using happ

theorem app_chainSigns {atoms : List String} {tail : Option (List Sign)} {last : Option Expr}
    (htail : Option.Rel Arg tail last) {e : Expr}
    (h : nest? (atoms.map .name ++ last.toList) = some e) : App (chainSigns atoms tail) e := by
  have hargs : Args (tail.getD []) last.toList := by
    cases htail with
    | none => exact .nil
    | some harg => simpa using Args.cons harg .nil
  have hlength : tail.toList.length = last.toList.length := by
    cases htail <;> rfl
  cases atoms with
  | nil =>
      cases htail with
      | none => cases h
      | some harg =>
          cases h
          simpa [chainSigns, nest] using App.arguments harg .nil
  | cons first rest =>
      cases h
      simp only [chainSigns]
      by_cases hparts : rest.length + 1 + tail.toList.length ≤ 2
      · have happ := App.arguments (.name first) (args_names rest hargs)
        have hclosings : (rest.flatMap fun _ => ([] : List Sign)) = [] :=
          List.flatMap_eq_nil_iff.mpr fun _ _ => rfl
        rw [foldl_apply_eq_nest (by simp; omega)] at happ
        simpa [openings, closings, hparts, hclosings] using happ
      · have happ := app_parenthesized first rest hargs (by cases last <;> simp)
        have hclosings : (rest.flatMap fun _ => [Sign.closeParen]) =
            List.replicate rest.length .closeParen := by
          rw [← List.map_eq_flatMap, List.map_const']
        simpa [openings, closings, hparts, hclosings] using happ

/-! ## Fields -/

theorem label?_ofLabel (key : String) : (Lexeme.ofLabel key).label? = some key := by
  unfold Lexeme.ofLabel
  split <;> rfl

/-- The tree of a chain of names and a tail. -/
theorem exists_nest (atoms : List String) (last : Option Expr)
    (h : atoms ≠ [] ∨ last.isSome = true) :
    ∃ e, nest? (atoms.map .name ++ last.toList) = some e := by
  cases atoms with
  | cons first rest => exact ⟨_, rfl⟩
  | nil =>
      cases last with
      | some e => exact ⟨_, rfl⟩
      | none => simp at h

mutual

/-- The value of a field is printed as what its tree is written by, and this leans to the right. -/
theorem Field.app_signs (f : Field) (h : f.HasParts) :
    ∃ e ss, f.expr? = some e ∧ e.LeansRight ∧ f.signs = labelledSigns f.key ss ∧ App ss e := by
  cases f with
  | plain key atoms =>
      obtain ⟨e, he⟩ := exists_nest atoms none (.inl h)
      have happ := app_chainSigns .none he
      have hleans : e.LeansRight := leansRight_nest (by rintro _ ⟨⟩) he
      rw [Option.toList_none, List.append_nil] at he
      exact ⟨e, _, he, hleans, rfl, happ⟩
  | literal key atoms shape fields =>
      obtain ⟨inner, hinner, hleans, hfields⟩ := Field.fields_signs shape true fields h
      obtain ⟨e, he⟩ := exists_nest atoms (some (.literal shape inner)) (.inr rfl)
      have happ := app_chainSigns (.some (.literal hfields)) he
      have hleans : e.LeansRight := leansRight_nest (by rintro _ ⟨⟩; exact hleans) he
      have hexpr : (Field.literal key atoms shape fields).expr? = some e := by
        rw [Field.expr?, hinner]
        exact he
      exact ⟨e, _, hexpr, hleans, rfl, happ⟩

theorem Field.fields_signs (shape : Shape) (isFirst : Bool) (fields : List Field)
    (h : Field.HaveParts fields) :
    ∃ es, Field.exprs? fields = some es ∧ Expr.LeanRight es ∧
      Fields shape isFirst (Field.signsAll shape isFirst fields) es := by
  cases fields with
  | nil => exact ⟨[], rfl, trivial, .nil⟩
  | cons f rest =>
      obtain ⟨e, ss, he, hleans, hsigns, happ⟩ := Field.app_signs f h.1
      obtain ⟨es, hes, hleansRest, hrest⟩ := Field.fields_signs shape false rest h.2
      refine ⟨(f.key, e) :: es, ?_, ⟨hleans, hleansRest⟩, ?_⟩
      · rw [Field.exprs?, he, hes]
        rfl
      · have hfield : Fields shape isFirst _ ((f.key, e) :: es) :=
          .cons (label?_ofLabel f.key) happ hrest
        rw [Field.signsAll, hsigns]
        simpa [labelledSigns, separatorSigns] using hfield

end

/-! ## Printed records -/

/-- At every level of indentation a record type is printed so that it can be understood in one way
where parentheses count: as the record of its fields, in which the parts of every value, at any
depth, are applied from the right. All parentheses match, none reaches beyond its value, and no
function of an application is an application. -/
theorem render_nests_right (r : RecordType) (h : r.Readable) (hparts : Field.HaveParts r.fields)
    (level : Nat) :
    let reading := read (r.render level).toList
    reading.unread = [] ∧
    ∃ fields, Field.exprs? r.fields = some fields ∧
      (∀ e, App reading.signs e ↔ e = .literal .record fields) ∧
      Balanced reading.signs ∧ (Expr.literal .record fields).LeansRight := by
  intro reading
  obtain ⟨hunread, hsigns⟩ := r.writes_render h level
  obtain ⟨fields, hfields, hleans, hwritten⟩ := Field.fields_signs .record true r.fields hparts
  have happ : App reading.signs (.literal .record fields) := by
    rw [hsigns, ← List.append_nil r.signs]
    exact .arguments (.literal hwritten) .nil
  refine ⟨hunread, fields, hfields, fun e => ⟨fun he => ?_, ?_⟩, happ.balanced, hleans⟩
  · exact he.tree_unique happ
  · rintro rfl
    exact happ

def deepChains : RecordType :=
  ⟨[.plain "a" ["Map", "Text", "Text", "Bool"],
    .literal "d" ["Optional", "List"] .union
      [.plain "E" ["List", "Text"], .literal "F" ["Map", "Text"] .record []]]⟩

theorem render_nests_deepChains :
    deepChains.Readable ∧ Field.HaveParts deepChains.fields ∧
    ∀ e, App (read (deepChains.render 1).toList).signs e ↔
      e = .literal .record [
        ("a", .apply (.name "Map") (.apply (.name "Text") (.apply (.name "Text") (.name "Bool")))),
        ("d", .apply (.name "Optional") (.apply (.name "List") (.literal .union [
          ("E", .apply (.name "List") (.name "Text")),
          ("F", .apply (.name "Map") (.apply (.name "Text") (.literal .record [])))])))] := by
  have hreadable : deepChains.Readable := by decide
  have hparts : Field.HaveParts deepChains.fields := by
    simp [deepChains, Field.HaveParts, Field.HasParts]
  obtain ⟨-, fields, hfields, hunique, -⟩ := render_nests_right deepChains hreadable hparts 1
  cases hfields
  exact ⟨hreadable, hparts, hunique⟩

end ManifestTypes.TypeExpr
