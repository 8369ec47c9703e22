import ManifestTypes.Proofs.TypeExpr.Signs
import ManifestTypes.TypeExpr.Basic

/-!
# Applications with parentheses

Where parentheses count, an application is a function and its arguments, which it takes from the
left, and an argument that is an application itself stands in parentheses. Such a text can be
understood in one way only, and its brackets and parentheses match.
-/

namespace ManifestTypes.TypeExpr

/-- An application as a tree. -/
inductive Expr where
  | name (text : String)
  | apply (function argument : Expr)
  | literal (shape : Shape) (fields : List (String × Expr))

/-! ## The grammar -/

mutual

/-- `argument argument*`, from the left. -/
inductive App : List Sign → Expr → Prop
  | arguments {ss ts : List Sign} {first : Expr} {rest : List Expr} :
      Arg ss first → Args ts rest → App (ss ++ ts) (rest.foldl .apply first)

inductive Args : List Sign → List Expr → Prop
  | nil : Args [] []
  | cons {ss ts : List Sign} {e : Expr} {rest : List Expr} :
      Arg ss e → Args ts rest → Args (ss ++ ts) (e :: rest)

/-- An identifier, a literal or an application in parentheses. -/
inductive Arg : List Sign → Expr → Prop
  | name (text : String) : Arg [.lexeme (.identifier text)] (.name text)
  | literal {shape : Shape} {ss : List Sign} {fields : List (String × Expr)} :
      Fields shape true ss fields →
      Arg (.lexeme (.mark shape.opening) :: (ss ++ [.lexeme (.mark shape.closing)]))
        (.literal shape fields)
  | parenthesized {ss : List Sign} {e : Expr} :
      App ss e → Arg (.openParen :: (ss ++ [.closeParen])) e

/-- `label ':' application`, with separators between such fields. -/
inductive Fields : Shape → Bool → List Sign → List (String × Expr) → Prop
  | nil {shape : Shape} {isFirst : Bool} : Fields shape isFirst [] []
  | cons {shape : Shape} {isFirst : Bool} {l : Lexeme} {key : String} {ss ts : List Sign}
      {e : Expr} {rest : List (String × Expr)} :
      l.label? = some key → App ss e → Fields shape false ts rest →
      Fields shape isFirst
        ((if isFirst then [] else [.lexeme (.mark shape.separator)]) ++
          .lexeme l :: .lexeme (.mark .colon) :: (ss ++ ts)) ((key, e) :: rest)

end

/-! ## One reading at most -/

def Sign.startsArg : Sign → Bool
  | .openParen => true
  | .closeParen => false
  | .lexeme (.identifier _) => true
  | .lexeme (.quotedLabel _) => false
  | .lexeme (.mark m) => (Shape.ofOpening? m).isSome

def StopsArgs (signs : List Sign) : Prop :=
  signs.head?.any Sign.startsArg = false

theorem Arg.starts {ss : List Sign} {e : Expr} (h : Arg ss e) (ts : List Sign) :
    ¬ StopsArgs (ss ++ ts) := by
  cases h <;> simp [StopsArgs, Sign.startsArg]

theorem stopsArgs_closing (shape : Shape) (ts : List Sign) :
    StopsArgs (.lexeme (.mark shape.closing) :: ts) := by
  cases shape <;> rfl

theorem Fields.stops {shape : Shape} {ss : List Sign} {fields : List (String × Expr)}
    (h : Fields shape false ss fields) (ts : List Sign) :
    StopsArgs (ss ++ .lexeme (.mark shape.closing) :: ts) := by
  cases h with
  | nil => exact stopsArgs_closing shape ts
  | cons => cases shape <;> rfl

theorem Shape.opening_injective {shape shape' : Shape} (h : shape.opening = shape'.opening) :
    shape = shape' := by
  have hread : some shape = some shape' := by
    rw [← Shape.ofOpening?_opening shape, h, Shape.ofOpening?_opening]
  exact Option.some.inj hread

/-- A field starts with a separator or a label and not with a bracket. -/
theorem Fields.ne_closing {shape : Shape} {isFirst : Bool} {l : Lexeme} {key : String}
    {ss ts us : List Sign} (h : l.label? = some key) :
    ((if isFirst then [] else [.lexeme (.mark shape.separator)]) ++
      .lexeme l :: .lexeme (.mark .colon) :: ss) ++ ts ≠
        [] ++ .lexeme (.mark shape.closing) :: us := by
  cases isFirst with
  | true =>
      cases l with
      | mark m => cases h
      | _ => simp
  | false => cases shape <;> simp [Shape.separator, Shape.closing]

mutual

theorem App.unique {ss ss' ts ts' : List Sign} {e e' : Expr} (h : App ss e) (h' : App ss' e')
    (hsame : ss ++ ts = ss' ++ ts') (hstops : StopsArgs ts) (hstops' : StopsArgs ts') :
    ss = ss' ∧ e = e' := by
  match h, h' with
  | .arguments hfirst hrest, .arguments hfirst' hrest' =>
      rw [List.append_assoc, List.append_assoc] at hsame
      obtain ⟨rfl, rfl⟩ := Arg.unique hfirst hfirst' hsame
      have hsame' := List.append_cancel_left hsame
      obtain ⟨rfl, rfl⟩ := Args.unique hrest hrest' hsame' hstops hstops'
      exact ⟨rfl, rfl⟩
termination_by structural h

theorem Args.unique {ss ss' ts ts' : List Sign} {es es' : List Expr} (h : Args ss es)
    (h' : Args ss' es') (hsame : ss ++ ts = ss' ++ ts') (hstops : StopsArgs ts)
    (hstops' : StopsArgs ts') : ss = ss' ∧ es = es' := by
  match h, h' with
  | .nil, .nil => exact ⟨rfl, rfl⟩
  | .nil, .cons hfirst' _ =>
      rw [List.nil_append, List.append_assoc] at hsame
      exact absurd (hsame ▸ hstops) (hfirst'.starts _)
  | .cons hfirst _, .nil =>
      rw [List.nil_append, List.append_assoc] at hsame
      exact absurd (hsame ▸ hstops') (hfirst.starts _)
  | .cons hfirst hrest, .cons hfirst' hrest' =>
      rw [List.append_assoc, List.append_assoc] at hsame
      obtain ⟨rfl, rfl⟩ := Arg.unique hfirst hfirst' hsame
      obtain ⟨rfl, rfl⟩ := Args.unique hrest hrest' (List.append_cancel_left hsame) hstops hstops'
      exact ⟨rfl, rfl⟩
termination_by structural h

/-- No argument is the beginning of another one. -/
theorem Arg.unique {ss ss' ts ts' : List Sign} {e e' : Expr} (h : Arg ss e) (h' : Arg ss' e')
    (hsame : ss ++ ts = ss' ++ ts') : ss = ss' ∧ e = e' := by
  match h, h' with
  | .name text, .name text' =>
      simp only [List.singleton_append, List.cons.injEq, Sign.lexeme.injEq,
        Lexeme.identifier.injEq] at hsame
      obtain ⟨rfl, -⟩ := hsame
      exact ⟨rfl, rfl⟩
  | .literal hfields, .literal hfields' =>
      simp only [List.cons_append, List.cons.injEq, Sign.lexeme.injEq, Lexeme.mark.injEq,
        List.append_assoc] at hsame
      obtain ⟨hopening, hrest⟩ := hsame
      obtain rfl := Shape.opening_injective hopening
      obtain ⟨rfl, rfl⟩ := Fields.unique hfields hfields' hrest
      exact ⟨rfl, rfl⟩
  | .parenthesized happ, .parenthesized happ' =>
      simp only [List.cons_append, List.cons.injEq, true_and, List.append_assoc] at hsame
      obtain ⟨rfl, rfl⟩ := App.unique happ happ' hsame rfl rfl
      exact ⟨rfl, rfl⟩
  | .name _, .literal _ | .name _, .parenthesized _ | .literal _, .name _
  | .literal _, .parenthesized _ | .parenthesized _, .name _ | .parenthesized _, .literal _ =>
      simp at hsame
termination_by structural h

theorem Fields.unique {shape : Shape} {isFirst : Bool} {ss ss' ts ts' : List Sign}
    {fields fields' : List (String × Expr)} (h : Fields shape isFirst ss fields)
    (h' : Fields shape isFirst ss' fields')
    (hsame : ss ++ .lexeme (.mark shape.closing) :: ts =
      ss' ++ .lexeme (.mark shape.closing) :: ts') : ss = ss' ∧ fields = fields' := by
  match h, h' with
  | .nil, .nil => exact ⟨rfl, rfl⟩
  | .cons hlabel happ hrest, .cons hlabel' happ' hrest' =>
      simp only [List.append_assoc, List.cons_append] at hsame
      have hfield := List.append_cancel_left hsame
      simp only [List.cons.injEq, Sign.lexeme.injEq, true_and] at hfield
      obtain ⟨rfl, hvalue⟩ := hfield
      obtain rfl := Option.some.inj (hlabel.symm.trans hlabel')
      obtain ⟨rfl, rfl⟩ := App.unique happ happ' hvalue (hrest.stops _) (hrest'.stops _)
      obtain ⟨rfl, rfl⟩ := Fields.unique hrest hrest' (List.append_cancel_left hvalue)
      exact ⟨rfl, rfl⟩
  | .nil, .cons hlabel _ _ => exact absurd hsame.symm (Fields.ne_closing hlabel)
  | .cons hlabel _ _, .nil => exact absurd hsame (Fields.ne_closing hlabel)
termination_by structural h

end

theorem App.tree_unique {ss : List Sign} {e e' : Expr} (h : App ss e) (h' : App ss e') :
    e = e' := by
  have hend : StopsArgs [] := rfl
  have hsame : ss ++ [] = ss ++ [] := rfl
  exact (h.unique h' hsame hend hend).2

/-! ## Balance -/

def Sign.closes (s : Sign) (awaited : List Sign) : Option (List Sign) :=
  if awaited.head? = some s then some awaited.tail else none

/-- Takes account of a sign where `awaited` are the signs that close what is open, the innermost
first. Colons and separators stand in a literal and not in parentheses inside it. -/
def Sign.track (awaited : List Sign) (s : Sign) : Option (List Sign) :=
  match s with
  | .openParen => some (.closeParen :: awaited)
  | .closeParen => s.closes awaited
  | .lexeme (.mark .openBrace) => some (.lexeme (.mark .closeBrace) :: awaited)
  | .lexeme (.mark .openAngle) => some (.lexeme (.mark .closeAngle) :: awaited)
  | .lexeme (.mark .closeBrace) | .lexeme (.mark .closeAngle) => s.closes awaited
  | .lexeme (.mark _) => if awaited.head?.any (· != .closeParen) then some awaited else none
  | .lexeme _ => some awaited

/-- All that is opened is closed, and what is opened last is closed first. -/
def Balanced (signs : List Sign) : Prop :=
  signs.foldlM Sign.track [] = some []

section Tracking

variable (shape : Shape) (awaited : List Sign)

theorem track_opening : Sign.track awaited (.lexeme (.mark shape.opening)) =
    some (.lexeme (.mark shape.closing) :: awaited) := by
  cases shape <;> rfl

theorem track_closing : Sign.track (.lexeme (.mark shape.closing) :: awaited)
    (.lexeme (.mark shape.closing)) = some awaited := by
  cases shape <;> simp [Shape.closing, Sign.track, Sign.closes]

theorem track_separator (isFirst : Bool) :
    (if isFirst then [] else [Sign.lexeme (.mark shape.separator)]).foldlM Sign.track
        (.lexeme (.mark shape.closing) :: awaited) =
      some (.lexeme (.mark shape.closing) :: awaited) := by
  cases isFirst <;> cases shape <;> rfl

theorem track_label {l : Lexeme} {key : String} (h : l.label? = some key) :
    [Sign.lexeme l, .lexeme (.mark .colon)].foldlM Sign.track
        (.lexeme (.mark shape.closing) :: awaited) =
      some (.lexeme (.mark shape.closing) :: awaited) := by
  cases l with
  | mark m => cases h
  | _ => cases shape <;> rfl

end Tracking

mutual

/-- An application closes what it opens, whatever is open around it. -/
theorem App.track {ss : List Sign} {e : Expr} (h : App ss e) (awaited : List Sign) :
    ss.foldlM Sign.track awaited = some awaited := by
  match h with
  | .arguments hfirst hrest =>
      rw [List.foldlM_append, Arg.track hfirst awaited]
      exact Args.track hrest awaited

theorem Args.track {ss : List Sign} {es : List Expr} (h : Args ss es) (awaited : List Sign) :
    ss.foldlM Sign.track awaited = some awaited := by
  match h with
  | .nil => rfl
  | .cons hfirst hrest =>
      rw [List.foldlM_append, Arg.track hfirst awaited]
      exact Args.track hrest awaited

theorem Arg.track {ss : List Sign} {e : Expr} (h : Arg ss e) (awaited : List Sign) :
    ss.foldlM Sign.track awaited = some awaited := by
  match h with
  | .name text => rfl
  | @Arg.literal shape ss _ hfields =>
      have hinside := Fields.track hfields awaited
      have hclosing := track_closing shape awaited
      simp [List.foldlM_cons, track_opening, List.foldlM_append, hinside, hclosing]
  | .parenthesized happ =>
      have hinside := App.track happ (.closeParen :: awaited)
      have hopening : Sign.track awaited .openParen = some (.closeParen :: awaited) := rfl
      have hclosing : Sign.track (.closeParen :: awaited) .closeParen = some awaited := by
        simp [Sign.track, Sign.closes]
      simp [List.foldlM_cons, hopening, List.foldlM_append, hinside, hclosing]

theorem Fields.track {shape : Shape} {isFirst : Bool} {ss : List Sign}
    {fields : List (String × Expr)} (h : Fields shape isFirst ss fields) (awaited : List Sign) :
    ss.foldlM Sign.track (.lexeme (.mark shape.closing) :: awaited) =
      some (.lexeme (.mark shape.closing) :: awaited) := by
  match h with
  | .nil => rfl
  | @Fields.cons _ isFirst l _ ss ts _ _ hlabel happ hrest =>
      have hsplit : Sign.lexeme l :: .lexeme (.mark .colon) :: (ss ++ ts) =
          [.lexeme l, .lexeme (.mark .colon)] ++ (ss ++ ts) := rfl
      rw [List.foldlM_append, track_separator, hsplit, Option.bind_eq_bind, Option.bind_some,
        List.foldlM_append, track_label shape awaited hlabel, Option.bind_eq_bind,
        Option.bind_some, List.foldlM_append, App.track happ _]
      exact Fields.track hrest awaited

end

theorem App.balanced {ss : List Sign} {e : Expr} (h : App ss e) : Balanced ss :=
  h.track []

end ManifestTypes.TypeExpr
