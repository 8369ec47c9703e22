import ManifestTypes.Cli.FileTree
import ManifestTypes.Cli.Run
import ManifestTypes.Proofs.TypeExpr.Strengthening

/-!
# Printing a type

What the command `type` does in a session, and what it does with its own output.
-/

namespace ManifestTypes.Cli

open TypeExpr (RecordType Spells deepestImage parse)

/-! ## Actions in a session -/

theorem Action.run_bind {α β : Type} (x : Action (StateM Session) α)
    (f : α → Action (StateM Session) β) (s : Session) :
    (x >>= f).run.run s =
      match x.run.run s with
      | (.ok a, s') => (f a).run.run s'
      | (.error e, s') => (.error e, s') := by
  simp only [ExceptT.run_bind, StateT.run_bind]
  cases x.run.run s with
  | mk result s' => cases result <;> rfl

theorem attempt_run {α : Type} (context : Option (Activity × String))
    (operation : StateM Session (Except FileError α)) (s : Session) :
    (attempt context operation).run.run s =
      match operation.run s with
      | (.ok a, s') => (.ok a, s')
      | (.error e, s') => (.error ⟨context, .file e⟩, s') := by
  have hlift : (liftM operation : Action (StateM Session) (Except FileError α)).run.run s =
      (.ok (operation.run s).1, (operation.run s).2) := rfl
  rw [attempt, Action.run_bind, hlift]
  cases operation.run s with
  | mk result s' => cases result <;> rfl

def Session.complaining (s : Session) (messages : List String) : Session :=
  { s with complaints := s.complaints ++ String.join (messages.map (· ++ "\n")) }

theorem forM_complain (messages : List String) (s : Session) :
    (messages.forM fun message => Session.host.complain (message ++ "\n")).run s =
      ((), s.complaining messages) := by
  induction messages generalizing s with
  | nil =>
      simp only [Session.complaining, List.map_nil, String.join_nil, String.append_empty]
      rfl
  | cons message rest ih =>
      change (rest.forM fun message => Session.host.complain (message ++ "\n")).run
        (s.complaining [message]) = _
      rw [ih]
      simp [Session.complaining, String.append_assoc]

theorem Invocation.run_eq (yaml : Yaml.Library) (i : Invocation) (s : Session) :
    (i.run yaml Session.host).run s =
      match (do enterAll Session.host i.directories; runCommand yaml Session.host i.command :
          Action (StateM Session) Unit).run.run s with
      | (.ok (), s') => (0, s')
      | (.error failure, s') => (1, s'.complaining failure.messages) := by
  have hfail : ∀ (failure : Failure) (s' : Session),
      (do failure.messages.forM fun message => Session.host.complain (message ++ "\n")
          pure 1 : StateM Session UInt32).run s' = (1, s'.complaining failure.messages) := by
    intro failure s'
    rw [StateT.run_bind, forM_complain]
    rfl
  rw [Invocation.run, StateT.run_bind]
  cases (do enterAll Session.host i.directories; runCommand yaml Session.host i.command :
      Action (StateM Session) Unit).run.run s with
  | mk result s' =>
      cases result with
      | ok _ => rfl
      | error failure => exact hfail failure s'

/-! ## Reading the input -/

/-- Leaves all of a session but the work directory as it was. -/
def OnlyMoves {α : Type} (operation : StateM Session α) : Prop :=
  ∀ s, ∃ work, (operation.run s).2 = { s with work }

theorem OnlyMoves.bind {α β : Type} {x : Action (StateM Session) α}
    {f : α → Action (StateM Session) β} (hx : OnlyMoves x.run) (hf : ∀ a, OnlyMoves (f a).run) :
    OnlyMoves (x >>= f).run := by
  intro s
  obtain ⟨work, hwork⟩ := hx s
  rw [Action.run_bind]
  cases hrun : x.run.run s with
  | mk result s' =>
      rw [hrun] at hwork
      cases hwork
      cases result with
      | error e => exact ⟨work, rfl⟩
      | ok a => exact hf a { s with work }

theorem OnlyMoves.attempt {α : Type} {operation : StateM Session (Except FileError α)}
    (h : OnlyMoves operation) (context : Option (Activity × String)) :
    OnlyMoves (Cli.attempt context operation).run := by
  intro s
  obtain ⟨work, hwork⟩ := h s
  refine ⟨work, ?_⟩
  rw [attempt_run, ← hwork]
  cases operation.run s with
  | mk result s' => cases result <;> rfl

theorem onlyMoves_enter (path : String) : OnlyMoves (Session.host.enter path) := by
  intro s
  simp only [Session.host, StateT.run_bind, StateT.run_get, pure_bind]
  cases s.tree.locate s.work path with
  | error e => exact ⟨s.work, rfl⟩
  | ok l =>
      cases hdirectory : s.tree.isDirectory l with
      | true =>
          simp only [hdirectory]
          exact ⟨l, rfl⟩
      | false =>
          simp only [hdirectory]
          exact ⟨s.work, rfl⟩

theorem onlyMoves_enterAll (directories : List String) :
    OnlyMoves (enterAll Session.host directories).run := by
  induction directories with
  | nil => exact fun s => ⟨s.work, rfl⟩
  | cons path rest ih =>
      have hresolve : OnlyMoves (Session.host.resolve path) := fun s => ⟨s.work, rfl⟩
      refine OnlyMoves.bind (hresolve.attempt _) fun resolved => ?_
      exact OnlyMoves.bind ((onlyMoves_enter resolved).attempt _) fun _ => ih

theorem onlyMoves_readSource (input : Option String) :
    OnlyMoves (readSource Session.host input).run := by
  cases input with
  | none =>
      have hread : OnlyMoves Session.host.readInput := fun s => ⟨s.work, rfl⟩
      exact hread.attempt none
  | some path =>
      have hread : OnlyMoves (Session.host.readFile path) := fun s => ⟨s.work, rfl⟩
      exact hread.attempt _

/-- The input of a command in the last of the directories that it changes to. -/
def readIn (directories : List String) (input : Option String) :
    Action (StateM Session) String := do
  enterAll Session.host directories
  readSource Session.host input

theorem onlyMoves_readIn (directories : List String) (input : Option String) :
    OnlyMoves (readIn directories input).run :=
  (onlyMoves_enterAll directories).bind fun _ => onlyMoves_readSource input

/-! ## One run -/

theorem runType_run (directories : List String) (input : Option String) (raw : Bool)
    (s : Session) :
    (do enterAll Session.host directories; runType Session.host input raw :
        Action (StateM Session) Unit).run.run s =
      match (readIn directories input).run.run s with
      | (.error failure, s') => (.error failure, s')
      | (.ok source, s') =>
        match parse source with
        | .error e => (.error ⟨none, .typeExpression e⟩, s')
        | .ok r => (.ok (), { s' with printed := s'.printed ++ typeText raw r }) := by
  rw [show runType Session.host input raw = readSource Session.host input >>= _ from rfl,
    ← bind_assoc]
  change StateT.run (ExceptT.run (readIn directories input >>= _)) s = _
  rw [Action.run_bind]
  cases (readIn directories input).run.run s with
  | mk result s' =>
      cases result with
      | error failure => rfl
      | ok source =>
          simp only [Action.run_bind]
          cases parse source with
          | error e => rfl
          | ok r => rfl

/-- A run that asks for a type prints it exactly if the input can be read and parsed. -/
theorem run_type (yaml : Yaml.Library) {arguments directories : List String}
    {input : Option String} {raw : Bool}
    (h : Request.ofArguments? arguments = some (.run ⟨directories, .type input raw⟩))
    (s : Session) :
    (run Session.host arguments yaml).run s =
      match (readIn directories input).run.run s with
      | (.error failure, s') => (1, s'.complaining failure.messages)
      | (.ok source, s') =>
        match parse source with
        | .error e => (1, s'.complaining e.messages)
        | .ok r => (0, { s' with printed := s'.printed ++ typeText raw r }) := by
  have hrun : run Session.host arguments yaml =
      Invocation.run yaml Session.host ⟨directories, .type input raw⟩ := by
    rw [run, h]
  rw [hrun, Invocation.run_eq]
  have hcommand := runType_run directories input raw s
  simp only [runCommand, hcommand]
  cases (readIn directories input).run.run s with
  | mk result s' =>
      cases result with
      | error failure => rfl
      | ok source => cases hparse : parse source <;> simp only [hparse] <;> rfl

/-! ## The output as input -/

def AsksForType (arguments : List String) : Prop :=
  ∃ directories input,
    Request.ofArguments? arguments = some (.run ⟨directories, .type input false⟩)

/-- The arguments ask for the strengthened type of a text that is found in a session, on the
standard input or in a file. -/
def ReadsType (arguments : List String) (s : Session) (text : String) : Prop :=
  ∃ directories input,
    Request.ofArguments? arguments = some (.run ⟨directories, .type input false⟩) ∧
      ((readIn directories input).run.run s).1 = .ok text

theorem readsType_input (s : Session) : ReadsType ["type"] s s.input :=
  ⟨[], none, rfl, rfl⟩

theorem ReadsType.run_eq {arguments : List String} {s : Session} {text : String}
    (h : ReadsType arguments s text) (yaml : Yaml.Library) :
    ∃ work, (run Session.host arguments yaml).run s =
      match parse text with
      | .error e => (1, { s with work }.complaining e.messages)
      | .ok r => (0, { s with work, printed := s.printed ++ typeText false r }) := by
  obtain ⟨directories, input, hrequest, hread⟩ := h
  obtain ⟨work, hwork⟩ := onlyMoves_readIn directories input s
  refine ⟨work, ?_⟩
  rw [run_type yaml hrequest s]
  cases hrun : (readIn directories input).run.run s with
  | mk result s' =>
      rw [hrun] at hread hwork
      cases hread
      cases hwork
      rfl

theorem ReadsType.run_ok {arguments : List String} {s : Session} {text : String}
    {r : RecordType} (h : ReadsType arguments s text) (yaml : Yaml.Library)
    (hparse : parse text = .ok r) :
    ((run Session.host arguments yaml).run s).1 = 0 ∧
      ((run Session.host arguments yaml).run s).2.printed = s.printed ++ typeText false r := by
  obtain ⟨work, hrun⟩ := h.run_eq yaml
  rw [hrun, hparse]
  exact ⟨rfl, rfl⟩

theorem ReadsType.run_error {arguments : List String} {s : Session} {text : String}
    (h : ReadsType arguments s text) (yaml : Yaml.Library)
    (hparse : ∃ e, parse text = .error e) :
    ((run Session.host arguments yaml).run s).1 = 1 := by
  obtain ⟨work, hrun⟩ := h.run_eq yaml
  obtain ⟨e, he⟩ := hparse
  rw [hrun, he]

theorem readsType_of_run {arguments : List String} {s : Session} {yaml : Yaml.Library}
    (harguments : AsksForType arguments)
    (hrun : ((run Session.host arguments yaml).run s).1 = 0) :
    ∃ source r, ReadsType arguments s source ∧ parse source = .ok r := by
  obtain ⟨directories, input, hrequest⟩ := harguments
  rw [run_type yaml hrequest s] at hrun
  cases hread : (readIn directories input).run.run s with
  | mk result s' =>
      rw [hread] at hrun
      cases result with
      | error failure => exact absurd hrun (by decide : (1 : UInt32) ≠ 0)
      | ok source =>
          have hreads : ReadsType arguments s source :=
            ⟨directories, input, hrequest, by rw [hread]⟩
          cases hparse : parse source with
          | error e =>
              simp only [hparse] at hrun
              exact absurd hrun (by decide : (1 : UInt32) ≠ 0)
          | ok r => exact ⟨source, r, hreads, hparse⟩

theorem typeText_strengthen (r : RecordType) : typeText false r.strengthen = typeText false r := by
  simp [typeText, RecordType.strengthen_strengthen]

theorem spells_typeText {source : String} {r : RecordType} (h : parse source = .ok r) :
    Spells (typeText false r).toList r.strengthen.lexemes :=
  r.strengthen.spells_line (TypeExpr.readable_of_parse h).strengthen 1

/-- A strengthened type is read back from its printed form, and printed again as it was, unless an
`image` record lies on the last level that literals may nest on. So the command accepts its own
output and prints it unchanged, with that one exception. -/
theorem type_repeats :
    (∀ source r, parse source = .ok r →
      (r.imageAtLimit = false → parse (r.strengthen.render 1) = .ok r.strengthen) ∧
      (r.imageAtLimit = true → ∃ e, parse (r.strengthen.render 1) = .error e) ∧
      r.strengthen.strengthen.render 1 = r.strengthen.render 1) ∧
    ∀ yaml arguments s, AsksForType arguments → ((run Session.host arguments yaml).run s).1 = 0 →
      ∃ source r, ReadsType arguments s source ∧ parse source = .ok r ∧
        ((run Session.host arguments yaml).run s).2.printed = s.printed ++ typeText false r ∧
        ∀ again s', ReadsType again s' (typeText false r) →
          (r.imageAtLimit = false →
            ((run Session.host again yaml).run s').1 = 0 ∧
              ((run Session.host again yaml).run s').2.printed = s'.printed ++ typeText false r) ∧
          (r.imageAtLimit = true → ((run Session.host again yaml).run s').1 = 1) := by
  constructor
  · intro source r hparse
    have hspells := r.strengthen.spells_render (TypeExpr.readable_of_parse hparse).strengthen 1
    refine ⟨TypeExpr.parse_strengthened hparse hspells,
      TypeExpr.parse_strengthened_at_limit hparse hspells, ?_⟩
    rw [RecordType.strengthen_strengthen]
  · intro yaml arguments s harguments hrun
    obtain ⟨source, r, hreads, hparse⟩ := readsType_of_run harguments hrun
    have hspells := spells_typeText hparse
    refine ⟨source, r, hreads, hparse, (hreads.run_ok yaml hparse).2, fun again s' hagain => ?_⟩
    constructor
    · intro hlimit
      have hsecond := hagain.run_ok yaml (TypeExpr.parse_strengthened hparse hspells hlimit)
      rwa [typeText_strengthen] at hsecond
    · intro hlimit
      exact hagain.run_error yaml (TypeExpr.parse_strengthened_at_limit hparse hspells hlimit)

/-- The command accepts a text and refuses what it printed for it. -/
def FailsOnOwnOutput (source : String) : Prop :=
  let first := (run Session.host ["type"]).run (Session.start [] [] source)
  let second := (run Session.host ["type"]).run (Session.start [] [] first.2.printed)
  first.1 = 0 ∧ second.1 = 1

theorem failsOnOwnOutput_of_imageAtLimit {source : String} {r : RecordType}
    (hparse : parse source = .ok r) (hlimit : r.imageAtLimit = true) :
    FailsOnOwnOutput source := by
  have hreads := readsType_input (Session.start [] [] source)
  obtain ⟨hcode, hprinted⟩ := hreads.run_ok Yaml.flow hparse
  refine ⟨hcode, ?_⟩
  have hagain := readsType_input (Session.start [] [] (typeText false r))
  have herror := TypeExpr.parse_strengthened_at_limit hparse (spells_typeText hparse) hlimit
  have hstart : (Session.start [] [] source).printed = "" := rfl
  rw [hstart, String.empty_append] at hprinted
  rw [hprinted]
  exact hagain.run_error Yaml.flow herror

theorem type_fails_on_own_output :
    parse (deepestImage.render 1) = .ok deepestImage ∧
      parse (deepestImage.strengthen.render 1) ≠ .ok deepestImage.strengthen ∧
      FailsOnOwnOutput (deepestImage.render 1) := by
  have hparse := TypeExpr.parse_deepestImage
  have hlimit := TypeExpr.imageAtLimit_deepestImage
  exact ⟨hparse, TypeExpr.render_strengthen_unreadable 1 hparse hlimit,
    failsOnOwnOutput_of_imageAtLimit hparse hlimit⟩

end ManifestTypes.Cli
