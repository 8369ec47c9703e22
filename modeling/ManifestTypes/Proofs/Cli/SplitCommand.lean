import ManifestTypes.Proofs.Cli.Files
import ManifestTypes.Proofs.Cli.TypeCommand
import ManifestTypes.Proofs.Keyed.Gathering

/-!
# Writing the resources of a record

What the command `split` leaves in the files of a session. A resource is lost where another one is
written to its file later.
-/

namespace ManifestTypes.Cli

open Manifest (Resource ResourceSet)

/-! ## Sessions that grow -/

/-- The work directory is the same, and nothing is lost but texts of files in some locations. -/
def Session.Grown (written : Location → Prop) (s s' : Session) : Prop :=
  s'.work = s.work ∧ s.tree.Grown written s'.tree

namespace Session.Grown

theorem refl (written : Location → Prop) (s : Session) : Session.Grown written s s :=
  ⟨rfl, .refl written s.tree⟩

theorem trans {written : Location → Prop} {s s' s'' : Session} (h : Session.Grown written s s')
    (h' : Session.Grown written s' s'') : Session.Grown written s s'' :=
  ⟨h'.1.trans h.1, h.2.trans h'.2⟩

theorem mono {written written' : Location → Prop} {s s' : Session}
    (h : Session.Grown written s s') (himp : ∀ l, written l → written' l) :
    Session.Grown written' s s' :=
  ⟨h.1, h.2.mono himp⟩

end Session.Grown

def OnlyMakes {α : Type} (operation : StateM Session α) : Prop :=
  ∀ s, Session.Grown (fun _ => False) s (operation.run s).2

theorem onlyMakes_pure {α : Type} (a : α) : OnlyMakes (pure a : StateM Session α) :=
  fun s => .refl _ s

theorem OnlyMakes.bind {α β : Type} {x : StateM Session α} {f : α → StateM Session β}
    (hx : OnlyMakes x) (hf : ∀ a, OnlyMakes (f a)) : OnlyMakes (x >>= f) := by
  intro s
  rw [StateT.run_bind]
  exact (hx s).trans (hf (x.run s).1 (x.run s).2)

theorem onlyMakes_makeDirectory (path : String) :
    OnlyMakes (Session.host.makeDirectory path) := by
  intro s
  simp only [Session.host, Session.change, StateT.run_bind, StateT.run_get, pure_bind]
  cases hmake : s.tree.makeDirectory s.work path with
  | error e => exact .refl _ s
  | ok tree => exact ⟨rfl, FileTree.grown_makeDirectory hmake⟩

theorem onlyMakes_isDirectory (path : String) : OnlyMakes (Session.host.isDirectory path) :=
  fun s => .refl _ s

theorem onlyMakes_ensureDirectory (path : String) :
    OnlyMakes (Session.host.ensureDirectory path) := by
  refine (onlyMakes_makeDirectory path).bind fun result => ?_
  split
  · refine (onlyMakes_isDirectory path).bind fun there => ?_
    cases there <;> exact onlyMakes_pure _
  · exact onlyMakes_pure _

theorem onlyMakes_ensureDirectories (paths : List String) :
    OnlyMakes (Session.host.ensureDirectories paths) := by
  induction paths with
  | nil => exact onlyMakes_pure _
  | cons path outer ih =>
      refine (onlyMakes_ensureDirectory path).bind fun result => ?_
      split
      · refine ih.bind fun made => ?_
        split
        · exact onlyMakes_ensureDirectory path
        · exact onlyMakes_pure _
      · exact onlyMakes_pure _

theorem onlyMakes_makeDirectories (path : String) :
    OnlyMakes (Session.host.makeDirectories path) := by
  rw [Host.makeDirectories]
  split
  · exact onlyMakes_pure _
  · exact onlyMakes_ensureDirectories _

/-! ## One resource -/

variable (yaml : Yaml.Library)

def filePath (outputDir : String) (r : Resource) : String :=
  joinPath (joinPath outputDir r.component) r.fileName

/-- Where the path of the file of a resource leads from a work directory. -/
def fileLocation (work : Location) (outputDir : String) (r : Resource) : Location :=
  leadsTo work (filePath outputDir r)

/-- The file of a resource holds its own manifest. -/
def HoldsFile (outputDir : String) (r : Resource) (s : Session) : Prop :=
  s.tree.text s.work (filePath outputDir r) = .ok (yaml.write r.contents)

theorem HoldsFile.grown {yaml : Yaml.Library} {outputDir : String} {r : Resource}
    {written : Location → Prop} {s s' : Session} (h : HoldsFile yaml outputDir r s)
    (hgrown : Session.Grown written s s') (hfile : ¬ written (fileLocation s.work outputDir r)) :
    HoldsFile yaml outputDir r s' := by
  rw [HoldsFile, hgrown.1]
  exact hgrown.2.text_eq h hfile

theorem writeResource_run (outputDir : String) (r : Resource) (s : Session) :
    let outcome := (writeResource yaml Session.host outputDir r).run.run s
    Session.Grown (· = fileLocation s.work outputDir r) s outcome.2 ∧
      (outcome.1 = .ok () → HoldsFile yaml outputDir r outcome.2) := by
  have hmade := onlyMakes_makeDirectories (joinPath outputDir r.component) s
  rw [writeResource, Action.run_bind, attempt_run]
  cases hrun : (Session.host.makeDirectories (joinPath outputDir r.component)).run s with
  | mk result s₁ =>
      rw [hrun] at hmade
      cases result with
      | error e => exact ⟨hmade.mono fun _ h => h.elim, fun h => by cases h⟩
      | ok _ =>
          simp only [attempt_run, Session.host, Session.change, StateT.run_bind, StateT.run_get,
            pure_bind]
          cases hwrite : s₁.tree.write s₁.work (joinPath (joinPath outputDir r.component) r.fileName)
              (yaml.write r.contents) with
          | error e => exact ⟨hmade.mono fun _ h => h.elim, fun h => by cases h⟩
          | ok tree =>
              obtain ⟨hgrown, htext⟩ := FileTree.text_write hwrite
              refine ⟨(hmade.mono fun _ h => h.elim).trans ⟨rfl, ?_⟩, fun _ => htext⟩
              rwa [hmade.1] at hgrown

/-! ## One resource after the other -/

def writeAll (outputDir : String) (resources : List Resource) : Action (StateM Session) Unit :=
  resources.forM (writeResource yaml Session.host outputDir)

theorem writeAll_cons (outputDir : String) (r : Resource) (rest : List Resource) :
    writeAll yaml outputDir (r :: rest) =
      writeResource yaml Session.host outputDir r >>= fun _ => writeAll yaml outputDir rest :=
  rfl

theorem writeAll_cons_run {yaml : Yaml.Library} {outputDir : String} {r : Resource}
    {s s' : Session}
    (h : (writeResource yaml Session.host outputDir r).run.run s = (.ok (), s'))
    (rest : List Resource) :
    (writeAll yaml outputDir (r :: rest)).run.run s = (writeAll yaml outputDir rest).run.run s' := by
  rw [writeAll_cons, Action.run_bind, h]

theorem writeAll_append (outputDir : String) (before after : List Resource) :
    writeAll yaml outputDir (before ++ after) =
      writeAll yaml outputDir before >>= fun _ => writeAll yaml outputDir after := by
  simp only [writeAll, List.forM_eq_forM, List.forM_append]

/-- Writing resources loses nothing but texts of their own files. -/
theorem writeAll_grown (outputDir : String) (resources : List Resource) (s : Session) :
    Session.Grown (fun l => ∃ r ∈ resources, fileLocation s.work outputDir r = l) s
      ((writeAll yaml outputDir resources).run.run s).2 := by
  induction resources generalizing s with
  | nil => exact .refl _ s
  | cons r rest ih =>
      have hfirst := (writeResource_run yaml outputDir r s).1
      rw [writeAll_cons, Action.run_bind]
      cases hrun : (writeResource yaml Session.host outputDir r).run.run s with
      | mk result s₁ =>
          rw [hrun] at hfirst
          have hgrown : Session.Grown
              (fun l => ∃ r' ∈ r :: rest, fileLocation s.work outputDir r' = l) s s₁ :=
            hfirst.mono fun l hl => ⟨r, List.mem_cons_self, hl.symm⟩
          cases result with
          | error e => exact hgrown
          | ok _ =>
              refine hgrown.trans ((ih s₁).mono ?_)
              rintro l ⟨r', hr', hl⟩
              exact ⟨r', List.mem_cons_of_mem _ hr', hfirst.1 ▸ hl⟩

/-- The resources are written one after the other without a failure. -/
def WritesAll (outputDir : String) (resources : List Resource) (s : Session) : Prop :=
  ((writeAll yaml outputDir resources).run.run s).1 = .ok ()

variable {yaml}

/-- What is written after some resources starts from where they end. -/
theorem WritesAll.run_append {outputDir : String} {before : List Resource} {s : Session}
    (h : WritesAll yaml outputDir before s) (after : List Resource) :
    (writeAll yaml outputDir (before ++ after)).run.run s =
      (writeAll yaml outputDir after).run.run ((writeAll yaml outputDir before).run.run s).2 := by
  rw [writeAll_append, Action.run_bind]
  cases hrun : (writeAll yaml outputDir before).run.run s with
  | mk result s₁ =>
      rw [WritesAll, hrun] at h
      cases h
      rfl

theorem WritesAll.of_append {outputDir : String} {before after : List Resource} {s : Session}
    (h : WritesAll yaml outputDir (before ++ after) s) : WritesAll yaml outputDir before s := by
  rw [WritesAll, writeAll_append, Action.run_bind] at h
  rw [WritesAll]
  cases hrun : (writeAll yaml outputDir before).run.run s with
  | mk result s₁ =>
      rw [hrun] at h
      cases result with
      | error e => cases h
      | ok _ => rfl

/-- Of the resources that are written to one file the last one is left in it. -/
theorem holdsFile_of_last {outputDir : String} {before after : List Resource} {r : Resource}
    {s : Session} (hwritten : WritesAll yaml outputDir (before ++ [r]) s)
    (hlast : ∀ r' ∈ after, fileLocation s.work outputDir r' ≠ fileLocation s.work outputDir r) :
    HoldsFile yaml outputDir r ((writeAll yaml outputDir (before ++ r :: after)).run.run s).2 := by
  have hbefore : WritesAll yaml outputDir before s := hwritten.of_append
  have hwork₁ := (writeAll_grown yaml outputDir before s).1
  rw [WritesAll, hbefore.run_append] at hwritten
  rw [hbefore.run_append]
  generalize ((writeAll yaml outputDir before).run.run s).2 = s₁ at hwork₁ hwritten ⊢
  obtain ⟨hgrown, hholds⟩ := writeResource_run yaml outputDir r s₁
  rw [writeAll_cons, Action.run_bind] at hwritten ⊢
  cases hrun : (writeResource yaml Session.host outputDir r).run.run s₁ with
  | mk result s₂ =>
      rw [hrun] at hwritten hgrown hholds
      cases result with
      | error e => cases hwritten
      | ok _ =>
          have hwork : s₂.work = s.work := hgrown.1.trans hwork₁
          refine (hholds rfl).grown (writeAll_grown yaml outputDir after s₂) ?_
          rintro ⟨r', hr', hl⟩
          rw [hwork] at hl
          exact hlast r' hr' hl

/-- The resource that is written last to the location of another one. -/
def lastWritten (work : Location) (outputDir : String) (resources : List Resource)
    (r : Resource) : Option Resource :=
  (resources.filter fun r' =>
    fileLocation work outputDir r' == fileLocation work outputDir r).getLast?

theorem exists_lastWritten {resources : List Resource} {r : Resource} (hr : r ∈ resources)
    (work : Location) (outputDir : String) :
    ∃ last, lastWritten work outputDir resources r = some last := by
  have hmem : r ∈ resources.filter fun r' =>
      fileLocation work outputDir r' == fileLocation work outputDir r :=
    List.mem_filter.mpr ⟨hr, beq_self_eq_true _⟩
  exact ⟨_, List.getLast?_eq_some_getLast (List.ne_nil_of_mem hmem)⟩

section Written

variable {outputDir : String} {resources : List Resource} {s : Session}

/-- A resource that was written has some text in its file when all are. -/
theorem WritesAll.exists_text (h : WritesAll yaml outputDir resources s) {r : Resource}
    (hr : r ∈ resources) :
    ∃ text, ((writeAll yaml outputDir resources).run.run s).2.tree.text s.work
      (filePath outputDir r) = .ok text := by
  obtain ⟨before, after, rfl⟩ := List.append_of_mem hr
  rw [List.append_cons] at h ⊢
  have hwritten : WritesAll yaml outputDir (before ++ [r]) s := h.of_append
  have hholds := holdsFile_of_last hwritten fun r' hr' => absurd hr' List.not_mem_nil
  have hwork := (writeAll_grown yaml outputDir (before ++ [r]) s).1
  rw [HoldsFile, hwork] at hholds
  rw [hwritten.run_append]
  exact (writeAll_grown yaml outputDir after _).2.exists_text hholds

/-- A resource is found in its file exactly if the last one written there looks the same. -/
theorem WritesAll.holdsFile_iff (h : WritesAll yaml outputDir resources s) {r last : Resource}
    (hr : r ∈ resources) (hlast : lastWritten s.work outputDir resources r = some last) :
    HoldsFile yaml outputDir r ((writeAll yaml outputDir resources).run.run s).2 ↔
      yaml.write last.contents = yaml.write r.contents := by
  obtain ⟨text, htext⟩ := h.exists_text hr
  obtain ⟨before, after, rfl, hsame, hafter⟩ := Keyed.exists_of_getLast?_filter hlast
  have hsame : fileLocation s.work outputDir last = fileLocation s.work outputDir r :=
    beq_iff_eq.mp hsame
  have hholds : HoldsFile yaml outputDir last
      ((writeAll yaml outputDir (before ++ last :: after)).run.run s).2 := by
    rw [List.append_cons] at h
    refine holdsFile_of_last h.of_append fun r' hr' heq => hafter r' hr' ?_
    exact beq_iff_eq.mpr (heq.trans hsame)
  have hwork := (writeAll_grown yaml outputDir (before ++ last :: after) s).1
  rw [HoldsFile, hwork] at hholds
  rw [HoldsFile, hwork, htext, Except.ok.injEq,
    FileTree.text_eq_of_leadsTo_eq htext hholds hsame.symm]

/-- Where the files are apart, what is written stays in them, also if the writing fails later. -/
theorem WritesAll.holdsFile_of_nodup {rest : List Resource}
    (h : WritesAll yaml outputDir resources s)
    (hlocations : ((resources ++ rest).map (fileLocation s.work outputDir)).Nodup)
    {r : Resource} (hr : r ∈ resources) :
    HoldsFile yaml outputDir r ((writeAll yaml outputDir (resources ++ rest)).run.run s).2 := by
  obtain ⟨before, after, rfl⟩ := List.append_of_mem hr
  rw [List.append_cons] at h
  rw [List.append_assoc, List.cons_append] at hlocations ⊢
  refine holdsFile_of_last h.of_append fun r' hr' hsame => ?_
  rw [List.map_append, List.map_cons] at hlocations
  have hfresh := (List.nodup_cons.mp (List.nodup_append.mp hlocations).2.1).1
  exact hfresh (hsame ▸ List.mem_map_of_mem hr')

end Written

/-! ## One run -/

/-- A run that splits a record into files writes the resources of it in their order. -/
theorem run_split {arguments directories : List String} {input : Option String}
    {outputDir source : String} {c c₀ : Session} {v : Value} {resources : ResourceSet}
    (hrequest : Request.ofArguments? arguments =
      some (.run ⟨directories, .split input (some outputDir)⟩))
    (hread : (readIn directories input).run.run c = (.ok source, c₀))
    (hvalue : yaml.value source = .ok v) (hsplit : ResourceSet.ofRecord v = .ok resources) :
    (run Session.host arguments yaml).run c =
      match (writeAll yaml outputDir resources.resources).run.run c₀ with
      | (.ok (), c') => (0, c')
      | (.error failure, c') => (1, c'.complaining failure.messages) := by
  have hcommand :
      (do enterAll Session.host directories; runSplit yaml Session.host input (some outputDir) :
        Action (StateM Session) Unit).run.run c =
        (writeAll yaml outputDir resources.resources).run.run c₀ := by
    rw [show runSplit yaml Session.host input (some outputDir) =
      readSource Session.host input >>= _ from rfl, ← bind_assoc]
    change StateT.run (ExceptT.run (readIn directories input >>= _)) c = _
    rw [Action.run_bind, hread]
    change (require none .yaml (yaml.value source) >>= fun record =>
      require none .manifest (ResourceSet.ofRecord record) >>= fun resources =>
        writeAll yaml outputDir resources.resources).run.run c₀ = _
    have hrecord : require none .yaml (yaml.value source) =
        (pure v : Action (StateM Session) Value) := by
      rw [hvalue]
      rfl
    have hresources : require none .manifest (ResourceSet.ofRecord v) =
        (pure resources : Action (StateM Session) ResourceSet) := by
      rw [hsplit]
      rfl
    rw [hrecord, pure_bind, hresources, pure_bind]
  have hrun := Invocation.run_eq yaml ⟨directories, .split input (some outputDir)⟩ c
  simp only [runCommand, hcommand] at hrun
  rw [run, hrequest]
  exact hrun

/-- Whether the run ends well and what is in the files is settled by the writing. -/
theorem run_split_files {arguments directories : List String} {input : Option String}
    {outputDir source : String} {c c₀ : Session} {v : Value} {resources : ResourceSet}
    (hrequest : Request.ofArguments? arguments =
      some (.run ⟨directories, .split input (some outputDir)⟩))
    (hread : (readIn directories input).run.run c = (.ok source, c₀))
    (hvalue : yaml.value source = .ok v) (hsplit : ResourceSet.ofRecord v = .ok resources) :
    let outcome := (run Session.host arguments yaml).run c
    let written := (writeAll yaml outputDir resources.resources).run.run c₀
    (outcome.1 = 0 ↔ WritesAll yaml outputDir resources.resources c₀) ∧
      ∀ r, HoldsFile yaml outputDir r outcome.2 ↔ HoldsFile yaml outputDir r written.2 := by
  dsimp only
  rw [run_split hrequest hread hvalue hsplit, WritesAll]
  generalize (writeAll yaml outputDir resources.resources).run.run c₀ = written
  cases written with
  | mk result c' =>
      cases result with
      | ok _ => exact ⟨by simp, fun _ => Iff.rfl⟩
      | error failure => exact ⟨by simp, fun _ => Iff.rfl⟩

end ManifestTypes.Cli
