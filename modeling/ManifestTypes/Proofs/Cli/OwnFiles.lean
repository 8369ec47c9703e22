import Mathlib
import ManifestTypes.Proofs.Cli.SplitCommand
import ManifestTypes.Proofs.Manifest.FileNames

/-!
# Files of their own

When the resources of a record are written to different files, and what is lost otherwise.
-/

namespace ManifestTypes.Cli

open Manifest (Resource ResourceSet)

/-- The component of the resource is the name of a directory, and neither its kind nor its name
leads into another one. -/
structure IsPlain (r : Resource) : Prop where
  component : IsName r.component
  kind : '/' ∉ r.kind.toList
  name : '/' ∉ r.name.toList

instance (name : String) : Decidable (IsName name) :=
  decidable_of_iff (staysInPlace name = false ∧ name ≠ ".." ∧ '/' ∉ name.toList)
    ⟨fun ⟨hmoves, hdown, hwhole⟩ => ⟨hmoves, hdown, hwhole⟩,
      fun h => ⟨h.moves, h.down, h.whole⟩⟩

instance (r : Resource) : Decidable (IsPlain r) :=
  decidable_of_iff (IsName r.component ∧ '/' ∉ r.kind.toList ∧ '/' ∉ r.name.toList)
    ⟨fun ⟨hcomponent, hkind, hname⟩ => ⟨hcomponent, hkind, hname⟩,
      fun h => ⟨h.component, h.kind, h.name⟩⟩

theorem IsPlain.fileName {r : Resource} (h : IsPlain r) : IsName r.fileName := by
  have htext : r.fileName.toList =
      r.component.toList ++ '.' :: (r.kind.toList ++ '.' :: (r.name.toList ++ ".yaml".toList)) := by
    rw [r.fileName_eq]
    simp [String.toList_append]
  have hlong : ∀ text : String, text.length ≤ 2 → r.fileName ≠ text := by
    rintro _ hshort rfl
    rw [← String.length_toList, htext] at hshort
    simp at hshort
    omega
  refine ⟨?_, hlong ".." (by decide), ?_⟩
  · simp [staysInPlace, hlong "" (by decide), hlong "." (by decide)]
  · rw [htext]
    simp [h.component.whole, h.kind, h.name]

/-- Plain resources are written to different files exactly if these are called differently or lie
in the directories of different components. -/
theorem nodup_fileLocations_iff {resources : List Resource} (h : ∀ r ∈ resources, IsPlain r)
    (work : Location) (outputDir : String) :
    (resources.map (fileLocation work outputDir)).Nodup ↔
      (resources.map Resource.filePlace).Nodup := by
  obtain ⟨l, hl⟩ := leadsTo_joinPath work outputDir
  have hlocations : resources.map (fileLocation work outputDir) =
      (resources.map Resource.filePlace).map fun place => l ++ [place.1, place.2] := by
    rw [List.map_map]
    exact List.map_congr_left fun r hr => hl (h r hr).component (h r hr).fileName
  rw [hlocations]
  refine List.nodup_map_iff fun place place' hsame => ?_
  simpa [Prod.ext_iff] using hsame

/-- The pairs of component and name of the file are different for all resources of a record exactly
if no dot moves between the kind and the name of two of them, for which some kind must hold a dot.
They then lead to different files if the component, the kind and the name of each lead nowhere else.
When a run is over that ends well, the text of the last resource that was written to a file is in
it, and every other one is lost unless it looks the same. Where all files are different none is
lost, also if the run fails. -/
theorem split_keeps_files (yaml : Yaml.Library) {v : Value} (hv : v.Distinct)
    {resources : ResourceSet} (hsplit : ResourceSet.ofRecord v = .ok resources) :
    let all := resources.resources
    ((all.map Resource.filePlace).Nodup ↔ ∀ r ∈ all, ∀ r' ∈ all, ¬ r.MovesDot r') ∧
    ((∀ r ∈ all, '.' ∉ r.kind.toList) → (all.map Resource.filePlace).Nodup) ∧
    ((∀ r ∈ all, IsPlain r) → ∀ work outputDir,
      (all.map (fileLocation work outputDir)).Nodup ↔ (all.map Resource.filePlace).Nodup) ∧
    ∀ arguments directories input outputDir c source c₀,
      Request.ofArguments? arguments =
        some (.run ⟨directories, .split input (some outputDir)⟩) →
      (readIn directories input).run.run c = (.ok source, c₀) →
      yaml.value source = .ok v →
      let outcome := (run Session.host arguments yaml).run c
      (outcome.1 = 0 ↔ WritesAll yaml outputDir all c₀) ∧
      (outcome.1 = 0 → ∀ r ∈ all, ∃ last, lastWritten c₀.work outputDir all r = some last ∧
        (HoldsFile yaml outputDir r outcome.2 ↔
          yaml.write last.contents = yaml.write r.contents)) ∧
      ((all.map (fileLocation c₀.work outputDir)).Nodup →
        ∀ done rest, all = done ++ rest → WritesAll yaml outputDir done c₀ →
          ∀ r ∈ done, HoldsFile yaml outputDir r outcome.2) := by
  intro all
  have hplaces : (all.map Resource.filePlace).Nodup ↔ ∀ r ∈ all, ∀ r' ∈ all, ¬ r.MovesDot r' :=
    Manifest.nodup_filePlaces_iff (Manifest.nodup_places_ofRecord hv hsplit)
  refine ⟨hplaces, ?kinds, nodup_fileLocations_iff, ?run⟩
  case kinds =>
    intro hkinds
    exact hplaces.mpr fun r _ r' hr' hmoves => hkinds r' hr' hmoves.dot_mem_kind
  case run =>
    intro arguments directories input outputDir c source c₀ hrequest hread hvalue outcome
    obtain ⟨hcode, hfiles⟩ := run_split_files hrequest hread hvalue hsplit
    refine ⟨hcode, fun hzero r hr => ?_, fun hlocations done rest hall hwritten r hr => ?_⟩
    · obtain ⟨last, hlast⟩ := exists_lastWritten hr c₀.work outputDir
      exact ⟨last, hlast, (hfiles r).trans ((hcode.mp hzero).holdsFile_iff hr hlast)⟩
    · rw [hfiles, show resources.resources = done ++ rest from hall]
      rw [hall] at hlocations
      exact hwritten.holdsFile_of_nodup hlocations hr

/-! ## Records on the standard input -/

theorem distinct_of_value {yaml : Yaml.Library} {source : String} {v : Value}
    (h : yaml.value source = .ok v) : v.Distinct := by
  rw [Yaml.Library.value] at h
  cases hnode : yaml.document source with
  | error message => rw [hnode] at h; cases h
  | ok node =>
      rw [hnode] at h
      change (Value.ofNode node).mapError ValueError.message = .ok v at h
      cases hvalue : Value.ofNode node with
      | error e => rw [hvalue] at h; cases h
      | ok w =>
          rw [hvalue] at h
          cases h
          exact Value.distinct_ofNode hvalue

def SplitsInto (source : String) (resources : List Resource) : Prop :=
  ∃ v s, Yaml.flow.value source = .ok v ∧ ResourceSet.ofRecord v = .ok s ∧
    s.resources = resources

def sessionWith (source : String) (directories : List Location) (files : Keyed Location String) :
    Session :=
  ⟨⟨directories, files⟩, [], source, "", ""⟩

def splitRun (source : String) : UInt32 × Session :=
  (run Session.host ["split", "-o", "out"]).run (sessionWith source [] [])

theorem splitRun_eq {source : String} {resources : List Resource} {c : Session}
    (h : SplitsInto source resources)
    (hwritten : (writeAll Yaml.flow "out" resources).run.run (sessionWith source [] []) =
      (.ok (), c)) :
    splitRun source = (0, c) := by
  obtain ⟨v, s, hvalue, hsplit, rfl⟩ := h
  have hrequest : Request.ofArguments? ["split", "-o", "out"] =
      some (.run ⟨[], .split none (some "out")⟩) := rfl
  have hread : (readIn [] none).run.run (sessionWith source [] []) =
      (.ok source, sessionWith source [] []) := rfl
  rw [splitRun, run_split hrequest hread hvalue hsplit, hwritten]

def versioned (component kind name version : String) : Resource :=
  ⟨kind, version, name, component, .object [("apiVersion", .string version)]⟩

def dottedNames : List Resource :=
  [versioned "web" "Service" "front.end" "v1", versioned "web" "Service" "end" "v2"]

def dottedNamesSource : String :=
  "\x7bweb: \x7bService: \x7bfront.end: \x7bapiVersion: v1\x7d, " ++
    "end: \x7bapiVersion: v2\x7d\x7d\x7d\x7d"

theorem writeAll_dottedNames :
    (writeAll Yaml.flow "out" dottedNames).run.run (sessionWith dottedNamesSource [] []) =
      (.ok (), sessionWith dottedNamesSource [["out"], ["out", "web"]]
        [(["out", "web", "web.Service.front.end.yaml"], "apiVersion: v1\n"),
          (["out", "web", "web.Service.end.yaml"], "apiVersion: v2\n")]) := by
  have hfirst : (writeResource Yaml.flow Session.host "out"
      (versioned "web" "Service" "front.end" "v1")).run.run
        (sessionWith dottedNamesSource [] []) =
        (.ok (), sessionWith dottedNamesSource [["out"], ["out", "web"]]
          [(["out", "web", "web.Service.front.end.yaml"], "apiVersion: v1\n")]) := rfl
  rw [dottedNames, writeAll_cons_run hfirst]
  exact writeAll_cons_run rfl []

/-- A run on the record of these services, whose files are apart. -/
theorem split_keeps_files_dottedNames :
    ∃ v s, v.Distinct ∧ ResourceSet.ofRecord v = .ok s ∧ s.resources = dottedNames ∧
      Yaml.flow.value dottedNamesSource = .ok v ∧
      (∀ r ∈ dottedNames, '.' ∉ r.kind.toList ∧ IsPlain r) ∧
      (dottedNames.map Resource.filePlace).Nodup ∧
      (splitRun dottedNamesSource).1 = 0 ∧
      ∀ r ∈ dottedNames, HoldsFile Yaml.flow "out" r (splitRun dottedNamesSource).2 := by
  have hvalue : Yaml.flow.value dottedNamesSource =
      .ok (ResourceSet.ofList dottedNames).record := by
    cbv
  have hdistinct := distinct_of_value hvalue
  have hsplit : ResourceSet.ofRecord (ResourceSet.ofList dottedNames).record =
      .ok (ResourceSet.ofList dottedNames) := rfl
  obtain ⟨-, hkinds, hplain, hrun⟩ := split_keeps_files Yaml.flow hdistinct hsplit
  have hnames : ∀ r ∈ dottedNames, '.' ∉ r.kind.toList ∧ IsPlain r := by decide
  have hplaces := hkinds fun r hr => (hnames r hr).1
  have hlocations := (hplain (fun r hr => (hnames r hr).2) [] "out").mpr hplaces
  have hall : WritesAll Yaml.flow "out" dottedNames (sessionWith dottedNamesSource [] []) :=
    congrArg Prod.fst writeAll_dottedNames
  obtain ⟨hcode, -, hfiles⟩ := hrun ["split", "-o", "out"] [] none "out"
    (sessionWith dottedNamesSource [] []) dottedNamesSource _ rfl rfl hvalue
  exact ⟨_, _, hdistinct, hsplit, rfl, hvalue, hnames, hplaces, hcode.mpr hall,
    hfiles hlocations _ [] (List.append_nil _).symm hall⟩

/-! ## Files that are lost -/

/-- A run on a record of these resources ends well, but the file of one of them holds another
manifest. -/
def Overwrites (source : String) (resources : List Resource) : Prop :=
  SplitsInto source resources ∧ (splitRun source).1 = 0 ∧
    ∃ r ∈ resources, ¬ HoldsFile Yaml.flow "out" r (splitRun source).2

theorem overwrites_of_text {source text : String} {r : Resource} {rest : List Resource}
    {c : Session} (h : SplitsInto source (r :: rest))
    (hwritten : (writeAll Yaml.flow "out" (r :: rest)).run.run (sessionWith source [] []) =
      (.ok (), c))
    (htext : c.tree.text c.work (filePath "out" r) = .ok text)
    (hother : text ≠ Yaml.flow.write r.contents) : Overwrites source (r :: rest) := by
  have hrun := splitRun_eq h hwritten
  refine ⟨h, by rw [hrun], r, List.mem_cons_self, fun hholds => ?_⟩
  rw [hrun, HoldsFile, htext] at hholds
  exact hother (Except.ok.inj hholds)

/-- Two resources of which the first has in its kind what the second has in its name. -/
def dottedKinds : List Resource :=
  [versioned "web" "a.b" "c" "v1", versioned "web" "a" "b.c" "v2"]

def dottedKindsSource : String :=
  "\x7bweb: \x7ba.b: \x7bc: \x7bapiVersion: v1\x7d\x7d, a: \x7bb.c: \x7bapiVersion: v2\x7d\x7d\x7d\x7d"

theorem writeAll_dottedKinds :
    (writeAll Yaml.flow "out" dottedKinds).run.run (sessionWith dottedKindsSource [] []) =
      (.ok (), sessionWith dottedKindsSource [["out"], ["out", "web"]]
        [(["out", "web", "web.a.b.c.yaml"], "apiVersion: v2\n")]) := by
  have hfirst : (writeResource Yaml.flow Session.host "out"
      (versioned "web" "a.b" "c" "v1")).run.run (sessionWith dottedKindsSource [] []) =
        (.ok (), sessionWith dottedKindsSource [["out"], ["out", "web"]]
          [(["out", "web", "web.a.b.c.yaml"], "apiVersion: v1\n")]) := rfl
  rw [dottedKinds, writeAll_cons_run hfirst]
  exact writeAll_cons_run rfl []

def sameDirectory : List Resource :=
  [versioned "web" "Service" "front" "v1", versioned "./web" "Service" "front" "v2"]

def sameDirectorySource : String :=
  "\x7bweb: \x7bService: \x7bfront: \x7bapiVersion: v1\x7d\x7d\x7d, " ++
    "./web: \x7bService: \x7bfront: \x7bapiVersion: v2\x7d\x7d\x7d\x7d"

theorem writeAll_sameDirectory :
    (writeAll Yaml.flow "out" sameDirectory).run.run (sessionWith sameDirectorySource [] []) =
      (.ok (), sessionWith sameDirectorySource [["out"], ["out", "web"]]
        [(["out", "web", "web.Service.front.yaml"], "apiVersion: v2\n")]) := by
  have hfirst : (writeResource Yaml.flow Session.host "out"
      (versioned "web" "Service" "front" "v1")).run.run (sessionWith sameDirectorySource [] []) =
        (.ok (), sessionWith sameDirectorySource [["out"], ["out", "web"]]
          [(["out", "web", "web.Service.front.yaml"], "apiVersion: v1\n")]) := rfl
  rw [sameDirectory, writeAll_cons_run hfirst]
  exact writeAll_cons_run rfl []

/-- Where a kind holds a dot, two resources can have one pair of component and name of the file, and
the first of them is lost. It is lost also where the pairs differ but lead to one file. -/
theorem split_overwrites :
    (Overwrites dottedKindsSource dottedKinds ∧
      ¬ (dottedKinds.map Resource.filePlace).Nodup) ∧
    Overwrites sameDirectorySource sameDirectory ∧
      (sameDirectory.map Resource.filePlace).Nodup := by
  have hother (component kind name : String) : "apiVersion: v2\n" ≠
      Yaml.flow.write (versioned component kind name "v1").contents := by
    have hwrite : Yaml.flow.write (versioned component kind name "v1").contents =
        "apiVersion: v1\n" := rfl
    rw [hwrite]
    decide
  have hkinds : Yaml.flow.value dottedKindsSource =
      .ok (ResourceSet.ofList dottedKinds).record := by
    cbv
  have hdirectory : Yaml.flow.value sameDirectorySource =
      .ok (ResourceSet.ofList sameDirectory).record := by
    cbv
  have hfirst : Overwrites dottedKindsSource dottedKinds :=
    overwrites_of_text ⟨_, _, hkinds, rfl, rfl⟩ writeAll_dottedKinds rfl (hother _ _ _)
  have hsecond : Overwrites sameDirectorySource sameDirectory :=
    overwrites_of_text ⟨_, _, hdirectory, rfl, rfl⟩ writeAll_sameDirectory rfl (hother _ _ _)
  exact ⟨⟨hfirst, by decide⟩, hsecond, by decide⟩

end ManifestTypes.Cli
