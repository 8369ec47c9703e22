import ManifestTypes.Cli.FileTree

/-!
# Where paths lead

A path that can be followed leads to a location that its names alone decide. Different names of
one file below a directory lead to different locations.
-/

namespace ManifestTypes

/-! ## Parts of a text -/

theorem Text.exists_splitAll (separator : Char) (text : List Char) :
    ∃ part parts, splitAll separator text = part :: parts := by
  induction text with
  | nil => exact ⟨[], [], rfl⟩
  | cons c rest ih =>
      obtain ⟨part, parts, hrest⟩ := ih
      rw [splitAll, hrest]
      split
      · exact ⟨[], part :: parts, rfl⟩
      · exact ⟨c :: part, parts, rfl⟩

theorem Text.splitAll_append (separator : Char) (before after : List Char) :
    splitAll separator (before ++ separator :: after) =
      splitAll separator before ++ splitAll separator after := by
  induction before with
  | nil => simp [splitAll]
  | cons c before ih =>
      by_cases hc : c = separator
      · simp [splitAll, hc, ih]
      · obtain ⟨part, parts, hparts⟩ := exists_splitAll separator before
        simp [splitAll, hc, ih, hparts]

theorem Text.splitAll_of_notMem {separator : Char} {text : List Char} (h : separator ∉ text) :
    splitAll separator text = [text] := by
  induction text with
  | nil => rfl
  | cons c rest ih =>
      rw [List.mem_cons, not_or] at h
      rw [splitAll, if_neg (Ne.symm h.1), ih h.2]

/-- The last part has the last character, unless that is a separator. -/
theorem Text.splitAll_concat {separator c : Char} (hc : c ≠ separator) (text : List Char) :
    ∃ parts part, splitAll separator (text ++ [c]) = parts ++ [part ++ [c]] := by
  induction text with
  | nil => exact ⟨[], [], by simp [splitAll, hc]⟩
  | cons d rest ih =>
      obtain ⟨parts, part, hrest⟩ := ih
      rw [List.cons_append, splitAll, hrest]
      by_cases hd : d = separator
      · exact ⟨[] :: parts, part, by rw [if_pos hd]; rfl⟩
      · cases parts with
        | nil => exact ⟨[], d :: part, by rw [if_neg hd]; rfl⟩
        | cons first parts => exact ⟨(d :: first) :: parts, part, by rw [if_neg hd]; rfl⟩

namespace Cli

/-! ## Names in a path -/

structure IsName (name : String) : Prop where
  moves : staysInPlace name = false
  down : name ≠ ".."
  whole : '/' ∉ name.toList

theorem pathNames_of_isName {name : String} (h : IsName name) : pathNames name = [name] := by
  rw [pathNames, Text.splitAll_of_notMem h.whole]
  simp

theorem pathNames_append_slash (before after : String) :
    pathNames (before ++ "/" ++ after) = pathNames before ++ pathNames after := by
  have htext : (before ++ "/" ++ after).toList = before.toList ++ '/' :: after.toList := by
    simp [String.toList_append]
  rw [pathNames, htext, Text.splitAll_append, List.map_append]
  rfl

def namesBelow (directory : String) : List String :=
  let names := pathNames directory
  if names.getLast? = some "" then names.dropLast else names

theorem pathNames_joinPath (directory : String) {name : String} (h : IsName name) :
    pathNames (joinPath directory name) = namesBelow directory ++ [name] := by
  have hslash : name.toList.head? ≠ some '/' := fun hhead => h.whole (List.mem_of_head? hhead)
  rcases List.eq_nil_or_concat directory.toList with hempty | ⟨before, c, hlast⟩
  · have hdirectory : directory = "" := String.toList_inj.mp hempty
    subst hdirectory
    have hjoin : joinPath "" name = name := by simp [joinPath]
    rw [hjoin, pathNames_of_isName h]
    rfl
  · have hfull : directory.isEmpty = false := by
      rw [String.isEmpty_eq_false_iff]
      rintro rfl
      simp at hlast
    by_cases hc : c = '/'
    · have hdirectory : directory = String.ofList before ++ "/" ++ "" := by
        rw [← String.toList_inj, hlast, hc]
        simp
      have hjoin : joinPath directory name = String.ofList before ++ "/" ++ name := by
        rw [joinPath, if_neg (by simp [hslash, hfull]), if_pos (by simp [hlast, hc]), hdirectory]
        simp
      have hbelow : namesBelow directory = pathNames (String.ofList before) := by
        have hnames : pathNames directory = pathNames (String.ofList before) ++ [""] := by
          rw [hdirectory, pathNames_append_slash]
          rfl
        simp [namesBelow, hnames]
      rw [hjoin, hbelow, pathNames_append_slash, pathNames_of_isName h]
    · have hjoin : joinPath directory name = directory ++ "/" ++ name := by
        rw [joinPath, if_neg (by simp [hslash, hfull]), if_neg (by simp [hlast, hc])]
      have hbelow : namesBelow directory = pathNames directory := by
        obtain ⟨parts, part, hparts⟩ := Text.splitAll_concat hc before
        refine if_neg ?_
        simp [pathNames, hlast, hparts, ← String.toList_inj]
      rw [hjoin, hbelow, pathNames_append_slash, pathNames_of_isName h]

theorem namesBelow_joinPath (directory : String) {name : String} (h : IsName name) :
    namesBelow (joinPath directory name) = namesBelow directory ++ [name] := by
  have hname : name ≠ "" := by
    rintro rfl
    exact Bool.noConfusion h.moves
  rw [namesBelow, pathNames_joinPath directory h]
  simp [hname]

/-! ## Locations -/

def stepTo (l : Location) (name : String) : Location :=
  if staysInPlace name then l else if name = ".." then l.dropLast else l ++ [name]

/-- Where a path leads, whatever there is. -/
def leadsTo (work : Location) (path : String) : Location :=
  (pathNames path).foldl stepTo (FileTree.base work (pathNames path))

theorem stepTo_of_isName (l : Location) {name : String} (h : IsName name) :
    stepTo l name = l ++ [name] := by
  simp [stepTo, h.moves, h.down]

/-- Two names below a directory, of which the second is that of a file. -/
theorem leadsTo_joinPath (work : Location) (directory : String) :
    ∃ l, ∀ {component file : String}, IsName component → IsName file →
      leadsTo work (joinPath (joinPath directory component) file) = l ++ [component, file] := by
  refine ⟨(namesBelow directory).foldl stepTo (FileTree.base work (namesBelow directory)), ?_⟩
  intro component file hcomponent hfile
  have hnames : pathNames (joinPath (joinPath directory component) file) =
      namesBelow directory ++ [component, file] := by
    rw [pathNames_joinPath _ hfile, namesBelow_joinPath directory hcomponent]
    simp
  have hbase : FileTree.base work (namesBelow directory ++ [component, file]) =
      FileTree.base work (namesBelow directory) := by
    have hname : component ≠ "" := by
      rintro rfl
      exact Bool.noConfusion hcomponent.moves
    cases hbelow : namesBelow directory <;> simp [FileTree.base, hname]
  rw [leadsTo, hnames, hbase, List.foldl_append]
  simp [stepTo_of_isName _ hcomponent, stepTo_of_isName _ hfile]

namespace FileTree

theorem foldl_stepTo_of_walk {t : FileTree} {l l' : Location} {names : List String}
    (h : t.walk l names = .ok l') : names.foldl stepTo l = l' := by
  fun_induction walk t l names with
  | case1 => cases h; rfl
  | case2 => cases h
  | case3 _ _ _ _ hstays ih => simpa [stepTo, hstays] using ih h
  | case4 _ _ _ hstays ih => simpa [stepTo, hstays] using ih h
  | case5 => cases h
  | case6 _ _ _ _ hstays hup _ _ ih => simpa [stepTo, hstays, hup] using ih h
  | case7 => cases h

end FileTree

end Cli

end ManifestTypes
