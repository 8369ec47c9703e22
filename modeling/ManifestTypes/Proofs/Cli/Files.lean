import ManifestTypes.Proofs.Cli.Paths

/-!
# Trees that grow

Neither making a directory nor writing a file takes anything away. What could be followed can still
be followed, and a text stays until its own file is written again.
-/

namespace ManifestTypes.Cli.FileTree

/-! ## Following names -/

theorem walk_append {t : FileTree} {l l' : Location} {names : List String}
    (h : t.walk l names = .ok l') (more : List String) :
    t.walk l (names ++ more) = t.walk l' more := by
  fun_induction walk t l names with
  | case1 => cases h; rfl
  | case2 => cases h
  | case3 l name rest hdirectory hstays ih =>
      rw [List.cons_append, walk, if_neg hdirectory, if_pos hstays]
      exact ih h
  | case4 l rest hdirectory hstays ih =>
      rw [List.cons_append, walk, if_neg hdirectory, if_neg hstays, if_pos rfl]
      exact ih h
  | case5 => cases h
  | case6 l name rest hdirectory hstays hup hsize hexists ih =>
      rw [List.cons_append, walk, if_neg hdirectory, if_neg hstays, if_neg hup, if_neg hsize,
        if_pos hexists]
      exact ih h
  | case7 => cases h

/-- Nothing is lost from a tree but texts of files in some of its locations. -/
structure Grown (written : Location → Prop) (t t' : FileTree) : Prop where
  directory : ∀ l, t.isDirectory l = true → t'.isDirectory l = true
  file : ∀ l, (t.files.get? l).isSome = true →
    t'.isDirectory l = t.isDirectory l ∧ (t'.files.get? l).isSome = true
  text : ∀ l, ¬ written l → t'.files.get? l = t.files.get? l

namespace Grown

theorem refl (written : Location → Prop) (t : FileTree) : Grown written t t :=
  ⟨fun _ h => h, fun _ h => ⟨rfl, h⟩, fun _ _ => rfl⟩

theorem trans {written : Location → Prop} {t t' t'' : FileTree} (h : Grown written t t')
    (h' : Grown written t' t'') : Grown written t t'' where
  directory l hl := h'.directory l (h.directory l hl)
  file l hl := by
    obtain ⟨hsame, hthere⟩ := h.file l hl
    obtain ⟨hsame', hthere'⟩ := h'.file l hthere
    exact ⟨hsame'.trans hsame, hthere'⟩
  text l hl := (h'.text l hl).trans (h.text l hl)

theorem mono {written written' : Location → Prop} {t t' : FileTree} (h : Grown written t t')
    (himp : ∀ l, written l → written' l) : Grown written' t t' :=
  ⟨h.directory, h.file, fun l hl => h.text l fun hwritten => hl (himp l hwritten)⟩

variable {written : Location → Prop} {t t' : FileTree}

theorem exists? (h : Grown written t t') {l : Location} (hl : t.exists? l = true) :
    t'.exists? l = true := by
  rw [FileTree.exists?, Bool.or_eq_true] at hl ⊢
  exact hl.imp (h.directory l) fun hfile => (h.file l hfile).2

theorem walk (h : Grown written t t') {l l' : Location} {names : List String}
    (hwalk : t.walk l names = .ok l') : t'.walk l names = .ok l' := by
  have hopen : ∀ l, ¬ t.isDirectory l = false → ¬ t'.isDirectory l = false := by
    intro l hl
    rw [Bool.not_eq_false] at hl ⊢
    exact h.directory l hl
  fun_induction FileTree.walk t l names with
  | case1 => exact hwalk
  | case2 => cases hwalk
  | case3 l name rest hdirectory hstays ih =>
      rw [FileTree.walk, if_neg (hopen l hdirectory), if_pos hstays]
      exact ih hwalk
  | case4 l rest hdirectory hstays ih =>
      rw [FileTree.walk, if_neg (hopen l hdirectory), if_neg hstays, if_pos rfl]
      exact ih hwalk
  | case5 => cases hwalk
  | case6 l name rest hdirectory hstays hup hsize hexists ih =>
      rw [FileTree.walk, if_neg (hopen l hdirectory), if_neg hstays, if_neg hup, if_neg hsize,
        if_pos (h.exists? hexists)]
      exact ih hwalk
  | case7 => cases hwalk

end Grown

/-! ## Reading -/

theorem text_eq_ok_iff {t : FileTree} {work : Location} {path text : String} :
    t.text work path = .ok text ↔
      checkSizedPath path = .ok () ∧ t.follow work path = .ok (leadsTo work path) ∧
        t.isDirectory (leadsTo work path) = false ∧
          t.files.get? (leadsTo work path) = some text := by
  have hread : t.text work path = .ok text ↔ checkSizedPath path = .ok () ∧
      ∃ l, t.follow work path = .ok l ∧ t.isDirectory l = false ∧ t.files.get? l = some text := by
    rw [FileTree.text, locate]
    cases checkSizedPath path with
    | error e => simp [bind, Except.bind]
    | ok _ =>
        cases t.follow work path with
        | error e => simp [bind, Except.bind]
        | ok l =>
            cases hdirectory : t.isDirectory l <;> cases hget : t.files.get? l <;>
              simp [bind, Except.bind, hdirectory, hget]
  rw [hread]
  refine and_congr_right fun _ => ⟨?_, fun h => ⟨_, h⟩⟩
  rintro ⟨l, hfollow, hrest⟩
  have hleads : leadsTo work path = l := foldl_stepTo_of_walk hfollow
  rw [hleads]
  exact ⟨hfollow, hrest⟩

/-- A text is found where it was before, unless its file was written. -/
theorem Grown.text_eq {written : Location → Prop} {t t' : FileTree} (h : Grown written t t')
    {work : Location} {path text : String} (htext : t.text work path = .ok text)
    (hpath : ¬ written (leadsTo work path)) : t'.text work path = .ok text := by
  obtain ⟨hsized, hfollow, hfile, hget⟩ := text_eq_ok_iff.mp htext
  have hsame := (h.file _ (by rw [hget]; rfl)).1
  exact text_eq_ok_iff.mpr
    ⟨hsized, h.walk hfollow, hsame.trans hfile, (h.text _ hpath).trans hget⟩

theorem Grown.exists_text {written : Location → Prop} {t t' : FileTree} (h : Grown written t t')
    {work : Location} {path text : String} (htext : t.text work path = .ok text) :
    ∃ text', t'.text work path = .ok text' := by
  obtain ⟨hsized, hfollow, hfile, hget⟩ := text_eq_ok_iff.mp htext
  obtain ⟨hsame, hthere⟩ := h.file _ (by rw [hget]; rfl)
  obtain ⟨text', hget'⟩ := Option.isSome_iff_exists.mp hthere
  exact ⟨text', text_eq_ok_iff.mpr ⟨hsized, h.walk hfollow, hsame.trans hfile, hget'⟩⟩

/-- Paths to one location lead to one text. -/
theorem text_eq_of_leadsTo_eq {t : FileTree} {work : Location} {path path' text text' : String}
    (h : t.text work path = .ok text) (h' : t.text work path' = .ok text')
    (hleads : leadsTo work path = leadsTo work path') : text = text' := by
  obtain ⟨-, -, -, hget⟩ := text_eq_ok_iff.mp h
  obtain ⟨-, -, -, hget'⟩ := text_eq_ok_iff.mp h'
  rw [hleads, hget'] at hget
  exact (Option.some.inj hget).symm

/-! ## Making directories and writing files -/

theorem grown_makeDirectory {t t' : FileTree} {work : Location} {path : String}
    (h : t.makeDirectory work path = .ok t') : Grown (fun _ => False) t t' := by
  have hnew : ∃ l, t.exists? l = false ∧ t' = { t with directories := t.directories ++ [l] } := by
    rw [makeDirectory] at h
    cases hplace : t.place work path with
    | error e => rw [hplace] at h; cases h
    | ok place =>
        rw [hplace] at h
        simp only [bind, Except.bind] at h
        split at h
        · cases h
        split at h
        · cases h
        split at h
        · cases h
        next hfree =>
          cases h
          exact ⟨_, Bool.not_eq_true _ ▸ hfree, rfl⟩
  obtain ⟨new, hfree, rfl⟩ := hnew
  rw [FileTree.exists?, Bool.or_eq_false_iff] at hfree
  refine ⟨fun l hl => ?_, fun l hl => ⟨?_, hl⟩, fun _ _ => rfl⟩
  · simp only [isDirectory, Bool.or_eq_true, List.contains_iff_mem, List.mem_append] at hl ⊢
    exact hl.imp_right .inl
  · have hother : l ≠ new := by
      rintro rfl
      rw [hfree.2] at hl
      cases hl
    simp [isDirectory, hother]

/-- Where no slash stands at the end, the last name is apart from those that are followed. -/
theorem place_eq_ok {t : FileTree} {work l : Location} {path name : String}
    (h : t.place work path = .ok (l, name)) (hlast : (pathNames path).getLast? ≠ some "") :
    ∃ outer, checkSizedPath path = .ok () ∧ pathNames path = outer ++ [name] ∧
      t.walk (base work (pathNames path)) outer = .ok l ∧ t.isDirectory l = true := by
  have hnames : pathNames path ≠ [] := by
    obtain ⟨part, parts, hparts⟩ := Text.exists_splitAll '/' path.toList
    simp [pathNames, hparts]
  obtain ⟨outer, last, hpath⟩ := (List.eq_nil_or_concat (pathNames path)).resolve_left hnames
  rw [List.concat_eq_append] at hpath
  have hdrop : (pathNames path).reverse.dropWhile String.isEmpty = last :: outer.reverse := by
    have hfull : last ≠ "" := by simpa [hpath] using hlast
    simp [hpath, hfull]
  rw [place] at h
  cases hsized : checkSizedPath path with
  | error e => rw [hsized] at h; cases h
  | ok _ =>
      simp only [hsized, hdrop, bind, Except.bind, List.reverse_reverse] at h
      cases hwalk : t.walk (base work (pathNames path)) outer with
      | error e => rw [hwalk] at h; cases h
      | ok l' =>
          rw [hwalk] at h
          cases hdirectory : t.isDirectory l' with
          | false => simp [hdirectory] at h
          | true =>
              simp only [hdirectory, if_true, Except.ok.injEq, Prod.mk.injEq] at h
              obtain ⟨rfl, rfl⟩ := h
              exact ⟨outer, rfl, hpath, hwalk, hdirectory⟩

/-- The directory of a written file could be followed, and its name stands last in the path. -/
theorem write_eq_ok {t t' : FileTree} {work : Location} {path text : String}
    (h : t.write work path text = .ok t') :
    ∃ outer name l, checkSizedPath path = .ok () ∧ pathNames path = outer ++ [name] ∧
      t.walk (base work (outer ++ [name])) outer = .ok l ∧ t.isDirectory l = true ∧
      staysInPlace name = false ∧ name ≠ ".." ∧ ¬ maxNameSize < name.utf8ByteSize ∧
      t.isDirectory (l ++ [name]) = false ∧
      t' = { t with files := t.files.insert (l ++ [name]) text } := by
  rw [write] at h
  cases hplace : t.place work path with
  | error e => rw [hplace] at h; cases h
  | ok place =>
      obtain ⟨l, name⟩ := place
      rw [hplace] at h
      simp only [bind, Except.bind] at h
      split at h
      · cases h
      next hname =>
        split at h
        · cases h
        next hsize =>
          split at h
          · cases h
          next hfile =>
            cases h
            simp only [not_or, Bool.not_eq_true] at hname hfile
            obtain ⟨hlast, hstays, hup⟩ := hname
            obtain ⟨outer, hsized, hnames, hwalk, hdirectory⟩ := place_eq_ok hplace hlast
            exact ⟨outer, name, l, hsized, hnames, hnames ▸ hwalk, hdirectory, hstays, hup, hsize,
              hfile, rfl⟩

theorem text_write {t t' : FileTree} {work : Location} {path text : String}
    (h : t.write work path text = .ok t') :
    Grown (· = leadsTo work path) t t' ∧ t'.text work path = .ok text := by
  obtain ⟨outer, name, l, hsized, hnames, hwalk, hdirectory, hstays, hup, hsize, hfile, rfl⟩ :=
    write_eq_ok h
  have hleads : leadsTo work path = l ++ [name] := by
    rw [leadsTo, hnames, List.foldl_append, foldl_stepTo_of_walk hwalk]
    simp [stepTo, hstays, hup]
  have hgrown : Grown (· = l ++ [name]) t
      { t with files := t.files.insert (l ++ [name]) text } := by
    refine ⟨fun _ hl => hl, fun l' hl => ⟨rfl, ?_⟩, fun l' hl => ?_⟩
    · rw [Keyed.get?_insert]
      split
      · rfl
      · exact hl
    · rw [Keyed.get?_insert, if_neg (by simpa using Ne.symm hl)]
  have hget : (t.files.insert (l ++ [name]) text).get? (l ++ [name]) = some text := by
    rw [Keyed.get?_insert, beq_self_eq_true, if_pos rfl]
  refine ⟨hleads ▸ hgrown, text_eq_ok_iff.mpr ⟨hsized, ?_, hleads ▸ hfile, hleads ▸ hget⟩⟩
  have hlast : FileTree.walk { t with files := t.files.insert (l ++ [name]) text } l [name] =
      .ok (l ++ [name]) := by
    rw [walk, if_neg (by simpa using hgrown.directory l hdirectory), if_neg (by simp [hstays]),
      if_neg hup, if_neg hsize, if_pos (by simp [FileTree.exists?, hget]), walk]
  rw [follow, hnames, walk_append (hgrown.walk hwalk), hleads, hlast]

end ManifestTypes.Cli.FileTree
