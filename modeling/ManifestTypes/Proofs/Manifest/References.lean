import ManifestTypes.Proofs.Manifest.Entering
import ManifestTypes.Proofs.Manifest.Independence
import ManifestTypes.Proofs.Value.Walking

/-!
# Expanded image references

Every string that is a member called `image` becomes the object of its parts. All else in a value
stays in its place.
-/

namespace ManifestTypes.Value

/-! ## Places -/

def step? (v : Value) : Step → Option Value
  | .element index => v.elements?.bind (·[index]?)
  | .member key => v.get? key

/-- What stands in the value at the end of the path. -/
def at? (v : Value) : List Step → Option Value
  | [] => some v
  | step :: rest => (v.step? step).bind (·.at? rest)

theorem at?_concat (v : Value) (path : List Step) (step : Step) :
    v.at? (path ++ [step]) = (v.at? path).bind (·.step? step) := by
  induction path generalizing v with
  | nil => simp [at?]
  | cons first rest ih =>
      rw [List.cons_append, at?, at?]
      cases v.step? first with
      | none => rfl
      | some w => exact ih w

/-- There is nothing in a string. -/
theorem string?_of_step? {v x : Value} {step : Step} (h : v.step? step = some x) :
    v.string? = none := by
  cases v with
  | string s => cases step <;> cases h
  | _ => rfl

/-- Equal values with nothing in them, lists of one length, or objects with the same keys in the
same order. -/
inductive SameLevel : Value → Value → Prop
  | atom {v : Value} (helements : v.elements? = none) (hmembers : v.members? = none) :
    SameLevel v v
  | list {elements elements' : List Value} (h : elements.length = elements'.length) :
    SameLevel (.list elements) (.list elements')
  | object {members members' : Keyed String Value}
    (h : Keyed.keys members = Keyed.keys members') : SameLevel (.object members) (.object members')

theorem sameLevel_expandImages (v : Value) : SameLevel v v.expandImages := by
  cases v with
  | list elements =>
      rw [expandImages_list]
      exact .list (List.length_map expandImages).symm
  | object members =>
      rw [expandImages_object]
      refine .object ?_
      rw [Keyed.keys, Keyed.keys, List.map_map]
      rfl
  | _ => exact .atom rfl rfl

/-! ## Expanding at a place -/

def expandedAt (path : List Step) (v : Value) : Value :=
  match path.getLast? with
  | some (.member key) => expandMember key v
  | _ => v.expandImages

theorem expandedAt_of_not_string {v : Value} (h : v.string? = none) (path : List Step) :
    expandedAt path v = v.expandImages := by
  unfold expandedAt
  split
  · exact expandMember_of_not_string h _
  · rfl

theorem step?_expandImages {v x : Value} {step : Step} (h : v.step? step = some x)
    (path : List Step) :
    v.expandImages.step? step = some (expandedAt (path ++ [step]) x) := by
  rw [expandedAt, List.getLast?_concat]
  cases step with
  | element index =>
      cases v with
      | list elements =>
          have helement : elements[index]? = some x := h
          rw [expandImages_list]
          show (elements.map expandImages)[index]? = some x.expandImages
          rw [List.getElem?_map, helement, Option.map_some]
      | _ => cases h
  | member key =>
      cases v with
      | object members =>
          have hmember : Keyed.get? members key = some x := h
          rw [expandImages_object]
          show Keyed.get? _ key = some (expandMember key x)
          rw [Keyed.get?_map expandMember, hmember, Option.map_some]
      | _ => cases h

/-- Whatever stands at a place is expanded there. -/
theorem at?_expandImages {v x : Value} {path : List Step} (h : v.at? path = some x) :
    v.expandImages.at? path = some (expandedAt path x) := by
  induction path using List.reverseRecOn generalizing x with
  | nil =>
      cases h
      rfl
  | append_singleton path step ih =>
      rw [at?_concat] at h ⊢
      obtain ⟨y, hy, hstep⟩ := Option.bind_eq_some_iff.mp h
      rw [ih hy, expandedAt_of_not_string (string?_of_step? hstep)]
      exact step?_expandImages hstep path

theorem at?_expandImages_reference {v : Value} {path : List Step} {s : String}
    (hlast : path.getLast? = some (.member "image")) (h : v.at? path = some (.string s)) :
    v.expandImages.at? path = some (ImageReference.parse s).toValue := by
  rw [at?_expandImages h, expandedAt, hlast]
  rfl

/-- Only strings below the key `image` are no longer what they were. -/
theorem sameLevel_expandedAt {v : Value} {path : List Step}
    (h : path.getLast? = some (.member "image") → v.string? = none) :
    SameLevel v (expandedAt path v) := by
  unfold expandedAt
  split
  · next key hlast =>
      by_cases hkey : key = "image"
      · subst hkey
        rw [expandMember_of_not_string (h hlast)]
        exact sameLevel_expandImages v
      · rw [expandMember_of_ne hkey]
        exact sameLevel_expandImages v
  · exact sameLevel_expandImages v

/-! ## Expanding again -/

theorem expandImages_toValue (i : ImageReference) : i.toValue.expandImages = i.toValue := by
  simp [ImageReference.toValue, expandImages_object, expandMember, imageText?, expandImages]

theorem expandMember_expandMember {v : Value}
    (h : v.expandImages.expandImages = v.expandImages) (key : String) :
    expandMember key (expandMember key v) = expandMember key v := by
  by_cases hstring : v.string? = none
  · rw [expandMember_of_not_string hstring, expandMember_of_not_string, h]
    rwa [string?_expandImages]
  · cases v with
    | string s =>
        rcases expandMember_string key s with hstays | ⟨i, hobject⟩
        · rw [hstays, hstays]
        · rw [hobject, expandMember_of_not_string rfl, expandImages_toValue]
    | _ => exact absurd rfl hstring

theorem expandImages_expandImages (v : Value) : v.expandImages.expandImages = v.expandImages := by
  induction v using Value.induction with
  | atom v helements hmembers =>
      rw [expandImages_of_atom helements hmembers, expandImages_of_atom helements hmembers]
  | list elements ih =>
      rw [expandImages_list, expandImages_list, List.map_map]
      exact congrArg Value.list (List.map_congr_left ih)
  | object members ih =>
      rw [expandImages_object, expandImages_object, List.map_map]
      refine congrArg Value.object (List.map_congr_left fun m hm => ?_)
      exact congrArg (Prod.mk m.1) (expandMember_expandMember (ih m hm) m.1)

/-- A string that is still there would be expanded the second time. -/
theorem getString?_image_of_at? {v x : Value} {path : List Step}
    (h : v.expandImages.at? path = some x) : x.getString? "image" = none := by
  by_contra hsome
  obtain ⟨s, hs⟩ := Option.ne_none_iff_exists'.mp hsome
  obtain ⟨image, himage, hstring⟩ := Option.bind_eq_some_iff.mp hs
  have hthere : v.expandImages.at? (path ++ [.member "image"]) = some image := by
    rw [at?_concat, h]
    exact himage
  cases image with
  | string s' =>
      have hagain := at?_expandImages_reference List.getLast?_concat hthere
      rw [expandImages_expandImages, hthere] at hagain
      cases hagain
  | _ => cases hstring

/-! ## Expanding on a walk -/

def expandReference : Value → Value
  | .string s => (ImageReference.parse s).toValue
  | v => v

def expandHere (members : Keyed String Value) : Keyed String Value :=
  Keyed.modify members "image" expandReference

/-- What is put in the place of an image is expanded too, which changes nothing. -/
theorem expandMember_eq_ite (key : String) (v : Value) :
    expandMember key v =
      if key = "image" then v.expandReference.expandImages else v.expandImages := by
  split
  · next hkey =>
      subst hkey
      cases v with
      | string s => exact (expandImages_toValue _).symm
      | _ => exact expandMember_of_not_string rfl _
  · next hkey => exact expandMember_of_ne hkey v

/-- The walk goes into the objects that it has put there itself, and leaves them as they are. -/
theorem walked_toValue_iff {i : ImageReference} {w : Value} :
    Walked expandHere i.toValue w ↔ w = i.toValue := by
  have hstrings : ∀ m ∈ expandHere i.toValue.members, ∀ y,
      Walked expandHere m.2 y ↔ y = m.2.expandImages := by
    intro m hm y
    change m ∈ i.toValue.members at hm
    simp only [ImageReference.toValue, members_object, List.mem_cons, List.not_mem_nil,
      or_false] at hm
    rcases hm with rfl | rfl | rfl | rfl <;> exact walked_atom_iff rfl rfl
  exact walked_object_iff hstrings

theorem walkedAs_expandReference {v : Value} (h : WalkedAs expandHere expandImages v) :
    WalkedAs expandHere expandImages v.expandReference := by
  cases v with
  | string s =>
      intro w
      show Walked expandHere (ImageReference.parse s).toValue w ↔
        w = (ImageReference.parse s).toValue.expandImages
      rw [expandImages_toValue, walked_toValue_iff]
  | _ => exact h

theorem walkedAs_expandImages {v : Value} (hdistinct : v.Distinct) :
    WalkedAs expandHere expandImages v := by
  refine walkedAs_modify (fun v => expandImages_of_atom) expandImages_list (fun members => ?_)
    (fun v _ => walkedAs_expandReference) hdistinct
  simp only [expandImages_object, expandMember_eq_ite]

/-- Every string that is a member called `image` becomes the object of its parts, and all else
stays in its place. No such string is left, so expanding again changes nothing. A walk that expands
the image of each object before it goes into the object comes to the same. -/
theorem expands_references (v : Value) :
    (∀ path x, v.expandImages.at? path = some x → x.getString? "image" = none) ∧
      (∀ path s, path.getLast? = some (.member "image") → v.at? path = some (.string s) →
        v.expandImages.at? path = some (.object
          [("name", .string (ImageReference.parse s).name),
            ("registry", .string ((ImageReference.parse s).registry.getD "")),
            ("sha256", .string ((ImageReference.parse s).sha256.getD "")),
            ("version", .string ((ImageReference.parse s).version.getD ""))])) ∧
      (∀ path x, v.at? path = some x →
        ¬ (path.getLast? = some (.member "image") ∧ ∃ s, x = .string s) →
        ∃ y, v.expandImages.at? path = some y ∧ SameLevel x y) ∧
      v.expandImages.expandImages = v.expandImages ∧
      (v.Distinct → ∀ w, Walked expandHere v w ↔ w = v.expandImages) := by
  refine ⟨fun _ _ => getString?_image_of_at?, fun _ _ => at?_expandImages_reference, ?_,
    expandImages_expandImages v, walkedAs_expandImages⟩
  intro path x hx hother
  refine ⟨expandedAt path x, at?_expandImages hx, sameLevel_expandedAt fun hlast => ?_⟩
  cases x with
  | string s => exact absurd ⟨hlast, s, rfl⟩ hother
  | _ => rfl

/-- An object called `image` stays, and the walk comes to the image in it. -/
theorem expands_references_belowImage :
    let v : Value := .object [("image", .object [("image", .string "localhost/db:1")])]
    let parts : Value := .object [("name", .string "db"), ("registry", .string "localhost"),
      ("sha256", .string ""), ("version", .string "1")]
    let w : Value := .object [("image", .object [("image", parts)])]
    v.expandImages = w ∧ w.expandImages = w ∧
      (∃ inner, w.at? [.member "image"] = some inner ∧ inner.getString? "image" = none ∧
        SameLevel (.object [("image", .string "localhost/db:1")]) inner) ∧
      w.at? [.member "image", .member "image"] = some parts ∧ v.Distinct ∧
      Walked expandHere v w := by
  intro v parts w
  have hexpanded : v.expandImages = w := by cbv
  have hdistinct : v.Distinct := by simp [v, Distinct, DistinctEach, Keyed.keys]
  obtain ⟨hnone, hparts, hother, hagain, hwalked⟩ := expands_references v
  rw [hexpanded] at hnone hparts hother hagain hwalked
  refine ⟨hexpanded, hagain, ?_, ?_, hdistinct, (hwalked hdistinct w).mpr rfl⟩
  · obtain ⟨inner, hinner, hlevel⟩ := hother [.member "image"] _ rfl (by simp)
    exact ⟨inner, hinner, hnone _ inner hinner, hlevel⟩
  · rw [hparts [.member "image", .member "image"] "localhost/db:1" rfl rfl]
    cbv

end ManifestTypes.Value
