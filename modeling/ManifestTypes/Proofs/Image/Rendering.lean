import ManifestTypes.Image
import ManifestTypes.Proofs.Text.Cuts

/-!
# Image references and their texts

Every text is an image reference, and its parts make up the text again. The references that texts
are read as are those in which no part holds what would be taken for the sign of another part.
-/

namespace ManifestTypes.ImageReference

/-! ## Single cuts -/

def signed (sign : List Char) : Option (List Char) → List Char
  | some part => sign ++ part
  | none => []

theorem splitDigest_eq_iff {text rest : List Char} {digest : Option (List Char)} :
    splitDigest text = (rest, digest) ↔
      text = rest ++ signed "@sha256:".toList digest ∧ ¬ "@sha256:".toList <:+: rest := by
  have hsign : '@' ∉ "sha256:".toList := by decide
  have hword : "@sha256:".toList = '@' :: "sha256:".toList := rfl
  rw [splitDigest, hword]
  constructor
  · intro h
    split at h
    · next hcut =>
        cases h
        rw [signed, ← List.append_assoc]
        exact Text.of_splitFirst?_eq_some hcut
    · next hcut =>
        cases h
        rw [signed, List.append_nil]
        exact ⟨rfl, Text.splitFirst?_eq_none_iff.mp hcut⟩
  · rintro ⟨rfl, hrest⟩
    cases digest with
    | none => rw [signed, List.append_nil, Text.splitFirst?_eq_none_iff.mpr hrest]
    | some digest => rw [signed, ← List.append_assoc, Text.splitFirst?_append hsign hrest]

/-- A text at whose end no version stands: it has no colon, or the last one is before a slash. -/
def EndsInPath (text : List Char) : Prop :=
  ':' ∉ text ∨ ∃ before after, text = before ++ ':' :: after ∧ ':' ∉ after ∧ '/' ∈ after

/-- A version can stand behind the text, or be missing there. -/
def VersionFits (text : List Char) : Option (List Char) → Prop
  | some version => ':' ∉ version ∧ '/' ∉ version
  | none => EndsInPath text

theorem splitVersion_eq_iff {text rest : List Char} {version : Option (List Char)} :
    splitVersion text = (rest, version) ↔
      text = rest ++ signed [':'] version ∧ VersionFits rest version := by
  rw [splitVersion]
  constructor
  · intro h
    split at h
    · next before tag hcut =>
        obtain ⟨htext, htag⟩ := Text.of_splitLast?_eq_some hcut
        split at h
        · next hslash =>
            cases h
            have hpath : EndsInPath text := .inr ⟨before, tag, htext, htag, by simpa using hslash⟩
            exact ⟨by rw [signed, List.append_nil], hpath⟩
        · next hslash =>
            cases h
            exact ⟨htext, htag, by simpa using hslash⟩
    · next hcut =>
        cases h
        exact ⟨by rw [signed, List.append_nil], .inl (Text.splitLast?_eq_none_iff.mp hcut)⟩
  · rintro ⟨rfl, hfits⟩
    cases version with
    | some version =>
        have hcut := Text.splitLast?_append rest hfits.1
        simp [signed, hcut, hfits.2]
    | none =>
        rw [signed, List.append_nil]
        rcases hfits with hcolon | ⟨before, after, rfl, hcolon, hslash⟩
        · rw [Text.splitLast?_eq_none_iff.mpr hcolon]
        · rw [Text.splitLast?_append before hcolon]
          simp [hslash]

def IsHost (segment : List Char) : Prop :=
  '.' ∈ segment ∨ ':' ∈ segment ∨ segment = "localhost".toList

theorem isRegistry_iff {segment : List Char} : isRegistry segment = true ↔ IsHost segment := by
  simp [isRegistry, IsHost, or_assoc]

def hosted : Option (List Char) → List Char
  | some registry => registry ++ ['/']
  | none => []

/-- A registry can stand before the name, or be missing there. -/
def RegistryFits (name : List Char) : Option (List Char) → Prop
  | some registry => '/' ∉ registry ∧ IsHost registry
  | none => '/' ∉ name ∨
      ∃ before after, name = before ++ '/' :: after ∧ '/' ∉ before ∧ ¬ IsHost before

theorem splitRegistry_eq_iff {text name : List Char} {registry : Option (List Char)} :
    splitRegistry text = (registry, name) ↔
      text = hosted registry ++ name ∧ RegistryFits name registry := by
  rw [splitRegistry]
  constructor
  · intro h
    split at h
    · next segment path hcut =>
        obtain ⟨htext, hsegment⟩ := Text.splitFirst?_singleton_eq_some_iff.mp hcut
        split at h
        · next hhost =>
            cases h
            exact ⟨by simp [htext, hosted], hsegment, isRegistry_iff.mp hhost⟩
        · next hhost =>
            cases h
            rw [isRegistry_iff] at hhost
            exact ⟨rfl, .inr ⟨segment, path, htext, hsegment, hhost⟩⟩
    · next hcut =>
        cases h
        exact ⟨rfl, .inl (Text.splitFirst?_singleton_eq_none_iff.mp hcut)⟩
  · rintro ⟨rfl, hfits⟩
    cases registry with
    | some registry =>
        obtain ⟨hslash, hhost⟩ := hfits
        have hcut : Text.splitFirst? ['/'] (hosted (some registry) ++ name) =
            some (registry, name) :=
          Text.splitFirst?_singleton_eq_some_iff.mpr ⟨by simp [hosted], hslash⟩
        rw [hcut]
        exact if_pos (isRegistry_iff.mpr hhost)
    | none =>
        rw [hosted, List.nil_append]
        rcases hfits with hslash | ⟨before, after, rfl, hslash, hhost⟩
        · rw [Text.splitFirst?_singleton_eq_none_iff.mpr hslash]
        · rw [Text.splitFirst?_singleton_eq_some_iff.mpr ⟨rfl, hslash⟩]
          exact if_neg (isRegistry_iff.not.mpr hhost)

/-! ## Whole references -/

def located (i : ImageReference) : List Char :=
  hosted (i.registry.map String.toList) ++ i.name.toList

def versioned (i : ImageReference) : List Char :=
  i.located ++ signed [':'] (i.version.map String.toList)

theorem toList_render (i : ImageReference) :
    i.render.toList = i.versioned ++ signed "@sha256:".toList (i.sha256.map String.toList) := by
  obtain ⟨registry, name, version, sha256⟩ := i
  cases registry <;> cases version <;> cases sha256 <;>
    simp [render, versioned, located, signed, hosted]

/-- No part holds what would be taken for the sign of another part, and what is missing is not
found in another part. -/
structure Canonical (i : ImageReference) : Prop where
  digest : ¬ "@sha256:".toList <:+: i.versioned
  version : VersionFits i.located (i.version.map String.toList)
  registry : RegistryFits i.name.toList (i.registry.map String.toList)

theorem parse_of_cuts {s : String} {body path name : List Char}
    {digest version registry : Option (List Char)} (hdigest : splitDigest s.toList = (body, digest))
    (hversion : splitVersion body = (path, version))
    (hregistry : splitRegistry path = (registry, name)) :
    parse s = ⟨registry.map String.ofList, String.ofList name, version.map String.ofList,
      digest.map String.ofList⟩ := by
  simp [parse, hdigest, hversion, hregistry]

theorem map_toList_map_ofList (part : Option (List Char)) :
    (part.map String.ofList).map String.toList = part := by
  cases part <;> simp

theorem map_ofList_map_toList (part : Option String) :
    (part.map String.toList).map String.ofList = part := by
  cases part <;> simp

/-- A text is read as the one canonical reference that is rendered as it. -/
theorem parse_eq_iff {s : String} {i : ImageReference} :
    parse s = i ↔ i.render = s ∧ i.Canonical := by
  rw [← String.toList_inj, toList_render]
  constructor
  · rintro rfl
    obtain ⟨body, digest, hdigest⟩ : ∃ body digest, splitDigest s.toList = (body, digest) :=
      ⟨_, _, rfl⟩
    obtain ⟨path, version, hversion⟩ : ∃ path version, splitVersion body = (path, version) :=
      ⟨_, _, rfl⟩
    obtain ⟨registry, name, hregistry⟩ : ∃ registry name, splitRegistry path = (registry, name) :=
      ⟨_, _, rfl⟩
    obtain ⟨htext, hbody⟩ := splitDigest_eq_iff.mp hdigest
    obtain ⟨rfl, hpath⟩ := splitVersion_eq_iff.mp hversion
    obtain ⟨rfl, hname⟩ := splitRegistry_eq_iff.mp hregistry
    rw [parse_of_cuts hdigest hversion hregistry]
    constructor
    · simp only [versioned, located, map_toList_map_ofList, String.toList_ofList, htext]
    · constructor <;>
        simpa only [versioned, located, map_toList_map_ofList, String.toList_ofList]
  · rintro ⟨htext, hcanonical⟩
    have hdigest := splitDigest_eq_iff.mpr ⟨htext.symm, hcanonical.digest⟩
    have hversion := splitVersion_eq_iff.mpr ⟨versioned.eq_1 i, hcanonical.version⟩
    have hregistry := splitRegistry_eq_iff.mpr ⟨located.eq_1 i, hcanonical.registry⟩
    rw [parse_of_cuts hdigest hversion hregistry]
    simp only [map_ofList_map_toList, String.ofList_toList]

/-- Every text is rendered from what it is read as, and the references that are read from what they
are rendered as are exactly the canonical ones. -/
theorem parse_lossless :
    (∀ s : String, (parse s).render = s) ∧
    ∀ i : ImageReference, parse i.render = i ↔ i.Canonical := by
  refine ⟨fun s => (parse_eq_iff.mp rfl).1, fun i => ?_⟩
  rw [parse_eq_iff]
  exact and_iff_right rfl

end ManifestTypes.ImageReference
