import ManifestTypes.Manifest.Schema
import ManifestTypes.Proofs.TypeExpr.Printing

/-!
# Labels in the types of sets

Labels without quotes may start with an underscore and have slashes, and identifiers may not. Those
that do are not read back by the reader of type expressions, and every other label is.
-/

namespace ManifestTypes.TypeExpr

/-- No lexeme starts with an underscore. -/
theorem tokenize_underscore (rest : String) : tokenize ("_" ++ rest) = .error ⟨0, "_"⟩ := by
  have hread : (read "".toList).unread = [] := by rw [String.toList_empty, read_nil]
  have hstops : tokenize ("" ++ '_'.toString ++ rest) = .error ⟨0, "_"⟩ :=
    tokenize_stops hread (fun h => nomatch h) (by decide) (by decide) rfl
  rwa [String.empty_append] at hstops

/-- An identifier ends in front of a slash, and no lexeme starts with one. -/
theorem tokenize_slash {name : String} (h : IsName name) (rest : String) :
    tokenize (name ++ "/" ++ rest) = .error ⟨name.utf8ByteSize, "/"⟩ := by
  have hread : (read name.toList).unread = [] := (isName_iff.mp h).spells.1
  exact tokenize_stops (c := '/') hread (fun _ => rfl) (by decide) (by decide) rfl

end ManifestTypes.TypeExpr

namespace ManifestTypes.Manifest

open TypeExpr

/-! ## Labels that are read back -/

/-- A text without back-quotes and line feeds. -/
def IsQuotable (text : String) : Prop :=
  ∀ c ∈ text.toList, isQuotable c = true

instance : DecidablePred IsQuotable :=
  fun _ => decidable_of_iff _ List.all_eq_true

/-- The label of the text is one token from end to end, which is the text or the text in
back-quotes. -/
def ReadBack (text : String) : Prop :=
  ∃ l, tokenize (label text) = .ok [⟨l, 0⟩] ∧ l.text = label text ∧
    (l = .identifier text ∨ l = .quotedLabel ("`" ++ text ++ "`"))

/-- A label that stands without quotes though it is no identifier. -/
def IsWiderLabel (text : String) : Prop :=
  isPlainLabel text.toList = true ∧ (text.toList.head? = some '_' ∨ '/' ∈ text.toList)

instance : DecidablePred IsWiderLabel :=
  fun _ => inferInstanceAs (Decidable (_ ∧ _))

/-- What may stand in a label without quotes behind its first character. -/
theorem isPlainLabel_cons_iff {c : Char} {rest : List Char} :
    isPlainLabel (c :: rest) = true ↔
      (c.isAlpha = true ∨ c = '_') ∧ ∀ d ∈ rest, isIdentifierRest d = true ∨ d = '/' := by
  simp [isPlainLabel, isIdentifierRest]

theorem isName_of_plain {text : String} (hplain : isPlainLabel text.toList = true)
    (hwider : ¬ IsWiderLabel text) : IsName text := by
  obtain ⟨hhead, hslash⟩ := not_or.mp fun h => hwider ⟨hplain, h⟩
  rw [← String.ofList_toList (s := text)]
  cases htext : text.toList with
  | nil => rw [htext] at hplain; cases hplain
  | cons c rest =>
      rw [htext] at hplain hhead hslash
      obtain ⟨hc, hrest⟩ := isPlainLabel_cons_iff.mp hplain
      refine isName_iff.mpr (.identifier c rest (hc.resolve_right ?_) fun d hd =>
        (hrest d hd).resolve_right ?_)
      · rintro rfl
        exact hhead rfl
      · rintro rfl
        exact hslash (List.mem_cons_of_mem c hd)

theorem readBack_of_not_wider {text : String} (hne : text ≠ "") (hquotable : IsQuotable text)
    (h : ¬ IsWiderLabel text) : ReadBack text := by
  by_cases hplain : isPlainLabel text.toList = true
  · have hlabel : label text = text := if_pos hplain
    refine ⟨.identifier text, ?_, hlabel.symm, .inl rfl⟩
    rw [hlabel]
    exact isName_of_plain hplain h
  · have hlabel : label text = "`" ++ text ++ "`" := if_neg hplain
    have hbody : text.toList ≠ [] := fun hnil => hne (String.toList_eq_nil_iff.mp hnil)
    have hspelled := Lexeme.Spelled.quotedLabel text.toList hbody hquotable
    have hquoted : String.ofList (quote :: text.toList ++ [quote]) = "`" ++ text ++ "`" := by
      rw [← String.toList_inj]
      simp [quote]
    rw [hquoted] at hspelled
    refine ⟨.quotedLabel ("`" ++ text ++ "`"), ?_, hlabel.symm, .inr rfl⟩
    rw [hlabel]
    exact tokenize_text_iff.mpr hspelled

/-! ## Labels that are refused -/

/-- Such a label starts with an underscore or with an identifier and a slash. -/
theorem split_of_isWiderLabel {text : String} (h : IsWiderLabel text) :
    (∃ rest, text = "_" ++ rest) ∨ ∃ name rest, text = name ++ "/" ++ rest ∧ IsName name := by
  obtain ⟨hplain, hwider⟩ := h
  rw [← String.ofList_toList (s := text)]
  cases htext : text.toList with
  | nil => rw [htext] at hplain; cases hplain
  | cons first rest =>
      rw [htext] at hplain hwider
      obtain ⟨hfirst, hrest⟩ := isPlainLabel_cons_iff.mp hplain
      rcases hfirst with hletter | rfl
      case inr =>
        refine .inl ⟨String.ofList rest, ?_⟩
        simp
      case inl =>
        have hslash : '/' ∈ rest := by
          rcases hwider with hunderscore | hslash
          · cases hunderscore
            exact absurd hletter (by decide)
          · refine (List.mem_cons.mp hslash).resolve_left ?_
            rintro rfl
            exact absurd hletter (by decide)
        obtain ⟨init, after, rfl, hinit⟩ := List.eq_append_cons_of_mem hslash
        refine .inr ⟨String.ofList (first :: init), String.ofList after, ?_, ?_⟩
        · simp [← String.toList_inj]
        · refine isName_iff.mpr (.identifier first init hletter fun d hd => ?_)
          refine (hrest d (List.mem_append_left _ hd)).resolve_right ?_
          rintro rfl
          exact hinit hd

theorem tokenize_label_of_wider {text : String} (h : IsWiderLabel text) :
    (∃ rest, text = "_" ++ rest ∧ tokenize (label text) = .error ⟨0, "_"⟩) ∨
    ∃ name rest, text = name ++ "/" ++ rest ∧ IsName name ∧
      tokenize (label text) = .error ⟨name.utf8ByteSize, "/"⟩ := by
  have hlabel : label text = text := if_pos h.1
  rw [hlabel]
  rcases split_of_isWiderLabel h with ⟨rest, rfl⟩ | ⟨name, rest, rfl, hname⟩
  · exact .inl ⟨rest, rfl, tokenize_underscore rest⟩
  · exact .inr ⟨name, rest, rfl, hname, tokenize_slash hname rest⟩

theorem not_readBack_of_error {text : String} {e : LexError}
    (h : tokenize (label text) = .error e) : ¬ ReadBack text := by
  rintro ⟨l, htokens, -⟩
  rw [h] at htokens
  cases htokens

/-- The label of a text is read back as one token exactly if it is in back-quotes or an identifier.
Every other label is refused, at an underscore in front or at the first slash. -/
theorem readBack_iff_not_wider {text : String} (hne : text ≠ "") (hquotable : IsQuotable text) :
    (ReadBack text ↔ ¬ IsWiderLabel text) ∧
    (IsWiderLabel text →
      (∃ rest, text = "_" ++ rest ∧ tokenize (label text) = .error ⟨0, "_"⟩) ∨
      ∃ name rest, text = name ++ "/" ++ rest ∧ IsName name ∧
        tokenize (label text) = .error ⟨name.utf8ByteSize, "/"⟩) := by
  have hrefused : IsWiderLabel text → _ := tokenize_label_of_wider
  refine ⟨⟨fun hread hwider => ?_, readBack_of_not_wider hne hquotable⟩, hrefused⟩
  rcases hrefused hwider with ⟨rest, -, herror⟩ | ⟨name, rest, -, -, herror⟩
  · exact not_readBack_of_error herror hread
  · exact not_readBack_of_error herror hread

theorem readBack_iff_not_wider_names :
    ReadBack "app.kubernetes.io" ∧ ReadBack "redis-cache" ∧ ¬ ReadBack "_front" ∧
      IsWiderLabel "web/front" ∧ ¬ ReadBack "web/front" := by
  have hslash : IsWiderLabel "web/front" := by decide
  refine ⟨?dots, ?hyphen, ?underscore, hslash, ?slash⟩
  case dots => exact (readBack_iff_not_wider (by decide) (by decide)).1.mpr (by decide)
  case hyphen => exact (readBack_iff_not_wider (by decide) (by decide)).1.mpr (by decide)
  case underscore =>
    exact fun h => (readBack_iff_not_wider (by decide) (by decide)).1.mp h (by decide)
  case slash => exact fun h => (readBack_iff_not_wider (by decide) (by decide)).1.mp h hslash

/-- A component may have a slash in its name. Its label is left without quotes, and the reader takes
the part before the slash and refuses the rest. -/
theorem component_not_readBack :
    (⟨"Service", "v1", "front", "a/b", .object []⟩ : Resource).recordType "k8s" =
      "\x7b a/b : \x7b Service : \x7b front : (k8s).Service.Type \x7d \x7d \x7d" ∧
    tokenize (label "a/b") = .error ⟨1, "/"⟩ ∧
    ¬ ∀ text : String, text ≠ "" → IsQuotable text → ReadBack text := by
  have hname : IsName "a" := by decide
  have herror : tokenize (label "a/b") = .error ⟨1, "/"⟩ := tokenize_slash hname "b"
  exact ⟨by decide, herror,
    fun h => not_readBack_of_error herror (h "a/b" (by decide) (by decide))⟩

end ManifestTypes.Manifest
