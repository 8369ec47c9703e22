import ManifestTypes.Proofs.TypeExpr.Parsing
import ManifestTypes.Proofs.TypeExpr.Signs
import ManifestTypes.TypeExpr.Printer

/-!
# Printed type expressions are read back

The printed form of a record type spells its lexemes at every level of indentation: line breaks,
tabs and parentheses stand in the gaps, and no two words touch.
-/

namespace ManifestTypes.TypeExpr

/-! ## Readable trees -/

/-- A text that is read as one label and nothing else. -/
def IsLabel (text : String) : Prop :=
  ∃ l : Lexeme, l.label? = some text ∧ tokenize text = .ok [⟨l, 0⟩]

/-- A text that is read as one identifier and nothing else. -/
def IsName (text : String) : Prop :=
  tokenize text = .ok [⟨.identifier text, 0⟩]

mutual

/-- Every label and every name in a field is read as such. -/
def Field.Readable : Field → Prop
  | .plain key atoms => IsLabel key ∧ ∀ name ∈ atoms, IsName name
  | .literal key atoms _ fields =>
    IsLabel key ∧ (∀ name ∈ atoms, IsName name) ∧ Field.ReadableAll fields

def Field.ReadableAll : List Field → Prop
  | [] => True
  | f :: rest => f.Readable ∧ Field.ReadableAll rest

end

def RecordType.Readable (r : RecordType) : Prop :=
  Field.ReadableAll r.fields

theorem Lexeme.text_of_label? {l : Lexeme} {key : String} (h : l.label? = some key) :
    l.text = key := by
  cases l with
  | identifier text => cases h; rfl
  | quotedLabel text => cases h; rfl
  | mark m => cases h

theorem Lexeme.text_ofLabel (key : String) : (Lexeme.ofLabel key).text = key := by
  unfold Lexeme.ofLabel
  split <;> rfl

theorem isLabel_iff {key : String} : IsLabel key ↔ (Lexeme.ofLabel key).Spelled := by
  constructor
  · intro h
    obtain ⟨l, hlabel, htokens⟩ := h
    rw [← Lexeme.text_of_label? hlabel, tokenize_text_iff] at htokens
    rw [ofLabel_of_label? htokens hlabel]
    exact htokens
  · intro h
    have htokens := tokenize_text_iff.mpr h
    rw [Lexeme.text_ofLabel] at htokens
    refine ⟨Lexeme.ofLabel key, ?_, htokens⟩
    unfold Lexeme.ofLabel
    split <;> rfl

theorem isName_iff {name : String} : IsName name ↔ (Lexeme.identifier name).Spelled :=
  tokenize_text_iff (l := .identifier name)

theorem readable_head {key : String} {atoms : List String} {ls : List Lexeme}
    (h : ∀ l ∈ headLexemes key atoms ++ ls, l.Spelled) :
    IsLabel key ∧ ∀ name ∈ atoms, IsName name := by
  constructor
  · exact isLabel_iff.mpr (h _ (by simp [headLexemes]))
  · intro name hname
    exact isName_iff.mpr (h _ (by simp [headLexemes, hname]))

mutual

theorem Field.readable_of_spelled (f : Field) (h : ∀ l ∈ f.lexemes, l.Spelled) : f.Readable := by
  cases f with
  | plain key atoms =>
      rw [Field.lexemes_plain, ← List.append_nil (headLexemes key atoms)] at h
      exact readable_head h
  | literal key atoms shape fields =>
      rw [Field.lexemes_literal, List.append_assoc] at h
      obtain ⟨hkey, hatoms⟩ := readable_head h
      refine ⟨hkey, hatoms, Field.readableAll_of_spelled shape true fields fun l hl => h l ?_⟩
      simp [hl]

theorem Field.readableAll_of_spelled (shape : Shape) (isFirst : Bool) (fields : List Field)
    (h : ∀ l ∈ Field.lexemesAll shape isFirst fields, l.Spelled) : Field.ReadableAll fields := by
  cases fields with
  | nil => trivial
  | cons f rest =>
      rw [Field.lexemesAll] at h
      constructor
      · exact Field.readable_of_spelled f fun l hl => h l (by simp [hl])
      · exact Field.readableAll_of_spelled shape false rest fun l hl => h l (by simp [hl])

end

theorem readable_of_parse {source : String} {r : RecordType} (h : parse source = .ok r) :
    r.Readable := by
  obtain ⟨hspells, -⟩ := parse_eq_ok_iff_spells.mp h
  refine Field.readableAll_of_spelled .record true r.fields fun l hl => hspells.spelled l ?_
  simp [RecordType.lexemes, hl]

instance : DecidablePred IsLabel :=
  fun _ => decidable_of_iff _ isLabel_iff.symm

instance : DecidablePred IsName :=
  fun _ => decidable_of_iff _ isName_iff.symm

mutual

def Field.decReadable : (f : Field) → Decidable f.Readable
  | .plain key atoms => inferInstanceAs (Decidable (IsLabel key ∧ ∀ name ∈ atoms, IsName name))
  | .literal key atoms _ fields =>
    have := Field.decReadableAll fields
    inferInstanceAs
      (Decidable (IsLabel key ∧ (∀ name ∈ atoms, IsName name) ∧ Field.ReadableAll fields))

def Field.decReadableAll : (fields : List Field) → Decidable (Field.ReadableAll fields)
  | [] => .isTrue trivial
  | f :: rest =>
    have := f.decReadable
    have := Field.decReadableAll rest
    inferInstanceAs (Decidable (f.Readable ∧ Field.ReadableAll rest))

end

instance : DecidablePred Field.Readable := Field.decReadable

instance : DecidablePred Field.ReadableAll := Field.decReadableAll

instance : DecidablePred RecordType.Readable :=
  fun r => Field.decReadableAll r.fields

/-! ## Signs of printed text -/

/-- From three parts on, a chain has a parenthesis before each name but the first. -/
def openings (parts : Nat) : List Sign :=
  if parts ≤ 2 then [] else [.openParen]

def closings (parts : Nat) : List Sign :=
  if parts ≤ 2 then [] else [.closeParen]

def chainSigns (atoms : List String) (tail : Option (List Sign)) : List Sign :=
  match atoms with
  | [] => tail.getD []
  | first :: rest =>
    let parts := rest.length + 1 + tail.toList.length
    .lexeme (.identifier first) ::
        (rest.flatMap fun atom => openings parts ++ [.lexeme (.identifier atom)])
      ++ tail.getD [] ++ rest.flatMap fun _ => closings parts

def bracketedSigns (shape : Shape) (fields : List Sign) : List Sign :=
  .lexeme (.mark shape.opening) :: fields ++ [.lexeme (.mark shape.closing)]

def labelledSigns (key : String) (value : List Sign) : List Sign :=
  .lexeme (.ofLabel key) :: .lexeme (.mark .colon) :: value

def separatorSigns (shape : Shape) (isFirst : Bool) : List Sign :=
  if isFirst then [] else [.lexeme (.mark shape.separator)]

mutual

def Field.signs : Field → List Sign
  | .plain key atoms => labelledSigns key (chainSigns atoms none)
  | .literal key atoms shape fields =>
    labelledSigns key
      (chainSigns atoms (some (bracketedSigns shape (Field.signsAll shape true fields))))

def Field.signsAll (shape : Shape) (isFirst : Bool) : List Field → List Sign
  | [] => []
  | f :: rest => separatorSigns shape isFirst ++ f.signs ++ Field.signsAll shape false rest

end

def RecordType.signs (r : RecordType) : List Sign :=
  bracketedSigns .record (Field.signsAll .record true r.fields)

theorem lexemes_chainSigns (atoms : List String) (tail : Option (List Sign)) :
    (chainSigns atoms tail).filterMap Sign.lexeme? =
      atoms.map .identifier ++ (tail.getD []).filterMap Sign.lexeme? := by
  have hopenings (parts : Nat) : (openings parts).filterMap Sign.lexeme? = [] := by
    unfold openings
    split <;> rfl
  have hclosings (parts : Nat) : (closings parts).filterMap Sign.lexeme? = [] := by
    unfold closings
    split <;> rfl
  cases atoms with
  | nil => rfl
  | cons first rest =>
      simp [chainSigns, List.filterMap_flatMap, hopenings, hclosings, Sign.lexeme?,
        List.map_eq_flatMap]

theorem lexemes_bracketedSigns (shape : Shape) (fields : List Sign) :
    (bracketedSigns shape fields).filterMap Sign.lexeme? =
      .mark shape.opening :: fields.filterMap Sign.lexeme? ++ [.mark shape.closing] := by
  simp [bracketedSigns, Sign.lexeme?]

mutual

/-- Without its parentheses a field has the lexemes of the grammar. -/
theorem Field.lexemes_signs (f : Field) : f.signs.filterMap Sign.lexeme? = f.lexemes := by
  cases f with
  | plain key atoms =>
      simp [Field.signs, labelledSigns, lexemes_chainSigns, Field.lexemes, Sign.lexeme?]
  | literal key atoms shape fields =>
      have hfields := Field.lexemes_signsAll shape true fields
      simp [Field.signs, labelledSigns, lexemes_chainSigns, lexemes_bracketedSigns, hfields,
        Field.lexemes, Sign.lexeme?]

theorem Field.lexemes_signsAll (shape : Shape) (isFirst : Bool) (fields : List Field) :
    (Field.signsAll shape isFirst fields).filterMap Sign.lexeme? =
      Field.lexemesAll shape isFirst fields := by
  cases fields with
  | nil => rfl
  | cons f rest =>
      rw [Field.signsAll, List.filterMap_append, List.filterMap_append, Field.lexemes_signs f,
        Field.lexemes_signsAll shape false rest, Field.lexemesAll]
      cases isFirst <;> rfl

end

theorem RecordType.lexemes_signs (r : RecordType) :
    r.signs.filterMap Sign.lexeme? = r.lexemes := by
  rw [RecordType.signs, lexemes_bracketedSigns, Field.lexemes_signsAll]
  rfl

/-! ## Pieces of printed text -/

theorem carriesOn_append {first second : List Char} (hfirst : carriesOn first = false)
    (hsecond : carriesOn second = false) : carriesOn (first ++ second) = false := by
  cases first with
  | nil => exact hsecond
  | cons c first => exact hfirst

theorem Spells.before {first second : List Char} {ls ms : List Lexeme} (hfirst : Spells first ls)
    (hsecond : Spells second ms) (hseam : carriesOn second = false) :
    Spells (first ++ second) (ls ++ ms) :=
  hfirst.append hsecond fun _ => hseam

theorem writes_label {key : String} (h : IsLabel key) :
    Writes key.toList [.lexeme (.ofLabel key)] := by
  simpa [Lexeme.text_ofLabel] using (isLabel_iff.mp h).writes

theorem writes_name {name : String} (h : IsName name) :
    Writes name.toList [.lexeme (.identifier name)] :=
  (isName_iff.mp h).writes

theorem writes_tabs (level : Nat) : Writes (tabs level).toList [] := by
  have htab : ∀ c ∈ (tabs level).toList, c = '\t' := by
    simp only [tabs, String.toList_ofList]
    exact fun c hc => (List.mem_replicate.mp hc).2
  have hignored : (tabs level).toList.all isIgnored = true :=
    List.all_eq_true.mpr fun c hc => by rw [htab c hc]; decide
  have hparens : parens (tabs level).toList = [] :=
    List.filterMap_eq_nil_iff.mpr fun c hc => by rw [htab c hc]; rfl
  simpa only [hparens] using writes_ignored hignored

theorem endsInName_tabs (level : Nat) : endsInName (tabs level).toList = false := by
  cases level with
  | zero => rfl
  | succ level => simp [tabs, List.replicate_succ', endsInName]; decide

/-- Texts that start with gaps are read one after the other. -/
theorem writes_join {α : Type} (items : List α) (text : α → String) (signs : α → List Sign)
    (h : ∀ a ∈ items, Writes (text a).toList (signs a) ∧ carriesOn (text a).toList = false) :
    Writes (String.join (items.map text)).toList (items.flatMap signs) ∧
      carriesOn (String.join (items.map text)).toList = false := by
  induction items with
  | nil => exact ⟨writes_ignored (by simp), rfl⟩
  | cons a rest ih =>
      obtain ⟨ha, hcarries⟩ := h a List.mem_cons_self
      obtain ⟨hrest, hrestCarries⟩ := ih fun b hb => h b (List.mem_cons_of_mem a hb)
      rw [List.map_cons, String.join_cons, String.toList_append, List.flatMap_cons]
      exact ⟨ha.before hrest hrestCarries, carriesOn_append hcarries hrestCarries⟩

/-! ## Applications -/

theorem intercalate_space_cons (first : String) (rest : List String) :
    " ".intercalate (first :: rest) = first ++ String.join (rest.map (" " ++ ·)) := by
  induction rest generalizing first with
  | nil => simp
  | cons second rest ih =>
      rw [String.intercalate_cons_cons, ih, List.map_cons, String.join_cons]
      simp [String.append_assoc]

def openingText (parts : Nat) : String :=
  if parts ≤ 2 then " " else " ( "

def closingText (parts : Nat) : String :=
  if parts ≤ 2 then "" else " )"

/-- With or without parentheses, the parts of an application stand apart. -/
theorem chain_cons (first : String) (rest : List String) (tail : Option String) :
    chain (first :: rest) tail =
      let parts := rest.length + 1 + tail.toList.length
      first ++ String.join (rest.map (openingText parts ++ ·))
        ++ String.join (tail.toList.map (" " ++ ·))
        ++ String.join (rest.map fun _ => closingText parts) := by
  unfold chain openingText closingText
  simp only [List.length_cons]
  split
  · have hclosing : String.join (rest.map fun _ => "") = "" := by
      rw [← String.toList_inj, String.toList_join]
      simp
    rw [List.cons_append, intercalate_space_cons, List.map_append, String.join_append, hclosing]
    simp [String.append_assoc]
  · rfl

theorem chain_nil (tail : Option String) : chain [] tail = String.join tail.toList := by
  cases tail <;> simp [chain]

theorem writes_gap_append (parts : Nat) {text : String} {signs : List Sign}
    (h : Writes text.toList signs) :
    Writes (openingText parts ++ text).toList (openings parts ++ signs) ∧
      carriesOn (openingText parts ++ text).toList = false := by
  rw [String.toList_append]
  unfold openingText openings
  split
  · exact ⟨(writes_ignored (by decide)).after h (by decide), rfl⟩
  · exact ⟨(writes_ignored (by decide)).after h (by decide), rfl⟩

theorem writes_closingText (parts : Nat) :
    Writes (closingText parts).toList (closings parts) ∧
      carriesOn (closingText parts).toList = false := by
  unfold closingText closings
  split
  · exact ⟨writes_ignored (by decide), rfl⟩
  · exact ⟨writes_ignored (by decide), rfl⟩

theorem writes_chain {atoms : List String} {tail : Option String} {signs : Option (List Sign)}
    (hatoms : ∀ name ∈ atoms, IsName name)
    (htail : Option.Rel (fun text ss => Writes text.toList ss) tail signs) :
    Writes (chain atoms tail).toList (chainSigns atoms signs) := by
  have hspaced : Writes (String.join (tail.toList.map (" " ++ ·))).toList (signs.getD []) ∧
      carriesOn (String.join (tail.toList.map (" " ++ ·))).toList = false := by
    cases htail with
    | none => exact ⟨writes_ignored (by simp), rfl⟩
    | some htext => simpa [openingText, openings] using writes_gap_append 0 htext
  have hlength : tail.toList.length = signs.toList.length := by
    cases htail <;> rfl
  cases atoms with
  | nil =>
      rw [chain_nil]
      cases htail with
      | none => exact writes_ignored (by simp)
      | some htext => simpa [chainSigns] using htext
  | cons first rest =>
      rw [chain_cons, chainSigns, hlength]
      generalize rest.length + 1 + signs.toList.length = parts
      have hfirst := writes_name (hatoms first List.mem_cons_self)
      obtain ⟨hnames, hnamesSeam⟩ := writes_join rest (openingText parts ++ ·)
        (fun name => openings parts ++ [.lexeme (.identifier name)]) fun name hname =>
          writes_gap_append parts (writes_name (hatoms name (List.mem_cons_of_mem first hname)))
      obtain ⟨hclosings, hclosingsSeam⟩ := writes_join rest (fun _ => closingText parts)
        (fun _ => closings parts) fun _ _ => writes_closingText parts
      have hall := ((hfirst.before hnames hnamesSeam).before hspaced.1 hspaced.2).before hclosings
        hclosingsSeam
      simpa only [String.toList_append, List.singleton_append] using hall

/-! ## Literals -/

theorem endsInName_append_of_sealed {first second : List Char} (hfirst : endsInName first = false)
    (hsecond : endsInName second = false) : endsInName (first ++ second) = false := by
  by_cases h : second = []
  · rw [h, List.append_nil]
    exact hfirst
  · rw [endsInName_append h]
    exact hsecond

theorem endsInName_render (level : Nat) (f : Field) :
    endsInName (f.render level).toList = false := by
  have hnewline : endsInName "\n".toList = false := by decide
  rw [Field.render_eq, String.toList_append, endsInName_append (by decide)]
  exact hnewline

theorem writes_continuation (shape : Shape) (isFirst : Bool) :
    Writes (if isFirst then "" else shape.continuation).toList (separatorSigns shape isFirst) ∧
      endsInName (if isFirst then "" else shape.continuation).toList = false := by
  cases isFirst with
  | true => exact ⟨writes_ignored (by simp), rfl⟩
  | false =>
      have hspace : Writes [' '] [] := writes_ignored (by decide)
      cases shape with
      | record => exact ⟨(writes_mark .comma).after hspace (by decide), by decide⟩
      | union =>
          exact ⟨hspace.after ((writes_mark .bar).after hspace (by decide)) (by decide), by decide⟩

/-- A line of a literal up to the label of its field. -/
theorem writes_indented (shape : Shape) (level : Nat) (isFirst : Bool) :
    Writes (tabs level ++ if isFirst then "" else shape.continuation).toList
        (separatorSigns shape isFirst) ∧
      endsInName (tabs level ++ if isFirst then "" else shape.continuation).toList = false := by
  obtain ⟨hwrites, hsealed⟩ := writes_continuation shape isFirst
  rw [String.toList_append]
  exact ⟨(writes_tabs level).after hwrites (endsInName_tabs level),
    endsInName_append_of_sealed (endsInName_tabs level) hsealed⟩

theorem endsInName_renderFields (shape : Shape) (level : Nat) (isFirst : Bool)
    (fields : List Field) :
    endsInName (Field.renderFields shape level isFirst fields).toList = false := by
  induction fields generalizing isFirst with
  | nil => rfl
  | cons f rest ih =>
      rw [Field.renderFields, String.toList_append, String.toList_append]
      exact endsInName_append_of_sealed (endsInName_append_of_sealed
        (writes_indented shape level isFirst).2 (endsInName_render level f)) (ih false)

theorem writes_bracketed (shape : Shape) (level : Nat) {fields : String} {signs : List Sign}
    (h : Writes fields.toList signs) (hsealed : endsInName fields.toList = false) :
    Writes (bracketed shape level fields).toList (bracketedSigns shape signs) := by
  have hbreak : Writes "\n".toList [] := writes_ignored (by decide)
  have hopening := (writes_mark shape.opening).before hbreak (by decide)
  have hclosing := (writes_tabs (level - 1)).after (writes_mark shape.closing)
    (endsInName_tabs (level - 1))
  have hopened : endsInName ([shape.opening.char] ++ "\n".toList) = false := by
    cases shape <;> decide
  have hfields := (hopening.after h hopened).after hclosing
    (endsInName_append_of_sealed hopened hsealed)
  simpa [bracketed, bracketedSigns] using hfields

theorem writes_labelled {key value : String} {signs : List Sign} (hkey : IsLabel key)
    (hvalue : Writes value.toList signs) :
    Writes (key ++ ": " ++ value ++ "\n").toList (labelledSigns key signs) := by
  have hcolon : Writes ": ".toList [.lexeme (.mark .colon)] :=
    (writes_mark .colon).after (writes_ignored (by decide)) (by decide)
  have hlabel := (writes_label hkey).before hcolon (by decide)
  have hseam : endsInName (key.toList ++ ": ".toList) = false := by
    rw [endsInName_append (by decide)]
    decide
  have hbreak : Writes "\n".toList [] := writes_ignored (by decide)
  simpa [labelledSigns] using (hlabel.after hvalue hseam).before hbreak (by decide)

mutual

theorem writes_field (level : Nat) (f : Field) (h : f.Readable) :
    Writes (f.render level).toList f.signs := by
  cases f with
  | plain key atoms =>
      rw [Field.render, Field.signs]
      exact writes_labelled h.1 (writes_chain h.2 .none)
  | literal key atoms shape fields =>
      obtain ⟨hkey, hatoms, hfields⟩ := h
      have hbody := writes_bracketed shape (level + 1 + shape.inset)
        (writes_fields shape (level + 1 + shape.inset) true fields hfields)
        (endsInName_renderFields shape _ true fields)
      rw [Field.render, Field.signs]
      exact writes_labelled hkey (writes_chain hatoms (.some hbody))

theorem writes_fields (shape : Shape) (level : Nat) (isFirst : Bool) (fields : List Field)
    (h : Field.ReadableAll fields) :
    Writes (Field.renderFields shape level isFirst fields).toList
      (Field.signsAll shape isFirst fields) := by
  cases fields with
  | nil => exact writes_ignored (by simp [Field.renderFields])
  | cons f rest =>
      obtain ⟨hindented, hsealed⟩ := writes_indented shape level isFirst
      have hline := hindented.after (writes_field level f h.1) hsealed
      have hline' := hline.after (writes_fields shape level false rest h.2)
        (endsInName_append_of_sealed hsealed (endsInName_render level f))
      rw [Field.renderFields, String.toList_append, String.toList_append]
      exact hline'

end

theorem RecordType.writes_render (r : RecordType) (h : r.Readable) (level : Nat) :
    Writes (r.render level).toList r.signs :=
  writes_bracketed .record level (writes_fields .record level true r.fields h)
    (endsInName_renderFields .record level true r.fields)

theorem RecordType.spells_render (r : RecordType) (h : r.Readable) (level : Nat) :
    Spells (r.render level).toList r.lexemes := by
  have hspells := (r.writes_render h level).spells
  rwa [RecordType.lexemes_signs] at hspells

/-- Every record type with readable labels and names is read back from its printed form, if its
literals are not nested too deeply. -/
theorem parse_render (r : RecordType) (h : r.Readable) (hnesting : r.nesting ≤ maxNesting)
    (level : Nat) : parse (r.render level) = .ok r :=
  parse_eq_ok_iff_spells.mpr ⟨r.spells_render h level, hnesting⟩

def mixedRecord : RecordType :=
  ⟨[.plain "`a, b`" ["Map", "Text", "Text"], .plain "c" [], .literal "c" [] .record [],
    .literal "d" ["Optional", "List", "List"] .union
      [.plain "E" [], .literal "F" ["List"] .union [],
        .literal "G" [] .record [.plain "c" ["Bool"]]]]⟩

theorem parse_render_mixedRecord :
    mixedRecord.Readable ∧ mixedRecord.nesting ≤ maxNesting ∧
      parse (mixedRecord.render 0) = .ok mixedRecord := by
  have hreadable : mixedRecord.Readable := by decide
  have hnesting : mixedRecord.nesting ≤ maxNesting := by decide
  exact ⟨hreadable, hnesting, parse_render mixedRecord hreadable hnesting 0⟩

end ManifestTypes.TypeExpr
