import ManifestTypes.Proofs.Json.Tokens
import ManifestTypes.Proofs.Value.Nodes

/-!
# Reading back what was written

The text of a value, put anywhere in a document where a value may stand, is read as the value. By
induction on the value this holds inside lists and objects, and so of the whole document.
-/

namespace ManifestTypes.Json

open Assembly (Frame State Symbol)

/-! ## Written texts -/

/-- The items behind another, each with its comma, and the closing bracket. -/
def itemsRest (closing : Char) (items : List String) (rest : List Char) : List Char :=
  items.flatMap (fun item => ',' :: item.toList) ++ closing :: rest

theorem itemsRest_cons (closing : Char) (item : String) (items : List String) (rest : List Char) :
    itemsRest closing (item :: items) rest =
      ',' :: (item.toList ++ itemsRest closing items rest) := by
  simp [itemsRest]

/-- No number goes on behind an item. -/
theorem head?_itemsRest (closing : Char) (h : continuesNumber closing = false)
    (items : List String) (rest : List Char) :
    (itemsRest closing items rest).head?.any continuesNumber = false := by
  cases items with
  | nil => exact h
  | cons item items => rfl

theorem toList_intercalate (item : String) (items : List String) (closing : Char)
    (rest : List Char) :
    (",".intercalate (item :: items)).toList ++ closing :: rest =
      item.toList ++ itemsRest closing items rest := by
  induction items generalizing item with
  | nil => simp [itemsRest]
  | cons second items ih =>
      rw [String.intercalate_cons_cons, String.toList_append, String.toList_append,
        List.append_assoc, ih second, itemsRest_cons]
      simp

theorem compactElements_eq_map (elements : List Value) :
    compactElements elements = elements.map compact := by
  induction elements with
  | nil => rfl
  | cons v rest ih => rw [compactElements, ih, List.map_cons]

def memberText (m : String × Value) : String :=
  quoted m.1 ++ ":" ++ compact m.2

theorem compactMembers_eq_map (members : List (String × Value)) :
    compactMembers members = members.map memberText := by
  induction members with
  | nil => rfl
  | cons m rest ih => rw [compactMembers, ih, List.map_cons, memberText]

theorem toList_compact_list (v : Value) (elements : List Value) (rest : List Char) :
    (compact (.list (v :: elements))).toList ++ rest =
      '[' :: ((compact v).toList ++ itemsRest ']' (elements.map compact) rest) := by
  rw [← toList_intercalate, compact, compactElements_eq_map]
  simp

theorem toList_compact_object (m : String × Value) (members : List (String × Value))
    (rest : List Char) :
    (compact (.object (m :: members))).toList ++ rest =
      '\x7b' :: ((memberText m).toList ++ itemsRest '\x7d' (members.map memberText) rest) := by
  rw [← toList_intercalate, compact, compactMembers_eq_map]
  simp

/-! ## States -/

section States

variable {limit : Nat} {outer : List (Frame Unit)} {state : State Unit}

/-- The state takes the first symbol of a value inside `outer`. It may take the end of a list
otherwise. -/
def Awaits (state : State Unit) (outer : List (Frame Unit)) : Prop :=
  ∀ limit symbol, symbol ≠ .closeList →
    state.step limit () symbol = State.begin limit outer () symbol

def AwaitsKey (state : State Unit) (outer : List (Frame Unit))
    (entries : Array (String × Node)) : Prop :=
  ∀ limit key,
    state.step limit () (.scalar (.string key)) = State.readKey outer () entries key

theorem awaits_value (outer : List (Frame Unit)) : Awaits (.value outer) outer :=
  fun _ _ _ => rfl

theorem awaits_listOpened (outer : List (Frame Unit)) :
    Awaits (.listOpened outer ()) (.list () #[] :: outer) := by
  intro limit symbol h
  cases symbol with
  | closeList => exact absurd rfl h
  | _ => rfl

theorem awaitsKey_objectOpened (outer : List (Frame Unit)) :
    AwaitsKey (.objectOpened outer ()) outer #[] :=
  fun _ _ => rfl

theorem awaitsKey_nextKey (outer : List (Frame Unit)) (entries : Array (String × Node)) :
    AwaitsKey (.nextKey outer () entries) outer entries :=
  fun _ _ => rfl

theorem step_of_symbol {t : Token} {symbol : Symbol} {state' : State Unit}
    (hsymbol : t.symbol = .ok symbol) (hstep : state.step limit () symbol = .ok state') :
    step limit state t = .ok state' := by
  rw [step, hsymbol]
  show (state.step limit () symbol).mapError ReadError.ofTrouble = .ok state'
  rw [hstep]
  rfl

/-- A node of one token is delivered at once. -/
theorem readFrom_scalar {text rest : List Char} {t : Token} {node : Node}
    (hawaits : Awaits state outer) (htoken : token? text = some (t, rest))
    (hsymbol : t.symbol = .ok (.scalar node)) :
    readFrom limit state text = readFrom limit (State.deliver outer node) rest :=
  readFrom_token htoken (step_of_symbol hsymbol (hawaits limit _ nofun))

theorem readFrom_openList {rest : List Char} (hawaits : Awaits state outer)
    (hdepth : outer.length < limit) :
    readFrom limit state ('[' :: rest) = readFrom limit (.listOpened outer ()) rest := by
  refine readFrom_token rfl (step_of_symbol rfl ?_)
  rw [hawaits limit .openList nofun, State.begin, if_pos hdepth]

theorem readFrom_openObject {rest : List Char} (hawaits : Awaits state outer)
    (hdepth : outer.length < limit) :
    readFrom limit state ('\x7b' :: rest) = readFrom limit (.objectOpened outer ()) rest := by
  refine readFrom_token rfl (step_of_symbol rfl ?_)
  rw [hawaits limit .openObject nofun, State.begin, if_pos hdepth]

/-- A key that the object does not have yet. -/
theorem readFrom_key {entries : Array (String × Node)} {key : String} {rest : List Char}
    (hawaits : AwaitsKey state outer entries) (hfresh : key ∉ Keyed.keys entries.toList) :
    readFrom limit state ((quoted key).toList ++ ':' :: rest) =
      readFrom limit (.value (.object () entries key :: outer)) rest := by
  have hkeyed : state.step limit () (.scalar (.string key)) =
      .ok (.keyed outer () entries key) := by
    rw [hawaits, State.readKey, if_neg]
    rw [Array.any_eq_true']
    rintro ⟨e, he, hkey⟩
    exact hfresh (List.mem_map.mpr ⟨e, Array.mem_toList_iff.mpr he, eq_of_beq hkey⟩)
  calc readFrom limit state ((quoted key).toList ++ ':' :: rest)
      = readFrom limit (.keyed outer () entries key) (':' :: rest) :=
        readFrom_token (token?_quoted key _) (step_of_symbol rfl hkeyed)
    _ = readFrom limit (.value (.object () entries key :: outer)) rest :=
        readFrom_token rfl (step_of_symbol rfl rfl)

end States

/-! ## Values where a value may stand -/

def landed (v : Value) : Node :=
  v.finiteOrNull.toNode

theorem landed_list (elements : List Value) :
    landed (.list elements) = .sequence (elements.map landed) := by
  rw [landed, Value.finiteOrNull_list, Value.toNode_list, List.map_map]
  rfl

theorem landed_object (members : List (String × Value)) :
    landed (.object members) = .mapping (members.map fun m => (.string m.1, landed m.2)) := by
  rw [landed, Value.finiteOrNull_object, Value.toNode_object, List.map_map]
  rfl

/-- The text of the value brings a state that awaits a value to the state behind it, with the value
in its place. -/
def Lands (limit : Nat) (v : Value) : Prop :=
  ∀ {state : State Unit} {outer : List (Frame Unit)} {rest : List Char}, Awaits state outer →
    outer.length + v.depth ≤ limit → rest.head?.any continuesNumber = false →
    readFrom limit state ((compact v).toList ++ rest) =
      readFrom limit (State.deliver outer (landed v)) rest

/-- The text of a floating-point number is read as the number. -/
def ReadsBack (x : Float) : Prop :=
  ∀ n, numeral? (decimalText x).toList = some (n, []) → n.toFloat = x

section Atoms

variable {limit : Nat}

theorem lands_integer (n : Int64) : Lands limit (.integer n) := by
  intro state outer rest hawaits _ hrest
  have hnumeral : numeral? ((compact (.integer n)).toList ++ rest) =
      some ((integerSpelling n.toInt).numeral, rest) := by
    rw [compact, ← text_integerSpelling]
    exact numeral?_text (proper_integerSpelling n.toInt) hrest
  refine readFrom_scalar hawaits (token?_numeral hnumeral) ?_
  rw [Token.symbol, number?_integer n.le_toInt n.toInt_lt]
  rfl

theorem lands_decimal {x : Float} (hread : x.isFinite = true → ReadsBack x) :
    Lands limit (.decimal x) := by
  intro state outer rest hawaits _ hrest
  rw [compact, landed, Value.finiteOrNull]
  by_cases hfinite : x.isFinite = true
  · obtain ⟨s, hproper, htext, hwhole⟩ := exists_spelling_decimal hfinite
    have hvalue : s.numeral.toFloat = x := by
      refine hread hfinite s.numeral ?_
      rw [← htext, ← List.append_nil s.text]
      exact numeral?_text hproper rfl
    have hnumeral : numeral? ((decimalText x).toList ++ rest) = some (s.numeral, rest) := by
      rw [← htext]
      exact numeral?_text hproper hrest
    refine readFrom_scalar hawaits (token?_numeral hnumeral) ?_
    rw [Token.symbol, number?_decimal hwhole hfinite hvalue, if_pos hfinite]
    rfl
  · have hnull : decimalText x = "null" := if_neg hfinite
    rw [hnull, if_neg hfinite]
    exact readFrom_scalar hawaits (t := .null) rfl rfl

theorem lands_atom {v : Value} (helements : v.elements? = none) (hmembers : v.members? = none)
    (hread : ∀ x ∈ v.decimals, x.isFinite = true → ReadsBack x) : Lands limit v := by
  cases v with
  | null => exact fun hawaits _ _ => readFrom_scalar hawaits (t := .null) rfl rfl
  | boolean b =>
      intro state outer rest hawaits _ _
      cases b with
      | false => exact readFrom_scalar hawaits (t := .boolean false) rfl rfl
      | true => exact readFrom_scalar hawaits (t := .boolean true) rfl rfl
  | integer n => exact lands_integer n
  | decimal x => exact lands_decimal (hread x (List.mem_singleton_self x))
  | string s => exact fun hawaits _ _ => readFrom_scalar hawaits (token?_quoted s _) rfl
  | list elements => cases helements
  | object members => cases hmembers

end Atoms

section Brackets

variable {limit : Nat} {outer : List (Frame Unit)}

/-- The elements behind another, and the closing bracket. -/
theorem readFrom_elements {elements : List Value} (hlands : ∀ v ∈ elements, Lands limit v)
    (hdepth : ∀ v ∈ elements, outer.length + 1 + v.depth ≤ limit) (before : Array Node)
    (rest : List Char) :
    readFrom limit (.element outer () before) (itemsRest ']' (elements.map compact) rest) =
      readFrom limit (State.deliver outer (.sequence (before.toList ++ elements.map landed)))
        rest := by
  induction elements generalizing before with
  | nil =>
      rw [List.map_nil, List.map_nil, List.append_nil]
      exact readFrom_token rfl (step_of_symbol rfl rfl)
  | cons v elements ih =>
      have hnext := head?_itemsRest ']' rfl (elements.map compact) rest
      calc readFrom limit (.element outer () before)
            (itemsRest ']' ((v :: elements).map compact) rest)
          = readFrom limit (.value (.list () before :: outer))
              ((compact v).toList ++ itemsRest ']' (elements.map compact) rest) := by
            rw [List.map_cons, itemsRest_cons]
            exact readFrom_token rfl (step_of_symbol rfl rfl)
        _ = readFrom limit (.element outer () (before.push (landed v)))
              (itemsRest ']' (elements.map compact) rest) :=
            hlands v List.mem_cons_self (awaits_value _) (hdepth v List.mem_cons_self) hnext
        _ = readFrom limit (State.deliver outer
              (.sequence (before.toList ++ (v :: elements).map landed))) rest := by
            rw [ih (fun w hw => hlands w (List.mem_cons_of_mem v hw))
              (fun w hw => hdepth w (List.mem_cons_of_mem v hw)), Array.toList_push,
              List.append_assoc, List.map_cons, List.singleton_append]

theorem lands_list {elements : List Value} (hlands : ∀ v ∈ elements, Lands limit v) :
    Lands limit (.list elements) := by
  intro state outer rest hawaits hdepth _
  have hopen : outer.length < limit := by
    rw [Value.depth] at hdepth
    omega
  have hinside : ∀ v ∈ elements, outer.length + 1 + v.depth ≤ limit := by
    intro v hv
    have := Value.depth_lt_list hv
    omega
  cases elements with
  | nil =>
      exact (readFrom_openList hawaits hopen).trans (readFrom_token rfl (step_of_symbol rfl rfl))
  | cons v elements =>
      have hnext := head?_itemsRest ']' rfl (elements.map compact) rest
      calc readFrom limit state ((compact (.list (v :: elements))).toList ++ rest)
          = readFrom limit (.listOpened outer ())
              ((compact v).toList ++ itemsRest ']' (elements.map compact) rest) := by
            rw [toList_compact_list, readFrom_openList hawaits hopen]
        _ = readFrom limit (.element outer () #[landed v])
              (itemsRest ']' (elements.map compact) rest) :=
            hlands v List.mem_cons_self (awaits_listOpened outer) (hinside v List.mem_cons_self)
              hnext
        _ = readFrom limit (State.deliver outer (.sequence ([landed v] ++ elements.map landed)))
              rest :=
            readFrom_elements (fun w hw => hlands w (List.mem_cons_of_mem v hw))
              (fun w hw => hinside w (List.mem_cons_of_mem v hw)) _ rest
        _ = readFrom limit (State.deliver outer (landed (.list (v :: elements)))) rest := by
            rw [landed_list, List.map_cons, List.singleton_append]

/-- A key with its value. -/
theorem readFrom_member {state : State Unit} {entries : Array (String × Node)}
    {m : String × Value} {rest : List Char} (hlands : Lands limit m.2)
    (hawaits : AwaitsKey state outer entries) (hfresh : m.1 ∉ Keyed.keys entries.toList)
    (hdepth : outer.length + 1 + m.2.depth ≤ limit)
    (hrest : rest.head?.any continuesNumber = false) :
    readFrom limit state ((memberText m).toList ++ rest) =
      readFrom limit (.entry outer () (entries.push (m.1, landed m.2))) rest := by
  calc readFrom limit state ((memberText m).toList ++ rest)
      = readFrom limit state ((quoted m.1).toList ++ ':' :: ((compact m.2).toList ++ rest)) := by
        simp [memberText]
    _ = readFrom limit (.value (.object () entries m.1 :: outer)) ((compact m.2).toList ++ rest) :=
        readFrom_key hawaits hfresh
    _ = readFrom limit (.entry outer () (entries.push (m.1, landed m.2))) rest :=
        hlands (awaits_value _) hdepth hrest

/-- The members behind another, and the closing bracket. -/
theorem readFrom_members {members : List (String × Value)}
    (hlands : ∀ m ∈ members, Lands limit m.2)
    (hdepth : ∀ m ∈ members, outer.length + 1 + m.2.depth ≤ limit)
    (before : Array (String × Node))
    (hkeys : (Keyed.keys before.toList ++ Keyed.keys members).Nodup) (rest : List Char) :
    readFrom limit (.entry outer () before) (itemsRest '\x7d' (members.map memberText) rest) =
      readFrom limit (State.deliver outer (Assembly.objectNode
        (before ++ (members.map fun m => (m.1, landed m.2)).toArray))) rest := by
  induction members generalizing before with
  | nil =>
      rw [List.map_nil, List.map_nil, Array.append_empty]
      exact readFrom_token rfl (step_of_symbol rfl rfl)
  | cons m members ih =>
      have hnext := head?_itemsRest '\x7d' rfl (members.map memberText) rest
      have hfresh : m.1 ∉ Keyed.keys before.toList := fun hmem =>
        (List.nodup_append.mp hkeys).2.2 m.1 hmem m.1 List.mem_cons_self rfl
      have hkeys' : (Keyed.keys (before.push (m.1, landed m.2)).toList ++
          Keyed.keys members).Nodup := by
        simpa [Keyed.keys] using hkeys
      calc readFrom limit (.entry outer () before)
            (itemsRest '\x7d' ((m :: members).map memberText) rest)
          = readFrom limit (.nextKey outer () before)
              ((memberText m).toList ++ itemsRest '\x7d' (members.map memberText) rest) := by
            rw [List.map_cons, itemsRest_cons]
            exact readFrom_token rfl (step_of_symbol rfl rfl)
        _ = readFrom limit (.entry outer () (before.push (m.1, landed m.2)))
              (itemsRest '\x7d' (members.map memberText) rest) :=
            readFrom_member (hlands m List.mem_cons_self) (awaitsKey_nextKey outer before) hfresh
              (hdepth m List.mem_cons_self) hnext
        _ = readFrom limit (State.deliver outer (Assembly.objectNode
              (before ++ ((m :: members).map fun m => (m.1, landed m.2)).toArray))) rest := by
            rw [ih (fun w hw => hlands w (List.mem_cons_of_mem m hw))
              (fun w hw => hdepth w (List.mem_cons_of_mem m hw)) _ hkeys']
            simp

theorem lands_object {members : List (String × Value)} (hkeys : (Keyed.keys members).Nodup)
    (hlands : ∀ m ∈ members, Lands limit m.2) : Lands limit (.object members) := by
  intro state outer rest hawaits hdepth _
  have hopen : outer.length < limit := by
    rw [Value.depth] at hdepth
    omega
  have hinside : ∀ m ∈ members, outer.length + 1 + m.2.depth ≤ limit := by
    intro m hm
    have := Value.depth_lt_object hm
    omega
  cases members with
  | nil =>
      exact (readFrom_openObject hawaits hopen).trans
        (readFrom_token rfl (step_of_symbol rfl rfl))
  | cons m members =>
      have hnext := head?_itemsRest '\x7d' rfl (members.map memberText) rest
      calc readFrom limit state ((compact (.object (m :: members))).toList ++ rest)
          = readFrom limit (.objectOpened outer ())
              ((memberText m).toList ++ itemsRest '\x7d' (members.map memberText) rest) := by
            rw [toList_compact_object, readFrom_openObject hawaits hopen]
        _ = readFrom limit (.entry outer () #[(m.1, landed m.2)])
              (itemsRest '\x7d' (members.map memberText) rest) :=
            readFrom_member (hlands m List.mem_cons_self) (awaitsKey_objectOpened outer)
              List.not_mem_nil (hinside m List.mem_cons_self) hnext
        _ = readFrom limit (State.deliver outer (Assembly.objectNode
              (#[(m.1, landed m.2)] ++ (members.map fun m => (m.1, landed m.2)).toArray))) rest :=
            readFrom_members (fun w hw => hlands w (List.mem_cons_of_mem m hw))
              (fun w hw => hinside w (List.mem_cons_of_mem m hw)) #[(m.1, landed m.2)] hkeys rest
        _ = readFrom limit (State.deliver outer (landed (.object (m :: members)))) rest := by
            rw [landed_object, Assembly.objectNode]
            simp [Function.comp_def]

/-- Every value lands, at any place and whatever stands behind it. -/
theorem lands {v : Value} (hkeys : v.Distinct)
    (hread : ∀ x ∈ v.decimals, x.isFinite = true → ReadsBack x) : Lands limit v := by
  induction v using Value.induction with
  | atom v helements hmembers => exact lands_atom helements hmembers hread
  | list elements ih =>
      rw [Value.decimals_list] at hread
      exact lands_list fun v hv => ih v hv (Value.distinctAll_iff.mp hkeys v hv)
        fun x hx => hread x (List.mem_flatMap_of_mem hv hx)
  | object members ih =>
      rw [Value.decimals_object] at hread
      exact lands_object hkeys.1 fun m hm => ih m hm (Value.distinctEach_iff.mp hkeys.2 m hm)
        fun x hx => hread x (List.mem_flatMap_of_mem hm hx)

end Brackets

/-! ## Whole documents -/

/-- The compact text of a value is read as the value, with null for every floating-point number
that is not finite. -/
theorem readWithin_compact {v : Value} (hkeys : v.Distinct) {limit : Nat} (hdepth : v.depth ≤ limit)
    (hread : ∀ x ∈ v.decimals, x.isFinite = true → ReadsBack x) :
    readWithin limit (compact v) = .ok v.finiteOrNull := by
  have hcomplete : readFrom limit (.value []) (compact v).toList = .ok (.complete (landed v)) := by
    have hlands : Lands limit v := lands hkeys hread
    calc readFrom limit (.value []) (compact v).toList
        = readFrom limit (.value []) ((compact v).toList ++ []) := by rw [List.append_nil]
      _ = readFrom limit (.complete (landed v)) [] :=
          hlands (awaits_value []) (by rwa [List.length_nil, Nat.zero_add]) rfl
      _ = .ok (.complete (landed v)) := readFrom_nil
  rw [readWithin, readNode_of_readFrom hcomplete, landed]
  simp only [Value.ofNode_toNode (Value.distinct_finiteOrNull hkeys)]

/-! ## A value of every kind -/

theorem readsBack_of_text {x : Float} {text : String} {n : Numeral} (htext : decimalText x = text)
    (hnumeral : numeral? text.toList = some (n, [])) (hvalue : n.toFloat = x) : ReadsBack x := by
  intro n' hn'
  rw [htext, hnumeral] at hn'
  cases hn'
  exact hvalue

theorem decimalText_of_shortest {x : Float} (hfinite : x.isFinite = true) {negative : Bool}
    {b : Decimal.Binary} (hparts : Decimal.Parts.ofBits x.toBits = .finite negative b)
    {d : Decimal} (hshortest : Decimal.shortest b = d) :
    decimalText x = (if negative then "-" else "") ++ Decimal.layout decimalStyle d := by
  rw [decimalText_of_finite hfinite hparts, hshortest]

theorem readsBack_integral : ReadsBack 2.0 := by
  have hparts : Decimal.Parts.ofBits (2.0 : Float).toBits = .finite false ⟨2 ^ 52, -51, true⟩ := by
    decide +kernel
  have hshortest : Decimal.shortest ⟨2 ^ 52, -51, true⟩ = ⟨2, 0⟩ :=
    Decimal.shortest_of_findSome? (by decide +kernel) (by decide)
  have htext : decimalText 2.0 = "2.0" :=
    decimalText_of_shortest (by decide +kernel) hparts hshortest
  refine readsBack_of_text htext (n := ⟨false, ['2'], ['0'], 0, false⟩) rfl ?_
  rw [Numeral.toFloat, Significand.scale]
  rfl

theorem readsBack_large : ReadsBack (-2.5e22) := by
  have hparts : Decimal.Parts.ofBits (-2.5e22 : Float).toBits =
      .finite true ⟨5960464477539062, 22, false⟩ := by
    decide +kernel
  have hshortest : Decimal.shortest ⟨5960464477539062, 22, false⟩ = ⟨25, 21⟩ :=
    Decimal.shortest_of_findSome? (by decide +kernel) (by decide)
  have htext : decimalText (-2.5e22) = "-2.5e+22" :=
    decimalText_of_shortest (by decide +kernel) hparts hshortest
  refine readsBack_of_text htext (n := ⟨true, ['2'], ['5'], 22, false⟩) rfl ?_
  rw [Numeral.toFloat, Significand.scale]
  rfl

theorem readsBack_negativeZero : ReadsBack (-0.0) := by
  have hparts : Decimal.Parts.ofBits (-0.0 : Float).toBits = .zero true := by
    decide +kernel
  have htext : decimalText (-0.0) = "-0.0" := decimalText_of_zero (by decide +kernel) hparts
  refine readsBack_of_text htext (n := ⟨true, ['0'], ['0'], 0, false⟩) rfl ?_
  rw [Numeral.toFloat, Significand.scale]
  rfl

/-- Numbers of both kinds, keys and texts that look like something else, and characters that are
escaped. One member is left open. -/
def everyKind (unknown : Value) : Value :=
  .object [
    ("true", .list [.integer Int64.minValue, .integer 0, .integer Int64.maxValue]),
    ("80", .list [.decimal 2.0, .decimal (-2.5e22), .decimal (-0.0), unknown]),
    ("\"\\\n\x00", .string "-1e3/\x7f\u00e9"),
    ("", .object [("null", .null), ("", .boolean false)]),
    ("none", .object []),
    ("empty", .list [])]

theorem readWithin_compact_everyKind :
    (everyKind (.decimal (0 / 0))).Distinct ∧ (everyKind (.decimal (0 / 0))).depth ≤ 2 ∧
      (∀ x ∈ (everyKind (.decimal (0 / 0))).decimals, x.isFinite = true → ReadsBack x) ∧
      readWithin 2 (compact (everyKind (.decimal (0 / 0)))) = .ok (everyKind .null) := by
  have hkeys : (everyKind (.decimal (0 / 0))).Distinct := by
    simp [everyKind, Value.Distinct, Value.DistinctAll, Value.DistinctEach, Keyed.keys]
  have hdepth : (everyKind (.decimal (0 / 0))).depth ≤ 2 := by
    decide
  have hread : ∀ x ∈ (everyKind (.decimal (0 / 0))).decimals, x.isFinite = true → ReadsBack x := by
    have hnan : (0 / 0 : Float).isFinite = false := by decide +kernel
    show ∀ x ∈ [2.0, -2.5e22, -0.0, 0 / 0], x.isFinite = true → ReadsBack x
    simp [readsBack_integral, readsBack_large, readsBack_negativeZero, hnan]
  have hvalue : (everyKind (.decimal (0 / 0))).finiteOrNull = everyKind .null := by
    rfl
  refine ⟨hkeys, hdepth, hread, ?_⟩
  rw [readWithin_compact hkeys hdepth hread, hvalue]

end ManifestTypes.Json
