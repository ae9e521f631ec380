import Mathlib.Data.List.Sort
import Northstar.Encoding

/-! JSON text that crosses from the TypeScript side to the broker: what serde_json reads from
a text JSON.stringify wrote, and the length of the text it writes for that again. -/
namespace Northstar

/- serde_json refuses the escape of a lone surrogate. -/
def readText (s : JsString) : Option String := ((points s).mapM pointChar).map String.ofList

/- A map's entries come in key order. -/
def sortKeys (fields : List (String × Value)) : List (String × Value) :=
  fields.insertionSort fun a b => a.1 ≤ b.1

mutual
def readBack : JsValue → Option Value
  | .undefined => some .null
  | .null => some .null
  | .bool value => some (.bool value)
  | .number value => some (.number value)
  | .string value => (readText value).map .string
  | .array items => (readItems items).map .array
  | .object fields => (readFields fields).map fun fields => .object (sortKeys fields)

def readItems : List JsValue → Option (List Value)
  | [] => some []
  | item :: rest => do
      let item ← readBack item
      let rest ← readItems rest
      pure (item :: rest)

def readFields : List (JsString × JsValue) → Option (List (String × Value))
  | [] => some []
  | (_,.undefined) :: rest => readFields rest
  | (key,value) :: rest => do
      let key ← readText key
      let value ← readBack value
      let rest ← readFields rest
      pure ((key,value) :: rest)
end

theorem utf8Chars (s : String) : utf8String s = s.toList.flatMap String.utf8EncodeChar := by
  rw [utf8String,← String.utf8Encode_toList,List.utf8Encode]
  simp

theorem utf8Js (s : String) : utf8 (js s) = utf8String s := by
  rw [utf8Chars,js]
  induction s.toList with
  | nil => rfl
  | cons c rest ih =>
    obtain ⟨points',char,clean'⟩ := charUnits c
    rw [List.flatMap_cons,List.flatMap_cons,utf8Append clean',ih,utf8,points',List.flatMap_singleton,
      utf8Units,char,Option.getD_some]

/- What was a Rust string on the way here is one on the way back. -/
theorem readJs (s : String) : readText (js s) = some s := by
  have chars (cs : List Char) : (points (cs.flatMap utf16Char)).mapM pointChar = some cs := by
    induction cs with
    | nil => rfl
    | cons c rest ih =>
      obtain ⟨points',char,clean'⟩ := charUnits c
      rw [List.flatMap_cons,pointsAppend clean',points',List.singleton_append,List.mapM_cons,char,ih]
      rfl
  rw [readText,js,chars,Option.map_some,String.ofList_toList]

theorem mapMWhole {α β : Type} (f : α → Option β) (items : List α) :
    (items.mapM f).isSome ↔ ∀ item ∈ items, (f item).isSome := by
  induction items with
  | nil => simp
  | cons item rest ih =>
    rw [List.mapM_cons,List.forall_mem_cons,← ih]
    cases f item <;> cases rest.mapM f <;> simp

/- Only a lone surrogate keeps a string from being read. -/
theorem readWhole (s : JsString) :
    (readText s).isSome ↔ ∀ u, [u] ∈ points s → surrogate u = false := by
  rw [readText,Option.isSome_map,mapMWhole]
  constructor
  · intro h u member
    have read := h [u] member
    cases lone : surrogate u with
    | false => rfl
    | true => simp [pointChar,lone] at read
  · intro h point member
    rcases pointShape member with ⟨u,rfl⟩ | ⟨u,v,rfl,_⟩
    · simp [pointChar,h u member]
    · rfl

theorem escapeAscii : ∀ n : Fin 128, utf8 (escapePoint [UInt16.ofNat n]) =
    (String.utf8EncodeChar (Char.ofNat n)).flatMap escapeByte := by decide

set_option maxRecDepth 16384 in
theorem highByte {n : Nat} (above : 128 ≤ n) (small : n < 256) :
    escapeByte (UInt8.ofNat n) = [UInt8.ofNat n] := by
  have range : ∀ n : Fin 256, 128 ≤ n.val → escapeByte (UInt8.ofNat n) = [UInt8.ofNat n] := by
    decide
  exact range ⟨n,small⟩ above

/- Every byte of a longer encoding is above the escaped ones. -/
theorem escapeWide {c : Char} (wide : 128 ≤ c.toNat) :
    (String.utf8EncodeChar c).flatMap escapeByte = String.utf8EncodeChar c := by
  have above : ¬c.val.toNat ≤ 0x7f := Nat.not_le.mpr wide
  unfold String.utf8EncodeChar
  dsimp only
  rw [if_neg above]
  split
  · simp (disch := omega) only [List.flatMap_cons,List.flatMap_nil,highByte,List.singleton_append,
      List.append_nil]
  · split
    · simp (disch := omega) only [List.flatMap_cons,List.flatMap_nil,highByte,List.singleton_append,
        List.append_nil]
    · simp (disch := omega) only [List.flatMap_cons,List.flatMap_nil,highByte,List.singleton_append,
        List.append_nil]

theorem plainScalar {u : UInt16} (plain : surrogate u = false) : u.toNat.isValidChar := by
  have small : u.toNat < 0x10000 := u.toNat_lt
  have same : UInt16.ofNat u.toNat = u := UInt16.ofNat_toNat
  rw [← same,surrogateUnit small] at plain
  simp only [Bool.and_eq_false_iff,decide_eq_false_iff_not] at plain
  unfold Nat.isValidChar
  omega

theorem escapePlain {u : UInt16} (plain : surrogate u = false) :
    utf8 (escapeUnit u) = (String.utf8EncodeChar (Char.ofNat u.toNat)).flatMap escapeByte := by
  by_cases ascii : u.toNat < 128
  · have same : UInt16.ofNat u.toNat = u := UInt16.ofNat_toNat
    have case' := escapeAscii ⟨u.toNat,ascii⟩
    rwa [same] at case'
  · have kept : escapeUnit u = [u] := by
      have above (n : UInt16) (below : n.toNat < 128) : u ≠ n := fun same => ascii (same ▸ below)
      have printed : ¬u < 32 := fun below => ascii (Nat.lt_trans (UInt16.lt_iff_toNat_lt.mp below) (by decide))
      unfold escapeUnit
      rw [if_neg (above 34 (by decide)),if_neg (above 92 (by decide)),if_neg (above 8 (by decide)),
        if_neg (above 12 (by decide)),if_neg (above 10 (by decide)),if_neg (above 13 (by decide)),
        if_neg (above 9 (by decide)),if_neg (by simp [printed,plain])]
    rw [kept,escapeWide (by rw [scalarToNat (plainScalar plain)]; omega)]
    simp only [utf8,points,List.flatMap_cons,List.flatMap_nil,List.append_nil,utf8Units,pointChar,plain,
      Bool.false_eq_true,if_false,Option.getD_some]

theorem escapeChar {s point : JsString} (member : point ∈ points s) {c : Char}
    (char : pointChar point = some c) :
    utf8 (escapePoint point) = (String.utf8EncodeChar c).flatMap escapeByte := by
  rcases pointShape member with ⟨u,rfl⟩ | ⟨u,v,rfl,high,low⟩
  · rw [pointChar] at char
    split at char
    · contradiction
    · rename_i plain
      cases char
      exact escapePlain (Bool.eq_false_iff.mpr plain)
  · obtain ⟨wide,bound⟩ := pairBounds high low
    have valid : (pairPoint u v).isValidChar := .inr ⟨by omega,bound⟩
    have same : Char.ofNat (pairPoint u v) = c := Option.some.inj char
    have above : 128 ≤ c.toNat := by
      rw [← same,scalarToNat valid]
      omega
    rw [escapeWide above]
    simp only [escapePoint,utf8,points,high,low,Bool.and_true,if_true,List.flatMap_cons,List.flatMap_nil,
      List.append_nil,utf8Units,char,Option.getD_some]

theorem surrogateHigh {u : UInt16} (high : highSurrogate u) : surrogate u = true := by
  obtain ⟨least,most⟩ := Bool.and_eq_true_iff.mp high
  exact Bool.and_eq_true_iff.mpr ⟨least,decide_eq_true (UInt16.lt_trans (of_decide_eq_true most) (by decide))⟩

theorem surrogateLow {u : UInt16} (low : lowSurrogate u) : surrogate u = true := by
  obtain ⟨least,most⟩ := Bool.and_eq_true_iff.mp low
  exact Bool.and_eq_true_iff.mpr ⟨decide_eq_true (UInt16.le_trans (by decide) (of_decide_eq_true least)),most⟩

theorem plainNotHigh {u : UInt16} (plain : surrogate u = false) : highSurrogate u = false := by
  by_contra high
  rw [surrogateHigh (Bool.not_eq_false _ ▸ high)] at plain
  contradiction

theorem lowNotHigh {v : UInt16} (low : lowSurrogate v) : highSurrogate v = false := by
  obtain ⟨above,_⟩ := Bool.and_eq_true_iff.mp low
  have late : ¬v < 0xDC00 := UInt16.not_lt.mpr (of_decide_eq_true above)
  rw [highSurrogate,decide_eq_false late,Bool.and_false]

theorem hexPlain : ∀ k : Fin 16, highSurrogate (hexUnit k) = false := by decide

theorem cleanUnit (u : UInt16) : clean (escapeUnit u) := by
  unfold escapeUnit
  split
  · rfl
  split
  · rfl
  split
  · rfl
  split
  · rfl
  split
  · rfl
  split
  · rfl
  split
  · rfl
  split
  · exact cleanEnd [92,117,_,_,_] (hexPlain ⟨u.toNat % 16,Nat.mod_lt _ (by decide)⟩)
  · rename_i kept
    refine cleanEnd [] (plainNotHigh ?_)
    exact Bool.eq_false_iff.mpr fun lone => kept (by rw [lone,Bool.or_true])

theorem cleanEscape {s point : JsString} (member : point ∈ points s) : clean (escapePoint point) := by
  rcases pointShape member with ⟨u,rfl⟩ | ⟨u,v,rfl,high,low⟩
  · exact cleanUnit u
  · exact cleanEnd [u] (lowNotHigh low)

/- The text of a string without lone surrogates is the same on both sides. -/
theorem quoteSame {s : JsString} {text : String} (read : readText s = some text) :
    utf8 (quote s) = quoteString text := by
  obtain ⟨chars,each,rfl⟩ := Option.map_eq_some_iff.mp read
  have body {points' : List JsString} {chars : List Char} (sub : ∀ point ∈ points', point ∈ points s)
      (each : points'.mapM pointChar = some chars) :
      clean (points'.flatMap escapePoint) ∧ utf8 (points'.flatMap escapePoint) =
        (chars.flatMap String.utf8EncodeChar).flatMap escapeByte := by
    induction points' generalizing chars with
    | nil =>
      cases each
      exact ⟨rfl,rfl⟩
    | cons point rest ih =>
      rw [List.mapM_cons] at each
      obtain ⟨c,char,each⟩ := Option.bind_eq_some_iff.mp each
      obtain ⟨later,rest',each⟩ := Option.bind_eq_some_iff.mp each
      cases each
      obtain ⟨tail,same⟩ := ih (fun point member => sub point (List.mem_cons_of_mem _ member)) rest'
      have here := sub point List.mem_cons_self
      refine ⟨cleanAppend (cleanEscape here) tail,?_⟩
      rw [List.flatMap_cons,utf8Append (cleanEscape here),same,escapeChar here char,List.flatMap_cons,
        List.flatMap_append]
  obtain ⟨clean',same⟩ := body (fun _ h => h) each
  rw [quote,utf8Append (cleanAppend rfl clean'),utf8Append rfl,same,quoteString,utf8Chars,
    String.toList_ofList]
  rfl

def entrySize (entry : String × Value) : Nat := (quoteString entry.1).length + 1 + entry.2.render.length

theorem renderItemsSize (items : List Value) :
    (Value.renderItems items).length = (items.map (·.render.length)).sum + (items.length - 1) := by
  induction items with
  | nil => rfl
  | cons item rest ih =>
    have comma : (utf8String ",").length = 1 := by decide
    cases rest with
    | nil => simp [Value.renderItems]
    | cons next more =>
      simp only [Value.renderItems,List.length_append,ih,comma,List.map_cons,List.sum_cons,
        List.length_cons]
      omega

theorem renderFieldsSize (fields : List (String × Value)) :
    (Value.renderFields fields).length = (fields.map entrySize).sum + (fields.length - 1) := by
  induction fields with
  | nil => rfl
  | cons field rest ih =>
    obtain ⟨key,value⟩ := field
    have comma : (utf8String ",").length = 1 := by decide
    have colon : (utf8String ":").length = 1 := by decide
    cases rest with
    | nil => simp [Value.renderFields,entrySize,colon,Nat.add_assoc]
    | cons next more =>
      simp only [Value.renderFields,List.length_append,ih,comma,colon,List.map_cons,List.sum_cons,
        List.length_cons,entrySize]
      omega

theorem itemTexts (items : List JsValue) : stringifyItems items = items.map stringify := by
  induction items with
  | nil => rfl
  | cons item rest ih => rw [stringifyItems,ih,List.map_cons]

theorem arraySize (items : List JsValue) : byteLength (stringify (.array items)) =
    (items.map fun item => byteLength (stringify item)).sum + (items.length - 1) + 2 := by
  have open' : byteLength [91] = 1 := by decide
  have close : byteLength [93] = 1 := by decide
  have texts : ∀ text ∈ stringifyItems items, clean text := by
    intro text member
    rw [itemTexts] at member
    obtain ⟨item,_,rfl⟩ := List.mem_map.mp member
    exact cleanJson item
  rw [stringify,byteAppend (cleanAppend rfl (cleanJoin texts)),byteAppend rfl,joinSize texts,open',close,
    joinedSize,itemTexts,List.map_map,List.length_map]
  simp only [Function.comp_def]
  omega

theorem wordSize (word : String) : byteLength (js word) = (utf8String word).length :=
  congrArg List.length (utf8Js word)

theorem readField {key : JsString} {value : JsValue} (there : defined value)
    (rest : List (JsString × JsValue)) : readFields ((key,value) :: rest) =
      (readText key).bind fun key => (readBack value).bind fun value =>
        (readFields rest).bind fun rest => some ((key,value) :: rest) := by
  cases value with
  | undefined => contradiction
  | _ => rfl

mutual
theorem readBackSize : ∀ (v : JsValue) {w : Value}, readBack v = some w →
    w.render.length = byteLength (stringify v)
  | .undefined, _, rfl => (wordSize "null").symm
  | .null, _, rfl => (wordSize "null").symm
  | .bool true, _, rfl => (wordSize "true").symm
  | .bool false, _, rfl => (wordSize "false").symm
  | .number (.int _), _, rfl => (wordSize _).symm
  | .number (.float _), _, rfl => (wordSize _).symm
  | .string value, w, read => by
    obtain ⟨text,decoded,rfl⟩ := Option.map_eq_some_iff.mp read
    rw [stringify,byteLength,quoteSame decoded,Value.render]
  | .array items, w, read => by
    obtain ⟨values,each,rfl⟩ := Option.map_eq_some_iff.mp read
    have sizes := readItemsSize items each
    have count := congrArg List.length sizes
    rw [List.length_map,List.length_map] at count
    have brackets : (utf8String "[").length = 1 ∧ (utf8String "]").length = 1 := by decide
    rw [arraySize,Value.render,List.length_append,List.length_append,renderItemsSize,sizes,count]
    omega
  | .object fields, w, read => by
    obtain ⟨values,each,rfl⟩ := Option.map_eq_some_iff.mp read
    have sizes := readFieldsSize fields each
    have count := congrArg List.length sizes
    rw [List.length_map,List.length_map] at count
    have braces : (utf8String "\x7b").length = 1 ∧ (utf8String "\x7d").length = 1 := by decide
    have order : (sortKeys values).Perm values := List.perm_insertionSort _ _
    rw [objectSize,Value.render,List.length_append,List.length_append,renderFieldsSize,
      (order.map entrySize).sum_eq,order.length_eq,sizes,count]
    omega

theorem readItemsSize : ∀ (items : List JsValue) {values : List Value}, readItems items = some values →
    values.map (·.render.length) = items.map fun item => byteLength (stringify item)
  | [], _, rfl => rfl
  | item :: rest, _, read => by
    obtain ⟨value,first,read⟩ := Option.bind_eq_some_iff.mp read
    obtain ⟨values,later,read⟩ := Option.bind_eq_some_iff.mp read
    cases read
    rw [List.map_cons,List.map_cons,readBackSize item first,readItemsSize rest later]

theorem readFieldsSize : ∀ (fields : List (JsString × JsValue)) {values : List (String × Value)},
    readFields fields = some values →
      values.map entrySize = (fields.filter fun field => defined field.2).map fieldSize
  | [], _, rfl => rfl
  | (key,value) :: rest, values, read => by
    by_cases there : defined value
    · rw [readField there] at read
      obtain ⟨name,key',read⟩ := Option.bind_eq_some_iff.mp read
      obtain ⟨held,value',read⟩ := Option.bind_eq_some_iff.mp read
      obtain ⟨more,later,read⟩ := Option.bind_eq_some_iff.mp read
      cases read
      have kept : ((key,value) :: rest).filter (fun field => defined field.2) =
          (key,value) :: rest.filter fun field => defined field.2 := List.filter_cons_of_pos there
      rw [kept,List.map_cons,List.map_cons,readFieldsSize rest later,entrySize,
        fieldSize,readBackSize value value',← quoteSame key']
      rfl
    · cases value with
      | undefined => exact readFieldsSize rest read
      | _ => exact absurd rfl there
end

theorem lookupPerm {fields fields' : List (String × Value)} (order : fields.Perm fields')
    (distinct : (fields.map (·.1)).Nodup) (key : String) : fields.lookup key = fields'.lookup key := by
  induction order with
  | nil => rfl
  | cons field _ ih =>
    rw [List.lookup_cons,List.lookup_cons,ih (List.nodup_cons.mp distinct).2]
  | swap a b rest =>
    have other : b.1 ≠ a.1 := by
      rw [List.map_cons,List.map_cons,List.nodup_cons] at distinct
      exact fun same => distinct.1 (same ▸ List.mem_cons_self)
    rw [List.lookup_cons,List.lookup_cons,List.lookup_cons,List.lookup_cons]
    by_cases first : key = b.1
    · have second : (key == a.1) = false := beq_eq_false_iff_ne.mpr fun same => other (first.symm.trans same)
      rw [second]
    · rw [beq_eq_false_iff_ne.mpr first]
  | trans first second ih ih' =>
    rw [ih distinct,ih' ((first.map (·.1)).nodup_iff.mp distinct)]

theorem sortedGet {fields : List (String × Value)} (distinct : (fields.map (·.1)).Nodup) (key : String) :
    (Value.object (sortKeys fields)).get key = fields.lookup key := by
  have order : fields.Perm (sortKeys fields) := (List.perm_insertionSort _ _).symm
  exact (lookupPerm order distinct key).symm

end Northstar
