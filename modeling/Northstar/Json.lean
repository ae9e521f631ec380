import Northstar.Utf8

/-! JSON.parse, and that it reads what JSON.stringify wrote. What a numeral means as a number is a
parameter; a value is read back where its numbers are finite and its fields are in the order in
which an object lists them. -/
namespace Northstar.Json

def blank (u : UInt16) : Bool := u = 32 || u = 9 || u = 10 || u = 13

def skip (s : JsString) : JsString := s.dropWhile blank

def digit (u : UInt16) : Bool := 48 ≤ u && u ≤ 57

def numberUnit (u : UInt16) : Bool := digit u || u = 43 || u = 45 || u = 46 || u = 69 || u = 101

def exponentDigits : JsString → JsString
  | 43 :: rest => rest
  | 45 :: rest => rest
  | s => s

def exponent : JsString → Bool
  | [] => true
  | u :: rest => (u = 101 || u = 69) && exponentDigits rest ≠ [] && (exponentDigits rest).all digit

def fraction : JsString → Bool
  | 46 :: rest => rest.takeWhile digit ≠ [] && exponent (rest.dropWhile digit)
  | s => exponent s

def unsigned : JsString → JsString
  | 45 :: rest => rest
  | s => s

/- The numerals of the grammar: no leading zeros, no bare points, no bare exponents. -/
def numeral (s : JsString) : Bool :=
  let whole := (unsigned s).takeWhile digit
  whole ≠ [] && (whole = [48] || whole.head? ≠ some 48) && fraction ((unsigned s).dropWhile digit)

/- The finite numbers: each is written as a numeral that is read as that number. Safe integers are
among them. -/
structure Numerals where
  toNumber : JsString → Number
  finite : Number → Prop
  whole : ∀ i : Int, i.natAbs < 9007199254740992 → finite (.int i)
  written : ∀ n, finite n → numeral n.script = true
  readBack : ∀ n, finite n → toNumber n.script = n

def hexValue (u : UInt16) : Option Nat :=
  if digit u then some (u.toNat - 48)
  else if 97 ≤ u ∧ u ≤ 102 then some (u.toNat - 87)
  else if 65 ≤ u ∧ u ≤ 70 then some (u.toNat - 55)
  else none

def hexQuad (a b c d : UInt16) : Option UInt16 := do
  let a ← hexValue a
  let b ← hexValue b
  let c ← hexValue c
  let d ← hexValue d
  some (UInt16.ofNat (((a * 16 + b) * 16 + c) * 16 + d))

def unescape (u : UInt16) : Option UInt16 :=
  if u = 34 ∨ u = 92 ∨ u = 47 then some u
  else if u = 98 then some 8
  else if u = 102 then some 12
  else if u = 110 then some 10
  else if u = 114 then some 13
  else if u = 116 then some 9
  else none

/- A string after its opening quote. -/
def stringRest : JsString → Option (JsString × JsString)
  | [] => none
  | u :: rest =>
      if u = 34 then some ([],rest)
      else if u < 32 then none
      else if u = 92 then match rest with
        | [] => none
        | escaped :: more =>
            if escaped = 117 then match more with
              | a :: b :: c :: d :: more => match hexQuad a b c d with
                | none => none
                | some unit => (stringRest more).map fun read => (unit :: read.1,read.2)
              | _ => none
            else match unescape escaped with
              | none => none
              | some unit => (stringRest more).map fun read => (unit :: read.1,read.2)
      else (stringRest rest).map fun read => (u :: read.1,read.2)
termination_by structural s => s

def decimal (s : JsString) : Nat := s.foldl (fun n u => n * 10 + (u.toNat - 48)) 0

def arrayIndex (key : JsString) : Option Nat :=
  if key ≠ [] ∧ key.all digit ∧ (key = [48] ∨ key.head? ≠ some 48) then
    if decimal key < 4294967295 then some (decimal key) else none
  else none

/- Array indices are listed first and ascending, other keys as they came. -/
def listedBefore (a b : JsString) : Bool := match arrayIndex a, arrayIndex b with
  | some i, some j => i < j
  | none, some _ => false
  | _, none => true

def place (key : JsString) (value : JsValue) : List (JsString × JsValue) → List (JsString × JsValue)
  | [] => [(key,value)]
  | field :: rest => if listedBefore field.1 key then field :: place key value rest else (key,value) :: field :: rest

/- A key that comes again keeps its place. -/
def put (fields : List (JsString × JsValue)) (key : JsString) (value : JsValue) : List (JsString × JsValue) :=
  if fields.any (·.1 = key) then fields.map fun field => if field.1 = key then (key,value) else field
  else place key value fields

def Enumerated (fields : List (JsString × JsValue)) : Prop :=
  fields.Pairwise fun a b => a.1 ≠ b.1 ∧ listedBefore a.1 b.1 = true
instance (fields : List (JsString × JsValue)) : Decidable (Enumerated fields) := by unfold Enumerated; infer_instance

theorem enumeratedKeys {fields : List (JsString × JsValue)}
    (keys : (fields.map Prod.fst).Pairwise fun a b => a ≠ b ∧ listedBefore a b = true) : Enumerated fields :=
  List.pairwise_map.mp keys

def keyword (word : JsString) (value : JsValue) (s : JsString) : Option (JsValue × JsString) :=
  if s.take word.length = word then some (value,s.drop word.length) else none

section
variable (numerals : Numerals)

def number (s : JsString) : Option (JsValue × JsString) :=
  if numeral (s.takeWhile numberUnit) then
    some (.number (numerals.toNumber (s.takeWhile numberUnit)),s.dropWhile numberUnit)
  else none

mutual
def value : Nat → JsString → Option (JsValue × JsString)
  | 0, _ => none
  | fuel + 1, s => match s with
      | 34 :: rest => (stringRest rest).map fun read => (.string read.1,read.2)
      | 91 :: rest => match skip rest with
          | 93 :: after => some (.array [],after)
          | inside => (items fuel inside).map fun read => (.array read.1,read.2)
      | 123 :: rest => match skip rest with
          | 125 :: after => some (.object [],after)
          | inside => (fields fuel [] inside).map fun read => (.object read.1,read.2)
      | _ => (keyword (js "null") .null s).or ((keyword (js "true") (.bool true) s).or
          ((keyword (js "false") (.bool false) s).or (number numerals s)))

def items : Nat → JsString → Option (List JsValue × JsString)
  | 0, _ => none
  | fuel + 1, s => match value fuel (skip s) with
      | none => none
      | some (item,rest) => match skip rest with
          | 93 :: after => some ([item],after)
          | 44 :: more => (items fuel more).map fun read => (item :: read.1,read.2)
          | _ => none

def fields : Nat → List (JsString × JsValue) → JsString → Option (List (JsString × JsValue) × JsString)
  | 0, _, _ => none
  | fuel + 1, before, s => match skip s with
      | 34 :: rest => match stringRest rest with
          | none => none
          | some (key,rest) => match skip rest with
              | 58 :: rest => match value fuel (skip rest) with
                  | none => none
                  | some (content,rest) => match skip rest with
                      | 125 :: after => some (put before key content,after)
                      | 44 :: more => fields fuel (put before key content) more
                      | _ => none
              | _ => none
      | _ => none
end

/- Every call reads at least half a unit on. -/
def parse (text : JsString) : Option JsValue := match value numerals (2 * text.length) (skip text) with
  | none => none
  | some (read,rest) => if skip rest = [] then some read else none

mutual
def Plain : JsValue → Prop
  | .undefined => False
  | .null => True
  | .bool _ => True
  | .number n => numerals.finite n
  | .string _ => True
  | .array items => PlainItems items
  | .object fields => Enumerated fields ∧ PlainFields fields

def PlainItems : List JsValue → Prop
  | [] => True
  | item :: rest => Plain item ∧ PlainItems rest

def PlainFields : List (JsString × JsValue) → Prop
  | [] => True
  | (_,content) :: rest => Plain content ∧ PlainFields rest
end

end

theorem hexRead : ∀ k : Fin 16, hexValue (hexUnit k) = some k.val := by decide

theorem hexBack (u : UInt16) : hexQuad (hexUnit (u.toNat / 0x1000)) (hexUnit (u.toNat / 0x100 % 16))
    (hexUnit (u.toNat / 16 % 16)) (hexUnit (u.toNat % 16)) = some u := by
  have small : u.toNat < 0x10000 := u.toNat_lt
  have a := hexRead ⟨u.toNat / 0x1000,by omega⟩
  have b := hexRead ⟨u.toNat / 0x100 % 16,by omega⟩
  have c := hexRead ⟨u.toNat / 16 % 16,by omega⟩
  have d := hexRead ⟨u.toNat % 16,by omega⟩
  simp only at a b c d
  have whole : ((u.toNat / 0x1000 * 16 + u.toNat / 0x100 % 16) * 16 + u.toNat / 16 % 16) * 16 + u.toNat % 16 = u.toNat := by omega
  simp only [hexQuad,a,b,c,d,bind,Option.bind_some,whole,UInt16.ofNat_toNat]

theorem plainUnit {u : UInt16} (quote : u ≠ 34) (escape : u ≠ 92) (printed : ¬ u < 32) (rest : JsString) :
    stringRest (u :: rest) = (stringRest rest).map fun read => (u :: read.1,read.2) := by
  rw [stringRest.eq_def]
  dsimp only
  rw [if_neg quote,if_neg printed,if_neg escape]

theorem escapeBack {escaped unit : UInt16} (single : escaped ≠ 117) (known : unescape escaped = some unit) (rest : JsString) :
    stringRest (92 :: escaped :: rest) = (stringRest rest).map fun read => (unit :: read.1,read.2) := by
  rw [stringRest.eq_def]
  dsimp only
  rw [if_neg (by decide),if_neg (by decide),if_pos rfl,if_neg single,known]

theorem unitBack (u : UInt16) (rest : JsString) :
    stringRest (escapeUnit u ++ rest) = (stringRest rest).map fun read => (u :: read.1,read.2) := by
  have control {unit escaped : UInt16} (same : u = unit) (single : escaped ≠ 117) (known : unescape escaped = some unit) :
      stringRest ([92,escaped] ++ rest) = (stringRest rest).map fun read => (u :: read.1,read.2) :=
    same ▸ escapeBack single known rest
  unfold escapeUnit
  split
  · exact control ‹_› (by decide) (by decide)
  · split
    · exact control ‹_› (by decide) (by decide)
    · split
      · exact control ‹_› (by decide) (by decide)
      · split
        · exact control ‹_› (by decide) (by decide)
        · split
          · exact control ‹_› (by decide) (by decide)
          · split
            · exact control ‹_› (by decide) (by decide)
            · split
              · exact control ‹_› (by decide) (by decide)
              · split
                · unfold escapeHex
                  simp only [List.cons_append,List.nil_append]
                  rw [stringRest.eq_def]
                  dsimp only
                  rw [if_neg (by decide),if_neg (by decide),if_pos rfl,if_pos rfl]
                  simp only [hexBack]
                · rename_i quote escape _ _ _ _ _ kept
                  have printed : ¬ u < 32 := fun below => kept (by simp [below])
                  exact plainUnit quote escape printed rest

theorem surrogatePlain {u : UInt16} (above : 0xD800 ≤ u) : u ≠ 34 ∧ u ≠ 92 ∧ ¬ u < 32 := by
  have least : 0xD800 ≤ u.toNat := UInt16.le_iff_toNat_le.mp above
  refine ⟨?_,?_,fun below => ?_⟩
  · rintro rfl
    exact absurd least (by decide)
  · rintro rfl
    exact absurd least (by decide)
  · have most : u.toNat < 32 := UInt16.lt_iff_toNat_lt.mp below
    omega

theorem pointBack {s point : JsString} (member : point ∈ points s) (rest : JsString) :
    stringRest (escapePoint point ++ rest) = (stringRest rest).map fun read => (point ++ read.1,read.2) := by
  rcases pointShape member with ⟨u,rfl⟩ | ⟨u,v,rfl,high,low⟩
  · exact unitBack u rest
  · obtain ⟨a,b,c⟩ := surrogatePlain (of_decide_eq_true (Bool.and_eq_true_iff.mp high).1)
    have above : 0xD800 ≤ v := UInt16.le_trans (by decide) (of_decide_eq_true (Bool.and_eq_true_iff.mp low).1)
    obtain ⟨d,e,f⟩ := surrogatePlain above
    change stringRest (u :: v :: rest) = _
    rw [plainUnit a b c,plainUnit d e f,Option.map_map]
    rfl

/- A string is read back from its quoted text. -/
theorem stringBack (s rest : JsString) : stringRest ((points s).flatMap escapePoint ++ 34 :: rest) = some (s,rest) := by
  have flat (units : List JsString) (read : ∀ point ∈ units, point ∈ points s) :
      stringRest (units.flatMap escapePoint ++ 34 :: rest) = some (units.flatten,rest) := by
    induction units with
    | nil =>
      rw [List.flatMap_nil,List.nil_append,stringRest.eq_def]
      exact if_pos rfl
    | cons point more ih =>
      rw [List.flatMap_cons,List.append_assoc,pointBack (read point List.mem_cons_self),
        ih fun p later => read p (List.mem_cons_of_mem _ later)]
      rfl
  rw [flat (points s) fun _ member => member,pointsFlatten]

theorem quoteBack (s rest : JsString) : ∃ inside, quote s ++ rest = 34 :: inside ∧ stringRest inside = some (s,rest) := by
  refine ⟨(points s).flatMap escapePoint ++ 34 :: rest,?_,stringBack s rest⟩
  simp [quote]

theorem digitsNumber {s : JsString} (all : s.all digit = true) : s.all numberUnit = true := by
  rw [List.all_eq_true] at all ⊢
  intro u member
  simp [numberUnit,all u member]

theorem exponentUnits {s : JsString} (shaped : exponent s = true) : s.all numberUnit = true := by
  unfold exponent at shaped
  split at shaped
  · rfl
  · rename_i u rest
    obtain ⟨⟨mark,_⟩,all⟩ : ((u = 101 ∨ u = 69) ∧ exponentDigits rest ≠ []) ∧ (exponentDigits rest).all digit = true := by
      simpa using shaped
    have later : rest.all numberUnit = true := by
      unfold exponentDigits at all
      split at all
      · exact Bool.and_eq_true_iff.mpr ⟨rfl,digitsNumber all⟩
      · exact Bool.and_eq_true_iff.mpr ⟨rfl,digitsNumber all⟩
      · exact digitsNumber all
    refine Bool.and_eq_true_iff.mpr ⟨?_,later⟩
    rcases mark with rfl | rfl <;> rfl

theorem splitUnits {s : JsString} (rest : (s.dropWhile digit).all numberUnit = true) : s.all numberUnit = true := by
  have first : (s.takeWhile digit).all numberUnit = true := digitsNumber List.all_takeWhile
  rw [← List.takeWhile_append_dropWhile (p := digit) (l := s),List.all_append,first,rest]
  rfl

theorem fractionUnits {s : JsString} (shaped : fraction s = true) : s.all numberUnit = true := by
  unfold fraction at shaped
  split at shaped
  · obtain ⟨_,later⟩ := Bool.and_eq_true_iff.mp shaped
    exact Bool.and_eq_true_iff.mpr ⟨rfl,splitUnits (exponentUnits later)⟩
  · exact exponentUnits shaped

/- A numeral starts with a digit or a minus and is made of the units of numbers. -/
theorem numeralUnits {s : JsString} (shaped : numeral s = true) : s.all numberUnit = true ∧ s ≠ [] := by
  obtain ⟨⟨some_,_⟩,later⟩ : (((unsigned s).takeWhile digit ≠ []) ∧ _) ∧ fraction ((unsigned s).dropWhile digit) = true := by
    simpa only [numeral,Bool.and_eq_true,decide_eq_true_eq] using shaped
  have units := splitUnits (fractionUnits later)
  unfold unsigned at units some_
  split at units
  · exact ⟨Bool.and_eq_true_iff.mpr ⟨rfl,units⟩,List.cons_ne_nil _ _⟩
  · refine ⟨units,?_⟩
    rintro rfl
    exact some_ rfl

theorem unitAscii {u : UInt16} (unit : numberUnit u = true) : u.toNat < 128 := by
  by_contra high
  simp only [numberUnit,digit,Bool.or_eq_true,Bool.and_eq_true,decide_eq_true_eq,UInt16.le_iff_toNat_le] at unit
  rcases unit with ((((⟨_,most⟩ | rfl) | rfl) | rfl) | rfl) | rfl
  · have most' : u.toNat ≤ 57 := most
    omega
  all_goals exact high (by decide)

set_option maxRecDepth 16384 in
theorem unitApart {u : UInt16} (unit : numberUnit u = true) :
    blank u = false ∧ u ≠ 34 ∧ u ≠ 91 ∧ u ≠ 93 ∧ u ≠ 123 ∧ u ≠ 110 ∧ u ≠ 116 ∧ u ≠ 102 := by
  have low := unitAscii unit
  have every : ∀ n : Fin 128, numberUnit (UInt16.ofNat n) = true → blank (UInt16.ofNat n) = false ∧ UInt16.ofNat n ≠ 34 ∧
      UInt16.ofNat n ≠ 91 ∧ UInt16.ofNat n ≠ 93 ∧ UInt16.ofNat n ≠ 123 ∧ UInt16.ofNat n ≠ 110 ∧ UInt16.ofNat n ≠ 116 ∧
      UInt16.ofNat n ≠ 102 := by decide
  have own := every ⟨u.toNat,low⟩
  simp only [UInt16.ofNat_toNat] at own
  exact own unit

theorem skipHead {u : UInt16} (solid : blank u = false) (rest : JsString) : skip (u :: rest) = u :: rest :=
  List.dropWhile_cons_of_neg (by simp [solid])

def Delimited (rest : JsString) : Prop := ∀ u ∈ rest.head?, numberUnit u = false

theorem numberBack (numerals : Numerals) {s rest : JsString} (shaped : numeral s = true) (ended : Delimited rest) :
    number numerals (s ++ rest) = some (.number (numerals.toNumber s),rest) := by
  have units := (numeralUnits shaped).1
  have stops : rest.takeWhile numberUnit = [] ∧ rest.dropWhile numberUnit = rest := by
    cases rest with
    | nil => exact ⟨rfl,rfl⟩
    | cons u more =>
      have other := ended u rfl
      exact ⟨List.takeWhile_cons_of_neg (by simp [other]),List.dropWhile_cons_of_neg (by simp [other])⟩
  rw [List.all_eq_true] at units
  rw [number,List.takeWhile_append_of_pos units,List.dropWhile_append_of_pos units,stops.1,stops.2,List.append_nil,if_pos shaped]

theorem placeLast {key : JsString} {content : JsValue} {before : List (JsString × JsValue)}
    (last : ∀ field ∈ before, listedBefore field.1 key = true) : place key content before = before ++ [(key,content)] := by
  induction before with
  | nil => rfl
  | cons field rest ih =>
    rw [place,if_pos (last field List.mem_cons_self),ih fun f later => last f (List.mem_cons_of_mem _ later)]
    rfl

theorem putLast {before : List (JsString × JsValue)} {key : JsString} {content : JsValue}
    (listed : Enumerated (before ++ [(key,content)])) : put before key content = before ++ [(key,content)] := by
  have apart := (List.pairwise_append.mp listed).2.2
  have fresh : ¬ (before.any (·.1 = key)) = true := by
    rw [List.any_eq_true]
    rintro ⟨field,member,same⟩
    exact (apart field member _ (List.mem_singleton_self _)).1 (of_decide_eq_true same)
  rw [put,if_neg fresh,placeLast fun field member => (apart field member _ (List.mem_singleton_self _)).2]

theorem keywordOther {u : UInt16} {word : JsString} (apart : ∀ v ∈ word.head?, u ≠ v) (some_ : word ≠ []) (content : JsValue)
    (rest : JsString) : keyword word content (u :: rest) = none := by
  cases word with
  | nil => exact absurd rfl some_
  | cons v word =>
    refine if_neg fun same => ?_
    rw [List.length_cons,List.take_succ_cons] at same
    exact apart v rfl (List.cons.inj same).1

theorem scalarBack (numerals : Numerals) (fuel : Nat) {n : Number} (finite : numerals.finite n) {rest : JsString}
    (ended : Delimited rest) : value numerals (fuel + 1) (n.script ++ rest) = some (.number n,rest) := by
  have shaped := numerals.written n finite
  obtain ⟨units,some_⟩ := numeralUnits shaped
  have read := numberBack numerals shaped ended
  rw [numerals.readBack n finite] at read
  cases script : n.script with
  | nil => exact absurd script some_
  | cons u more =>
    rw [script] at units read
    obtain ⟨-,a,b,-,c,d,e,f⟩ := unitApart (Bool.and_eq_true_iff.mp units).1
    rw [List.cons_append] at read ⊢
    rw [value.eq_def]
    split
    · contradiction
    · rename_i s fuel' same
      split
      · rename_i head
        exact absurd (List.cons.inj head).1 a
      · rename_i head
        exact absurd (List.cons.inj head).1 b
      · rename_i head
        exact absurd (List.cons.inj head).1 c
      · rw [keywordOther (fun v first => by cases Option.some.inj first; exact d) (by decide),
          keywordOther (fun v first => by cases Option.some.inj first; exact e) (by decide),
          keywordOther (fun v first => by cases Option.some.inj first; exact f) (by decide),read]
        rfl

theorem valueString (numerals : Numerals) (fuel : Nat) (inside : JsString) : value numerals (fuel + 1) (34 :: inside) =
    (stringRest inside).map fun read => (.string read.1,read.2) := by
  rw [value]

theorem valueArray (numerals : Numerals) (fuel : Nat) {u : UInt16} (solid : blank u = false) (more : u ≠ 93)
    (inside : JsString) : value numerals (fuel + 1) (91 :: u :: inside) =
    (items numerals fuel (u :: inside)).map fun read => (.array read.1,read.2) := by
  rw [value,skipHead solid]
  split
  · rename_i same
    exact absurd (List.cons.inj same).1 more
  · rfl

theorem valueObject (numerals : Numerals) (fuel : Nat) (inside : JsString) : value numerals (fuel + 1) (123 :: 34 :: inside) =
    (fields numerals fuel [] (34 :: inside)).map fun read => (.object read.1,read.2) := by
  rw [value,skipHead (by decide)]
  split
  · rename_i same
    exact absurd (List.cons.inj same).1 (by decide)
  · rfl

theorem valueEmpty (numerals : Numerals) (fuel : Nat) (rest : JsString) :
    value numerals (fuel + 1) (91 :: 93 :: rest) = some (.array [],rest) ∧
    value numerals (fuel + 1) (123 :: 125 :: rest) = some (.object [],rest) := by
  constructor
  · rw [value,skipHead (by decide)]
    rfl
  · rw [value,skipHead (by decide)]
    rfl

theorem valueWord (numerals : Numerals) (fuel : Nat) (rest : JsString) :
    value numerals (fuel + 1) (js "null" ++ rest) = some (.null,rest) ∧
    value numerals (fuel + 1) (js "true" ++ rest) = some (.bool true,rest) ∧
    value numerals (fuel + 1) (js "false" ++ rest) = some (.bool false,rest) := by
  have a : js "null" = [110,117,108,108] := by decide
  have b : js "true" = [116,114,117,101] := by decide
  have c : js "false" = [102,97,108,115,101] := by decide
  rw [a,b,c]
  refine ⟨?_,?_,?_⟩
  · rw [List.cons_append,value]
    · simp [keyword,a,b,c]
    all_goals exact fun _ head => absurd (List.cons.inj head).1 (by decide)
  · rw [List.cons_append,value]
    · simp [keyword,a,b,c]
    all_goals exact fun _ head => absurd (List.cons.inj head).1 (by decide)
  · rw [List.cons_append,value]
    · simp [keyword,a,b,c]
    all_goals exact fun _ head => absurd (List.cons.inj head).1 (by decide)

theorem starts (numerals : Numerals) {v : JsValue} (plain : Plain numerals v) :
    ∃ u more, stringify v = u :: more ∧ blank u = false ∧ u ≠ 93 := by
  cases v with
  | undefined => exact plain.elim
  | null => exact ⟨110,js "ull",by decide,by decide,by decide⟩
  | bool b => cases b with
    | false => exact ⟨102,js "alse",by decide,by decide,by decide⟩
    | true => exact ⟨116,js "rue",by decide,by decide,by decide⟩
  | number n =>
    obtain ⟨units,some_⟩ := numeralUnits (numerals.written n plain)
    rw [stringify]
    cases script : n.script with
    | nil => exact absurd script some_
    | cons u more =>
      rw [script] at units
      obtain ⟨solid,-,-,open_,-⟩ := unitApart (Bool.and_eq_true_iff.mp units).1
      exact ⟨u,more,rfl,solid,open_⟩
  | string s => exact ⟨34,(points s).flatMap escapePoint ++ [34],rfl,by decide,by decide⟩
  | array items => exact ⟨91,[44].intercalate (stringifyItems items) ++ [93],by simp [stringify],by decide,by decide⟩
  | object fields => exact ⟨123,[44].intercalate (stringifyFields fields) ++ [125],by simp [stringify],by decide,by decide⟩

theorem delimitedEnd : Delimited [] := fun _ head => absurd head (by simp)

theorem delimitedBy {u : UInt16} (other : numberUnit u = false) (rest : JsString) : Delimited (u :: rest) := by
  intro v head
  cases Option.some.inj head
  exact other

/- The texts of fields and items joined by commas, one at a time. -/
theorem joinedCons (text : JsString) {texts : List JsString} (more : texts ≠ []) :
    [44].intercalate (text :: texts) = text ++ 44 :: [44].intercalate texts := by
  cases texts with
  | nil => exact absurd rfl more
  | cons next later => rw [List.intercalate_cons_cons,List.append_assoc,List.singleton_append]

theorem fieldsCons (numerals : Numerals) (key : JsString) {content : JsValue} (plain : Plain numerals content)
    (more : List (JsString × JsValue)) :
    stringifyFields ((key,content) :: more) = (quote key ++ [58] ++ stringify content) :: stringifyFields more := by
  cases content with
  | undefined => exact plain.elim
  | null => rw [stringifyFields]; exact fun same => by cases same
  | bool b => rw [stringifyFields]; exact fun same => by cases same
  | number n => rw [stringifyFields]; exact fun same => by cases same
  | string s => rw [stringifyFields]; exact fun same => by cases same
  | array list => rw [stringifyFields]; exact fun same => by cases same
  | object list => rw [stringifyFields]; exact fun same => by cases same

/- A field is read up to its value. -/
theorem fieldBack (numerals : Numerals) (fuel : Nat) (before : List (JsString × JsValue)) (key : JsString) {u : UInt16}
    (solid : blank u = false) (tail : JsString) :
    fields numerals (fuel + 1) before (quote key ++ 58 :: u :: tail) = match value numerals fuel (u :: tail) with
      | none => none
      | some (content,rest) => match skip rest with
          | 125 :: after => some (put before key content,after)
          | 44 :: more => fields numerals fuel (put before key content) more
          | _ => none := by
  obtain ⟨inside,text,read⟩ := quoteBack key (58 :: u :: tail)
  rw [text,fields,skipHead (by decide)]
  change (match stringRest inside with
    | none => none
    | some (key,rest) => match skip rest with
        | 58 :: rest => match value numerals fuel (skip rest) with
            | none => none
            | some (content,rest) => match skip rest with
                | 125 :: after => some (put before key content,after)
                | 44 :: more => fields numerals fuel (put before key content) more
                | _ => none
        | _ => none) = _
  rw [read]
  dsimp only
  rw [skipHead (by decide)]
  change (match value numerals fuel (skip (u :: tail)) with
    | none => none
    | some (content,rest) => match skip rest with
        | 125 :: after => some (put before key content,after)
        | 44 :: more => fields numerals fuel (put before key content) more
        | _ => none) = _
  rw [skipHead solid]

mutual
/-- What was written is read back, whatever follows it. -/
theorem valueBack (numerals : Numerals) : ∀ (v : JsValue), Plain numerals v → ∀ (fuel : Nat) (rest : JsString),
    2 * (stringify v).length ≤ fuel → Delimited rest → value numerals fuel (stringify v ++ rest) = some (v,rest)
  | v, plain, 0, rest, enough, _ => by
    obtain ⟨u,tail,text,-⟩ := starts numerals plain
    rw [text,List.length_cons] at enough
    omega
  | .undefined, plain, _ + 1, _, _, _ => plain.elim
  | .null, _, fuel + 1, rest, _, _ => (valueWord numerals fuel rest).1
  | .bool true, _, fuel + 1, rest, _, _ => (valueWord numerals fuel rest).2.1
  | .bool false, _, fuel + 1, rest, _, _ => (valueWord numerals fuel rest).2.2
  | .number n, plain, fuel + 1, rest, _, ended => scalarBack numerals fuel plain ended
  | .string s, _, fuel + 1, rest, _, _ => by
    obtain ⟨inside,text,read⟩ := quoteBack s rest
    rw [stringify,text,valueString,read]
    rfl
  | .array [], _, fuel + 1, rest, _, _ => (valueEmpty numerals fuel rest).1
  | .array (item :: more), plain, fuel + 1, rest, enough, _ => by
    obtain ⟨u,tail,text,solid,open_⟩ := starts numerals plain.1
    have read := itemsBack numerals (item :: more) (List.cons_ne_nil _ _) plain fuel rest (by
      simp only [stringify,List.length_append,List.length_singleton] at enough
      omega)
    have first : ∃ inside, [44].intercalate (stringifyItems (item :: more)) ++ 93 :: rest = u :: inside := by
      cases more with
      | nil => exact ⟨_,by rw [stringifyItems,stringifyItems,List.intercalate_singleton,text,List.cons_append]⟩
      | cons next later =>
        refine ⟨tail ++ 44 :: ([44].intercalate (stringifyItems (next :: later)) ++ 93 :: rest),?_⟩
        rw [stringifyItems,joinedCons _ (by rw [stringifyItems]; exact List.cons_ne_nil _ _),text]
        simp
    obtain ⟨inside,same⟩ := first
    rw [same] at read
    have whole : stringify (.array (item :: more)) ++ rest = 91 :: u :: inside := by
      rw [stringify,List.append_assoc,List.append_assoc,List.singleton_append,List.singleton_append,same]
    rw [whole,valueArray numerals fuel solid open_,read]
    rfl
  | .object [], _, fuel + 1, rest, _, _ => (valueEmpty numerals fuel rest).2
  | .object ((key,content) :: more), plain, fuel + 1, rest, enough, _ => by
    have read := fieldsBack numerals ((key,content) :: more) [] (List.cons_ne_nil _ _) plain.2 plain.1 fuel rest (by
      simp only [stringify,List.length_append,List.length_singleton] at enough
      omega)
    have first : ∃ inside, [44].intercalate (stringifyFields ((key,content) :: more)) ++ 125 :: rest = 34 :: inside := by
      rw [fieldsCons numerals key plain.2.1]
      cases stringifyFields more with
      | nil => exact ⟨_,by rw [List.intercalate_singleton,quote,List.append_assoc,List.append_assoc,List.append_assoc]; rfl⟩
      | cons next later =>
        rw [joinedCons _ (List.cons_ne_nil _ _)]
        exact ⟨_,by rw [quote,List.append_assoc,List.append_assoc,List.append_assoc,List.append_assoc]; rfl⟩
    obtain ⟨inside,same⟩ := first
    rw [same] at read
    have whole : stringify (.object ((key,content) :: more)) ++ rest = 123 :: 34 :: inside := by
      rw [stringify,List.append_assoc,List.append_assoc,List.singleton_append,List.singleton_append,same]
    rw [whole,valueObject,read]
    rfl

theorem itemsBack (numerals : Numerals) : ∀ (list : List JsValue), list ≠ [] → PlainItems numerals list →
    ∀ (fuel : Nat) (rest : JsString), 2 * ([44].intercalate (stringifyItems list)).length + 1 ≤ fuel →
    items numerals fuel ([44].intercalate (stringifyItems list) ++ 93 :: rest) = some (list,rest)
  | [], some_, _, _, _, _ => absurd rfl some_
  | _ :: _, _, _, 0, _, enough => absurd enough (by omega)
  | [item], _, plain, fuel + 1, rest, enough => by
    obtain ⟨u,tail,text,solid,-⟩ := starts numerals plain.1
    rw [stringifyItems,stringifyItems,List.intercalate_singleton] at enough ⊢
    have read := valueBack numerals item plain.1 fuel (93 :: rest) (by omega) (delimitedBy (by decide) rest)
    have skipped : skip (stringify item ++ 93 :: rest) = stringify item ++ 93 :: rest := by
      rw [text]
      exact skipHead solid _
    rw [items,skipped,read]
    dsimp only
    rw [skipHead (by decide)]
    rfl
  | item :: next :: later, _, plain, fuel + 1, rest, enough => by
    obtain ⟨u,tail,text,solid,-⟩ := starts numerals plain.1
    rw [stringifyItems,joinedCons _ (by rw [stringifyItems]; exact List.cons_ne_nil _ _)] at enough ⊢
    rw [List.length_append,List.length_cons] at enough
    have long : 1 ≤ (stringify item).length := by
      rw [text]
      exact Nat.succ_le_succ (Nat.zero_le _)
    have read := valueBack numerals item plain.1 fuel (44 :: ([44].intercalate (stringifyItems (next :: later)) ++ 93 :: rest))
      (by omega) (delimitedBy (by decide) _)
    have more := itemsBack numerals (next :: later) (List.cons_ne_nil _ _) plain.2 fuel rest (by omega)
    have skipped (after : JsString) : skip (stringify item ++ after) = stringify item ++ after := by
      rw [text]
      exact skipHead solid _
    rw [List.append_assoc,List.cons_append,items,skipped,read]
    dsimp only
    rw [skipHead (by decide)]
    change (items numerals fuel ([44].intercalate (stringifyItems (next :: later)) ++ 93 :: rest)).map _ = _
    rw [more]
    rfl

theorem fieldsBack (numerals : Numerals) : ∀ (list before : List (JsString × JsValue)), list ≠ [] → PlainFields numerals list →
    Enumerated (before ++ list) → ∀ (fuel : Nat) (rest : JsString),
    2 * ([44].intercalate (stringifyFields list)).length + 1 ≤ fuel →
    fields numerals fuel before ([44].intercalate (stringifyFields list) ++ 125 :: rest) = some (before ++ list,rest)
  | [], _, some_, _, _, _, _, _ => absurd rfl some_
  | _ :: _, _, _, _, _, 0, _, enough => absurd enough (by omega)
  | [(key,content)], before, _, plain, listed, fuel + 1, rest, enough => by
    obtain ⟨u,tail,text,solid,-⟩ := starts numerals plain.1
    rw [fieldsCons numerals key plain.1,stringifyFields,List.intercalate_singleton] at enough ⊢
    simp only [List.length_append] at enough
    have read := valueBack numerals content plain.1 fuel (125 :: rest) (by omega) (delimitedBy (by decide) rest)
    rw [text,List.cons_append] at read
    rw [text,List.append_assoc,List.append_assoc,List.singleton_append,List.cons_append,fieldBack numerals fuel before key solid,
      read]
    dsimp only
    rw [skipHead (by decide),putLast listed]
    rfl
  | (key,content) :: next :: later, before, _, plain, listed, fuel + 1, rest, enough => by
    obtain ⟨u,tail,text,solid,-⟩ := starts numerals plain.1
    have some_ : stringifyFields (next :: later) ≠ [] := by
      rw [fieldsCons numerals next.1 plain.2.1]
      exact List.cons_ne_nil _ _
    rw [fieldsCons numerals key plain.1,joinedCons _ some_] at enough ⊢
    have grown := quoteGrows key
    simp only [List.length_append,List.length_cons] at enough
    have read := valueBack numerals content plain.1 fuel (44 :: ([44].intercalate (stringifyFields (next :: later)) ++ 125 :: rest))
      (by omega) (delimitedBy (by decide) _)
    have split_ : before ++ (key,content) :: next :: later = (before ++ [(key,content)]) ++ next :: later := by simp
    rw [split_] at listed
    have more := fieldsBack numerals (next :: later) (before ++ [(key,content)]) (List.cons_ne_nil _ _) plain.2 listed fuel rest
      (by omega)
    rw [text,List.cons_append] at read
    rw [text]
    simp only [List.append_assoc,List.cons_append,List.nil_append]
    rw [fieldBack numerals fuel before key solid,read]
    dsimp only
    rw [skipHead (by decide)]
    change fields numerals fuel (put before key content) ([44].intercalate (stringifyFields (next :: later)) ++ 125 :: rest) = _
    rw [putLast (List.pairwise_append.mp listed).1,more,List.append_assoc,List.singleton_append]
end

section
open Utf8

theorem wellAppend {a b : JsString} (apart : clean a) (first : wellFormed a) (second : wellFormed b) : wellFormed (a ++ b) := by
  intro point member
  rw [pointsAppend apart] at member
  rcases List.mem_append.mp member with left | right
  · exact first point left
  · exact second point right

theorem wellText (s : String) : wellFormed (js s) := by
  unfold js
  induction s.toList with
  | nil => exact fun _ member => absurd member List.not_mem_nil
  | cons c rest ih =>
    obtain ⟨units,char,apart⟩ := charUnits c
    refine wellAppend apart (fun point member => ?_) ih
    rw [units] at member
    rw [List.mem_singleton.mp member,char]
    rfl

theorem wellUnit {u : UInt16} (plain : surrogate u = false) : wellFormed [u] := by
  intro point member
  rw [List.mem_singleton.mp member]
  simp [pointChar,plain]

theorem wellPlain : ∀ k : Fin 16, surrogate (hexUnit k) = false := by decide

theorem wellUnits {s : JsString} (plain : ∀ u ∈ s, surrogate u = false) : wellFormed s := by
  induction s with
  | nil => exact fun _ member => absurd member List.not_mem_nil
  | cons u rest ih =>
    have own := plain u List.mem_cons_self
    exact wellAppend (a := [u]) (cleanEnd [] (plainNotHigh own)) (wellUnit own) (ih fun v later => plain v (List.mem_cons_of_mem _ later))

theorem wellEscape {s point : JsString} (member : point ∈ points s) : wellFormed (escapePoint point) := by
  rcases pointShape member with ⟨u,rfl⟩ | ⟨u,v,rfl,high,low⟩
  · change wellFormed (escapeUnit u)
    unfold escapeUnit
    have two (v : UInt16) (plain : surrogate v = false) : wellFormed [92,v] := by
      refine wellUnits fun w inside => ?_
      rcases List.mem_cons.mp inside with rfl | last
      · rfl
      · exact List.mem_singleton.mp last ▸ plain
    split
    · exact two 34 (by decide)
    · split
      · exact two 92 (by decide)
      · split
        · exact two 98 (by decide)
        · split
          · exact two 102 (by decide)
          · split
            · exact two 110 (by decide)
            · split
              · exact two 114 (by decide)
              · split
                · exact two 116 (by decide)
                · split
                  · have small : u.toNat < 0x10000 := u.toNat_lt
                    refine wellUnits fun w inside => ?_
                    simp only [escapeHex,List.mem_cons,List.not_mem_nil,or_false] at inside
                    rcases inside with rfl | rfl | rfl | rfl | rfl | rfl
                    · rfl
                    · rfl
                    · exact wellPlain ⟨u.toNat / 0x1000,by omega⟩
                    · exact wellPlain ⟨u.toNat / 0x100 % 16,by omega⟩
                    · exact wellPlain ⟨u.toNat / 16 % 16,by omega⟩
                    · exact wellPlain ⟨u.toNat % 16,by omega⟩
                  · rename_i kept
                    refine wellUnit (Bool.eq_false_iff.mpr fun lone => kept ?_)
                    rw [lone,Bool.or_true]
  · intro point inside
    simp only [escapePoint,points,high,low,Bool.and_true,if_true] at inside
    rw [List.mem_singleton.mp inside]
    rfl

theorem wellQuote (s : JsString) : wellFormed (quote s) := by
  have flat (units : List JsString) (read : ∀ point ∈ units, point ∈ points s) :
      wellFormed (units.flatMap escapePoint ++ [34]) := by
    induction units with
    | nil => exact wellUnit (by decide)
    | cons point more ih =>
      have own := read point List.mem_cons_self
      rw [List.flatMap_cons,List.append_assoc]
      exact wellAppend (cleanEscape own) (wellEscape own) (ih fun p later => read p (List.mem_cons_of_mem _ later))
  rw [quote,List.append_assoc]
  exact wellAppend (by decide) (wellUnit (by decide)) (flat (points s) fun _ member => member)

theorem wellJoin {texts : List JsString} (apart : ∀ text ∈ texts, clean text) (well : ∀ text ∈ texts, wellFormed text) :
    wellFormed ([44].intercalate texts) := by
  induction texts with
  | nil => exact fun _ member => absurd member List.not_mem_nil
  | cons text rest ih =>
    have first := apart text List.mem_cons_self
    have own := well text List.mem_cons_self
    have later := ih (fun t member => apart t (List.mem_cons_of_mem _ member)) fun t member => well t (List.mem_cons_of_mem _ member)
    cases rest with
    | nil => rwa [List.intercalate_singleton]
    | cons next more =>
      rw [joinedCons _ (List.cons_ne_nil _ _)]
      exact wellAppend first own (wellAppend (a := [44]) (by decide) (wellUnit (by decide)) later)

mutual
theorem wellJson : ∀ v : JsValue, wellFormed (stringify v)
  | .undefined => wellText "null"
  | .null => wellText "null"
  | .bool true => wellText "true"
  | .bool false => wellText "false"
  | .number (.int i) => wellText (toString i)
  | .number (.float digits) => wellText digits
  | .string s => wellQuote s
  | .array list => by
    rw [stringify,List.append_assoc]
    exact wellAppend (by decide) (wellUnit (by decide)) (wellAppend (cleanJoin fun text member => (wellItems list text member).1)
      (wellJoin (fun text member => (wellItems list text member).1) fun text member => (wellItems list text member).2) (wellUnit (by decide)))
  | .object list => by
    rw [stringify,List.append_assoc]
    exact wellAppend (by decide) (wellUnit (by decide)) (wellAppend (cleanJoin fun text member => (wellFields list text member).1)
      (wellJoin (fun text member => (wellFields list text member).1) fun text member => (wellFields list text member).2) (wellUnit (by decide)))

theorem wellItems : ∀ (list : List JsValue), ∀ text ∈ stringifyItems list, clean text = true ∧ wellFormed text
  | [], _, member => absurd member List.not_mem_nil
  | item :: rest, text, member => by
    rw [stringifyItems] at member
    rcases List.mem_cons.mp member with rfl | later
    · exact ⟨cleanJson item,wellJson item⟩
    · exact wellItems rest text later

theorem wellFields : ∀ (list : List (JsString × JsValue)), ∀ text ∈ stringifyFields list, clean text = true ∧ wellFormed text
  | [], _, member => absurd member List.not_mem_nil
  | (_,.undefined) :: rest, text, member => wellFields rest text member
  | (key,content) :: rest, text, member => by
    have either : text = quote key ++ [58] ++ stringify content ∨ text ∈ stringifyFields rest := by
      cases content with
      | undefined => exact .inr member
      | null => exact List.mem_cons.mp member
      | bool b => exact List.mem_cons.mp member
      | number n => exact List.mem_cons.mp member
      | string s => exact List.mem_cons.mp member
      | array list => exact List.mem_cons.mp member
      | object list => exact List.mem_cons.mp member
    rcases either with rfl | later
    · exact ⟨cleanAppend (cleanAppend (cleanQuote key) (by decide)) (cleanJson content),
        wellAppend (cleanAppend (cleanQuote key) (by decide)) (wellAppend (cleanQuote key) (wellQuote key) (wellUnit (by decide))) (wellJson content)⟩
    · exact wellFields rest text later
end

/-- The bytes of what JSON.stringify wrote are read back by Buffer.toString and JSON.parse. -/
theorem parseBack (numerals : Numerals) {v : JsValue} (plain : Plain numerals v) :
    parse numerals (decode (utf8 (stringify v))) = some v := by
  obtain ⟨u,tail,text,solid,-⟩ := starts numerals plain
  have read := valueBack numerals v plain (2 * (stringify v).length) [] (Nat.le_refl _) delimitedEnd
  rw [List.append_nil] at read
  have skipped : skip (stringify v) = stringify v := by
    rw [text]
    exact skipHead solid tail
  rw [decodeWritten (wellJson v),parse,skipped,read]
  rfl

end

theorem digitUnit : ∀ d : Fin 10, utf16Char (Nat.digitChar d) = [UInt16.ofNat (48 + d)] ∧ digit (UInt16.ofNat (48 + d)) = true ∧
    (UInt16.ofNat (48 + d)).toNat - 48 = d ∧ (UInt16.ofNat (48 + d) = 48 → d = 0) := by decide

/- The digits of a number: they are read back, and only 0 starts with a zero. -/
theorem digitsText (n : Nat) : ∃ s, (Nat.toDigits 10 n).flatMap utf16Char = s ∧ s.all digit = true ∧ decimal s = n ∧ s ≠ [] ∧
    (s.head? = some 48 → s = [48]) := by
  induction n using Nat.strongRecOn with
  | ind n ih =>
    obtain ⟨unit,isDigit,back,zero⟩ := digitUnit ⟨n % 10,Nat.mod_lt _ (by decide)⟩
    by_cases small : n < 10
    · have same : n % 10 = n := Nat.mod_eq_of_lt small
      simp only [same] at unit isDigit back zero
      refine ⟨[UInt16.ofNat (48 + n)],?_,?_,?_,List.cons_ne_nil _ _,?_⟩
      · rw [Nat.toDigits_of_lt_base small,List.flatMap_singleton,unit]
      · rw [List.all_cons,isDigit]
        rfl
      · change 0 * 10 + _ = n
        rw [back,Nat.zero_mul,Nat.zero_add]
      · intro first
        rw [Option.some.inj first]
    · obtain ⟨s,text,digits,read,some_,first⟩ := ih (n / 10) (by omega)
      refine ⟨s ++ [UInt16.ofNat (48 + n % 10)],?_,?_,?_,?_,?_⟩
      · rw [Nat.toDigits_of_base_le (by decide) (by omega),List.flatMap_append,text,List.flatMap_singleton,unit]
      · rw [List.all_append,digits,List.all_cons,isDigit]
        rfl
      · rw [decimal,List.foldl_append]
        change decimal s * 10 + _ = n
        rw [read,back]
        dsimp only
        omega
      · exact List.append_ne_nil_of_left_ne_nil some_ _
      · intro head
        rw [List.head?_append_of_ne_nil _ some_] at head
        rw [first head] at read
        change 0 = n / 10 at read
        omega

theorem digitsNumeral {s : JsString} (digits : s.all digit = true) (some_ : s ≠ []) (first : s.head? = some 48 → s = [48]) :
    numeral s = true ∧ numeral (45 :: s) = true := by
  have all : s.takeWhile digit = s := by
    rw [List.takeWhile_eq_self_iff]
    exact fun u member => List.all_eq_true.mp digits u member
  have none_ : s.dropWhile digit = [] := List.dropWhile_eq_nil_iff.mpr fun u member => List.all_eq_true.mp digits u member
  have plain : unsigned s = s := by
    cases s with
    | nil => rfl
    | cons u rest =>
      unfold unsigned
      split
      · rename_i same
        cases same
        exact absurd (Bool.and_eq_true_iff.mp digits).1 (by decide)
      · rfl
  have shaped : (decide (s ≠ []) && (decide (s = [48]) || decide (s.head? ≠ some 48)) && fraction []) = true := by
    by_cases zero : s.head? = some 48
    · simp [first zero,fraction,exponent]
    · simp [some_,zero,fraction,exponent]
  constructor
  · simpa only [numeral,plain,all,none_] using shaped
  · simpa only [numeral,unsigned,all,none_] using shaped

def wholeNumber : JsString → Number
  | 45 :: digits => .int (-decimal digits)
  | digits => .int (decimal digits)

theorem wholeDigits (i : Int) : ∃ s, s.all digit = true ∧ decimal s = i.natAbs ∧ s ≠ [] ∧ (s.head? = some 48 → s = [48]) ∧
    (Number.int i).script = if i < 0 then 45 :: s else s := by
  cases i with
  | ofNat n =>
    obtain ⟨s,text,digits,read,some_,first⟩ := digitsText n
    refine ⟨s,digits,read,some_,first,?_⟩
    have whole : (Number.int (Int.ofNat n)).script = s := text ▸ congrArg (List.flatMap utf16Char) Nat.toList_repr
    exact whole.trans (if_neg (Int.not_lt.mpr (Int.natCast_nonneg n))).symm
  | negSucc n =>
    obtain ⟨s,text,digits,read,some_,first⟩ := digitsText (n + 1)
    refine ⟨s,digits,read,some_,first,?_⟩
    have minus : (toString (Int.negSucc n)).toList = '-' :: Nat.toDigits 10 (n + 1) := by
      change ("-" ++ (n + 1).repr).toList = _
      rw [String.toList_append,Nat.toList_repr]
      rfl
    rw [if_pos (Int.negSucc_lt_zero n),← text,Number.script,js,minus]
    rfl

theorem wholeText (i : Int) : numeral (Number.int i).script = true ∧ wholeNumber (Number.int i).script = .int i := by
  obtain ⟨s,digits,read,some_,first,text⟩ := wholeDigits i
  rw [text]
  split
  · refine ⟨(digitsNumeral digits some_ first).2,?_⟩
    change Number.int (-decimal s) = _
    rw [read]
    exact congrArg Number.int (by omega)
  · refine ⟨(digitsNumeral digits some_ first).1,?_⟩
    unfold wholeNumber
    split
    · exact absurd (Bool.and_eq_true_iff.mp digits).1 (by decide)
    · rw [read]
      exact congrArg Number.int (by omega)

/- Integers alone, for runs on fixed inputs. -/
def wholeNumerals : Numerals where
  toNumber := wholeNumber
  finite n := ∃ i, n = .int i
  whole i _ := ⟨i,rfl⟩
  written := fun _ ⟨i,same⟩ => same ▸ (wholeText i).1
  readBack := fun _ ⟨i,same⟩ => same ▸ (wholeText i).2

end Northstar.Json
