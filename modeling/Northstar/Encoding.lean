import Northstar.Script

/-! How long JSON text is. A string that does not end in a high surrogate is encoded apart
from what follows it, so the bytes of an object are those of its fields; they are never
fewer than the units written. -/
namespace Northstar

/- A string that does not end in a high surrogate splits off cleanly. -/
def clean (s : JsString) : Bool := !s.getLast?.any highSurrogate

theorem pointsAppend {a : JsString} (h : clean a) (b : JsString) :
    points (a ++ b) = points a ++ points b := by
  induction a using points.induct with
  | case1 => rfl
  | case2 u =>
    have low : highSurrogate u = false := by simpa [clean] using h
    cases b with
    | nil => rfl
    | cons v rest => simp [points,low]
  | case3 u v rest pair ih =>
    have rest' : clean rest := by
      cases rest with
      | nil => rfl
      | cons w more => simpa [clean] using h
    simp only [List.cons_append,points,if_pos pair,ih rest']
  | case4 u v rest single ih =>
    have rest' : clean (v :: rest) := by simpa [clean] using h
    have later := ih rest'
    simp only [List.cons_append] at later
    simp only [List.cons_append,points,if_neg single,later]

theorem utf8Append {a : JsString} (h : clean a) (b : JsString) : utf8 (a ++ b) = utf8 a ++ utf8 b := by
  simp only [utf8,pointsAppend h b,List.flatMap_append]

theorem pointsBreak (a : JsString) {u : UInt16} (solid : lowSurrogate u = false) (b : JsString) :
    points (a ++ u :: b) = points a ++ points (u :: b) := by
  induction a using points.induct with
  | case1 => rfl
  | case2 v =>
    change points (v :: u :: b) = [v] :: points (u :: b)
    rw [points,if_neg (by simp [solid])]
  | case3 v w rest pair ih =>
    simp only [List.cons_append,points,pair,if_true,ih]
  | case4 v w rest apart ih =>
    rw [List.cons_append] at ih
    simp only [List.cons_append,points,if_neg apart,ih]

theorem utf8Break (a : JsString) {u : UInt16} (solid : lowSurrogate u = false) (b : JsString) :
    utf8 (a ++ u :: b) = utf8 a ++ utf8 (u :: b) := by
  simp only [utf8,pointsBreak a solid b,List.flatMap_append]

theorem pointsFlatten (s : JsString) : (points s).flatten = s := by
  induction s using points.induct with
  | case1 => rfl
  | case2 u => rfl
  | case3 u v rest pair ih => simp [points,pair,ih]
  | case4 u v rest single ih => simp [points,single,ih]

theorem pointShape {s point : JsString} (member : point ∈ points s) :
    (∃ u, point = [u]) ∨ ∃ u v, point = [u,v] ∧ highSurrogate u ∧ lowSurrogate v := by
  induction s using points.induct with
  | case1 => contradiction
  | case2 u => exact .inl ⟨u,List.mem_singleton.mp member⟩
  | case3 u v rest pair ih =>
    simp only [points,if_pos pair] at member
    rcases List.mem_cons.mp member with first | later
    · exact .inr ⟨u,v,first,by simpa using pair⟩
    · exact ih later
  | case4 u v rest single ih =>
    simp only [points,if_neg single] at member
    rcases List.mem_cons.mp member with first | later
    · exact .inl ⟨u,first⟩
    · exact ih later

theorem pairBounds {u v : UInt16} (high : highSurrogate u) (low : lowSurrogate v) :
    0x10000 ≤ pairPoint u v ∧ pairPoint u v < 0x110000 := by
  obtain ⟨_,highEnd⟩ := Bool.and_eq_true_iff.mp high
  obtain ⟨_,lowEnd⟩ := Bool.and_eq_true_iff.mp low
  have high' : u.toNat < 0xDC00 := UInt16.lt_iff_toNat_lt.mp (of_decide_eq_true highEnd)
  have low' : v.toNat < 0xE000 := UInt16.lt_iff_toNat_lt.mp (of_decide_eq_true lowEnd)
  unfold pairPoint
  omega

theorem scalarToNat {n : Nat} (valid : n.isValidChar) : (Char.ofNat n).toNat = n := by
  rw [Char.ofNat,dif_pos valid]
  rfl

theorem wideSize {c : Char} (wide : 0x10000 ≤ c.toNat) : c.utf8Size = 4 :=
  Char.utf8Size_eq_four_iff.mpr (UInt32.lt_iff_toNat_lt.mpr wide)

theorem pairSize {u v : UInt16} (high : highSurrogate u) (low : lowSurrogate v) :
    (utf8Units [u,v]).length = 4 := by
  obtain ⟨wide,bound⟩ := pairBounds high low
  have valid : (pairPoint u v).isValidChar := .inr ⟨by omega,bound⟩
  rw [utf8Units,pointChar,Option.getD_some,String.length_utf8EncodeChar]
  apply wideSize
  rw [scalarToNat valid]
  exact wide

theorem unitSize (u : UInt16) : 1 ≤ (utf8Units [u]).length := by
  rw [utf8Units,String.length_utf8EncodeChar]
  exact Char.utf8Size_pos _

/- Each unit of a string makes at least one byte of its encoding. -/
theorem lengthBytes (s : JsString) : s.length ≤ byteLength s := by
  unfold byteLength utf8
  induction s using points.induct with
  | case1 => exact Nat.zero_le _
  | case2 u => simpa [points] using unitSize u
  | case3 u v rest pair ih =>
    obtain ⟨high,low⟩ := Bool.and_eq_true_iff.mp pair
    have four := pairSize high low
    simp only [points,if_pos pair,List.flatMap_cons,List.length_append,List.length_cons,four]
    omega
  | case4 u v rest single ih =>
    have one := unitSize u
    simp only [points,if_neg single,List.flatMap_cons,List.length_append]
    rw [List.length_cons]
    omega

theorem escapeGrows (u : UInt16) : 1 ≤ (escapeUnit u).length := by
  unfold escapeUnit escapeHex
  grind

theorem quoteGrows (s : JsString) : s.length + 2 ≤ (quote s).length := by
  have body : s.length ≤ ((points s).flatMap escapePoint).length := by
    induction s using points.induct with
    | case1 => exact Nat.zero_le _
    | case2 u => simpa [points,escapePoint] using escapeGrows u
    | case3 u v rest pair ih =>
      simp only [points,if_pos pair,List.flatMap_cons,List.length_append,List.length_cons,escapePoint]
      omega
    | case4 u v rest single ih =>
      have one := escapeGrows u
      simp only [points,if_neg single,List.flatMap_cons,List.length_append,escapePoint]
      rw [List.length_cons]
      omega
  simp only [quote,List.length_append,List.length_singleton]
  omega

theorem cleanAppend {a b : JsString} (left : clean a) (right : clean b) : clean (a ++ b) := by
  unfold clean at left right ⊢
  rw [List.getLast?_append]
  cases last : b.getLast? with
  | none => simpa [last] using left
  | some u => simpa [last] using right

theorem cleanEnd (a : JsString) {u : UInt16} (low : highSurrogate u = false) : clean (a ++ [u]) := by
  simp [clean,low]

theorem unitToNat {n : Nat} (small : n < 0x10000) : (UInt16.ofNat n).toNat = n :=
  UInt16.toNat_ofNat_of_lt small

theorem unitAbove {bound n : Nat} (within : bound < 0x10000) (small : n < 0x10000) :
    UInt16.ofNat bound ≤ UInt16.ofNat n ↔ bound ≤ n := by
  rw [UInt16.le_iff_toNat_le,unitToNat within,unitToNat small]

theorem unitBelow {bound n : Nat} (within : bound < 0x10000) (small : n < 0x10000) :
    UInt16.ofNat n < UInt16.ofNat bound ↔ n < bound := by
  rw [UInt16.lt_iff_toNat_lt,unitToNat within,unitToNat small]

theorem highUnit {n : Nat} (small : n < 0x10000) :
    highSurrogate (UInt16.ofNat n) = (decide (0xD800 ≤ n) && decide (n < 0xDC00)) :=
  congrArg₂ and (decide_eq_decide.mpr (unitAbove (by decide) small))
    (decide_eq_decide.mpr (unitBelow (by decide) small))

theorem lowUnit {n : Nat} (small : n < 0x10000) :
    lowSurrogate (UInt16.ofNat n) = (decide (0xDC00 ≤ n) && decide (n < 0xE000)) :=
  congrArg₂ and (decide_eq_decide.mpr (unitAbove (by decide) small))
    (decide_eq_decide.mpr (unitBelow (by decide) small))

theorem surrogateUnit {n : Nat} (small : n < 0x10000) :
    surrogate (UInt16.ofNat n) = (decide (0xD800 ≤ n) && decide (n < 0xE000)) :=
  congrArg₂ and (decide_eq_decide.mpr (unitAbove (by decide) small))
    (decide_eq_decide.mpr (unitBelow (by decide) small))

theorem pairNat {n : Nat} (wide : ¬n < 0x10000) :
    0x10000 + (0xD800 + (n - 0x10000) / 0x400 - 0xD800) * 0x400 +
      (0xDC00 + (n - 0x10000) % 0x400 - 0xDC00) = n := by
  omega

/- A character's units stand for it and for nothing else. -/
theorem charUnits (c : Char) :
    points (utf16Char c) = [utf16Char c] ∧ pointChar (utf16Char c) = some c ∧ clean (utf16Char c) := by
  unfold utf16Char
  split
  · rename_i small
    have plain : surrogate (UInt16.ofNat c.toNat) = false := by
      rw [surrogateUnit small]
      rcases c.valid with below | ⟨above,_⟩
      · have below' : c.toNat < 0xD800 := below
        simp [below']
      · have above' : 0xDFFF < c.toNat := above
        simp only [Bool.and_eq_false_iff,decide_eq_false_iff_not]
        omega
    refine ⟨rfl,?_,?_⟩
    · rw [pointChar,plain,if_neg Bool.false_ne_true,unitToNat small,Char.ofNat_toNat]
    · refine cleanEnd [] ?_
      rw [surrogateUnit small] at plain
      rw [highUnit small]
      simp only [Bool.and_eq_false_iff,decide_eq_false_iff_not] at plain ⊢
      omega
  · rename_i wide
    have bound : c.toNat < 0x110000 := by
      rcases c.valid with below | ⟨_,above⟩
      · have below' : c.toNat < 0xD800 := below
        omega
      · exact above
    have within : (c.toNat - 0x10000) % 0x400 < 0x400 := Nat.mod_lt _ (Nat.succ_pos _)
    have highSmall : 0xD800 + (c.toNat - 0x10000) / 0x400 < 0x10000 := by omega
    have lowSmall : 0xDC00 + (c.toNat - 0x10000) % 0x400 < 0x10000 := by omega
    have high : highSurrogate (UInt16.ofNat (0xD800 + (c.toNat - 0x10000) / 0x400)) = true := by
      rw [highUnit highSmall]
      simp only [Bool.and_eq_true,decide_eq_true_eq]
      omega
    have low : lowSurrogate (UInt16.ofNat (0xDC00 + (c.toNat - 0x10000) % 0x400)) = true := by
      rw [lowUnit lowSmall]
      simp only [Bool.and_eq_true,decide_eq_true_eq]
      omega
    have point : pairPoint (UInt16.ofNat (0xD800 + (c.toNat - 0x10000) / 0x400))
        (UInt16.ofNat (0xDC00 + (c.toNat - 0x10000) % 0x400)) = c.toNat := by
      unfold pairPoint
      simp only [unitToNat highSmall,unitToNat lowSmall]
      exact pairNat wide
    refine ⟨?_,?_,?_⟩
    · rw [points,if_pos (by rw [high,low]; rfl)]
      rfl
    · rw [pointChar,point,Char.ofNat_toNat]
    · refine cleanEnd [_] ?_
      rw [highUnit lowSmall]
      simp only [Bool.and_eq_false_iff,decide_eq_false_iff_not]
      omega

theorem textPoints (text : List Char) : (points (text.flatMap utf16Char)).map pointChar = text.map some := by
  induction text with
  | nil => rfl
  | cons c rest ih =>
    obtain ⟨units,char,apart⟩ := charUnits c
    rw [List.flatMap_cons,pointsAppend apart,units,List.map_append,ih,List.map_singleton,char]
    rfl

theorem textInjective {s t : String} (same : js s = js t) : s = t := by
  have chars := textPoints s.toList
  unfold js at same
  rw [same,textPoints t.toList] at chars
  exact String.toList_inj.mp (List.map_injective_iff.mpr (Option.some_injective Char) chars).symm

theorem cleanText (s : String) : clean (js s) := by
  unfold js
  induction s.toList with
  | nil => rfl
  | cons c rest ih => exact cleanAppend (charUnits c).2.2 ih

theorem cleanQuote (s : JsString) : clean (quote s) := cleanEnd _ rfl

theorem cleanJson (v : JsValue) : clean (stringify v) := by
  cases v with
  | undefined => exact cleanText _
  | null => exact cleanText _
  | bool value => cases value <;> exact cleanText _
  | number value => cases value <;> exact cleanText _
  | string value => exact cleanQuote value
  | array items =>
    rw [stringify]
    exact cleanEnd _ rfl
  | object fields =>
    rw [stringify]
    exact cleanEnd _ rfl

theorem byteAppend {a : JsString} (h : clean a) (b : JsString) :
    byteLength (a ++ b) = byteLength a + byteLength b := by
  simp only [byteLength,utf8Append h,List.length_append]

theorem repeatedBytes (n : Nat) : byteLength (List.replicate n 97) = n := by
  induction n with
  | zero => rfl
  | succ n ih =>
    have one : byteLength [97] = 1 := by decide
    rw [List.replicate_succ,← List.singleton_append,byteAppend rfl,one,ih,Nat.add_comm]

def joinedSize (texts : List JsString) : Nat := (texts.map byteLength).sum + (texts.length - 1)

theorem cleanJoin {texts : List JsString} (h : ∀ text ∈ texts, clean text) :
    clean ([44].intercalate texts) := by
  induction texts with
  | nil => rfl
  | cons text rest ih =>
    have first : clean text := h text List.mem_cons_self
    have later := ih fun text member => h text (List.mem_cons_of_mem _ member)
    cases rest with
    | nil => simpa using first
    | cons next more =>
      rw [List.intercalate_cons_cons]
      exact cleanAppend (cleanAppend first rfl) later

theorem joinSize {texts : List JsString} (h : ∀ text ∈ texts, clean text) :
    byteLength ([44].intercalate texts) = joinedSize texts := by
  induction texts with
  | nil => rfl
  | cons text rest ih =>
    have first : clean text := h text List.mem_cons_self
    have later := ih fun text member => h text (List.mem_cons_of_mem _ member)
    cases rest with
    | nil => simp [joinedSize]
    | cons next more =>
      have comma : byteLength [44] = 1 := by decide
      rw [List.intercalate_cons_cons,List.append_assoc,byteAppend first,byteAppend (by decide),comma,later]
      simp only [joinedSize,List.map_cons,List.sum_cons,List.length_cons]
      omega

/- Points put together are taken apart again where none reaches into the next. -/
theorem pointsBuild {units : List JsString} (each : ∀ point ∈ units, points point = [point] ∧ clean point) :
    points units.flatten = units := by
  induction units with
  | nil => rfl
  | cons point rest ih =>
    obtain ⟨own,apart⟩ := each point List.mem_cons_self
    rw [List.flatten_cons,pointsAppend apart,own,ih fun p later => each p (List.mem_cons_of_mem _ later)]
    rfl

def defined : JsValue → Bool
  | .undefined => false
  | _ => true

theorem fieldTexts (fields : List (JsString × JsValue)) :
    stringifyFields fields = (fields.filter fun field => defined field.2).map
      fun field => quote field.1 ++ [58] ++ stringify field.2 := by
  induction fields with
  | nil => rfl
  | cons field rest ih =>
    obtain ⟨key,value⟩ := field
    cases value <;> simp [stringifyFields,defined,ih]

def fieldSize (field : JsString × JsValue) : Nat :=
  byteLength (quote field.1) + 1 + byteLength (stringify field.2)

theorem objectSize (fields : List (JsString × JsValue)) :
    byteLength (stringify (.object fields)) =
      ((fields.filter fun field => defined field.2).map fieldSize).sum +
        ((fields.filter fun field => defined field.2).length - 1) + 2 := by
  have open' : byteLength [123] = 1 := by decide
  have close : byteLength [125] = 1 := by decide
  have colon : byteLength [58] = 1 := by decide
  have texts : ∀ text ∈ stringifyFields fields, clean text := by
    intro text member
    rw [fieldTexts] at member
    obtain ⟨field,_,rfl⟩ := List.mem_map.mp member
    exact cleanAppend (cleanAppend (cleanQuote _) rfl) (cleanJson _)
  have sizes : (byteLength ∘ fun (field : JsString × JsValue) =>
      quote field.1 ++ [58] ++ stringify field.2) = fieldSize := by
    funext field
    rw [Function.comp_apply,byteAppend (cleanAppend (cleanQuote _) rfl),byteAppend (cleanQuote _),colon,
      fieldSize]
  rw [stringify,byteAppend (cleanAppend rfl (cleanJoin texts)),byteAppend rfl,joinSize texts,open',close,
    joinedSize,fieldTexts,List.map_map,List.length_map,sizes]
  omega

theorem objectSizeAll {fields : List (JsString × JsValue)}
    (all : (fields.filter fun field => defined field.2) = fields) :
    byteLength (stringify (.object fields)) = (fields.map fieldSize).sum + (fields.length - 1) + 2 := by
  rw [objectSize,all]

theorem fieldWithin (key : JsString) {value : JsValue} {fields : List (JsString × JsValue)}
    (member : (key,value) ∈ fields) (there : defined value) :
    byteLength (stringify value) ≤ byteLength (stringify (.object fields)) := by
  have kept : (key,value) ∈ fields.filter fun field => defined field.2 :=
    List.mem_filter.mpr ⟨member,there⟩
  have part := List.single_le_sum (fun _ _ => Nat.zero_le _) _ (List.mem_map_of_mem (f := fieldSize) kept)
  rw [objectSize]
  unfold fieldSize at part ⊢
  dsimp only at part
  omega

/- A record of the fields that are there. -/
def record (entries : List (String × Option JsValue)) : JsValue :=
  .object (entries.filterMap fun entry => entry.2.map fun value => (js entry.1,value))

/- A field by its name. -/
theorem recordField (entries : List (String × Option JsValue)) (key : String) : (record entries).get key =
    (((entries.filter fun entry => entry.2.isSome).lookup key).join).getD .undefined := by
  unfold record JsValue.get
  dsimp only
  induction entries with
  | nil => rfl
  | cons entry rest ih =>
    cases held : entry.2 with
    | none =>
      rw [List.filterMap_cons_none (by rw [held]; rfl),List.filter_cons_of_neg (by simp [held]),ih]
    | some value =>
      rw [List.filterMap_cons_some (by rw [held]; rfl),List.filter_cons_of_pos (by simp [held]),List.lookup_cons,List.lookup_cons]
      by_cases same : key = entry.1
      · rw [same,beq_self_eq_true,beq_self_eq_true]
        simp [held]
      · rw [beq_eq_false_iff_ne.mpr same,beq_eq_false_iff_ne.mpr fun text => same (textInjective text)]
        exact ih

theorem recordAbsent {entries : List (String × Option JsValue)} {key : String} (none_ : key ∉ entries.map Prod.fst) :
    (record entries).get key = .undefined := by
  have missing : (entries.filter fun entry => entry.2.isSome).lookup key = none := by
    refine List.lookup_eq_none_iff.mpr fun entry member => ?_
    exact bne_iff_ne.mpr fun same => none_ (same ▸ List.mem_map_of_mem (List.mem_of_mem_filter member))
  rw [recordField,missing]
  rfl

theorem recordGet {entries : List (String × Option JsValue)} (distinct : (entries.map Prod.fst).Nodup) {key : String} {value : Option JsValue}
    (member : (key,value) ∈ entries) : (record entries).get key = value.getD .undefined := by
  induction entries with
  | nil => cases member
  | cons entry rest ih =>
    obtain ⟨fresh,distinct⟩ := List.nodup_cons.mp distinct
    rcases List.mem_cons.mp member with rfl | inside
    · cases value with
      | none =>
        have absent := recordAbsent fresh
        rw [recordField] at absent ⊢
        exact absent
      | some value =>
        rw [recordField]
        simp
    · have apart : key ≠ entry.1 := fun same => fresh (same ▸ List.mem_map_of_mem inside)
      have later := ih distinct inside
      rw [recordField] at later ⊢
      rw [← later]
      cases held : entry.2 with
      | none => rw [List.filter_cons_of_neg (by simp [held])]
      | some other => rw [List.filter_cons_of_pos (by simp [held]),List.lookup_cons,beq_eq_false_iff_ne.mpr apart]

end Northstar
