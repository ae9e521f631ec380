import Northstar.Interchange

/-! Reading UTF-8 as Buffer.toString does: a byte that no point goes on with leaves U+FFFD for what
was begun and is looked at again. -/
namespace Northstar.Utf8

/- A point that was begun: its bits so far, the bytes it still needs and the range of the next. -/
structure Begun where
  bits : Nat
  needed : Nat
  lower : Nat
  upper : Nat

def begin_ (b : Nat) : JsString × Option Begun :=
  if b < 0x80 then ([UInt16.ofNat b],none)
  else if 0xC2 ≤ b ∧ b ≤ 0xDF then ([],some ⟨b - 0xC0,1,0x80,0xBF⟩)
  else if 0xE0 ≤ b ∧ b ≤ 0xEF then
    ([],some ⟨b - 0xE0,2,if b = 0xE0 then 0xA0 else 0x80,if b = 0xED then 0x9F else 0xBF⟩)
  else if 0xF0 ≤ b ∧ b ≤ 0xF4 then
    ([],some ⟨b - 0xF0,3,if b = 0xF0 then 0x90 else 0x80,if b = 0xF4 then 0x8F else 0xBF⟩)
  else ([0xFFFD],none)

def decodeFrom : Option Begun → Bytes → JsString
  | none, [] => []
  | some _, [] => [0xFFFD]
  | none, b :: rest => (begin_ b.toNat).1 ++ decodeFrom (begin_ b.toNat).2 rest
  | some begun, b :: rest =>
      if begun.lower ≤ b.toNat ∧ b.toNat ≤ begun.upper then
        let bits := begun.bits * 64 + (b.toNat - 0x80)
        if begun.needed = 1 then utf16Char (Char.ofNat bits) ++ decodeFrom none rest
        else decodeFrom (some ⟨bits,begun.needed - 1,0x80,0xBF⟩) rest
      else 0xFFFD :: (begin_ b.toNat).1 ++ decodeFrom (begin_ b.toNat).2 rest

def decode (bytes : Bytes) : JsString := decodeFrom none bytes

/- No surrogate stands alone. -/
def wellFormed (s : JsString) : Prop := ∀ point ∈ points s, (pointChar point).isSome

theorem goesOn (bits needed : Nat) {n lower upper : Nat} (low : lower ≤ n) (high : n ≤ upper) (small : n < 256)
    (more : needed ≠ 1) (rest : Bytes) : decodeFrom (some ⟨bits,needed,lower,upper⟩) (UInt8.ofNat n :: rest) =
    decodeFrom (some ⟨bits * 64 + (n - 0x80),needed - 1,0x80,0xBF⟩) rest := by
  have same : (UInt8.ofNat n).toNat = n := UInt8.toNat_ofNat_of_lt small
  simp only [decodeFrom,same,low,high,and_self,if_true,if_neg more]

theorem ends (bits : Nat) {n lower upper : Nat} (low : lower ≤ n) (high : n ≤ upper) (small : n < 256) (rest : Bytes) :
    decodeFrom (some ⟨bits,1,lower,upper⟩) (UInt8.ofNat n :: rest) =
    utf16Char (Char.ofNat (bits * 64 + (n - 0x80))) ++ decodeFrom none rest := by
  have same : (UInt8.ofNat n).toNat = n := UInt8.toNat_ofNat_of_lt small
  simp only [decodeFrom,same,low,high,and_self,if_true]

theorem begins {n : Nat} (small : n < 256) (rest : Bytes) : decodeFrom none (UInt8.ofNat n :: rest) =
    (begin_ n).1 ++ decodeFrom (begin_ n).2 rest := by
  have same : (UInt8.ofNat n).toNat = n := UInt8.toNat_ofNat_of_lt small
  rw [decodeFrom,same]

theorem decodeChar (c : Char) (rest : Bytes) :
    decodeFrom none (String.utf8EncodeChar c ++ rest) = utf16Char c ++ decodeFrom none rest := by
  have valid := c.valid
  have back : Char.ofNat c.val.toNat = c := Char.ofNat_toNat c
  change c.val.toNat < 0xD800 ∨ 0xDFFF < c.val.toNat ∧ c.val.toNat < 0x110000 at valid
  unfold String.utf8EncodeChar
  generalize number : c.val.toNat = v at valid back
  dsimp only
  split
  · rename_i one
    have bytes : begin_ v = ([UInt16.ofNat v],none) := if_pos (by omega)
    rw [List.singleton_append,begins (by omega),bytes,utf16Char,if_pos (by change c.val.toNat < _; omega)]
    rw [show c.toNat = v from number]
  · rename_i one
    split
    · rename_i two
      have first : begin_ (v / 64 % 32 + 192) = ([],some ⟨v / 64 % 32,1,0x80,0xBF⟩) := by
        rw [begin_,if_neg (by omega),if_pos (by omega),Nat.add_sub_cancel]
      have whole : v / 64 % 32 * 64 + (v % 64 + 128 - 0x80) = v := by omega
      rw [List.cons_append,List.singleton_append,begins (by omega),first]
      dsimp only
      rw [ends _ (by omega) (by omega) (by omega),whole,back]
      rfl
    · rename_i two
      split
      · rename_i three
        have first : begin_ (v / 4096 % 16 + 224) = ([],some ⟨v / 4096 % 16,2,
            if v / 4096 % 16 + 224 = 0xE0 then 0xA0 else 0x80,if v / 4096 % 16 + 224 = 0xED then 0x9F else 0xBF⟩) := by
          rw [begin_,if_neg (by omega),if_neg (by omega),if_pos (by omega),Nat.add_sub_cancel]
        have whole : (v / 4096 % 16 * 64 + (v / 64 % 64 + 128 - 0x80)) * 64 + (v % 64 + 128 - 0x80) = v := by omega
        rw [List.cons_append,begins (by omega),first]
        dsimp only
        rw [List.cons_append,goesOn _ _ (by split <;> omega) (by split <;> omega) (by omega) (by decide),
          List.singleton_append,ends _ (by omega) (by omega) (by omega),whole,back]
        rfl
      · rename_i three
        have first : begin_ (v / 262144 % 8 + 240) = ([],some ⟨v / 262144 % 8,3,
            if v / 262144 % 8 + 240 = 0xF0 then 0x90 else 0x80,if v / 262144 % 8 + 240 = 0xF4 then 0x8F else 0xBF⟩) := by
          rw [begin_,if_neg (by omega),if_neg (by omega),if_neg (by omega),if_pos (by omega),Nat.add_sub_cancel]
        have whole : ((v / 262144 % 8 * 64 + (v / 4096 % 64 + 128 - 0x80)) * 64 + (v / 64 % 64 + 128 - 0x80)) * 64 +
            (v % 64 + 128 - 0x80) = v := by omega
        rw [List.cons_append,begins (by omega),first]
        dsimp only
        rw [List.cons_append,goesOn _ _ (by split <;> omega) (by split <;> omega) (by omega) (by decide),List.cons_append,
          goesOn _ _ (by omega) (by omega) (by omega) (by decide),List.singleton_append,
          ends _ (by omega) (by omega) (by omega),whole,back]
        rfl

/- A point is written as the units it was read from. -/
theorem pointUnits {s point : JsString} (member : point ∈ points s) {c : Char} (read : pointChar point = some c) :
    utf16Char c = point := by
  rcases pointShape member with ⟨u,rfl⟩ | ⟨u,v,rfl,high,low⟩
  · rw [pointChar] at read
    split at read
    · contradiction
    · rename_i plain
      cases read
      have same := scalarToNat (plainScalar (Bool.eq_false_iff.mpr plain))
      rw [utf16Char,same,if_pos u.toNat_lt,UInt16.ofNat_toNat]
  · have point : Char.ofNat (pairPoint u v) = c := Option.some.inj read
    obtain ⟨wide,bound⟩ := pairBounds high low
    have same : (Char.ofNat (pairPoint u v)).toNat = pairPoint u v := scalarToNat (.inr ⟨by omega,bound⟩)
    rw [← point,utf16Char,same,if_neg (by omega)]
    obtain ⟨highStart,highEnd⟩ := Bool.and_eq_true_iff.mp high
    obtain ⟨lowStart,lowEnd⟩ := Bool.and_eq_true_iff.mp low
    have a : 0xD800 ≤ u.toNat := UInt16.le_iff_toNat_le.mp (of_decide_eq_true highStart)
    have b : u.toNat < 0xDC00 := UInt16.lt_iff_toNat_lt.mp (of_decide_eq_true highEnd)
    have c : 0xDC00 ≤ v.toNat := UInt16.le_iff_toNat_le.mp (of_decide_eq_true lowStart)
    have d : v.toNat < 0xE000 := UInt16.lt_iff_toNat_lt.mp (of_decide_eq_true lowEnd)
    have first : 0xD800 + (pairPoint u v - 0x10000) / 0x400 = u.toNat := by unfold pairPoint; omega
    have second : 0xDC00 + (pairPoint u v - 0x10000) % 0x400 = v.toNat := by unfold pairPoint; omega
    rw [first,second,UInt16.ofNat_toNat,UInt16.ofNat_toNat]

/- What is read back from a text's bytes: U+FFFD stands for each lone surrogate. -/
def scrubPoint (point : JsString) : JsString := if (pointChar point).isSome then point else [0xFFFD]

def scrub (s : JsString) : JsString := (points s).flatMap scrubPoint

theorem decodePoint {s point : JsString} (member : point ∈ points s) (rest : Bytes) :
    decodeFrom none (utf8Units point ++ rest) = scrubPoint point ++ decodeFrom none rest := by
  cases char : pointChar point with
  | none =>
    have mark : utf16Char (Char.ofNat 0xFFFD) = [0xFFFD] := by decide
    rw [utf8Units,scrubPoint,char,Option.getD_none,decodeChar,mark]
    rfl
  | some c =>
    rw [utf8Units,scrubPoint,char,Option.getD_some,decodeChar,pointUnits member char]
    rfl

theorem decodeBytes (s : JsString) : decode (utf8 s) = scrub s := by
  have flat (units : List JsString) (read : ∀ point ∈ units, point ∈ points s) :
      decodeFrom none (units.flatMap utf8Units) = units.flatMap scrubPoint := by
    induction units with
    | nil => rfl
    | cons point rest ih =>
      rw [List.flatMap_cons,List.flatMap_cons,decodePoint (read point List.mem_cons_self),
        ih fun p later => read p (List.mem_cons_of_mem _ later)]
  rw [decode,utf8,flat (points s) fun _ member => member,scrub]

theorem scrubWell {s : JsString} (well : wellFormed s) : scrub s = s := by
  have same : (points s).map scrubPoint = points s :=
    (List.map_congr_left fun point member => if_pos (well point member)).trans (List.map_id' (points s))
  rw [scrub,List.flatMap_def,same,pointsFlatten]

/-- A text without lone surrogates is read back from its bytes. -/
theorem decodeWritten {s : JsString} (well : wellFormed s) : decode (utf8 s) = s := (decodeBytes s).trans (scrubWell well)

theorem scrubLength {s point : JsString} (member : point ∈ points s) : (scrubPoint point).length = point.length := by
  rcases pointShape member with ⟨u,rfl⟩ | ⟨u,v,rfl,_,_⟩
  · unfold scrubPoint
    split <;> rfl
  · rfl

/- Points changed one by one keep their bytes when each does and none reaches into the next. -/
theorem pointwiseBytes {change : JsString → JsString} {units : List JsString}
    (kept : ∀ point ∈ units, clean (change point) ∧ utf8 (change point) = utf8Units point) :
    utf8 (units.flatMap change) = units.flatMap utf8Units := by
  induction units with
  | nil => rfl
  | cons point rest ih =>
    obtain ⟨apart,bytes⟩ := kept point List.mem_cons_self
    rw [List.flatMap_cons,List.flatMap_cons,utf8Append apart,bytes,ih fun p later => kept p (List.mem_cons_of_mem _ later)]

theorem pointAlone {s point : JsString} (member : point ∈ points s) (char : (pointChar point).isSome) :
    clean point ∧ points point = [point] := by
  rcases pointShape member with ⟨u,rfl⟩ | ⟨u,v,rfl,high,low⟩
  · refine ⟨cleanEnd [] ?_,rfl⟩
    by_contra high
    have lone := surrogateHigh (Bool.not_eq_false _ ▸ high)
    simp [pointChar,lone] at char
  · refine ⟨cleanEnd [u] ?_,?_⟩
    · have above : 0xDC00 ≤ v := of_decide_eq_true (Bool.and_eq_true_iff.mp low).1
      exact Bool.and_eq_false_iff.mpr (.inr (decide_eq_false (UInt16.not_lt.mpr above)))
    · rw [points,if_pos (Bool.and_eq_true_iff.mpr ⟨high,low⟩)]
      rfl

theorem pointBytes {s point : JsString} (member : point ∈ points s) (char : (pointChar point).isSome) :
    clean point ∧ utf8 point = utf8Units point := by
  obtain ⟨apart,alone⟩ := pointAlone member char
  rw [utf8,alone]
  exact ⟨apart,List.flatMap_singleton _ _⟩

theorem scrubBytes (s : JsString) : utf8 (scrub s) = utf8 s := by
  refine pointwiseBytes fun point member => ?_
  by_cases char : (pointChar point).isSome
  · rw [scrubPoint,if_pos char]
    exact pointBytes member char
  · have none_ : pointChar point = none := Option.not_isSome_iff_eq_none.mp char
    rw [scrubPoint,if_neg char,utf8Units,none_]
    exact ⟨by decide,by decide⟩

theorem scrubFixed {s : JsString} (same : scrub s = s) : ∀ point ∈ points s, scrubPoint point = point := by
  have flat (units : List JsString) (read : ∀ point ∈ units, point ∈ points s)
      (eq : units.flatMap scrubPoint = units.flatten) : ∀ point ∈ units, scrubPoint point = point := by
    induction units with
    | nil => exact fun _ member => absurd member List.not_mem_nil
    | cons first rest ih =>
      rw [List.flatMap_cons,List.flatten_cons] at eq
      obtain ⟨own,later⟩ := List.append_inj eq (scrubLength (read first List.mem_cons_self))
      intro point member
      rcases List.mem_cons.mp member with rfl | after
      · exact own
      · exact ih (fun p inside => read p (List.mem_cons_of_mem _ inside)) later point after
  exact flat (points s) (fun _ member => member) (same.trans (pointsFlatten s).symm)

def swapMark (u : UInt16) : UInt16 := if u = 0xFFFD then 0xDC00 else u

/- In a text without lone surrogates the mark U+FFFD is written like a lone surrogate. -/
theorem swapBytes {s : JsString} (well : wellFormed s) : utf8 (s.map swapMark) = utf8 s := by
  have parts : s.map swapMark = (points s).flatMap (List.map swapMark) := by
    rw [List.flatMap_def,← List.map_flatten,pointsFlatten]
  rw [parts]
  refine pointwiseBytes fun point member => ?_
  have alone := pointBytes member (well point member)
  have still {u : UInt16} (lone : u ≠ 0xFFFD) : swapMark u = u := if_neg lone
  rcases pointShape member with ⟨u,rfl⟩ | ⟨u,v,rfl,high,low⟩
  · by_cases mark : u = 0xFFFD
    · rw [mark]
      exact ⟨by decide,by decide⟩
    · rwa [List.map_singleton,still mark]
  · have first : u ≠ 0xFFFD := fun same => absurd (same ▸ high) (by decide)
    have second : v ≠ 0xFFFD := fun same => absurd (same ▸ low) (by decide)
    rwa [List.map_cons,List.map_singleton,still first,still second]

/-- No other text is written with the same bytes where nothing stands alone and nothing is marked as such. -/
theorem bytesUnique (s : JsString) : (∀ other, utf8 other = utf8 s → other = s) ↔ wellFormed s ∧ 0xFFFD ∉ s := by
  constructor
  · intro unique
    have fixed := scrubFixed (unique (scrub s) (scrubBytes s))
    have well : wellFormed s := by
      intro point member
      by_contra none_
      have own := fixed point member
      rw [scrubPoint,if_neg none_] at own
      exact none_ (own ▸ rfl)
    refine ⟨well,fun member => ?_⟩
    have same : s.map swapMark = s.map id := (unique _ (swapBytes well)).trans (List.map_id s).symm
    exact absurd (List.map_inj_left.mp same _ member) (by decide)
  · rintro ⟨well,unmarked⟩ other bytes
    have read : scrub other = s := by rw [← decodeBytes,bytes,decodeWritten well]
    have whole : wellFormed other := by
      intro point member
      by_contra none_
      refine unmarked (read ▸ List.mem_flatMap.mpr ⟨point,member,?_⟩)
      rw [scrubPoint,if_neg none_]
      exact List.mem_singleton_self _
    rw [← read,scrubWell whole]

theorem bytesSame (a b : JsString) : utf8 a = utf8 b ↔ scrub a = scrub b := by
  constructor
  · intro bytes
    rw [← decodeBytes a,← decodeBytes b,bytes]
  · intro read
    rw [← scrubBytes a,← scrubBytes b,read]

theorem scrubBreak (a : JsString) {u : UInt16} (plain : surrogate u = false) (b : JsString) :
    scrub (a ++ u :: b) = scrub a ++ u :: scrub b := by
  have solid : lowSurrogate u = false := by
    by_contra low
    rw [surrogateLow (Bool.not_eq_false _ ▸ low)] at plain
    contradiction
  have apart : clean [u] := cleanEnd [] (plainNotHigh plain)
  have own : scrubPoint [u] = [u] := if_pos (by rw [pointChar,plain]; rfl)
  have later : points (u :: b) = [u] :: points b := pointsAppend apart b
  rw [scrub,pointsBreak a solid b,later,List.flatMap_append,List.flatMap_cons,own]
  rfl

theorem scrubJoined {u : UInt16} (plain : surrogate u = false) (texts : List JsString) :
    scrub ([u].intercalate texts) = [u].intercalate (texts.map scrub) := by
  induction texts with
  | nil => rfl
  | cons text rest ih => cases rest with
    | nil => simp
    | cons next more =>
      rw [List.intercalate_cons_cons,List.append_assoc,List.singleton_append,scrubBreak text plain,ih,List.map_cons,List.map_cons,
        List.map_cons,List.intercalate_cons_cons,List.append_assoc,List.singleton_append]

end Northstar.Utf8
