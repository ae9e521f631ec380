import Northstar.Utf8

/-! UTF-8 read piece by piece: what is read from a piece is never shorter in bytes than the piece, and
a text cut between its points is read as if it were whole. -/
namespace Northstar.Pieces
open Utf8

def goingOn (b : UInt8) : Bool := 0x80 ≤ b && b < 0xC0

def encoded (text : List Char) : Bytes := text.flatMap String.utf8EncodeChar

def size (text : List Char) : Nat := (text.map Char.utf8Size).sum

theorem readSize (text : List Char) : byteLength (text.flatMap utf16Char) = size text := by
  have units : (points (text.flatMap utf16Char)).map utf8Units = text.map String.utf8EncodeChar := by
    have read := congrArg (List.map fun char => String.utf8EncodeChar (char.getD (Char.ofNat 0xFFFD))) (textPoints text)
    simp only [List.map_map,Function.comp_def,Option.getD_some] at read
    exact read
  rw [byteLength,utf8,List.flatMap_def,units,List.length_flatten,List.map_map,size]
  exact congrArg List.sum (List.map_congr_left fun c _ => String.length_utf8EncodeChar c)

theorem encodedLength (text : List Char) : (encoded text).length = size text := by
  rw [encoded,List.length_flatMap,size]
  exact congrArg List.sum (List.map_congr_left fun c _ => String.length_utf8EncodeChar c)

theorem decodeEncoded (text : List Char) : decode (encoded text) = text.flatMap utf16Char := by
  induction text with
  | nil => rfl
  | cons c rest ih =>
    rw [encoded,List.flatMap_cons,decode,decodeChar,List.flatMap_cons]
    exact congrArg _ ih

/- The bytes that a point begun stands for, and what its bits can be. -/
inductive Sized : Nat → Option Begun → Prop
  | nothing : Sized 0 none
  | two {bits} (least : 2 ≤ bits) (most : bits < 32) : Sized 1 (some ⟨bits,1,0x80,0xBF⟩)
  | three {bits} (most : bits < 16) : Sized 1 (some ⟨bits,2,if bits = 0 then 0xA0 else 0x80,if bits = 13 then 0x9F else 0xBF⟩)
  | threeMore {bits} (least : 32 ≤ bits) (most : bits < 1024) (scalar : bits < 864 ∨ 896 ≤ bits) : Sized 2 (some ⟨bits,1,0x80,0xBF⟩)
  | four {bits} (most : bits < 5) : Sized 1 (some ⟨bits,3,if bits = 0 then 0x90 else 0x80,if bits = 4 then 0x8F else 0xBF⟩)
  | fourMore {bits} (least : 16 ≤ bits) (most : bits < 272) : Sized 2 (some ⟨bits,2,0x80,0xBF⟩)
  | fourLast {bits} (least : 1024 ≤ bits) (most : bits < 17408) : Sized 3 (some ⟨bits,1,0x80,0xBF⟩)

theorem sizedFew {n : Nat} {begun : Option Begun} (sized : Sized n begun) : n ≤ 3 := by
  cases sized <;> omega

def mark : Char := Char.ofNat 0xFFFD

theorem markUnits : utf16Char mark = [0xFFFD] := by decide

theorem markSize : mark.utf8Size = 3 := by decide

/- What a first byte gives at once, and what it begins. -/
theorem beginSized {b : Nat} (byte : b < 256) : ∃ text n, (begin_ b).1 = text.flatMap utf16Char ∧ Sized n (begin_ b).2 ∧ 1 ≤ size text + n ∧
    (0x80 ≤ b → b < 0xC0 → 2 ≤ size text + n) := by
  unfold begin_
  split
  · rename_i ascii
    refine ⟨[Char.ofNat b],0,?_,.nothing,?_,fun low => absurd low (by omega)⟩
    · have plain : (Char.ofNat b).toNat = b := scalarToNat (.inl (by omega))
      rw [List.flatMap_singleton,utf16Char,plain,if_pos (by omega)]
    · have some_ := Char.utf8Size_pos (Char.ofNat b)
      simp only [size,List.map_cons,List.map_nil,List.sum_cons,List.sum_nil]
      omega
  · split
    · exact ⟨[],1,rfl,.two (by omega) (by omega),by decide,fun _ high => by omega⟩
    · split
      · rename_i range
        refine ⟨[],1,rfl,?_,by decide,fun _ high => by omega⟩
        have lower : (if b = 0xE0 then 0xA0 else 0x80) = if b - 0xE0 = 0 then 0xA0 else 0x80 := by split <;> split <;> omega
        have upper : (if b = 0xED then 0x9F else 0xBF) = if b - 0xE0 = 13 then 0x9F else 0xBF := by split <;> split <;> omega
        rw [lower,upper]
        exact .three (by omega)
      · split
        · rename_i range
          refine ⟨[],1,rfl,?_,by decide,fun _ high => by omega⟩
          have lower : (if b = 0xF0 then 0x90 else 0x80) = if b - 0xF0 = 0 then 0x90 else 0x80 := by split <;> split <;> omega
          have upper : (if b = 0xF4 then 0x8F else 0xBF) = if b - 0xF0 = 4 then 0x8F else 0xBF := by split <;> split <;> omega
          rw [lower,upper]
          exact .four (by omega)
        · exact ⟨[mark],0,by rw [List.flatMap_singleton,markUnits],.nothing,by decide,fun _ _ => by decide⟩

theorem sizeAppend (a b : List Char) : size (a ++ b) = size a + size b := by
  rw [size,List.map_append,List.sum_append]
  rfl

theorem valueSize {n : Nat} (valid : n.isValidChar) : (0x80 ≤ n → 2 ≤ (Char.ofNat n).utf8Size) ∧
    (0x800 ≤ n → 3 ≤ (Char.ofNat n).utf8Size) ∧ (0x10000 ≤ n → 4 ≤ (Char.ofNat n).utf8Size) := by
  have value : (Char.ofNat n).val.toNat = n := scalarToNat valid
  have one : (Char.ofNat n).utf8Size = 1 → n ≤ 127 := fun h => value ▸ UInt32.le_iff_toNat_le.mp (Char.utf8Size_eq_one_iff.mp h)
  have two : (Char.ofNat n).utf8Size = 2 → n ≤ 0x7FF := fun h => value ▸ UInt32.le_iff_toNat_le.mp (Char.utf8Size_eq_two_iff.mp h).2
  have three : (Char.ofNat n).utf8Size = 3 → n ≤ 0xFFFF := fun h => value ▸ UInt32.le_iff_toNat_le.mp (Char.utf8Size_eq_three_iff.mp h).2
  have some_ := Char.utf8Size_pos (Char.ofNat n)
  omega

/- A byte that a point goes on with ends it, or leaves less to come. -/
theorem goingSized {n b : Nat} {begun : Begun} (sized : Sized n (some begun)) (low : begun.lower ≤ b) (high : b ≤ begun.upper) :
    if begun.needed = 1 then n + 1 ≤ (Char.ofNat (begun.bits * 64 + (b - 0x80))).utf8Size
    else Sized (n + 1) (some ⟨begun.bits * 64 + (b - 0x80),begun.needed - 1,0x80,0xBF⟩) := by
  cases sized with
  | two least most =>
    dsimp only at low high ⊢
    rw [if_pos rfl]
    exact (valueSize (.inl (by omega))).1 (by omega)
  | @three bits most =>
    dsimp only at low high ⊢
    rw [if_neg (by decide)]
    by_cases zero : bits = 0
    · rw [if_pos zero] at low
      rw [if_neg (by omega)] at high
      exact .threeMore (by omega) (by omega) (by omega)
    · rw [if_neg zero] at low
      by_cases high_ : bits = 13
      · rw [if_pos high_] at high
        exact .threeMore (by omega) (by omega) (by omega)
      · rw [if_neg high_] at high
        exact .threeMore (by omega) (by omega) (by omega)
  | threeMore least most scalar =>
    dsimp only at low high ⊢
    rw [if_pos rfl]
    refine (valueSize ?_).2.1 (by omega)
    rcases scalar with low_ | high_
    · exact .inl (by omega)
    · exact .inr ⟨by omega,by omega⟩
  | @four bits most =>
    dsimp only at low high ⊢
    rw [if_neg (by decide)]
    by_cases zero : bits = 0
    · rw [if_pos zero] at low
      rw [if_neg (by omega)] at high
      exact .fourMore (by omega) (by omega)
    · rw [if_neg zero] at low
      by_cases high_ : bits = 4
      · rw [if_pos high_] at high
        exact .fourMore (by omega) (by omega)
      · rw [if_neg high_] at high
        exact .fourMore (by omega) (by omega)
  | fourMore least most =>
    dsimp only at low high ⊢
    rw [if_neg (by decide)]
    exact .fourLast (by omega) (by omega)
  | fourLast least most =>
    dsimp only at low high ⊢
    rw [if_pos rfl]
    exact (valueSize (.inr ⟨by omega,by omega⟩)).2.2 (by omega)

/- What is read takes as many bytes at least as were read, those of a begun point among them. -/
theorem readLeast (bytes : Bytes) {n : Nat} {begun : Option Begun} (sized : Sized n begun) :
    ∃ text, decodeFrom begun bytes = text.flatMap utf16Char ∧ n + bytes.length ≤ size text := by
  induction bytes generalizing n begun with
  | nil =>
    cases begun with
    | none =>
      cases sized
      exact ⟨[],rfl,Nat.le_refl _⟩
    | some begun => exact ⟨[mark],by rw [List.flatMap_singleton,markUnits]; rfl,sizedFew sized⟩
  | cons b rest ih =>
    have again : ∃ text, (begin_ b.toNat).1 ++ decodeFrom (begin_ b.toNat).2 rest = text.flatMap utf16Char ∧ rest.length + 1 ≤ size text := by
      obtain ⟨first,m,units,begins,least,_⟩ := beginSized b.toNat_lt
      obtain ⟨later,read,enough⟩ := ih begins
      exact ⟨first ++ later,by rw [units,read,List.flatMap_append],by rw [sizeAppend]; omega⟩
    cases begun with
    | none =>
      cases sized
      obtain ⟨text,read,enough⟩ := again
      exact ⟨text,read,by rw [List.length_cons]; omega⟩
    | some begun =>
      rw [decodeFrom]
      split
      · rename_i range
        have going := goingSized sized range.1 range.2
        dsimp only
        split
        · rename_i last
          rw [if_pos last] at going
          obtain ⟨later,read,enough⟩ := ih .nothing
          refine ⟨Char.ofNat (begun.bits * 64 + (b.toNat - 0x80)) :: later,by rw [read,List.flatMap_cons],?_⟩
          rw [size,List.map_cons,List.sum_cons,List.length_cons]
          change _ ≤ _ + size later
          omega
        · rename_i more
          rw [if_neg more] at going
          obtain ⟨text,read,enough⟩ := ih going
          exact ⟨text,read,by rw [List.length_cons]; omega⟩
      · obtain ⟨text,read,enough⟩ := again
        have few := sizedFew sized
        refine ⟨mark :: text,by rw [List.flatMap_cons,markUnits,List.singleton_append,← read]; rfl,?_⟩
        rw [size,List.map_cons,List.sum_cons,List.length_cons,markSize]
        change _ ≤ _ + size text
        omega

theorem readNoShorter (bytes : Bytes) : bytes.length ≤ byteLength (decode bytes) := by
  obtain ⟨text,read,enough⟩ := readLeast bytes .nothing
  rw [decode,read,readSize]
  omega

/- A piece that begins within a point is longer when it is read. -/
theorem readLonger {b : UInt8} (going : goingOn b = true) (rest : Bytes) : (b :: rest).length < byteLength (decode (b :: rest)) := by
  obtain ⟨low,high⟩ := Bool.and_eq_true_iff.mp going
  obtain ⟨first,m,units,begins,_,two⟩ := beginSized b.toNat_lt
  obtain ⟨later,read,enough⟩ := readLeast rest begins
  have twice := two (UInt8.le_iff_toNat_le.mp (of_decide_eq_true low)) (UInt8.lt_iff_toNat_lt.mp (of_decide_eq_true high))
  have whole : decode (b :: rest) = (first ++ later).flatMap utf16Char := by
    rw [decode,decodeFrom,units,read,List.flatMap_append]
  rw [whole,readSize,sizeAppend,List.length_cons]
  omega

theorem tailGoes (n : Nat) : goingOn (UInt8.ofNat (n % 64 + 128)) = true := by
  have small : n % 64 + 128 < 192 := by omega
  have least : 128 ≤ n % 64 + 128 := by omega
  generalize n % 64 + 128 = m at small least
  have value : (UInt8.ofNat m).toNat = m := UInt8.toNat_ofNat_of_lt (Nat.lt_trans small (by decide))
  refine Bool.and_eq_true_iff.mpr ⟨decide_eq_true (UInt8.le_iff_toNat_le.mpr ?_),decide_eq_true (UInt8.lt_iff_toNat_lt.mpr ?_)⟩
  · rw [value]
    exact least
  · rw [value]
    exact small

theorem encodedGoes (c : Char) : ∃ first more, String.utf8EncodeChar c = first :: more ∧ ∀ b ∈ more, goingOn b = true := by
  unfold String.utf8EncodeChar
  dsimp only
  split
  · exact ⟨_,_,rfl,nofun⟩
  · split
    · exact ⟨_,_,rfl,List.forall_mem_cons.mpr ⟨tailGoes _,nofun⟩⟩
    · split
      · exact ⟨_,_,rfl,List.forall_mem_cons.mpr ⟨tailGoes _,List.forall_mem_cons.mpr ⟨tailGoes _,nofun⟩⟩⟩
      · exact ⟨_,_,rfl,List.forall_mem_cons.mpr ⟨tailGoes _,List.forall_mem_cons.mpr ⟨tailGoes _,List.forall_mem_cons.mpr ⟨tailGoes _,nofun⟩⟩⟩⟩

/- A text cut where no byte goes on with a point is cut between points. -/
theorem cutBetween {text : List Char} {a b : Bytes} (whole : encoded text = a ++ b) (between : b.head?.all fun u => !goingOn u) :
    ∃ first second, text = first ++ second ∧ a = encoded first ∧ b = encoded second := by
  induction text generalizing a with
  | nil =>
    obtain ⟨rfl,rfl⟩ := List.append_eq_nil_iff.mp whole.symm
    exact ⟨[],[],rfl,rfl,rfl⟩
  | cons c rest ih =>
    obtain ⟨u,more,units,going⟩ := encodedGoes c
    have split : String.utf8EncodeChar c ++ encoded rest = a ++ b := whole
    rcases List.append_eq_append_iff.mp split with ⟨later,rfl,after⟩ | ⟨left,units',rfl⟩
    · obtain ⟨first,second,rfl,rfl,rfl⟩ := ih after
      exact ⟨c :: first,second,rfl,rfl,rfl⟩
    · cases a with
      | nil =>
        rw [List.nil_append] at units'
        exact ⟨[],c :: rest,rfl,rfl,by rw [← units']; rfl⟩
      | cons v a =>
        cases left with
        | nil => exact ⟨[c],rest,rfl,by rw [encoded,List.flatMap_singleton,units',List.append_nil],rfl⟩
        | cons w left =>
          rw [units] at units'
          have inside : w ∈ more := (List.cons.inj units').2 ▸ List.mem_append_right _ List.mem_cons_self
          simp [going w inside] at between

theorem encodedAppend (a b : List Char) : encoded (a ++ b) = encoded a ++ encoded b := List.flatMap_append

theorem headBetween {pieces : List Bytes} (between : ∀ piece ∈ pieces, piece.head?.all fun u => !goingOn u) :
    pieces.flatten.head?.all fun u => !goingOn u := by
  induction pieces with
  | nil => rfl
  | cons piece rest ih => cases piece with
    | nil => exact ih fun p member => between p (List.mem_cons_of_mem _ member)
    | cons u more => exact between (u :: more) List.mem_cons_self

/- Pieces that begin with points are read as the whole is. -/
theorem piecesRead {pieces : List Bytes} {text : List Char} (whole : encoded text = pieces.flatten)
    (between : ∀ piece ∈ pieces, piece.head?.all fun u => !goingOn u) :
    (pieces.flatMap decode) = decode pieces.flatten ∧ ∀ piece ∈ pieces, byteLength (decode piece) = piece.length := by
  induction pieces generalizing text with
  | nil => exact ⟨rfl,nofun⟩
  | cons piece rest ih =>
    have later := fun p member => between p (List.mem_cons_of_mem _ member)
    obtain ⟨first,second,_,rfl,after⟩ := cutBetween whole (headBetween later)
    obtain ⟨read,sizes⟩ := ih after.symm later
    refine ⟨?_,fun p member => ?_⟩
    · rw [List.flatMap_cons,read,List.flatten_cons,after,← encodedAppend,decodeEncoded,decodeEncoded,decodeEncoded,List.flatMap_append]
    · rcases List.mem_cons.mp member with rfl | inside
      · rw [decodeEncoded,readSize,encodedLength]
      · exact sizes p inside

end Northstar.Pieces
