import Northstar.Interchange

/-! Bytes of a part of a text. A pair of surrogates cut in two takes no more bytes than the halves
on their own, which are written as replacement characters. -/
namespace Northstar

theorem narrowSize {c : Char} (narrow : c.toNat < 0x10000) : c.utf8Size ≤ 3 := by
  by_contra wide
  have four : c.utf8Size = 4 := Nat.le_antisymm c.utf8Size_le_four (Nat.lt_of_not_le wide)
  have above : 0xFFFF < c.toNat := UInt32.lt_iff_toNat_lt.mp (Char.utf8Size_eq_four_iff.mp four)
  omega

theorem unitMost (u : UInt16) : (utf8Units [u]).length ≤ 3 := by
  rw [utf8Units,pointChar,String.length_utf8EncodeChar]
  apply narrowSize
  cases lone : surrogate u with
  | true => exact (by decide : (Char.ofNat 0xFFFD).toNat < 0x10000)
  | false =>
    change (Char.ofNat u.toNat).toNat < 0x10000
    unfold Char.ofNat
    split
    · exact u.toNat_lt
    · decide

theorem loneSize {u : UInt16} (lone : surrogate u) : (utf8Units [u]).length = 3 := by
  rw [utf8Units,pointChar,if_pos lone]
  decide

theorem lowLone {v : UInt16} (low : lowSurrogate v) : surrogate v := by
  simp only [lowSurrogate,Bool.and_eq_true,decide_eq_true_eq] at low
  simp only [surrogate,Bool.and_eq_true,decide_eq_true_eq]
  exact ⟨UInt16.le_trans (by decide) low.1,low.2⟩

theorem lowPoint {v : UInt16} (low : lowSurrogate v) (rest : JsString) : points (v :: rest) = [v] :: points rest := by
  cases rest with
  | nil => rfl
  | cons w more => exact if_neg (by rw [lowNotHigh low]; exact Bool.false_ne_true)

/- A text that begins with the low half of a pair loses no byte when the pair is cut. -/
theorem suffixBytes (a b : JsString) : byteLength b ≤ byteLength (a ++ b) := by
  have one (u : UInt16) (b : JsString) : byteLength b ≤ byteLength (u :: b) := by
    cases b with
    | nil => exact Nat.zero_le _
    | cons v rest =>
      unfold byteLength utf8
      rw [points]
      split
      · rename_i pair
        obtain ⟨high,low⟩ := Bool.and_eq_true_iff.mp pair
        rw [lowPoint low]
        have size := pairSize high low
        have most := unitMost v
        simp only [List.flatMap_cons,List.length_append]
        omega
      · simp only [List.flatMap_cons,List.length_append]
        omega
  induction a with
  | nil => exact Nat.le_refl _
  | cons u rest ih => exact ih.trans (one u (rest ++ b))

theorem prefixBytes (a b : JsString) : byteLength a ≤ byteLength (a ++ b) := by
  induction a using points.induct with
  | case1 => exact Nat.zero_le _
  | case2 u => 
    cases b with
    | nil => exact Nat.le_refl _
    | cons v rest =>
      have most := unitMost u
      unfold byteLength utf8
      rw [List.singleton_append,points,points]
      split
      · rename_i pair
        obtain ⟨high,low⟩ := Bool.and_eq_true_iff.mp pair
        have size := pairSize high low
        simp only [List.flatMap_cons,List.flatMap_nil,List.length_append,List.length_nil]
        omega
      · simp only [List.flatMap_cons,List.flatMap_nil,List.length_append,List.length_nil]
        omega
  | case3 u v rest pair ih =>
    unfold byteLength utf8 at ih ⊢
    rw [List.cons_append,List.cons_append,points,points,if_pos pair,if_pos pair]
    simp only [List.flatMap_cons,List.length_append]
    omega
  | case4 u v rest apart ih =>
    unfold byteLength utf8 at ih ⊢
    rw [List.cons_append] at ih
    rw [List.cons_append,List.cons_append,points,points,if_neg apart,if_neg apart]
    simp only [List.flatMap_cons,List.length_append]
    omega

theorem appendBytes (a b : JsString) : byteLength (a ++ b) ≤ byteLength a + byteLength b := by
  induction a using points.induct with
  | case1 => exact Nat.le_add_left _ _
  | case2 u =>
    cases b with
    | nil => exact Nat.le_add_right _ _
    | cons v rest =>
      have one := unitSize u
      have whole : points (u :: v :: rest) =
          if highSurrogate u && lowSurrogate v then [u,v] :: points rest else [u] :: points (v :: rest) := rfl
      unfold byteLength utf8
      rw [List.singleton_append,whole]
      split
      · rename_i pair
        obtain ⟨high,low⟩ := Bool.and_eq_true_iff.mp pair
        have size := pairSize high low
        have three := loneSize (lowLone low)
        rw [lowPoint low]
        simp only [points,List.flatMap_cons,List.flatMap_nil,List.length_append,List.length_nil]
        omega
      · simp only [points,List.flatMap_cons,List.flatMap_nil,List.length_append,List.length_nil]
        omega
  | case3 u v rest pair ih =>
    unfold byteLength utf8 at ih ⊢
    rw [List.cons_append,List.cons_append,points,points,if_pos pair,if_pos pair]
    simp only [List.flatMap_cons,List.length_append]
    omega
  | case4 u v rest apart ih =>
    unfold byteLength utf8 at ih ⊢
    rw [List.cons_append] at ih
    rw [List.cons_append,List.cons_append,points,points,if_neg apart,if_neg apart]
    simp only [List.flatMap_cons,List.length_append]
    omega

theorem infixBytes {part text : JsString} (inside : part <:+: text) : byteLength part ≤ byteLength text := by
  obtain ⟨a,b,rfl⟩ := inside
  exact (suffixBytes a part).trans (prefixBytes (a ++ part) b)

end Northstar
