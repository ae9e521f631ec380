import Northstar.Script

/-! The base64url text of bytes, without padding, and how a text is read back: letters outside
the alphabet are passed over and `=` ends the text. -/
namespace Northstar

def base64Letter (n : Nat) : UInt16 := UInt16.ofNat <|
  if n < 26 then 65 + n else if n < 52 then 71 + n else if n < 62 then n - 4 else if n = 62 then 45 else 95

def base64url : Bytes → JsString
  | a :: b :: c :: rest => base64Letter (a.toNat / 4) :: base64Letter (a.toNat % 4 * 16 + b.toNat / 16) ::
      base64Letter (b.toNat % 16 * 4 + c.toNat / 64) :: base64Letter (c.toNat % 64) :: base64url rest
  | [a,b] => [base64Letter (a.toNat / 4),base64Letter (a.toNat % 4 * 16 + b.toNat / 16),base64Letter (b.toNat % 16 * 4)]
  | [a] => [base64Letter (a.toNat / 4),base64Letter (a.toNat % 4 * 16)]
  | [] => []

/- Both alphabets are read. -/
def base64Sextet (u : UInt16) : Option Nat :=
  let n := u.toNat
  if 65 ≤ n ∧ n ≤ 90 then some (n - 65)
  else if 97 ≤ n ∧ n ≤ 122 then some (n - 71)
  else if 48 ≤ n ∧ n ≤ 57 then some (n + 4)
  else if n = 43 ∨ n = 45 then some 62
  else if n = 47 ∨ n = 95 then some 63
  else none

def sextetBytes : List Nat → Bytes
  | a :: b :: c :: d :: rest => UInt8.ofNat (a * 4 + b / 16) :: UInt8.ofNat (b % 16 * 16 + c / 4) ::
      UInt8.ofNat (c % 4 * 64 + d) :: sextetBytes rest
  | [a,b,c] => [UInt8.ofNat (a * 4 + b / 16),UInt8.ofNat (b % 16 * 16 + c / 4)]
  | [a,b] => [UInt8.ofNat (a * 4 + b / 16)]
  | _ => []

def fromBase64url (text : JsString) : Bytes :=
  sextetBytes ((text.takeWhile (· ≠ 61)).filterMap base64Sextet)

def byteSextets : Bytes → List Nat
  | a :: b :: c :: rest => a.toNat / 4 :: (a.toNat % 4 * 16 + b.toNat / 16) :: (b.toNat % 16 * 4 + c.toNat / 64) ::
      c.toNat % 64 :: byteSextets rest
  | [a,b] => [a.toNat / 4,a.toNat % 4 * 16 + b.toNat / 16,b.toNat % 16 * 4]
  | [a] => [a.toNat / 4,a.toNat % 4 * 16]
  | [] => []

theorem lettersOf (bytes : Bytes) : base64url bytes = (byteSextets bytes).map base64Letter := by
  induction bytes using byteSextets.induct with
  | case1 a b c rest ih => simp only [base64url,byteSextets,List.map_cons,ih]
  | case2 a b => rfl
  | case3 a => rfl
  | case4 => rfl

theorem sextetBounds (bytes : Bytes) : ∀ n ∈ byteSextets bytes, n < 64 := by
  induction bytes using byteSextets.induct with
  | case1 a b c rest ih =>
    have small := a.toNat_lt
    have small' := b.toNat_lt
    have small'' := c.toNat_lt
    simp only [byteSextets,List.forall_mem_cons]
    exact ⟨by omega,by omega,by omega,by omega,ih⟩
  | case2 a b =>
    have small := a.toNat_lt
    have small' := b.toNat_lt
    simp only [byteSextets,List.forall_mem_cons]
    exact ⟨by omega,by omega,by omega,nofun⟩
  | case3 a =>
    have small := a.toNat_lt
    simp only [byteSextets,List.forall_mem_cons]
    exact ⟨by omega,by omega,nofun⟩
  | case4 => exact nofun

theorem letterRead : ∀ n : Fin 64, base64Letter n ≠ 61 ∧ base64Sextet (base64Letter n) = some n.val := by decide

theorem lettersRead {sextets : List Nat} (small : ∀ n ∈ sextets, n < 64) :
    ((sextets.map base64Letter).takeWhile (· ≠ 61)).filterMap base64Sextet = sextets := by
  induction sextets with
  | nil => rfl
  | cons n rest ih =>
    have read := letterRead ⟨n,small n List.mem_cons_self⟩
    have later := ih fun m member => small m (List.mem_cons_of_mem _ member)
    rw [List.map_cons,List.takeWhile_cons,if_pos (decide_eq_true read.1),List.filterMap_cons,read.2]
    exact congrArg (n :: ·) later

theorem sextetsRead (bytes : Bytes) : sextetBytes (byteSextets bytes) = bytes := by
  induction bytes using byteSextets.induct with
  | case1 a b c rest ih =>
    have small := a.toNat_lt
    have small' := b.toNat_lt
    have small'' := c.toNat_lt
    have first : a.toNat / 4 * 4 + (a.toNat % 4 * 16 + b.toNat / 16) / 16 = a.toNat := by omega
    have second : (a.toNat % 4 * 16 + b.toNat / 16) % 16 * 16 + (b.toNat % 16 * 4 + c.toNat / 64) / 4 = b.toNat := by omega
    have third : (b.toNat % 16 * 4 + c.toNat / 64) % 4 * 64 + c.toNat % 64 = c.toNat := by omega
    simp only [byteSextets,sextetBytes,first,second,third,UInt8.ofNat_toNat,ih]
  | case2 a b =>
    have small := a.toNat_lt
    have small' := b.toNat_lt
    have first : a.toNat / 4 * 4 + (a.toNat % 4 * 16 + b.toNat / 16) / 16 = a.toNat := by omega
    have second : (a.toNat % 4 * 16 + b.toNat / 16) % 16 * 16 + b.toNat % 16 * 4 / 4 = b.toNat := by omega
    simp only [byteSextets,sextetBytes,first,second,UInt8.ofNat_toNat]
  | case3 a =>
    have small := a.toNat_lt
    have first : a.toNat / 4 * 4 + a.toNat % 4 * 16 / 16 = a.toNat := by omega
    simp only [byteSextets,sextetBytes,first,UInt8.ofNat_toNat]
  | case4 => rfl

theorem base64Read (bytes : Bytes) : fromBase64url (base64url bytes) = bytes := by
  rw [fromBase64url,lettersOf,lettersRead (sextetBounds bytes),sextetsRead]

theorem base64Length (bytes : Bytes) : 3 * (base64url bytes).length ≤ 4 * bytes.length + 4 := by
  induction bytes using byteSextets.induct with
  | case1 a b c rest ih =>
    simp only [base64url,List.length_cons]
    omega
  | case2 a b => exact Nat.le_add_right 9 3
  | case3 a => exact Nat.le_add_right 6 2
  | case4 => exact Nat.le_add_right 0 4

theorem base64Size (bytes : Bytes) : (base64url bytes).length = (4 * bytes.length + 2) / 3 := by
  induction bytes using byteSextets.induct with
  | case1 a b c rest ih =>
    simp only [base64url,List.length_cons]
    omega
  | case2 a b => simp [base64url]
  | case3 a => simp [base64url]
  | case4 => rfl

theorem base64Some (bytes : Bytes) : base64url bytes = [] ↔ bytes = [] := by
  induction bytes using byteSextets.induct with
  | case1 a b c rest ih => exact iff_of_false nofun nofun
  | case2 a b => exact iff_of_false nofun nofun
  | case3 a => exact iff_of_false nofun nofun
  | case4 => exact iff_of_true rfl rfl

end Northstar
