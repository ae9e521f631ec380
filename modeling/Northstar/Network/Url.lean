import Northstar.Script

/-! URLs as the platform's parser returns them. The parser itself is a parameter of what is
modelled over it; what it promises of the parts of a URL is kept with them. -/
namespace Northstar.Network

def digit (u : UInt16) : Bool := 48 ≤ u && u ≤ 57

/- A host name has no colon unless it is in brackets. -/
def hostShape (hostname : JsString) : Bool := !hostname.contains 58 || hostname.getLast? = some 93

structure Url where
  protocol : JsString
  username : JsString
  password : JsString
  hostname : JsString
  port : JsString
  pathname : JsString
  search : JsString
  hash : JsString
  hostnameShape : hostShape hostname
  portShape : port.all digit
  deriving DecidableEq

theorem noPort : ([] : JsString).all digit := rfl

/- new URL(text,base) -/
abbrev UrlParser := JsString → Option JsString → Option Url

def http : JsString := js "http:"
def https : JsString := js "https:"

def decimal (s : JsString) : Nat := s.foldl (fun n u => n * 10 + (u.toNat - 48)) 0

namespace Url

def host (u : Url) : JsString := if u.port = [] then u.hostname else u.hostname ++ 58 :: u.port

/- Of the schemes that have a host and an origin of their own. -/
def origin (u : Url) : JsString := u.protocol ++ (js "//" ++ u.host)

def credentials (u : Url) : JsString :=
  if u.username = [] ∧ u.password = [] then []
  else u.username ++ (if u.password = [] then [] else 58 :: u.password) ++ [64]

def href (u : Url) : JsString :=
  u.protocol ++ js "//" ++ u.credentials ++ u.host ++ u.pathname ++ u.search ++ u.hash

def portNumber (standard : Nat) (u : Url) : Nat := if u.port = [] then standard else decimal u.port

end Url

theorem digitPlain {u : UInt16} (h : digit u) : u ≠ 58 ∧ u ≠ 93 := by
  constructor <;> rintro rfl <;> exact absurd h (by decide)

theorem lastColon {a b p q : JsString} (left : (58 : UInt16) ∉ p) (right : (58 : UInt16) ∉ q)
    (same : a ++ 58 :: p = b ++ 58 :: q) : a = b ∧ p = q := by
  rcases List.append_eq_append_iff.mp same with ⟨more,first,second⟩ | ⟨more,first,second⟩
  · cases more with
    | nil => exact ⟨by simpa using first.symm,by simpa using second⟩
    | cons u rest =>
      obtain ⟨_,tail⟩ := List.cons.inj second
      exact absurd (tail ▸ List.mem_append_right _ List.mem_cons_self) left
  · cases more with
    | nil => exact ⟨by simpa using first,by simpa using second.symm⟩
    | cons u rest =>
      obtain ⟨_,tail⟩ := List.cons.inj second
      exact absurd (tail ▸ List.mem_append_right _ List.mem_cons_self) right

theorem portPlain (u : Url) : (58 : UInt16) ∉ u.port :=
  fun member => (digitPlain (List.all_eq_true.mp u.portShape 58 member)).1 rfl

/- A name is not a name with a port. -/
theorem notPorted {u v : Url} (ported : v.port ≠ []) : u.hostname ≠ v.hostname ++ 58 :: v.port := by
  intro same
  have colon : u.hostname.contains 58 := by
    rw [same]
    exact List.contains_iff_mem.mpr (List.mem_append_right _ List.mem_cons_self)
  have last : u.hostname.getLast? = some 93 := by
    have shape := u.hostnameShape
    rw [hostShape,colon] at shape
    exact of_decide_eq_true shape
  have digits : u.hostname.getLast? = v.port.getLast? := by
    rw [same,List.getLast?_append]
    cases port : v.port with
    | nil => exact absurd port ported
    | cons d rest => simp [List.getLast?_cons]
  have member : (93 : UInt16) ∈ v.port := List.mem_of_getLast? (digits.symm.trans last)
  exact (digitPlain (List.all_eq_true.mp v.portShape 93 member)).2 rfl

theorem hostParts {u v : Url} (same : u.host = v.host) : u.hostname = v.hostname ∧ u.port = v.port := by
  unfold Url.host at same
  split at same
  · rename_i left
    split at same
    · rename_i right
      exact ⟨same,left.trans right.symm⟩
    · rename_i right
      exact absurd same (notPorted right)
  · rename_i left
    split at same
    · exact absurd same.symm (notPorted left)
    · exact lastColon (portPlain u) (portPlain v) same

theorem schemeParts {p q a b : JsString} (left : p = http ∨ p = https) (right : q = http ∨ q = https)
    (same : p ++ (js "//" ++ a) = q ++ (js "//" ++ b)) : p = q ∧ a = b := by
  have slashes : js "//" = [47,47] := by decide
  have plain : http = [104,116,116,112,58] := by decide
  have secure : https = [104,116,116,112,115,58] := by decide
  rcases left with rfl | rfl <;> rcases right with rfl | rfl
  · exact ⟨rfl,List.append_cancel_left (List.append_cancel_left same)⟩
  · rw [plain,secure] at same
    simp at same
  · rw [plain,secure] at same
    simp at same
  · exact ⟨rfl,List.append_cancel_left (List.append_cancel_left same)⟩

end Northstar.Network
