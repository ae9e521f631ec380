import Northstar.Value

/-! JavaScript values as the TypeScript side holds them. A string is its UTF-16 code
units, lone surrogates included; an object keeps its own keys in enumeration order.
With them come JSON.stringify and the UTF-8 bytes Buffer.from makes of a string. -/
namespace Northstar

abbrev JsString := List UInt16

instance : LawfulBEq JsString := List.instLawfulBEq

def highSurrogate (u : UInt16) : Bool := 0xD800 ≤ u && u < 0xDC00

def lowSurrogate (u : UInt16) : Bool := 0xDC00 ≤ u && u < 0xE000

def surrogate (u : UInt16) : Bool := 0xD800 ≤ u && u < 0xE000

def utf16Char (c : Char) : JsString :=
  if c.toNat < 0x10000 then [UInt16.ofNat c.toNat]
  else [UInt16.ofNat (0xD800 + (c.toNat - 0x10000) / 0x400),
    UInt16.ofNat (0xDC00 + (c.toNat - 0x10000) % 0x400)]

def js (s : String) : JsString := s.toList.flatMap utf16Char

def pairPoint (high low : UInt16) : Nat :=
  0x10000 + (high.toNat - 0xD800) * 0x400 + (low.toNat - 0xDC00)

/- The code points of a string, each as its own units; a lone surrogate stands alone. -/
def points : JsString → List JsString
  | [] => []
  | [u] => [[u]]
  | u :: v :: rest =>
      if highSurrogate u && lowSurrogate v then [u,v] :: points rest else [u] :: points (v :: rest)

/- The character of a point; a lone surrogate has none. -/
def pointChar : JsString → Option Char
  | [u] => if surrogate u then none else some (Char.ofNat u.toNat)
  | [u,v] => some (Char.ofNat (pairPoint u v))
  | _ => none

/- Buffer.from writes U+FFFD for a lone surrogate. -/
def utf8Units (point : JsString) : Bytes :=
  String.utf8EncodeChar ((pointChar point).getD (Char.ofNat 0xFFFD))

def utf8 (s : JsString) : Bytes := (points s).flatMap utf8Units

def byteLength (s : JsString) : Nat := (utf8 s).length

def whiteSpace (u : UInt16) : Bool :=
  (9 ≤ u && u ≤ 13) || u = 32 || u = 0xA0 || u = 0x1680 || (0x2000 ≤ u && u ≤ 0x200A) ||
    u = 0x2028 || u = 0x2029 || u = 0x202F || u = 0x205F || u = 0x3000 || u = 0xFEFF

def trim (s : JsString) : JsString :=
  ((s.dropWhile whiteSpace).reverse.dropWhile whiteSpace).reverse

theorem trimPlain {text : JsString} (plain : ∀ u ∈ text, whiteSpace u = false) : trim text = text := by
  have kept (part : JsString) (within : ∀ u ∈ part, u ∈ text) : part.dropWhile whiteSpace = part := by
    cases part with
    | nil => rfl
    | cons u rest => rw [List.dropWhile_cons,plain u (within u List.mem_cons_self)]; rfl
  rw [trim,kept text fun _ member => member,kept text.reverse fun _ member => List.mem_reverse.mp member,List.reverse_reverse]

/- JSON.stringify escapes a lone surrogate as \udxxx and leaves a pair as it is. -/
def hexUnit (n : Nat) : UInt16 := UInt16.ofNat (if n < 10 then 48 + n else 87 + n)

def escapeHex (u : UInt16) : JsString :=
  [92,117,hexUnit (u.toNat / 0x1000),hexUnit (u.toNat / 0x100 % 16),hexUnit (u.toNat / 16 % 16),
    hexUnit (u.toNat % 16)]

def escapeUnit (u : UInt16) : JsString :=
  if u = 34 then [92,34]
  else if u = 92 then [92,92]
  else if u = 8 then [92,98]
  else if u = 12 then [92,102]
  else if u = 10 then [92,110]
  else if u = 13 then [92,114]
  else if u = 9 then [92,116]
  else if u < 32 || surrogate u then escapeHex u
  else [u]

def escapePoint : JsString → JsString
  | [u] => escapeUnit u
  | pair => pair

def quote (s : JsString) : JsString := [34] ++ (points s).flatMap escapePoint ++ [34]

inductive JsValue where
  | undefined
  | null
  | bool (value : Bool)
  | number (value : Number)
  | string (value : JsString)
  | array (items : List JsValue)
  | object (fields : List (JsString × JsValue))
  deriving Repr

def Number.script : Number → JsString
  | .int value => js (toString value)
  | .float digits => js digits

namespace JsValue

def get (v : JsValue) (key : String) : JsValue := match v with
  | .object fields => (fields.lookup (js key)).getD .undefined
  | _ => .undefined

def asString : JsValue → Option JsString
  | .string value => some value
  | _ => none

/- What `value ?? null` passes on for an absent option. -/
def orNull {α : Type} (wrap : α → JsValue) : Option α → JsValue
  | some value => wrap value
  | none => .null

end JsValue

/- Fields that hold undefined are left out; items that hold it are written null. -/
mutual
def stringify : JsValue → JsString
  | .undefined => js "null"
  | .null => js "null"
  | .bool true => js "true"
  | .bool false => js "false"
  | .number value => value.script
  | .string value => quote value
  | .array items => [91] ++ [44].intercalate (stringifyItems items) ++ [93]
  | .object fields => [123] ++ [44].intercalate (stringifyFields fields) ++ [125]

def stringifyItems : List JsValue → List JsString
  | [] => []
  | item :: rest => stringify item :: stringifyItems rest

def stringifyFields : List (JsString × JsValue) → List JsString
  | [] => []
  | (_,.undefined) :: rest => stringifyFields rest
  | (key,value) :: rest => (quote key ++ [58] ++ stringify value) :: stringifyFields rest
end

example : stringify (.object [(js "a",.array [.null,.number (.int (-3))]),(js "b",.undefined),
    (js "c",.string (js "x\n\"" ++ [0xD800]))]) =
    js "\x7b\"a\":[null,-3],\"c\":\"x\\n\\\"\\ud800\"\x7d" := by decide

end Northstar
