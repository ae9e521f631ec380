import Northstar.Program

/-! JSON values as the broker holds them (serde_json::Value) and the compact text
serde_json writes for them, as bytes. -/
namespace Northstar

abbrev Text := List Char
abbrev Bytes := List UInt8

/-- A string's UTF-8 bytes, its length in bytes being what Rust's len counts. -/
def utf8String (s : String) : Bytes := s.toByteArray.data.toList

def utf8Length (t : Text) : Nat := (t.map Char.utf8Size).sum

@[simp] theorem utf8StringAppend (s t : String) : utf8String (s ++ t) = utf8String s ++ utf8String t := by
  simp [utf8String]

inductive Number where
  | int (value : Int)
  | float (digits : String)
  deriving DecidableEq, Repr

inductive Value where
  | null
  | bool (value : Bool)
  | number (value : Number)
  | string (value : String)
  | array (items : List Value)
  | object (fields : List (String × Value))
  deriving Repr

namespace Value

def asObject : Value → Option (List (String × Value))
  | .object fields => some fields
  | _ => none

def asArray : Value → Option (List Value)
  | .array items => some items
  | _ => none

def asStr : Value → Option String
  | .string value => some value
  | _ => none

def asBool : Value → Option Bool
  | .bool value => some value
  | _ => none

def asU64 : Value → Option Nat
  | .number (.int value) => if 0 ≤ value ∧ value < 2^64 then some value.toNat else none
  | _ => none

/-- Indexing by key: absent on everything that is not an object. -/
def get (v : Value) (key : String) : Option Value := v.asObject.bind (·.lookup key)

def getStr (v : Value) (key : String) : Option String := (v.get key).bind asStr

end Value

/- String escapes as serde_json writes them, byte by byte: the quote, the backslash, the
five short forms, and \u00xx for the other controls. -/
def hexDigit (n : Nat) : UInt8 := UInt8.ofNat (if n < 10 then 48 + n else 87 + n)

def escapeByte (b : UInt8) : Bytes :=
  if b = 34 then [92,34]
  else if b = 92 then [92,92]
  else if b = 8 then [92,98]
  else if b = 12 then [92,102]
  else if b = 10 then [92,110]
  else if b = 13 then [92,114]
  else if b = 9 then [92,116]
  else if b < 32 then [92,117,48,48,hexDigit (b.toNat / 16),hexDigit (b.toNat % 16)]
  else [b]

def quoteString (s : String) : Bytes := [34] ++ (utf8String s).flatMap escapeByte ++ [34]

def Number.render : Number → Bytes
  | .int value => utf8String (toString value)
  | .float digits => utf8String digits

mutual
def Value.render : Value → Bytes
  | .null => utf8String "null"
  | .bool true => utf8String "true"
  | .bool false => utf8String "false"
  | .number value => value.render
  | .string value => quoteString value
  | .array items => utf8String "[" ++ Value.renderItems items ++ utf8String "]"
  | .object fields => utf8String "\x7b" ++ Value.renderFields fields ++ utf8String "\x7d"

def Value.renderItems : List Value → Bytes
  | [] => []
  | [item] => item.render
  | item :: rest => item.render ++ utf8String "," ++ Value.renderItems rest

def Value.renderFields : List (String × Value) → Bytes
  | [] => []
  | [(key,value)] => quoteString key ++ utf8String ":" ++ value.render
  | (key,value) :: rest =>
      quoteString key ++ utf8String ":" ++ value.render ++ utf8String "," ++ Value.renderFields rest
end

example : (Value.object [("a",.array [.null,.number (.int (-3))]),("b",.string "x\n")]).render =
    utf8String "\x7b\"a\":[null,-3],\"b\":\"x\\n\"\x7d" := by decide

end Northstar
