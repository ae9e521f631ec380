import Northstar.Scanning
import Northstar.Script

/-! What the web-access store keeps of a response, and the slice of a text a reader asks for. -/
namespace Northstar.Web
open Scanning (Listed Nth Stands indexFrom indexNext listedNone nthStands scan scanListed)

structure WebAccessSearchHit where
  title : JsString
  url : JsString
  snippet : JsString

structure WebAccessProviderResponse where
  provider : JsString
  results : List WebAccessSearchHit
  answer : Option JsString
  inlineContent : Option JsString

structure WebAccessProviderFailure where
  provider : JsString
  kind : JsString
  message : JsString

structure WebAccessQueryResult where
  queryIndex : Nat
  query : JsString
  outcome : Except WebAccessProviderFailure WebAccessProviderResponse

structure WebAccessStoredEntry where
  results : List WebAccessQueryResult

/- store.get: what has not expired. -/
abbrev WebAccessContentStore := JsString → Option WebAccessStoredEntry

def WebAccessQueryResult.response (r : WebAccessQueryResult) : Option WebAccessProviderResponse := r.outcome.toOption

/- A string that is not empty counts as true. -/
def filled (text : Option JsString) : Option JsString := text.filter (· ≠ [])

def join (separator : JsString) (parts : List JsString) : JsString := separator.intercalate parts

def webAccessRetrievalMaxChars : Nat := 50000

structure Slice where
  offset : Option Nat
  limit : Option Nat

/- parseSliceOffsetValue and parseSliceLimitValue on integers. -/
def normalizeWebAccessContentSlice (offset limit : Option Int) : Except JsString Slice := do
  let offset ← match offset with
    | none => pure none
    | some n => if n < 0 then throw (js "offset must be a non-negative integer") else pure (some n.toNat)
  let limit ← match limit with
    | none => pure none
    | some n =>
        if n < 1 ∨ (webAccessRetrievalMaxChars : Int) < n then
          throw (js "limit must be an integer in [1, " ++ js (toString webAccessRetrievalMaxChars) ++ js "]")
        else pure (some n.toNat)
  return ⟨offset,limit⟩

structure Sliced where
  text : JsString
  offset : Nat
  truncated : Bool
  nextOffset : Option Nat

/- The end both readers have in common. -/
def sliceText (text : JsString) (offset limit : Option Int) : Except JsString Sliced := do
  let slice ← normalizeWebAccessContentSlice offset limit
  let start := slice.offset.getD 0
  if text.length < start then
    throw (js "Offset " ++ js (toString start) ++ js " is out of range (0-" ++ js (toString text.length) ++
      js "). Use an offset within that range.")
  let stop := min text.length (start + slice.limit.getD webAccessRetrievalMaxChars)
  return ⟨(text.take stop).drop start,start,stop < text.length,if stop < text.length then some stop else none⟩

/- `text.slice(max(0, index - 200), min(text.length, index + size + 200))` -/
def excerptAround (text : JsString) (index size : Nat) : JsString :=
  (text.take (min text.length (index + size + 200))).drop (index - 200)

/- What a stretch of a text at a place lower-cases to. -/
def Agrees (lower : JsString → JsString) (text part : JsString) (place : Nat) : Prop :=
  lower ((text.drop place).take part.length) = lower part

instance (lower : JsString → JsString) (text part : JsString) (place : Nat) : Decidable (Agrees lower text part place) := by
  unfold Agrees
  infer_instance

/- Lower-casing the text leaves the part where it is: it stands in the lower-cased text where the text
agrees with it and nowhere else, and is as long there. -/
structure Keeps (lower : JsString → JsString) (text part : JsString) : Prop where
  stands : ∀ place, Stands (lower part) (lower text) place ↔ Agrees lower text part place
  size : (lower part).length = part.length ∨ ∀ place, ¬Agrees lower text part place

/- The scan of the lower-cased text lists the places of the text itself. -/
theorem keptListed {lower : JsString → JsString} {text part : JsString} (some_ : part ≠ []) (keeps : Keeps lower text part) (n : Nat) :
    Listed (Agrees lower text part) part.length n 0 (scan (indexFrom (lower part) (lower text)) (max 1 (lower part).length) n 0) := by
  have same : Stands (lower part) (lower text) = Agrees lower text part := funext fun place => propext (keeps.stands place)
  have folded : lower part ≠ [] := by
    intro none_
    rcases keeps.size with size | absent
    · rw [none_] at size
      exact some_ (List.length_eq_zero_iff.mp size.symm)
    · exact absent 0 ((keeps.stands 0).mp (none_ ▸ List.nil_prefix))
  have spec := indexNext folded (lower text)
  rw [same] at spec
  rcases keeps.size with size | absent
  · rw [size,Nat.max_eq_right (List.length_pos_iff.mpr some_)]
    exact scanListed spec n 0
  · have none_ : scan (indexFrom (lower part) (lower text)) (max 1 (lower part).length) n 0 = [] := by
      cases n with
      | zero => rfl
      | succ n =>
        cases found : indexFrom (lower part) (lower text) 0 with
        | none => rw [scan,found]
        | some place => exact absurd ((spec 0 place).mp found).2.1 (absent place)
    rw [none_]
    exact listedNone absent

/- Lower-casing unit by unit keeps every part where it is. -/
theorem unitsKeep {lower : JsString → JsString} {fold : UInt16 → UInt16} {text part : JsString}
    (each : ∀ stretch, stretch <:+: text → lower stretch = stretch.map fold) (own : lower part = part.map fold) : Keeps lower text part := by
  refine ⟨fun place => ?_,.inl (by rw [own,List.length_map])⟩
  have stretch : (text.drop place).take part.length <:+: text :=
    (List.take_prefix _ _).isInfix.trans (List.drop_suffix _ _).isInfix
  rw [Stands,Agrees,each _ stretch,each text List.infix_rfl,own,← List.map_drop,List.prefix_iff_eq_take,List.length_map,
    ← List.map_take]
  exact eq_comm

def asciiLower (text : JsString) : JsString := text.map fun u => if 65 ≤ u ∧ u ≤ 90 then u + 32 else u

end Northstar.Web
