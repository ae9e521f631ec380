import Northstar.Json
import Northstar.Separated
import Northstar.Research.Contract

/-! Which result cursors are of use: they are short enough to be read, and the request they are
bound to is told apart from every other one. -/
namespace Northstar.Research
open Utf8 (wellFormed)

/- Node's digest beside JSON.parse of the text Buffer.toString makes. -/
def nodeCodec (sha256hex : Bytes → JsString) (numerals : Json.Numerals) : Codec where
  sha256hex := sha256hex
  parse := fun bytes => Json.parse numerals (Utf8.decode bytes)

theorem codecReads (sha256hex : Bytes → JsString) (numerals : Json.Numerals) (bytes : Bytes) :
    (nodeCodec sha256hex numerals).parse bytes = Json.parse numerals (Utf8.decode bytes) := rfl

/- The states of a cursor: distinct keys as an object lists them, with texts, finite numbers,
booleans and nulls. -/
structure ScalarState (numerals : Json.Numerals) (state : CursorState) : Prop where
  listed : Json.Enumerated state
  scalars : ∀ field ∈ state, scalar field.2 = true
  finite : ∀ field ∈ state, ∀ n, field.2 = .number n → numerals.finite n

theorem statePlain {numerals : Json.Numerals} {state : CursorState} (valid : ScalarState numerals state) :
    Json.Plain numerals (.object state) := by
  refine ⟨valid.listed,?_⟩
  have scalars := valid.scalars
  have finite := valid.finite
  clear valid
  induction state with
  | nil => trivial
  | cons field rest ih =>
    refine ⟨?_,ih (fun f member => scalars f (List.mem_cons_of_mem _ member)) fun f member => finite f (List.mem_cons_of_mem _ member)⟩
    have own := scalars field List.mem_cons_self
    have numbers := finite field List.mem_cons_self
    cases content : field.2 with
    | undefined => rw [content] at own; contradiction
    | null => trivial
    | bool b => trivial
    | number n => exact numbers n content
    | string s => trivial
    | array list => rw [content] at own; contradiction
    | object list => rw [content] at own; contradiction

theorem stateAccepted {numerals : Json.Numerals} {state : CursorState} (valid : ScalarState numerals state) :
    (state.find? fun field => !scalar field.2) = none := by
  rw [List.find?_eq_none]
  intro field member
  simp [valid.scalars field member]

/- A text written as JSON. -/
def jsonSize (value : JsValue) : Nat := byteLength (stringify value)

theorem textSize (s : JsString) : byteLength (quote s) = jsonSize (.string s) := rfl

theorem cursorFits (bytes : Bytes) : (base64url bytes).length ≤ 4096 ↔ bytes.length ≤ 3072 := by
  rw [base64Size]
  omega

/- A digest in lower case hexadecimal. -/
def hexDigest (hash : JsString) : Prop := hash.length = 64 ∧ ∀ u ∈ hash, (48 ≤ u ∧ u ≤ 57) ∨ (97 ≤ u ∧ u ≤ 102)

theorem hexUnitPlain {u : UInt16} (hex : (48 ≤ u ∧ u ≤ 57) ∨ (97 ≤ u ∧ u ≤ 102)) :
    byteLength (escapeUnit u) = 1 ∧ highSurrogate u = false := by
  have low : u.toNat < 128 := by
    rcases hex with ⟨_,most⟩ | ⟨_,most⟩
    · exact Nat.lt_of_le_of_lt (UInt16.le_iff_toNat_le.mp most) (by decide)
    · exact Nat.lt_of_le_of_lt (UInt16.le_iff_toNat_le.mp most) (by decide)
  have every : ∀ n : Fin 128, (48 ≤ UInt16.ofNat n ∧ UInt16.ofNat n ≤ 57) ∨ (97 ≤ UInt16.ofNat n ∧ UInt16.ofNat n ≤ 102) →
      byteLength (escapeUnit (UInt16.ofNat n)) = 1 ∧ highSurrogate (UInt16.ofNat n) = false := by decide
  have own := every ⟨u.toNat,low⟩
  simp only [UInt16.ofNat_toNat] at own
  exact own hex

theorem digestSize {hash : JsString} (hex : hexDigest hash) : jsonSize (.string hash) = 66 := by
  have units (text : JsString) (all : ∀ u ∈ text, (48 ≤ u ∧ u ≤ 57) ∨ (97 ≤ u ∧ u ≤ 102)) :
      byteLength ((points text).flatMap escapePoint) = text.length := by
    induction text with
    | nil => rfl
    | cons u rest ih =>
      obtain ⟨one,plain⟩ := hexUnitPlain (all u List.mem_cons_self)
      have split_ : points (u :: rest) = [u] :: points rest := pointsAppend (a := [u]) (cleanEnd [] plain) rest
      have apart : clean (escapePoint [u]) := cleanUnit u
      rw [split_,List.flatMap_cons,byteAppend apart,ih fun v later => all v (List.mem_cons_of_mem _ later),List.length_cons]
      change byteLength (escapeUnit u) + _ = _
      rw [one,Nat.add_comm]
  have mark : (utf8 [34]).length = 1 := by decide
  have inner := units hash hex.2
  unfold byteLength at inner
  change (utf8 (([34] ++ (points hash).flatMap escapePoint) ++ 34 :: [])).length = 66
  rw [utf8Break _ (by decide),List.length_append,mark,utf8Append (by decide),List.length_append,mark,inner,hex.1]

theorem payloadSize (source : JsString) {hash : JsString} (hex : hexDigest hash) (state : CursorState) :
    jsonSize (cursorPayload source hash state) = jsonSize (.string source) + jsonSize (.object state) + 105 := by
  have digest := digestSize hex
  have one : byteLength (stringify (.number (.int 1))) = 1 := by decide
  have v : byteLength (quote (js "v")) = 3 := by decide
  have source_ : byteLength (quote (js "source")) = 8 := by decide
  have queryHash : byteLength (quote (js "queryHash")) = 11 := by decide
  have state_ : byteLength (quote (js "state")) = 7 := by decide
  unfold jsonSize at digest ⊢
  rw [cursorPayload,objectSizeAll rfl]
  simp only [List.map_cons,List.map_nil,List.sum_cons,List.sum_nil,List.length_cons,List.length_nil,fieldSize,one,v,source_,
    queryHash,state_,digest]
  omega

section
variable {sha256hex : Bytes → JsString} {numerals : Json.Numerals} {bound : CursorBinding} {state : CursorState}

theorem payloadPlain (valid : ScalarState numerals state) (source hash : JsString) :
    Json.Plain numerals (cursorPayload source hash state) := by
  have keys : [js "v",js "source",js "queryHash",js "state"].Pairwise fun a b => a ≠ b ∧ Json.listedBefore a b = true := by decide
  have listed : Json.Enumerated [(js "v",.number (.int 1)),(js "source",.string source),(js "queryHash",.string hash),
      (js "state",.object state)] := Json.enumeratedKeys keys
  exact ⟨listed,numerals.whole 1 (by decide),trivial,trivial,statePlain valid,trivial⟩

/- What becomes of a cursor that was issued. -/
theorem issuedRead (sha256hex : Bytes → JsString) (bound : CursorBinding) (valid : ScalarState numerals state)
    (digest : hexDigest (queryFingerprint (nodeCodec sha256hex numerals) bound))
    (expected : CursorBinding) (read : CursorState) :
    decodeResultCursor (nodeCodec sha256hex numerals) (encodeResultCursor (nodeCodec sha256hex numerals) bound state) expected = .ok read ↔
      jsonSize (.string bound.source) + jsonSize (.object state) ≤ 2967 ∧ expected.source ≠ js "all" ∧
      bound.source = expected.source ∧
      queryFingerprint (nodeCodec sha256hex numerals) bound = queryFingerprint (nodeCodec sha256hex numerals) expected ∧ read = state := by
  have size := payloadSize bound.source digest state
  unfold encodeResultCursor
  generalize queryFingerprint (nodeCodec sha256hex numerals) bound = hash at size digest ⊢
  have parsed : (nodeCodec sha256hex numerals).parse (fromBase64url (base64url (utf8 (stringify (cursorPayload bound.source hash state))))) =
      some (cursorPayload bound.source hash state) := by
    rw [base64Read,codecReads,Json.parseBack numerals (payloadPlain valid bound.source hash)]
  have fits := cursorFits (utf8 (stringify (cursorPayload bound.source hash state)))
  have length := base64Size (utf8 (stringify (cursorPayload bound.source hash state)))
  rw [jsonSize,byteLength] at size
  have there : (base64url (utf8 (stringify (cursorPayload bound.source hash state)))).length ≠ 0 := by omega
  have v : (cursorPayload bound.source hash state).get "v" = .number (.int 1) := rfl
  have source : (cursorPayload bound.source hash state).get "source" = .string bound.source := rfl
  have digest_ : (cursorPayload bound.source hash state).get "queryHash" = .string hash := rfl
  have state_ : (cursorPayload bound.source hash state).get "state" = .object state := rfl
  unfold decodeResultCursor maxCursorLength
  rw [if_neg there]
  by_cases short : jsonSize (.string bound.source) + jsonSize (.object state) ≤ 2967
  · rw [if_neg (by omega)]
    by_cases every : expected.source = js "all"
    · rw [if_pos every]
      exact iff_of_false nofun fun ⟨_,one,_⟩ => one every
    · rw [if_neg every,parsed]
      simp only [v,source,digest_,state_,JsValue.asString,stateAccepted valid]
      by_cases same : bound.source = expected.source
      · rw [if_neg fun apart => apart (congrArg some same)]
        by_cases hashed : hash = queryFingerprint (nodeCodec sha256hex numerals) expected
        · rw [if_neg fun apart => apart (congrArg some hashed)]
          exact ⟨fun ok => ⟨short,every,same,hashed,(Except.ok.inj ok).symm⟩,fun ⟨_,_,_,_,eq⟩ => eq ▸ rfl⟩
        · rw [if_pos fun eq => hashed (Option.some.inj eq)]
          exact iff_of_false nofun fun ⟨_,_,_,eq,_⟩ => hashed eq
      · rw [if_pos fun eq => same (Option.some.inj eq)]
        exact iff_of_false nofun fun ⟨_,_,eq,_⟩ => same eq
  · rw [if_pos (by omega)]
    exact iff_of_false nofun fun ⟨few,_⟩ => short few

end

theorem numberByte {u : UInt16} (number : Json.numberUnit u = true) :
    utf8 [u] = [UInt8.ofNat u.toNat] ∧ UInt8.ofNat u.toNat ≠ 124 ∧ surrogate u = false ∧ u ≠ 0xFFFD := by
  have low : u.toNat < 128 := (Json.unitAscii number)
  have every : ∀ n : Fin 128, Json.numberUnit (UInt16.ofNat n) = true → utf8 [UInt16.ofNat n] = [UInt8.ofNat n] ∧
      UInt8.ofNat n ≠ 124 ∧ surrogate (UInt16.ofNat n) = false ∧ UInt16.ofNat n ≠ 0xFFFD := by decide
  have own := every ⟨u.toNat,low⟩
  simp only [UInt16.ofNat_toNat] at own
  exact own number

def yearText (year : Option Int) : JsString := (year.map fun year => js (toString year)).getD []

theorem yearUnits (year : Option Int) : (yearText year).all Json.numberUnit = true := by
  cases year with
  | none => rfl
  | some i => exact (Json.numeralUnits (Json.wholeText i).1).1

theorem yearSolid (year : Option Int) : 124 ∉ utf8 (yearText year) ∧ wellFormed (yearText year) ∧ 0xFFFD ∉ yearText year := by
  have units (text : JsString) (all : text.all Json.numberUnit = true) : 124 ∉ utf8 text ∧ 0xFFFD ∉ text ∧
      ∀ u ∈ text, surrogate u = false := by
    induction text with
    | nil => exact ⟨List.not_mem_nil,List.not_mem_nil,fun _ member => absurd member List.not_mem_nil⟩
    | cons u rest ih =>
      obtain ⟨own,later⟩ := Bool.and_eq_true_iff.mp all
      obtain ⟨byte,apart,single,mark⟩ := numberByte own
      obtain ⟨bytes,marks,singles⟩ := ih later
      refine ⟨?_,?_,?_⟩
      · rw [← List.singleton_append,utf8Append (a := [u]) (cleanEnd [] (plainNotHigh single)),byte]
        intro member
        rcases List.mem_cons.mp member with first | after
        · exact apart first.symm
        · exact bytes after
      · intro member
        rcases List.mem_cons.mp member with first | after
        · exact mark first.symm
        · exact marks after
      · intro v member
        rcases List.mem_cons.mp member with rfl | after
        · exact single
        · exact singles v after
  obtain ⟨bytes,marks,singles⟩ := units _ (yearUnits year)
  exact ⟨bytes,Json.wellUnits singles,marks⟩

theorem yearUnique {a b : Option Int} (same : yearText a = yearText b) : a = b := by
  have some_ (i : Int) : yearText (some i) ≠ [] := (Json.numeralUnits (Json.wholeText i).1).2
  cases a with
  | none => cases b with
    | none => rfl
    | some j => exact absurd same.symm (some_ j)
  | some i => cases b with
    | none => exact absurd same (some_ i)
    | some j =>
      have read : Json.wholeNumber (Number.int i).script = Json.wholeNumber (Number.int j).script := congrArg Json.wholeNumber same
      rw [(Json.wholeText i).2,(Json.wholeText j).2] at read
      rw [Number.int.inj read]

/- The bytes the digest is taken of. -/
def boundBytes (bound : CursorBinding) : Bytes := utf8 (bound.source ++ js "|" ++ bound.query ++ js "|" ++ yearText bound.yearFrom)

/- Under one source only queries that UTF-8 does not tell apart share them. -/
theorem boundApart {a b : CursorBinding} (source : a.source = b.source) :
    boundBytes a = boundBytes b ↔ utf8 a.query = utf8 b.query ∧ a.yearFrom = b.yearFrom := by
  have parts (c : CursorBinding) : boundBytes c = utf8 (c.source ++ [124]) ++ (utf8 c.query ++ 124 :: utf8 (yearText c.yearFrom)) := by
    have bar : utf8 (124 :: yearText c.yearFrom) = 124 :: utf8 (yearText c.yearFrom) := utf8Append (a := [124]) (by decide) _
    have whole : c.source ++ js "|" ++ c.query ++ js "|" ++ yearText c.yearFrom = (c.source ++ [124]) ++ (c.query ++ 124 :: yearText c.yearFrom) := by
      simp only [List.append_assoc]
      rfl
    rw [boundBytes,whole,utf8Append (cleanEnd _ (by decide)) (c.query ++ 124 :: yearText c.yearFrom),utf8Break c.query (by decide),bar]
  constructor
  · intro same
    rw [parts a,parts b,source] at same
    obtain ⟨query,year⟩ := Separated.lastSeparator (yearSolid a.yearFrom).1 (yearSolid b.yearFrom).1 (List.append_cancel_left same)
    exact ⟨query,yearUnique ((Utf8.bytesUnique _).mpr (yearSolid b.yearFrom).2 _ year)⟩
  · rintro ⟨query,year⟩
    rw [parts a,parts b,source,query,year]

section
variable {sha256hex : Bytes → JsString} {numerals : Json.Numerals} {bound : CursorBinding} {state : CursorState}

/- A cursor that gives the state back under its own binding and is refused under every other one. -/
structure Usable (codec : Codec) (bound : CursorBinding) (state : CursorState) : Prop where
  returned : decodeResultCursor codec (encodeResultCursor codec bound state) bound = .ok state
  refused : ∀ other, other ≠ bound → ∃ error, decodeResultCursor codec (encodeResultCursor codec bound state) other = .error error

theorem resultUsable (one : bound.source ≠ js "all") (valid : ScalarState numerals state)
    (digest : hexDigest (sha256hex (boundBytes bound)))
    (collisionFree : ∀ other, sha256hex (boundBytes bound) = sha256hex (boundBytes other) → boundBytes bound = boundBytes other) :
    Usable (nodeCodec sha256hex numerals) bound state ↔
      jsonSize (.string bound.source) + jsonSize (.object state) ≤ 2967 ∧ wellFormed bound.query ∧ 0xFFFD ∉ bound.query := by
  have read := issuedRead sha256hex bound valid digest
  constructor
  · rintro ⟨returned,refused⟩
    have short := ((read bound state).mp returned).1
    refine ⟨short,(Utf8.bytesUnique bound.query).mp fun query same => ?_⟩
    by_contra apart
    obtain ⟨error,refusal⟩ := refused { bound with query := query } fun eq => apart (congrArg CursorBinding.query eq)
    have hashed : boundBytes bound = boundBytes { bound with query := query } :=
      (boundApart (a := bound) (b := { bound with query := query }) rfl).mpr ⟨same.symm,rfl⟩
    have taken := (read { bound with query := query } state).mpr ⟨short,one,rfl,congrArg sha256hex hashed,rfl⟩
    rw [taken] at refusal
    contradiction
  · rintro ⟨short,unique⟩
    refine ⟨(read bound state).mpr ⟨short,one,rfl,rfl,rfl⟩,fun other apart => ?_⟩
    cases outcome : decodeResultCursor (nodeCodec sha256hex numerals) (encodeResultCursor (nodeCodec sha256hex numerals) bound state) other with
    | error error => exact ⟨error,rfl⟩
    | ok taken =>
      obtain ⟨-,-,source,hashed,-⟩ := (read other taken).mp outcome
      obtain ⟨query,year⟩ := (boundApart source).mp (collisionFree other hashed)
      have same := (Utf8.bytesUnique bound.query).mpr unique other.query query.symm
      refine absurd ?_ apart
      cases other
      cases bound
      cases source
      cases year
      cases same
      rfl

end

end Northstar.Research
