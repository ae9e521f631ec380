import Northstar.Research.Cursors

/-! The cursors of graph queries (graph-contract.ts). Every refusal carries the code
cursor_invalid, so only its message is kept. -/
namespace Northstar.Graph
open Research (isRecord nonEmptyString scalar CursorState ScalarState jsonSize)

def maxGraphCursorLength : Nat := 4096
def graphPageSizeMin : Int := 1
def graphPageSizeMax : Int := 100

structure GraphCursorInput where
  provider : JsString
  fingerprint : JsString
  adapterCursorV : Number
  action : JsString
  language : JsString
  pageSize : Number
  state : CursorState

/- A number of 10^21 or more has no fraction and is written with a positive exponent. -/
def isInteger : Number → Bool
  | .int _ => true
  | .float digits => (js digits).contains 43

def pageSizeValid : Number → Bool
  | .int n => graphPageSizeMin ≤ n && n ≤ graphPageSizeMax
  | .float _ => false

def graphAction (action : JsString) : Bool := action = js "query" || action = js "probe" || action = js "schema"

def check (message : String) (met : Bool) : Except JsString Unit := if met then .ok () else .error (js message)

def graphPayload (input : GraphCursorInput) : JsValue :=
  .object [(js "v",.number (.int 1)),(js "provider",.string input.provider),(js "fingerprint",.string input.fingerprint),
    (js "adapterCursorV",.number input.adapterCursorV),(js "action",.string input.action),(js "language",.string input.language),
    (js "pageSize",.number input.pageSize),(js "state",.object input.state)]

def encodeGraphCursor (input : GraphCursorInput) : Except JsString JsString := do
  check "cursor provider is required" (nonEmptyString input.provider)
  check "cursor fingerprint is required" (nonEmptyString input.fingerprint)
  check "cursor adapterCursorV must be an integer" (isInteger input.adapterCursorV)
  check "cursor action is invalid" (graphAction input.action)
  check "cursor language is invalid" (input.language = js "dql")
  check "cursor pageSize is invalid" (pageSizeValid input.pageSize)
  pure (base64url (utf8 (stringify (graphPayload input))))

def demandText (message : String) (accepts : JsString → Bool) : JsValue → Except JsString JsString
  | .string text => if accepts text then .ok text else .error (js message)
  | _ => .error (js message)

def demandNumber (message : String) (accepts : Number → Bool) : JsValue → Except JsString Number
  | .number n => if accepts n then .ok n else .error (js message)
  | _ => .error (js message)

def demandState : JsValue → Except JsString CursorState
  | .object state => match state.find? fun field => !scalar field.2 with
      | some field => .error (js "cursor state." ++ field.1 ++ js " has an unsupported type")
      | none => .ok state
  | _ => .error (js "cursor state is invalid")

/- The record that is returned carries v: 1 beside these. -/
def decodeGraphCursor (numerals : Json.Numerals) (cursor : JsString) : Except JsString GraphCursorInput := do
  check "cursor is required" (cursor.length ≠ 0)
  check "cursor exceeds maximum length of 4096" (cursor.length ≤ maxGraphCursorLength)
  match Json.parse numerals (Utf8.decode (fromBase64url cursor)) with
  | none => .error (js "cursor is not a valid opaque token")
  | some payload => do
      check "cursor payload is invalid" (isRecord payload && payload.get "v" matches .number (.int 1))
      let provider ← demandText "cursor provider is invalid" nonEmptyString (payload.get "provider")
      let fingerprint ← demandText "cursor fingerprint is invalid" nonEmptyString (payload.get "fingerprint")
      let adapterCursorV ← demandNumber "cursor adapterCursorV is invalid" isInteger (payload.get "adapterCursorV")
      let action ← demandText "cursor action is invalid" graphAction (payload.get "action")
      let language ← demandText "cursor language is invalid" (fun text => text = js "dql") (payload.get "language")
      let pageSize ← demandNumber "cursor pageSize is invalid" pageSizeValid (payload.get "pageSize")
      let state ← demandState (payload.get "state")
      pure ⟨provider,fingerprint,adapterCursorV,action,language,pageSize,state⟩

theorem demandedText {message : String} {accepts : JsString → Bool} {text : JsString} (fine : accepts text = true) :
    demandText message accepts (.string text) = .ok text := if_pos fine

theorem demandedNumber {message : String} {accepts : Number → Bool} {n : Number} (fine : accepts n = true) :
    demandNumber message accepts (.number n) = .ok n := if_pos fine

theorem demandedState {numerals : Json.Numerals} {state : CursorState} (valid : ScalarState numerals state) :
    demandState (.object state) = .ok state := by
  rw [demandState,Research.stateAccepted valid]

/- What an encoder accepts. -/
structure Accepted (input : GraphCursorInput) : Prop where
  provider : nonEmptyString input.provider = true
  fingerprint : nonEmptyString input.fingerprint = true
  adapterCursorV : isInteger input.adapterCursorV = true
  action : graphAction input.action = true
  language : input.language = js "dql"
  pageSize : pageSizeValid input.pageSize = true

theorem checkThen {α : Type} {message : String} {met : Bool} {next : Unit → Except JsString α} {out : α}
    (ok : (check message met >>= next) = .ok out) : met = true ∧ next () = .ok out := by
  cases met with
  | true => exact ⟨rfl,ok⟩
  | false => contradiction

theorem checkMet (message : String) {met : Bool} (fine : met = true) : check message met = .ok () := if_pos fine

theorem encodedAccepted {input : GraphCursorInput} {cursor : JsString} (ok : encodeGraphCursor input = .ok cursor) :
    Accepted input ∧ cursor = base64url (utf8 (stringify (graphPayload input))) := by
  obtain ⟨provider,ok⟩ := checkThen ok
  obtain ⟨fingerprint,ok⟩ := checkThen ok
  obtain ⟨adapterCursorV,ok⟩ := checkThen ok
  obtain ⟨action,ok⟩ := checkThen ok
  obtain ⟨language,ok⟩ := checkThen ok
  obtain ⟨pageSize,ok⟩ := checkThen ok
  exact ⟨⟨provider,fingerprint,adapterCursorV,action,of_decide_eq_true language,pageSize⟩,(Except.ok.inj ok).symm⟩

theorem acceptedEncoded {input : GraphCursorInput} (accepted : Accepted input) :
    encodeGraphCursor input = .ok (base64url (utf8 (stringify (graphPayload input)))) := by
  unfold encodeGraphCursor
  rw [checkMet _ accepted.provider,checkMet _ accepted.fingerprint,checkMet _ accepted.adapterCursorV,checkMet _ accepted.action,
    checkMet _ (decide_eq_true accepted.language),checkMet _ accepted.pageSize]
  rfl

/- What a caller chooses of a payload. -/
def recordSize (input : GraphCursorInput) : Nat :=
  jsonSize (.string input.provider) + jsonSize (.string input.fingerprint) + jsonSize (.number input.adapterCursorV) +
    jsonSize (.string input.action) + jsonSize (.number input.pageSize) + jsonSize (.object input.state)

theorem graphPayloadSize {input : GraphCursorInput} (language : input.language = js "dql") :
    (utf8 (stringify (graphPayload input))).length = recordSize input + 100 := by
  have one : byteLength (stringify (.number (.int 1))) = 1 := by decide
  have dql : byteLength (stringify (.string (js "dql"))) = 5 := by decide
  have v : byteLength (quote (js "v")) = 3 := by decide
  have provider : byteLength (quote (js "provider")) = 10 := by decide
  have fingerprint : byteLength (quote (js "fingerprint")) = 13 := by decide
  have adapterCursorV : byteLength (quote (js "adapterCursorV")) = 16 := by decide
  have action : byteLength (quote (js "action")) = 8 := by decide
  have language_ : byteLength (quote (js "language")) = 10 := by decide
  have pageSize : byteLength (quote (js "pageSize")) = 10 := by decide
  have state : byteLength (quote (js "state")) = 7 := by decide
  change byteLength (stringify (graphPayload input)) = _
  rw [graphPayload,objectSizeAll rfl,language]
  simp only [List.map_cons,List.map_nil,List.sum_cons,List.sum_nil,List.length_cons,List.length_nil,fieldSize,one,dql,v,provider,
    fingerprint,adapterCursorV,action,language_,pageSize,state,recordSize,jsonSize]
  omega

section
variable {numerals : Json.Numerals} {input : GraphCursorInput}

theorem graphPlain (accepted : Accepted input) (finite : numerals.finite input.adapterCursorV)
    (valid : ScalarState numerals input.state) : Json.Plain numerals (graphPayload input) := by
  have keys : [js "v",js "provider",js "fingerprint",js "adapterCursorV",js "action",js "language",js "pageSize",
      js "state"].Pairwise fun a b => a ≠ b ∧ Json.listedBefore a b = true := by decide
  have page : numerals.finite input.pageSize := by
    have size := accepted.pageSize
    cases shape : input.pageSize with
    | float digits => rw [shape] at size; contradiction
    | int n =>
      rw [shape] at size
      obtain ⟨least,most⟩ := Bool.and_eq_true_iff.mp size
      have least' : 1 ≤ n := of_decide_eq_true least
      have most' : n ≤ 100 := of_decide_eq_true most
      exact numerals.whole n (by omega)
  exact ⟨Json.enumeratedKeys keys,numerals.whole 1 (by decide),trivial,trivial,finite,trivial,trivial,page,
    Research.statePlain valid,trivial⟩

theorem decodedGraph (accepted : Accepted input) (finite : numerals.finite input.adapterCursorV)
    (valid : ScalarState numerals input.state) :
    decodeGraphCursor numerals (base64url (utf8 (stringify (graphPayload input)))) = .ok input ↔ recordSize input ≤ 2972 := by
  have size := graphPayloadSize accepted.language
  have fits := Research.cursorFits (utf8 (stringify (graphPayload input)))
  have length := base64Size (utf8 (stringify (graphPayload input)))
  have parsed : Json.parse numerals (Utf8.decode (fromBase64url (base64url (utf8 (stringify (graphPayload input)))))) =
      some (graphPayload input) := by
    rw [base64Read,Json.parseBack numerals (graphPlain accepted finite valid)]
  have there : (base64url (utf8 (stringify (graphPayload input)))).length ≠ 0 := by omega
  unfold decodeGraphCursor
  rw [checkMet _ (decide_eq_true there)]
  by_cases short : recordSize input ≤ 2972
  · have within : (base64url (utf8 (stringify (graphPayload input)))).length ≤ maxGraphCursorLength := fits.mpr (by omega)
    refine iff_of_true ?_ short
    have record : (isRecord (graphPayload input) && (graphPayload input).get "v" matches .number (.int 1)) = true := rfl
    have provider : (graphPayload input).get "provider" = .string input.provider := rfl
    have fingerprint : (graphPayload input).get "fingerprint" = .string input.fingerprint := rfl
    have adapterCursorV : (graphPayload input).get "adapterCursorV" = .number input.adapterCursorV := rfl
    have action : (graphPayload input).get "action" = .string input.action := rfl
    have language : (graphPayload input).get "language" = .string input.language := rfl
    have pageSize : (graphPayload input).get "pageSize" = .number input.pageSize := rfl
    have state : (graphPayload input).get "state" = .object input.state := rfl
    rw [checkMet _ (decide_eq_true within),parsed]
    dsimp only
    rw [checkMet _ record,provider,fingerprint,adapterCursorV,action,language,pageSize,state,demandedText accepted.provider,
      demandedText accepted.fingerprint,demandedNumber accepted.adapterCursorV,demandedText accepted.action,
      demandedText (decide_eq_true accepted.language),demandedNumber accepted.pageSize,demandedState valid]
    rfl
  · have long : ¬(base64url (utf8 (stringify (graphPayload input)))).length ≤ maxGraphCursorLength :=
      fun within => short (by have := fits.mp within; omega)
    refine iff_of_false ?_ short
    rw [decide_eq_false long]
    exact nofun

/-- A result cursor is usable where source and state leave room for the rest of its payload and the query holds neither a lone
surrogate nor U+FFFD; a graph cursor is read back where what the caller chose leaves room. -/
theorem issuedUsable (numerals : Json.Numerals) (sha256hex : Bytes → JsString) (bound : Research.CursorBinding) (state : CursorState)
    (one : bound.source ≠ js "all") (valid : ScalarState numerals state)
    (digest : Research.hexDigest (sha256hex (Research.boundBytes bound)))
    (collisionFree : ∀ other, sha256hex (Research.boundBytes bound) = sha256hex (Research.boundBytes other) →
      Research.boundBytes bound = Research.boundBytes other)
    (input : GraphCursorInput) (graphState : ScalarState numerals input.state)
    (finite : isInteger input.adapterCursorV = true → numerals.finite input.adapterCursorV) :
    (Research.Usable (Research.nodeCodec sha256hex numerals) bound state ↔
      jsonSize (.string bound.source) + jsonSize (.object state) ≤ 2967 ∧ Utf8.wellFormed bound.query ∧ 0xFFFD ∉ bound.query) ∧
    ∀ cursor, encodeGraphCursor input = .ok cursor → (decodeGraphCursor numerals cursor = .ok input ↔ recordSize input ≤ 2972) := by
  refine ⟨Research.resultUsable one valid digest collisionFree,fun cursor ok => ?_⟩
  obtain ⟨accepted,rfl⟩ := encodedAccepted ok
  exact decodedGraph accepted (finite accepted.adapterCursorV) graphState

end

section
open Research (CursorBinding boundBytes nodeCodec encodeResultCursor decodeResultCursor)

def plainBinding : CursorBinding := ⟨js "arxiv",js "graph",none⟩

/- A digest that tells one request from the others. -/
def plainDigest (bytes : Bytes) : JsString := List.replicate 64 (if bytes = boundBytes plainBinding then 48 else 49)

def offsetState : CursorState := [(js "offset",.number (.int 25))]

def plainQuery : GraphCursorInput := ⟨js "dgraph",js "f00d",.int 1,js "query",js "dql",.int 25,offsetState⟩

theorem offsetValid : ScalarState Json.wholeNumerals offsetState where
  listed := by decide
  scalars := by decide
  finite := fun field member n same => by
    cases List.mem_singleton.mp member
    exact ⟨25,(JsValue.number.inj same).symm⟩

theorem plainUsable : (Research.Usable (nodeCodec plainDigest Json.wholeNumerals) plainBinding offsetState ↔
      jsonSize (.string plainBinding.source) + jsonSize (.object offsetState) ≤ 2967 ∧ Utf8.wellFormed plainBinding.query ∧
        0xFFFD ∉ plainBinding.query) ∧
    ∀ cursor, encodeGraphCursor plainQuery = .ok cursor →
      (decodeGraphCursor Json.wholeNumerals cursor = .ok plainQuery ↔ recordSize plainQuery ≤ 2972) := by
  refine issuedUsable Json.wholeNumerals plainDigest plainBinding offsetState (by decide) offsetValid ⟨rfl,?_⟩ ?_ plainQuery offsetValid
    fun _ => ⟨1,rfl⟩
  · intro u member
    rw [List.eq_of_mem_replicate member,if_pos rfl]
    exact .inl (by decide)
  · intro other same
    by_contra apart
    unfold plainDigest at same
    rw [if_pos rfl,if_neg fun eq => apart eq.symm] at same
    exact absurd (congrArg List.head? same) (by decide)

def longState : CursorState := [(js "after",.string (List.replicate 3000 97))]

theorem longValid : ScalarState Json.wholeNumerals longState where
  listed := by decide
  scalars := by decide
  finite := fun field member n same => by
    cases List.mem_singleton.mp member
    contradiction

/- What no decoder takes back. -/
theorem longRefused : plainBinding.source ≠ js "all" ∧ ScalarState Json.wholeNumerals longState ∧
    decodeResultCursor (nodeCodec plainDigest Json.wholeNumerals)
      (encodeResultCursor (nodeCodec plainDigest Json.wholeNumerals) plainBinding longState) plainBinding ≠ .ok longState := by
  refine ⟨by decide,longValid,fun ok => ?_⟩
  have digest : Research.hexDigest (Research.queryFingerprint (nodeCodec plainDigest Json.wholeNumerals) plainBinding) := by
    refine ⟨rfl,fun u member => ?_⟩
    rw [List.eq_of_mem_replicate member]
    split
    · exact .inl (by decide)
    · exact .inl (by decide)
  have short := ((Research.issuedRead plainDigest plainBinding longValid digest plainBinding longState).mp ok).1
  have inside := fieldWithin (js "after") (List.mem_singleton_self _ : (js "after",JsValue.string (List.replicate 3000 97)) ∈ longState) rfl
  have grown := quoteGrows (List.replicate 3000 97)
  have bytes := lengthBytes (quote (List.replicate 3000 97))
  rw [List.length_replicate] at grown
  change byteLength (quote (List.replicate 3000 97)) ≤ jsonSize (.object longState) at inside
  omega

end

end Northstar.Graph
