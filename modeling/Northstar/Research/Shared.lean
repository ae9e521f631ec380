import Northstar.Research.Contract

/-! What the research adapters share (research-adapter-shared.ts): the checks on a request, the
rows read from an answer and the envelope. The four adapters that page by an offset differ in the
name of the state, the cap and the filters they refuse, and in what they ask of their provider. -/
namespace Northstar.Research

def maxResearchLimit : Nat := 30
def defaultResearchLimit : Nat := 10

structure ResearchAdapterRequest where
  query : JsString
  limit : Option Number := none
  cursor : Option JsString := none
  yearFrom : Option Number := none
  yearTo : Option Number := none
  author : Option JsString := none
  doi : Option JsString := none
  venue : Option JsString := none
  aborted : Bool := false
  deriving DecidableEq, Repr

structure ResearchAdapterContext where
  tool : Option JsString := none
  channel : Option JsString := none
  action : Option JsString := none
  requestedAction : Option JsString := none
  deriving DecidableEq, Repr

/- An empty text counts as none. -/
def given (text : Option JsString) (fallback : JsString) : JsString := (text.filter (· ≠ [])).getD fallback

def researchRequestV1 (source : JsString) (context : ResearchAdapterContext) : NorthstarRequest :=
  ⟨given context.tool (js "web_search"),given context.channel (js "research"),given context.action (js "search"),
    context.requestedAction.filter (· ≠ []),source⟩

abbrev researchString : JsValue → Option JsString := optionalString

abbrev researchInt : JsValue → Option Int := optionalInt

/- `{}` where the source goes on with no record. -/
def researchRecord : JsValue → Option JsValue
  | .object fields => some (.object fields)
  | _ => none

structure NormalizedResearchInput where
  query : JsString
  limit : Nat
  yearFrom : Option Int
  yearTo : Option Int
  author : Option JsString
  doi : Option JsString
  venue : Option JsString
  deriving DecidableEq, Repr

def maxAuthorFilterLength : Nat := 200
def maxDoiFilterLength : Nat := 100
def maxVenueFilterLength : Nat := 200

def optionalField (value : Option JsString) : Option JsString := (value.map trim).filter (·.length > 0)

def cappedFilter (value : Option JsString) (maxLength : Nat) (field : String) : Except JsString Unit :=
  match optionalField value with
  | none => .ok ()
  | some value =>
      if value.length > maxLength then .error (js field ++ js " filter exceeds " ++ js (toString maxLength) ++ js " characters")
      else .ok ()

def checkYear (year : Option Number) (name : String) : Except JsString (Option Int) := match year with
  | none => .ok none
  | some (.int year) =>
      if year < 1000 ∨ year > 2200 then .error (js name ++ js " must be a four-digit year") else .ok (some year)
  | some (.float _) => .error (js name ++ js " must be a four-digit year")

def normalizeLimit : Option Number → Except JsString Nat
  | none => .ok defaultResearchLimit
  | some (.int limit) => .ok (min (max limit 1) maxResearchLimit).toNat
  | some (.float _) => .error (js "limit must be an integer")

def normalizeResearchInput (request : ResearchAdapterRequest) : Except JsString NormalizedResearchInput := do
  let query := trim request.query
  if query = [] then .error (js "query is required")
  let limit ← normalizeLimit request.limit
  let yearFrom ← checkYear request.yearFrom "yearFrom"
  let yearTo ← checkYear request.yearTo "yearTo"
  match yearFrom, yearTo with
  | some first, some last => if last < first then .error (js "yearTo must not be earlier than yearFrom")
  | _, _ => .ok ()
  cappedFilter request.author maxAuthorFilterLength "author"
  cappedFilter request.doi maxDoiFilterLength "doi"
  cappedFilter request.venue maxVenueFilterLength "venue"
  .ok ⟨query,limit,yearFrom,yearTo,optionalField request.author,optionalField request.doi,optionalField request.venue⟩

inductive HttpErrorKind where
  | http
  | redirect
  | timeout
  | network
  deriving DecidableEq, Repr

structure ResearchHttpError where
  kind : HttpErrorKind
  status : Option Nat
  deriving DecidableEq, Repr

def httpOutcomeError (error : ResearchHttpError) : NorthstarError :=
  if error.kind = .timeout then { code := .timeout, message := js "Research request timed out.", retryable := true }
  else if error.status = some 429 then { code := .rateLimited, message := js "Rate limited (HTTP 429).", retryable := true }
  else match error.status with
    | some status => {
        code := .backendHttpError
        message := js "HTTP " ++ js (toString status) ++ js "."
        retryable := status ≥ 500 }
    | none => { code := .backendUnavailable, message := js "Research backend request failed.", retryable := false }

def invalidResponse (message : String) : NorthstarError :=
  { code := .invalidBackendResponse, message := js message, retryable := false }

def researchAbstractMaxChars : Nat := 8000

/- The entity of a row, with the abstract of the row if it has one. -/
def adapterRow (source : JsString) (kind : NorthstarEntityKind) (row : JsValue) : Option NorthstarEntity :=
  match parseEntity row source kind with
  | .error _ => none
  | .ok entity =>
      if validateNorthstarEntity entity ≠ [] then none
      else match row.get "abstract" with
        | .string text => if trim text ≠ [] then some { entity with abstract := some (text.take researchAbstractMaxChars) } else some entity
        | _ => some entity

structure ParsedRows where
  entities : List NorthstarEntity
  invalid : Nat
  deriving DecidableEq, Repr

def parseAdapterRows (source : JsString) (kind : NorthstarEntityKind) : List JsValue → ParsedRows
  | [] => ⟨[],0⟩
  | row :: rest =>
      let parsed := parseAdapterRows source kind rest
      match adapterRow source kind row with
      | some entity => { parsed with entities := entity :: parsed.entities }
      | none => { parsed with invalid := parsed.invalid + 1 }

def cursorNumber (state : CursorState) (key : JsString) (low high : Nat) : Except JsString Nat :=
  match state.lookup key with
  | none => .error (js "cursor state." ++ key ++ js " is missing")
  | some (.number (.int raw)) =>
      if raw < low ∨ raw > high then .error (js "cursor state." ++ key ++ js " is out of range") else .ok raw.toNat
  | some _ => .error (js "cursor state." ++ key ++ js " is out of range")

def decodeCursorState (codec : Codec) (cursor : JsString) (expected : CursorBinding) : Except NorthstarError CursorState :=
  match decodeResultCursor codec cursor expected with
  | .ok state => .ok state
  | .error error => .error { code := error.code, message := error.message, retryable := false }

inductive ResearchPaginationMode where
  | offset
  | cursor
  | page
  | pageOffset
  | continuation
  | unsupported
  deriving DecidableEq, Repr

/- The pagination of a source in the registry (capabilities.ts). -/
def researchSourcePagination (source : JsString) : Option ResearchPaginationMode :=
  [(js "semantic_scholar",.offset),(js "openalex",.cursor),(js "pubmed",.offset),(js "stackoverflow",.page),
    (js "datacite",.cursor),(js "ror",.pageOffset),(js "gdelt",.unsupported),(js "wikipedia",.unsupported),
    (js "wikidata",.continuation),(js "arxiv",.offset),(js "crossref",.offset),(js "hackernews",.page)].lookup source

def buildAdapterEnvelope (request : NorthstarRequest) (source backend : JsString) (rows : ParsedRows) (error : Option NorthstarError)
    (limit : Nat) (hasMore : Bool) (nextCursor : Option JsString) (supported : Bool) : NorthstarResult :=
  buildNorthstarResult request [{ source, backend, entities := rows.entities, invalid := rows.invalid, error }] supported limit
    hasMore nextCursor []

def rejectedInputEnvelope (request : NorthstarRequest) (source backend message : JsString) (limit : Nat) : NorthstarResult :=
  buildAdapterEnvelope request source backend ⟨[],0⟩ (some { code := .invalidInput, message, retryable := false }) limit false none
    (researchSourcePagination source ≠ some .unsupported)

def cursorErrorEnvelope (request : NorthstarRequest) (source backend : JsString) (limit : Nat) (error : NorthstarError) :
    NorthstarResult :=
  buildNorthstarResult request [{ source, backend, error := some error }]
    (researchSourcePagination source ≠ some .unsupported && error.code ≠ .paginationNotSupported) limit false none []

inductive FilterField where
  | author
  | doi
  | venue
  deriving DecidableEq, Repr

def FilterField.name : FilterField → String
  | author => "author"
  | doi => "doi"
  | venue => "venue"

def NormalizedResearchInput.filter (input : NormalizedResearchInput) : FilterField → Option JsString
  | .author => input.author
  | .doi => input.doi
  | .venue => input.venue

structure OffsetAdapter where
  source : String
  backend : String
  service : String
  unsupported : List FilterField
  key : String
  cap : Nat

/- What is made of the provider's answer at an offset. -/
structure Answer where
  rows : ParsedRows
  error : Option NorthstarError := none
  next : Option Nat := none

/- The offset a provider was asked for and the envelope, or the message of what was thrown. -/
structure Page where
  asked : Option Nat
  result : Except JsString NorthstarResult

def Answer.failed (error : NorthstarError) : Answer := { rows := ⟨[],0⟩, error := some error }

namespace OffsetAdapter
variable (codec : Codec) (a : OffsetAdapter)

def bound (input : NormalizedResearchInput) : CursorBinding := ⟨js a.source,input.query,input.yearFrom⟩

def cursorFor (input : NormalizedResearchInput) (offset : Nat) : JsString :=
  encodeResultCursor codec (a.bound input) [(js a.key,.number (.int offset))]

def refused (input : NormalizedResearchInput) : Option FilterField := a.unsupported.find? fun field => (input.filter field).isSome

/- The offset of a cursor, or the envelope that turns it away. -/
def offsetOf (req : NorthstarRequest) (input : NormalizedResearchInput) : Option JsString → Except NorthstarResult Nat
  | none => .ok 0
  | some cursor => match decodeCursorState codec cursor (a.bound input) with
    | .error error => .error (cursorErrorEnvelope req (js a.source) (js a.backend) input.limit error)
    | .ok state => match cursorNumber state (js a.key) 0 a.cap with
      | .error message => .error (rejectedInputEnvelope req (js a.source) (js a.backend) message input.limit)
      | .ok offset => .ok offset

def answered (req : NorthstarRequest) (input : NormalizedResearchInput) (answer : Answer) : NorthstarResult :=
  buildAdapterEnvelope req (js a.source) (js a.backend) answer.rows answer.error input.limit answer.next.isSome
    (answer.next.map (a.cursorFor codec input)) true

def search (ask : NormalizedResearchInput → Nat → Except JsString Answer) (context : ResearchAdapterContext)
    (request : ResearchAdapterRequest) : Page :=
  let req := researchRequestV1 (js a.source) context
  match normalizeResearchInput request with
  | .error message => ⟨none,.ok (rejectedInputEnvelope req (js a.source) (js a.backend) message 10)⟩
  | .ok input => match a.refused input with
    | some field => ⟨none,.ok (rejectedInputEnvelope req (js a.source) (js a.backend)
        (js a.service ++ js " does not support the \"" ++ js field.name ++ js "\" filter.") input.limit)⟩
    | none => match a.offsetOf codec req input request.cursor with
      | .error result => ⟨none,.ok result⟩
      | .ok offset =>
          if request.aborted then ⟨none,.error (js "aborted")⟩
          else ⟨some offset,(ask input offset).map (a.answered codec req input)⟩

end OffsetAdapter
end Northstar.Research
