import Northstar.Base64

/-! Results of a research source (result-contract.ts): entities read from a provider's rows, the
envelope around them and the cursors that carry a request on. Numbers of a JSON text are finite,
and the checks of an entity that its type already makes are not written again. -/
namespace Northstar.Research

inductive ResultStatus where
  | ok
  | empty
  | partial_
  | degraded
  | error
  deriving DecidableEq, Repr

inductive NorthstarErrorCode where
  | invalidInput
  | unsupportedAction
  | backendUnavailable
  | backendHttpError
  | rateLimited
  | timeout
  | invalidBackendResponse
  | invalidEntity
  | paginationNotSupported
  deriving DecidableEq, Repr

inductive NorthstarEntityKind where
  | work
  | question
  | organization
  | article
  | socialPost
  | socialComment
  | socialAccount
  | socialThread
  | socialCommunity
  | socialMedia
  | socialRelationship
  | socialEngagement
  | socialTopic
  | socialNotification
  | socialReference
  | profile
  | video
  | feedEntry
  deriving DecidableEq, Repr

structure NorthstarError where
  code : NorthstarErrorCode
  message : JsString
  retryable : Bool
  source : Option JsString := none
  backend : Option JsString := none
  deriving DecidableEq, Repr

structure NorthstarAuthor where
  name : JsString
  id : Option JsString
  deriving DecidableEq, Repr

structure NorthstarEntityMetrics where
  citations : Option Number
  score : Option Number
  comments : Option Number
  views : Option Number
  deriving DecidableEq, Repr

structure NorthstarEntity where
  kind : NorthstarEntityKind
  id : JsString
  source : JsString
  title : JsString
  url : JsString
  snippet : Option JsString
  authors : Option (List NorthstarAuthor)
  year : Option Int
  publishedAt : Option JsString
  venue : Option JsString
  doi : Option JsString
  metrics : Option NorthstarEntityMetrics
  abstract : Option JsString := none
  deriving DecidableEq, Repr

structure NorthstarRequest where
  tool : JsString
  channel : JsString
  action : JsString
  requestedAction : Option JsString
  source : JsString
  deriving DecidableEq, Repr

structure NorthstarPagination where
  supported : Bool
  limit : Nat
  returned : Nat
  hasMore : Bool
  nextCursor : Option JsString
  deriving DecidableEq, Repr

structure NorthstarSourceStatus where
  source : JsString
  backend : JsString
  status : ResultStatus
  count : Nat
  deriving DecidableEq, Repr

structure NorthstarResult where
  status : ResultStatus
  request : NorthstarRequest
  entities : List NorthstarEntity
  pagination : NorthstarPagination
  sources : List NorthstarSourceStatus
  errors : List NorthstarError
  notes : List JsString
  deriving DecidableEq, Repr

def field (value : JsValue) (key : JsString) : JsValue := match value with
  | .object fields => (fields.lookup key).getD .undefined
  | _ => .undefined

def isRecord : JsValue → Bool
  | .object _ => true
  | _ => false

def nonEmptyString (s : JsString) : Bool := (trim s).length > 0

def optionalString : JsValue → Option JsString
  | .string value => if nonEmptyString value then some (trim value) else none
  | _ => none

def optionalInt : JsValue → Option Int
  | .number (.int value) => some value
  | _ => none

def optionalNumber : JsValue → Option Number
  | .number value => some value
  | _ => none

/- `a ?? b`. -/
def coalesce : JsValue → JsValue → JsValue
  | .undefined, other => other
  | .null, other => other
  | value, _ => value

def parseAuthor (entry : JsValue) : Option NorthstarAuthor :=
  match entry.get "name" with
  | .string name => if nonEmptyString name then some ⟨trim name,optionalString (entry.get "id")⟩ else none
  | _ => none

def parseAuthors : JsValue → Option (List NorthstarAuthor)
  | .array items =>
      let authors := items.filterMap parseAuthor
      if authors.length > 0 then some authors else none
  | _ => none

def parseMetrics (value : JsValue) : Option NorthstarEntityMetrics :=
  if isRecord value then
    let metrics : NorthstarEntityMetrics := {
      citations := optionalNumber (value.get "citations")
      score := optionalNumber (value.get "score")
      comments := optionalNumber (value.get "comments")
      views := optionalNumber (value.get "views") }
    if metrics = ⟨none,none,none,none⟩ then none else some metrics
  else none

def maxEntityTextChars : Nat := 8000

def boundedText (value : JsString) : JsString := value.take maxEntityTextChars

def parseEntity (raw : JsValue) (source : JsString) (kind : NorthstarEntityKind) : Except JsString NorthstarEntity :=
  if !isRecord raw then .error (js "row is not an object")
  else match ((optionalString (raw.get "id")).or (optionalString (raw.get "doi"))).or (optionalString (raw.get "permalink")) with
    | none => .error (js "row missing id")
    | some id => match ((optionalString (raw.get "url")).or (optionalString (raw.get "permalink"))).or (optionalString (raw.get "link")) with
      | none => .error (js "row missing url")
      | some url => .ok {
          kind := kind
          id := id.take 512
          source := source
          title := ((raw.get "title").asString.map boundedText).getD []
          url := url.take 2048
          snippet := (optionalString (coalesce (coalesce (raw.get "snippet") (raw.get "abstract")) (raw.get "description"))).map boundedText
          authors := parseAuthors (coalesce (raw.get "authors") (raw.get "author"))
          year := (optionalInt (coalesce (raw.get "year") (raw.get "publicationYear"))).filter fun year => 1000 ≤ year && year ≤ 2200
          publishedAt := optionalString (coalesce (coalesce (raw.get "publishedAt") (raw.get "published_at")) (raw.get "created_utc"))
          venue := (optionalString (raw.get "venue")).map boundedText
          doi := optionalString (raw.get "doi")
          metrics := parseMetrics (coalesce (raw.get "metrics") (.object [(js "citations",raw.get "citations"),
            (js "score",raw.get "score"),(js "comments",raw.get "comments"),(js "views",raw.get "views")])) }

def validateNorthstarEntity (entity : NorthstarEntity) : List JsString :=
  (if nonEmptyString entity.id then [] else [js "id is required"]) ++
  (if nonEmptyString entity.source then [] else [js "source is required"]) ++
  (if nonEmptyString entity.url then [] else [js "url is required"])

structure NorthstarSourceOutcome where
  source : JsString
  backend : JsString
  entities : List NorthstarEntity := []
  invalid : Nat := 0
  error : Option NorthstarError := none
  degraded : Bool := false

def computeStatus (entityCount errorCount invalidCount : Nat) (degraded : Bool) : ResultStatus :=
  if entityCount = 0 ∧ (errorCount > 0 ∨ invalidCount > 0) then .error
  else if entityCount > 0 ∧ (errorCount > 0 ∨ invalidCount > 0) then .partial_
  else if degraded then .degraded
  else if entityCount = 0 then .empty
  else .ok

def NorthstarSourceOutcome.errors (outcome : NorthstarSourceOutcome) : List NorthstarError :=
  (outcome.error.map fun error => { error with source := some outcome.source, backend := some outcome.backend }).toList ++
    if outcome.invalid > 0 then
      [⟨.invalidEntity,js "Dropped " ++ js (toString outcome.invalid) ++ js " malformed row(s) from " ++ outcome.source ++ js ".",
        false,some outcome.source,some outcome.backend⟩]
    else []

def NorthstarSourceOutcome.status (outcome : NorthstarSourceOutcome) : NorthstarSourceStatus :=
  let count := outcome.entities.length
  let hasFailure := outcome.error.isSome || outcome.invalid > 0
  ⟨outcome.source,outcome.backend,
    if hasFailure then if count > 0 then .partial_ else .error
    else if outcome.degraded then .degraded else if count > 0 then .ok else .empty,count⟩

def buildNorthstarResult (request : NorthstarRequest) (outcomes : List NorthstarSourceOutcome) (supported : Bool) (limit : Nat)
    (hasMore : Bool) (nextCursor : Option JsString) (notes : List JsString) : NorthstarResult :=
  let entities := outcomes.flatMap (·.entities)
  let errors := outcomes.flatMap (·.errors)
  { status := computeStatus entities.length errors.length (outcomes.map (·.invalid)).sum (outcomes.any (·.degraded))
    request := request
    entities := entities
    pagination := ⟨supported,limit,entities.length,hasMore,nextCursor⟩
    sources := outcomes.map (·.status)
    errors := errors
    notes := notes }

structure ResultContractError where
  code : NorthstarErrorCode
  message : JsString
  deriving DecidableEq, Repr

abbrev CursorState := List (JsString × JsValue)

/- What a cursor is bound to. -/
structure CursorBinding where
  source : JsString
  query : JsString
  yearFrom : Option Int
  deriving DecidableEq, Repr

/- The digest and the reader of JSON text that Node provides. -/
structure Codec where
  sha256hex : Bytes → JsString
  parse : Bytes → Option JsValue

def maxCursorLength : Nat := 4096

section
variable (codec : Codec)

def queryFingerprint (input : CursorBinding) : JsString :=
  codec.sha256hex (utf8 (input.source ++ js "|" ++ input.query ++ js "|" ++
    ((input.yearFrom.map fun year => js (toString year)).getD [])))

def cursorPayload (source hash : JsString) (state : CursorState) : JsValue :=
  .object [(js "v",.number (.int 1)),(js "source",.string source),(js "queryHash",.string hash),(js "state",.object state)]

def encodeResultCursor (input : CursorBinding) (state : CursorState) : JsString :=
  base64url (utf8 (stringify (cursorPayload input.source (queryFingerprint codec input) state)))

/- `String(value)`. -/
def textOf : JsValue → JsString
  | .undefined => js "undefined"
  | .null => js "null"
  | .bool value => js (toString value)
  | .number value => value.script
  | .string value => value
  | .array items => [44].intercalate (items.attach.map fun item => match item with
      | ⟨.undefined,_⟩ => []
      | ⟨.null,_⟩ => []
      | ⟨value,_⟩ => textOf value)
  | .object _ => js "[object Object]"

def scalar : JsValue → Bool
  | .null => true
  | .bool _ => true
  | .number _ => true
  | .string _ => true
  | _ => false

def decodeResultCursor (cursor : JsString) (expected : CursorBinding) : Except ResultContractError CursorState :=
  if cursor.length = 0 then .error ⟨.invalidInput,js "cursor is required"⟩
  else if cursor.length > maxCursorLength then
    .error ⟨.invalidInput,js "cursor exceeds maximum length of " ++ js (toString maxCursorLength)⟩
  else if expected.source = js "all" then
    .error ⟨.paginationNotSupported,js "Continuation cursors require one exact research source, not \"all\"."⟩
  else match codec.parse (fromBase64url cursor) with
    | none => .error ⟨.invalidInput,js "cursor is not a valid opaque token"⟩
    | some payload => match payload.get "v" with
      | .number (.int 1) =>
          if (payload.get "source").asString ≠ some expected.source then
            .error ⟨.paginationNotSupported,js "cursor was issued for source \"" ++ textOf (payload.get "source") ++
              js "\", not \"" ++ expected.source ++ js "\""⟩
          else if (payload.get "queryHash").asString ≠ some (queryFingerprint codec expected) then
            .error ⟨.invalidInput,js "cursor does not match the current query (source, query, or yearFrom changed)"⟩
          else match payload.get "state" with
            | .object state => match state.find? fun field => !scalar field.2 with
              | some field => .error ⟨.invalidInput,js "cursor state." ++ field.1 ++ js " has an unsupported type"⟩
              | none => .ok state
            | _ => .error ⟨.invalidInput,js "cursor state is invalid"⟩
      | _ => .error ⟨.invalidInput,js "cursor payload is invalid"⟩

end
end Northstar.Research
