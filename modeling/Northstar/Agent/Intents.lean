import Northstar.Agent.State
import Northstar.Agent.Verifier

/-! Gather intents (agent-gather-intents.ts): what a planner or an evaluator may propose, as it is
validated and as the query ledger names it. Each scope of a github intent has the fields of its own. -/
namespace Northstar.Agent.Intents
open State Verifier
open Pattern (opt all)

/- The URL class of the platform, beside its tables. -/
structure Web extends Tables where
  /- `new URL` accepts the text, with a hostname and no credentials. -/
  plainHost : JsString → Bool

inductive SocialPlatform where
  | twitter | reddit | xiaohongshu | facebook | instagram | linkedin | v2ex
  deriving DecidableEq, Repr

def socialPlatforms : List (String × SocialPlatform) :=
  [("twitter",.twitter),("reddit",.reddit),("xiaohongshu",.xiaohongshu),("facebook",.facebook),
    ("instagram",.instagram),("linkedin",.linkedin),("v2ex",.v2ex)]

inductive IssueState where
  | openOnly | closed | everyState
  deriving DecidableEq, Repr

def githubIssueStates : List (String × IssueState) :=
  [("open",.openOnly),("closed",.closed),("all",.everyState)]

inductive EntityType where
  | person | organization
  deriving DecidableEq, Repr

inductive GatherIntent where
  | webSearch (query : JsString) (limit : Option Nat)
  | researchSearch (query : JsString) (source : Option JsString) (yearFrom yearTo limit : Option Nat)
  | githubRepo (query : JsString)
  | githubCode (query : JsString) (repoHint : Option JsString)
  | githubIssues (repoHint : JsString) (state : Option IssueState) (labels : Option (List JsString)) (number : Option Nat)
  | githubFiles (query repoHint : JsString)
  | socialSearch (platform : SocialPlatform) (query : JsString) (sort : Option JsString)
  | videoTranscript (videoHint : JsString)
  | kgLookup (entityType : EntityType) (name url id : Option JsString) (limit : Option Nat)
  | webFetch (url : JsString)
  deriving DecidableEq, Repr

def queryMinBytes : Nat := 8
def queryMaxBytes : Nat := 512
def sourceMaxBytes : Nat := 64
def sortMaxBytes : Nat := 32
def repoHintMaxBytes : Nat := 200
def yearMin : Nat := 1900
def yearMax : Nat := 2100
def webSearchLimitMax : Nat := 20
def researchSearchLimitMax : Nat := 30
def kgLookupLimitMax : Nat := 10
def kgSelectorMaxBytes : Nat := 512
def webFetchUrlMaxBytes : Nat := 512
def githubLabelsMax : Nat := 10
def githubLabelMaxBytes : Nat := 50
def maxSafeInteger : Nat := 9007199254740991

/- Fields of a raw intent; each reads the value it accepts. -/
def textWithin (minBytes maxBytes : Nat) (v : JsValue) : Option JsString :=
  v.asString.filter fun text => trim text = text && minBytes ≤ byteLength text && byteLength text ≤ maxBytes

def intWithin (least most : Nat) (v : JsValue) : Option Nat :=
  (natural v).filter fun value => least ≤ value && value ≤ most

def named {α : Type} (names : List (String × α)) (v : JsValue) : Option α :=
  v.asString.bind fun name => (names.find? fun known => js known.1 = name).map (·.2)

def labelsWithin : JsValue → Option (List JsString)
  | .array items =>
      if items = [] || githubLabelsMax < items.length then none
      else items.mapM fun item =>
        item.asString.filter fun label => 1 ≤ byteLength label && byteLength label ≤ githubLabelMaxBytes
  | _ => none

/- A field that may be left out. -/
def optional {α : Type} (read : JsValue → Option α) : JsValue → Option (Option α)
  | .undefined => some none
  | v => (read v).map some

def absent : JsValue → Bool
  | .undefined => true
  | _ => false

/- Paths. -/
def segmentUnit (u : UInt16) : Bool := wordUnit u || u == 46 || u == 45

def segments (path : JsString) : Bool := (path.splitOn 47).all fun part => part ≠ [] && part.all segmentUnit

/- `^[A-Za-z0-9_.-]+\.[A-Za-z0-9]{1,10}$`: its last dot is the one before the extension. -/
def dottedName (name : JsString) : Bool :=
  let extension := name.reverse.takeWhile (· != 46)
  let stem := name.take (name.length - extension.length - 1)
  extension.length < name.length && 1 ≤ extension.length && extension.length ≤ 10 &&
    extension.all (fun u => letterUnit u || digitUnit u) && stem ≠ [] && stem.all segmentUnit

def isPathLikeQuery (query : JsString) : Bool :=
  if query.any whiteSpace then false
  else match query with
    | 47 :: rest => segments rest
    | _ => if query.contains 47 then segments query else dottedName query

/- Zero-width and bidi formatting. -/
def formatting (u : UInt16) : Bool :=
  (0x200B ≤ u && u ≤ 0x200D) || (0x202A ≤ u && u ≤ 0x202E) || (0x2066 ≤ u && u ≤ 0x2069) || u == 0xFEFF

/- `^https?:\/\/[^/]`, of any case. -/
def hostFollows (url : JsString) : Bool :=
  let scheme := if (js "http://").isPrefixOf (url.map lowerAscii) then 7 else 8
  isHttpUrl url && (url[scheme]?).any (· != 47)

def isFetchUrl (w : Web) (url : JsString) : Bool :=
  !url.any whiteSpace && !url.any formatting && isHttpUrl url && hostFollows url && w.plainHost url &&
    1 ≤ byteLength url && byteLength url ≤ webFetchUrlMaxBytes

inductive IntentValidationReason where
  | unknownIntentKind | invalidIntentShape
  deriving DecidableEq, Repr

def allowedKeys : List (String × List String) := [
  ("web_search",["kind","query","limit"]),
  ("research_search",["kind","query","source","yearFrom","yearTo","limit"]),
  ("github_search",["kind","scope","query","repoHint","state","labels","number"]),
  ("social_search",["kind","platform","query","sort"]),
  ("video_transcript",["kind","videoHint"]),
  ("kg_lookup",["kind","entityType","name","url","id","limit"]),
  ("web_fetch",["kind","url"])]

def readResearch (raw : JsValue) : Option GatherIntent := do
  let query ← textWithin queryMinBytes queryMaxBytes (raw.get "query")
  let source ← optional (textWithin 1 sourceMaxBytes) (raw.get "source")
  let yearFrom ← optional (intWithin yearMin yearMax) (raw.get "yearFrom")
  let yearTo ← optional (intWithin yearMin yearMax) (raw.get "yearTo")
  guard !(yearFrom.any fun first => yearTo.any fun last => last < first)
  let limit ← optional (intWithin 1 researchSearchLimitMax) (raw.get "limit")
  return .researchSearch query source yearFrom yearTo limit

def readIssues (raw : JsValue) : Option GatherIntent := do
  guard (absent (raw.get "query"))
  let repoHint ← textWithin 1 repoHintMaxBytes (raw.get "repoHint")
  let state ← optional (named githubIssueStates) (raw.get "state")
  let labels ← optional labelsWithin (raw.get "labels")
  let number ← optional (intWithin 1 maxSafeInteger) (raw.get "number")
  return .githubIssues repoHint state labels number

/- The scopes with a query: the issue fields are refused, and each has its own use of repoHint. -/
def readGithub (raw : JsValue) (scope : JsString) : Option GatherIntent :=
  if scope = js "issues" then readIssues raw
  else do
    let query ← textWithin queryMinBytes queryMaxBytes (raw.get "query")
    guard (absent (raw.get "state") && absent (raw.get "labels") && absent (raw.get "number"))
    let repoHint ← optional (textWithin 1 repoHintMaxBytes) (raw.get "repoHint")
    if scope = js "repo" then if repoHint.isNone then return .githubRepo query else none
    else if scope = js "code" then return .githubCode query repoHint
    else if scope = js "files" then
      if isPathLikeQuery query then repoHint.map (.githubFiles query) else none
    else none

def readLookup (raw : JsValue) : Option GatherIntent := do
  let entityType ← named [("Person",EntityType.person),("Organization",.organization)] (raw.get "entityType")
  let name ← optional (textWithin 1 kgSelectorMaxBytes) (raw.get "name")
  let url ← optional (textWithin 1 kgSelectorMaxBytes) (raw.get "url")
  let id ← optional (textWithin 1 kgSelectorMaxBytes) (raw.get "id")
  guard (name.isSome || url.isSome || id.isSome)
  let limit ← optional (intWithin 1 kgLookupLimitMax) (raw.get "limit")
  return .kgLookup entityType name url id limit

def readIntent (w : Web) (raw : JsValue) (kind : String) : Option GatherIntent :=
  if kind = "web_search" then do
    let query ← textWithin queryMinBytes queryMaxBytes (raw.get "query")
    let limit ← optional (intWithin 1 webSearchLimitMax) (raw.get "limit")
    return .webSearch query limit
  else if kind = "research_search" then readResearch raw
  else if kind = "github_search" then (raw.get "scope").asString.bind (readGithub raw)
  else if kind = "social_search" then do
    let platform ← named socialPlatforms (raw.get "platform")
    let query ← textWithin queryMinBytes queryMaxBytes (raw.get "query")
    let sort ← optional (textWithin 1 sortMaxBytes) (raw.get "sort")
    return .socialSearch platform query sort
  else if kind = "video_transcript" then
    (textWithin queryMinBytes queryMaxBytes (raw.get "videoHint")).map .videoTranscript
  else if kind = "kg_lookup" then readLookup raw
  else ((raw.get "url").asString.filter (isFetchUrl w)).map .webFetch

def validateGatherIntent (w : Web) (raw : JsValue) : Except IntentValidationReason GatherIntent :=
  match raw with
  | .object fields =>
      match ((JsValue.object fields).get "kind").asString.bind fun name =>
          allowedKeys.find? fun known => js known.1 = name with
      | none => .error .unknownIntentKind
      | some (kind,keys) =>
          if !fields.all fun field => keys.any fun key => js key = field.1 then .error .invalidIntentShape
          else ((readIntent w (.object fields) kind).map .ok).getD (.error .invalidIntentShape)
  | _ => .error .invalidIntentShape

/- The ledger's names. -/
def intentRoute : GatherIntent → JsString
  | .webSearch _ _ => js "web"
  | .researchSearch _ _ _ _ _ => js "research"
  | .githubRepo _ => js "github"
  | .githubCode _ _ => js "github"
  | .githubIssues _ _ _ _ => js "github"
  | .githubFiles _ _ => js "github"
  | .socialSearch _ _ _ => js "social"
  | .videoTranscript _ => js "video"
  | .kgLookup _ _ _ _ _ => js "kg"
  | .webFetch _ => js "web"

def actionSearchText : GatherIntent → JsString
  | .webSearch query _ => query
  | .researchSearch query _ _ _ _ => query
  | .githubRepo query => query
  | .githubCode query _ => query
  | .githubIssues repoHint _ _ number => match number with
      | none => repoHint
      | some number => repoHint ++ [35] ++ js (toString number)
  | .githubFiles query _ => query
  | .socialSearch _ query _ => query
  | .videoTranscript videoHint => videoHint
  | .kgLookup _ name url id _ => ((name.or id).or url).getD []
  | .webFetch url => url

/- Escape sequences and what else a terminal would not show (agent-evaluator.ts). -/
def oscSequence : Literal :=
  all [.either (.seq (the 27) (the 93)) (the 0x9D),.many (.unit fun u => u != 7 && u != 27),
    .either (the 7) (.seq (the 27) (the 92))]

def csiSequence : Literal :=
  all [.either (.seq (the 27) (the 91)) (the 0x9B),.many (.unit fun u => digitUnit u || u == 59),opt (.unit letterUnit)]

def control (u : UInt16) : Bool := u ≤ 0x1F || (0x7F ≤ u && u ≤ 0x9F) || formatting u

def sanitizeEvaluatorQuery (value : JsString) : JsString :=
  let plain := csiSequence.replaceAll [] (oscSequence.replaceAll [] value)
  let oneLine := (Pattern.some (.unit fun u => u == 10 || u == 13)).replaceAll [32] plain
  let visible := oneLine.filter fun u => !control u
  trim ((Pattern.some (.unit fun u => u == 32 || u == 9)).replaceAll [32] visible)

end Northstar.Agent.Intents
