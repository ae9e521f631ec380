import Mathlib.Data.List.Perm.Basic
import Northstar.Gathering
import Northstar.Agent.Evidence

/-! The research state (agent-state.ts): what it admits as evidence and under which id, its
questions and its ledger of queries. Source references, locators and question ids arrive
unchecked, so they are JavaScript values here. -/
namespace Northstar.Agent.State

/- The tables of Unicode beside the rest of the platform. -/
structure Tables extends Platform where
  nfkc : JsString → JsString
  /- `\p{L}` or `\p{N}`, of one code point. -/
  letterOrNumber : JsString → Bool

def maxEvidence : Nat := 256
def agentEvidenceExcerptMaxBytes : Nat := 4096
def maxQueries : Nat := 128
def maxQueryBytes : Nat := 2048
def agentIdentityProviderMaxBytes : Nat := 64
def agentIdentityNodeIdMaxBytes : Nat := 256
def agentRefMaxBytes : Nat := 256
def agentKgFieldMaxBytes : Nat := 128
def maxQuestions : Nat := 64
def maxQuestionBytes : Nat := 2048

/- Fingerprints. -/
def tokensFrom (p : Tables) : JsString → List JsString → List JsString
  | word, [] => if word = [] then [] else [word]
  | word, point :: rest =>
      if p.letterOrNumber point then tokensFrom p (word ++ point) rest
      else if word = [] then tokensFrom p [] rest
      else word :: tokensFrom p [] rest

def normalizedTokens (p : Tables) (text : JsString) : List JsString :=
  tokensFrom p [] (points (p.nfkc (p.toLowerCase text)))

/- `\s+` replaced by one blank. -/
def collapseBlanks : Bool → JsString → JsString
  | _, [] => []
  | inside, u :: rest =>
      if whiteSpace u then if inside then collapseBlanks true rest else 32 :: collapseBlanks true rest
      else u :: collapseBlanks false rest

def tokenBigrams (p : Tables) (text : JsString) : List JsString := match normalizedTokens p text with
  | [] => [trim (collapseBlanks false (p.nfkc (p.toLowerCase text)))]
  | [token] => [token]
  | first :: rest => ((first :: rest).zipWith (fun a b => a ++ [32] ++ b) rest).eraseDups

def ascending (ids : List JsString) : List JsString := ids.mergeSort fun a b => !decide (b < a)

def corroboratingFingerprint (p : Tables) (excerpt : JsString) : JsString :=
  (p.sha256hex ([10].intercalate (ascending (tokenBigrams p excerpt)))).take 16

/- Question ids. -/
def hexUnits (s : JsString) : Bool := s ≠ [] && s.all fun u => digitUnit u || (97 ≤ u && u ≤ 102)

/- `^(?:q|rf)-[0-9a-f]+$` -/
def isQuestionId : JsString → Bool
  | 113 :: 45 :: rest => hexUnits rest
  | 114 :: 102 :: 45 :: rest => hexUnits rest
  | _ => false

def sanitizeQuestionIds : JsValue → List JsString
  | .array ids => ((ids.filterMap JsValue.asString).filter isQuestionId).eraseDups.take maxQuestions
  | _ => []

/- Sources and locators. -/
structure StructuredSource where
  provider : JsString
  query : JsString
  nodeId : Option JsString
  deriving DecidableEq, Repr

inductive CheckedIdentity where
  | url (url : JsString)
  | structured (source : StructuredSource)
  deriving DecidableEq, Repr

inductive AgentLocator where
  | range (first last : Nat)
  | page (page : Nat)
  | line (line : Nat)
  | timestamp (timestamp : Number)
  | ref (ref : JsString)
  | kg (nodeId field : JsString)
  deriving DecidableEq, Repr

structure EvidenceSource where
  identity : CheckedIdentity
  responseId : Option JsString
  sourceClass : SourceClass
  acquisitionRoute : AcquisitionRoute
  deriving DecidableEq, Repr

/- An entry of admittedEvidence; its status is `admitted`. -/
structure Entry where
  id : JsString
  source : EvidenceSource
  documentHash : JsString
  locator : AgentLocator
  excerpt : JsString
  excerptHash : JsString
  questionIds : List JsString
  round : Nat
  corroboratingFingerprint : JsString
  deriving DecidableEq, Repr

/- A source reference that is an object. -/
structure SourceRefInput where
  canonicalUrl : JsValue
  identity : JsValue
  responseId : Option JsString
  sourceClass : SourceClass
  acquisitionRoute : JsValue

structure AgentEvidenceInput where
  sourceRef : Option SourceRefInput
  documentHash : JsString
  locator : JsValue
  contentLength : Option Nat
  excerpt : JsString
  questionIds : JsValue
  round : Nat
  status : JsString

def lowerAscii (u : UInt16) : UInt16 := if 65 ≤ u && u ≤ 90 then u + 32 else u

/- `^https?:\/\/`, of any case. -/
def isHttpUrl (s : JsString) : Bool :=
  (js "http://").isPrefixOf (s.map lowerAscii) || (js "https://").isPrefixOf (s.map lowerAscii)

def isRecord : JsValue → Bool
  | .object _ => true
  | _ => false

/- The trimmed text of a field, empty where it holds none. -/
def textOf (v : JsValue) : JsString := trim (v.asString.getD [])

def withinBytes (text : JsString) (bound : Nat) : Bool := text ≠ [] && byteLength text ≤ bound

def checkStructured (raw : JsValue) : Except String CheckedIdentity :=
  let provider := textOf (raw.get "provider")
  let query := textOf (raw.get "query")
  if !isRecord raw then .error "invalid structured identity"
  else if !withinBytes provider agentIdentityProviderMaxBytes then .error "invalid structured identity provider"
  else if !withinBytes query maxQueryBytes then .error "invalid structured identity query"
  else match raw.get "nodeId" with
    | .undefined => .ok (.structured ⟨provider,query,none⟩)
    | node =>
        if !withinBytes (textOf node) agentIdentityNodeIdMaxBytes then .error "invalid structured identity nodeId"
        else .ok (.structured ⟨provider,query,some (textOf node)⟩)

def oneIdentity : String := "source identity must be exactly one of canonicalUrl or structured identity"

def checkSourceIdentity (p : Tables) (sourceRef : Option SourceRefInput) : Except String CheckedIdentity :=
  match sourceRef with
  | none => .error oneIdentity
  | some ref => match ref.identity with
      | .undefined =>
          if textOf ref.canonicalUrl = [] then .error oneIdentity
          else
            let url := normalizeUrl p.toPlatform (ref.canonicalUrl.asString.getD [])
            if !isHttpUrl url then .error "canonicalUrl must be an http(s) URL" else .ok (.url url)
      | raw => if textOf ref.canonicalUrl ≠ [] then .error oneIdentity else checkStructured raw

def natural : JsValue → Option Nat
  | .number (.int value) => if 0 ≤ value then some value.toNat else none
  | _ => none

/- A number no less than zero. -/
def notNegative : JsValue → Option Number
  | .number (.int value) => if 0 ≤ value then some (.int value) else none
  | .number (.float digits) => if digits.startsWith "-" then none else some (.float digits)
  | _ => none

/- A text that is not blank, as it is, within a bound. -/
def boundedText (v : JsValue) (bound : Nat) : Option JsString :=
  v.asString.filter fun text => trim text ≠ [] && byteLength text ≤ bound

def mismatch : String := "locator does not match excerpt length"

def checkRange (locator : JsValue) (excerpt : JsString) (contentLength : Option Nat) : Except String AgentLocator :=
  match natural (locator.get "start"), natural (locator.get "end") with
  | some first, some last =>
      if last ≤ first || contentLength.any (· < last) then .error "invalid locator"
      else if last - first ≠ excerpt.length then .error mismatch
      else .ok (.range first last)
  | _, _ => .error "invalid locator"

/- A locator that has one of the keys has to have all of them and no other. -/
def checkLocator (locator : JsValue) (excerpt : JsString) (contentLength : Option Nat) : Except String AgentLocator :=
  match locator with
  | .object fields =>
      let keys := fields.map (·.1)
      let has (key : String) : Bool := keys.contains (js key)
      let exact (wanted : List String) : Bool := keys.length = wanted.length && wanted.all has
      let checked (found : Option AgentLocator) : Except String AgentLocator := match found with
        | some locator => .ok locator
        | none => .error "invalid locator"
      if has "start" || has "end" then
        if exact ["start","end"] then checkRange locator excerpt contentLength else .error "invalid locator"
      else if has "page" then
        checked (if exact ["page"] then (natural (locator.get "page")).map .page else none)
      else if has "line" then
        checked (if exact ["line"] then (natural (locator.get "line")).map .line else none)
      else if has "timestamp" then
        checked (if exact ["timestamp"] then (notNegative (locator.get "timestamp")).map .timestamp else none)
      else if has "ref" then
        checked (if exact ["ref"] then (boundedText (locator.get "ref") agentRefMaxBytes).map .ref else none)
      else if has "nodeId" || has "field" then
        checked (if exact ["nodeId","field"] then do
          let nodeId ← boundedText (locator.get "nodeId") agentIdentityNodeIdMaxBytes
          let field ← boundedText (locator.get "field") agentKgFieldMaxBytes
          return .kg nodeId field
        else none)
      else .error "invalid locator"
  | _ => .error "invalid locator"

/- Agent acquisition routes by name; an unknown one is refused. -/
def agentAcquisitionRoutes : List (String × AcquisitionRoute) :=
  [("search",.search),("fetch",.fetch),("report-suggested-fetch",.reportSuggestedFetch),("research",.research),
    ("github",.github),("social",.social),("video",.video),("kg",.kg)]

def routeOf (v : JsValue) : Option AcquisitionRoute :=
  v.asString.bind fun name => (agentAcquisitionRoutes.find? fun known => js known.1 = name).map (·.2)

def AgentLocator.isRange : AgentLocator → Bool
  | .range _ _ => true
  | _ => false

/- Evidence ids. The id is the hash of what stands between NULs, with the excerpt's hash behind it. -/
def identityFields : CheckedIdentity → List JsString
  | .url url => [url]
  | .structured source => [js "structured-identity",source.provider,source.query,source.nodeId.getD []]

def locatorFields : AgentLocator → List JsString
  | .range _ _ => []
  | .page page => [js "locator",js "page",js (toString page)]
  | .line line => [js "locator",js "line",js (toString line)]
  | .timestamp timestamp => [js "locator",js "timestamp",timestamp.script]
  | .ref ref => [js "locator",js "ref",ref]
  | .kg nodeId field => [js "locator",js "kg",nodeId,field]

def identityPart (identity : CheckedIdentity) (locator : AgentLocator) : JsString :=
  [0].intercalate (identityFields identity ++ locatorFields locator)

def evidenceId (p : Tables) (identity : CheckedIdentity) (locator : AgentLocator) (excerpt : JsString) : JsString :=
  js "ev-" ++ p.sha256hex (identityPart identity locator ++ p.sha256hex excerpt)

/- The content checks of addEvidence, and the entry the input makes where there is none of its id. -/
def checkEvidence (p : Tables) (input : AgentEvidenceInput) : Except String Entry := do
  if trim input.excerpt = [] then throw "excerpt is empty"
  if agentEvidenceExcerptMaxBytes < byteLength input.excerpt then throw "excerpt exceeds maximum bytes"
  if trim input.documentHash = [] then throw "documentHash is required"
  let identity ← checkSourceIdentity p input.sourceRef
  match input.sourceRef, input.sourceRef.bind fun ref => routeOf ref.acquisitionRoute with
  | some ref, some route =>
      let locator ← checkLocator input.locator input.excerpt input.contentLength
      if (route = .fetch || route = .reportSuggestedFetch) && !locator.isRange then throw "invalid locator"
      if !(["admitted","rejected","superseded"].map js).contains input.status then throw "unknown status"
      if input.status ≠ js "admitted" then throw "evidence status is not admitted"
      return {
        id := evidenceId p identity locator input.excerpt
        source := ⟨identity,ref.responseId,ref.sourceClass,route⟩
        documentHash := input.documentHash
        locator := locator
        excerpt := input.excerpt
        excerptHash := p.sha256hex input.excerpt
        questionIds := sanitizeQuestionIds input.questionIds
        round := input.round
        corroboratingFingerprint := corroboratingFingerprint p input.excerpt }
  | _, _ => throw "unknown acquisition route"

/- The ids an entry gains from an offer of the same content. -/
def gained (held offered : List JsString) : List JsString :=
  (ascending (offered.filter fun id => !held.contains id)).take (maxQuestions - held.length)

def unionIds (held offered : List JsString) : List JsString :=
  if gained held offered = [] then held else ascending (held ++ gained held offered)

def mergeEntry (existing offered : Entry) : Entry :=
  { existing with questionIds := unionIds existing.questionIds offered.questionIds }

inductive QuestionStatus where
  | «open» | answered | grounded | blocked | abandoned
  deriving DecidableEq, Repr

structure AgentQuestion where
  id : JsString
  question : JsString
  priority : Number
  required : Bool
  status : QuestionStatus
  groundedBy : Option (List JsString)
  deriving DecidableEq, Repr

structure AgentQuery where
  query : JsString
  questionId : Option JsString
  route : JsString
  identityKey : JsString
  deriving DecidableEq, Repr

structure AgentState where
  goal : JsString
  admittedEvidence : List Entry
  questions : List AgentQuestion
  queries : List AgentQuery
  distinct : (admittedEvidence.map (·.id)).Nodup

def createAgentState (goal : JsString) : AgentState := ⟨goal,[],[],[],List.nodup_nil⟩

inductive Admission where
  | stored (entry : Entry) (mergedQuestions : Option (List JsString))
  | rejected (reason : String)
  deriving DecidableEq, Repr

def admitEntry (entries : List Entry) (entry : Entry) : List Entry := gather Entry.id mergeEntry entry entries

theorem mergedId (existing offered : Entry) : (mergeEntry existing offered).id = existing.id := rfl

theorem admitDistinct {entries : List Entry} (h : (entries.map (·.id)).Nodup) (entry : Entry) :
    ((admitEntry entries entry).map (·.id)).Nodup := gatherDistinct mergedId h entry

def AgentState.admitEntry (s : AgentState) (entry : Entry) : AgentState :=
  { s with
    admittedEvidence := State.admitEntry s.admittedEvidence entry
    distinct := admitDistinct s.distinct entry }

/- The cap does not stand in the way of a merge. -/
def addEvidence (p : Tables) (s : AgentState) (input : AgentEvidenceInput) : AgentState × Admission :=
  match checkEvidence p input with
  | .error reason => (s,.rejected reason)
  | .ok entry => match s.admittedEvidence.find? fun other => other.id = entry.id with
      | some existing =>
          let kept := gained existing.questionIds entry.questionIds
          (s.admitEntry entry,.stored (mergeEntry existing entry) (if kept = [] then none else some kept))
      | none =>
          if s.admittedEvidence.length ≥ maxEvidence then (s,.rejected "evidence limit reached")
          else (s.admitEntry entry,.stored entry none)

/- Questions. -/
def questionId (p : Tables) (question : JsString) : JsString :=
  js "q-" ++ (p.sha256hex (p.toLowerCase (trim question))).take 12

inductive Outcome (α : Type) where
  | accepted (value : α)
  | rejected (reason : String)
  deriving DecidableEq, Repr

structure QuestionInput where
  question : JsString
  priority : Option Number
  required : Option Bool

def addQuestion (p : Tables) (s : AgentState) (input : QuestionInput) : AgentState × Outcome AgentQuestion :=
  let id := questionId p input.question
  if trim input.question = [] then (s,.rejected "question is required")
  else if maxQuestionBytes < byteLength input.question then (s,.rejected "question exceeds maximum bytes")
  else if s.questions.length ≥ maxQuestions then (s,.rejected "question limit reached")
  else if s.questions.any fun q => q.id = id then (s,.rejected "duplicate question")
  else
    let entry : AgentQuestion := ⟨id,input.question,input.priority.getD (.int 1),input.required.getD true,.open,none⟩
    ({ s with questions := s.questions ++ [entry] },.accepted entry)

/- A range is never empty, so an admitted id is a good one. -/
def goodEvidence (s : AgentState) (id : JsString) : Bool :=
  (s.admittedEvidence.find? fun entry => entry.id = id).any fun entry => match entry.locator with
    | .range first last => first < last
    | _ => true

/- The first question of an id is the one that is written. -/
def onFirst (id : JsString) (f : AgentQuestion → AgentQuestion) : List AgentQuestion → List AgentQuestion
  | [] => []
  | q :: rest => if q.id = id then f q :: rest else q :: onFirst id f rest

def promoteToGrounded (s : AgentState) (id : JsString) (evidenceIds : List JsString) : AgentState × Outcome Unit :=
  if !s.questions.any fun q => q.id = id then (s,.rejected "unknown question id")
  else if evidenceIds = [] then (s,.rejected "evidenceIds must be non-empty")
  else if !evidenceIds.all (goodEvidence s) then (s,.rejected "evidence id is not admitted")
  else ({ s with questions := onFirst id (fun q => { q with status := .grounded, groundedBy := some evidenceIds }) s.questions },
    .accepted ())

/- Queries. -/
structure QueryInput where
  query : JsString
  questionId : Option JsString
  route : JsString
  deriving DecidableEq, Repr

def identity (p : Tables) (input : QueryInput) : JsString :=
  p.toLowerCase (trim input.query) ++ [0] ++ p.toLowerCase (trim input.route) ++ [0] ++ input.questionId.getD (js "root")

def recordQuery (p : Tables) (s : AgentState) (input : QueryInput) : AgentState × Outcome AgentQuery :=
  let entry : AgentQuery := ⟨input.query,input.questionId,input.route,identity p input⟩
  if trim input.query = [] ∨ trim input.route = [] then (s,.rejected "query and route are required")
  else if maxQueryBytes < byteLength input.query then (s,.rejected "query exceeds maximum bytes")
  else if s.queries.length ≥ maxQueries then (s,.rejected "query limit reached")
  else if s.queries.any fun q => q.identityKey = entry.identityKey then (s,.rejected "exact duplicate query")
  else ({ s with queries := s.queries ++ [entry] },.accepted entry)

def hasExactDuplicate (p : Tables) (s : AgentState) (input : QueryInput) : Bool :=
  s.queries.any fun q => q.identityKey = identity p input

end Northstar.Agent.State
