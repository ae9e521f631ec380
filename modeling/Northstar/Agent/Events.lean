import Northstar.Canonical
import Northstar.Agent.Jobs
import Northstar.Agent.State

/-! The event journal of a job (agent-events.ts): what an event may look like, what is appended, what a replay
of it shows, and when it can be replayed. -/
namespace Northstar.Agent
open AgentJobs (jobIdShape)
open State (boundedText hexUnits isHttpUrl isQuestionId isRecord natural notNegative)

def maxJournalBytes : Nat := 256 * 1024
def agentEventQueryMaxBytes : Nat := 512
def agentEventUrlMaxBytes : Nat := 2048
def stopReasonMaxBytes : Nat := 512
def eventIdentityProviderMaxBytes : Nat := 64
def eventIdentityNodeIdMaxBytes : Nat := 256
def eventKgFieldMaxBytes : Nat := 128
def eventRefMaxBytes : Nat := 256

inductive AgentEventType where
  | jobCreated
  | planAccepted
  | searchCompleted
  | fetchCompleted
  | evidenceAdmitted
  | evaluationAccepted
  | candidatesAccumulated
  | roundClosed
  | synthesisCompleted
  | verificationCompleted
  | jobReady
  deriving DecidableEq

namespace AgentEventType

def all : List AgentEventType :=
  [.jobCreated,.planAccepted,.searchCompleted,.fetchCompleted,.evidenceAdmitted,.evaluationAccepted,.candidatesAccumulated,
    .roundClosed,.synthesisCompleted,.verificationCompleted,.jobReady]

def name : AgentEventType → String
  | .jobCreated => "JobCreated"
  | .planAccepted => "PlanAccepted"
  | .searchCompleted => "SearchCompleted"
  | .fetchCompleted => "FetchCompleted"
  | .evidenceAdmitted => "EvidenceAdmitted"
  | .evaluationAccepted => "EvaluationAccepted"
  | .candidatesAccumulated => "CandidatesAccumulated"
  | .roundClosed => "RoundClosed"
  | .synthesisCompleted => "SynthesisCompleted"
  | .verificationCompleted => "VerificationCompleted"
  | .jobReady => "JobReady"

def eventKeys : AgentEventType → List String
  | .jobCreated => ["type","jobId","query","createdAtMs"]
  | .planAccepted => ["type","jobId","questionsTotal","questionIds","scopeNoteCount"]
  | .searchCompleted => ["type","jobId","round","query","hitCount","searchesUsed","failed"]
  | .fetchCompleted => ["type","jobId","round","canonicalUrl","byteLength","fetchesUsed","failed"]
  | .evidenceAdmitted =>
      ["type","jobId","evidenceId","round","questionIds","excerptHash","fingerprint","canonicalUrl","identity","locator"]
  | .evaluationAccepted => ["type","jobId","round","answeredCount","nextQueryCount","droppedNextQueries"]
  | .candidatesAccumulated => ["type","jobId","round","added","dropped"]
  | .roundClosed => ["type","jobId","round","growthCount","conflictsCount","stopReason"]
  | .synthesisCompleted => ["type","jobId","claimUnitCount","blockCount","orphanedCount"]
  | .verificationCompleted =>
      ["type","jobId","supportedCount","refutedCount","unsupportedCount","repairApplied","repairRejected"]
  | .jobReady => ["type","jobId","resultByteLength","warningCount"]

def optionalKeys : AgentEventType → List String
  | .roundClosed => ["stopReason"]
  | .fetchCompleted => ["failed"]
  | .searchCompleted => ["failed"]
  | .evidenceAdmitted => ["canonicalUrl","identity","locator"]
  | _ => []

end AgentEventType

def keysOf : JsValue → List JsString
  | .object fields => fields.map (·.1)
  | _ => []

def hasKey (value : JsValue) (key : String) : Bool := (keysOf value).contains (js key)

/- `^ev-[0-9a-f]+$` -/
def isEvidenceId : JsString → Bool
  | 101 :: 118 :: 45 :: rest => hexUnits rest
  | _ => false

/- `^[0-9a-f]{8,128}$` -/
def isHexHash (s : JsString) : Bool := 8 ≤ s.length && s.length ≤ 128 && hexUnits s

def absent : JsValue → Bool
  | .undefined => true
  | _ => false

def isBoolean : JsValue → Bool
  | .bool _ => true
  | _ => false

def issueWhen (broken : Bool) (reason : JsString) : Option JsString := if broken then some reason else none

def invalid (field : String) : JsString := js "invalid " ++ js field

def needCount (value : JsValue) (field : String) : Option JsString :=
  issueWhen (natural (value.get field)).isNone (invalid field)

def needQuery (value : JsValue) (field : String) : Option JsString := match (value.get field).asString with
  | none => some (invalid field)
  | some entry =>
      if trim entry = [] then some (invalid field)
      else issueWhen (agentEventQueryMaxBytes < byteLength entry) (js field ++ js " exceeds maximum bytes")

def questionIdList : JsValue → Option (List JsString)
  | .array ids => ids.mapM fun id => id.asString.filter isQuestionId
  | _ => none

def needFlag (value : JsValue) (field : String) : Option JsString :=
  issueWhen (!absent (value.get field) && !isBoolean (value.get field)) (invalid field)

def needUrl (value : JsValue) : Option JsString := match (value.get "canonicalUrl").asString with
  | none => some (invalid "canonicalUrl")
  | some url =>
      if !isHttpUrl url then some (invalid "canonicalUrl")
      else issueWhen (agentEventUrlMaxBytes < byteLength url) (js "canonicalUrl exceeds maximum bytes")

def needShape (value : JsValue) (field : String) (shape : JsString → Bool) : Option JsString :=
  issueWhen (!(value.get field).asString.any shape) (invalid field)

def checkIdentity (identity : JsValue) : Option JsString :=
  issueWhen (!isRecord identity ||
    !(keysOf identity).all (fun key => key = js "provider" || key = js "query" || key = js "nodeId") ||
    (boundedText (identity.get "provider") eventIdentityProviderMaxBytes).isNone ||
    (boundedText (identity.get "query") agentEventQueryMaxBytes).isNone ||
    (!absent (identity.get "nodeId") && (boundedText (identity.get "nodeId") eventIdentityNodeIdMaxBytes).isNone))
    (invalid "identity")

/- An http(s) source without an identity, or the empty source with one; neither where both are missing. -/
def checkEvidenceSource (canonicalUrl identity : JsValue) : Option JsString :=
  if absent canonicalUrl && absent identity then none
  else match canonicalUrl.asString with
    | none => some (invalid "canonicalUrl")
    | some [] => checkIdentity identity
    | some url =>
        if !isHttpUrl url then some (invalid "canonicalUrl")
        else if agentEventUrlMaxBytes < byteLength url then some (js "canonicalUrl exceeds maximum bytes")
        else issueWhen (!absent identity) (js "identity must be absent with a URL source")

def checkEvidenceLocator (locator : JsValue) : Option JsString :=
  let exact (wanted : List String) : Bool := (keysOf locator).length = wanted.length && wanted.all (hasKey locator)
  let has (key : String) : Bool := hasKey locator key
  let counted (key : String) : Bool := exact [key] && (natural (locator.get key)).isSome
  let sound : Bool :=
    if !isRecord locator then false
    else if has "nodeId" || has "field" then
      exact ["nodeId","field"] && (boundedText (locator.get "nodeId") eventIdentityNodeIdMaxBytes).isSome &&
        (boundedText (locator.get "field") eventKgFieldMaxBytes).isSome
    else if has "start" || has "end" then
      exact ["start","end"] &&
        (natural (locator.get "start")).any fun start => (natural (locator.get "end")).any fun end_ => start < end_
    else if has "page" then counted "page"
    else if has "line" then counted "line"
    else if has "timestamp" then exact ["timestamp"] && (notNegative (locator.get "timestamp")).isSome
    else if has "ref" then exact ["ref"] && (boundedText (locator.get "ref") eventRefMaxBytes).isSome
    else false
  issueWhen (!absent locator && !sound) (invalid "locator")

def needQuestions (value : JsValue) : Option JsString :=
  issueWhen (questionIdList (value.get "questionIds")).isNone (invalid "questionIds")

/- The checks of each type, in the order in which they are made. -/
def typeChecks (value : JsValue) : AgentEventType → List (Option JsString)
  | .jobCreated => [needQuery value "query",needCount value "createdAtMs"]
  | .planAccepted => [needCount value "questionsTotal",needCount value "scopeNoteCount",needQuestions value,
      issueWhen ((questionIdList (value.get "questionIds")).map List.length ≠ natural (value.get "questionsTotal"))
        (js "questionsTotal does not match questionIds length")]
  | .searchCompleted => [needQuery value "query",needCount value "round",needCount value "hitCount",
      needCount value "searchesUsed",needFlag value "failed"]
  | .fetchCompleted => [needCount value "round",needCount value "byteLength",needCount value "fetchesUsed",
      needUrl value,needFlag value "failed"]
  | .evidenceAdmitted => [needShape value "evidenceId" isEvidenceId,needCount value "round",needQuestions value,
      needShape value "excerptHash" isHexHash,needShape value "fingerprint" isHexHash,
      checkEvidenceSource (value.get "canonicalUrl") (value.get "identity"),checkEvidenceLocator (value.get "locator")]
  | .evaluationAccepted => ["round","answeredCount","nextQueryCount","droppedNextQueries"].map (needCount value)
  | .candidatesAccumulated => ["round","added","dropped"].map (needCount value)
  | .roundClosed => [needCount value "round",needCount value "growthCount",needCount value "conflictsCount",
      issueWhen (!absent (value.get "stopReason") && (boundedText (value.get "stopReason") stopReasonMaxBytes).isNone)
        (invalid "stopReason")]
  | .synthesisCompleted => ["claimUnitCount","blockCount","orphanedCount"].map (needCount value)
  | .verificationCompleted =>
      ["supportedCount","refutedCount","unsupportedCount","repairApplied","repairRejected"].map (needCount value)
  | .jobReady => ["resultByteLength","warningCount"].map (needCount value)

def eventType (value : JsValue) : Option AgentEventType :=
  (value.get "type").asString.bind fun name => AgentEventType.all.find? fun type => js type.name = name

/- Why an event is refused: the first thing that is wrong with it. -/
def validateAgentResearchEvent (value : JsValue) : Option JsString :=
  if !isRecord value then some (js "event is not an object")
  else match eventType value with
    | none => some (js "unknown event type")
    | some type =>
        match (keysOf value).find? fun key => !(type.eventKeys.map js).contains key with
        | some key => some (js "unexpected field \"" ++ key ++ js "\"")
        | none => match type.eventKeys.find? fun key => !type.optionalKeys.contains key && !hasKey value key with
            | some key => some (js "missing field \"" ++ js key ++ js "\"")
            | none => (needShape value "jobId" jobIdShape :: typeChecks value type).findSome? id

def jobIdOf (value : JsValue) : Option JsString := (value.get "jobId").asString

def countIn (value : JsValue) (field : String) : Nat := (natural (value.get field)).getD 0

def textIn (value : JsValue) (field : String) : JsString := (value.get field).asString.getD []

def questionsOf (value : JsValue) : List JsString := (questionIdList (value.get "questionIds")).getD []

/- An event as its emitters write it. -/
def eventValue (type : AgentEventType) (jobId : JsString) (fields : List (String × JsValue)) : JsValue :=
  .object ((js "type",.string (js type.name)) :: (js "jobId",.string jobId) :: fields.map fun field => (js field.1,field.2))

/- Canonical bytes for a journal. -/
def serializeJournal (jobId : JsString) (events : List JsValue) : JsString :=
  canonicalJson (.object [(js "jobId",.string jobId),(js "events",.array events)])

structure AgentEventJournal where
  jobId : JsString
  events : List JsValue
  shaped : jobIdShape jobId = true
  valid : ∀ event ∈ events, validateAgentResearchEvent event = none ∧ jobIdOf event = some jobId
  bounded : events = [] ∨ byteLength (serializeJournal jobId events) ≤ maxJournalBytes

def createAgentEventJournal (jobId : JsString) : Except JsString AgentEventJournal :=
  if shaped : jobIdShape jobId = true then .ok ⟨jobId,[],shaped,fun _ member => absurd member List.not_mem_nil,.inl rfl⟩
  else .error (invalid "jobId")

namespace AgentEventJournal

theorem validMore (journal : AgentEventJournal) {event : JsValue} (valid : validateAgentResearchEvent event = none)
    (owned : jobIdOf event = some journal.jobId) :
    ∀ other ∈ journal.events ++ [event], validateAgentResearchEvent other = none ∧ jobIdOf other = some journal.jobId := by
  intro other member
  rcases List.mem_append.mp member with inside | last
  · exact journal.valid other inside
  · rw [List.mem_singleton.mp last]
    exact ⟨valid,owned⟩

def append (journal : AgentEventJournal) (event : JsValue) : Except JsString AgentEventJournal :=
  if valid : validateAgentResearchEvent event = none then
    if owned : jobIdOf event = some journal.jobId then
      if fits : byteLength (serializeJournal journal.jobId (journal.events ++ [event])) ≤ maxJournalBytes then
        .ok ⟨journal.jobId,journal.events ++ [event],journal.shaped,journal.validMore valid owned,.inr fits⟩
      else .error (js "journal byte limit reached")
    else .error (js "event jobId mismatch")
  else .error ((validateAgentResearchEvent event).getD [])

/- The journal after an attempt: what is refused leaves it as it was. -/
def appended (journal : AgentEventJournal) (event : JsValue) : AgentEventJournal :=
  (journal.append event).toOption.getD journal

end AgentEventJournal

structure ProjectedAgentState where
  rounds : Nat
  searchesUsed : Nat
  fetchesUsed : Nat
  evidenceIds : List JsString
  questionIds : List JsString
  answered : Nat
  grounded : Nat
  deriving DecidableEq

def pushId (ids : List JsString) (id : JsString) : List JsString := if ids.contains id then ids else ids ++ [id]

def projectEvent (state : ProjectedAgentState) (event : JsValue) : ProjectedAgentState :=
  let rounds := max state.rounds (countIn event "round")
  match eventType event with
  | some .planAccepted => { state with questionIds := (questionsOf event).foldl pushId state.questionIds }
  | some .searchCompleted => { state with rounds, searchesUsed := max state.searchesUsed (countIn event "searchesUsed") }
  | some .fetchCompleted => { state with rounds, fetchesUsed := max state.fetchesUsed (countIn event "fetchesUsed") }
  | some .evidenceAdmitted => { state with
      rounds
      evidenceIds := pushId state.evidenceIds (textIn event "evidenceId")
      questionIds := (questionsOf event).foldl pushId state.questionIds }
  | some .evaluationAccepted => { state with rounds, answered := countIn event "answeredCount" }
  | some .roundClosed => { state with rounds }
  | some .verificationCompleted => { state with grounded := countIn event "supportedCount" }
  | _ => state

def projectFrom (state : ProjectedAgentState) : List JsValue → Except JsString ProjectedAgentState
  | [] => .ok state
  | raw :: rest =>
      if (validateAgentResearchEvent raw).isSome then .error (js "unknown event type")
      else projectFrom (projectEvent state raw) rest

def projectAgentState (events : List JsValue) : Except JsString ProjectedAgentState := projectFrom ⟨0,0,0,[],[],0,0⟩ events

def roundTypes : List AgentEventType :=
  [.searchCompleted,.fetchCompleted,.evidenceAdmitted,.evaluationAccepted,.candidatesAccumulated,.roundClosed]

/- What an event of one of the types says of a count. -/
def told (types : List AgentEventType) (field : String) (event : JsValue) : Option Nat :=
  if (eventType event).any types.contains then some (countIn event field) else none

def roundOf (event : JsValue) : Option Nat := told roundTypes "round" event

/- The last round and counters a replay has come to. -/
structure Replayed where
  round : Nat
  searches : Nat
  fetches : Nat
  deriving DecidableEq

/- A value that is there may not be below the last one. -/
def risen (last : Nat) (next : Option Nat) : Bool := next.all (last ≤ ·)

def replayEvent (jobId : JsString) (first last : Bool) (seen : Replayed) (raw : JsValue) : Option Replayed :=
  let searches := told [.searchCompleted] "searchesUsed" raw
  let fetches := told [.fetchCompleted] "fetchesUsed" raw
  if (validateAgentResearchEvent raw).isSome || jobIdOf raw ≠ some jobId then none
  else if first && eventType raw ≠ some .jobCreated then none
  else if eventType raw = some .jobReady && !last then none
  else if eventType raw = some .jobCreated && !first then none
  else if risen seen.round (roundOf raw) && risen seen.searches searches && risen seen.fetches fetches then
    some ⟨(roundOf raw).getD seen.round,searches.getD seen.searches,fetches.getD seen.fetches⟩
  else none

def replayFrom (jobId : JsString) (first : Bool) (seen : Replayed) : List JsValue → Bool
  | [] => true
  | raw :: rest => match replayEvent jobId first rest.isEmpty seen raw with
      | none => false
      | some seen => replayFrom jobId false seen rest

def replayable (jobId journalId : JsString) (events : List JsValue) : Bool :=
  jobIdShape jobId && journalId = jobId && !events.isEmpty && replayFrom jobId true ⟨0,0,0⟩ events

/- What a replay needs of a journal, event by event and between any two. -/
structure Replays (jobId : JsString) (events : List JsValue) : Prop where
  valid : ∀ event ∈ events, validateAgentResearchEvent event = none ∧ jobIdOf event = some jobId
  opened : ∃ first rest, events = first :: rest ∧ eventType first = some .jobCreated ∧
    ∀ event ∈ rest, eventType event ≠ some .jobCreated
  ready : ∀ event ∈ events.dropLast, eventType event ≠ some .jobReady
  rounds : (events.filterMap roundOf).Pairwise (· ≤ ·)
  searches : (events.filterMap (told [.searchCompleted] "searchesUsed")).Pairwise (· ≤ ·)
  fetches : (events.filterMap (told [.fetchCompleted] "fetchesUsed")).Pairwise (· ≤ ·)

end Northstar.Agent
