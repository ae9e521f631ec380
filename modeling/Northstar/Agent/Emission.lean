import Mathlib
import Northstar.Agent.Journal
import Northstar.Agent.Intents
import Northstar.Agent.Repair
import Northstar.Separated

/-! What a job writes to its journal (agent-jobs.ts): one event for each search and fetch that was not yet told of, the
plan and the closing counts once, and these as the warnings of the result say them. -/
namespace Northstar.Agent
open AgentEventJournal (appended)
open Contract (AgentResultV1)
open Intents (maxSafeInteger sanitizeEvaluatorQuery)
open State (natural)

structure SearchLogEntry where
  query : JsString
  hitCount : Nat
  failed : Bool

structure FetchLogEntry where
  canonicalUrl : JsString
  byteLength : Nat
  failed : Bool

structure DetailedProgress extends AgentProgressEvent where
  detail : JsValue

def counted (n : Nat) : JsValue := .number (.int n)

def flagged (failed : Bool) : List (String × JsValue) := if failed then [("failed",.bool true)] else []

def journalQueryField (value : JsString) : JsString := truncateUtf8Bytes (sanitizeEvaluatorQuery value) agentEventQueryMaxBytes

namespace AgentEventJournal

def hasType (journal : AgentEventJournal) (type : AgentEventType) : Bool := journal.events.any fun event => eventType event = some type

/- The greatest count that the events of a type tell. -/
def maxCounter (journal : AgentEventJournal) (type : AgentEventType) (field : String) : Nat :=
  (journal.events.filterMap (told [type] field)).foldl max 0

/- The events from one count up to another, where there is one to write. -/
def drain (write : Nat → Option JsValue) (first last : Nat) (journal : AgentEventJournal) : AgentEventJournal :=
  (List.range' first (last - first)).foldl (fun journal k => (write k).elim journal journal.appended) journal

end AgentEventJournal

def searchEvent (jobId : JsString) (round : Nat) (query : JsString) (hitCount k : Nat) (failed : Bool) : JsValue :=
  eventValue .searchCompleted jobId ([("round",counted round),("query",.string query),("hitCount",counted hitCount),
    ("searchesUsed",counted (k + 1))] ++ flagged failed)

def fetchEvent (jobId : JsString) (round k : Nat) (logged : FetchLogEntry) : JsValue :=
  eventValue .fetchCompleted jobId ([("round",counted round),("canonicalUrl",.string logged.canonicalUrl),
    ("byteLength",counted logged.byteLength),("fetchesUsed",counted (k + 1))] ++ flagged logged.failed)

def drainSearches (jobQuery : JsString) (round : Nat) (searches : Option Nat) (log : List SearchLogEntry)
    (journal : AgentEventJournal) : AgentEventJournal := match searches with
  | none => journal
  | some searches => journal.drain (fun k => some (match log[k]? with
      | none => searchEvent journal.jobId round (journalQueryField jobQuery) 0 k false
      | some logged => searchEvent journal.jobId round (journalQueryField logged.query) logged.hitCount k logged.failed))
      (journal.maxCounter .searchCompleted "searchesUsed") (max searches log.length)

def drainFetches (round : Nat) (fetches : Option Nat) (log : List FetchLogEntry) (journal : AgentEventJournal) :
    AgentEventJournal := match fetches with
  | none => journal
  | some fetches => journal.drain (fun k => (log[k]?).map (fetchEvent journal.jobId round k))
      (journal.maxCounter .fetchCompleted "fetchesUsed") fetches

/- The event of one admitted entry, where its fields are there. -/
def evidenceEvent (jobId : JsString) (round : Nat) (entry : JsValue) : Option JsValue :=
  match (entry.get "id").asString, (entry.get "excerptHash").asString, (entry.get "fingerprint").asString, entry.get "questionIds" with
  | some id, some hash, some fingerprint, .array ids => some (eventValue .evidenceAdmitted jobId [("evidenceId",.string id),
      ("round",counted round),("questionIds",.array ids),("excerptHash",.string hash),("fingerprint",.string fingerprint)])
  | _, _, _, _ => none

def emitEvidenceAdmitted (event : DetailedProgress) (round : Nat) (journal : AgentEventJournal) : AgentEventJournal :=
  ((itemsOf (event.detail.get "admittedEvidence")).filterMap (evidenceEvent journal.jobId round)).foldl appended journal

/- `(index + 1).toString(16).padStart(8, '0')` -/
def syntheticId (index : Nat) : JsString :=
  let digits := (Nat.toDigits 16 (index + 1)).flatMap utf16Char
  js "q-" ++ List.replicate (8 - digits.length) 48 ++ digits

def syntheticQuestionIds (total : Nat) : List JsString := (List.range total).map syntheticId

def planIds (detail : JsValue) (total : Nat) : List JsValue :=
  ((asItems (detail.get "planQuestionIds")).filter fun ids => ids.length = total && ids.all fun id => id.asString.isSome).getD
    ((syntheticQuestionIds total).map .string)

def planEvent (jobId : JsString) (event : DetailedProgress) : JsValue :=
  let total := (asCount event.questionsTotal).getD 0
  eventValue .planAccepted jobId [("questionsTotal",counted total),("questionIds",.array (planIds event.detail total)),
    ("scopeNoteCount",counted 0)]

def candidatesEvent (jobId : JsString) (round : Nat) (detail : JsValue) : Option JsValue :=
  match natural (detail.get "candidatesAdded"), natural (detail.get "candidatesDropped") with
  | some added, some dropped =>
      some (eventValue .candidatesAccumulated jobId [("round",counted round),("added",counted added),("dropped",counted dropped)])
  | _, _ => none

/- `value ?? fallback` -/
def given (value : JsValue) (fallback : Nat) : JsValue := match value with
  | .undefined => counted fallback
  | .null => counted fallback
  | value => value

def evaluationEvent (jobId : JsString) (round : Nat) (event : DetailedProgress) : JsValue :=
  eventValue .evaluationAccepted jobId [("round",counted round),
    ("answeredCount",given (event.detail.get "evaluationAnswered") ((asCount event.questionsAnswered).getD 0)),
    ("nextQueryCount",given (event.detail.get "evaluationNextQueries") 0),
    ("droppedNextQueries",given (event.detail.get "evaluationDropped") 0)]

def emitProgressJournal (jobQuery : JsString) (event : DetailedProgress) (searchLog : List SearchLogEntry)
    (fetchLog : List FetchLogEntry) (journal : AgentEventJournal) : AgentEventJournal :=
  let round := (asCount event.round).getD 0
  let drained := drainFetches round (asCount event.fetchesUsed) fetchLog
    (drainSearches jobQuery round (asCount event.searchesUsed) searchLog journal)
  match event.stage with
  | none => journal
  | some .plan => if journal.hasType .planAccepted then journal else journal.appended (planEvent journal.jobId event)
  | some .gather =>
      let admitted := emitEvidenceAdmitted event round drained
      (candidatesEvent journal.jobId round event.detail).elim admitted admitted.appended
  | some .evaluate => emitEvidenceAdmitted event round (drained.appended (evaluationEvent journal.jobId round event))
  | some _ => drained

/- Literals and numbers by turns, as the patterns of the warnings have them: the digits of each number. -/
def readTemplate : List String → JsString → Option (List JsString)
  | [], _ => none
  | [last], text => if text = js last then some [] else none
  | literal :: rest, text =>
      let after := text.drop (js literal).length
      if (js literal).isPrefixOf text && after.takeWhile Json.digit ≠ [] then
        (readTemplate rest (after.dropWhile Json.digit)).map (after.takeWhile Json.digit :: ·)
      else none

def asSafeCount (digits : JsString) : Option Nat := if Json.decimal digits ≤ maxSafeInteger then some (Json.decimal digits) else none

def readCounts (template : List String) (warning : JsString) : Option (List Nat) :=
  (readTemplate template (trim warning)).bind fun digits => digits.mapM asSafeCount

/- The last warning that has the form wins. -/
def parseCounts (template : List String) (warnings : List JsString) : Option (List Nat) :=
  (warnings.filterMap (readCounts template)).getLast?

def synthesisDrops : List String := ["synthesis drops: claimUnits="," blocks="," orphaned=",""]
def verificationTriplet : List String := ["verification: "," supported, "," refuted, "," without enough evidence"]
def repairApplied : List String := ["repair applied: "," claims re-supported"]

def parseSynthesisDropsWarning (warnings : List JsString) : Option (List Nat) := parseCounts synthesisDrops warnings
def parseVerificationWarning (warnings : List JsString) : Option (List Nat) := parseCounts verificationTriplet warnings
def parseRepairAppliedWarning (warnings : List JsString) : Option (List Nat) := parseCounts repairApplied warnings

def orphanedPrefix : JsString := js "synthesis orphaned citations:"

def orphanedCitations (warning : JsString) : Option Nat :=
  let trimmed := trim warning
  if orphanedPrefix.isPrefixOf trimmed then
    some ((trim (trimmed.drop orphanedPrefix.length)).splitOn 44 |>.countP fun part => trim part ≠ [])
  else none

def parseSynthesisOrphanedCitationsWarning (warnings : List JsString) : Option Nat := (warnings.filterMap orphanedCitations).getLast?

def countRepairRejectedWarnings (warnings : List JsString) : Nat := warnings.countP (js "repair rejected").isPrefixOf

def synthesisIrMarker : JsString := js "synthesis from evidence IR"

def synthesisEvent (jobId : JsString) (result : AgentResultV1) : JsValue :=
  let dropped := ((parseSynthesisDropsWarning result.warnings).bind fun counts => counts[2]?).getD 0
  eventValue .synthesisCompleted jobId [("claimUnitCount",counted result.claims.length),
    ("blockCount",counted ((Separated.splitPair 10 10 result.reportText).countP fun part => trim part ≠ [])),
    ("orphanedCount",counted (dropped + (parseSynthesisOrphanedCitationsWarning result.warnings).getD 0))]

def verificationEvent (jobId : JsString) (result : AgentResultV1) (counts : List Nat) : JsValue :=
  eventValue .verificationCompleted jobId [("supportedCount",counted (counts.getD 0 0)),("refutedCount",counted (counts.getD 1 0)),
    ("unsupportedCount",counted (counts.getD 2 0)),
    ("repairApplied",counted (((parseRepairAppliedWarning result.warnings).bind List.head?).getD 0)),
    ("repairRejected",counted (countRepairRejectedWarnings result.warnings))]

def emitSynthesis (result : AgentResultV1) (journal : AgentEventJournal) : AgentEventJournal :=
  if result.warnings.contains synthesisIrMarker && !journal.hasType .synthesisCompleted then
    journal.appended (synthesisEvent journal.jobId result)
  else journal

def emitVerification (result : AgentResultV1) (journal : AgentEventJournal) : AgentEventJournal :=
  match parseVerificationWarning result.warnings with
  | none => journal
  | some counts =>
      if journal.hasType .verificationCompleted then journal
      else journal.appended (verificationEvent journal.jobId result counts)

def emitResultJournalCounts (result : AgentResultV1) (journal : AgentEventJournal) : AgentEventJournal :=
  emitVerification result (emitSynthesis result journal)

def createdEvent (jobId query : JsString) (createdAtMs : Nat) : JsValue :=
  eventValue .jobCreated jobId [("query",.string (journalQueryField query)),("createdAtMs",counted createdAtMs)]

def readyEvent (jobId : JsString) (resultByteLength warningCount : Nat) : JsValue :=
  eventValue .jobReady jobId [("resultByteLength",counted resultByteLength),("warningCount",counted warningCount)]

/- What a job does to its journal once it is created. -/
inductive Emission where
  | progress (jobQuery : JsString) (event : DetailedProgress) (searchLog : List SearchLogEntry) (fetchLog : List FetchLogEntry)
  | result (result : AgentResultV1)
  | ready (resultByteLength warningCount : Nat)

def emit (journal : AgentEventJournal) : Emission → AgentEventJournal
  | .progress jobQuery event searchLog fetchLog => emitProgressJournal jobQuery event searchLog fetchLog journal
  | .result result => emitResultJournalCounts result journal
  | .ready resultByteLength warningCount => journal.appended (readyEvent journal.jobId resultByteLength warningCount)

/- The journal of a job that was created and went on. -/
def emitted (journal : AgentEventJournal) (query : JsString) (createdAtMs : Nat) (emissions : List Emission) : AgentEventJournal :=
  emissions.foldl emit (journal.appended (createdEvent journal.jobId query createdAtMs))

end Northstar.Agent
