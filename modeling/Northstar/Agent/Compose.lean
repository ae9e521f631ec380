import Northstar.Agent.Contract
import Northstar.Agent.Intents

/-! The evidence-only composition (agent-core.ts): claims, sources and report straight from the
ledger, checked by the result contract, with a result without claims where the check fails. -/
namespace Northstar.Agent.Compose
open State Contract Intents

def sanitizeForWarning (value : JsString) : JsString :=
  (csiSequence.replaceAll [] (oscSequence.replaceAll [] value)).filter fun u => !control u

def cappedWarning (text : JsString) : JsString := truncateUtf8Bytes (sanitizeForWarning text) agentWarningMaxBytes

variable (p : Platform)

/- The URL an entry's source is shipped and grouped under. -/
def groupedUrl (entry : Entry) : Option JsString := (evidenceSourceKey p entry.toAgentEvidence).map (·.url)

structure Collected where
  sources : List AgentSourceV1
  sourceCapHit : Bool
  unclaimableCount : Nat

def sourceAt (index : Nat) (url : JsString) : AgentSourceV1 :=
  ⟨js "src-" ++ js (toString index),url,url,.extracted,none,none⟩

/- Up to the first new source past the cap. -/
def collectSources : Collected → List Entry → Collected
  | c, [] => c
  | c, entry :: rest => match groupedUrl p entry with
      | none => collectSources { c with unclaimableCount := c.unclaimableCount + 1 } rest
      | some url =>
          if c.sources.any fun source => source.url = url then collectSources c rest
          else if agentMaxSources ≤ c.sources.length then { c with sourceCapHit := true }
          else collectSources { c with sources := c.sources ++ [sourceAt c.sources.length url] } rest

def sourceIdOf (sources : List AgentSourceV1) (entry : Entry) : Option JsString :=
  (groupedUrl p entry).bind fun url => (sources.find? fun source => source.url = url).map (·.id)

/- By question, each entry once, the rest behind. -/
def claimNext (wanted : Entry → Bool) (ordered : List Entry) (entry : Entry) : List Entry :=
  if wanted entry && !ordered.any fun other => other.id = entry.id then ordered ++ [entry] else ordered

def orderedEntries (questions : List AgentQuestion) (admitted : List Entry) : List Entry :=
  let linked := questions.foldl (fun ordered question =>
    admitted.foldl (claimNext fun entry => entry.questionIds.contains question.id) ordered) []
  admitted.foldl (claimNext fun _ => true) linked

def claimOf (sources : List AgentSourceV1) (entry : Entry) : Option AgentClaim :=
  (sourceIdOf p sources entry).bind fun sourceId =>
    let text := truncateUtf8Bytes (trim entry.excerpt) agentClaimMaxBytes
    if trim text = [] then none else some ⟨text,[sourceId]⟩

/- The report. -/
def excerptLines (sources : List AgentSourceV1) (entries : List Entry) : List JsString :=
  entries.filterMap fun entry => (sourceIdOf p sources entry).map fun sourceId =>
    js "- " ++ trim entry.excerpt ++ js " [" ++ sourceId ++ js "]"

def blockOf (heading : JsString) (lines : List JsString) : List JsString :=
  if lines = [] then [] else [heading ++ [10] ++ [10].intercalate lines]

def reportBlocks (questions : List AgentQuestion) (sources : List AgentSourceV1) (admitted : List Entry) : List JsString :=
  (questions.flatMap fun question => blockOf question.question (excerptLines p sources
    (admitted.filter fun entry => entry.questionIds.contains question.id))) ++
  blockOf (js "Ungrouped evidence") (excerptLines p sources
    (admitted.filter fun entry => !questions.any fun question => entry.questionIds.contains question.id))

def evidenceOnlyEmptyWarning : JsString := js "no admissible evidence; evidence-only result carries no claims"

def unclaimableWarning (count : Nat) : JsString :=
  let one := count = 1
  js (toString count) ++ js " admitted evidence " ++ js (if one then "entry has" else "entries have") ++
    js " no claimable source and " ++ js (if one then "was" else "were") ++ js " excluded"

def allWarnings (warnings : List JsString) (stopReason : JsString) (c : Collected) : List JsString :=
  warnings ++ [cappedWarning (js "evidence-only composition; stop reason: " ++ stopReason)] ++
    (if c.sourceCapHit then [js "evidence-only source cap reached"] else []) ++
    (if 0 < c.unclaimableCount then [cappedWarning (unclaimableWarning c.unclaimableCount)] else []) ++
    if c.sources = [] then [evidenceOnlyEmptyWarning] else []

def composed (query : JsString) (s : AgentState) (warnings : List JsString) (stopReason : JsString) : AgentResultV1 :=
  let c := collectSources p ⟨[],false,0⟩ s.admittedEvidence
  { query := trim query
    reportText := truncateReportToBlocks (reportBlocks p s.questions c.sources s.admittedEvidence) agentReportMaxBytes
    claims := (orderedEntries s.questions s.admittedEvidence).filterMap (claimOf p c.sources)
    sources := c.sources
    warnings := allWarnings warnings stopReason c }

/- What is left of a result the contract refuses. -/
def failureSummary (issues : List JsString) : JsString :=
  truncateUtf8Bytes (js "agent result validation failed: " ++ [59,32].intercalate issues) agentWarningMaxBytes

def degraded (result : AgentResultV1) : AgentResultV1 :=
  { query := result.query
    reportText := truncateUtf8Bytes result.reportText agentReportMaxBytes
    claims := []
    sources := []
    warnings := result.warnings.map (truncateUtf8Bytes · agentWarningMaxBytes) ++ [failureSummary (resultIssues result)] }

def minimal (result : AgentResultV1) : AgentResultV1 :=
  ⟨result.query,[],[],[],[failureSummary (resultIssues result)]⟩

def composeEvidenceOnlyResult (query : JsString) (s : AgentState) (warnings : List JsString) (stopReason : JsString) :
    AgentResultV1 :=
  let result := composed p query s warnings stopReason
  if validateAgentResult result then result
  else if validateAgentResult (degraded result) then degraded result
  else minimal result

/- What comes out is what the contract accepts, for every ledger. -/
theorem issuesNone {broken : Bool} {issue : JsString} : when_ broken issue = [] ↔ broken = false := by
  cases broken <;> simp [when_]

theorem warningsFit {warnings : List JsString} : warningIssues warnings = [] ↔
    ∀ warning ∈ warnings, byteLength warning ≤ agentWarningMaxBytes := by
  unfold warningIssues
  rw [List.flatMap_eq_nil_iff]
  constructor
  · intro none_ warning member
    obtain ⟨index,at_⟩ := List.getElem?_of_mem member
    have one := none_ (warning,index) (List.mem_zipIdx_iff_getElem?.mpr at_)
    simpa [issuesNone,longText] using one
  · intro fit indexed member
    have inside := fit indexed.1 (List.fst_mem_of_mem_zipIdx member)
    simpa [issuesNone,longText] using inside

theorem bareValid {query report : JsString} {warnings : List JsString} (asked : trim query ≠ [])
    (short : byteLength report ≤ agentReportMaxBytes)
    (fit : ∀ warning ∈ warnings, byteLength warning ≤ agentWarningMaxBytes) :
    validateAgentResult ⟨query,report,[],[],warnings⟩ := by
  unfold validateAgentResult resultIssues
  rw [warningsFit.mpr fit]
  simp [when_,asked,longText,short,sourcesIssues]

end Northstar.Agent.Compose
