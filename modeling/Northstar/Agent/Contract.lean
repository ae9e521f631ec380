import Northstar.Agent.State
import Northstar.Agent.Synthesis

/-! The result contract (agent-contract.ts): a finished result and the issues its validator
lists. Results are typed, so what a type rules out has no issue here. -/
namespace Northstar.Agent.Contract
open State (isHttpUrl)

inductive SourceKind where
  | extracted | derived
  deriving DecidableEq, Repr

structure SourceLocator where
  page : Option Number := none
  timestamp : Option JsString := none
  location : Option JsString := none
  nodeId : Option JsString := none
  field : Option JsString := none
  deriving DecidableEq, Repr

structure AgentSourceV1 where
  id : JsString
  url : JsString
  title : JsString
  sourceKind : SourceKind
  locator : Option SourceLocator
  warnings : Option (List JsString)
  deriving DecidableEq, Repr

structure AgentResultV1 where
  query : JsString
  reportText : JsString
  claims : List AgentClaim
  sources : List AgentSourceV1
  warnings : List JsString
  deriving DecidableEq, Repr

def when_ (broken : Bool) (issue : JsString) : List JsString := if broken then [issue] else []

/- `name[index]` before the rest of an issue. -/
def itemIssue (name : String) (index : Nat) (rest : String) : JsString :=
  js name ++ js "[" ++ js (toString index) ++ js "]" ++ js rest

def longText (text : JsString) (bound : Nat) : Bool := bound < byteLength text

def wholeNumber : Number → Bool
  | .int value => 0 ≤ value
  | .float _ => false

def locatorIssues (index : Nat) : Option SourceLocator → List JsString
  | none => [itemIssue "sources" index ".locator is required for derived sources"]
  | some l =>
      let issue := itemIssue "sources" index
      if l.page.isNone && l.timestamp.isNone && l.location.isNone && l.nodeId.isNone && l.field.isNone then
        [issue ".locator must carry at least one of page, timestamp, location, nodeId, field"]
      else
        (match l.nodeId, l.field with
          | some nodeId, some field =>
              when_ (trim nodeId = [] || longText nodeId 256)
                (issue ".locator.nodeId must be a non-empty string within 256 bytes (UTF-8)") ++
              when_ (trim field = [] || longText field 128)
                (issue ".locator.field must be a non-empty string within 128 bytes (UTF-8)")
          | none, none => []
          | _, _ => [issue ".locator must carry nodeId and field together"]) ++
        when_ (l.page.any fun page => !wholeNumber page) (issue ".locator.page must be a non-negative integer") ++
        when_ (l.timestamp.any fun text => trim text = []) (issue ".locator.timestamp must be a non-empty string") ++
        when_ (l.location.any fun text => trim text = []) (issue ".locator.location must be a non-empty string")

def tooLong : String := " exceeds maximum of 2000 bytes (UTF-8)"

def sourceWarningIssues (index : Nat) (scope : String) : Option (List JsString) → List JsString
  | some (first :: rest) => (first :: rest).zipIdx.flatMap fun indexed =>
      let at_ := itemIssue "sources" index ".warnings[" ++ js (toString indexed.2) ++ js "]"
      if trim indexed.1 = [] then [at_ ++ js " must be a non-empty string"]
      else when_ (longText indexed.1 agentWarningMaxBytes) (at_ ++ js tooLong)
  | _ => [itemIssue "sources" index (".warnings must be an array of strings for " ++ scope ++ " (non-empty)")]

def sourceIssues (before : List JsString) (index : Nat) (source : AgentSourceV1) : List JsString :=
  (if source.id = [] then [itemIssue "sources" index ".id is required"]
    else when_ (before.contains source.id) (itemIssue "sources" index ".id is a duplicate")) ++
  when_ (!isHttpUrl source.url && !isStructuredSourceUrl source.url)
    (itemIssue "sources" index
      ".url must be an http(s) URL or a structured source identity (provider:nodeId/field)") ++
  match source.sourceKind with
    | .derived => locatorIssues index source.locator ++ sourceWarningIssues index "derived sources" source.warnings
    | .extracted =>
        (if source.locator.isSome then locatorIssues index source.locator else []) ++
        (if source.warnings.isSome then sourceWarningIssues index "extracted sources" source.warnings else [])

def sourcesIssues : List JsString → Nat → List AgentSourceV1 → List JsString
  | _, _, [] => []
  | before, index, source :: rest =>
      sourceIssues before index source ++ sourcesIssues (before ++ [source.id]) (index + 1) rest

def claimIssues (ids : List JsString) (indexed : AgentClaim × Nat) : List JsString :=
  let claim := indexed.1
  (if trim claim.text = [] then [itemIssue "claims" indexed.2 ".text is required"]
    else when_ (longText claim.text agentClaimMaxBytes)
      (itemIssue "claims" indexed.2 ".text exceeds maximum of 5000 bytes (UTF-8)")) ++
  (if claim.sourceIds = [] then [itemIssue "claims" indexed.2 " must cite at least one sourceId"]
    else (claim.sourceIds.filter fun id => !ids.contains id).map fun _ =>
      itemIssue "claims" indexed.2 " cites unknown sourceId")

def warningIssues (warnings : List JsString) : List JsString :=
  warnings.zipIdx.flatMap fun indexed =>
    when_ (longText indexed.1 agentWarningMaxBytes) (itemIssue "warnings" indexed.2 tooLong)

def resultIssues (result : AgentResultV1) : List JsString :=
  when_ (trim result.query = []) (js "query is required") ++
  when_ (longText result.reportText agentReportMaxBytes) (js "reportText exceeds maximum of 50000 bytes (UTF-8)") ++
  when_ (agentMaxSources < result.sources.length) (js "sources exceed maximum of 20") ++
  sourcesIssues [] 0 result.sources ++
  result.claims.zipIdx.flatMap (claimIssues ((result.sources.map (·.id)).filter fun id => id ≠ [])) ++
  warningIssues result.warnings

def validateAgentResult (result : AgentResultV1) : Bool := (resultIssues result).isEmpty

/- The part of a source that the way back to evidence reads. -/
def AgentSourceV1.toSource (source : AgentSourceV1) : AgentSource := ⟨source.id,source.url,source.title,.location [],[]⟩

end Northstar.Agent.Contract

namespace Northstar.Agent.State

def EvidenceSource.canonicalUrl (source : EvidenceSource) : JsString := match source.identity with
  | .url url => url
  | .structured _ => []

def EvidenceSource.structuredIdentity (source : EvidenceSource) : Option StructuredIdentity := match source.identity with
  | .url _ => none
  | .structured source => some ⟨source.provider,source.query⟩

/- An entry as the synthesizer and the composer read it. -/
def Entry.toAgentEvidence (entry : Entry) : AgentEvidence where
  id := entry.id
  sourceRef := ⟨entry.source.canonicalUrl,entry.source.structuredIdentity,entry.source.sourceClass,entry.source.acquisitionRoute⟩
  locator := match entry.locator with
    | .kg nodeId field => .kg nodeId field
    | _ => .other
  questionIds := entry.questionIds
  status := .admitted
  corroboratingFingerprint := entry.corroboratingFingerprint

end Northstar.Agent.State
