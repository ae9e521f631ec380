import Northstar.Agent.Contract
import Northstar.Agent.Ladder

/-! Verify and repair (agent-core.ts): the claims of a composed result are verified, the refuted
ones go to the repairer once, and the candidate made of its reply replaces the base only if it
passes every gate. The verifier and the repairer are machines with states of their own. -/
namespace Northstar.Agent.Repair
open Verifier State Contract
open Pattern (opt all)

/- Conflicts (agent-policy.ts). -/
def maxConflicts : Nat := 8
def utilityReserveVerifyRepair : Nat := 2

def amount : Literal := all [digits,.many (.unit fun u => digit u || u = 46 || u = 44),opt (the 37)]

def valueTokenPatterns : List Literal := [
  amount,
  all [.unit currency,opt (.unit whiteSpace),amount],
  all [amount,spaces,eitherOf [anyCase "per month",anyCase "per year",.seq (anyCase "mo") wordEdge,
    .seq (anyCase "yr") wordEdge,anyCase "users",anyCase "requests",anyCase "credits",.seq (anyCase "tb") wordEdge,
    .seq (anyCase "gb") wordEdge,.seq (anyCase "mb") wordEdge]]]

variable (unicode : Unicode)

def extractValueTokens (excerpt : JsString) : List JsString :=
  ((valueTokenPatterns.flatMap fun pattern => pattern.matchAll excerpt).map fun found =>
    unicode.toLowerCase (found.2.filter fun u => !whiteSpace u)).eraseDups

structure EvidenceConflict where
  conflictBetween : JsString × JsString
  questionId : JsString
  values : JsString × JsString
  deriving DecidableEq, Repr

/- The first two entries with tokens that share none. -/
def firstPair : List (Entry × List JsString) → Option ((Entry × List JsString) × Entry × List JsString)
  | [] => none
  | one :: rest =>
      if one.2 = [] then firstPair rest
      else match rest.find? fun other => other.2 ≠ [] && !one.2.any other.2.contains with
        | some other => some (one,other)
        | none => firstPair rest

def detectConflicts (evidence : List Entry) : List EvidenceConflict :=
  let found (questionId : JsString) : Option EvidenceConflict :=
    let group := evidence.flatMap fun entry => (entry.questionIds.filter (· = questionId)).map fun _ => entry
    (firstPair (group.map fun entry => (entry,extractValueTokens unicode entry.excerpt))).map fun pair =>
      ⟨(pair.1.1.id,pair.2.1.id),questionId,(pair.1.2.headD [],pair.2.2.headD [])⟩
  ((evidence.flatMap (·.questionIds)).eraseDups.filterMap found).take maxConflicts

/- The two seams. A text in a reply is parsed as JSON, by the platform. -/
inductive RawReply where
  | threw
  | text (text : JsString)
  | value (raw : JsValue)
  deriving Repr

def RawReply.read (parse : JsString → Option JsValue) : RawReply → Option JsValue
  | .threw => none
  | .text reply => parse reply
  | .value raw => some raw

structure RepairFailedClaim where
  index : Nat
  text : JsString
  clauseVerdicts : Option (List ClauseVerdict)
  checkedAgainst : List JsString
  excerpts : List (JsString × JsString)
  deriving DecidableEq, Repr

/- What buildRepairPrompt writes the prompt from. -/
structure RepairPrompt where
  goal : JsString
  failed : List RepairFailedClaim

structure Seams (σ : Type) where
  verifier : Option (σ → Prompt → σ × RawReply)
  repairer : Option (σ → RepairPrompt → σ × RawReply)
  parse : JsString → Option JsValue

structure Counters where
  calls : Nat
  remaining : Nat
  exhausted : Bool
  deriving DecidableEq, Repr

variable {σ : Type}

def asVerifierModel (parse : JsString → Option JsValue) (verifier : σ → Prompt → σ × RawReply) : Model (σ × Counters) :=
  fun (s,counters) prompt =>
    if counters.remaining ≤ counters.calls then ((s,{ counters with exhausted := true }),.failed)
    else
      let asked := verifier s prompt
      let counted := { counters with calls := counters.calls + 1 }
      match asked.2.read parse with
      | some raw => if (semanticValue raw).isSome then ((asked.1,counted),.value raw) else ((asked.1,counted),.failed)
      | none => ((asked.1,counted),.failed)

def verifyUtilityHeadroom (maxUtilityCalls utilityCallsUsed : Nat) (repairerPresent : Bool) : Nat :=
  maxUtilityCalls - utilityCallsUsed - if repairerPresent then utilityReserveVerifyRepair else 0

structure GroundedQuestion where
  required : Bool
  status : QuestionStatus
  groundedBy : Option (List JsString)
  deriving DecidableEq, Repr

structure RepairArgs where
  trimmed : JsString
  base : AgentResultV1
  evidence : List Entry
  questions : List GroundedQuestion
  maxUtilityCalls : Nat
  utilityCallsUsed : Nat

def warn (base : AgentResultV1) (message : JsString) : AgentResultV1 := { base with warnings := base.warnings ++ [message] }

/- A claim of the base with the evidence it maps back to and its verdict. -/
structure Row where
  claim : AgentClaim
  evidence : List JsString
  result : VerificationResult
  deriving DecidableEq, Repr

variable (p : Platform)

def mappedEvidence (base : AgentResultV1) (evidence : List Entry) (claim : AgentClaim) : List JsString :=
  claimEvidenceIds p claim (base.sources.map AgentSourceV1.toSource) (evidence.map Entry.toAgentEvidence)

/- The surgical merge. -/
inductive Slot where
  | kept (row : Row)
  | repaired (row : Row) (claim : AgentClaim) (evidence : List JsString)
  | dropped (row : Row)
  deriving DecidableEq, Repr

def unitSourceIds (base : AgentResultV1) (evidence : List Entry) (evidenceIds : List JsString) : List JsString :=
  (evidenceIds.filterMap fun id => (evidence.reverse.find? fun entry => entry.id = id).bind fun entry =>
    (base.sources.reverse.find? fun source => normalizeUrl p source.url = normalizeUrl p entry.source.canonicalUrl).map
      (·.id)).eraseDups

/- Failed slots take the repaired units in order; a unit without a source uses its slot up. -/
def fillSlots (sourceIds : List JsString → List JsString) (failed : List Nat) :
    Nat → List SynthesisClaimUnit → List Row → List Slot
  | _, _, [] => []
  | index, queue, row :: rest =>
      if failed.contains index then match queue with
        | [] => .dropped row :: fillSlots sourceIds failed (index + 1) [] rest
        | unit :: later =>
            (if sourceIds unit.evidenceIds = [] then .dropped row
              else .repaired row ⟨unit.text,sourceIds unit.evidenceIds⟩ unit.evidenceIds) ::
            fillSlots sourceIds failed (index + 1) later rest
      else .kept row :: fillSlots sourceIds failed (index + 1) queue rest

structure Replacement where
  oldText : JsString
  newText : Option JsString
  deriving DecidableEq, Repr

def Slot.replacement : Slot → Option Replacement
  | .kept _ => none
  | .repaired row claim _ => some ⟨row.claim.text,some claim.text⟩
  | .dropped row => some ⟨row.claim.text,none⟩

/- A claim of the candidate; a repaired one knows what its slot was checked against. -/
structure Filled where
  claim : AgentClaim
  evidence : List JsString
  result : VerificationResult
  allowed : Option (List JsString)
  deriving DecidableEq, Repr

/- Only the repaired claims are verified again. -/
def reverify (model : Model σ) (conflicts : Nat) (evidence : List Entry) : σ → List Slot → σ × List Filled
  | s, [] => (s,[])
  | s, .kept row :: rest =>
      let later := reverify model conflicts evidence s rest
      (later.1,⟨row.claim,row.evidence,row.result,none⟩ :: later.2)
  | s, .repaired row claim ids :: rest =>
      let again := verifyClaim unicode (some model) conflicts evidence s ⟨claim.text,ids⟩
      let later := reverify model conflicts evidence again.1 rest
      (later.1,⟨claim,ids,again.2,some row.result.checkedAgainst⟩ :: later.2)
  | s, .dropped _ :: rest => reverify model conflicts evidence s rest

def verificationScore (report : ReportVerification) : Int :=
  report.supportedCount * 2 - report.refutedCount * 2 - report.unsupportedCount

/- A repaired claim that cites beyond its slot and is not supported there. -/
def rebound (filled : Filled) : Bool := match filled.allowed with
  | none => false
  | some allowed => !filled.evidence.all allowed.contains && filled.result.verdict ≠ .supported

def uncovered (cited : List JsString) (question : GroundedQuestion) : Bool :=
  question.status = .grounded && question.groundedBy.any fun ids => ids ≠ [] && !ids.any cited.contains

/- The gates, in order; the first that closes gives the reason. -/
def rejection (args : RepairArgs) (rows : List Row) (verification : ReportVerification) (filled : List Filled) : Option String :=
  let candidate := reportOf (filled.map (·.result)) fun result => result.verdict = .refuted
  let incumbentIds := rows.flatMap (·.evidence)
  let candidateIds := filled.flatMap (·.evidence)
  let conflicts (ids : List JsString) : Nat :=
    (detectConflicts unicode (args.evidence.filter fun entry => ids.contains entry.id)).length
  if verification.refutedCount < candidate.refutedCount then some "more refuted clauses"
  else if filled.any rebound then some "citation rebinding: evidence set changed beyond failed claim scope"
  else if conflicts incumbentIds < conflicts candidateIds then some "contradiction growth"
  else if 0 < rows.length && filled.length * 5 < rows.length * 4 then some "deletion"
  else if args.questions.any fun question => question.required && uncovered candidateIds question then
    some "required-question coverage reduced"
  else if args.questions.any (uncovered candidateIds) then some "deletion removes sole grounded support"
  else if verificationScore candidate ≤ verificationScore verification then some "no improvement"
  else none

/- The report splice. -/
def indexOf (part : JsString) : JsString → Option Nat
  | [] => if part = [] then some 0 else none
  | u :: rest => if part.isPrefixOf (u :: rest) then some 0 else (indexOf part rest).map (· + 1)

/- `text.split(part).length - 1`; an occurrence is passed over as a whole. -/
def occurrences (part : JsString) : Nat → JsString → Nat
  | _, [] => 0
  | skip + 1, _ :: rest => occurrences part skip rest
  | 0, u :: rest =>
      if part.isPrefixOf (u :: rest) then occurrences part (part.length - 1) rest + 1 else occurrences part 0 rest

def ambiguous (report : JsString) (replacements : List Replacement) : Bool :=
  replacements.any fun rep => rep.oldText ≠ [] && 1 < occurrences rep.oldText 0 report

def spliceOne (report : JsString) (rep : Replacement) : JsString := match indexOf rep.oldText report with
  | none => match rep.newText with
      | some text => report ++ [10,10] ++ text
      | none => report
  | some at_ => report.take at_ ++ rep.newText.getD [] ++ report.drop (at_ + rep.oldText.length)

def splice (report : JsString) (replacements : List Replacement) : JsString := replacements.foldl spliceOne report

def bestVersionKept (reason : String) : JsString := js ("repair rejected; best version kept (" ++ reason ++ ")")

/- The candidate that passed the gates, as it would ship. -/
def shipped (base : AgentResultV1) (slots : List Slot) (filled : List Filled) : AgentResultV1 :=
  let report := splice base.reportText (slots.filterMap Slot.replacement)
  let reSupported := filled.countP fun one => one.allowed.isSome && one.result.verdict = .supported
  { base with
    warnings := base.warnings ++ [js ("repair applied: " ++ toString reSupported ++ " claims re-supported")]
    claims := filled.map (·.claim)
    reportText := truncateUtf8Bytes (trim report) agentReportMaxBytes }

def gateRepair (args : RepairArgs) (base : AgentResultV1) (rows : List Row) (verification : ReportVerification)
    (slots : List Slot) (filled : List Filled) : AgentResultV1 :=
  match rejection unicode args rows verification filled with
  | some reason => warn base (bestVersionKept reason)
  | none =>
      if ambiguous base.reportText (slots.filterMap Slot.replacement) then
        warn base (bestVersionKept "report splice ambiguous")
      else if validateAgentResult (shipped base slots filled) then shipped base slots filled
      else warn base (bestVersionKept "candidate invalid")

def failedClaims (evidence : List Entry) (rows : List Row) (failed : List Nat) : List RepairFailedClaim :=
  failed.filterMap fun index => rows[index]?.map fun row =>
    ⟨index,row.claim.text,row.result.clauseVerdicts,row.result.checkedAgainst,
      row.result.checkedAgainst.filterMap fun id =>
        (evidence.reverse.find? fun entry => entry.id = id).map fun entry => (entry.id,entry.excerpt)⟩

def noteExhausted (exhausted : Bool) (base : AgentResultV1) : AgentResultV1 :=
  if exhausted then warn base (js "verification skipped; utility budget exhausted") else base

/- The one pass of the repairer, with the budget for it. -/
def repairPass (seams : Seams σ) (verifier : σ → Prompt → σ × RawReply) (repairer : σ → RepairPrompt → σ × RawReply)
    (args : RepairArgs) (base : AgentResultV1) (rows : List Row) (verification : ReportVerification) (s : σ) (used : Nat) :
    σ × AgentResultV1 × Nat :=
  let failed := verification.claimsNeedingRepair
  if args.maxUtilityCalls ≤ used then (s,warn base (js "repair skipped; utility budget exhausted"),used)
  else if args.maxUtilityCalls - used < 2 then (s,warn base (js "repair skipped; no re-verify budget"),used)
  else
    let replied := repairer s ⟨args.trimmed,failedClaims args.evidence rows failed⟩
    match replied.2 with
    | .threw => (replied.1,warn base (bestVersionKept "repairer failed"),used + 1)
    | reply =>
        let repaired := (reply.read seams.parse).bind fun raw =>
          (validateSynthesisOutput p agentClaimMaxBytes (args.evidence.map Entry.toAgentEvidence) raw).toOption
        match repaired with
        | none => (replied.1,warn base (bestVersionKept "invalid repair output"),used + 1)
        | some (output,_) =>
            let slots := fillSlots (unitSourceIds p base args.evidence) failed 0 output.claimUnits rows
            let again := reverify unicode (asVerifierModel seams.parse verifier)
              (detectConflicts unicode args.evidence).length args.evidence
              (replied.1,⟨0,args.maxUtilityCalls - (used + 1),false⟩) slots
            (again.1.1,
              gateRepair unicode args (noteExhausted again.1.2.exhausted base) rows verification slots again.2,
              used + 1 + again.1.2.calls)

def verificationNotes (verification : ReportVerification) (exhausted : Bool) (base : AgentResultV1) : AgentResultV1 :=
  let capped := verification.results.countP fun result => result.reason = js "verification cap reached"
  let base := noteExhausted exhausted base
  let base := if 0 < capped then warn base (js ("verification cap reached for " ++ toString capped ++ " claims")) else base
  warn base (js ("verification: " ++ toString verification.supportedCount ++ " supported, " ++
    toString verification.refutedCount ++ " refuted, " ++ toString verification.unsupportedCount ++
    " without enough evidence"))

/- The claims of the base as they are verified. -/
def verifiables (args : RepairArgs) : List VerifiableClaim :=
  args.base.claims.map fun claim => ⟨claim.text,mappedEvidence p args.base args.evidence claim⟩

def verifyBase (seams : Seams σ) (verifier : σ → Prompt → σ × RawReply) (args : RepairArgs) (s : σ) :
    (σ × Counters) × ReportVerification :=
  verifyReport unicode (some (asVerifierModel seams.parse verifier)) (detectConflicts unicode args.evidence).length
    args.evidence
    (s,⟨0,verifyUtilityHeadroom args.maxUtilityCalls args.utilityCallsUsed seams.repairer.isSome,false⟩)
    (verifiables p args)

def rowsOf (args : RepairArgs) (verification : ReportVerification) : List Row :=
  ((args.base.claims.zip (verifiables p args)).zip verification.results).map fun row =>
    ⟨row.1.1,row.1.2.evidenceIds,row.2⟩

def tryVerifyAndRepair (seams : Seams σ) (args : RepairArgs) (s : σ) : σ × AgentResultV1 × Nat :=
  match seams.verifier with
  | none => (s,args.base,args.utilityCallsUsed)
  | some verifier =>
      if args.maxUtilityCalls ≤ args.utilityCallsUsed then
        (s,warn args.base (js "verification skipped; utility budget exhausted"),args.utilityCallsUsed)
      else
        let verified := verifyBase unicode p seams verifier args s
        let used := args.utilityCallsUsed + verified.1.2.calls
        let base := verificationNotes verified.2 verified.1.2.exhausted args.base
        if verified.2.claimsNeedingRepair = [] then (verified.1.1,base,used)
        else match seams.repairer with
          | none => (verified.1.1,warn base (js ("verification found " ++ toString verified.2.refutedCount ++
              " refuted claim(s); repair skipped (no repairer)")),used)
          | some repairer => repairPass unicode p seams verifier repairer args base (rowsOf p args verified.2) verified.2
              verified.1.1 used

end Northstar.Agent.Repair
