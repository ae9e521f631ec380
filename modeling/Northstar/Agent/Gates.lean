import Northstar.Agent.Repair
import Northstar.Agent.Rungs

/-! What verify and repair may make of a result: the base with more warnings, or a candidate that
passed every gate, patched at the failed slots only. -/
namespace Northstar.Agent.Repair
open Verifier State Contract

variable {unicode : Unicode} {p : Platform} {σ : Type}

/- The base, with warnings appended. -/
structure Unchanged (base result : AgentResultV1) : Prop where
  query : result.query = base.query
  claims : result.claims = base.claims
  sources : result.sources = base.sources
  reportText : result.reportText = base.reportText
  warnings : base.warnings <+: result.warnings

theorem itself (base : AgentResultV1) : Unchanged base base := ⟨rfl,rfl,rfl,rfl,List.prefix_refl _⟩

theorem warned {base result : AgentResultV1} (h : Unchanged base result) (message : JsString) :
    Unchanged base (warn result message) :=
  ⟨h.query,h.claims,h.sources,h.reportText,h.warnings.trans (List.prefix_append _ _)⟩

theorem exhaustionNoted {base result : AgentResultV1} (h : Unchanged base result) (exhausted : Bool) :
    Unchanged base (noteExhausted exhausted result) := by
  unfold noteExhausted
  split
  · exact warned h _
  · exact h

theorem verificationNoted (base : AgentResultV1) (verification : ReportVerification) (exhausted : Bool) :
    Unchanged base (verificationNotes verification exhausted base) := by
  unfold verificationNotes
  have first := exhaustionNoted (itself base) exhausted
  dsimp only
  split
  · exact warned (warned first _) _
  · exact warned first _

/- Claims with their verdicts, before and after: outside the failed slots they stay, and a failed
slot holds at most one claim, verified again. -/
inductive Patched (failed : List Nat) (again : AgentClaim → VerificationResult → Prop) :
    Nat → List (AgentClaim × VerificationResult) → List (AgentClaim × VerificationResult) → Prop where
  | nil (index) : Patched failed again index [] []
  | kept {index pair before after} (whole : index ∉ failed) (rest : Patched failed again (index + 1) before after) :
      Patched failed again index (pair :: before) (pair :: after)
  | repaired {index pair before after claim result} (broken : index ∈ failed) (verified : again claim result)
      (rest : Patched failed again (index + 1) before after) :
      Patched failed again index (pair :: before) ((claim,result) :: after)
  | dropped {index pair before after} (broken : index ∈ failed) (rest : Patched failed again (index + 1) before after) :
      Patched failed again index (pair :: before) after

/- Verified by the model at some state of it, against some cited evidence. -/
def Reverified (unicode : Unicode) (model : Model σ) (conflicts : Nat) (evidence : List Entry) (claim : AgentClaim)
    (result : VerificationResult) : Prop :=
  ∃ s ids, result = (verifyClaim unicode (some model) conflicts evidence s ⟨claim.text,ids⟩).2

def Row.judged (row : Row) : AgentClaim × VerificationResult := (row.claim,row.result)

def Filled.judged (filled : Filled) : AgentClaim × VerificationResult := (filled.claim,filled.result)

theorem slotsPatched (sourceIds : List JsString → List JsString) (failed : List Nat) (model : Model σ) (conflicts : Nat)
    (evidence : List Entry) (rows : List Row) (index : Nat) (queue : List SynthesisClaimUnit) (s : σ) :
    Patched failed (Reverified unicode model conflicts evidence) index (rows.map Row.judged)
      ((reverify unicode model conflicts evidence s (fillSlots sourceIds failed index queue rows)).2.map Filled.judged) := by
  induction rows generalizing index queue s with
  | nil => exact .nil index
  | cons row rest ih =>
    unfold fillSlots
    by_cases broken : index ∈ failed
    · rw [if_pos (by simpa using broken)]
      cases queue with
      | nil => exact .dropped broken (ih _ _ _)
      | cons unit later =>
        dsimp only
        by_cases none_ : sourceIds unit.evidenceIds = []
        · rw [if_pos none_]
          exact .dropped broken (ih _ _ _)
        · rw [if_neg none_]
          exact .repaired broken ⟨s,unit.evidenceIds,rfl⟩ (ih _ _ _)
    · rw [if_neg (by simpa using broken)]
      exact .kept broken (ih _ _ _)

/- What an open gate says of the verdicts. -/
theorem gatesPassed {args : RepairArgs} {rows : List Row} {verification : ReportVerification} {filled : List Filled}
    (passed : rejection unicode args rows verification filled = none) :
    countVerdict .refuted (filled.map (·.result)) ≤ verification.refutedCount ∧
      verificationScore verification <
        verificationScore (reportOf (filled.map (·.result)) fun result => result.verdict = .refuted) := by
  unfold rejection at passed
  dsimp only at passed
  split at passed; contradiction
  rename_i fewer
  split at passed; contradiction
  split at passed; contradiction
  split at passed; contradiction
  split at passed; contradiction
  split at passed; contradiction
  split at passed; contradiction
  rename_i better
  exact ⟨Nat.le_of_not_lt fewer,Int.lt_of_not_ge better⟩

/- A candidate that replaces the base. -/
structure Improved (unicode : Unicode) (model : Model σ) (conflicts : Nat) (evidence : List Entry) (base : AgentResultV1)
    (verification : ReportVerification) (result : AgentResultV1) : Prop where
  valid : validateAgentResult result
  query : result.query = base.query
  sources : result.sources = base.sources
  warnings : base.warnings <+: result.warnings
  judged : verification.results.length = base.claims.length
  patched : ∃ results : List VerificationResult, results.length = result.claims.length ∧
    Patched verification.claimsNeedingRepair (Reverified unicode model conflicts evidence) 0
      (base.claims.zip verification.results) (result.claims.zip results) ∧
    countVerdict .refuted results ≤ verification.refutedCount ∧
    verificationScore verification < verificationScore (reportOf results fun result => result.verdict = .refuted)

theorem rowsJudged (args : RepairArgs) (verification : ReportVerification) :
    (rowsOf p args verification).map Row.judged = args.base.claims.zip verification.results := by
  unfold rowsOf verifiables
  generalize verification.results = results
  generalize args.base.claims = claims
  induction claims generalizing results with
  | nil => rfl
  | cons claim rest ih =>
    cases results with
    | nil => rfl
    | cons result later => exact congrArg ((claim,result) :: ·) (ih later)

theorem repairPassed {seams : Seams σ} {verifier : σ → Prompt → σ × RawReply} {repairer : σ → RepairPrompt → σ × RawReply}
    {args : RepairArgs} {base : AgentResultV1} (same : Unchanged args.base base) {verification : ReportVerification}
    (judged : verification.results.length = args.base.claims.length) (s : σ) (used : Nat) :
    Unchanged args.base (repairPass unicode p seams verifier repairer args base (rowsOf p args verification) verification s
        used).2.1 ∨
      Improved unicode (asVerifierModel seams.parse verifier) (detectConflicts unicode args.evidence).length args.evidence
        args.base verification
        (repairPass unicode p seams verifier repairer args base (rowsOf p args verification) verification s used).2.1 := by
  unfold repairPass
  dsimp only
  split
  · exact .inl (warned same _)
  split
  · exact .inl (warned same _)
  split
  · exact .inl (warned same _)
  split
  · exact .inl (warned same _)
  dsimp only
  rename_i output _ _
  have patched := @slotsPatched unicode _ (unitSourceIds p base args.evidence) verification.claimsNeedingRepair
    (asVerifierModel seams.parse verifier) (detectConflicts unicode args.evidence).length args.evidence
    (rowsOf p args verification) 0 output.claimUnits
  generalize fillSlots (unitSourceIds p base args.evidence) verification.claimsNeedingRepair 0 output.claimUnits
    (rowsOf p args verification) = slots at patched ⊢
  replace patched := patched ((repairer s ⟨args.trimmed,failedClaims args.evidence (rowsOf p args verification)
    verification.claimsNeedingRepair⟩).1,⟨0,args.maxUtilityCalls - (used + 1),false⟩)
  generalize reverify unicode (asVerifierModel seams.parse verifier) (detectConflicts unicode args.evidence).length
    args.evidence _ slots = again at patched ⊢
  have noted := exhaustionNoted same again.1.2.exhausted
  generalize noteExhausted again.1.2.exhausted base = base' at noted ⊢
  unfold gateRepair
  split
  · exact .inl (warned noted _)
  rename_i passed
  split
  · exact .inl (warned noted _)
  split
  · rename_i valid
    refine .inr ⟨valid,noted.query,noted.sources,noted.warnings.trans (List.prefix_append _ _),judged,
      again.2.map (·.result),?_,?_,?_⟩
    · rw [List.length_map]
      exact (List.length_map _).symm
    · have pairs : (shipped base' slots again.2).claims.zip (again.2.map (·.result)) = again.2.map Filled.judged :=
        List.zip_map'
      rw [pairs,← rowsJudged]
      exact patched
    · exact gatesPassed passed
  · exact .inl (warned noted _)

theorem baseJudged (seams : Seams σ) (verifier : σ → Prompt → σ × RawReply) (args : RepairArgs) (s : σ) :
    (verifyBase unicode p seams verifier args s).2.results.length = args.base.claims.length := by
  have length : (verifiables p args).length = args.base.claims.length := List.length_map _
  rw [← length]
  exact verifiedLength _ _ _ _ _ _

/-- Whatever the verifier and the repairer do, the base is kept or bettered. -/
theorem bestVersion (unicode : Unicode) (p : Platform) (seams : Seams σ) (args : RepairArgs) (s : σ) :
    Unchanged args.base (tryVerifyAndRepair unicode p seams args s).2.1 ∨
      ∃ verifier, seams.verifier = some verifier ∧
        Improved unicode (asVerifierModel seams.parse verifier) (detectConflicts unicode args.evidence).length args.evidence
          args.base (verifyBase unicode p seams verifier args s).2 (tryVerifyAndRepair unicode p seams args s).2.1 := by
  unfold tryVerifyAndRepair
  split
  · exact .inl (itself _)
  rename_i verifier there
  split
  · exact .inl (warned (itself _) _)
  dsimp only
  have noted := verificationNoted args.base (verifyBase unicode p seams verifier args s).2
    (verifyBase unicode p seams verifier args s).1.2.exhausted
  split
  · exact .inl noted
  split
  · exact .inl (warned noted _)
  · refine (repairPassed noted (baseJudged seams verifier args s) _ _).imp id fun improved => ⟨verifier,there,improved⟩

end Northstar.Agent.Repair
