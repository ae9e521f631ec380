import Northstar.Agent.Ladder

/-! What each rung of the ladder may change. The model is asked about open clauses, and its reply
is merged position by position or not at all. -/
namespace Northstar.Agent.Verifier
open State (Entry)

variable {unicode : Unicode} {σ : Type}

/- A result lists the clauses there were, those that were decided as they were. -/
def KeepsVerdicts (deterministic result : VerificationResult) : Prop :=
  ∀ clauses, result.clauseVerdicts = some clauses →
    clauses.length = (deterministic.clauseVerdicts.getD []).length ∧
    ∀ (i : Nat) (c : ClauseVerdict), (deterministic.clauseVerdicts.getD [])[i]? = some c →
      c.verdict ≠ .notEnoughEvidence → clauses[i]? = some c

/- A reply that says of itself what a missing reply is reported as. -/
def Unavailing (value : SemanticValue) : Prop :=
  summary value.clauseVerdicts = .notEnoughEvidence ∧ value.reason = verifierUnavailable

def unavailable (deterministic : VerificationResult) : VerificationResult :=
  ⟨.notEnoughEvidence,none,deterministic.checkedAgainst,.semantic,verifierUnavailable⟩

structure Rung (unicode : Unicode) (gate : Bool) (reply : ModelReply) (deterministic result : VerificationResult) : Prop where
  decided : deterministic.verdict ≠ .notEnoughEvidence → result = deterministic
  closed : gate = false → result = deterministic
  missing : deterministic.verdict = .notEnoughEvidence → gate = true → reply.semantic = none →
    result = unavailable deterministic
  misaligned : ∀ value, reply.semantic = some value → ¬Unavailing value →
    semanticAligned unicode (deterministic.clauseVerdicts.getD []) (some value.clauseVerdicts) = false → result = deterministic
  kept : (∀ value, reply.semantic = some value → ¬Unavailing value) → KeepsVerdicts deterministic result

theorem keepsItself (deterministic : VerificationResult) : KeepsVerdicts deterministic deterministic := by
  intro clauses is
  rw [is]
  exact ⟨rfl,fun i c there _ => there⟩

theorem mergedLength {clauses actual : List ClauseVerdict} (same : clauses.length = actual.length) :
    (mergeClauses clauses actual).length = clauses.length := by
  rw [mergeClauses,List.length_map,List.length_zip,same,Nat.min_self]

theorem mergedDecided {clauses actual : List ClauseVerdict} (same : clauses.length = actual.length) {i : Nat} {c : ClauseVerdict}
    (there : clauses[i]? = some c) (decided : c.verdict ≠ .notEnoughEvidence) : (mergeClauses clauses actual)[i]? = some c := by
  have inside : i < clauses.length := (List.getElem?_eq_some_iff.mp there).1
  have also : i < actual.length := same ▸ inside
  have pair : (clauses.zip actual)[i]? = some (c,actual[i]) := by
    rw [List.getElem?_zip_eq_some]
    exact ⟨there,List.getElem?_eq_getElem also⟩
  rw [mergeClauses,List.getElem?_map,pair,Option.map_some,if_neg decided]

theorem alignedLength {clauses actual : List ClauseVerdict} (aligned : semanticAligned unicode clauses (some actual)) :
    clauses.length = actual.length := by
  unfold semanticAligned at aligned
  simp only [Bool.and_eq_true,decide_eq_true_eq] at aligned
  exact aligned.1

theorem deterministicIds (unicode : Unicode) (claimText : JsString) (linked : List Entry) :
    (verifyClaimDeterministic unicode claimText linked).checkedAgainst = linked.map (·.id) := by
  unfold verifyClaimDeterministic
  dsimp only
  split_ifs <;> rfl

theorem settled {deterministic : VerificationResult} {linked : List Entry} {reply : ModelReply}
    (ids : deterministic.checkedAgainst = linked.map (·.id)) (undecided : deterministic.verdict = .notEnoughEvidence) :
    Rung unicode true reply deterministic (settle unicode deterministic linked reply) := by
  have replied {value : SemanticValue} (is : reply.semantic = some value) (plain : ¬Unavailing value) :
      settle unicode deterministic linked reply =
        if semanticAligned unicode (deterministic.clauseVerdicts.getD []) (some value.clauseVerdicts) then
          ⟨summary (mergeClauses (deterministic.clauseVerdicts.getD []) value.clauseVerdicts),
            some (mergeClauses (deterministic.clauseVerdicts.getD []) value.clauseVerdicts),
            deterministic.checkedAgainst,.semantic,value.reason⟩
        else deterministic := by
    unfold settle verifyClaimSemantic
    rw [is]
    exact if_neg plain
  constructor
  · exact fun decided => absurd undecided decided
  · exact fun closed => nomatch closed
  · intro _ _ nothing
    unfold settle verifyClaimSemantic unavailable
    rw [nothing,ids]
    exact if_pos ⟨rfl,rfl⟩
  · intro value is plain apart
    rw [replied is plain,apart,if_neg Bool.false_ne_true]
  · intro plain clauses listed
    cases is : reply.semantic with
    | none =>
      unfold settle verifyClaimSemantic at listed
      rw [is,if_pos ⟨rfl,rfl⟩] at listed
      contradiction
    | some value =>
      rw [replied is (plain value is)] at listed
      split at listed
      · rename_i aligned
        cases listed
        have same := alignedLength aligned
        exact ⟨mergedLength same,fun i c there decided => mergedDecided same there decided⟩
      · exact keepsItself deterministic clauses listed

theorem claimRung (model : Model σ) (conflicts : Nat) {evidence : List Entry} (s : σ) {claim : VerifiableClaim}
    {linked : List Entry} (structural : verifyClaimStructure claim evidence = .ok linked) :
    Rung unicode (gateSemanticVerification claim.text
        ((verifyClaimDeterministic unicode claim.text linked).clauseVerdicts.getD []) conflicts)
      (model s ⟨claim.text,linked⟩).2 (verifyClaimDeterministic unicode claim.text linked)
      (verifyClaim unicode (some model) conflicts evidence s claim).2 := by
  have ids := deterministicIds unicode claim.text linked
  unfold verifyClaim
  rw [structural]
  dsimp only
  generalize verifyClaimDeterministic unicode claim.text linked = deterministic at ids ⊢
  generalize gateSemanticVerification claim.text (deterministic.clauseVerdicts.getD []) conflicts = gate
  by_cases undecided : deterministic.verdict = .notEnoughEvidence
  · cases gate with
    | true =>
      rw [if_pos (by simp [undecided])]
      exact settled ids undecided
    | false =>
      rw [if_neg (by simp)]
      exact ⟨fun _ => rfl,fun _ => rfl,(fun _ open_ => nomatch open_),fun _ _ _ _ => rfl,fun _ => keepsItself deterministic⟩
  · rw [if_neg (by simp [undecided])]
    exact ⟨fun _ => rfl,fun _ => rfl,fun open_ => absurd open_ undecided,fun _ _ _ _ => rfl,fun _ => keepsItself deterministic⟩

/- The result at a place of the report is that of its claim, at some state of the model. -/
theorem verifiedAt (model : Option (Model σ)) (conflicts : Nat) (evidence : List Entry) (claims : List VerifiableClaim)
    (index : Nat) (s : σ) (i : Nat) {claim : VerifiableClaim} (there : claims[i]? = some claim) {result : VerificationResult}
    (is : (verifyClaims unicode model conflicts evidence index s claims).2[i]? = some result) :
    (maxVerifiedClaimsPerReport ≤ index + i → result = cappedResult) ∧
    (index + i < maxVerifiedClaimsPerReport → ∃ s, result = (verifyClaim unicode model conflicts evidence s claim).2) := by
  induction claims generalizing index s i with
  | nil => contradiction
  | cons first rest ih =>
    unfold verifyClaims at is
    cases i with
    | zero =>
      cases (Option.some.inj there : first = claim)
      split at is
      · exact ⟨fun _ => (Option.some.inj is).symm,fun below => by omega⟩
      · exact ⟨fun above => by omega,fun _ => ⟨s,(Option.some.inj is).symm⟩⟩
    | succ i =>
      have later (s : σ) := ih (index + 1) s i there
      rw [Nat.add_right_comm] at later
      split at is
      · exact later _ is
      · exact later _ is

theorem verifiedLength (model : Option (Model σ)) (conflicts : Nat) (evidence : List Entry) (claims : List VerifiableClaim)
    (index : Nat) (s : σ) : (verifyClaims unicode model conflicts evidence index s claims).2.length = claims.length := by
  induction claims generalizing index s with
  | nil => rfl
  | cons first rest ih =>
    unfold verifyClaims
    split
    · exact congrArg (· + 1) (ih _ _)
    · exact congrArg (· + 1) (ih _ _)

theorem countsPartition (results : List VerificationResult) :
    countVerdict .supported results + countVerdict .refuted results + countVerdict .notEnoughEvidence results = results.length := by
  induction results with
  | nil => rfl
  | cons first rest ih =>
    unfold countVerdict at ih ⊢
    simp only [List.countP_cons,List.length_cons]
    cases first.verdict <;> simp <;> omega

/-- For every behaviour of the model: decided clauses stay, a reply out of line changes nothing,
a missing one leaves the claim open without clauses, and the counts are of the claims. -/
theorem verificationLadder (unicode : Unicode) (model : Option (Model σ)) (conflicts : Nat) (evidence : List Entry) (start : σ)
    (claims : List VerifiableClaim) :
    (verifyReport unicode model conflicts evidence start claims).2.results.length = claims.length ∧
    (verifyReport unicode model conflicts evidence start claims).2.supportedCount +
      (verifyReport unicode model conflicts evidence start claims).2.refutedCount +
      (verifyReport unicode model conflicts evidence start claims).2.unsupportedCount = claims.length ∧
    ∀ (i : Nat) (claim : VerifiableClaim) (result : VerificationResult), claims[i]? = some claim →
      (verifyReport unicode model conflicts evidence start claims).2.results[i]? = some result →
      (maxVerifiedClaimsPerReport ≤ i → result = cappedResult) ∧
      (i < maxVerifiedClaimsPerReport →
        (∀ refused, verifyClaimStructure claim evidence = .error refused → result = refused) ∧
        ∀ linked, verifyClaimStructure claim evidence = .ok linked →
          (model = none → result = verifyClaimDeterministic unicode claim.text linked) ∧
          ∀ m, model = some m → ∃ s, Rung unicode (gateSemanticVerification claim.text
              ((verifyClaimDeterministic unicode claim.text linked).clauseVerdicts.getD []) conflicts)
            (m s ⟨claim.text,linked⟩).2 (verifyClaimDeterministic unicode claim.text linked) result) := by
  have length := @verifiedLength unicode _ model conflicts evidence claims 0 start
  refine ⟨length,(countsPartition _).trans length,?_⟩
  intro i claim result there is
  have at_ := verifiedAt model conflicts evidence claims 0 start i there is
  rw [Nat.zero_add] at at_
  refine ⟨at_.1,fun below => ?_⟩
  obtain ⟨s,same⟩ := at_.2 below
  constructor
  · intro refused structural
    rw [same,verifyClaim,structural]
  · intro linked structural
    constructor
    · intro none_
      rw [same,none_,verifyClaim,structural]
    · intro m is_
      exact ⟨s,by rw [same,is_]; exact claimRung m conflicts s structural⟩

def asciiUnicode : Unicode := ⟨fun text => text.map State.lowerAscii,fun point => point.all fun u => letterUnit u || digit u⟩

def catEvidence : Entry where
  id := js "ev-1"
  source := ⟨.url (js "https://a.org/p"),none,.unknown,.search⟩
  documentHash := js "d"
  locator := .page 0
  excerpt := js "cats eat fish"
  excerptHash := []
  questionIds := []
  round := 0
  corroboratingFingerprint := []

def catClaim : VerifiableClaim := ⟨js "cats eat fish; dogs run 12 km",[js "ev-1"]⟩

/- A verifier whose replies are never of the schema. -/
def mumblingModel : Model Unit := fun s _ => (s,.value .null)

/- A supported clause has no verdict left in the result, and two clauses are counted as one claim. -/
set_option maxRecDepth 16384 in
theorem lostVerdict :
    ((verifyClaimDeterministic asciiUnicode catClaim.text [catEvidence]).clauseVerdicts.getD []).map (·.verdict) =
      [.supported,.notEnoughEvidence] ∧
    (verifyReport asciiUnicode (some mumblingModel) 0 [catEvidence] () [catClaim]).2.results.map (·.clauseVerdicts) = [none] ∧
    (verifyReport asciiUnicode (some mumblingModel) 0 [catEvidence] () [catClaim]).2.supportedCount +
      (verifyReport asciiUnicode (some mumblingModel) 0 [catEvidence] () [catClaim]).2.refutedCount +
      (verifyReport asciiUnicode (some mumblingModel) 0 [catEvidence] () [catClaim]).2.unsupportedCount = 1 := by
  decide

end Northstar.Agent.Verifier
