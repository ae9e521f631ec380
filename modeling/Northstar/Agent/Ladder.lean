import Northstar.Agent.RoundTrip
import Northstar.Agent.State
import Northstar.Agent.Verifier

/-! The verification ladder (agent-verifier.ts): a claim is cut into clauses, each is judged
against the exact excerpts, and only where that leaves clauses open is a model asked. The model
answers as it likes; it is a machine with states of its own. -/
namespace Northstar.Agent.Verifier
open State (Entry collapseBlanks lowerAscii)
open Pattern (all)

/- Material clauses. -/
def protectedDot : UInt16 := 1
def quotedSlot : UInt16 := 2

def spanOf (opening closing : UInt16) : Literal := all [the opening,.many (.unit (· != closing)),the closing]

def quotedSpan : Literal := eitherOf [spanOf 34 34,spanOf 39 39,spanOf 0x201C 0x201D]

/- The matches of a pattern replaced one by one; each is given with its number. -/
def replaceEach (by_ : Nat → JsString → JsString) : Nat → Nat → List (Nat × JsString) → JsString → JsString
  | _, _, [], left => left
  | n, read, found :: rest, left =>
      left.take (found.1 - read) ++ by_ n found.2 ++
        replaceEach by_ (n + 1) (found.1 + found.2.length) rest (left.drop (found.1 - read + found.2.length))

def stashed (text : JsString) : JsString :=
  replaceEach (fun n _ => [quotedSlot] ++ js (toString n) ++ [quotedSlot]) 0 0 (quotedSpan.matchAll text) text

def protect (found : JsString) : JsString := found.map fun u => if u = 46 then protectedDot else u

/- `(?<=\d)\.(?=\d)` -/
def guardDecimals : Option UInt16 → JsString → JsString
  | _, [] => []
  | before, u :: rest =>
      (if u = 46 && before.any digit && rest.head?.any digit then protectedDot else u) :: guardDecimals (some u) rest

def abbrevRun : Literal :=
  let dotted : Literal := .seq (.unit letterUnit) (the 46)
  all [wordEdge,dotted,dotted,.many dotted]

def abbrevWord : Literal :=
  all [wordEdge,eitherOf (["e.g","i.e","u.s","mr","mrs","dr","st"].map anyCase),the 46]

def guarded (text : JsString) : JsString :=
  let decimals := guardDecimals none (stashed text)
  let runs := replaceEach (fun _ => protect) 0 0 (abbrevRun.matchAll decimals) decimals
  replaceEach (fun _ => protect) 0 0 (abbrevWord.matchAll runs) runs

def decimalValue (digits : JsString) : Nat := digits.foldl (fun n u => n * 10 + (u.toNat - 48)) 0

def slotPattern : Literal := all [the quotedSlot,.some (.unit digit),the quotedSlot]

def restore (quoted : List JsString) (part : JsString) : JsString :=
  let dots := part.map fun u => if u = protectedDot then 46 else u
  replaceEach (fun _ found => (quoted[decimalValue found.dropLast.tail]?).getD []) 0 0 (slotPattern.matchAll dots) dots

/- `[,:\-–—]` -/
def clauseEdge (u : UInt16) : Bool := u = 44 || u = 58 || u = 45 || u = 0x2013 || u = 0x2014

/- Punctuation at the start and the blanks behind it; the same from the end. -/
def trimPunctuation (clause : JsString) : JsString :=
  let strip (s : JsString) : JsString := if s.head?.any clauseEdge then (s.dropWhile clauseEdge).dropWhile whiteSpace else s
  (strip (strip clause).reverse).reverse

/- What is left of a part, unless it is blank or a bare coordinator. -/
def clauseOf (quoted : List JsString) (part : JsString) : Option JsString :=
  let clause := trim (trimPunctuation (trim (restore quoted part)))
  if clause = [] || ["and","but","while","whereas","or"].any fun word => js word = clause.map lowerAscii then none else some clause

def coordinatingWord : Literal :=
  all [wordEdge,eitherOf (["and","while","whereas","but"].map anyCase),wordEdge]

inductive Method where
  | structural | deterministic | semantic | capped
  deriving DecidableEq, Repr

structure ClauseVerdict where
  clause : JsString
  verdict : VerificationVerdict
  deriving DecidableEq, Repr

structure VerificationResult where
  verdict : VerificationVerdict
  clauseVerdicts : Option (List ClauseVerdict)
  checkedAgainst : List JsString
  method : Method
  reason : JsString
  deriving DecidableEq, Repr

structure VerifiableClaim where
  text : JsString
  evidenceIds : List JsString
  deriving DecidableEq, Repr

variable (unicode : Unicode)

/- The words of a part in turn: behind a cut the rest starts at the end of a word, so its words
are the later ones of the whole part. -/
def cutWords (quoted : List JsString) (part : JsString) : Nat → List (Nat × JsString) → List JsString
  | start, [] => [part.drop start]
  | start, word :: rest =>
      let tokens (s : JsString) : Nat := (wordTokens unicode (restore quoted s)).length
      let left := slice part start word.1
      if 3 ≤ tokens left && 3 ≤ tokens (part.drop (word.1 + word.2.length)) then
        left :: cutWords quoted part (word.1 + word.2.length) rest
      else cutWords quoted part start rest

/- A run of sentence ends makes empty parts, which are no clauses. -/
def extractMaterialClauses (text : JsString) : List JsString :=
  let quoted := (quotedSpan.matchAll text).map Prod.snd
  let sentences := (guarded text).splitOnP fun u => u = 46 || u = 33 || u = 63
  let parts := (sentences.flatMap (List.splitOn 59)).flatMap fun part =>
    cutWords unicode quoted part 0 (coordinatingWord.matchAll part)
  parts.filterMap (clauseOf quoted)

/- Structural. -/
def refusal (reason : JsString) : VerificationResult := ⟨.notEnoughEvidence,none,[],.structural,reason⟩

def verifyClaimStructure (claim : VerifiableClaim) (evidence : List Entry) : Except VerificationResult (List Entry) :=
  if trim claim.text = [] then .error (refusal (js "empty claim text"))
  else match duplicateId [] claim.evidenceIds with
    | some id => .error (refusal (js "duplicate evidence id: " ++ id))
    | none =>
        let unknown := claim.evidenceIds.filter fun id => !evidence.any fun entry => entry.id = id
        let linked := claim.evidenceIds.filterMap fun id => evidence.reverse.find? fun entry => entry.id = id
        if unknown ≠ [] then .error (refusal (js "unknown evidence ids: " ++ [44].intercalate unknown))
        else if linked = [] then .error (refusal (js "claim cites no evidence"))
        else .ok linked

/- Deterministic. -/
def textsWith (verdict : VerificationVerdict) (clauses : List ClauseVerdict) : JsString :=
  (js " | ").intercalate ((clauses.filter fun entry => entry.verdict = verdict).map (·.clause))

def verifyClaimDeterministic (claimText : JsString) (linked : List Entry) : VerificationResult :=
  let checkedAgainst := linked.map (·.id)
  let clauses := (extractMaterialClauses unicode claimText).map fun clause =>
    (⟨clause,judgeClause unicode clause (linked.map (·.excerpt))⟩ : ClauseVerdict)
  if clauses = [] then ⟨.notEnoughEvidence,some [],checkedAgainst,.deterministic,js "empty claim text"⟩
  else if clauses.any fun entry => entry.verdict = .refuted then
    ⟨.refuted,some clauses,checkedAgainst,.deterministic,js "refuted clauses: " ++ textsWith .refuted clauses⟩
  else if clauses.all fun entry => entry.verdict = .supported then
    ⟨.supported,some clauses,checkedAgainst,.deterministic,js "all clauses supported"⟩
  else
    ⟨.notEnoughEvidence,some clauses,checkedAgainst,.deterministic,
      js "unsupported clauses: " ++ textsWith .notEnoughEvidence clauses⟩

/- Semantic. -/
def comparisonPattern : Literal :=
  eitherOf (["more","less","higher","lower","faster","slower","larger","smaller"].map anyCase)

def hasHighValueSignal (claimText : JsString) : Bool :=
  quotePattern.test claimText || yearPattern.test claimText || slashDatePattern.test claimText ||
    (numberPattern.matchAll claimText).any (fun found => hasValueSignal found.2 []) || comparisonPattern.test claimText

def gateSemanticVerification (claimText : JsString) (clauses : List ClauseVerdict) (conflicts : Nat) : Bool :=
  clauses.any (fun entry => entry.verdict = .notEnoughEvidence) && !clauses.any (fun entry => entry.verdict = .refuted) &&
    (hasHighValueSignal claimText || 0 < conflicts)

def verdictOf : JsValue → Option VerificationVerdict
  | .string text =>
      if text = js "supported" then some .supported
      else if text = js "refuted" then some .refuted
      else if text = js "not_enough_evidence" then some .notEnoughEvidence
      else none
  | _ => none

def readClause (entry : JsValue) : Option ClauseVerdict := do
  return ⟨← (entry.get "clause").asString,← verdictOf (entry.get "verdict")⟩

structure SemanticValue where
  clauseVerdicts : List ClauseVerdict
  reason : JsString
  deriving DecidableEq, Repr

/- A value that validSemanticValue accepts, read. -/
def semanticValue : JsValue → Option SemanticValue
  | .object fields => do
      let reason ← ((JsValue.object fields).get "reason").asString
      match (JsValue.object fields).get "clauseVerdicts" with
      | .array entries => return ⟨← entries.mapM readClause,reason⟩
      | _ => none
  | _ => none

/- What buildVerificationPrompt writes the prompt from. -/
structure Prompt where
  claimText : JsString
  linked : List Entry

inductive ModelReply where
  | threw
  | failed
  | value (raw : JsValue)
  deriving Repr

def ModelReply.semantic : ModelReply → Option SemanticValue
  | .value raw => semanticValue raw
  | _ => none

abbrev Model (σ : Type) := σ → Prompt → σ × ModelReply

def verifierUnavailable : JsString := js "verifier unavailable"

/- The verdict a list of clauses comes to. -/
def summary (clauses : List ClauseVerdict) : VerificationVerdict :=
  if clauses.any fun entry => entry.verdict = .refuted then .refuted
  else if clauses ≠ [] && clauses.all fun entry => entry.verdict = .supported then .supported
  else .notEnoughEvidence

def verifyClaimSemantic (linked : List Entry) (reply : ModelReply) : VerificationResult :=
  let checkedAgainst := linked.map (·.id)
  match reply.semantic with
  | none => ⟨.notEnoughEvidence,none,checkedAgainst,.semantic,verifierUnavailable⟩
  | some value => ⟨summary value.clauseVerdicts,some value.clauseVerdicts,checkedAgainst,.semantic,value.reason⟩

def normalizeClauseText (text : JsString) : JsString := collapseBlanks false (trim (unicode.toLowerCase text))

def semanticAligned (expected : List ClauseVerdict) (actual : Option (List ClauseVerdict)) : Bool := match actual with
  | none => false
  | some clauses => expected.length = clauses.length &&
      (expected.zip clauses).all fun pair =>
        normalizeClauseText unicode pair.1.clause = normalizeClauseText unicode pair.2.clause

/- Only a clause that is open takes the model's verdict. -/
def mergeClauses (clauses actual : List ClauseVerdict) : List ClauseVerdict :=
  (clauses.zip actual).map fun pair => if pair.1.verdict = .notEnoughEvidence then pair.2 else pair.1

/- The last rung, once the model has replied. -/
def settle (deterministic : VerificationResult) (linked : List Entry) (reply : ModelReply) : VerificationResult :=
  let clauses := deterministic.clauseVerdicts.getD []
  let semantic := verifyClaimSemantic linked reply
  if semantic.verdict = .notEnoughEvidence ∧ semantic.reason = verifierUnavailable then semantic
  else if semanticAligned unicode clauses semantic.clauseVerdicts then
    let merged := mergeClauses clauses (semantic.clauseVerdicts.getD [])
    ⟨summary merged,some merged,deterministic.checkedAgainst,.semantic,semantic.reason⟩
  else deterministic

variable {σ : Type}

def verifyClaim (model : Option (Model σ)) (conflicts : Nat) (evidence : List Entry) (s : σ) (claim : VerifiableClaim) :
    σ × VerificationResult :=
  match verifyClaimStructure claim evidence with
  | .error refused => (s,refused)
  | .ok linked =>
      let deterministic := verifyClaimDeterministic unicode claim.text linked
      match model with
      | none => (s,deterministic)
      | some model =>
          if deterministic.verdict = .notEnoughEvidence &&
              gateSemanticVerification claim.text (deterministic.clauseVerdicts.getD []) conflicts then
            let asked := model s ⟨claim.text,linked⟩
            (asked.1,settle unicode deterministic linked asked.2)
          else (s,deterministic)

/- The report. -/
def maxVerifiedClaimsPerReport : Nat := 20

structure ReportVerification where
  results : List VerificationResult
  supportedCount : Nat
  refutedCount : Nat
  unsupportedCount : Nat
  claimsNeedingRepair : List Nat
  deriving DecidableEq, Repr

def cappedResult : VerificationResult := ⟨.notEnoughEvidence,none,[],.capped,js "verification cap reached"⟩

def verifyClaims (model : Option (Model σ)) (conflicts : Nat) (evidence : List Entry) :
    Nat → σ → List VerifiableClaim → σ × List VerificationResult
  | _, s, [] => (s,[])
  | index, s, claim :: rest =>
      if maxVerifiedClaimsPerReport ≤ index then
        let later := verifyClaims model conflicts evidence (index + 1) s rest
        (later.1,cappedResult :: later.2)
      else
        let verified := verifyClaim unicode model conflicts evidence s claim
        let later := verifyClaims model conflicts evidence (index + 1) verified.1 rest
        (later.1,verified.2 :: later.2)

def countVerdict (verdict : VerificationVerdict) (results : List VerificationResult) : Nat :=
  results.countP fun result => result.verdict = verdict

def needsRepair (result : VerificationResult) : Bool :=
  (result.clauseVerdicts.getD []).any (fun entry => entry.verdict = .refuted) || result.verdict = .refuted

def reportOf (results : List VerificationResult) (repair : VerificationResult → Bool) : ReportVerification where
  results := results
  supportedCount := countVerdict .supported results
  refutedCount := countVerdict .refuted results
  unsupportedCount := countVerdict .notEnoughEvidence results
  claimsNeedingRepair := (results.zipIdx.filter fun indexed => repair indexed.1).map (·.2)

def verifyReport (model : Option (Model σ)) (conflicts : Nat) (evidence : List Entry) (s : σ) (claims : List VerifiableClaim) :
    σ × ReportVerification :=
  let verified := verifyClaims unicode model conflicts evidence 0 s claims
  (verified.1,reportOf verified.2 needsRepair)

end Northstar.Agent.Verifier
