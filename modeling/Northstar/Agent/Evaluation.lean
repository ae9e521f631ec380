import Northstar.Agent.Intents

/-! Evaluator updates (agent-evaluator.ts, agent-core.ts): what of a reply is kept, what it does to
the questions, and the promotion that follows it. In a run a grounded question stays grounded
exactly as long as no round's last kept update of it says blocked or abandoned. -/
namespace Northstar.Agent.Evaluation
open State Intents

inductive UpdateStatus where
  | answered | blocked | abandoned
  deriving DecidableEq, Repr

def validStatuses : List (String × UpdateStatus) :=
  [("answered",.answered),("blocked",.blocked),("abandoned",.abandoned)]

structure AgentQuestionUpdate where
  questionId : JsString
  status : UpdateStatus
  evidenceIds : Option (List JsString)
  deriving DecidableEq, Repr

structure AgentNextAction where
  questionId : JsString
  intent : GatherIntent
  deriving DecidableEq, Repr

structure AgentEvaluation where
  questionUpdates : List AgentQuestionUpdate
  nextActions : List AgentNextAction
  shouldContinue : Bool
  deriving DecidableEq, Repr

def maxNextActions : Nat := 2

def linked (s : AgentState) (questionId id : JsString) : Bool :=
  (s.admittedEvidence.find? fun entry => entry.id = id).any fun entry => entry.questionIds.contains questionId

/- An update that names evidence names admitted evidence of its question; an answer names some. -/
def keptUpdate (s : AgentState) (entry : JsValue) : Option AgentQuestionUpdate := do
  let id ← (entry.get "questionId").asString
  guard (s.questions.any fun q => q.id = id)
  let status ← named validStatuses (entry.get "status")
  match entry.get "evidenceIds" with
  | .undefined => if status = .answered then none else return ⟨id,status,none⟩
  | .array items =>
      let ids ← items.mapM JsValue.asString
      guard !(status = .answered && ids = [])
      guard (ids.all (linked s id))
      return ⟨id,status,some ids⟩
  | _ => none

/- kg_lookup, the issues scope and web_fetch carry no query, so they pass as they are. -/
def rewriteIntentText (intent : GatherIntent) (text : JsString) : GatherIntent := match intent with
  | .webSearch _ limit => .webSearch text limit
  | .researchSearch _ source yearFrom yearTo limit => .researchSearch text source yearFrom yearTo limit
  | .githubRepo _ => .githubRepo text
  | .githubCode _ repoHint => .githubCode text repoHint
  | .githubFiles _ repoHint => .githubFiles text repoHint
  | .socialSearch platform _ sort => .socialSearch platform text sort
  | .videoTranscript _ => .videoTranscript text
  | .githubIssues _ _ _ _ => intent
  | .kgLookup _ _ _ _ _ => intent
  | .webFetch _ => intent

def selectorOnly : GatherIntent → Bool
  | .kgLookup _ _ _ _ _ => true
  | .githubIssues _ _ _ _ => true
  | _ => false

variable (w : Web)

/- An action with the URL of a candidate source, or with a text that is long enough once clean. -/
def keptAction (s : AgentState) (researchSources : List JsString) (entry : JsValue) : Option AgentNextAction := do
  let id ← (entry.get "questionId").asString
  guard (s.questions.any fun q => q.id = id)
  let intent ← (validateGatherIntent w (entry.get "intent")).toOption
  match intent with
  | .webFetch url =>
      guard (researchSources.any fun source => normalizeUrl w.toPlatform source = normalizeUrl w.toPlatform url)
      return ⟨id,intent⟩
  | _ =>
      let searchText := sanitizeEvaluatorQuery (actionSearchText intent)
      guard (searchText ≠ [] && byteLength searchText ≤ queryMaxBytes)
      guard (selectorOnly intent || queryMinBytes ≤ byteLength searchText)
      return ⟨id,rewriteIntentText intent searchText⟩

def validateEvaluation (s : AgentState) (researchSources : List JsString) (raw : JsValue) : Option AgentEvaluation :=
  match raw.get "questionUpdates", raw.get "nextActions", raw.get "shouldContinue" with
  | .array updates, .array actions, .bool shouldContinue =>
      some ⟨updates.filterMap (keptUpdate s),
        (actions.filterMap (keptAction w s researchSources)).take maxNextActions,shouldContinue⟩
  | _, _, _ => none

/- The updates on the questions, in order. -/
def UpdateStatus.toQuestion : UpdateStatus → QuestionStatus
  | .answered => .answered
  | .blocked => .blocked
  | .abandoned => .abandoned

def applyUpdate (s : AgentState) (update : AgentQuestionUpdate) : AgentState :=
  { s with questions := onFirst update.questionId (fun q => { q with status := update.status.toQuestion }) s.questions }

/- The promotion of the question at an index. -/
def promoteAnswered (s : AgentState) (index : Nat) : AgentState := match s.questions[index]? with
  | none => s
  | some question =>
      let linked := s.admittedEvidence.filter fun entry => entry.questionIds.contains question.id
      if question.required && question.status = .answered && linked ≠ [] then
        (promoteToGrounded s question.id (linked.map (·.id))).1
      else s

def applyEvaluation (s : AgentState) (value : AgentEvaluation) : AgentState :=
  let updated := value.questionUpdates.foldl applyUpdate s
  (List.range updated.questions.length).foldl promoteAnswered updated

/- What a run of the research loop does to the state. A reply that is no evaluation changes nothing. -/
inductive Event where
  | question (input : QuestionInput)
  | evidence (input : AgentEvidenceInput)
  | query (input : QueryInput)
  | evaluation (researchSources : List JsString) (raw : JsValue)

def step (s : AgentState) : Event → AgentState
  | .question input => (addQuestion w.toTables s input).1
  | .evidence input => (addEvidence w.toTables s input).1
  | .query input => (recordQuery w.toTables s input).1
  | .evaluation researchSources raw => match validateEvaluation w s researchSources raw with
      | none => s
      | some value => applyEvaluation s value

def Grounded (s : AgentState) (id : JsString) : Prop := ∃ q ∈ s.questions, q.id = id ∧ q.status = .grounded

/- What the round's updates leave a question with. -/
def lastUpdate (updates : List AgentQuestionUpdate) (id : JsString) : Option UpdateStatus :=
  ((updates.filter fun update => update.questionId = id).getLast?).map (·.status)

/- No grounded question ends the round blocked or abandoned. -/
def Upheld (s : AgentState) : Event → Prop
  | .evaluation researchSources raw => ∀ value, validateEvaluation w s researchSources raw = some value →
      ∀ id, Grounded s id → lastUpdate value.questionUpdates id = none ∨
        lastUpdate value.questionUpdates id = some .answered
  | _ => True

end Northstar.Agent.Evaluation
