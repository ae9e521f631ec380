import Northstar.Agent.Evaluation

/-! The query ledger over a round (agent-gather.ts, agent-core.ts): what a proposed action is
recorded as, which actions the budgets let through to the ledger, and which of those it accepts.
The stop policy looks the same actions up before the round, under their raw text and route. -/
namespace Northstar.Agent.Recording
open State Intents Evaluation

inductive GatherLane where
  | web | research | github | social | video | kg
  deriving DecidableEq, Repr

/- The usable flags of the capability snapshot, and the specialist tools there are. -/
structure Snapshot where
  youtube : Bool
  bilibili : Bool
  social : List (SocialPlatform × Bool)
  kg : Bool

structure Budgets where
  maxSearches : Nat
  maxFetches : Nat
  maxGatherActions : Nat
  laneCaps : GatherLane → Nat

structure Counters where
  searchesUsed : Nat
  fetchesUsed : Nat
  gatherActionsUsed : Nat
  laneActionsUsed : GatherLane → Nat

structure Context where
  snapshot : Option Snapshot
  tools : GatherLane → Bool
  counters : Counters
  budgets : Budgets

def intentLane : GatherIntent → GatherLane
  | .webSearch _ _ => .web
  | .researchSearch _ _ _ _ _ => .research
  | .githubRepo _ => .github
  | .githubCode _ _ => .github
  | .githubIssues _ _ _ _ => .github
  | .githubFiles _ _ => .github
  | .socialSearch _ _ _ => .social
  | .videoTranscript _ => .video
  | .kgLookup _ _ _ _ _ => .kg
  | .webFetch _ => .web

def isFetchRead : GatherIntent → Bool
  | .webFetch _ => true
  | _ => false

def gatherActionAdmissibility (snapshot : Snapshot) : GatherIntent → Bool
  | .socialSearch platform _ _ => (snapshot.social.find? fun entry => entry.1 = platform).any (·.2)
  | .videoTranscript _ => snapshot.youtube
  | .kgLookup _ _ _ _ _ => snapshot.kg
  | _ => true

/- A specialist route without its capability or its tool rides on web_search. -/
def degrades (ctx : Context) (intent : GatherIntent) : Bool :=
  intentLane intent ≠ .web && match ctx.snapshot with
    | none => true
    | some snapshot => !gatherActionAdmissibility snapshot intent || !ctx.tools (intentLane intent)

/- An intent as the object it is validated as once more. -/
def field {α : Type} (key : String) (wrap : α → JsValue) (value : Option α) : List (JsString × JsValue) :=
  (value.map fun value => (js key,wrap value)).toList

def text (key : String) (value : JsString) : JsString × JsValue := (js key,.string value)

def whole (n : Nat) : JsValue := .number (.int n)

def kindOf (kind : String) : JsString × JsValue := (js "kind",.string (js kind))

def nameOf {α : Type} [DecidableEq α] (names : List (String × α)) (value : α) : JsValue :=
  .string (js (((names.find? fun known => known.2 = value).map (·.1)).getD ""))

def rawIntent : GatherIntent → JsValue
  | .webSearch query limit => .object ([kindOf "web_search",text "query" query] ++ field "limit" whole limit)
  | .researchSearch query source yearFrom yearTo limit => .object ([kindOf "research_search",text "query" query] ++
      field "source" .string source ++ field "yearFrom" whole yearFrom ++ field "yearTo" whole yearTo ++
      field "limit" whole limit)
  | .githubRepo query => .object [kindOf "github_search",text "scope" (js "repo"),text "query" query]
  | .githubCode query repoHint => .object ([kindOf "github_search",text "scope" (js "code"),text "query" query] ++
      field "repoHint" .string repoHint)
  | .githubIssues repoHint state labels number => .object ([kindOf "github_search",text "scope" (js "issues"),
      text "repoHint" repoHint] ++ field "state" (nameOf githubIssueStates) state ++
      field "labels" (fun labels => .array (labels.map .string)) labels ++ field "number" whole number)
  | .githubFiles query repoHint => .object [kindOf "github_search",text "scope" (js "files"),text "query" query,
      text "repoHint" repoHint]
  | .socialSearch platform query sort => .object ([kindOf "social_search",(js "platform",nameOf socialPlatforms platform),
      text "query" query] ++ field "sort" .string sort)
  | .videoTranscript videoHint => .object [kindOf "video_transcript",text "videoHint" videoHint]
  | .kgLookup entityType name url id limit => .object ([kindOf "kg_lookup",(js "entityType",
      .string (js (match entityType with | .person => "Person" | .organization => "Organization")))] ++
      field "name" .string name ++ field "url" .string url ++ field "id" .string id ++ field "limit" whole limit)
  | .webFetch url => .object [kindOf "web_fetch",text "url" url]

structure PlannedAction where
  intent : GatherIntent
  query : JsString
  questionId : JsString
  degraded : Bool
  deriving DecidableEq, Repr

variable (w : Web)

/- `none` where the action is skipped before the ledger: invalid, or without a text. -/
def planAction (ctx : Context) (action : AgentNextAction) : Option PlannedAction :=
  match validateGatherIntent w (rawIntent action.intent) with
  | .error _ => none
  | .ok intent =>
      let query := if isFetchRead intent then actionSearchText intent else sanitizeEvaluatorQuery (actionSearchText intent)
      if query = [] then none else some ⟨intent,query,action.questionId,degrades ctx intent⟩

namespace PlannedAction

def lane (a : PlannedAction) : GatherLane := if a.degraded then .web else intentLane a.intent

def consumesSearchSlot (a : PlannedAction) : Bool := !isFetchRead a.intent && (a.degraded || intentLane a.intent = .web)

/- A fetch is recorded under a route of its own, a degraded action under the route it rides on. -/
def input (a : PlannedAction) : QueryInput :=
  ⟨a.query,some a.questionId,
    if isFetchRead a.intent then js "web_fetch" else if a.degraded then js "web" else intentRoute a.intent⟩

end PlannedAction

/- The shared exhaustion predicate (agent-policy.ts). -/
structure ActionDispatchState where
  gatherActionsUsed : Nat
  laneActionsUsed : GatherLane → Nat
  searchesUsed : Nat
  pendingWebFetches : Nat
  fetchesUsed : Nat
  admissibleLanes : List GatherLane

def canDispatchAnyAction (state : ActionDispatchState) (budgets : Budgets) : Bool :=
  state.gatherActionsUsed < budgets.maxGatherActions && state.admissibleLanes.any fun lane =>
    state.laneActionsUsed lane < budgets.laneCaps lane &&
      (!(lane = .web && budgets.maxSearches ≤ state.searchesUsed) ||
        (0 < state.pendingWebFetches && state.fetchesUsed < budgets.maxFetches))

def admissibleGatherLanes (snapshot : Snapshot) : List GatherLane :=
  [.web,.research,.github] ++ (if snapshot.social.any (·.2) then [.social] else []) ++
    (if snapshot.youtube || snapshot.bilibili then [.video] else []) ++ if snapshot.kg then [.kg] else []

/- Whether the budgets let an action through, behind the legs of the round that are recorded. -/
def withinBudgets (ctx : Context) (legs : List PlannedAction) (action : PlannedAction) : Bool :=
  let laneUsed (lane : GatherLane) := ctx.counters.laneActionsUsed lane + legs.countP fun leg => leg.lane = lane
  let searches := ctx.counters.searchesUsed + legs.countP (·.consumesSearchSlot)
  let fetches := (legs ++ [action]).countP fun leg => isFetchRead leg.intent
  laneUsed action.lane < ctx.budgets.laneCaps action.lane &&
    canDispatchAnyAction ⟨ctx.counters.gatherActionsUsed + legs.length,laneUsed,searches,fetches,
      ctx.counters.fetchesUsed,(ctx.snapshot.map admissibleGatherLanes).getD [.web]⟩ ctx.budgets &&
    !(action.lane = .web && !isFetchRead action.intent && ctx.budgets.maxSearches ≤ searches)

inductive Verdict where
  | dropped
  | held
  | rejected (reason : String)
  | recorded
  deriving DecidableEq, Repr

def verdictOf : Outcome AgentQuery → Verdict
  | .accepted _ => .recorded
  | .rejected reason => .rejected reason

/- The ledger pass of the executor. -/
def recordActions (ctx : Context) (s : AgentState) (legs : List PlannedAction) :
    List AgentNextAction → AgentState × List Verdict
  | [] => (s,[])
  | action :: rest => match planAction w ctx action with
      | none =>
          let later := recordActions ctx s legs rest
          (later.1,.dropped :: later.2)
      | some planned =>
          if !withinBudgets ctx legs planned then
            let later := recordActions ctx s legs rest
            (later.1,.held :: later.2)
          else
            let recorded := recordQuery w.toTables s planned.input
            let verdict := verdictOf recorded.2
            let later := recordActions ctx recorded.1 (if verdict = .recorded then legs ++ [planned] else legs) rest
            (later.1,verdict :: later.2)

/- The legs of a run without an executor: the clean text under the route of the intent, until the
searches that are left are used up. -/
def legInput (action : AgentNextAction) : Option QueryInput :=
  let query := sanitizeEvaluatorQuery (actionSearchText action.intent)
  if query = [] then none else some ⟨query,some action.questionId,intentRoute action.intent⟩

def recordLegs (s : AgentState) (room : Nat) : List (Option QueryInput) → AgentState × List Verdict
  | [] => (s,[])
  | none :: rest =>
      let later := recordLegs s room rest
      (later.1,.dropped :: later.2)
  | some input :: rest =>
      if room = 0 then
        let later := recordLegs s room rest
        (later.1,.held :: later.2)
      else
        let recorded := recordQuery w.toTables s input
        let verdict := verdictOf recorded.2
        let later := recordLegs recorded.1 (if verdict = .recorded then room - 1 else room) rest
        (later.1,verdict :: later.2)

/- The stop policy's side. -/
def rawInput (action : AgentNextAction) : QueryInput :=
  ⟨actionSearchText action.intent,some action.questionId,intentRoute action.intent⟩

def remaining (s : AgentState) (action : AgentNextAction) : Bool := !hasExactDuplicate w.toTables s (rawInput action)

/- The next round's recorder, and what it records an action as. -/
inductive Recorder where
  | legs (room : Nat)
  | executor (ctx : Context)

def Recorder.input : Recorder → AgentNextAction → Option QueryInput
  | .legs _, action => legInput action
  | .executor ctx, action => (planAction w ctx action).map PlannedAction.input

def Recorder.record (s : AgentState) (actions : List AgentNextAction) : Recorder → List Verdict
  | .legs room => (recordLegs w s room (actions.map legInput)).2
  | .executor ctx => (recordActions w ctx s [] actions).2

end Northstar.Agent.Recording
