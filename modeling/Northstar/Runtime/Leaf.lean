import Northstar.Script

/-! The local leaf runtime (local-leaf-runtime.ts): its run table between any two of the
points where a request waits. A start waits for its model between the capacity check and
the insertion of the run. Run objects keep their handlers after they leave the table. -/
namespace Northstar.Runtime

def maxParallelRuns : Nat := 4
def maxResultBytes : Nat := 262144

inductive RunState where
  | running | completed | failed | cancelled
  deriving DecidableEq, Repr

def RunState.wire : RunState → String
  | .running => "running"
  | .completed => "completed"
  | .failed => "failed"
  | .cancelled => "cancelled"

structure LocalRun where
  runId : JsString
  state : RunState
  startedAt : Int
  updatedAt : Int
  output : Option JsString
  outputTokens : Option Number
  error : Option JsString
  aborted : Bool
  settled : Bool
  deriving DecidableEq, Repr

inductive LeafErrorCode where
  | modelUnavailable | capacityExceeded | unsupportedCapability | invalidState | providerError | notFound
  deriving DecidableEq, Repr

structure LocalLeafRuntimeError where
  code : LeafErrorCode
  message : JsString
  deriving DecidableEq, Repr

structure StartParams where
  modelId : JsString
  prompt : JsString
  maxOutputTokens : Number
  timeoutMs : Number
  outputSchema : Bool
  deriving DecidableEq, Repr

/- A start that passed its checks and waits for resolveModel. -/
structure WaitingStart where
  modelId : JsString
  params : StartParams
  deriving DecidableEq, Repr

structure LeafConfig where
  retentionMs : Int
  maxRuns : Nat
  defaultModelId : Option JsString

structure LeafRuntime where
  objects : List LocalRun
  runs : List (JsString × Nat)
  waiting : List WaitingStart
  deriving DecidableEq, Repr

def LeafRuntime.empty : LeafRuntime := ⟨[],[],[]⟩

/- What completeSimple's promise gives: a message, or the error it rejects with. -/
inductive Completion where
  | message (stopError : Bool) (errorMessage : Option JsString) (texts : List JsString)
      (usageOutput : Option Number)
  | rejected (error : Option JsString)

/- Map.set: an existing key keeps its place. -/
def mapSet {K V : Type} [DecidableEq K] : List (K × V) → K → V → List (K × V)
  | [], key, value => [(key,value)]
  | (k,v) :: rest, key, value =>
      if k = key then (key,value) :: rest else (k,v) :: mapSet rest key value

def approxOutputTokens (text : JsString) : Number := .int ((byteLength text + 3) / 4 : Nat)

def splitModelId (modelId : JsString) : Option (JsString × JsString) :=
  let slash := modelId.findIdx (· == 47)
  if slash = 0 ∨ slash + 1 ≥ modelId.length then none
  else some (modelId.take slash,modelId.drop (slash + 1))

namespace LocalRun

def fulfil (run : LocalRun) (stopError : Bool) (errorMessage : Option JsString)
    (texts : List JsString) (usageOutput : Option Number) (now : Int) : LocalRun :=
  if run.state = .cancelled then run
  else if stopError then
    { run with
      state := .failed
      error := some (match errorMessage with
        | some (u :: rest) => u :: rest
        | _ => js "provider_error")
      updatedAt := now }
  else
    let output := texts.flatten
    if byteLength output > maxResultBytes then
      { run with state := .failed, error := some (js "result_byte_limit_exceeded"), updatedAt := now }
    else
      { run with
        state := .completed
        output := some output
        outputTokens := some (usageOutput.getD (approxOutputTokens output))
        updatedAt := now }

def reject (run : LocalRun) (error : Option JsString) (now : Int) : LocalRun :=
  if run.state = .cancelled then run
  else
    { run with
      state := if run.aborted then .cancelled else .failed
      error := some (error.getD (js "provider_error"))
      updatedAt := now }

/- The handlers of the provider's promise, then the one that resolves `settled`. -/
def settle (run : LocalRun) (now : Int) : Completion → LocalRun
  | .message stopError errorMessage texts usageOutput =>
      { run.fulfil stopError errorMessage texts usageOutput now with settled := true }
  | .rejected error => { run.reject error now with settled := true }

def cancel (run : LocalRun) (now : Int) : LocalRun :=
  if run.state = .running then { run with state := .cancelled, updatedAt := now, aborted := true }
  else run

end LocalRun

namespace LeafRuntime

def object (s : LeafRuntime) (entry : JsString × Nat) : Option LocalRun := s.objects[entry.2]?

def isRunning (s : LeafRuntime) (entry : JsString × Nat) : Bool :=
  (s.object entry).any (·.state == .running)

def running (s : LeafRuntime) : Nat := s.runs.countP s.isRunning

def prune (config : LeafConfig) (s : LeafRuntime) (now : Int) : LeafRuntime :=
  { s with runs := s.runs.filter fun entry => s.isRunning entry ||
      !(s.object entry).any (fun run => run.updatedAt < now - config.retentionMs) }

/- Oldest first, finished runs leave until the table fits. -/
def evict (s : LeafRuntime) (maxRuns : Nat) : Nat → List (JsString × Nat) → List (JsString × Nat)
  | _, [] => []
  | size, entry :: rest =>
      if size ≤ maxRuns then entry :: rest
      else if s.isRunning entry then entry :: evict s maxRuns size rest
      else evict s maxRuns (size - 1) rest

def enforceRunBound (config : LeafConfig) (s : LeafRuntime) : LeafRuntime :=
  { s with runs := s.evict config.maxRuns s.runs.length s.runs }

def start (config : LeafConfig) (s : LeafRuntime) (params : StartParams) :
    Except LocalLeafRuntimeError LeafRuntime :=
  if s.running ≥ maxParallelRuns then
    .error ⟨.capacityExceeded,js "Local leaf runtime is at capacity."⟩
  else
    let own := trim params.modelId
    let modelId := if own = [] then config.defaultModelId.getD [] else own
    if params.outputSchema then
      .error ⟨.unsupportedCapability,js "Local standalone runtime is text-only."⟩
    else if (splitModelId modelId).isNone then
      .error ⟨.modelUnavailable,js "Exact provider/model ID is required."⟩
    else .ok { s with waiting := s.waiting ++ [⟨modelId,params⟩] }

/- The model is there: the run is inserted, and the provider called. -/
def insert (config : LeafConfig) (s : LeafRuntime) (runId : JsString) (now : Int) : LeafRuntime :=
  let run : LocalRun := ⟨runId,.running,now,now,none,none,none,false,false⟩
  enforceRunBound config
    { s with objects := s.objects ++ [run], runs := mapSet s.runs runId s.objects.length }

def find (s : LeafRuntime) (runId : JsString) : Option LocalRun :=
  (s.runs.find? (·.1 == runId)).bind s.object

def requireRun (s : LeafRuntime) (runId : JsString) : Except LocalLeafRuntimeError LocalRun :=
  match s.find runId with
  | none => .error ⟨.notFound,js "Run was not found or has expired."⟩
  | some run => .ok run

def status (s : LeafRuntime) (runId : JsString) : Except LocalLeafRuntimeError JsValue := do
  let run ← s.requireRun runId
  pure (.object [(js "runId",.string run.runId),(js "state",.string (js run.state.wire)),
    (js "startedAt",.number (.int run.startedAt)),(js "updatedAt",.number (.int run.updatedAt))])

def resultData (run : LocalRun) : JsValue :=
  .object [(js "runId",.string run.runId),(js "state",.string (js "completed")),
    (js "output",.string (run.output.getD [])),
    (js "outputTokens",.number (run.outputTokens.getD (.int 0))),(js "truncated",.bool false)]

def result (s : LeafRuntime) (runId : JsString) : Except LocalLeafRuntimeError JsValue := do
  let run ← s.requireRun runId
  match run.state with
  | .running => .error ⟨.invalidState,js "Run is still active."⟩
  | .failed => .error ⟨.providerError,run.error.getD (js "Leaf provider failed.")⟩
  | .cancelled => .error ⟨.invalidState,js "Run was cancelled."⟩
  | .completed => pure (resultData run)

def cancelEach (now : Int) (objects : List LocalRun) (selected : List Nat) : List LocalRun :=
  selected.foldl (fun objects i => objects.modify i (·.cancel now)) objects

/- The part of cancelAndSettle before it waits; the wait and the reply only read. -/
def cancelAll (s : LeafRuntime) (runIds : List JsString) (now : Int) : LeafRuntime :=
  let selected := runIds.filterMap fun runId => (s.runs.find? (·.1 == runId)).map (·.2)
  { s with objects := cancelEach now s.objects selected }

def settlements (s : LeafRuntime) (runIds : List JsString) : JsValue :=
  .object [(js "settlements",.array (runIds.map fun runId =>
    .object [(js "runId",.string runId),
      (js "state",.string (js (((s.find runId).map (·.state.wire)).getD "unknown")))]))]

end LeafRuntime

inductive LeafEvent where
  | start (params : StartParams) (now : Int)
  | resolve (waiting : Nat) (found : Bool) (runId : JsString) (now : Int)
  | settle (object : Nat) (completion : Completion) (now : Int)
  | cancelAndSettle (runIds : List JsString) (now : Int)
  | read (now : Int)

/- Every request prunes first. A promise settles once; `read` stands for negotiate, status
and result, whose replies are the functions above. -/
def leafStep (config : LeafConfig) (s : LeafRuntime) : LeafEvent → LeafRuntime
  | .start params now =>
      let s := s.prune config now
      match s.start config params with
      | .ok s => s
      | .error _ => s
  | .resolve waiting found runId now =>
      if waiting < s.waiting.length then
        let s := { s with waiting := s.waiting.eraseIdx waiting }
        if found then s.insert config runId now else s
      else s
  | .settle object completion now => match s.objects[object]? with
      | none => s
      | some run =>
          if run.settled then s
          else { s with objects := s.objects.modify object (·.settle now completion) }.prune config now
  | .cancelAndSettle runIds now => (s.prune config now).cancelAll runIds now
  | .read now => s.prune config now

/- A start passes its check while running runs and waiting starts already fill the limit. -/
def overcommits (config : LeafConfig) (s : LeafRuntime) : LeafEvent → Bool
  | .start params now =>
      let s := s.prune config now
      (match s.start config params with
        | .ok _ => true
        | .error _ => false) && decide (s.running + s.waiting.length ≥ maxParallelRuns)
  | _ => false

end Northstar.Runtime
