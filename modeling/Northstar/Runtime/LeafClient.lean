import Northstar.Runtime.Reply

/-! The leaf-runtime client over an event bus (leaf-runtime-client.ts): every runLeaf call is
at one of its awaits, and all share the pending requests and the list of known runs. Replies,
timers and the caller's calls are the events; what goes out on the bus is kept. -/
namespace Northstar.Runtime

def refreshTimeoutMs : Int := 10000

structure LeafRuntimeError where
  code : String
  message : JsString
  deriving DecidableEq, Repr

def runtimeRpcErrorMessages : List (String × String) :=
  [("invalid_request","Malformed runtime request."),("invalid_params","Invalid runtime params."),
   ("unsupported_version","Unsupported runtime version."),("unsupported_method","Unsupported runtime method."),
   ("duplicate_request_id","Duplicate runtime request ID."),
   ("runtime_unavailable","Leaf runtime unavailable on this host."),
   ("unsupported_capability","Model or capability unsupported by leaf runtime."),
   ("capacity_exceeded","Leaf runtime at capacity."),("not_found","Runtime run not found."),
   ("invalid_state","Runtime run is not in a state for that operation."),
   ("model_unavailable","Exact model unavailable."),("provider_error","Provider execution failed."),
   ("timeout","Leaf run timed out."),
   ("output_token_limit_exceeded","Reported output tokens exceed requested cap."),
   ("result_byte_limit_exceeded","Result payload exceeds byte limit."),
   ("output_contract_breach","Provider output violated leaf contract."),
   ("contract_breach","Cancellation settlement breached; runtime unhealthy.")]

def runtimeError (code : String) : LeafRuntimeError :=
  ⟨code,js ((runtimeRpcErrorMessages.lookup code).getD "")⟩

def localTimeout : LeafRuntimeError := ⟨"timeout",js "Leaf runtime request timed out."⟩
def disposedError : LeafRuntimeError := ⟨"disposed",js "Leaf runtime client disposed."⟩
def invalidReply : LeafRuntimeError := ⟨"invalid_reply",js "Malformed leaf runtime reply."⟩

/- What a bus throws is no error of the runtime. -/
def busError : LeafRuntimeError := ⟨"thrown",[]⟩

def wireErrorToSafe (code : JsValue) : LeafRuntimeError :=
  match runtimeRpcErrorMessages.find? fun entry => code.asString == some (js entry.1) with
  | some entry => runtimeError entry.1
  | none => runtimeError "provider_error"

def asTimeoutMs (value : Option Number) (fallback : Int) : Except LeafRuntimeError Int := match value with
  | none => .ok fallback
  | some (.int n) =>
      if n < minTimeoutMs then .error ⟨"timeout",js "timeoutMs out of range."⟩
      else if n > maxTimeoutMs then
        .error ⟨"timeout",js "timeoutMs exceeds maximum; rejected, never clamped."⟩
      else .ok n
  | some (.float _) => .error ⟨"timeout",js "timeoutMs out of range."⟩

structure LeafRunOptions where
  maxOutputTokens : Option Number := none
  timeoutMs : Option Number := none
  outputSchema : JsValue := .undefined
  role : JsValue := .undefined
  stage : JsValue := .undefined
  queryIndex : JsValue := .undefined
  attempt : JsValue := .undefined
  correlationId : JsValue := .undefined

structure LeafSettings where
  modelId : JsString
  defaultTimeoutMs : Int

inductive LeafPoint where
  | negotiating | starting | sleeping | polling | fetching | over
  deriving DecidableEq, Repr

structure LeafCall where
  prompt : JsString
  opts : LeafRunOptions
  maxOutputTokens : Int
  deadline : Int
  point : LeafPoint
  runId : Option JsString
  outcome : Option (Except LeafRuntimeError JsString)

def LeafCall.returned (call : LeafCall) : Bool := match call.outcome with
  | some (.ok _) => true
  | _ => false

/- Who waits for a request: a runLeaf call, refreshReady, or a caller of request. -/
inductive Asker where
  | leaf (call : Nat)
  | refresh
  | outside
  deriving DecidableEq, Repr

structure PendingRequest where
  number : Nat
  method : RuntimeRpcMethod
  asker : Asker
  deriving DecidableEq, Repr

inductive Emission where
  | request (request : RuntimeRequest)
  | cancel (runIds : List JsString)

structure LeafRuntimeClient where
  pending : List PendingRequest := []
  startedRunIds : List JsString := []
  correlationV2 : Bool := false
  disposed : Bool := false
  busFails : Bool := false
  calls : List LeafCall := []
  drawn : Nat := 0
  emitted : List Emission := []
  clock : Int := 0

def isRecord (v : JsValue) : Bool := (fieldsOf v).isSome

/- Strings that are not empty; everything else takes the default. -/
def textOr (value : JsValue) (fallback : JsString) : JsString := match value with
  | .string [] => fallback
  | .string text => text
  | _ => fallback

def numberOr (value : JsValue) : JsValue := match value with
  | .undefined | .null => .number (.int 0)
  | given => given

namespace LeafRuntimeClient

section
variable (settings : LeafSettings) (ids : Nat → JsString) (regExp : JsString → Bool)

def parseCorrelationV2Capability (data : JsValue) : Bool :=
  let value := (data.get "capabilities").get "correlationV2"
  match value.get "ownerPattern", value.get "roles" with
  | .string pattern, .array roles => pattern ≠ [] && regExp pattern && roles.all fun role => role.asString.isSome
  | _, _ => false

def adoptNegotiateData (data : JsValue) (s : LeafRuntimeClient) : Bool × LeafRuntimeClient :=
  let compatible := match data.get "compatible" with
    | .bool true => true
    | _ => false
  let modelId := data.get "modelId"
  if !isRecord data || !compatible then (false,{ s with correlationV2 := false })
  else if !isUndefined modelId && modelId.asString ≠ some settings.modelId then
    (false,{ s with correlationV2 := false })
  else (true,{ s with correlationV2 := parseCorrelationV2Capability regExp data })

/- A correlation without an id of its own draws one. -/
def composeCorrelation (opts : LeafRunOptions) (s : LeafRuntimeClient) : JsValue × LeafRuntimeClient :=
  let fresh := textOr opts.correlationId []
  let correlationId := if fresh = [] then (ids s.drawn).take 32 else fresh
  let drawn := if fresh = [] then s.drawn + 1 else s.drawn
  let role := match opts.role with
    | .string role => role
    | _ => js "synthesizer"
  let known := if s.correlationV2 then roleShape role
    else [js "coverage_planner",js "researcher",js "synthesizer"].contains role
  let version := if s.correlationV2 then [(js "correlationVersion",JsValue.number (.int 2))] else []
  (.object (version ++ [(js "owner",.string (js "northstar")),(js "correlationId",.string correlationId),
    (js "queryIndex",numberOr opts.queryIndex),
    (js "role",.string (if known then role else js "researcher")),
    (js "stage",.string (textOr opts.stage (js "leaf-report"))),(js "attempt",numberOr opts.attempt)]),
   { s with drawn := drawn })

def envelope (requestId : JsString) (method : RuntimeRpcMethod) (params : JsValue) : JsValue :=
  .object [(js "version",.number (.int 1)),(js "requestId",.string requestId),
    (js "method",.string (js method.wire)),(js "params",params)]

/- A request that is refused at once gives the error. -/
def request (asker : Asker) (method : RuntimeRpcMethod) (params : JsValue) (timeoutMs : Option Number)
    (s : LeafRuntimeClient) : Option LeafRuntimeError × LeafRuntimeClient :=
  if s.disposed then (some disposedError,s)
  else match asTimeoutMs timeoutMs settings.defaultTimeoutMs with
    | .error error => (some error,s)
    | .ok _ =>
        let drawn := { s with drawn := s.drawn + 1 }
        if !requestIdShape (ids s.drawn) then (some invalidReply,drawn)
        else match validateRequest (envelope (ids s.drawn) method params) with
          | .error refused => (some ⟨"invalid_reply",refused.message⟩,drawn)
          | .ok request =>
              let sent := { drawn with emitted := s.emitted ++ [.request request] }
              if s.busFails then (some busError,sent)
              else (none,{ sent with pending := s.pending ++ [⟨s.drawn,method,asker⟩] })

def cancelKnownRuns (s : LeafRuntimeClient) : LeafRuntimeClient :=
  if s.disposed || s.startedRunIds = [] then s
  else
    let runIds := s.startedRunIds.take maxCancelRunIds
    let params := JsValue.object [(js "runIds",.array (runIds.map .string)),
      (js "settlementWindowMs",.number (.int maxSettlementWindowMs))]
    let drawn := { s with drawn := s.drawn + 1 }
    match validateRequest (envelope (ids s.drawn) .cancelAndSettle params) with
    | .error _ => drawn
    | .ok _ => { drawn with emitted := s.emitted ++ [.cancel runIds] }

def trackRunId (runId : JsString) (s : LeafRuntimeClient) : LeafRuntimeClient :=
  let kept := if maxCancelRunIds ≤ s.startedRunIds.length then s.startedRunIds.tail else s.startedRunIds
  { s with startedRunIds := kept ++ [runId] }

def forgetRunId (runId : JsString) (s : LeafRuntimeClient) : LeafRuntimeClient :=
  { s with startedRunIds := s.startedRunIds.erase runId }

/- The progress of a call. -/
def change (c : Nat) (update : LeafCall → LeafCall) (s : LeafRuntimeClient) : LeafRuntimeClient :=
  { s with calls := s.calls.modify c update }

def finish (c : Nat) (outcome : Except LeafRuntimeError JsString) : LeafRuntimeClient → LeafRuntimeClient :=
  change c fun call => { call with point := .over, outcome := some outcome }

def remaining (call : LeafCall) (s : LeafRuntimeClient) : Int := max 1 (call.deadline - s.clock)

def ask (c : Nat) (method : RuntimeRpcMethod) (params : JsValue) (timeoutMs : Int) (next : LeafPoint)
    (s : LeafRuntimeClient) : LeafRuntimeClient :=
  match request settings ids (.leaf c) method params (some (.int timeoutMs)) s with
  | (some error,t) => t.finish c (.error error)
  | (none,t) => t.change c fun call => { call with point := next }

/- An error that is not the client's own becomes a provider error while negotiating. -/
def negotiateError (error : LeafRuntimeError) : LeafRuntimeError :=
  if error = busError then runtimeError "provider_error" else error

def expire (c : Nat) (s : LeafRuntimeClient) : LeafRuntimeClient :=
  (s.cancelKnownRuns ids).finish c (.error localTimeout)

/- The head of the loop. -/
def loop (c : Nat) (call : LeafCall) (s : LeafRuntimeClient) : LeafRuntimeClient :=
  if call.deadline ≤ s.clock then s.expire ids c
  else s.change c fun call => { call with point := .sleeping }

def start (c : Nat) (call : LeafCall) (s : LeafRuntimeClient) : LeafRuntimeClient :=
  let (correlation,s) := s.composeCorrelation ids call.opts
  let schema := if isUndefined call.opts.outputSchema then [] else [(js "outputSchema",call.opts.outputSchema)]
  let params := JsValue.object ([(js "modelId",.string settings.modelId),(js "prompt",.string call.prompt),
    (js "maxOutputTokens",.number (.int call.maxOutputTokens)),
    (js "timeoutMs",.number (.int (min (s.remaining call) maxTimeoutMs)))] ++ schema ++
      [(js "correlation",correlation)])
  s.ask settings ids c .start params (s.remaining call) .starting

def started (c : Nat) (call : LeafCall) (data : JsValue) (s : LeafRuntimeClient) : LeafRuntimeClient :=
  match (data.get "runId").asString.filter runIdShape with
  | none => s.finish c (.error invalidReply)
  | some runId =>
      let tracked := s.trackRunId runId
      (tracked.change c fun call => { call with point := .sleeping, runId := some runId }).loop ids c call

def polled (c : Nat) (call : LeafCall) (data : JsValue) (s : LeafRuntimeClient) : LeafRuntimeClient :=
  match (data.get "state").asString with
  | none => s.finish c (.error invalidReply)
  | some state =>
      if state = js "running" then s.loop ids c call
      else if state = js "completed" then
        let params := JsValue.object [(js "runId",.string (call.runId.getD []))]
        s.ask settings ids c .result params (s.remaining call) .fetching
      else if state = js "cancelled" then s.finish c (.error localTimeout)
      else if state = js "failed" then s.finish c (.error (runtimeError "provider_error"))
      else s.finish c (.error invalidReply)

def fetched (c : Nat) (call : LeafCall) (data : JsValue) (s : LeafRuntimeClient) : LeafRuntimeClient :=
  match (data.get "output").asString, call.runId with
  | some text, some runId =>
      if byteLength text > maxResultBytes then s.finish c (.error (runtimeError "result_byte_limit_exceeded"))
      else (s.forgetRunId runId).finish c (.ok text)
  | _, _ => s.finish c (.error invalidReply)

/- What a settled request does to the call that awaits it. -/
def resume (c : Nat) (call : LeafCall) (result : Except LeafRuntimeError JsValue) (s : LeafRuntimeClient) :
    LeafRuntimeClient := match call.point, result with
  | .negotiating, .error error => s.finish c (.error (negotiateError error))
  | .negotiating, .ok data => match s.adoptNegotiateData settings regExp data with
      | (true,t) => t.start settings ids c call
      | (false,t) => t.finish c (.error (runtimeError "unsupported_capability"))
  | .starting, .ok data => s.started ids c call data
  | .polling, .ok data => s.polled settings ids c call data
  | .fetching, .ok data => s.fetched c call data
  | .starting, .error error | .polling, .error error | .fetching, .error error => s.finish c (.error error)
  | _, _ => s

def deliver (asker : Asker) (result : Except LeafRuntimeError JsValue) (s : LeafRuntimeClient) :
    LeafRuntimeClient := match asker with
  | .outside => s
  | .refresh => match result with
      | .ok data => (s.adoptNegotiateData settings regExp data).2
      | .error _ => { s with correlationV2 := false }
  | .leaf c => match s.calls[c]? with
      | none => s
      | some call => s.resume settings ids regExp c call result

def runLeaf (prompt : JsString) (opts : LeafRunOptions) (s : LeafRuntimeClient) : LeafRuntimeClient :=
  let c := s.calls.length
  let refused := fun error : LeafRuntimeError =>
    { s with calls := s.calls ++ [⟨prompt,opts,0,s.clock,.over,none,some (.error error)⟩] }
  if s.disposed then refused disposedError
  else if prompt = [] then refused ⟨"invalid_reply",js "prompt must be non-empty."⟩
  else if byteLength prompt > maxPromptBytes then
    refused ⟨"invalid_reply",js "prompt exceeds byte limit; rejected, never clamped."⟩
  else match asTimeoutMs opts.timeoutMs settings.defaultTimeoutMs with
    | .error error => refused error
    | .ok timeoutMs =>
        let tokens := match opts.maxOutputTokens.getD (.int 1024) with
          | .int n => if 1 ≤ n ∧ n ≤ maxNegotiatedOutputTokens then some n else none
          | .float _ => none
        match tokens with
        | none => refused ⟨"invalid_reply",js "maxOutputTokens out of range."⟩
        | some tokens =>
            let call : LeafCall := ⟨prompt,opts,tokens,s.clock + timeoutMs,.negotiating,none,none⟩
            let entered := { s with calls := s.calls ++ [call] }
            let params := JsValue.object [(js "modelId",.string settings.modelId)]
            match request settings ids (.leaf c) .negotiate params
                (some (.int (min (entered.remaining call) refreshTimeoutMs))) entered with
            | (some error,t) => t.finish c (.error (negotiateError error))
            | (none,t) => t

/- What a reply comes to after its validation. -/
def checked (number : Nat) (method : RuntimeRpcMethod) (raw : JsValue) : Except LeafRuntimeError JsValue :=
  match validateReply raw (some (ids number)) (some method) with
  | .error _ => .error invalidReply
  | .ok reply => match reply.get "success" with
      | .bool true => .ok (reply.get "data")
      | _ => .error (wireErrorToSafe ((reply.get "error").get "code"))

def reply (number : Nat) (raw : JsValue) (s : LeafRuntimeClient) : LeafRuntimeClient :=
  match s.pending.find? fun p => p.number = number with
  | none => s
  | some p =>
      let rest := { s with pending := s.pending.filter fun p => p.number ≠ number }
      rest.deliver settings ids regExp p.asker (checked ids number p.method raw)

/- The timer of a request; the known runs are cancelled before anyone goes on. -/
def timeout (number : Nat) (s : LeafRuntimeClient) : LeafRuntimeClient :=
  match s.pending.find? fun p => p.number = number with
  | none => s
  | some p =>
      let rest := { s with pending := s.pending.filter fun p => p.number ≠ number }
      (rest.cancelKnownRuns ids).deliver settings ids regExp p.asker (.error localTimeout)

def wake (c : Nat) (s : LeafRuntimeClient) : LeafRuntimeClient := match s.calls[c]? with
  | none => s
  | some call =>
      if call.point ≠ .sleeping then s
      else if call.deadline ≤ s.clock then s.expire ids c
      else
        let params := JsValue.object [(js "runId",.string (call.runId.getD []))]
        s.ask settings ids c .status params (s.remaining call) .polling

def dispose (s : LeafRuntimeClient) : LeafRuntimeClient :=
  if s.disposed then s
  else
    let cleared := { s with disposed := true, pending := [], startedRunIds := [] }
    s.pending.foldl (fun t p => t.deliver settings ids regExp p.asker (.error disposedError)) cleared

end
end LeafRuntimeClient

inductive LeafClientEvent where
  | runLeaf (prompt : JsString) (opts : LeafRunOptions)
  | refreshReady
  | request (method : RuntimeRpcMethod) (params : JsValue) (timeoutMs : Option Number)
  | reply (number : Nat) (raw : JsValue)
  | timeout (number : Nat)
  | wake (call : Nat)
  | dispose
  | bus (fails : Bool)
  | pass (ms : Nat)

namespace LeafRuntimeClient

def step (settings : LeafSettings) (ids : Nat → JsString) (regExp : JsString → Bool) (s : LeafRuntimeClient) :
    LeafClientEvent → LeafRuntimeClient
  | .runLeaf prompt opts => s.runLeaf settings ids prompt opts
  | .refreshReady => if s.disposed then s else
      let params := JsValue.object [(js "modelId",.string settings.modelId)]
      match s.request settings ids .refresh .negotiate params (some (.int refreshTimeoutMs)) with
      | (some error,t) => t.deliver settings ids regExp .refresh (.error error)
      | (none,t) => t
  | .request method params timeoutMs => (s.request settings ids .outside method params timeoutMs).2
  | .reply number raw => s.reply settings ids regExp number raw
  | .timeout number => s.timeout settings ids regExp number
  | .wake call => s.wake settings ids call
  | .dispose => s.dispose settings ids regExp
  | .bus fails => { s with busFails := fails }
  | .pass ms => { s with clock := s.clock + ms }

def run (settings : LeafSettings) (ids : Nat → JsString) (regExp : JsString → Bool)
    (events : List LeafClientEvent) : LeafRuntimeClient := events.foldl (step settings ids regExp) {}

end LeafRuntimeClient
end Northstar.Runtime
