import Northstar.Runtime.Reply
import Northstar.Runtime.RunTable

/-! Which finished runs a client can fetch. The leaf runtime bounds the bytes of the output;
every frame on the way bounds the JSON text around it, where an escape takes up to six
bytes for one, and the broker reads no lone surrogate. -/
namespace Northstar.Runtime

/- A result request on its way to the runtime and its reply on its way back. -/
def deliverResult (fromSlice : Bytes → Option Value) (s : LeafRuntime)
    (request : Broker.RuntimeRpcRequest) (runId : JsString) (sequence : Int) : Option Bytes :=
  match s.result runId with
  | .error _ => none
  | .ok data => (executorFrame (executedReply (js request.requestId) .result data)
      (js request.requestId) .result).bind (brokerReply fromSlice request sequence)

def output (run : LocalRun) : JsString := run.output.getD []

def tokenText (run : LocalRun) : JsString := (run.outputTokens.getD (.int 0)).script

/- The JSON text of the broker's response to a result request. -/
def responseSize (requestId : String) (run : LocalRun) (sequence : Int) : Nat :=
  byteLength (quote (output run)) + byteLength (quote (js requestId)) + byteLength (quote run.runId) +
    byteLength (tokenText run) + (utf8String (toString sequence)).length + 193

theorem dataSize (run : LocalRun) : byteLength (stringify (LeafRuntime.resultData run)) =
    byteLength (quote (output run)) + byteLength (quote run.runId) + byteLength (tokenText run) + 74 := by
  have texts : stringify (.string run.runId) = quote run.runId ∧
      stringify (.string (run.output.getD [])) = quote (output run) ∧
      stringify (.number (run.outputTokens.getD (.int 0))) = tokenText run := by
    refine ⟨?_,?_,?_⟩ <;> rw [stringify] <;> rfl
  have keys : byteLength (quote (js "runId")) = 7 ∧ byteLength (quote (js "state")) = 7 ∧
      byteLength (quote (js "output")) = 8 ∧ byteLength (quote (js "outputTokens")) = 14 ∧
      byteLength (quote (js "truncated")) = 11 ∧
      byteLength (stringify (.string (js "completed"))) = 11 ∧
      byteLength (stringify (.bool false)) = 5 := by decide
  rw [LeafRuntime.resultData,objectSizeAll rfl]
  simp only [List.map_cons,List.map_nil,List.sum_cons,List.sum_nil,fieldSize,List.length_cons,
    List.length_nil,keys,texts]
  omega

theorem replySize (requestId : JsString) (run : LocalRun) :
    byteLength (stringify (executedReply requestId .result (LeafRuntime.resultData run))) =
      byteLength (quote (output run)) + byteLength (quote requestId) + byteLength (quote run.runId) +
        byteLength (tokenText run) + 141 := by
  have text : stringify (.string requestId) = quote requestId := by rw [stringify]
  have keys : byteLength (quote (js "version")) = 9 ∧ byteLength (quote (js "requestId")) = 11 ∧
      byteLength (quote (js "method")) = 8 ∧ byteLength (quote (js "success")) = 9 ∧
      byteLength (quote (js "data")) = 6 ∧ byteLength (stringify (.number (.int 1))) = 1 ∧
      byteLength (stringify (.string (js "result"))) = 8 ∧
      byteLength (stringify (.bool true)) = 4 := by decide
  have method : RuntimeRpcMethod.wire .result = "result" := rfl
  rw [executedReply,successEnvelope,objectSizeAll rfl]
  simp only [List.map_cons,List.map_nil,List.sum_cons,List.sum_nil,fieldSize,List.length_cons,
    List.length_nil,keys,text,method,dataSize]
  omega

theorem replyValidated {requestId : JsString} (shape : requestIdShape requestId) (data : JsValue) :
    validateReply (executedReply requestId .result data) (some requestId)
        (some .result) =
      if replyOversize (executedReply requestId .result data) then
        .error (js "reply exceeds result byte limit")
      else .ok (executedReply requestId .result data) := by
  have named : methodOf (.string (js "result")) = some .result := by decide
  have fields : fieldsOf (executedReply requestId .result data) =
      some [(js "version",.number (.int 1)),(js "requestId",.string requestId),
        (js "method",.string (js "result")),(js "success",.bool true),(js "data",data)] := rfl
  have known : refuseKeys "reply" [(js "version",.number (.int 1)),(js "requestId",.string requestId),
        (js "method",.string (js "result")),(js "success",.bool true),(js "data",data)]
      ["version","requestId","method","success","data","error"] = .ok () := rfl
  have version : (executedReply requestId .result data).get "version" = .number (.int 1) := rfl
  have id : (executedReply requestId .result data).get "requestId" = .string requestId := rfl
  have method : (executedReply requestId .result data).get "method" = .string (js "result") := rfl
  have success : (executedReply requestId .result data).get "success" = .bool true := rfl
  have held : (executedReply requestId .result data).get "data" = data := rfl
  have carried : has (executedReply requestId .result data) "data" = true := rfl
  have noError : has (executedReply requestId .result data) "error" = false := rfl
  have checked : checkSuccess (executedReply requestId .result data) (some .result) =
      if replyOversize (executedReply requestId .result data) then
        .error (js "reply exceeds result byte limit")
      else .ok (executedReply requestId .result data) := by
    simp only [checkSuccess,carried,noError,method,named,id,held]
    cases replyOversize (executedReply requestId .result data) <;> rfl
  simp only [validateReply,fields,known,version,id,checkMethod,method,named,success,checked]
  simp [demand,isNumber,JsValue.asString,shape,isUndefined,bind,Except.bind]

theorem executorFramed {requestId : JsString} (shape : requestIdShape requestId) (data : JsValue) :
    executorFrame (executedReply requestId .result data) requestId .result =
      if byteLength (stringify (executedReply requestId .result data)) ≤ maxResultBytes then
        some (utf8 (stringify (executedReply requestId .result data)))
      else none := by
  have same : brokerMaxFrameBytes = maxResultBytes := rfl
  rw [executorFrame,replyValidated shape data,replyOversize]
  by_cases small : byteLength (stringify (executedReply requestId .result data)) ≤ maxResultBytes
  · rw [decide_eq_false (Nat.not_lt.mpr small),if_neg Bool.false_ne_true,if_pos small]
    dsimp only
    rw [same]
    exact if_neg (Nat.not_lt.mpr small)
  · rw [decide_eq_true (Nat.not_le.mp small),if_pos rfl,if_neg small]

def readData (runId text : String) (tokens : Number) : Value :=
  .object (sortKeys [("runId",.string runId),("state",.string "completed"),("output",.string text),
    ("outputTokens",.number tokens),("truncated",.bool false)])

def readReply (requestId : String) (data : Value) : Value :=
  .object (sortKeys [("version",.number (.int 1)),("requestId",.string requestId),
    ("method",.string "result"),("success",.bool true),("data",data)])

theorem dataRead {run : LocalRun} {runId : String} (named : run.runId = js runId) :
    readBack (LeafRuntime.resultData run) = (readText (output run)).map fun text =>
      readData runId text (run.outputTokens.getD (.int 0)) := by
  rw [LeafRuntime.resultData,readBack,readField rfl,readField rfl,readField rfl,readField rfl,readField rfl]
  simp only [readFields,readJs,readBack,named,Option.map_some,Option.bind_some]
  have held : run.output.getD [] = output run := rfl
  rw [held]
  cases readText (output run) <;> rfl

theorem replyRead (requestId : String) (data : JsValue) (there : defined data) :
    readBack (executedReply (js requestId) .result data) = (readBack data).map (readReply requestId) := by
  rw [executedReply,successEnvelope,readBack,readField rfl,readField rfl,readField rfl,readField rfl,
    readField there]
  simp only [readFields,readJs,readBack,Option.map_some,Option.bind_some]
  cases readBack data <;> rfl

theorem replyEchoed (requestId : String) (data params : Value) (version : Nat) :
    Broker.replyEchoes ⟨version,requestId,.result,params⟩ (readReply requestId data) = true := by
  have distinct : (([("version",.number (.int 1)),("requestId",.string requestId),
    ("method",.string "result"),("success",.bool true),("data",data)] : List (String × Value)).map
      (·.1)).Nodup := by
    have names : ["version","requestId","method","success","data"].Nodup := by decide
    exact names
  have get (key : String) := sortedGet distinct key
  simp only [Broker.replyEchoes,Value.getStr,readReply,get]
  simp [List.lookup_cons,Value.asStr,Value.asBool]
  rfl

theorem responseEncoded (sequence : Int) (reply : Value) :
    (Broker.encodeFrame (.response ⟨2,"response",sequence,reply⟩)).toOption.isSome ↔
      reply.render.length + (utf8String (toString sequence)).length + 52 ≤
        Broker.brokerMaxFrameBytes := by
  have keys : (quoteString "version").length = 9 ∧ (quoteString "kind").length = 6 ∧
      (quoteString "sequence").length = 10 ∧ (quoteString "reply").length = 7 ∧
      (quoteString "response").length = 10 ∧ (utf8String (toString ((2 : Nat) : Int))).length = 1 ∧
      (utf8String "\x7b").length = 1 ∧ (utf8String "\x7d").length = 1 := by decide
  have size : (Broker.BrokerMessage.toValue (.response ⟨2,"response",sequence,reply⟩)).render.length =
      reply.render.length + (utf8String (toString sequence)).length + 52 := by
    simp only [Broker.BrokerMessage.toValue,Broker.natural,Broker.integer,Value.render,
      List.length_append,renderFieldsSize,List.map_cons,List.map_nil,List.sum_cons,List.sum_nil,
      entrySize,List.length_cons,List.length_nil,Number.render,keys]
    omega
  unfold Broker.encodeFrame
  dsimp only
  rw [size]
  split
  · rename_i large
    exact ⟨fun h => by contradiction,fun small => absurd small (Nat.not_le.mpr large)⟩
  · rename_i small
    exact ⟨fun _ => Nat.not_lt.mp small,fun _ => rfl⟩

namespace LeafRuntime

/- Entries name objects that bear their run id. -/
structure Named (s : LeafRuntime) : Prop where
  present : ∀ entry ∈ s.runs, entry.2 < s.objects.length
  named : ∀ entry ∈ s.runs, ∀ run, s.object entry = some run → run.runId = entry.1

theorem Named.fewer {s : LeafRuntime} (h : Named s) {runs : List (JsString × Nat)}
    {waiting : List WaitingStart} (entries : ∀ entry ∈ runs, entry ∈ s.runs) :
    Named ⟨s.objects,runs,waiting⟩ where
  present entry member := h.present entry (entries entry member)
  named entry member := h.named entry (entries entry member)

theorem Named.modified {s : LeafRuntime} (h : Named s) (object : Nat) {change : LocalRun → LocalRun}
    (keeps : ∀ run, (change run).runId = run.runId) :
    Named { s with objects := s.objects.modify object change } where
  present entry member := by
    rw [List.length_modify]
    exact h.present entry member
  named entry member run found := by
    simp only [LeafRuntime.object,List.getElem?_modify] at found
    cases old : s.objects[entry.2]? with
    | none => simp [old] at found
    | some run' =>
      have same := h.named entry member run' old
      rw [old] at found
      split at found
      · have changed : change run' = run := Option.some.inj found
        rw [← changed,keeps,same]
      · have unchanged : run' = run := Option.some.inj found
        rw [← unchanged,same]

theorem namedPrune (config : LeafConfig) {s : LeafRuntime} (h : Named s) (now : Int) :
    Named (s.prune config now) :=
  h.fewer fun _ member => (List.mem_filter.mp member).1

theorem namedInsert (config : LeafConfig) {s : LeafRuntime} (h : Named s) (runId : JsString) (now : Int) :
    Named (s.insert config runId now) := by
  refine Named.fewer (s := { s with
    objects := s.objects ++ [⟨runId,.running,now,now,none,none,none,false,false⟩]
    runs := mapSet s.runs runId s.objects.length }) ⟨?_,?_⟩ fun entry member =>
      (evictSublist _ _ _ _).subset member
  · intro entry member
    rw [List.length_append,List.length_singleton]
    rcases memMapSet member with old | new
    · exact Nat.lt_succ_of_lt (h.present entry old)
    · rw [new]
      exact Nat.lt_succ_self _
  · intro entry member run found
    rcases memMapSet member with old | new
    · have below := h.present entry old
      refine h.named entry old run ?_
      rwa [LeafRuntime.object,List.getElem?_append_left below] at found
    · rw [new,LeafRuntime.object,List.getElem?_concat_length] at found
      cases found
      rw [new]

theorem settleRunId (now : Int) (completion : Completion) (run : LocalRun) :
    (run.settle now completion).runId = run.runId := by
  cases completion with
  | message stopError errorMessage texts usageOutput =>
    simp only [LocalRun.settle,LocalRun.fulfil]
    split
    · rfl
    · split
      · rfl
      · split <;> rfl
  | rejected error =>
    simp only [LocalRun.settle,LocalRun.reject]
    split <;> rfl

theorem cancelRunId (now : Int) (run : LocalRun) : (run.cancel now).runId = run.runId := by
  unfold LocalRun.cancel
  split <;> rfl

theorem namedCancelAll {s : LeafRuntime} (h : Named s) (now : Int) (selected : List Nat) :
    Named { s with objects := cancelEach now s.objects selected } := by
  induction selected generalizing s with
  | nil => exact h
  | cons object rest ih => exact ih (h.modified object (cancelRunId now))

theorem leafStepNamed (config : LeafConfig) {s : LeafRuntime} (h : Named s) (e : LeafEvent) :
    Named (leafStep config s e) := by
  cases e with
  | start params now =>
    have pruned := namedPrune config h now
    simp only [leafStep]
    cases started : (s.prune config now).start config params with
    | error e => exact pruned
    | ok s' =>
      obtain ⟨waiting,rfl⟩ := startWaiting started
      exact pruned.fewer fun _ member => member
  | resolve waiting found runId now =>
    simp only [leafStep]
    split
    · have left : Named { s with waiting := s.waiting.eraseIdx waiting } := h.fewer fun _ member => member
      cases found with
      | false => exact left
      | true => exact namedInsert config left runId now
    · exact h
  | settle object completion now =>
    simp only [leafStep]
    split
    · exact h
    · split
      · exact h
      · exact namedPrune config (h.modified object (settleRunId now completion)) now
  | cancelAndSettle runIds now => exact namedCancelAll (namedPrune config h now) now _
  | read now => exact namedPrune config h now

theorem namedRun (config : LeafConfig) (events : List LeafEvent) :
    Named (events.foldl (leafStep config) .empty) := by
  have kept (s : LeafRuntime) (h : Named s) : Named (events.foldl (leafStep config) s) := by
    induction events generalizing s with
    | nil => exact h
    | cons e rest ih => exact ih _ (leafStepNamed config h e)
  exact kept .empty ⟨fun _ none => by contradiction,fun _ none => by contradiction⟩

theorem Named.found {s : LeafRuntime} (h : Named s) {runId : JsString} {run : LocalRun}
    (found : s.find runId = some run) : run.runId = runId := by
  obtain ⟨entry,first,object⟩ := Option.bind_eq_some_iff.mp found
  have key : entry.1 = runId := by simpa using List.find?_some first
  rw [h.named entry (List.mem_of_find?_eq_some first) run object,key]

theorem resultFound {s : LeafRuntime} {runId : JsString} {run : LocalRun}
    (found : s.find runId = some run) (completed : run.state = .completed) :
    s.result runId = .ok (resultData run) := by
  simp only [result,requireRun,found,bind,Except.bind,completed]
  rfl

end LeafRuntime

theorem brokerReplied (fromSlice : Bytes → Option Value) (request : Broker.RuntimeRpcRequest)
    (sequence : Int) (body : Bytes) (small : body.length ≤ Broker.brokerMaxFrameBytes) :
    brokerReply fromSlice request sequence body = (fromSlice body).bind fun reply =>
      if Broker.replyEchoes request reply = false then none
      else (Broker.encodeFrame (.response ⟨2,"response",sequence,reply⟩)).toOption := by
  rw [brokerReply,if_neg (Nat.not_lt.mpr small)]
  cases fromSlice body <;> rfl

/-- A finished run's output reaches the client if and only if it has no lone surrogate and
the JSON text of the broker's response around it is within one frame. -/
theorem resultDeliverable {config : LeafConfig} {events : List LeafEvent} {run : LocalRun}
    {request : Broker.RuntimeRpcRequest} {runId : String} {sequence : Int}
    {fromSlice : Bytes → Option Value}
    (found : (events.foldl (leafStep config) .empty).find (js runId) = some run)
    (completed : run.state = .completed) (method : request.method = .result)
    (shape : requestIdShape (js request.requestId))
    (reads : fromSlice (utf8 (stringify (executedReply (js request.requestId) .result
        (LeafRuntime.resultData run)))) =
      readBack (executedReply (js request.requestId) .result (LeafRuntime.resultData run))) :
    (deliverResult fromSlice (events.foldl (leafStep config) .empty) request (js runId)
        sequence).isSome ↔
      (∀ u, [u] ∈ points (output run) → surrogate u = false) ∧
        responseSize request.requestId run sequence ≤ brokerMaxFrameBytes := by
  have named := (LeafRuntime.namedRun config events).found found
  have size := replySize (js request.requestId) run
  have limits : brokerMaxFrameBytes = maxResultBytes ∧ Broker.brokerMaxFrameBytes = maxResultBytes :=
    ⟨rfl,rfl⟩
  rw [deliverResult,LeafRuntime.resultFound found completed]
  dsimp only
  rw [executorFramed shape,← readWhole,responseSize,limits.1]
  by_cases small : byteLength (stringify (executedReply (js request.requestId) .result
      (LeafRuntime.resultData run))) ≤ maxResultBytes
  · have body := brokerReplied fromSlice request sequence
      (utf8 (stringify (executedReply (js request.requestId) .result (LeafRuntime.resultData run)))) small
    rw [if_pos small,Option.bind_some,body,reads,replyRead _ _ rfl,dataRead named]
    cases text : readText (output run) with
    | none => simp
    | some text' =>
      have echoed : Broker.replyEchoes request (readReply request.requestId
          (readData runId text' (run.outputTokens.getD (.int 0)))) = true := by
        obtain ⟨version,requestId,_,params⟩ := request
        dsimp only at method
        rw [method]
        exact replyEchoed requestId _ params version
      have render := readBackSize (executedReply (js request.requestId) .result
        (LeafRuntime.resultData run)) ((replyRead _ _ rfl).trans (by rw [dataRead named,text]; rfl))
      rw [Option.map_some,Option.map_some,Option.bind_some,echoed,if_neg Bool.noConfusion,responseEncoded,
        limits.2,render,size,Option.isSome_some,and_iff_right rfl]
      constructor <;> intro within <;> omega
  · rw [if_neg small,Option.bind_none]
    refine ⟨fun none => by contradiction,fun within => absurd ?_ small⟩
    rw [size]
    have bound := within.2
    omega

/- One run of the leaf runtime that its provider finishes with a text. -/
def finishing (text : JsString) : List LeafEvent :=
  [startEvent,resolveEvent 0,.settle 0 (.message false none [text] none) 0]

def finishedRun (text : JsString) : LocalRun :=
  ⟨js "runtime_0",.completed,0,0,some text,some (approxOutputTokens text),none,false,true⟩

def resultRequest : Broker.RuntimeRpcRequest :=
  ⟨1,"a",.result,.object [("runId",.string "runtime_0")]⟩

def finishedReply (text : JsString) : JsValue :=
  executedReply (js "a") .result (LeafRuntime.resultData (finishedRun text))

/- A parser that knows this reply. -/
def parseFinished (text : JsString) (body : Bytes) : Option Value :=
  if body = utf8 (stringify (finishedReply text)) then readBack (finishedReply text) else none

theorem finishedFound {text : JsString} (within : byteLength text ≤ maxResultBytes) :
    ((finishing text).foldl (leafStep defaults) .empty).find (js "runtime_0") = some (finishedRun text) := by
  have begun : [startEvent,resolveEvent 0].foldl (leafStep defaults) .empty =
      ⟨[⟨js "runtime_0",.running,0,0,none,none,none,false,false⟩],[(js "runtime_0",0)],[]⟩ := by
    decide
  have settled : LocalRun.settle ⟨js "runtime_0",.running,0,0,none,none,none,false,false⟩ 0
      (.message false none [text] none) = finishedRun text := by
    have joined : [text].flatten = text := List.flatten_singleton
    simp only [LocalRun.settle,LocalRun.fulfil,joined,if_neg (Nat.not_lt.mpr within)]
    rfl
  have step : (finishing text).foldl (leafStep defaults) .empty =
      LeafRuntime.prune defaults ⟨[finishedRun text],[(js "runtime_0",0)],[]⟩ 0 := by
    have events : finishing text =
        [startEvent,resolveEvent 0] ++ [.settle 0 (.message false none [text] none) 0] := rfl
    rw [events,List.foldl_append,begun,← settled]
    rfl
  rw [step]
  rfl

theorem shortResultDelivered :
    (deliverResult (parseFinished (js "done")) ((finishing (js "done")).foldl (leafStep defaults) .empty)
        resultRequest (js "runtime_0") 1).isSome ↔
      (∀ u, [u] ∈ points (output (finishedRun (js "done"))) → surrogate u = false) ∧
        responseSize "a" (finishedRun (js "done")) 1 ≤ brokerMaxFrameBytes :=
  resultDeliverable (finishedFound (by decide)) rfl rfl (by decide) (if_pos rfl)

theorem largeResultLost {text : JsString} (full : maxResultBytes ≤ text.length)
    (within : byteLength text ≤ maxResultBytes) :
    ¬(deliverResult (parseFinished text) ((finishing text).foldl (leafStep defaults) .empty) resultRequest
      (js "runtime_0") 1).isSome := by
  intro delivered
  have fits : responseSize "a" (finishedRun text) 1 ≤ brokerMaxFrameBytes :=
    ((resultDeliverable (finishedFound within) rfl rfl (by decide) (if_pos rfl)).mp delivered).2
  have quoted : text.length + 2 ≤ byteLength (quote (output (finishedRun text))) :=
    Nat.le_trans (quoteGrows text) (lengthBytes _)
  have same : brokerMaxFrameBytes = maxResultBytes := rfl
  rw [responseSize,same] at fits
  omega

theorem fullResultLost : ((finishing (List.replicate maxResultBytes 97)).foldl (leafStep defaults)
      .empty).find (js "runtime_0") = some (finishedRun (List.replicate maxResultBytes 97)) ∧
    ¬(deliverResult (parseFinished (List.replicate maxResultBytes 97))
      ((finishing (List.replicate maxResultBytes 97)).foldl (leafStep defaults) .empty) resultRequest
      (js "runtime_0") 1).isSome :=
  ⟨finishedFound (Nat.le_of_eq (repeatedBytes _)),
    largeResultLost (Nat.le_of_eq List.length_replicate.symm) (Nat.le_of_eq (repeatedBytes _))⟩

end Northstar.Runtime
