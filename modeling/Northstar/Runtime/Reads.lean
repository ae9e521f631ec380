import Northstar.Expiring
import Northstar.Program
import Northstar.Runtime.Reply
import Northstar.Separated

/-! Requests at the broker server (broker-server.ts) and its cache of replies to reads
(broker-replay.ts). Between a request's frame and its reply lie two awaits, for the policy and the
claim of a mutation and for the handler, and a third where a started job is recorded; what the
gates and the handler say is part of an event. The server is not stopped. -/
namespace Northstar.Runtime

def replayLimits : CacheLimits := ⟨512,4 * 1024 * 1024,10 * 60 * 1000⟩

structure BrokerConnection where
  clientId : JsString
  last : Int := 0

/- A request that the gates before the first await let through. -/
structure BrokerAsk where
  clientId : JsString
  sequence : Int
  request : RuntimeRequest

/- What the handler replied, and to whom and what. -/
structure HandlerReply where
  clientId : JsString
  request : RuntimeRequest
  reply : JsValue

/- Of an answer the broker sends and stores the reply alone. -/
structure BrokerResponse where
  ask : BrokerAsk
  answer : HandlerReply

inductive AskStage where
  | gates
  | handler
  | recording (reply : JsValue)
  | over_

structure BrokerServer where
  connections : List BrokerConnection := []
  asks : List (BrokerAsk × AskStage) := []
  reads : List (CacheEntry JsString HandlerReply) := []
  answers : List HandlerReply := []
  sent : List BrokerResponse := []
  refused : List BrokerErrorCode := []

/- `early` is what project and epoch say of a frame, `late` what its token says. -/
inductive BrokerServerEvent where
  | hello (clientId : JsString)
  | request (connection : Nat) (sequence : Int) (raw : JsValue) (early late : Option BrokerErrorCode)
  | gates (ask : Nat) (refusal : Option BrokerErrorCode) (now : Int)
  | reply (ask : Nat) (value : JsValue) (gone : Bool) (now : Int)
  | failed (ask : Nat)
  | recorded (ask : Nat) (ok : Bool)

namespace BrokerServer

def mutationKey (clientId requestId : JsString) : JsString := clientId ++ 58 :: requestId

def responseMessage (sequence : Int) (reply : JsValue) : JsValue :=
  .object [(js "version",.number (.int 2)),(js "kind",.string (js "response")),(js "sequence",.number (.int sequence)),(js "reply",reply)]

def fits (ask : BrokerAsk) (reply : JsValue) : Bool := (encodeBrokerFrame (responseMessage ask.sequence reply)).isOk

def refuse (s : BrokerServer) (code : BrokerErrorCode) : BrokerServer := { s with refused := s.refused ++ [code] }

def respond (s : BrokerServer) (ask : BrokerAsk) (answer : HandlerReply) : BrokerServer :=
  if fits ask answer.reply then { s with sent := s.sent ++ [⟨ask,answer⟩] } else s.refuse .frameTooLarge

def move (s : BrokerServer) (n : Nat) (ask : BrokerAsk) (stage : AskStage) : BrokerServer := { s with asks := s.asks.set n (ask,stage) }

def request (s : BrokerServer) (connection : Nat) (sequence : Int) (raw : JsValue) (early late : Option BrokerErrorCode) :
    BrokerServer := match s.connections[connection]?,validateRequest raw with
  | none,_ => s
  | some _,.error _ => s.refuse .invalidFrame
  | some held,.ok request => match early with
      | some code => s.refuse code
      | none =>
          if sequence ≠ held.last + 1 then s.refuse .sequenceReplay
          else
            let s := { s with connections := s.connections.set connection { held with last := sequence } }
            match late with
            | some code => s.refuse code
            | none => { s with asks := s.asks ++ [(⟨held.clientId,sequence,request⟩,.gates)] }

def lookup (s : BrokerServer) (n : Nat) (ask : BrokerAsk) (now : Int) : BrokerServer :=
  if isMutationMethod ask.request.method then s.move n ask .handler
  else
    let found := Expiring.get (mutationKey ask.clientId ask.request.requestId) now s.reads
    let s := { s with reads := found.2 }
    match found.1 with
    | some cached => (s.move n ask .over_).respond ask cached
    | none => s.move n ask .handler

def startedRun (ask : BrokerAsk) (reply : JsValue) : Bool :=
  decide (ask.request.method = .start) && (reply.get "success" matches .bool true) && ((reply.get "data").get "runId").asString.isSome

def store (s : BrokerServer) (answer : HandlerReply) (now : Int) : BrokerServer :=
  if isMutationMethod answer.request.method then s
  else
    let key := mutationKey answer.clientId answer.request.requestId
    { s with reads := Expiring.set replayLimits key answer (byteLength (stringify answer.reply)) now s.reads }

def handled (s : BrokerServer) (n : Nat) (ask : BrokerAsk) (value : JsValue) (gone : Bool) (now : Int) : BrokerServer :=
  let answer : HandlerReply := ⟨ask.clientId,ask.request,value⟩
  let s := { s.move n ask .over_ with answers := s.answers ++ [answer] }
  if gone then s
  else match validateReply value (some ask.request.requestId) (some ask.request.method) with
    | .error _ => s.refuse .invalidFrame
    | .ok _ => if startedRun ask value then (s.store answer now).move n ask (.recording value) else (s.store answer now).respond ask answer

def step (s : BrokerServer) : BrokerServerEvent → BrokerServer
  | .hello clientId => { s with connections := s.connections ++ [⟨clientId,0⟩] }
  | .request connection sequence raw early late => s.request connection sequence raw early late
  | .gates n refusal now => match s.asks[n]? with
      | some (ask,.gates) => match refusal with
          | some code => (s.move n ask .over_).refuse code
          | none => s.lookup n ask now
      | _ => s
  | .reply n value gone now => match s.asks[n]? with
      | some (ask,.handler) => s.handled n ask value gone now
      | _ => s
  | .failed n => match s.asks[n]? with
      | some (ask,.handler) => (s.move n ask .over_).refuse .invalidFrame
      | _ => s
  | .recorded n ok => match s.asks[n]? with
      | some (ask,.recording reply) =>
          if ok then (s.move n ask .over_).respond ask ⟨ask.clientId,ask.request,reply⟩ else (s.move n ask .over_).refuse .invalidFrame
      | _ => s

/- The reply carries the request's id and method and is what the handler replied to it. -/
structure Answers (answers : List HandlerReply) (response : BrokerResponse) : Prop where
  requestId : (response.answer.reply.get "requestId").asString = some response.ask.request.requestId
  method : (response.answer.reply.get "method").asString = some (js response.ask.request.method.wire)
  client : response.answer.clientId = response.ask.clientId
  request : response.answer.request = response.ask.request
  handled : response.answer ∈ answers

def Answered (s : BrokerServer) : Prop := ∀ response ∈ s.sent, Answers s.answers response

def names (method : RuntimeRpcMethod) (reply : JsValue) : Prop := (reply.get "method").asString = some (js method.wire)

/- An error reply may leave its method out. -/
def unnamed (reply : JsValue) : Bool := isUndefined (reply.get "method")

def valid (request : RuntimeRequest) (reply : JsValue) : Bool :=
  (validateReply reply (some request.requestId) (some request.method)).isOk

/- The steps that keep to it: a read finds no reply of another request, and no reply leaves its method out. -/
def Faithful (s : BrokerServer) : BrokerServerEvent → Prop
  | .gates n none now => ∀ ask, s.asks[n]? = some (ask,.gates) → isMutationMethod ask.request.method = false →
      ∀ cached, (Expiring.get (mutationKey ask.clientId ask.request.requestId) now s.reads).1 = some cached →
      fits ask cached.reply = true → cached.request = ask.request ∧ unnamed cached.reply = false
  | .reply n value false _ => ∀ ask, s.asks[n]? = some (ask,.handler) → valid ask.request value = true → fits ask value = true →
      unnamed value = false
  | _ => True

theorem keySame {client client' id id' : JsString} (shaped : requestIdShape id = true) (shaped' : requestIdShape id' = true)
    (same : mutationKey client id = mutationKey client' id') : client = client' ∧ id = id' := by
  have plain {id : JsString} (shaped : requestIdShape id = true) : 58 ∉ id := by
    intro member
    have unit := List.all_eq_true.mp (Bool.and_eq_true_iff.mp shaped).2 58 member
    contradiction
  exact Separated.lastSeparator (plain shaped) (plain shaped') same

theorem demandThen {α : Type} {reason : String} {met : Bool} {next : Unit → ReplyValidation α} {out : α}
    (ok : (demand reason met >>= next) = .ok out) : met = true ∧ next () = .ok out := by
  cases met with
  | true => exact ⟨rfl,ok⟩
  | false => contradiction

theorem demandMet {reason : String} {met : Bool} {u : Unit} (ok : demand reason met = .ok u) : met = true := by
  cases met with
  | true => rfl
  | false => contradiction

theorem checksThen {ε α β : Type} {first : Except ε α} {next : α → Except ε β} {out : β}
    (ok : (first >>= next) = .ok out) : ∃ value, first = .ok value ∧ next value = .ok out := by
  cases first with
  | error reason => contradiction
  | ok value => exact ⟨value,rfl,ok⟩

theorem methodNamed {value : JsValue} {method : RuntimeRpcMethod} (read : methodOf value = some method) :
    value.asString = some (js method.wire) := by
  simpa using List.find?_some read

/- What a validated reply carries. -/
theorem validCarries {request : RuntimeRequest} {reply : JsValue} (fine : valid request reply = true) :
    (reply.get "requestId").asString = some request.requestId ∧ (unnamed reply = false → names request.method reply) ∧
      (reply.get "success" = .bool true → unnamed reply = false) := by
  unfold valid at fine
  cases ok : validateReply reply (some request.requestId) (some request.method) with
  | error reason => rw [ok] at fine; contradiction
  | ok out =>
  unfold validateReply at ok
  split at ok
  · contradiction
  · obtain ⟨_,-,ok⟩ := checksThen ok
    obtain ⟨-,ok⟩ := demandThen ok
    obtain ⟨-,ok⟩ := demandThen ok
    obtain ⟨same,ok⟩ := demandThen ok
    obtain ⟨_,named,ok⟩ := checksThen ok
    refine ⟨by simpa using same,fun there => ?_,fun success => ?_⟩
    · unfold checkMethod at named
      rw [if_neg (by rw [show isUndefined (reply.get "method") = false from there]; exact Bool.false_ne_true)] at named
      obtain ⟨-,named⟩ := demandThen named
      exact methodNamed (by simpa using demandMet named)
    · rw [success] at ok
      obtain ⟨-,ok⟩ := demandThen ok
      obtain ⟨-,ok⟩ := demandThen ok
      obtain ⟨some_,-⟩ := demandThen ok
      unfold unnamed
      cases content : reply.get "method" with
      | undefined => rw [content] at some_; contradiction
      | null => rfl
      | bool b => rfl
      | number n => rfl
      | string s => rfl
      | array list => rfl
      | object list => rfl

structure Sound (s : BrokerServer) : Prop where
  answered : Answered s
  stored : ∀ entry ∈ s.reads, entry.key = mutationKey entry.value.clientId entry.value.request.requestId ∧
    entry.value ∈ s.answers ∧ requestIdShape entry.value.request.requestId = true ∧ valid entry.value.request entry.value.reply = true
  shaped : ∀ entry ∈ s.asks, requestIdShape entry.1.request.requestId = true
  recording : ∀ ask reply, (ask,AskStage.recording reply) ∈ s.asks → ⟨ask.clientId,ask.request,reply⟩ ∈ s.answers ∧
    valid ask.request reply = true ∧ unnamed reply = false

theorem Answers.mono {answers : List HandlerReply} {response : BrokerResponse} (h : Answers answers response) (more : List HandlerReply) :
    Answers (answers ++ more) response :=
  { h with handled := List.mem_append_left _ h.handled }

section
variable {s : BrokerServer} {n : Nat} {ask : BrokerAsk}

theorem Sound.refuse (h : Sound s) (code : BrokerErrorCode) : Sound (s.refuse code) := ⟨h.answered,h.stored,h.shaped,h.recording⟩

theorem Sound.respond (h : Sound s) {answer : HandlerReply} (right : Answers s.answers ⟨ask,answer⟩) : Sound (s.respond ask answer) := by
  unfold BrokerServer.respond
  split
  · refine ⟨fun response member => ?_,h.stored,h.shaped,h.recording⟩
    rcases List.mem_append.mp member with earlier | last
    · exact h.answered response earlier
    · exact List.mem_singleton.mp last ▸ right
  · exact h.refuse _

theorem Sound.move (h : Sound s) (shaped : requestIdShape ask.request.requestId = true) {stage : AskStage}
    (noted : ∀ reply, stage = .recording reply → ⟨ask.clientId,ask.request,reply⟩ ∈ s.answers ∧ valid ask.request reply = true ∧
      unnamed reply = false) : Sound (s.move n ask stage) := by
  refine ⟨h.answered,h.stored,fun entry member => ?_,fun other reply member => ?_⟩
  · rcases List.mem_or_eq_of_mem_set member with earlier | rfl
    · exact h.shaped entry earlier
    · exact shaped
  · rcases List.mem_or_eq_of_mem_set member with earlier | same
    · exact h.recording other reply earlier
    · obtain ⟨rfl,rfl⟩ := Prod.mk.inj same
      exact noted reply rfl

theorem Sound.ends (h : Sound s) (n : Nat) (shaped : requestIdShape ask.request.requestId = true) : Sound (s.move n ask .over_) :=
  h.move shaped nofun

theorem Sound.calls (h : Sound s) (n : Nat) (shaped : requestIdShape ask.request.requestId = true) : Sound (s.move n ask .handler) :=
  h.move shaped nofun

theorem Sound.hears (h : Sound s) (answer : HandlerReply) : Sound { s with answers := s.answers ++ [answer] } where
  answered := fun response member => (h.answered response member).mono [answer]
  stored := fun entry member =>
    let ⟨key,there,shaped,fine⟩ := h.stored entry member
    ⟨key,List.mem_append_left _ there,shaped,fine⟩
  shaped := h.shaped
  recording := fun ask reply member =>
    let ⟨there,fine,named⟩ := h.recording ask reply member
    ⟨List.mem_append_left _ there,fine,named⟩

theorem Sound.store (h : Sound s) {answer : HandlerReply} (there : answer ∈ s.answers)
    (shaped : requestIdShape answer.request.requestId = true) (fine : valid answer.request answer.reply = true) (now : Int) :
    Sound (s.store answer now) := by
  unfold BrokerServer.store
  split
  · exact h
  · refine ⟨h.answered,fun entry member => ?_,h.shaped,h.recording⟩
    rcases Expiring.setStored member with earlier | ⟨key,value⟩
    · exact h.stored entry earlier
    · rw [key,value]
      exact ⟨rfl,there,shaped,fine⟩

theorem storeAnswers (s : BrokerServer) (answer : HandlerReply) (now : Int) : (s.store answer now).answers = s.answers := by
  unfold BrokerServer.store
  split <;> rfl

theorem startedSuccess {reply : JsValue} (started : startedRun ask reply = true) : reply.get "success" = .bool true := by
  obtain ⟨⟨-,success⟩,-⟩ : (_ ∧ (match reply.get "success" with | .bool true => true | _ => false) = true) ∧ _ := by
    simpa only [startedRun,Bool.and_eq_true] using started
  split at success
  · assumption
  · contradiction

theorem validatedShape {raw : JsValue} {request : RuntimeRequest} (ok : validateRequest raw = .ok request) :
    requestIdShape request.requestId = true := by
  unfold validateRequest at ok
  split at ok
  · contradiction
  · obtain ⟨_,-,ok⟩ := checksThen ok
    obtain ⟨_,-,ok⟩ := checksThen ok
    obtain ⟨id,read,ok⟩ := checksThen ok
    have shape : requestIdShape id = true := by
      unfold checkRequestId at read
      split at read
      · split at read
        · rename_i shape
          exact Except.ok.inj read ▸ shape
        · contradiction
      · contradiction
    split at ok
    · contradiction
    · obtain ⟨params,-,ok⟩ := checksThen ok
      exact Except.ok.inj ok ▸ shape

theorem Sound.request (h : Sound s) (connection : Nat) (sequence : Int) (raw : JsValue) (early late : Option BrokerErrorCode) :
    Sound (s.request connection sequence raw early late) := by
  unfold BrokerServer.request
  split
  · exact h
  · exact h.refuse _
  · rename_i held request _ ok
    split
    · exact h.refuse _
    · split
      · exact h.refuse _
      · have counted : Sound { s with connections := s.connections.set connection { held with last := sequence } } :=
          ⟨h.answered,h.stored,h.shaped,h.recording⟩
        dsimp only
        split
        · exact counted.refuse _
        · refine ⟨h.answered,h.stored,fun entry member => ?_,fun other reply member => ?_⟩
          · rcases List.mem_append.mp member with earlier | last
            · exact h.shaped entry earlier
            · cases List.mem_singleton.mp last
              exact validatedShape ok
          · rcases List.mem_append.mp member with earlier | last
            · exact h.recording other reply earlier
            · cases List.mem_singleton.mp last

/- What a read finds is what the handler replied to this client under this id. -/
theorem cachedFound (h : Sound s) (shaped : requestIdShape ask.request.requestId = true) {now : Int} {cached : HandlerReply}
    (found : (Expiring.get (mutationKey ask.clientId ask.request.requestId) now s.reads).1 = some cached) :
    cached.clientId = ask.clientId ∧ cached ∈ s.answers ∧ valid cached.request cached.reply = true := by
  obtain ⟨entry,member,key,rfl,-⟩ := Expiring.getStored found
  obtain ⟨own,there,shaped',fine⟩ := h.stored entry member
  exact ⟨(keySame shaped' shaped (own.symm.trans key)).1,there,fine⟩

theorem stepSound (e : BrokerServerEvent) (h : Sound s) (faithful : Faithful s e) : Sound (s.step e) := by
  cases e with
  | hello clientId => exact ⟨h.answered,h.stored,h.shaped,h.recording⟩
  | request connection sequence raw early late => exact h.request connection sequence raw early late
  | gates n refusal now =>
    unfold step
    dsimp only
    split
    · rename_i ask here
      have shaped := h.shaped _ (List.mem_of_getElem? here)
      cases refusal with
      | some code => exact (h.ends n shaped).refuse code
      | none =>
        dsimp only
        unfold lookup
        split
        · exact h.calls n shaped
        · rename_i read
          have kept : Sound { s with reads := (Expiring.get (mutationKey ask.clientId ask.request.requestId) now s.reads).2 } :=
            ⟨h.answered,fun entry member => h.stored entry (Expiring.getSubset _ _ _ member),h.shaped,h.recording⟩
          dsimp only
          split
          · rename_i cached found
            obtain ⟨client,there,fine⟩ := cachedFound h shaped found
            by_cases small : fits ask cached.reply = true
            · obtain ⟨same,named⟩ := faithful ask here (Bool.eq_false_iff.mpr read) cached found small
              obtain ⟨id,method,-⟩ := validCarries fine
              rw [same] at id method
              exact (kept.ends n shaped).respond ⟨id,method named,client,same,there⟩
            · unfold respond
              rw [if_neg small]
              exact (kept.ends n shaped).refuse _
          · exact kept.calls n shaped
    · exact h
  | reply n value gone now =>
    unfold step
    dsimp only
    split
    · rename_i ask here
      have shaped := h.shaped _ (List.mem_of_getElem? here)
      have heard := (h.ends n shaped).hears ⟨ask.clientId,ask.request,value⟩
      have there : (⟨ask.clientId,ask.request,value⟩ : HandlerReply) ∈ (s.move n ask .over_).answers ++ [⟨ask.clientId,ask.request,value⟩] :=
        List.mem_append_right _ (List.mem_singleton_self _)
      unfold handled
      dsimp only
      cases gone with
      | true => exact heard
      | false =>
        rw [if_neg Bool.false_ne_true]
        cases checked : validateReply value (some ask.request.requestId) (some ask.request.method) with
        | error reason => exact heard.refuse _
        | ok out =>
          have fine : valid ask.request value = true := by unfold valid; rw [checked]; rfl
          obtain ⟨id,method,success⟩ := validCarries fine
          have kept := heard.store there shaped fine now
          dsimp only
          split
          · rename_i started
            refine kept.move shaped fun reply same => ?_
            cases same
            exact ⟨by rw [storeAnswers]; exact there,fine,success (startedSuccess started)⟩
          · by_cases small : fits ask value = true
            · exact kept.respond ⟨id,method (faithful ask here fine small),rfl,rfl,by rw [storeAnswers]; exact there⟩
            · unfold respond
              rw [if_neg small]
              exact kept.refuse _
    · exact h
  | failed n =>
    unfold step
    dsimp only
    split
    · rename_i ask here
      exact (h.ends n (h.shaped _ (List.mem_of_getElem? here))).refuse _
    · exact h
  | recorded n ok =>
    unfold step
    dsimp only
    split
    · rename_i ask reply here
      have shaped := h.shaped _ (List.mem_of_getElem? here)
      obtain ⟨there,fine,named⟩ := h.recording ask reply (List.mem_of_getElem? here)
      obtain ⟨id,method,-⟩ := validCarries fine
      split
      · exact (h.ends n shaped).respond ⟨id,method named,rfl,rfl,there⟩
      · exact (h.ends n shaped).refuse _
    · exact h

theorem respondSent {answer : HandlerReply} (small : fits ask answer.reply = true) : ⟨ask,answer⟩ ∈ (s.respond ask answer).sent := by
  unfold BrokerServer.respond
  rw [if_pos small]
  exact List.mem_append_right _ (List.mem_singleton_self _)

theorem unnamedAnswers {answers : List HandlerReply} {answer : HandlerReply} (right : Answers answers ⟨ask,answer⟩) :
    unnamed answer.reply = false := by
  have method := right.method
  dsimp only at method
  unfold unnamed
  cases content : answer.reply.get "method" with
  | undefined => rw [content] at method; contradiction
  | null => rfl
  | bool b => rfl
  | number n => rfl
  | string s => rfl
  | array list => rfl
  | object list => rfl

/- Any other step sends a reply that is not the request's. -/
theorem stepBreaks (e : BrokerServerEvent) (unfaithful : ¬Faithful s e) : ¬Answered (s.step e) := by
  intro answered
  refine unfaithful ?_
  cases e with
  | hello clientId => trivial
  | request connection sequence raw early late => trivial
  | failed n => trivial
  | recorded n ok => trivial
  | gates n refusal now => cases refusal with
    | some code => trivial
    | none =>
      intro ask here read cached found small
      have sent : ⟨ask,cached⟩ ∈ (s.step (.gates n none now)).sent := by
        unfold step
        dsimp only
        rw [here]
        dsimp only
        unfold lookup
        rw [if_neg (Bool.eq_false_iff.mp read)]
        dsimp only
        rw [found]
        exact respondSent small
      have right := answered _ sent
      exact ⟨right.request,unnamedAnswers right⟩
  | reply n value gone now => cases gone with
    | true => trivial
    | false =>
      intro ask here fine small
      by_contra missing
      have left : unnamed value = true := by simpa using missing
      obtain ⟨-,-,success⟩ := validCarries fine
      have plain : startedRun ask value = false := by
        by_contra started
        exact missing (success (startedSuccess (by simpa using started)))
      have sent : ⟨ask,⟨ask.clientId,ask.request,value⟩⟩ ∈ (s.step (.reply n value false now)).sent := by
        unfold step
        dsimp only
        rw [here]
        dsimp only
        unfold handled
        cases checked : validateReply value (some ask.request.requestId) (some ask.request.method) with
        | error reason => unfold valid at fine; rw [checked] at fine; contradiction
        | ok out =>
          dsimp only
          rw [if_neg Bool.false_ne_true,plain,if_neg Bool.false_ne_true]
          exact respondSent small
      exact missing (unnamedAnswers (answered _ sent))

end

theorem soundFirst : Sound {} where
  answered := fun _ member => absurd member List.not_mem_nil
  stored := fun _ member => absurd member List.not_mem_nil
  shaped := fun _ member => absurd member List.not_mem_nil
  recording := fun _ _ member => absurd member List.not_mem_nil

/-- Every reply sent up to any point of a run is the handler's to that very request just when no read of the run finds the cached
reply of another one and no reply leaves its method out. -/
theorem repliesAnswer (events : List BrokerServerEvent) :
    Meets Faithful step {} events ↔ ∀ n, Answered ((events.take n).foldl step {}) :=
  runExactly soundFirst (fun _ h => h.answered) (fun _ e h faithful => stepSound e h faithful)
    (fun _ e _ unfaithful => stepBreaks e unfaithful) events

section
def runRequest (method : RuntimeRpcMethod) (runId : String) : RuntimeRequest :=
  ⟨js "r1",method,.object [(js "runId",.string (js runId))]⟩

def statusReply : JsValue := executedReply (js "r1") .status (.object [(js "state",.string (js "running"))])

/- One id for the status of one run and, while its reply is cached, for the result of another. -/
def reusedId : List BrokerServerEvent :=
  [.hello (js "c"),.request 0 1 (runRequest .status "runtime_1").json none none,.gates 0 none 0,.reply 0 statusReply false 0,
    .request 0 2 (runRequest .result "runtime_2").json none none,.gates 1 none 1]

set_option maxRecDepth 16384 in
theorem reusedSent : (reusedId.foldl step {}).sent.map (fun response => (response.ask.request.method,response.answer.request.method)) =
    [(.status,.status),(.result,.status)] := by decide

theorem answeredMethods {s : BrokerServer} (answered : Answered s) :
    ∀ methods ∈ s.sent.map fun response => (response.ask.request.method,response.answer.request.method), methods.1 = methods.2 := by
  intro methods member
  obtain ⟨response,sent,rfl⟩ := List.mem_map.mp member
  exact congrArg RuntimeRequest.method (answered response sent).request.symm

/- The second request is sent the reply to the first. -/
theorem reusedUnanswered : ¬Answered (reusedId.foldl step {}) := by
  intro answered
  have second := answeredMethods answered (.result,.status)
  rw [reusedSent] at second
  exact absurd (second (List.mem_cons_of_mem _ (List.mem_singleton_self _))) (by decide)

end

end BrokerServer
end Northstar.Runtime
