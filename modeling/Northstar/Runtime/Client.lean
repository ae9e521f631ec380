import Northstar.Runtime.Protocol

/-! The broker client (broker-client.ts) over one connection: calls, frames the reader
decodes, and the ends of the socket. `pending` and `rejectPending` are the client's two
maps; a promise is the number of the call that returned it. -/
namespace Northstar.Runtime

structure ClientOptions where
  projectId : JsString
  clientId : JsString
  capabilities : List RuntimeRpcMethod
  deriving Repr

structure Welcome where
  epoch : JsString
  clientId : JsString
  sessionId : JsString
  token : JsString
  expiresAt : Int
  capabilities : List ClientCapability
  projectId : JsString
  deriving DecidableEq, Repr

/- A frame decodeBrokerFrame accepts; `other` is a hello, request or query. -/
inductive Incoming where
  | welcome (message : Welcome)
  | error (code : BrokerErrorCode)
  | response (sequence : Nat) (reply : JsValue)
  | queryResponse (sequence : Nat) (receipt : JsValue)
  | other

inductive ClientError where
  | broker (code : BrokerErrorCode)
  | outcomeUnknown
  deriving DecidableEq, Repr

/- The retryable property of the error object, absent on a plain BrokerError. -/
def ClientError.retryable : ClientError → Option Bool
  | .broker _ => none
  | .outcomeUnknown => some false

inductive Verdict where
  | resolved (value : JsValue)
  | rejected (error : ClientError)

structure Written where
  promise : Nat
  sequence : Nat
  mutation : Bool
  frame : Bytes
  deriving DecidableEq

structure BrokerClient where
  socket : Bool
  welcome : Option Welcome
  sequence : Nat
  pending : List (Nat × Nat)
  rejectPending : List (Nat × Nat)
  mutationSequences : List Nat
  handshakeError : Option BrokerErrorCode
  readerClosed : Bool
  destroyed : Bool
  calls : Nat
  settled : List (Nat × Verdict)
  written : List Written

/- Connected, the hello sent, nothing read yet. -/
def BrokerClient.connected : BrokerClient :=
  ⟨true,none,0,[],[],[],none,false,false,0,[],[]⟩

def requestMessage (options : ClientOptions) (welcome : Welcome) (sequence : Nat)
    (request : RuntimeRequest) : JsValue :=
  .object [(js "version",.number (.int 2)),(js "kind",.string (js "request")),
    (js "token",.string welcome.token),(js "epoch",.string welcome.epoch),
    (js "sessionId",.string welcome.sessionId),(js "sequence",.number (.int sequence)),
    (js "projectId",.string options.projectId),(js "request",request.json)]

def queryMessage (options : ClientOptions) (welcome : Welcome) (sequence : Nat)
    (requestId : JsString) : JsValue :=
  .object [(js "version",.number (.int 2)),(js "kind",.string (js "query")),
    (js "token",.string welcome.token),(js "epoch",.string welcome.epoch),
    (js "sessionId",.string welcome.sessionId),(js "sequence",.number (.int sequence)),
    (js "projectId",.string options.projectId),
    (js "query",.object [(js "method",.string (js "submissionReceipt")),
      (js "requestId",.string requestId)])]

inductive Call where
  | request (raw : JsValue)
  | querySubmission (requestId : JsString)

/- What a call that passes its local checks sends: the message by sequence number, and
whether it is a mutation. -/
structure Outgoing where
  mutation : Bool
  message : Nat → JsValue

/- The checks of request and querySubmission before the sequence number is taken. -/
def admission (options : ClientOptions) (welcome : Welcome) : Call → Except BrokerErrorCode Outgoing
  | .request raw => match validateRequest raw with
      | .error _ => .error .invalidFrame
      | .ok request =>
          if welcome.capabilities.contains (capabilityForMethod request.method) then
            .ok ⟨isMutationMethod request.method,fun sequence =>
              requestMessage options welcome sequence request⟩
          else .error .scopeDenied
  | .querySubmission requestId =>
      .ok ⟨false,fun sequence => queryMessage options welcome sequence requestId⟩

namespace BrokerClient

def settle (s : BrokerClient) (promise : Nat) (verdict : Verdict) : BrokerClient :=
  { s with settled := s.settled ++ [(promise,verdict)] }

def rejection (s : BrokerClient) (error : ClientError) (sequence : Nat) : ClientError :=
  if s.mutationSequences.contains sequence then .outcomeUnknown else error

def fail (s : BrokerClient) (error : ClientError) : BrokerClient :=
  { s with
    settled := s.settled ++ s.rejectPending.map fun entry =>
      (entry.2,.rejected (s.rejection error entry.1))
    pending := []
    rejectPending := []
    mutationSequences := [] }

/- The sequence number is taken, the entry made, then the frame is encoded and written;
an encoding error takes the entry back but not the number. -/
def send (s : BrokerClient) (promise : Nat) (outgoing : Outgoing) : BrokerClient :=
  let sequence := s.sequence + 1
  match encodeBrokerFrame (outgoing.message sequence) with
  | .error code => { s with sequence := sequence }.settle promise (.rejected (.broker code))
  | .ok frame =>
      { s with
        sequence := sequence
        pending := s.pending ++ [(sequence,promise)]
        rejectPending := s.rejectPending ++ [(sequence,promise)]
        mutationSequences :=
          if outgoing.mutation then s.mutationSequences ++ [sequence] else s.mutationSequences
        written := s.written ++ [⟨promise,sequence,outgoing.mutation,frame⟩] }

def call (options : ClientOptions) (s : BrokerClient) (c : Call) : BrokerClient :=
  let promise := s.calls
  let s := { s with calls := s.calls + 1 }
  match s.socket, s.welcome with
  | true, some welcome => match admission options welcome c with
      | .error code => s.settle promise (.rejected (.broker code))
      | .ok outgoing => s.send promise outgoing
  | _, _ => s.settle promise (.rejected (.broker .transportClosed))

def close (s : BrokerClient) : BrokerClient :=
  fail { s with socket := false, welcome := none, destroyed := true } (.broker .transportClosed)

/- The connection is refused before any welcome. -/
def refuse (s : BrokerClient) (code : BrokerErrorCode) : BrokerClient :=
  { fail { s with handshakeError := some code } (.broker code) with destroyed := true }

def accepts (options : ClientOptions) (now : Int) (message : Welcome) : Bool :=
  message.projectId == options.projectId && message.clientId == options.clientId &&
    decide (message.expiresAt > now) && message.token != [] && message.epoch != [] &&
    message.sessionId != []

def withinRequest (options : ClientOptions) (message : Welcome) : Bool :=
  message.capabilities.all (options.capabilities.map capabilityForMethod).contains

def reply (s : BrokerClient) (sequence : Nat) (value : JsValue) (mutations : List Nat) : BrokerClient :=
  match s.pending.lookup sequence with
  | none => s
  | some promise =>
      { s with
        pending := s.pending.filter (·.1 != sequence)
        rejectPending := s.rejectPending.filter (·.1 != sequence)
        mutationSequences := mutations }.settle promise (.resolved value)

def onMessage (options : ClientOptions) (now : Int) (s : BrokerClient) (m : Incoming) : BrokerClient :=
  match s.welcome with
  | none => match m with
      | .error code => s.refuse code
      | .welcome message =>
          if !accepts options now message then s.refuse .unauthorized
          else if !withinRequest options message then s.refuse .scopeDenied
          else { s with welcome := some message }
      | _ => s.refuse .unauthorized
  | some _ => match m with
      | .error code => { s.fail (.broker code) with destroyed := true }
      | .response sequence reply => s.reply sequence reply (s.mutationSequences.filter (· != sequence))
      | .queryResponse sequence receipt => s.reply sequence receipt s.mutationSequences
      | _ => s

/- readBrokerFrames' fail and the client's error callback. -/
def readerFail (s : BrokerClient) (code : BrokerErrorCode) : BrokerClient :=
  if s.readerClosed then s
  else fail { s with
    readerClosed := true
    handshakeError := if s.welcome.isSome then none else some code } (.broker code)

/- The frames one chunk completes, up to the first the decoder refuses. -/
def onFrames (options : ClientOptions) (now : Int) (s : BrokerClient) :
    List (Except BrokerErrorCode Incoming) → BrokerClient
  | [] => s
  | .error code :: _ => s.readerFail code
  | .ok message :: rest => onFrames options now (s.onMessage options now message) rest

end BrokerClient

inductive ClientEvent where
  | call (c : Call)
  | close
  | data (frames : List (Except BrokerErrorCode Incoming)) (now : Int)
  | socketEnd

/- socketEnd is the socket's error or close event. A destroyed socket reads no more data. -/
def clientStep (options : ClientOptions) (s : BrokerClient) : ClientEvent → BrokerClient
  | .call c => s.call options c
  | .close => s.close
  | .data frames now =>
      if s.readerClosed || s.destroyed then s else s.onFrames options now frames
  | .socketEnd => s.readerFail .transportClosed

end Northstar.Runtime
