import Northstar.Value

/-! Broker wire messages (protocol.rs), the frame codec around them (frame.rs) and
the server-owned capability ceiling (grants.rs). Parsing text into a `Value` is
serde_json's; the shape checks from there on are these. -/
namespace Northstar.Broker

inductive BrokerCapability where
  | runtimeNegotiate | runtimeStart | runtimeStatus | runtimeResult | runtimeCancel
  deriving DecidableEq, Repr

def BrokerCapability.wire : BrokerCapability → String
  | .runtimeNegotiate => "runtime:negotiate"
  | .runtimeStart => "runtime:start"
  | .runtimeStatus => "runtime:status"
  | .runtimeResult => "runtime:result"
  | .runtimeCancel => "runtime:cancel"

inductive RpcMethod where
  | negotiate | start | status | result | cancelAndSettle
  deriving DecidableEq, Repr

def RpcMethod.wire : RpcMethod → String
  | .negotiate => "negotiate"
  | .start => "start"
  | .status => "status"
  | .result => "result"
  | .cancelAndSettle => "cancelAndSettle"

structure BrokerHello where
  version : Nat
  kind : String
  clientId : String
  projectId : String
  requestedCapabilities : List BrokerCapability
  deriving Repr

structure BrokerWelcome where
  version : Nat
  kind : String
  epoch : String
  clientId : String
  sessionId : String
  token : String
  expiresAt : Nat
  capabilities : List BrokerCapability
  projectId : String
  deriving Repr

structure RuntimeRpcRequest where
  version : Nat
  requestId : String
  method : RpcMethod
  params : Value
  deriving Repr

structure BrokerRequest where
  version : Nat
  kind : String
  token : String
  epoch : String
  sessionId : String
  sequence : Int
  projectId : String
  request : RuntimeRpcRequest
  deriving Repr

structure SubmissionReceiptQuery where
  method : String
  requestId : String
  deriving Repr

structure BrokerQuery where
  version : Nat
  kind : String
  token : String
  epoch : String
  sessionId : String
  sequence : Int
  projectId : String
  query : SubmissionReceiptQuery
  deriving Repr

structure BrokerResponse where
  version : Nat
  kind : String
  sequence : Int
  reply : Value
  deriving Repr

structure JobSubmissionReceipt where
  jobId : String
  clientId : String
  requestId : String
  submittedAt : Nat
  state : Option String
  deriving DecidableEq, Repr

structure BrokerQueryResponse where
  version : Nat
  kind : String
  sequence : Int
  receipt : Option JobSubmissionReceipt
  deriving Repr

structure BrokerErrorMessage where
  version : Nat
  kind : String
  code : String
  deriving DecidableEq, Repr

inductive BrokerMessage where
  | hello (message : BrokerHello)
  | welcome (message : BrokerWelcome)
  | request (message : BrokerRequest)
  | query (message : BrokerQuery)
  | response (message : BrokerResponse)
  | queryResponse (message : BrokerQueryResponse)
  | error (message : BrokerErrorMessage)
  deriving Repr

/-! Serialisation: serde writes struct fields in declaration order and leaves out
an absent optional field marked skip_serializing_if. -/
def natural (n : Nat) : Value := .number (.int n)
def integer (n : Int) : Value := .number (.int n)

def RuntimeRpcRequest.toValue (r : RuntimeRpcRequest) : Value :=
  .object [("version",natural r.version),("requestId",.string r.requestId),
    ("method",.string r.method.wire),("params",r.params)]

def capabilityList (capabilities : List BrokerCapability) : Value :=
  .array (capabilities.map fun c => .string c.wire)

def JobSubmissionReceipt.toValue (r : JobSubmissionReceipt) : Value :=
  .object ([("jobId",.string r.jobId),("clientId",.string r.clientId),
    ("requestId",.string r.requestId),("submittedAt",natural r.submittedAt)] ++
    (r.state.toList.map fun state => ("state",.string state)))

def BrokerMessage.toValue : BrokerMessage → Value
  | .hello h => .object [("version",natural h.version),("kind",.string h.kind),
      ("clientId",.string h.clientId),("projectId",.string h.projectId),
      ("requestedCapabilities",capabilityList h.requestedCapabilities)]
  | .welcome w => .object [("version",natural w.version),("kind",.string w.kind),
      ("epoch",.string w.epoch),("clientId",.string w.clientId),("sessionId",.string w.sessionId),
      ("token",.string w.token),("expiresAt",natural w.expiresAt),
      ("capabilities",capabilityList w.capabilities),("projectId",.string w.projectId)]
  | .request r => .object [("version",natural r.version),("kind",.string r.kind),
      ("token",.string r.token),("epoch",.string r.epoch),("sessionId",.string r.sessionId),
      ("sequence",integer r.sequence),("projectId",.string r.projectId),
      ("request",r.request.toValue)]
  | .query q => .object [("version",natural q.version),("kind",.string q.kind),
      ("token",.string q.token),("epoch",.string q.epoch),("sessionId",.string q.sessionId),
      ("sequence",integer q.sequence),("projectId",.string q.projectId),
      ("query",.object [("method",.string q.query.method),("requestId",.string q.query.requestId)])]
  | .response r => .object [("version",natural r.version),("kind",.string r.kind),
      ("sequence",integer r.sequence),("reply",r.reply)]
  | .queryResponse r => .object ([("version",natural r.version),("kind",.string r.kind),
      ("sequence",integer r.sequence)] ++
      (r.receipt.toList.map fun receipt => ("receipt",receipt.toValue)))
  | .error e => .object [("version",natural e.version),("kind",.string e.kind),
      ("code",.string e.code)]

/-! Deserialisation of one variant: deny_unknown_fields, no duplicate field, every
field of the struct present with its own type. A derived struct also reads from an
array with exactly its fields in order, and a unit variant from an object with its
name as the only key and null as the value. -/
abbrev Fields := List (String × Value)

def closedFields (keys : List String) : Value → Option Fields
  | .object fields =>
      if (∀ f ∈ fields, f.1 ∈ keys) ∧ (fields.map Prod.fst).Nodup then some fields else none
  | .array items => if items.length = keys.length then some (keys.zip items) else none
  | _ => none

def variantName : Value → Option String
  | .string name => some name
  | .object [(name,.null)] => some name
  | _ => none

def strField (key : String) (fields : Fields) : Option String := (fields.lookup key).bind Value.asStr

def uintField (key : String) (bound : Nat) (fields : Fields) : Option Nat :=
  match fields.lookup key with
  | some (.number (.int n)) => if 0 ≤ n ∧ n < bound then some n.toNat else none
  | _ => none

def i64Field (key : String) (fields : Fields) : Option Int :=
  match fields.lookup key with
  | some (.number (.int n)) => if -2^63 ≤ n ∧ n < 2^63 then some n else none
  | _ => none

def readCapability : String → Option BrokerCapability
  | "runtime:negotiate" => some .runtimeNegotiate
  | "runtime:start" => some .runtimeStart
  | "runtime:status" => some .runtimeStatus
  | "runtime:result" => some .runtimeResult
  | "runtime:cancel" => some .runtimeCancel
  | _ => none

def readCapabilities (key : String) (fields : Fields) : Option (List BrokerCapability) := do
  let items ← (fields.lookup key).bind Value.asArray
  items.mapM fun item => (variantName item).bind readCapability

def readMethod : String → Option RpcMethod
  | "negotiate" => some .negotiate
  | "start" => some .start
  | "status" => some .status
  | "result" => some .result
  | "cancelAndSettle" => some .cancelAndSettle
  | _ => none

def readHello (v : Value) : Option BrokerHello := do
  let f ← closedFields ["version","kind","clientId","projectId","requestedCapabilities"] v
  some ⟨← uintField "version" (2^32) f,← strField "kind" f,← strField "clientId" f,
    ← strField "projectId" f,← readCapabilities "requestedCapabilities" f⟩

def readWelcome (v : Value) : Option BrokerWelcome := do
  let f ← closedFields ["version","kind","epoch","clientId","sessionId","token","expiresAt",
    "capabilities","projectId"] v
  some ⟨← uintField "version" (2^32) f,← strField "kind" f,← strField "epoch" f,
    ← strField "clientId" f,← strField "sessionId" f,← strField "token" f,
    ← uintField "expiresAt" (2^64) f,← readCapabilities "capabilities" f,← strField "projectId" f⟩

def readRuntimeRequest (v : Value) : Option RuntimeRpcRequest := do
  let f ← closedFields ["version","requestId","method","params"] v
  some ⟨← uintField "version" (2^32) f,← strField "requestId" f,
    ← ((f.lookup "method").bind variantName).bind readMethod,← f.lookup "params"⟩

def readRequest (v : Value) : Option BrokerRequest := do
  let f ← closedFields ["version","kind","token","epoch","sessionId","sequence","projectId",
    "request"] v
  some ⟨← uintField "version" (2^32) f,← strField "kind" f,← strField "token" f,
    ← strField "epoch" f,← strField "sessionId" f,← i64Field "sequence" f,
    ← strField "projectId" f,← (f.lookup "request").bind readRuntimeRequest⟩

def readReceiptQuery (v : Value) : Option SubmissionReceiptQuery := do
  let f ← closedFields ["method","requestId"] v
  some ⟨← strField "method" f,← strField "requestId" f⟩

def readQuery (v : Value) : Option BrokerQuery := do
  let f ← closedFields ["version","kind","token","epoch","sessionId","sequence","projectId",
    "query"] v
  some ⟨← uintField "version" (2^32) f,← strField "kind" f,← strField "token" f,
    ← strField "epoch" f,← strField "sessionId" f,← i64Field "sequence" f,
    ← strField "projectId" f,← (f.lookup "query").bind readReceiptQuery⟩

def readResponse (v : Value) : Option BrokerResponse := do
  let f ← closedFields ["version","kind","sequence","reply"] v
  some ⟨← uintField "version" (2^32) f,← strField "kind" f,← i64Field "sequence" f,
    ← f.lookup "reply"⟩

/- A missing optional field and an explicit null both read as absent. -/
def optionalField {α : Type} (key : String) (read : Value → Option α) (fields : Fields) :
    Option (Option α) :=
  match fields.lookup key with
  | none | some .null => some none
  | some v => (read v).map some

def readReceipt (v : Value) : Option JobSubmissionReceipt := do
  let f ← closedFields ["jobId","clientId","requestId","submittedAt","state"] v
  some ⟨← strField "jobId" f,← strField "clientId" f,← strField "requestId" f,
    ← uintField "submittedAt" (2^64) f,← optionalField "state" Value.asStr f⟩

def readQueryResponse (v : Value) : Option BrokerQueryResponse := do
  let f ← closedFields ["version","kind","sequence","receipt"] v
  some ⟨← uintField "version" (2^32) f,← strField "kind" f,← i64Field "sequence" f,
    ← optionalField "receipt" readReceipt f⟩

def readError (v : Value) : Option BrokerErrorMessage := do
  let f ← closedFields ["version","kind","code"] v
  some ⟨← uintField "version" (2^32) f,← strField "kind" f,← strField "code" f⟩

/-- The untagged enum: the first variant whose fields fit, in declaration order. -/
def readMessage (v : Value) : Option BrokerMessage :=
  ((readHello v).map .hello).orElse fun _ =>
  ((readWelcome v).map .welcome).orElse fun _ =>
  ((readRequest v).map .request).orElse fun _ =>
  ((readQuery v).map .query).orElse fun _ =>
  ((readResponse v).map .response).orElse fun _ =>
  ((readQueryResponse v).map .queryResponse).orElse fun _ =>
  (readError v).map .error

def brokerProtocolVersion : Nat := 2
def brokerMaxFrameBytes : Nat := 256 * 1024

inductive FrameError where
  | tooLarge | invalidFrame | utf8Error
  deriving DecidableEq, Repr

def validateMessage (message : BrokerMessage) : Except FrameError Unit :=
  let (version,kind,expectedKind) := match message with
    | .hello h => (h.version,h.kind,"hello")
    | .welcome w => (w.version,w.kind,"welcome")
    | .request r => (r.version,r.kind,"request")
    | .query q => (q.version,q.kind,"query")
    | .response r => (r.version,r.kind,"response")
    | .queryResponse q => (q.version,q.kind,"queryResponse")
    | .error e => (e.version,e.kind,"error")
  if version = brokerProtocolVersion ∧ kind = expectedKind then .ok () else .error .invalidFrame

def decodeMessage (v : Value) : Except FrameError BrokerMessage :=
  match readMessage v with
  | none => .error .invalidFrame
  | some message => (validateMessage message).map fun _ => message

def be32 (n : Nat) : Bytes :=
  [UInt8.ofNat (n / 2^24),UInt8.ofNat (n / 2^16),UInt8.ofNat (n / 2^8),UInt8.ofNat n]

@[irreducible] def encodeFrame (message : BrokerMessage) : Except FrameError Bytes :=
  let body := message.toValue.render
  if body.length > brokerMaxFrameBytes then .error .tooLarge
  else .ok (be32 body.length ++ body)

def cliGrantCeiling : List BrokerCapability :=
  [.runtimeNegotiate,.runtimeStart,.runtimeStatus,.runtimeResult,.runtimeCancel]

def intersectCapabilities (requested : List BrokerCapability) : List BrokerCapability :=
  requested.filter (· ∈ cliGrantCeiling)

theorem capabilityRead (c : BrokerCapability) : readCapability c.wire = some c := by cases c <;> rfl
theorem methodRead (m : RpcMethod) : readMethod m.wire = some m := by cases m <;> rfl

theorem grantedWithinRequest {requested : List BrokerCapability} {c : BrokerCapability}
    (h : c ∈ intersectCapabilities requested) : c ∈ requested ∧ c ∈ cliGrantCeiling := by
  simpa [intersectCapabilities] using h

def capabilityForMethod : RpcMethod → BrokerCapability
  | .negotiate => .runtimeNegotiate
  | .start => .runtimeStart
  | .status => .runtimeStatus
  | .result => .runtimeResult
  | .cancelAndSettle => .runtimeCancel

end Northstar.Broker
