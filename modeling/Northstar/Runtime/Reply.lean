import Northstar.Broker.Connection
import Northstar.Interchange
import Northstar.Runtime.Leaf
import Northstar.Runtime.Protocol

/-! The way of a reply from the leaf runtime to the client: the host's reply object and its
validation (runtime-rpc-protocol.ts), the executor listener's frame (broker-host.ts) and the
broker's response around it (main.rs). -/
namespace Northstar.Runtime

def runtimeRpcErrorCodes : List String :=
  ["invalid_request","invalid_params","unsupported_version","unsupported_method",
    "duplicate_request_id","runtime_unavailable","unsupported_capability","capacity_exceeded",
    "not_found","invalid_state","model_unavailable","provider_error","timeout",
    "output_token_limit_exceeded","result_byte_limit_exceeded","output_contract_breach",
    "contract_breach"]

abbrev ReplyValidation := Except JsString

def demand (reason : String) (met : Bool) : ReplyValidation Unit :=
  if met then .ok () else .error (js reason)

/- The `in` operator: a key counts even where its value is undefined. -/
def has (v : JsValue) (key : String) : Bool := match v with
  | .object fields => fields.any (·.1 == js key)
  | _ => false

def refuseKeys (what : String) (fields : List (JsString × JsValue)) (allowed : List String) :
    ReplyValidation Unit := match exactKeys fields allowed with
  | none => .ok ()
  | some key => .error (js ("unknown " ++ what ++ " field: ") ++ key)

def replyOversize (raw : JsValue) : Bool := decide (byteLength (stringify raw) > maxResultBytes)

def successEnvelope (requestId method data : JsValue) : JsValue :=
  .object [(js "version",.number (.int 1)),(js "requestId",requestId),(js "method",method),
    (js "success",.bool true),(js "data",data)]

def checkMethod (raw : JsValue) (expectedMethod : Option RuntimeRpcMethod) : ReplyValidation Unit := do
  let method := methodOf (raw.get "method")
  if isUndefined (raw.get "method") then
    demand "success reply must carry method"
      (expectedMethod.isNone || (raw.get "success" matches .bool false))
  else do
    demand "reply method unknown" method.isSome
    demand "reply method mismatch" (expectedMethod.all fun expected => method == some expected)

def checkSuccess (raw : JsValue) (expectedMethod : Option RuntimeRpcMethod) :
    ReplyValidation JsValue := do
  demand "success reply must carry data" (has raw "data")
  demand "success reply must not carry error" (!has raw "error")
  demand "success reply must carry method" (methodOf (raw.get "method")).isSome
  demand "reply method mismatch"
    (expectedMethod.all fun expected => methodOf (raw.get "method") == some expected)
  demand "reply exceeds result byte limit" (!replyOversize raw)
  pure (successEnvelope (raw.get "requestId") (raw.get "method") (raw.get "data"))

def checkError (raw : JsValue) : ReplyValidation JsValue := match fieldsOf (raw.get "error") with
  | none => .error (js "error reply must carry error object")
  | some fields => do
      let error := raw.get "error"
      refuseKeys "error" fields ["code","message"]
      demand "unknown error code"
        ((error.get "code").asString.any fun code => (runtimeRpcErrorCodes.map js).contains code)
      demand "error message must be string" (error.get "message").asString.isSome
      demand "error reply must not carry data" (!has raw "data")
      demand "reply exceeds result byte limit" (!replyOversize raw)
      let method := if isUndefined (raw.get "method") then [] else [(js "method",raw.get "method")]
      pure (.object ([(js "version",.number (.int 1)),(js "requestId",raw.get "requestId")] ++ method ++
        [(js "success",.bool false),(js "error",.object [(js "code",error.get "code"),
          (js "message",error.get "message")])]))

def validateReply (raw : JsValue) (expectedRequestId : Option JsString)
    (expectedMethod : Option RuntimeRpcMethod) : ReplyValidation JsValue := match fieldsOf raw with
  | none => .error (js "reply must be an object")
  | some fields => do
      refuseKeys "reply" fields ["version","requestId","method","success","data","error"]
      demand "reply version must be 1" (isNumber (raw.get "version") 1)
      demand "reply requestId malformed" ((raw.get "requestId").asString.any requestIdShape)
      demand "reply requestId mismatch"
        (expectedRequestId.all fun expected => (raw.get "requestId").asString == some expected)
      checkMethod raw expectedMethod
      match raw.get "success" with
      | .bool true => checkSuccess raw expectedMethod
      | .bool false => checkError raw
      | _ => .error (js "reply success must be boolean")

/- executeRequest around data the leaf runtime returned. -/
def executedReply (requestId : JsString) (method : RuntimeRpcMethod) (data : JsValue) : JsValue :=
  successEnvelope (.string requestId) (.string (js method.wire)) data

/- The listener's frame body; `none` is the destroyed socket. -/
def executorFrame (reply : JsValue) (requestId : JsString) (method : RuntimeRpcMethod) : Option Bytes :=
  match validateReply reply (some requestId) (some method) with
  | .error _ => none
  | .ok value =>
      let replyJson := utf8 (stringify value)
      if replyJson.length > brokerMaxFrameBytes then none else some replyJson

/- The response frame the broker sends for a reply frame body; `none` where it refuses the
body or its response does not encode. -/
def brokerReply (fromSlice : Bytes → Option Value) (request : Broker.RuntimeRpcRequest)
    (sequence : Int) (body : Bytes) : Option Bytes :=
  if body.length > Broker.brokerMaxFrameBytes then none
  else match fromSlice body with
    | none => none
    | some reply =>
        if Broker.replyEchoes request reply = false then none
        else (Broker.encodeFrame (.response ⟨2,"response",sequence,reply⟩)).toOption

end Northstar.Runtime
