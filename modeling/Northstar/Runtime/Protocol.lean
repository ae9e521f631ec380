import Northstar.Script

/-! Leaf-runtime requests and replies (runtime-rpc-protocol.ts) and the broker frames
they travel in (broker-protocol.ts), on arbitrary JavaScript data. Unknown fields,
methods and versions are refused; a validated request is rebuilt from its known fields. -/
namespace Northstar.Runtime

def maxPromptBytes : Nat := 262144
def maxReplyBytes : Nat := 262144
def maxNegotiatedOutputTokens : Nat := 16384
def minTimeoutMs : Nat := 1
def maxTimeoutMs : Nat := 600000
def maxCancelRunIds : Nat := 64
def minSettlementWindowMs : Nat := 1
def maxSettlementWindowMs : Nat := 10000
def maxModelIdLength : Nat := 256
def maxCorrelationIdLength : Nat := 128
def maxStageLength : Nat := 64
def maxQueryIndex : Nat := 1000000
def maxAttempt : Nat := 1000
def maxOutputSchemaDepth : Nat := 10
def maxOutputSchemaKeys : Nat := 256
def maxOutputSchemaKeyLength : Nat := 128
def brokerMaxFrameBytes : Nat := 256 * 1024

inductive RuntimeRpcMethod where
  | negotiate | start | status | result | cancelAndSettle
  deriving DecidableEq, Repr

def RuntimeRpcMethod.wire : RuntimeRpcMethod → String
  | .negotiate => "negotiate"
  | .start => "start"
  | .status => "status"
  | .result => "result"
  | .cancelAndSettle => "cancelAndSettle"

def runtimeRpcMethods : List RuntimeRpcMethod :=
  [.negotiate,.start,.status,.result,.cancelAndSettle]

def methodOf (value : JsValue) : Option RuntimeRpcMethod :=
  runtimeRpcMethods.find? fun method => value.asString == some (js method.wire)

inductive ValidationCode where
  | invalidRequest | invalidParams | unsupportedVersion | unsupportedMethod
  deriving DecidableEq, Repr

structure ValidationErr where
  code : ValidationCode
  message : JsString
  deriving DecidableEq, Repr

abbrev Validation := Except ValidationErr

def invalidParams {α : Type} (message : String) : Validation α := .error ⟨.invalidParams,js message⟩

def require (code : ValidationCode) (message : String) (met : Bool) : Validation Unit :=
  if met then .ok () else .error ⟨code,js message⟩

/- Character classes of the source's regular expressions. -/
def lower (u : UInt16) : Bool := 97 ≤ u && u ≤ 122
def digit (u : UInt16) : Bool := 48 ≤ u && u ≤ 57
def alphanumeric (u : UInt16) : Bool := lower u || digit u || (65 ≤ u && u ≤ 90)
def idUnit (u : UInt16) : Bool := alphanumeric u || u == 95 || u == 45
def printable (u : UInt16) : Bool := 0x20 ≤ u && u ≤ 0x7E

def between (low high : Nat) (s : JsString) : Bool := low ≤ s.length && s.length ≤ high

def requestIdShape (s : JsString) : Bool := between 1 128 s && s.all idUnit

def runIdShape (s : JsString) : Bool :=
  (js "runtime_").isPrefixOf s && between 1 64 (s.drop 8) && (s.drop 8).all idUnit

def modelIdShape (s : JsString) : Bool :=
  let provider := s.takeWhile (· != 47)
  let model := s.drop (provider.length + 1)
  provider.length < s.length && provider.length > 0 && model.length > 0 &&
    provider.all (fun u => idUnit u || u == 46) &&
    model.all (fun u => idUnit u || u == 46 || u == 58 || u == 43)

def thinkingSuffix (s : JsString) : Bool :=
  [":off",":minimal",":low",":medium",":high",":xhigh",":max"].any fun suffix =>
    (js suffix).isSuffixOf s

def ownerShape (s : JsString) : Bool :=
  between 3 32 s && s.all (fun u => lower u || digit u || u == 95 || u == 45) && (s.head?.any lower)

def roleShape (s : JsString) : Bool :=
  between 1 48 s && s.all (fun u => lower u || digit u || u == 95) && (s.head?.any lower)

def fieldsOf : JsValue → Option (List (JsString × JsValue))
  | .object fields => some fields
  | _ => none

/- The first unknown key; an empty one is falsy, so it is not reported. -/
def exactKeys (fields : List (JsString × JsValue)) (allowed : List String) : Option JsString :=
  ((fields.map (·.1)).find? fun key => !(allowed.map js).contains key).filter (· ≠ [])

def refuseUnknown (code : ValidationCode) (what : String) (fields : List (JsString × JsValue))
    (allowed : List String) : Validation Unit := match exactKeys fields allowed with
  | none => .ok ()
  | some key => .error ⟨code,js ("Unknown " ++ what ++ " field: ") ++ key ++ js "."⟩

def integerIn (low high : Nat) : JsValue → Option Nat
  | .number (.int n) => if (low : Int) ≤ n ∧ n ≤ (high : Int) then some n.toNat else none
  | _ => none

def checkString (message : String) (shape : JsString → Bool) (value : JsValue) : Validation JsString :=
  match value with
  | .string s => if shape s then .ok s else invalidParams message
  | _ => invalidParams message

def checkInteger (message : String) (low high : Nat) (value : JsValue) : Validation Nat :=
  match integerIn low high value with
  | some n => .ok n
  | none => invalidParams message

def checkRequestId (value : JsValue) : Validation JsString := match value with
  | .string s =>
      if requestIdShape s then .ok s
      else .error ⟨.invalidRequest,js "requestId must match [A-Za-z0-9_-]\x7b1,128\x7d."⟩
  | _ => .error ⟨.invalidRequest,js "requestId must match [A-Za-z0-9_-]\x7b1,128\x7d."⟩

def checkModelId (value : JsValue) : Validation JsString := do
  let s ← checkString "modelId length out of bounds." (between 1 maxModelIdLength) value
  require .invalidParams "modelId must be exact provider/id without control characters." (modelIdShape s)
  require .invalidParams "modelId must not carry a thinking suffix." (!thinkingSuffix s)
  pure s

def checkCorrelationId : JsValue → Validation JsString :=
  checkString "correlation.correlationId must be bounded ASCII." fun s =>
    between 1 maxCorrelationIdLength s && s.all printable

def checkQueryIndex : JsValue → Validation Nat :=
  checkInteger "correlation.queryIndex out of range." 0 maxQueryIndex

def checkStage : JsValue → Validation JsString :=
  checkString "correlation.stage must be bounded ASCII." fun s =>
    between 1 maxStageLength s && s.all printable

def checkAttempt : JsValue → Validation Nat :=
  checkInteger "correlation.attempt out of range." 0 maxAttempt

def correlationFields : List String :=
  ["correlationVersion","owner","correlationId","queryIndex","role","stage","attempt"]

def isNumber (value : JsValue) (n : Int) : Bool := match value with
  | .number (.int m) => m == n
  | _ => false

def isUndefined : JsValue → Bool
  | .undefined => true
  | _ => false

/- The rebuilt correlation; `version` is its correlationVersion field, if it has one. -/
def correlationValue (version : JsValue) (owner correlationId : JsString) (queryIndex : Nat)
    (role stage : JsString) (attempt : Nat) : JsValue :=
  .object [(js "correlationVersion",version),(js "owner",.string owner),
    (js "correlationId",.string correlationId),(js "queryIndex",.number (.int queryIndex)),
    (js "role",.string role),(js "stage",.string stage),(js "attempt",.number (.int attempt))]

def checkCorrelationV1 (value : JsValue) (fields : List (JsString × JsValue)) : Validation JsValue := do
  refuseUnknown .invalidParams "correlation" fields correlationFields
  let version := value.get "correlationVersion"
  require .invalidParams "correlation.correlationVersion must be 1 or 2 when present."
    (isUndefined version || isNumber version 1)
  let owner ← checkString "correlation.owner must be \"northstar\"." (· == js "northstar")
    (value.get "owner")
  let correlationId ← checkCorrelationId (value.get "correlationId")
  let queryIndex ← checkQueryIndex (value.get "queryIndex")
  let role ← checkString "correlation.role must be coverage_planner, researcher, or synthesizer."
    (fun s => [js "coverage_planner",js "researcher",js "synthesizer"].contains s) (value.get "role")
  let stage ← checkStage (value.get "stage")
  let attempt ← checkAttempt (value.get "attempt")
  pure (correlationValue version owner correlationId queryIndex role stage attempt)

def checkCorrelationV2 (value : JsValue) (fields : List (JsString × JsValue)) : Validation JsValue := do
  refuseUnknown .invalidParams "correlation" fields correlationFields
  require .invalidParams "correlation.correlationVersion must be 2 for v2 correlation."
    (isNumber (value.get "correlationVersion") 2)
  let owner ← checkString "correlation.owner must match the v2 owner pattern." ownerShape
    (value.get "owner")
  let correlationId ← checkCorrelationId (value.get "correlationId")
  let queryIndex ← checkQueryIndex (value.get "queryIndex")
  let role ← checkString "correlation.role must match the v2 role pattern." roleShape (value.get "role")
  let stage ← checkStage (value.get "stage")
  let attempt ← checkAttempt (value.get "attempt")
  pure (correlationValue (.number (.int 2)) owner correlationId queryIndex role stage attempt)

def checkCorrelation (value : JsValue) : Validation JsValue := match fieldsOf value with
  | none => invalidParams "correlation must be an object."
  | some fields =>
      let version := value.get "correlationVersion"
      if isUndefined version || isNumber version 1 then checkCorrelationV1 value fields
      else if isNumber version 2 then checkCorrelationV2 value fields
      else invalidParams "correlation.correlationVersion must be 1 or 2 when present."

/- The key count runs through the whole walk; `none` is the source's false. -/
mutual
def schemaWalk : JsValue → Nat → Nat → Option Nat
  | .array items, depth, keys =>
      if depth > maxOutputSchemaDepth then none else schemaItems items depth keys
  | .object fields, depth, keys =>
      if depth > maxOutputSchemaDepth then none else schemaFields fields depth keys
  | _, depth, keys => if depth > maxOutputSchemaDepth then none else some keys

def schemaItems : List JsValue → Nat → Nat → Option Nat
  | [], _, keys => some keys
  | item :: rest, depth, keys => do
      let keys ← schemaWalk item (depth + 1) keys
      schemaItems rest depth keys

def schemaFields : List (JsString × JsValue) → Nat → Nat → Option Nat
  | [], _, keys => some keys
  | (key,value) :: rest, depth, keys =>
      if keys + 1 > maxOutputSchemaKeys ∨ key.length = 0 ∨ key.length > maxOutputSchemaKeyLength then none
      else do
        let keys ← schemaWalk value (depth + 1) (keys + 1)
        schemaFields rest depth keys
end

def checkOutputSchema (value : JsValue) : Validation JsValue := do
  require .invalidParams "outputSchema must be an object when present." (fieldsOf value).isSome
  require .invalidParams "outputSchema exceeds byte limit." (byteLength (stringify value) ≤ maxPromptBytes)
  require .invalidParams "outputSchema exceeds depth/key bounds." (schemaWalk value 0 0).isSome
  pure value

def checkStartParams (value : JsValue) : Validation JsValue := match fieldsOf value with
  | none => invalidParams "start params must be an object."
  | some fields => do
      refuseUnknown .invalidParams "start" fields
        ["modelId","prompt","maxOutputTokens","timeoutMs","outputSchema","correlation"]
      let modelId ← checkModelId (value.get "modelId")
      let prompt ← checkString "prompt must be non-empty within byte limit."
        (fun s => s.length ≠ 0 && byteLength s ≤ maxPromptBytes) (value.get "prompt")
      let maxOutputTokens ← checkInteger "maxOutputTokens out of range." 1 maxNegotiatedOutputTokens
        (value.get "maxOutputTokens")
      let timeoutMs ← checkInteger "timeoutMs out of range." minTimeoutMs maxTimeoutMs
        (value.get "timeoutMs")
      let outputSchema ← match value.get "outputSchema" with
        | .undefined => pure JsValue.undefined
        | schema => checkOutputSchema schema
      let correlation ← checkCorrelation (value.get "correlation")
      pure (.object [(js "modelId",.string modelId),(js "prompt",.string prompt),
        (js "maxOutputTokens",.number (.int maxOutputTokens)),(js "timeoutMs",.number (.int timeoutMs)),
        (js "outputSchema",outputSchema),(js "correlation",correlation)])

def checkNegotiateParams (value : JsValue) : Validation JsValue := match fieldsOf value with
  | none => invalidParams "negotiate params must be an object."
  | some fields => do
      refuseUnknown .invalidParams "negotiate" fields ["modelId"]
      let modelId ← checkModelId (value.get "modelId")
      pure (.object [(js "modelId",.string modelId)])

def checkRunParams (method : RuntimeRpcMethod) (value : JsValue) : Validation JsValue :=
  match fieldsOf value with
  | none => invalidParams (method.wire ++ " params must be an object.")
  | some fields => do
      refuseUnknown .invalidParams method.wire fields ["runId"]
      let runId ← checkString "runId must be an opaque runtime_ ID." runIdShape (value.get "runId")
      pure (.object [(js "runId",.string runId)])

def runIdList : JsValue → Option (List JsString)
  | .array items => items.mapM fun item => (item.asString).filter runIdShape
  | _ => none

def checkCancelParams (value : JsValue) : Validation JsValue := match fieldsOf value with
  | none => invalidParams "cancelAndSettle params must be an object."
  | some fields => do
      refuseUnknown .invalidParams "cancelAndSettle" fields ["runIds","settlementWindowMs"]
      match runIdList (value.get "runIds") with
      | none => invalidParams "runIds must be 1-64 opaque runtime_ IDs."
      | some runIds =>
          require .invalidParams "runIds must be 1-64 opaque runtime_ IDs."
            (1 ≤ runIds.length && runIds.length ≤ maxCancelRunIds)
          require .invalidParams "runIds must be duplicate-free." (decide runIds.Nodup)
          let window ← checkInteger "settlementWindowMs must be 1-10000ms." minSettlementWindowMs
            maxSettlementWindowMs (value.get "settlementWindowMs")
          pure (.object [(js "runIds",.array (runIds.map .string)),
            (js "settlementWindowMs",.number (.int window))])

structure RuntimeRequest where
  requestId : JsString
  method : RuntimeRpcMethod
  params : JsValue
  deriving Repr

def RuntimeRequest.json (request : RuntimeRequest) : JsValue :=
  .object [(js "version",.number (.int 1)),(js "requestId",.string request.requestId),
    (js "method",.string (js request.method.wire)),(js "params",request.params)]

def checkParams : RuntimeRpcMethod → JsValue → Validation JsValue
  | .negotiate => checkNegotiateParams
  | .start => checkStartParams
  | .status => checkRunParams .status
  | .result => checkRunParams .result
  | .cancelAndSettle => checkCancelParams

def validateRequest (raw : JsValue) : Validation RuntimeRequest := match fieldsOf raw with
  | none => .error ⟨.invalidRequest,js "Runtime request must be an object."⟩
  | some fields => do
      refuseUnknown .invalidRequest "envelope" fields ["version","requestId","method","params"]
      require .unsupportedVersion "Unsupported runtime version." (isNumber (raw.get "version") 1)
      let requestId ← checkRequestId (raw.get "requestId")
      match methodOf (raw.get "method") with
      | none => .error ⟨.unsupportedMethod,js "Unsupported runtime method."⟩
      | some method => do
          let params ← checkParams method (raw.get "params")
          pure ⟨requestId,method,params⟩

/- frame_too_large is the only way a plain value fails to encode. -/
inductive BrokerErrorCode where
  | invalidFrame | frameTooLarge | unsupportedVersion | unauthorized | expiredToken | epochMismatch
  | scopeDenied | projectDenied | endpointUnsafe | sequenceReplay | duplicateMutation | transportClosed
  deriving DecidableEq, Repr

def bigEndian32 (n : Nat) : Bytes :=
  [UInt8.ofNat (n / 2^24),UInt8.ofNat (n / 2^16),UInt8.ofNat (n / 2^8),UInt8.ofNat n]

def encodeBrokerFrame (message : JsValue) : Except BrokerErrorCode Bytes :=
  let payload := utf8 (stringify message)
  if payload.length > brokerMaxFrameBytes then .error .frameTooLarge
  else .ok (bigEndian32 payload.length ++ payload)

inductive ClientCapability where
  | negotiate | start | status | result | cancel
  deriving DecidableEq, Repr

def capabilityForMethod : RuntimeRpcMethod → ClientCapability
  | .negotiate => .negotiate
  | .start => .start
  | .status => .status
  | .result => .result
  | .cancelAndSettle => .cancel

/- isMutationMethod (broker-replay.ts). -/
def isMutationMethod : RuntimeRpcMethod → Bool
  | .start => true
  | .cancelAndSettle => true
  | _ => false

end Northstar.Runtime
