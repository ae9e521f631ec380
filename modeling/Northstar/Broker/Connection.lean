import Northstar.Broker.Executor
import Northstar.Broker.Db

/-! One client connection (main.rs): attestation, hello, then one frame at a time.
A handler says whether the loop goes on; where the source returns, it does not. -/
namespace Northstar.Broker

def sendMsg (message : BrokerMessage) : Handler Bool :=
  match encodeFrame message with
  | .error _ => pure false
  | .ok _ => call (.send message)

def sendError (code : String) : Handler Unit := do
  let _ ← sendMsg (.error ⟨2,"error",code⟩)
  pure ()

def acceptClient (cfg : Config) : Handler Bool := do
  match ← call .peerIdentity with
  | some uid => if uid ≠ cfg.euid then do sendError "unauthorized"; pure false else pure true
  | none => do sendError "unauthorized"; pure false

/- hello and accepted are history: what was asked for, and the sequence numbers the
session has let through since. -/
structure Session where
  welcome : BrokerWelcome
  lastSequence : Option Int
  hello : BrokerHello
  accepted : List Int
  deriving Repr

def Session.accept (s : Session) (sequence : Int) : Session :=
  {s with lastSequence := some sequence, accepted := s.accepted ++ [sequence]}

def Session.nextSequence (s : Session) : Int := s.lastSequence.elim 1 (· + 1)

def refuse (code : String) : Handler Bool := do
  sendError code
  pure false

/- Before there is a session to go on with. -/
def close (code : String) : Handler (Option Session) := do
  sendError code
  pure none

/-! ## Session tokens -/

def issueSession (auth : BrokerAuth) (clientId projectId : String)
    (grantedCaps : List BrokerCapability) : Handler TokenClaims := do
  let sessionId ← call .random
  let nonce ← call .random
  let now ← call .nowSecs
  pure ⟨auth.epoch,clientId,sessionId,projectId,grantedCaps,now + tokenTtlSecs,nonce⟩

def tokenOf (cfg : Config) (auth : BrokerAuth) (claims : TokenClaims) : String :=
  encodeClaims cfg claims ++ "." ++ sign cfg auth.rootSecret (encodeClaims cfg claims)

inductive VerifyError where
  | malformedToken | invalidSignature | epochMismatch | projectDenied | scopeDenied
  | expiredToken | clientMismatch
  deriving DecidableEq, Repr

def VerifyError.code : VerifyError → String
  | .expiredToken => "expired_token"
  | .epochMismatch => "epoch_mismatch"
  | .projectDenied => "project_denied"
  | .scopeDenied => "scope_denied"
  | _ => "unauthorized"

def verifyToken (cfg : Config) (auth : BrokerAuth) (token expectedEpoch clientId sessionId : String)
    (capability : BrokerCapability) : Handler (Except VerifyError Unit) :=
  match splitToken token with
  | none => pure (.error .malformedToken)
  | some (body,sig) =>
      if verifySignature cfg auth.rootSecret body sig = false then pure (.error .invalidSignature)
      else match decodeClaims cfg body with
        | none => pure (.error .malformedToken)
        | some claims =>
            if claims.epoch ≠ expectedEpoch ∨ claims.epoch ≠ auth.epoch then
              pure (.error .epochMismatch)
            else if claims.clientId ≠ clientId ∨ claims.sessionId ≠ sessionId then
              pure (.error .clientMismatch)
            else if claims.projectId ≠ cfg.projectId then pure (.error .projectDenied)
            else do
              let now ← call .nowSecs
              if claims.expiresAt ≤ now then pure (.error .expiredToken)
              else if capability ∉ claims.capabilities then pure (.error .scopeDenied)
              else pure (.ok ())

/- Wire timestamps are JavaScript epoch milliseconds. -/
def welcomeFor (cfg : Config) (auth : BrokerAuth) (hello : BrokerHello) (claims : TokenClaims) :
    BrokerWelcome :=
  ⟨2,"welcome",claims.epoch,hello.clientId,claims.sessionId,tokenOf cfg auth claims,
    min (claims.expiresAt * 1000) (2^64 - 1),claims.capabilities,cfg.projectId⟩

def sendWelcome (welcome : BrokerWelcome) (claims : TokenClaims) : Handler Bool :=
  match encodeFrame (.welcome welcome) with
  | .error _ => pure false
  | .ok _ => call (.sendWelcome welcome claims)

def handleHello (cfg : Config) (auth : BrokerAuth) : BrokerMessage → Handler (Option Session)
  | .hello hello =>
      if hello.projectId ≠ cfg.projectId then close "project_denied"
      else do
        let claims ← issueSession auth hello.clientId cfg.projectId
          (intersectCapabilities hello.requestedCapabilities)
        let sent ← sendWelcome (welcomeFor cfg auth hello claims) claims
        if sent then pure (some ⟨welcomeFor cfg auth hello claims,none,hello,[]⟩) else pure none
  | _ => close "unsupported_version"

/-! ## Replies -/

/- serde_json's map keeps its keys sorted. -/
def failureReply (method : RpcMethod) (requestId code message : String) : Value :=
  .object [("error",.object [("code",.string code),("message",.string message)]),
    ("method",.string method.wire),("requestId",.string requestId),("success",.bool false),
    ("version",natural 1)]

def sendReply (sequence : Int) (reply : Value) : Handler Bool :=
  sendMsg (.response ⟨2,"response",sequence,reply⟩)

/- The executor's reply names this request and this method and says how it went. -/
def replyEchoes (request : RuntimeRpcRequest) (reply : Value) : Bool :=
  reply.getStr "requestId" == some request.requestId &&
  reply.getStr "method" == some request.method.wire &&
  ((reply.get "success").bind Value.asBool).isSome

def replySucceeded (reply : Value) : Bool := (reply.get "success").bind Value.asBool == some true

/-! ## Job ids -/

def stripPrefix (start s : String) : Option Text :=
  if start.toList.isPrefixOf s.toList then some (s.toList.drop start.length) else none

def isAsciiHexDigit (c : Char) : Bool :=
  c.isDigit || (97 ≤ c.toNat && c.toNat ≤ 102) || (65 ≤ c.toNat && c.toNat ≤ 70)

def joinedKey (k : Key) : String := k.clientId ++ ":" ++ k.requestId

def provisionalJobId (cfg : Config) (k : Key) : String :=
  "runtime_pending_" ++ String.ofList ((cfg.sha256Hex (utf8String (joinedKey k))).toList.take 32)

def isProvisionalJobId (jobId : String) : Bool :=
  match stripPrefix "runtime_pending_" jobId with
  | none => false
  | some suffix => utf8Length suffix == 32 && suffix.all isAsciiHexDigit

def validRuntimeJobId (jobId : String) : Bool :=
  match stripPrefix "runtime_" jobId with
  | none => false
  | some suffix => !suffix.isEmpty && utf8Length suffix ≤ 64 &&
      suffix.all fun c => c.isAlphanum || c == '_' || c == '-'

def terminalRuntimeState (state : String) : Bool :=
  state == "completed" || state == "failed" || state == "cancelled"

def terminalResultError (code : String) : Bool :=
  code == "provider_error" || code == "output_token_limit_exceeded" ||
  code == "result_byte_limit_exceeded" || code == "output_contract_breach" ||
  code == "contract_breach"

/-! ## querySubmission -/

/- A definitive failed start is journaled as completed but never created a runtime job:
its provisional id is not exposed as a submission receipt. -/
def DefinitelyFailed (r : ReceiptRecord) : Prop :=
  r.state = .completed ∧ isProvisionalJobId r.jobId = true
instance (r) : Decidable (DefinitelyFailed r) := by unfold DefinitelyFailed; infer_instance

def submissionReceipt (r : ReceiptRecord) : Option JobSubmissionReceipt :=
  if DefinitelyFailed r then none
  else some ⟨r.jobId,r.clientId,r.requestId,(r.submittedAt % 2^64).toNat,some r.state.asStr⟩

/-- What querySubmission finds in these rows. -/
def Tables.submission (t : Tables) (k : Key) : Option JobSubmissionReceipt :=
  (t.receipt k).bind submissionReceipt

def handleQuery (session : Session) (q : BrokerQuery) : Handler Bool := do
  match ← queryReceipt session.welcome.clientId q.query.requestId with
  | .error _ => refuse "invalid_frame"
  | .ok row => sendMsg (.queryResponse ⟨2,"queryResponse",q.sequence,row.bind submissionReceipt⟩)

/-! ## start -/

def startUnknown (session : Session) (request : RuntimeRpcRequest) : Handler Unit := do
  let _ ← transitionJobByRequest session.welcome.clientId request.requestId .outcomeUnknown
  pure ()

def startUnusable (session : Session) (request : RuntimeRpcRequest) : Handler Bool := do
  startUnknown session request
  refuse "invalid_frame"

def startRunId (reply : Value) : Option String :=
  (((reply.get "data").bind (·.getStr "runId"))).filter validRuntimeJobId

def settleStart (cfg : Config) (session : Session) (sequence : Int) (request : RuntimeRpcRequest)
    (replyBytes : Bytes) : Handler Bool :=
  match cfg.fromSlice replyBytes with
  | none => startUnusable session request
  | some reply =>
      if replyEchoes request reply = false then startUnusable session request
      else if replySucceeded reply = true then
        match startRunId reply with
        | none => startUnusable session request
        | some runId => do
            match ← bindDispatchedJob session.welcome.clientId request.requestId runId with
            | .error _ => startUnusable session request
            | .ok () => sendReply sequence reply
      else do
        match ← transitionJobByRequest session.welcome.clientId request.requestId .completed with
        | .error _ => refuse "invalid_frame"
        | .ok () => sendReply sequence reply

def startTimeout (session : Session) (sequence : Int) (request : RuntimeRpcRequest)
    (message : String) : Handler Bool := do
  startUnknown session request
  sendReply sequence (failureReply .start request.requestId "timeout" message)

def executorTimeout : Nat := 60000

def dispatchStart (cfg : Config) (session : Session) (sequence : Int) (request : RuntimeRpcRequest) :
    Handler Bool := do
  match ← prepare cfg with
  | .error e => do
      let _ ← releaseStartArtifacts session.welcome.clientId request.requestId
      let _ ← sendReply sequence (failureReply .start request.requestId "runtime_unavailable"
        ("Upstream executor unavailable before dispatch: " ++ e.display))
      pure true
  | .ok () =>
      match ← transitionJobByRequest session.welcome.clientId request.requestId .dispatched with
      | .error _ => refuse "invalid_frame"
      | .ok () =>
          match ← executePrepared session.welcome.clientId request executorTimeout with
          | .ok replyBytes => settleStart cfg session sequence request replyBytes
          | .error (.beforeDispatch e) =>
              startTimeout session sequence request
                ("Upstream executor dispatch outcome is unknown: " ++ e)
          | .error (.afterDispatch e) =>
              startTimeout session sequence request
                ("Upstream executor communication lost after dispatch: " ++ e)

def pendingReceipt (cfg : Config) (k : Key) (submittedAt : Int) (digest : String) : ReceiptRecord :=
  ⟨provisionalJobId cfg k,k.clientId,k.requestId,.pending,submittedAt,none,some digest⟩

def handleStart (cfg : Config) (session : Session) (sequence : Int) (request : RuntimeRpcRequest) :
    Handler Bool := do
  let submittedAt ← call .nowMillis
  match ← claimStartAtomic session.welcome.clientId request.requestId
      (pendingReceipt cfg ⟨session.welcome.clientId,request.requestId⟩ submittedAt
        (cfg.sha256Hex (requestJson request))) with
  | .error .duplicate => refuse "duplicate_mutation"
  | .error _ => refuse "invalid_frame"
  | .ok () =>
      if cfg.executor then dispatchStart cfg session sequence request
      else do
        let _ ← releaseStartArtifacts session.welcome.clientId request.requestId
        sendReply sequence (failureReply .start request.requestId "runtime_unavailable"
          "Broker host did not supply a native executor")

/-! ## negotiate, status, result -/

def shouldSettle (method : RpcMethod) (reply : Value) (runId : String) : Bool :=
  match method, replySucceeded reply with
  | .status, true =>
      match (reply.get "data").bind Value.asObject with
      | none => false
      | some data => (Value.object data).getStr "runId" == some runId &&
          ((Value.object data).getStr "state").any terminalRuntimeState
  | .result, true => true
  | .result, false => ((reply.get "error").bind (·.getStr "code")).any terminalResultError
  | _, _ => false

def settleRead (request : RuntimeRpcRequest) (reply : Value) : Option String → Handler Unit
  | none => pure ()
  | some runId =>
      if shouldSettle request.method reply runId = true then do
        let _ ← transitionJob runId .completed
        pure ()
      else pure ()

def forwardRead (cfg : Config) (session : Session) (sequence : Int) (request : RuntimeRpcRequest)
    (ownedRunId : Option String) : Handler Bool :=
  if cfg.executor then do
    match ← execute cfg session.welcome.clientId request executorTimeout with
    | .ok replyBytes =>
        match cfg.fromSlice replyBytes with
        | none => refuse "invalid_frame"
        | some reply =>
            if replyEchoes request reply = false then refuse "invalid_frame"
            else do
              settleRead request reply ownedRunId
              sendReply sequence reply
    | .error (.beforeDispatch e) =>
        sendReply sequence (failureReply request.method request.requestId
          "runtime_unavailable" ("Upstream executor dispatch failed: " ++ e))
    | .error (.afterDispatch e) =>
        sendReply sequence (failureReply request.method request.requestId "timeout"
          ("Upstream executor communication lost after dispatch: " ++ e))
  else sendReply sequence (failureReply request.method request.requestId "runtime_unavailable"
    "Broker host did not supply a native executor")

def readRunId (request : RuntimeRpcRequest) : Option String :=
  (request.params.getStr "runId").filter validRuntimeJobId

def handleOwnedRead (cfg : Config) (session : Session) (sequence : Int)
    (request : RuntimeRpcRequest) : Handler Bool :=
  match readRunId request with
  | none => refuse "invalid_frame"
  | some runId => do
      match ← ownsAllJobs session.welcome.clientId [runId] with
      | .ok true => forwardRead cfg session sequence request (some runId)
      | .ok false => refuse "scope_denied"
      | .error _ => refuse "invalid_frame"

/-! ## cancelAndSettle -/

def collectRunIds : List Value → List String → Option (List String)
  | [], runIds => some runIds
  | item :: rest, runIds =>
      match item.asStr.filter validRuntimeJobId with
      | none => none
      | some runId => if runId ∈ runIds then none else collectRunIds rest (runIds ++ [runId])

def cancelRunIds (params : Value) : Option (List String) :=
  match (params.get "runIds").bind Value.asArray with
  | none => none
  | some items =>
      if items.isEmpty || items.length > 64 then none else collectRunIds items []

def settlementWindowMs (params : Value) : Option Nat :=
  ((params.get "settlementWindowMs").bind Value.asU64).filter fun w => 1 ≤ w ∧ w ≤ 10000

def settleRuns (runIds : List String) : List Value → Handler Unit
  | [] => pure ()
  | item :: rest =>
      match item.getStr "runId",item.getStr "state" with
      | some runId,some state =>
          if runId ∈ runIds ∧ terminalRuntimeState state = true then do
            let _ ← transitionJob runId .completed
            settleRuns runIds rest
          else settleRuns runIds rest
      | _,_ => settleRuns runIds rest

def settlements (reply : Value) : List Value :=
  (((reply.get "data").bind (·.get "settlements")).bind Value.asArray).getD []

def finishCancel (sequence : Int) (request : RuntimeRpcRequest) (runIds : List String)
    (reply : Value) : Handler Unit :=
  if replyEchoes request reply = false then do
    markJobsOutcomeUnknown runIds
    sendError "invalid_frame"
  else if replySucceeded reply = true then do
    settleRuns runIds (settlements reply)
    let _ ← sendReply sequence reply
    pure ()
  else do
    let _ ← sendReply sequence reply
    pure ()

def forwardCancel (cfg : Config) (session : Session) (sequence : Int) (request : RuntimeRpcRequest)
    (runIds : List String) (window : Nat) : Handler Unit := do
  match ← execute cfg session.welcome.clientId request (window + 5000) with
  | .ok bytes =>
      match cfg.fromSlice bytes with
      | none => do
          markJobsOutcomeUnknown runIds
          sendError "invalid_frame"
      | some reply => finishCancel sequence request runIds reply
  | .error (.beforeDispatch e) =>
      finishCancel sequence request runIds (failureReply .cancelAndSettle request.requestId
        "runtime_unavailable" ("Upstream executor dispatch failed: " ++ e))
  | .error (.afterDispatch e) => do
      markJobsOutcomeUnknown runIds
      finishCancel sequence request runIds (failureReply .cancelAndSettle request.requestId
        "timeout" ("Upstream executor communication lost after dispatch: " ++ e))

def claimCancel (cfg : Config) (session : Session) (sequence : Int) (request : RuntimeRpcRequest)
    (runIds : List String) (window : Nat) : Handler Unit := do
  match ← call (.sql (.insertClaim
      ⟨⟨session.welcome.clientId,request.requestId⟩,.cancelAndSettle⟩)) with
  | .error .constraintViolation => sendError "duplicate_mutation"
  | .error .failure => sendError "invalid_frame"
  | .ok _ =>
      if cfg.executor then forwardCancel cfg session sequence request runIds window
      else do
        let _ ← deleteMutationClaim session.welcome.clientId request.requestId
        let _ ← sendReply sequence (failureReply .cancelAndSettle request.requestId
          "runtime_unavailable" "Native executor not composed")
        pure ()

def handleCancelAndSettle (cfg : Config) (session : Session) (sequence : Int)
    (request : RuntimeRpcRequest) : Handler Unit :=
  match cancelRunIds request.params with
  | none => sendError "invalid_frame"
  | some runIds =>
      match settlementWindowMs request.params with
      | none => sendError "invalid_frame"
      | some window => do
          match ← ownsAllJobs session.welcome.clientId runIds with
          | .ok true => claimCancel cfg session sequence request runIds window
          | .ok false => sendError "scope_denied"
          | .error _ => sendError "invalid_frame"

/-! ## Frames -/

def handleMethod (cfg : Config) (session : Session) (req : BrokerRequest) : Handler Bool :=
  match req.request.method with
  | .cancelAndSettle => do
      handleCancelAndSettle cfg session req.sequence req.request
      pure true
  | .start => handleStart cfg session req.sequence req.request
  | .negotiate => forwardRead cfg session req.sequence req.request none
  | .status | .result => handleOwnedRead cfg session req.sequence req.request

/- Both arms of the loop check their frame in this order before they act on it. -/
def authorize (cfg : Config) (auth : BrokerAuth) (session : Session)
    (projectId epoch token : String) (sequence : Int) (capability : BrokerCapability)
    (act : Handler Bool) : Handler (Option Session) :=
  if projectId ≠ cfg.projectId then close "project_denied"
  else if epoch ≠ auth.epoch then close "epoch_mismatch"
  else if sequence ≠ session.nextSequence then close "sequence_replay"
  else do
    match ← verifyToken cfg auth token auth.epoch session.welcome.clientId
        session.welcome.sessionId capability with
    | .error e => close e.code
    | .ok () => do
        let continues ← act
        pure (if continues then some (session.accept sequence) else none)

def handleMessage (cfg : Config) (auth : BrokerAuth) (session : Session) :
    BrokerMessage → Handler (Option Session)
  | .query q => authorize cfg auth session q.projectId q.epoch q.token q.sequence .runtimeStatus
      (handleQuery session q)
  | .request req => authorize cfg auth session req.projectId req.epoch req.token req.sequence
      (capabilityForMethod req.request.method) (handleMethod cfg session req)
  | _ => close "invalid_frame"

/- What read_one_frame hands to the loop: end of stream, an error string, or a message. -/
inductive Input where
  | closed
  | unreadable (errorCode : String)
  | message (m : BrokerMessage)

def handleInput (cfg : Config) (auth : BrokerAuth) (session : Option Session) :
    Input → Handler (Option Session)
  | .closed => pure none
  | .unreadable errorCode =>
      close (if errorCode = "frame_too_large" ∨ errorCode = "unsupported_version" then errorCode
        else "invalid_frame")
  | .message m =>
      match session with
      | none => handleHello cfg auth m
      | some session => handleMessage cfg auth session m

end Northstar.Broker
