import Northstar.Broker.World

/-! The executor client (executor.rs): one stream behind a slot, connected and
authenticated before the first request frame, dropped after any failed exchange. -/
namespace Northstar.Broker

inductive ExecutorError where
  | beforeDispatch (message : String)
  | afterDispatch (message : String)
  deriving DecidableEq, Repr

def ExecutorError.message : ExecutorError → String
  | .beforeDispatch message => message
  | .afterDispatch message => message

def ExecutorError.display : ExecutorError → String
  | .beforeDispatch message => "executor error before dispatch: " ++ message
  | .afterDispatch message => "executor error after dispatch: " ++ message

def failBefore {α : Type} (message : String) : Handler (Except ExecutorError α) :=
  pure (.error (.beforeDispatch message))

def failAfter {α : Type} (message : String) : Handler (Except ExecutorError α) :=
  pure (.error (.afterDispatch message))

def attestPeer (cfg : Config) : Handler (Except ExecutorError Unit) := do
  match ← call .executorPeer with
  | .ok uid =>
      if uid ≠ cfg.euid then
        failBefore ("peer UID mismatch: peer " ++ toString uid ++ " != self " ++ toString cfg.euid)
      else pure (.ok ())
  | .error e =>
      match ← call .socketFileUid with
      | some uid =>
          if uid ≠ cfg.euid then
            failBefore ("socket file UID mismatch: file " ++ toString uid ++ " != self " ++
              toString cfg.euid)
          else pure (.ok ())
      | none => failBefore ("peer identity unavailable: " ++ e)

/- The token file's text comes trimmed and read lossily. -/
def authPayload (token : String) : Bytes := (Value.object [("token",.string token)]).render

def sendToken : Handler (Except ExecutorError Unit) := do
  match ← call .readTokenFile with
  | none => failBefore "failed to read executor token file"
  | some token =>
      if (authPayload token).length > brokerMaxFrameBytes then
        failBefore "auth frame exceeds maximum frame bytes"
      else
        match ← call (.writeAuth (be32 (authPayload token).length ++ authPayload token)) with
        | .error e => failBefore ("failed sending auth frame: " ++ e)
        | .ok () =>
            match ← call .flush with
            | .error e => failBefore ("failed flushing auth frame: " ++ e)
            | .ok () => pure (.ok ())

def connectFresh (cfg : Config) : Handler (Except ExecutorError Unit) := do
  match ← call .connect with
  | .error e => failBefore ("connect failed: " ++ e)
  | .ok () =>
      match ← attestPeer cfg with
      | .error e => pure (.error e)
      | .ok () => if cfg.tokenFile then sendToken else pure (.ok ())

def prepare (cfg : Config) : Handler (Except ExecutorError Unit) := do
  match ← call .lockStream with
  | none => failBefore "executor stream lock poisoned"
  | some true => pure (.ok ())
  | some false =>
      match ← connectFresh cfg with
      | .error e => pure (.error e)
      | .ok () => do
          let _ ← call (.storeStream true)
          pure (.ok ())

def readReply : Handler (Except ExecutorError Bytes) := do
  match ← call .readLength with
  | .error e => failAfter ("failed reading reply length: " ++ e)
  | .ok length =>
      if length > brokerMaxFrameBytes then failAfter "reply frame too large"
      else
        match ← call (.readBody length) with
        | .error e => failAfter ("failed reading reply body: " ++ e)
        | .ok body => pure (.ok body)

/-- Once the request-frame write begins, partial delivery is possible. -/
def executeOnStream (clientId : String) (request : RuntimeRpcRequest) (requestJson : Bytes)
    (timeout : Nat) : Handler (Except ExecutorError Bytes) := do
  match ← call (.writeRequest clientId request (be32 requestJson.length ++ requestJson)) with
  | .error e => failAfter ("write failed: " ++ e)
  | .ok () =>
      match ← call .flush with
      | .error e => failAfter ("flush failed: " ++ e)
      | .ok () =>
          match ← call (.setReadTimeout timeout) with
          | .error e => failAfter ("set_read_timeout failed: " ++ e)
          | .ok () => readReply

@[irreducible] def requestJson (request : RuntimeRpcRequest) : Bytes := request.toValue.render

def executePrepared (clientId : String) (request : RuntimeRpcRequest) (timeout : Nat) :
    Handler (Except ExecutorError Bytes) := do
  if (requestJson request).length > brokerMaxFrameBytes then
    failBefore "request payload exceeds maximum frame bytes"
  else
    match ← call .lockStream with
    | none => failBefore "executor stream lock poisoned"
    | some false => failBefore "executor connection is not prepared"
    | some true =>
        match ← executeOnStream clientId request (requestJson request) timeout with
        | .ok body => pure (.ok body)
        | .error e => do
            let _ ← call (.storeStream false)
            pure (.error e)

def execute (cfg : Config) (clientId : String) (request : RuntimeRpcRequest) (timeout : Nat) :
    Handler (Except ExecutorError Bytes) := do
  match ← prepare cfg with
  | .error e => pure (.error e)
  | .ok () => executePrepared clientId request timeout

end Northstar.Broker
