import Northstar.Runtime.Leaf

/-! The owner's side of the Chrome bridge (chrome-profile-bridge.ts). A handler runs to its
next await, so what it reads before its body has arrived is a step of its own. Requests,
timers, connection ends and the owner's calls are the events; what was handed to a poll, how
waits ended and how requests were answered is kept beside the state. -/
namespace Northstar.Chrome
open Northstar.Runtime (mapSet)

def maxRevokedIds : Nat := 2000
def instanceStaleMs : Int := 90000

structure Command where
  id : JsString
  targetInstanceId : JsString
  bridgeToken : JsString
  rest : JsValue := .null
  deriving Repr

structure CommandResult where
  id : JsString
  rest : JsValue := .null
  deriving Repr

/- A body that was read whole and parsed, one that parsed to nothing the handler takes, or
one that could not be read within its bound. -/
inductive Body (α : Type) where
  | parsed (value : α)
  | malformed
  | unread
  deriving Repr

structure InstanceInfo where
  family : JsString
  version : JsString
  caps : JsString
  lastSeen : Int
  deriving DecidableEq, Repr

structure InstanceClaim where
  instanceId : JsString
  family : JsString
  version : JsString
  caps : JsString
  deriving DecidableEq, Repr

def digit (u : UInt16) : Bool := 48 ≤ u && u ≤ 57
def letter (u : UInt16) : Bool := (65 ≤ u && u ≤ 90) || (97 ≤ u && u ≤ 122)
def idUnit (u : UInt16) : Bool := letter u || digit u || u = 95 || u = 45

def extensionIdPattern (s : JsString) : Bool := 1 ≤ s.length && s.length ≤ 64 && s.all idUnit
def instanceIdPattern (s : JsString) : Bool := 8 ≤ s.length && s.length ≤ 128 && s.all idUnit
def claimPattern (s : JsString) : Bool := 1 ≤ s.length && s.length ≤ 64 && s.all fun u => idUnit u || u = 46
def capsPattern (s : JsString) : Bool :=
  s.length ≤ 256 && s.all fun u => idUnit u || u = 44 || u = 46 || u = 43
def versionPattern (s : JsString) : Bool :=
  let parts := s.splitOn 46
  parts.length = 3 && parts.all fun part => part ≠ [] && part.all digit

def lowerUnit (u : UInt16) : UInt16 := if 65 ≤ u && u ≤ 90 then u + 32 else u

def originPrefix : JsString := js "chrome-extension://"

def extensionOriginForId (extensionId : JsString) : JsString := originPrefix ++ extensionId

def parseExtensionOrigin (origin : Option JsString) : Option JsString :=
  origin.filter fun o => originPrefix.isPrefixOf o && extensionIdPattern (o.drop originPrefix.length)

def isPairingSecretAllowed (presented : Option JsString) (expected : JsString) : Bool := match presented with
  | none => false
  | some secret => secret.length ≠ 0 && utf8 secret = utf8 expected

/- Every refusal of a claim has status 400. -/
inductive ClaimError where
  | invalidRequest (message : String)
  | versionMismatch (message : String)
  deriving DecidableEq, Repr

def textField (value : JsValue) (key : String) (pattern : JsString → Bool) : Option JsString :=
  (value.get key).asString.filter pattern

def parseBridgeInstanceClaim (value : JsValue) : Except ClaimError InstanceClaim := match value with
  | .object _ =>
      let protocol := match value.get "protocol" with
        | .undefined => true
        | .number (.int n) => n = 1
        | _ => false
      let caps := match value.get "caps" with
        | .undefined | .null => some []
        | _ => textField value "caps" capsPattern
      if !protocol then .error (.versionMismatch "unsupported bridge protocol")
      else match textField value "instanceId" instanceIdPattern with
        | none => .error (.invalidRequest "invalid instanceId")
        | some instanceId => match textField value "family" claimPattern with
            | none => .error (.invalidRequest "invalid instance family")
            | some family => match textField value "version" versionPattern with
                | none => .error (.versionMismatch "unsupported instance version")
                | some version => match caps with
                    | none => .error (.invalidRequest "invalid instance caps")
                    | some caps => .ok ⟨instanceId,family.map lowerUnit,version,caps⟩
  | _ => .error (.invalidRequest "invalid instance registration")

/- The query of a poll or a result; an absent parameter is null. -/
structure InstanceQuery where
  instanceId : Option JsString := none
  protocol : Option JsString := none
  family : Option JsString := none
  version : Option JsString := none
  caps : Option JsString := none
  deriving DecidableEq, Repr

def parseBridgeInstanceQuery (query : InstanceQuery) : Except ClaimError (Option InstanceClaim) :=
  match query.instanceId with
  | none => .ok none
  | some instanceId =>
      if instanceId = [] then .ok none
      else if query.protocol.any (· ≠ js "1") then .error (.versionMismatch "unsupported bridge protocol")
      else (parseBridgeInstanceClaim (.object [(js "instanceId",.string instanceId),
        (js "family",.string (query.family.getD [])),(js "version",.string (query.version.getD [])),
        (js "caps",.string (query.caps.getD []))])).map some

/- A long poll, with the origin it presented. A settled one stays in the list until it is
taken out by its connection or by stop. -/
structure NextWaiter where
  number : Nat
  instanceId : Option JsString
  origin : JsString
  settled : Bool
  deriving DecidableEq, Repr

structure Handed where
  command : Command
  poller : Option JsString
  waiting : Bool
  deriving Repr

inductive Settlement where
  | result
  | revoked
  | timedOut
  | aborted
  | stopped
  deriving DecidableEq, Repr

inductive Route where
  | register | next | result
  deriving DecidableEq, Repr

/- An answer to a request, with the pin it was answered under. -/
structure Answer where
  route : Route
  origin : Option JsString
  pinned : Option JsString
  status : Nat
  disclosed : Bool
  deriving DecidableEq, Repr

structure ChromeBridge where
  pinnedOrigin : Option JsString := none
  queues : List (JsString × List Command) := []
  waiters : List Command := []
  nextWaiters : List NextWaiter := []
  revokedIds : List JsString := []
  instances : List (JsString × InstanceInfo) := []
  pairingBootstrapOpen : Bool := false
  started : Bool := false
  registering : List (Nat × JsString) := []
  resulting : List (Nat × JsString) := []
  requests : Nat := 0
  posted : List JsString := []
  accepted : List Command := []
  handed : List Handed := []
  settlements : List (JsString × Settlement) := []
  answers : List Answer := []
  arms : Nat := 0
  clears : Nat := 0
  deriving Repr

structure BridgeConfig where
  sessionToken : JsString
  pairingSecret : JsString

inductive CommandReply where
  | refused (status : Nat) (message : String)
  | revoked
  | duplicate
  | unknownTarget
  | awaits
  deriving DecidableEq, Repr

namespace ChromeBridge

def answer (route : Route) (origin : Option JsString) (status : Nat) (s : ChromeBridge) : ChromeBridge :=
  { s with answers := s.answers ++ [⟨route,origin,s.pinnedOrigin,status,false⟩] }

/- Queues, a Map by target without empty queues. -/
def queueOf (target : JsString) (s : ChromeBridge) : List Command := (s.queues.lookup target).getD []

def dropQueued (id : JsString) (queue : List Command) : List Command := queue.eraseP fun c => c.id = id

def dropFrom (target id : JsString) (s : ChromeBridge) : ChromeBridge :=
  { s with queues := (s.queues.map fun entry =>
      if entry.1 = target then (entry.1,dropQueued id entry.2) else entry).filter fun entry =>
        entry.1 ≠ target || !entry.2.isEmpty }

def dropEverywhere (id : JsString) (s : ChromeBridge) : ChromeBridge :=
  { s with queues := (s.queues.map fun entry => (entry.1,dropQueued id entry.2)).filter fun entry =>
      !entry.2.isEmpty }

/- Revoked ids, a Set; how often it was emptied is counted. -/
def addRevoked (id : JsString) (s : ChromeBridge) : ChromeBridge :=
  { s with revokedIds := if s.revokedIds.contains id then s.revokedIds else s.revokedIds ++ [id] }

def trimRevokedIds (s : ChromeBridge) : ChromeBridge :=
  if s.revokedIds.length ≤ maxRevokedIds then s else { s with revokedIds := [], clears := s.clears + 1 }

/- A waiter is settled and leaves the map in one step. -/
def settleWaiter (id : JsString) (how : Settlement) (s : ChromeBridge) : ChromeBridge :=
  { s with waiters := s.waiters.filter fun c => c.id ≠ id, settlements := s.settlements ++ [(id,how)] }

def registerInstance (claim : InstanceClaim) (now : Int) (s : ChromeBridge) : ChromeBridge :=
  { s with instances := mapSet s.instances claim.instanceId ⟨claim.family,claim.version,claim.caps,now⟩ }

def purgeStaleInstances (at_ : Int) (s : ChromeBridge) : ChromeBridge :=
  { s with instances := s.instances.filter fun entry => !(at_ - entry.2.lastSeen > instanceStaleMs) }

/- Commands. -/
def enqueue (command : Command) (s : ChromeBridge) : ChromeBridge :=
  let fits := fun next : NextWaiter => !next.settled && next.instanceId = some command.targetInstanceId
  match s.nextWaiters.find? fits with
  | some next =>
      let delivery := ⟨command,next.instanceId,s.waiters.any fun c => c.id = command.id⟩
      answer .next (some next.origin) 200
        { s with nextWaiters := s.nextWaiters.eraseP fits, handed := s.handed ++ [delivery] }
  | none =>
      let queue := s.queueOf command.targetInstanceId ++ [command]
      { s with queues := mapSet s.queues command.targetInstanceId queue }

def handleCommand (config : BridgeConfig) (localCaller : Bool) (body : Body Command) (s : ChromeBridge) :
    ChromeBridge × CommandReply :=
  if !localCaller then (s,.refused 403 "bridge command rejects browser origins")
  else match body with
    | .unread => (s,.refused 413 "command read failed")
    | .malformed => (s,.refused 400 "invalid bridge command")
    | .parsed command =>
        if utf8 command.bridgeToken ≠ utf8 config.sessionToken then (s,.refused 403 "bridge command rejected")
        else if s.revokedIds.contains command.id then (s,.revoked)
        else if s.waiters.any fun c => c.id = command.id then (s,.duplicate)
        else if (s.instances.lookup command.targetInstanceId).isNone then (s,.unknownTarget)
        else
          let entered := { s with waiters := s.waiters ++ [command], accepted := s.accepted ++ [command] }
          (entered.enqueue command,.awaits)

def commandTimeout (id : JsString) (s : ChromeBridge) : ChromeBridge :=
  match s.waiters.find? fun c => c.id = id with
  | none => s
  | some command =>
      (((s.settleWaiter id .timedOut).dropFrom command.targetInstanceId id).addRevoked id).trimRevokedIds

/- The poster's connection ends before its answer is written. -/
def commandClosed (id : JsString) (s : ChromeBridge) : ChromeBridge :=
  match s.waiters.find? fun c => c.id = id with
  | none => s
  | some command => (s.settleWaiter id .aborted).dropFrom command.targetInstanceId id

def revokeCommand (id : JsString) (s : ChromeBridge) : ChromeBridge :=
  let dropped := (s.addRevoked id).trimRevokedIds.dropEverywhere id
  if dropped.waiters.any fun c => c.id = id then dropped.settleWaiter id .revoked else dropped

def revokeAll (s : ChromeBridge) : ChromeBridge :=
  let queued := (s.queues.flatMap (·.2)).foldl (fun s command => addRevoked command.id s) s
  let trimmed := { queued with queues := [] }.trimRevokedIds
  trimmed.waiters.foldl (fun s command => (s.settleWaiter command.id .revoked).addRevoked command.id) trimmed

/- Registration: the origin first, the body and everything else after it. -/
def handleRegister (origin : Option JsString) (s : ChromeBridge) : ChromeBridge :=
  match parseExtensionOrigin origin with
  | none => s.answer .register origin 403
  | some presented =>
      if s.pinnedOrigin.any (presented ≠ ·) then s.answer .register origin 403
      else { s with registering := s.registering ++ [(s.requests,presented)], requests := s.requests + 1 }

def registered (config : BridgeConfig) (presented : JsString) (value : JsValue) (now : Int)
    (s : ChromeBridge) : ChromeBridge := match parseBridgeInstanceClaim value with
  | .error _ => s.answer .register (some presented) 400
  | .ok claim =>
      let pairingMatches := isPairingSecretAllowed (value.get "pairingSecret").asString config.pairingSecret
      let bootstrap := s.pairingBootstrapOpen && !pairingMatches
      if !bootstrap && !pairingMatches then s.answer .register (some presented) 403
      else
        let entered := s.registerInstance claim now
        let pinned := some (s.pinnedOrigin.getD presented)
        let open_ := s.pairingBootstrapOpen && !bootstrap
        let answers := s.answers ++ [⟨.register,some presented,s.pinnedOrigin,200,bootstrap⟩]
        { entered with pinnedOrigin := pinned, pairingBootstrapOpen := open_, answers := answers }

def registerBody (config : BridgeConfig) (number : Nat) (body : Body JsValue) (now : Int)
    (s : ChromeBridge) : ChromeBridge := match s.registering.lookup number with
  | none => s
  | some presented =>
      let rest := { s with registering := s.registering.filter fun entry => entry.1 ≠ number }
      match body with
      | .unread => rest.answer .register (some presented) 413
      | .malformed => rest.answer .register (some presented) 400
      | .parsed value => rest.registered config presented value now

/- The gate of poll and result: the pinned origin and the secret. -/
def gate (config : BridgeConfig) (origin secret : Option JsString) (s : ChromeBridge) : Option JsString :=
  (parseExtensionOrigin origin).filter fun presented =>
    s.pinnedOrigin = some presented && isPairingSecretAllowed secret config.pairingSecret

def enterClaim (claim : Option InstanceClaim) (now : Int) (s : ChromeBridge) : ChromeBridge := match claim with
  | some claim => s.registerInstance claim now
  | none => s

/- The command at the head of the poller's own queue; an anonymous poll has none. -/
def queuedFor (poller : Option JsString) (s : ChromeBridge) : Option (JsString × Command) := do
  let instanceId ← poller
  let command ← (s.queueOf instanceId).head?
  some (instanceId,command)

def pollAs (presented : JsString) (poller : Option JsString) (waitMs : Nat) (s : ChromeBridge) : ChromeBridge :=
  match s.queuedFor poller with
  | some (instanceId,command) =>
      let queues := (mapSet s.queues instanceId (s.queueOf instanceId).tail).filter fun entry => !entry.2.isEmpty
      let delivery := ⟨command,poller,s.waiters.any fun c => c.id = command.id⟩
      answer .next (some presented) 200 { s with queues := queues, handed := s.handed ++ [delivery] }
  | none =>
      if waitMs = 0 then s.answer .next (some presented) 204
      else
        let poll := ⟨s.requests,poller,presented,false⟩
        { s with nextWaiters := s.nextWaiters ++ [poll], requests := s.requests + 1 }

/- Polls. A query without an instance id polls anonymously; the handler's branch for a bare
id cannot be reached. -/
def handleNext (config : BridgeConfig) (origin secret : Option JsString) (query : InstanceQuery)
    (waitMs : Nat) (now : Int) (s : ChromeBridge) : ChromeBridge :=
  match s.gate config origin secret with
  | none => s.answer .next origin 403
  | some presented => match parseBridgeInstanceQuery query with
      | .error _ => s.answer .next origin 400
      | .ok claim => (s.enterClaim claim now).pollAs presented (claim.map (·.instanceId)) waitMs

def settleNext (number : Nat) (keep : Bool) (s : ChromeBridge) : ChromeBridge :=
  match s.nextWaiters.find? fun next => next.number = number && !next.settled with
  | none => s
  | some next =>
      let settled := s.nextWaiters.map fun w => if w.number = number then { w with settled := true } else w
      answer .next (some next.origin) 204
        { s with nextWaiters := if keep then settled else settled.filter fun w => w.number ≠ number }

/- Results. -/
def handleResult (config : BridgeConfig) (origin secret : Option JsString) (query : InstanceQuery)
    (now : Int) (s : ChromeBridge) : ChromeBridge :=
  match s.gate config origin secret with
  | none => s.answer .result origin 403
  | some presented =>
      let seen := s.enterClaim (parseBridgeInstanceQuery query).toOption.join now
      { seen with resulting := seen.resulting ++ [(seen.requests,presented)], requests := seen.requests + 1 }

def resultBody (number : Nat) (body : Body CommandResult) (s : ChromeBridge) : ChromeBridge :=
  match s.resulting.lookup number with
  | none => s
  | some presented =>
      let rest := { s with resulting := s.resulting.filter fun entry => entry.1 ≠ number }
      match body with
      | .unread => rest.answer .result (some presented) 413
      | .malformed => rest.answer .result (some presented) 400
      | .parsed result =>
          let waits := rest.waiters.any fun c => c.id = result.id
          if !waits || rest.revokedIds.contains result.id then
            (rest.addRevoked result.id).answer .result (some presented) 200
          else (rest.settleWaiter result.id .result).answer .result (some presented) 200

/- The owner's calls. -/
def armPairingBootstrap (s : ChromeBridge) : ChromeBridge :=
  { s with pairingBootstrapOpen := s.pairingBootstrapOpen || s.started, arms := s.arms + 1 }

def disarmPairingBootstrap (s : ChromeBridge) : ChromeBridge := { s with pairingBootstrapOpen := false }

def stop (s : ChromeBridge) : ChromeBridge :=
  let open_ := s.nextWaiters.filter fun next => !next.settled
  let ended := s.waiters.map fun c => (c.id,Settlement.stopped)
  let answers := open_.map fun next => (⟨.next,some next.origin,s.pinnedOrigin,204,false⟩ : Answer)
  { s with
    settlements := s.settlements ++ ended, answers := s.answers ++ answers, waiters := [], queues := [],
    instances := [], nextWaiters := [], started := false }

end ChromeBridge

inductive BridgeEvent where
  | start
  | stop
  | arm
  | disarm
  | register (origin : Option JsString)
  | registerBody (number : Nat) (body : Body JsValue) (now : Int)
  | poll (origin secret : Option JsString) (query : InstanceQuery) (waitMs : Nat) (now : Int)
  | pollTimeout (number : Nat)
  | pollClosed (number : Nat)
  | result (origin secret : Option JsString) (query : InstanceQuery) (now : Int)
  | resultBody (number : Nat) (body : Body CommandResult)
  | command (localCaller : Bool) (body : Body Command)
  | commandTimeout (id : JsString)
  | commandClosed (id : JsString)
  | revokeCommand (id : JsString)
  | revokeAll
  | purge (at_ : Int)

namespace ChromeBridge

def notePosted (body : Body Command) (s : ChromeBridge) : ChromeBridge := match body with
  | .parsed command => { s with posted := s.posted ++ [command.id] }
  | _ => s

def step (config : BridgeConfig) (s : ChromeBridge) : BridgeEvent → ChromeBridge
  | .start => { s with started := true }
  | .stop => s.stop
  | .arm => s.armPairingBootstrap
  | .disarm => s.disarmPairingBootstrap
  | .register origin => s.handleRegister origin
  | .registerBody number body now => s.registerBody config number body now
  | .poll origin secret query waitMs now => s.handleNext config origin secret query waitMs now
  | .pollTimeout number => s.settleNext number true
  | .pollClosed number => s.settleNext number false
  | .result origin secret query now => s.handleResult config origin secret query now
  | .resultBody number body => s.resultBody number body
  | .command localCaller body => (s.handleCommand config localCaller body).1.notePosted body
  | .commandTimeout id => s.commandTimeout id
  | .commandClosed id => s.commandClosed id
  | .revokeCommand id => s.revokeCommand id
  | .revokeAll => s.revokeAll
  | .purge at_ => s.purgeStaleInstances at_

/- A bridge starts with the pin of a configured extension id, or with none. -/
def start (extensionId : Option JsString) : ChromeBridge :=
  { pinnedOrigin := extensionId.map extensionOriginForId }

def run (config : BridgeConfig) (extensionId : Option JsString) (events : List BridgeEvent) : ChromeBridge :=
  events.foldl (step config) (start extensionId)

end ChromeBridge
end Northstar.Chrome
