import Northstar.Program

/-! The manager of the embedding sidecar (sidecar-manager.ts). Every call of start that got
past its guards is a run of its own and waits at one point at a time; the manager's fields are
shared by all of them. Replies, timers, exits and the caller's calls are the events. -/
namespace Northstar.Sidecar

def portLineTimeoutMs : Nat := 10000
def maxConsecutiveFailures : Nat := 5

inductive SidecarStatus where
  | stopped | starting | running | error
  deriving DecidableEq, Repr

structure SidecarOptions where
  scriptPath : String
  pythonPath : String := "python3"
  model : String := "all-MiniLM-L6-v2"
  device : String := ""
  port : Option Nat := none
  startupTimeout : Int := 60000
  initialBackoffMs : Int := 1000
  maxBackoffMs : Int := 30000

/- A child that was spawned. Its exit handlers are those start has put on it. -/
structure Child where
  command : List String
  exited : Bool := false
  killed : Bool := false
  listening : Bool := true
  written : Option Nat := none
  deriving DecidableEq, Repr

inductive PortLine where
  | pending
  | arrived
  | failed (message : String)
  deriving DecidableEq, Repr

/- What a start waits for. -/
inductive Point where
  | port
  | spawned
  | token
  | portLine
  | health (deadline : Int) (asking : Bool)
  | over
  deriving DecidableEq, Repr

structure Start where
  generation : Nat
  point : Point := .port
  child : Option Nat := none
  authToken : Option Nat := none
  port : Nat := 0
  portLine : PortLine := .pending
  lastError : Option String := none
  deriving DecidableEq, Repr

/- Tokens are random; one that is minted is new, and stands for its number. A start that is
over stays in the list of starts. -/
structure SidecarManager where
  status : SidecarStatus := .stopped
  authToken : Option Nat := none
  port : Option Nat := none
  error : Option String := none
  process : Option Nat := none
  consecutiveFailures : Nat := 0
  backoffTimer : Option Int := none
  startPromise : Option Nat := none
  startGeneration : Nat := 0
  starts : List Start := []
  stops : List Nat := []
  children : List Child := []
  minted : Nat := 0
  clock : Int := 0
  deriving DecidableEq, Repr

namespace SidecarManager

def changeChild (c : Nat) (change : Child → Child) (s : SidecarManager) : SidecarManager :=
  { s with children := s.children.modify c change }

def kill (c : Nat) (s : SidecarManager) : SidecarManager :=
  s.changeChild c fun child => { child with killed := true }

def put (r : Start) (s : SidecarManager) : SidecarManager :=
  { s with starts := s.starts.map fun other => if other.generation = r.generation then r else other }

/- The end of a start, its finally. -/
def settle (r : Start) (s : SidecarManager) : SidecarManager :=
  let promise := if s.startPromise = some r.generation then none else s.startPromise
  { s.put { r with point := .over } with startPromise := promise }

def cancelled (r : Start) (s : SidecarManager) : Bool :=
  r.generation ≠ s.startGeneration || s.status = .stopped

def releaseStaleChild (r : Start) (s : SidecarManager) : SidecarManager := match r.child with
  | none => s
  | some c =>
      let process := if s.process = some c then none else s.process
      { s.changeChild c (fun child => { child with listening := false }) with process := process }

def killStaleChild (r : Start) (s : SidecarManager) : SidecarManager := match r.child with
  | none => s
  | some c => (s.kill c).releaseStaleChild r

def dropToken (r : Start) (s : SidecarManager) : SidecarManager :=
  if r.authToken.isSome && s.authToken = r.authToken then { s with authToken := none } else s

/- The catch of start. -/
def failed (r : Start) (message : String) (s : SidecarManager) : SidecarManager :=
  if s.cancelled r then ((s.killStaleChild r).dropToken r).settle r
  else
    let error := match s.error with
      | some text => if text = "" then message else text
      | none => message
    let noted : SidecarManager := { s.dropToken r with status := .error, error := some error }
    match r.child with
    | none => noted.settle r
    | some c => if noted.process = some c then { noted.kill c with process := none }.settle r else noted.settle r

def command (options : SidecarOptions) (port : Nat) : List String :=
  [options.pythonPath,options.scriptPath,"--port",toString port,"--model",options.model] ++
    if options.device = "" then [] else ["--device",options.device]

/- A start that has its port; a launch that throws gives its message. -/
def withPort (options : SidecarOptions) (r : Start) (port : Nat) (launch : Option String)
    (s : SidecarManager) : SidecarManager :=
  if s.cancelled r then s.settle r
  else match launch with
    | some message => { s with port := some port }.failed r message
    | none =>
        let c := s.children.length
        let children := s.children ++ [⟨command options port,false,false,true,none⟩]
        { s with port := some port, children := children, process := some c }.put
          { r with point := .spawned, child := some c, port := port }

/- A process that an earlier attempt has left. -/
def killProcess (s : SidecarManager) : SidecarManager := match s.process with
  | none => s
  | some c => { s.kill c with process := none }

def begin (options : SidecarOptions) (launch : Option String) (s : SidecarManager) : SidecarManager :=
  if s.status = .running then s
  else if s.status = .starting ∧ s.startPromise.isSome then s
  else
    let clean := s.killProcess
    let generation := s.startGeneration + 1
    let r : Start := ⟨generation,.port,none,none,0,.pending,none⟩
    let entered := { clean with
      status := .starting, error := none, backoffTimer := none, startGeneration := generation,
      starts := clean.starts ++ [r] }
    let launched := match options.port with
      | none => entered
      | some port => entered.withPort options r port launch
    { launched with startPromise := some generation }

def ensureRunning (options : SidecarOptions) (launch : Option String) (s : SidecarManager) : SidecarManager :=
  match s.status with
  | .running | .starting => s
  | .stopped | .error => s.begin options launch

/- There is no process behind a child whose spawn failed. -/
def spawnFailed (r : Start) (message : String) (s : SidecarManager) : SidecarManager := match r.child with
  | none => s
  | some c =>
      let s := s.changeChild c fun child => { child with exited := true }
      if s.cancelled r then (s.releaseStaleChild r).settle r
      else { s with process := none, status := .error, error := some message }.failed r message

/- The token is minted and handed to the write, whoever is current. -/
def mintToken (r : Start) (s : SidecarManager) : SidecarManager :=
  { s with authToken := some s.minted, minted := s.minted + 1 }.put
    { r with point := .token, authToken := some s.minted }

/- The head of the loop of pollHealth. -/
def pollHealth (options : SidecarOptions) (r : Start) (deadline : Int) (s : SidecarManager) : SidecarManager :=
  if s.clock < deadline then
    if s.process.isNone then s.failed r (s.error.getD "Sidecar process exited during startup")
    else s.put { r with point := .health deadline true }
  else
    let last := r.lastError.getD "none"
    let message := s!"Startup timed out after {options.startupTimeout}ms. Last health-check error: {last}"
    { s with status := .error, error := some message }.failed r message

def portKnown (options : SidecarOptions) (r : Start) (s : SidecarManager) : SidecarManager :=
  if s.cancelled r then (s.killStaleChild r).settle r
  else s.pollHealth options r (s.clock + options.startupTimeout)

def awaitPortLine (options : SidecarOptions) (r : Start) (s : SidecarManager) : SidecarManager :=
  match r.portLine with
  | .pending => s.put { r with point := .portLine }
  | .arrived => s.portKnown options r
  | .failed message => s.failed r message

def tokenWritten (options : SidecarOptions) (r : Start) (s : SidecarManager) : SidecarManager :=
  match r.child with
  | none => s
  | some c => (s.changeChild c fun child => { child with written := r.authToken }).awaitPortLine options r

/- The port line may come before start waits for it. -/
def settlePortLine (options : SidecarOptions) (r : Start) (line : PortLine) (s : SidecarManager) :
    SidecarManager :=
  let r := { r with portLine := line }
  if r.point = .portLine then s.awaitPortLine options r else s.put r

def printed (r : Start) (port : Nat) : PortLine :=
  if port = r.port then .arrived else .failed s!"Port mismatch: expected {r.port}, got {port}"

def healthy (r : Start) (s : SidecarManager) : SidecarManager :=
  if s.cancelled r then (s.killStaleChild r).settle r
  else { s with consecutiveFailures := 0, status := .running }.settle r

def handleExit (options : SidecarOptions) (s : SidecarManager) : SidecarManager :=
  let s := { s with process := none, authToken := none }
  if s.status = .stopped then s
  else
    let failures := s.consecutiveFailures + 1
    if maxConsecutiveFailures ≤ failures then
      let error := s!"Sidecar process crashed {failures} consecutive times; giving up"
      { s with consecutiveFailures := failures, status := .error, error := some error }
    else
      let delay := min (options.initialBackoffMs * 2 ^ (failures - 1)) options.maxBackoffMs
      { s with
        consecutiveFailures := failures, status := .starting, startPromise := none, backoffTimer := some delay }

/- The exit of a child, with its handlers in the order they were put on it. -/
def exit (options : SidecarOptions) (c : Nat) (s : SidecarManager) : SidecarManager := match s.children[c]? with
  | none => s
  | some child =>
      if child.exited then s
      else
        let s := s.changeChild c fun child => { child with exited := true }
        if !child.listening then s
        else
          let s := if s.process = some c then s.handleExit options else s
          match s.starts.find? fun r => r.child = some c && r.portLine = .pending with
          | none => s
          | some r =>
              s.settlePortLine options r (.failed "Sidecar process exited before printing SIDECAR_PORT")

def stop (s : SidecarManager) : SidecarManager :=
  let generation := s.startGeneration + 1
  let stopped := { s with
    status := .stopped, authToken := none, startGeneration := generation, consecutiveFailures := 0,
    backoffTimer := none }
  match s.process with
  | none => { stopped with port := none }
  | some c =>
      let ended := stopped.changeChild c fun child => { child with listening := false, killed := true }
      { ended with process := none, stops := s.stops ++ [generation] }

/- The child of a stop has exited, or the grace period is over. -/
def stopSettled (generation : Nat) (s : SidecarManager) : SidecarManager :=
  if !s.stops.contains generation then s
  else
    let rest := { s with stops := s.stops.erase generation }
    if generation = s.startGeneration then { rest with port := none } else rest

end SidecarManager

inductive SidecarEvent where
  | start (launch : Option String)
  | ensureRunning (launch : Option String)
  | stop
  | stopSettled (generation : Nat)
  | portFound (generation port : Nat) (launch : Option String)
  | portFailed (generation : Nat) (message : String)
  | immediate
  | spawnError (generation : Nat) (message : String)
  | tokenWritten (generation : Nat)
  | tokenFailed (generation : Nat) (message : String)
  | portLine (generation port : Nat)
  | portLineFailed (generation : Nat) (message : String)
  | healthReply (generation : Nat) (ok : Bool)
  | healthFailed (generation : Nat) (message : String)
  | wake (generation : Nat)
  | exit (child : Nat)
  | backoff (launch : Option String)
  | pass (ms : Nat)
  deriving DecidableEq, Repr

namespace SidecarManager

def startAt (generation : Nat) (here : Start → Bool) (s : SidecarManager) : Option Start :=
  s.starts.find? fun r => r.generation = generation && here r

def asking (r : Start) : Bool := match r.point with
  | .health _ asking => asking
  | _ => false

def sleeping (r : Start) : Bool := match r.point with
  | .health _ asking => !asking
  | _ => false

def deadline (r : Start) : Int := match r.point with
  | .health deadline _ => deadline
  | _ => 0

def resume (generation : Nat) (here : Start → Bool) (next : Start → SidecarManager → SidecarManager)
    (s : SidecarManager) : SidecarManager := match s.startAt generation here with
  | none => s
  | some r => next r s

/- Immediates run in the order they were set. -/
def firstSpawned (s : SidecarManager) : Option Start := s.starts.find? fun r => r.point = .spawned

def waitsForLine (r : Start) : Bool := r.child.isSome && r.portLine = .pending

def step (options : SidecarOptions) (s : SidecarManager) : SidecarEvent → SidecarManager
  | .start launch => s.begin options launch
  | .ensureRunning launch => s.ensureRunning options launch
  | .stop => s.stop
  | .stopSettled generation => s.stopSettled generation
  | .portFound generation port launch =>
      s.resume generation (·.point = .port) fun r s => s.withPort options r port launch
  | .portFailed generation message => s.resume generation (·.point = .port) fun r s => s.failed r message
  | .immediate => match s.firstSpawned with
      | none => s
      | some r => s.mintToken r
  | .spawnError generation message =>
      s.resume generation (·.point = .spawned) fun r s => s.spawnFailed r message
  | .tokenWritten generation => s.resume generation (·.point = .token) fun r s => s.tokenWritten options r
  | .tokenFailed generation message => s.resume generation (·.point = .token) fun r s => s.failed r message
  | .portLine generation port =>
      s.resume generation waitsForLine fun r s => s.settlePortLine options r (printed r port)
  | .portLineFailed generation message =>
      s.resume generation waitsForLine fun r s => s.settlePortLine options r (.failed message)
  | .healthReply generation ok => s.resume generation asking fun r s =>
      if ok then s.healthy r else s.put { r with point := .health (deadline r) false }
  | .healthFailed generation message => s.resume generation asking fun r s =>
      s.put { r with point := .health (deadline r) false, lastError := some message }
  | .wake generation => s.resume generation sleeping fun r s => s.pollHealth options r (deadline r)
  | .exit child => s.exit options child
  | .backoff launch => match s.backoffTimer with
      | none => s
      | some _ => { s with backoffTimer := none }.begin options launch
  | .pass ms => { s with clock := s.clock + ms }

def run (options : SidecarOptions) (events : List SidecarEvent) : SidecarManager :=
  events.foldl (step options) {}

end SidecarManager
end Northstar.Sidecar
