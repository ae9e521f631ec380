import Northstar.Script
import Northstar.Sidecar.Supervision

/-! The sidecar all callers of a process share (shared-sidecar.ts): one manager behind a module
variable, the calls that wait for it, and the hooks that stop it when the process ends. A call
goes on in an event of its own, so others come between its start and its return. -/
namespace Northstar.Sidecar

/- What an acquisition waits for. A start that has settled, well or not, is gone on from later. -/
inductive Wait where
  | start (generation : Nat)
  | polling
  | external
  | settled (ok : Bool)
  | over (resolved : Bool)
  deriving DecidableEq, Repr

structure Acquisition where
  candidate : Nat
  wait : Wait
  released : Bool := false
  deriving DecidableEq, Repr

/- An acquisition that resolved, with the singleton it resolved under. -/
structure Resolved where
  candidate : Nat
  singleton : Option Nat
  deriving DecidableEq, Repr

/- Managers are numbered as the factory makes them; each keeps the options it was made with. -/
structure SharedSidecar where
  managers : List SidecarManager := []
  options : List SidecarOptions := []
  singleton : Option Nat := none
  refCount : Nat := 0
  hookInstalled : Bool := false
  acquisitions : List Acquisition := []
  resolved : List Resolved := []

inductive SharedEvent where
  | acquire (own process : Option JsString) (options : SidecarOptions) (launch : Option String)
  | poll (acquisition : Nat)
  | externalReply (acquisition : Nat) (ok : Bool)
  | proceed (acquisition : Nat) (process : Option JsString)
  | release (acquisition : Nat)
  | shutdown
  | signal
  | manager (index : Nat) (event : SidecarEvent)

namespace SharedSidecar

def install (s : SharedSidecar) : SharedSidecar := { s with hookInstalled := true }

def remove (s : SharedSidecar) : SharedSidecar := { s with hookInstalled := false }

/- The environment's URL, the caller's own first. -/
def externalBaseUrl (own process : Option JsString) : Option JsString :=
  match own.or process with
  | none => none
  | some raw => if trim raw = [] then none else some (if (trim raw).getLast? = some 47 then (trim raw).dropLast else trim raw)

def change (m : Nat) (f : SidecarManager → SidecarManager) (s : SharedSidecar) : SharedSidecar :=
  { s with managers := s.managers.modify m f }

/- A start ends in an error only if it is still the manager's own. -/
def settledWell (generation : Nat) (m : SidecarManager) : Bool :=
  !(generation = m.startGeneration && m.status = .error)

def startOver (generation : Nat) (m : SidecarManager) : Bool :=
  !m.starts.any fun r => r.generation = generation && r.point ≠ .over

def afterStart (m : SidecarManager) (wait : Wait) : Wait := match wait with
  | .start generation => if startOver generation m then .settled (settledWell generation m) else .start generation
  | other => other

/- Those waiting for a start of the manager that is over by now. -/
def wake (m : Nat) (s : SharedSidecar) : SharedSidecar := match s.managers[m]? with
  | none => s
  | some manager => { s with
      acquisitions := s.acquisitions.map fun a =>
        if a.candidate = m then ({ a with wait := afterStart manager a.wait } : Acquisition) else a }

def stopManager (m : Nat) (s : SharedSidecar) : SharedSidecar := (s.change m (·.stop)).wake m

def stopSingleton (s : SharedSidecar) : SharedSidecar := match s.singleton with
  | none => s
  | some m => s.stopManager m

def onProcessExit (s : SharedSidecar) : SharedSidecar := s.stopSingleton

/- `??=` with what the factory makes. -/
def withSingleton (options : SidecarOptions) (s : SharedSidecar) : SharedSidecar := match s.singleton with
  | some _ => s
  | none => { s with
      managers := s.managers ++ [{}]
      options := s.options ++ [options]
      singleton := some s.managers.length }

/- What ensureRunning waits for, once it has been called on a manager. -/
def firstWait (before after : SidecarManager) : Wait := match before.status with
  | .running => .settled true
  | .starting => .polling
  | .stopped | .error => afterStart after (.start after.startGeneration)

def ensureRunning (process : Option JsString) (launch : Option String) (candidate : Nat) (s : SharedSidecar) : SharedSidecar :=
  match s.managers[candidate]?, s.options[candidate]? with
  | some before, some options =>
      if process.any (· ≠ []) then { s with acquisitions := s.acquisitions ++ [⟨candidate,.external,false⟩] }
      else
        let entered := s.change candidate (·.ensureRunning options launch)
        let wait := firstWait before (before.ensureRunning options launch)
        SharedSidecar.wake candidate { entered with acquisitions := s.acquisitions ++ [⟨candidate,wait,false⟩] }
  | _, _ => s

def acquire (own process : Option JsString) (options : SidecarOptions) (launch : Option String) (s : SharedSidecar) : SharedSidecar :=
  match externalBaseUrl own process with
  | some _ => s
  | none =>
      let s := s.withSingleton options
      match s.singleton with
      | some candidate => s.ensureRunning process launch candidate
      | none => s

def setWait (i : Nat) (wait : Wait) (s : SharedSidecar) : SharedSidecar :=
  { s with acquisitions := s.acquisitions.modify i fun a => { a with wait := wait } }

/- A turn of the loop that waits while the manager is starting. -/
def poll (i : Nat) (s : SharedSidecar) : SharedSidecar := match s.acquisitions[i]? with
  | none => s
  | some a => match a.wait, s.managers[a.candidate]? with
      | .polling, some m => if m.status = .starting then s else s.setWait i (.settled (m.status = .running))
      | _, _ => s

def externalReply (i : Nat) (ok : Bool) (s : SharedSidecar) : SharedSidecar := match s.acquisitions[i]? with
  | none => s
  | some a => match a.wait with
      | .external =>
          (if ok then s.change a.candidate fun m : SidecarManager => { m with status := .running } else s).setWait i (.settled ok)
      | _ => s

/- An acquisition whose manager is up and still the one all share. -/
def passes (a : Acquisition) (s : SharedSidecar) : Bool := a.wait = .settled true && s.singleton = some a.candidate

def hasBaseUrl (process : Option JsString) (candidate : Nat) (s : SharedSidecar) : Bool :=
  process.any (· ≠ []) || s.managers[candidate]?.any fun m => m.port.isSome

/- What acquireEmbeddingSidecar does after its await. The hooks are installed before the base URL is looked up. -/
def proceed (i : Nat) (process : Option JsString) (s : SharedSidecar) : SharedSidecar := match s.acquisitions[i]? with
  | none => s
  | some a => match a.wait with
      | .settled _ =>
          if s.passes a then
            let taken := { s.install with refCount := s.refCount + 1 }
            if s.hasBaseUrl process a.candidate then
              { taken.setWait i (.over true) with resolved := s.resolved ++ [⟨a.candidate,s.singleton⟩] }
            else taken.setWait i (.over false)
          else s.setWait i (.over false)
      | _ => s

def release (i : Nat) (s : SharedSidecar) : SharedSidecar := match s.acquisitions[i]? with
  | none => s
  | some a =>
      if a.wait = .over true ∧ !a.released then
        { s with
          refCount := s.refCount - 1
          acquisitions := s.acquisitions.modify i fun a => { a with released := true } }
      else s

def shutdownSharedSidecar (s : SharedSidecar) : SharedSidecar :=
  let cleared := { s.remove with refCount := 0, singleton := none }
  match s.singleton with
  | none => cleared
  | some m => cleared.stopManager m

/- Without a hook a signal ends the process, and there is no next state. -/
def handleSignalShutdown (s : SharedSidecar) : SharedSidecar :=
  if s.hookInstalled then s.remove.stopSingleton else s

/- Only a call on the shared sidecar starts or stops a manager. -/
def outside : SidecarEvent → Bool
  | .start _ | .ensureRunning _ | .stop => true
  | _ => false

def managerEvent (m : Nat) (e : SidecarEvent) (s : SharedSidecar) : SharedSidecar := match s.options[m]? with
  | some options => if outside e then s else (s.change m (·.step options e)).wake m
  | none => s

def step (s : SharedSidecar) : SharedEvent → SharedSidecar
  | .acquire own process options launch => s.acquire own process options launch
  | .poll i => s.poll i
  | .externalReply i ok => s.externalReply i ok
  | .proceed i process => s.proceed i process
  | .release i => s.release i
  | .shutdown => s.shutdownSharedSidecar
  | .signal => s.handleSignalShutdown
  | .manager m e => s.managerEvent m e

def run (events : List SharedEvent) : SharedSidecar := events.foldl step {}

end SharedSidecar
end Northstar.Sidecar
