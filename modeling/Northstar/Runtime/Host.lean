import Northstar.Program

/-! startBrokerHost (broker-host.ts) by its awaits. A cleanup runs once, whoever asks for it first,
and is over when its steps are; a second caller goes on at once. The files of the listener and the
lock are there to be removed when they are removed; their creation may fail. -/
namespace Northstar.Runtime

/- The await startBrokerHost is at; the outcome says that it returns and does not throw. -/
inductive HostPoint where
  | access
  | lock
  | tokenFile
  | bind
  | chmod
  | failing
  | early
  | child
  | final (ok : Bool)
  | settled (ok : Bool)
  deriving DecidableEq

/- The broker process of the operating system. -/
inductive BrokerChild where
  | none
  | alive
  | exited
  | unspawned
  deriving DecidableEq

/- The awaits of ExecutorListener.close and of releaseBrokerLock. -/
inductive Teardown where
  | serverClosed
  | unlinkSocket
  | unlinkToken
  | readLock
  | removeLock
  deriving DecidableEq

structure BrokerHost where
  point : HostPoint := .access
  running : Bool := true
  aborted : Bool := false
  handlers : Bool := false
  abortListener : Bool := false
  cleaned : Bool := false
  lockFile : Bool := false
  tokenFile : Bool := false
  socketFile : Bool := false
  server : Bool := false
  listening : Bool := false
  activeSocket : Bool := false
  child : BrokerChild := .none
  signalled : Bool := false
  teardown : List Teardown := []
  deriving DecidableEq

/- What spawn does: it throws, returns a child that emits an error, or starts the process. -/
inductive Spawned where
  | threw
  | unspawned
  | started

inductive HostEvent where
  | accessed (ok : Bool)
  | locked (ok : Bool)
  | tokenWritten
  | tokenFailed (left : Bool)
  | bound (ok : Bool)
  | launched (spawned : Spawned)
  | connected
  | authenticated
  | disconnected
  | abort
  | signal (handledElsewhere : Bool)
  | died
  | exited (code : Option Int) (signal : Option String)
  | spawnError
  | tornDown

namespace BrokerHost

/- A lock record whose process is gone is stale. -/
def lockHeld (h : BrokerHost) : Bool := h.running && h.lockFile

/- What close does before its first await, and the awaits that follow. -/
def closeListener (h : BrokerHost) : BrokerHost := { h with activeSocket := false, listening := false }

def closeSteps (h : BrokerHost) : List Teardown :=
  (if h.server then [.serverClosed] else []) ++ [.unlinkSocket,.unlinkToken]

def releaseSteps : List Teardown := [.readLock,.removeLock]

/- The catch block of the setup. -/
def setupFailed (constructed : Bool) (h : BrokerHost) : BrokerHost :=
  { (if constructed then h.closeListener else h) with
    point := .failing
    teardown := (if constructed then h.closeSteps else []) ++ [.unlinkToken] ++ releaseSteps }

/- The kill reaches a child that is alive, whose exitCode is null. -/
def cleanup (h : BrokerHost) : BrokerHost :=
  if h.cleaned then h
  else { h.closeListener with
    cleaned := true
    handlers := false
    abortListener := false
    signalled := h.signalled || h.child == .alive
    teardown := h.closeSteps ++ releaseSteps }

/- From the handlers to the next await; a session that is aborted already spawns nothing. -/
def launch (spawned : Spawned) (h : BrokerHost) : BrokerHost :=
  let installed := { h with handlers := true }
  if h.aborted then { installed.cleanup with point := .early }
  else
    let listened := { installed with abortListener := true }
    match spawned with
    | .threw => { listened.cleanup with point := .final false }
    | .unspawned => { listened with point := .child, child := .unspawned }
    | .started => { listened with point := .child, child := .alive }

/- The finally block behind the child's promise. -/
def leave (ok : Bool) (h : BrokerHost) : BrokerHost :=
  if h.cleaned then { h with point := .settled ok } else { h.cleanup with point := .final ok }

/- Whoever awaits the last step of a teardown goes on behind it. -/
def resume (h : BrokerHost) : BrokerHost :=
  if h.teardown = [] then
    match h.point with
    | .failing => { h with point := .settled false }
    | .early => { h with point := .settled true }
    | .final ok => { h with point := .settled ok }
    | _ => h
  else h

def apply (step : Teardown) (h : BrokerHost) : BrokerHost := match step with
  | .serverClosed => { h with server := false }
  | .unlinkSocket => { h with socketFile := false }
  | .unlinkToken => { h with tokenFile := false }
  | .readLock => h
  | .removeLock => { h with lockFile := false }

def tearDown (h : BrokerHost) : BrokerHost := match h.teardown with
  | [] => h
  | step :: rest => ({ h with teardown := rest }.apply step).resume

/- Only the first connection is kept, and the server is closed with it. -/
def connect (h : BrokerHost) : BrokerHost :=
  if h.listening then { h with server := false, listening := false, activeSocket := true } else h

def die (h : BrokerHost) : BrokerHost := if h.child = .alive then { h with child := .exited } else h

/- The exits that resolve. -/
def resolves (code : Option Int) (signal : Option String) : Bool :=
  code == some 0 || signal == some "SIGTERM" || signal == some "SIGINT"

def receive (h : BrokerHost) : HostEvent → BrokerHost
  | .accessed ok =>
      if h.point = .access then { h with point := if ok then .lock else .settled false } else h
  | .locked ok =>
      if h.point = .lock then { h with point := if ok then .tokenFile else .settled false, lockFile := ok } else h
  | .tokenWritten => if h.point = .tokenFile then { h with point := .bind, tokenFile := true } else h
  | .tokenFailed left =>
      if h.point = .tokenFile then setupFailed false { h with tokenFile := left } else h
  | .bound ok =>
      if h.point = .bind then
        if ok then { h with point := .chmod, server := true, listening := true, socketFile := true }
        else setupFailed true { h with server := true }
      else h
  | .launched spawned => if h.point = .chmod then h.launch spawned else h
  | .connected => h.connect
  | .authenticated => if h.activeSocket then { h with tokenFile := false } else h
  | .disconnected => { h with activeSocket := false }
  | .abort =>
      let aborted := { h with aborted := true }
      if h.abortListener then aborted.cleanup else aborted
  | .signal handledElsewhere =>
      if h.handlers then h.cleanup else if handledElsewhere then h else { h with running := false }
  | .died => h.die
  | .exited code signal => if h.point = .child ∧ h.child = .exited then h.leave (resolves code signal) else h
  | .spawnError => if h.point = .child ∧ h.child = .unspawned then h.leave false else h
  | .tornDown => h.tearDown

/- The child outlives a host that was ended by a signal. -/
def step (h : BrokerHost) (e : HostEvent) : BrokerHost :=
  if h.running then h.receive e
  else match e with
    | .died => h.die
    | _ => h

/- What the host is to keep: no child without the lock, and nothing is left when it settles. -/
structure Safe (h : BrokerHost) : Prop where
  locked : h.child = .alive → h.lockHeld
  settled : ∀ ok, h.point = .settled ok → h.child ≠ .alive ∧ h.listening = false ∧ h.activeSocket = false ∧
    h.tokenFile = false ∧ h.socketFile = false ∧ h.lockFile = false

/- The lock goes behind the child, the child's end is heard before a cleanup or behind it, and no
signal ends the host over its child. -/
def Orderly (h : BrokerHost) : HostEvent → Prop
  | .tornDown => h.child = .alive → h.teardown ≠ [.removeLock]
  | .exited .. => h.running → h.point = .child → h.child = .exited → h.teardown = []
  | .spawnError => h.running → h.point = .child → h.child = .unspawned → h.teardown = []
  | .signal handledElsewhere => h.child = .alive → h.handlers ∨ handledElsewhere
  | _ => True

/- A teardown that still has to remove whatever is left, the lock last. -/
structure Closing (h : BrokerHost) : Prop where
  closed : h.listening = false ∧ h.activeSocket = false
  token : h.tokenFile = true → .unlinkToken ∈ h.teardown
  socket : h.socketFile = true → .unlinkSocket ∈ h.teardown
  lock : h.lockFile = true ↔ h.teardown ≠ []
  last : h.teardown = [] ∨ ∃ before, h.teardown = before ++ [.removeLock] ∧ .removeLock ∉ before

/- Before the child there is no cleanup. -/
structure Opening (locked : Bool) (h : BrokerHost) : Prop where
  uncleaned : h.cleaned = false
  idle : h.teardown = []
  childless : h.child = .none
  lock : h.lockFile = locked

def Unbound (h : BrokerHost) : Prop := h.listening = false ∧ h.activeSocket = false ∧ h.socketFile = false

def Phase (h : BrokerHost) : HostPoint → Prop
  | .access | .lock => Opening false h ∧ Unbound h ∧ h.tokenFile = false
  | .tokenFile | .bind => Opening true h ∧ Unbound h
  | .chmod => Opening true h
  | .failing | .early | .final _ => Closing h ∧ h.teardown ≠ []
  | .child => (h.cleaned = false → h.teardown = [] ∧ h.lockFile = true) ∧ (h.cleaned = true → Closing h)
  | .settled _ => Closing h ∧ h.teardown = []

structure Kept (h : BrokerHost) : Prop where
  owned : h.child = .alive → h.running = true ∧ h.point = .child ∧ h.lockFile = true
  phase : Phase h h.point
  listens : h.handlers = true ∨ h.abortListener = true → h.point = .child ∧ h.cleaned = false

variable {h t : BrokerHost}

theorem Kept.safe (k : Kept h) : Safe h := by
  constructor
  · intro living
    obtain ⟨running,_,lock⟩ := k.owned living
    exact Bool.and_eq_true_iff.mpr ⟨running,lock⟩
  · intro ok ended
    have phase := k.phase
    rw [ended] at phase
    obtain ⟨closing,none_⟩ := phase
    refine ⟨?_,closing.closed.1,closing.closed.2,?_,?_,?_⟩
    · intro living
      exact nomatch ended.symm.trans (k.owned living).2.1
    · refine Bool.eq_false_iff.mpr fun there => ?_
      exact nomatch none_ ▸ closing.token there
    · refine Bool.eq_false_iff.mpr fun there => ?_
      exact nomatch none_ ▸ closing.socket there
    · exact Bool.eq_false_iff.mpr fun there => closing.lock.mp there none_

theorem stepsLast (before : List Teardown) (free : .removeLock ∉ before) :
    ∃ front, before ++ releaseSteps = front ++ [.removeLock] ∧ .removeLock ∉ front := by
  refine ⟨before ++ [.readLock],?_,?_⟩
  · rw [List.append_assoc]
    rfl
  · intro member
    rcases List.mem_append.mp member with inside | one
    · exact free inside
    · exact nomatch List.mem_singleton.mp one

theorem closeStepsFree (h : BrokerHost) : .removeLock ∉ h.closeSteps := by
  unfold closeSteps
  split <;> simp

theorem closeStepsBoth (h : BrokerHost) : .unlinkSocket ∈ h.closeSteps ∧ .unlinkToken ∈ h.closeSteps := by
  unfold closeSteps
  simp

theorem cleanupCloses (uncleaned : h.cleaned = false) (lock : h.lockFile = true) :
    Closing h.cleanup ∧ h.cleanup.teardown ≠ [] := by
  unfold cleanup
  rw [if_neg (by simp [uncleaned])]
  have some_ : h.closeSteps ++ releaseSteps ≠ [] := by simp [releaseSteps]
  have both := h.closeStepsBoth
  refine ⟨⟨⟨rfl,rfl⟩,?_,?_,?_,?_⟩,some_⟩
  · exact fun _ => List.mem_append_left _ both.2
  · exact fun _ => List.mem_append_left _ both.1
  · exact ⟨fun _ => some_,fun _ => lock⟩
  · exact Or.inr (stepsLast _ h.closeStepsFree)

theorem setupFailedCloses {constructed : Bool} (lock : h.lockFile = true)
    (unbound : constructed = false → Unbound h) :
    Closing (h.setupFailed constructed) ∧ (h.setupFailed constructed).teardown ≠ [] := by
  unfold setupFailed
  have some_ : (if constructed then h.closeSteps else []) ++ [.unlinkToken] ++ releaseSteps ≠ [] := by
    simp [releaseSteps]
  have free : .removeLock ∉ (if constructed then h.closeSteps else []) ++ [.unlinkToken] := by
    have := h.closeStepsFree
    split <;> simp [this]
  cases constructed with
  | true =>
    refine ⟨⟨⟨rfl,rfl⟩,?_,?_,?_,Or.inr (stepsLast _ free)⟩,some_⟩
    · exact fun _ => by simp
    · exact fun _ => by simp [h.closeStepsBoth]
    · exact ⟨fun _ => some_,fun _ => lock⟩
  | false =>
    obtain ⟨listening,socket,file⟩ := unbound rfl
    refine ⟨⟨⟨listening,socket⟩,?_,?_,?_,Or.inr (stepsLast _ free)⟩,some_⟩
    · exact fun _ => by simp
    · exact fun there => nomatch file.symm.trans there
    · exact ⟨fun _ => some_,fun _ => lock⟩

theorem applyFrame (step : Teardown) (h : BrokerHost) :
    (h.apply step).teardown = h.teardown ∧ (h.apply step).listening = h.listening ∧
      (h.apply step).activeSocket = h.activeSocket ∧ (h.apply step).point = h.point ∧
      (h.apply step).child = h.child ∧ (h.apply step).running = h.running ∧ (h.apply step).cleaned = h.cleaned ∧
      (h.apply step).handlers = h.handlers ∧ (h.apply step).abortListener = h.abortListener := by
  cases step <;> simp [BrokerHost.apply]

theorem applyFiles (step : Teardown) (h : BrokerHost) :
    (h.apply step).lockFile = (h.lockFile && step != .removeLock) ∧
      (h.apply step).tokenFile = (h.tokenFile && step != .unlinkToken) ∧
      (h.apply step).socketFile = (h.socketFile && step != .unlinkSocket) := by
  cases step <;> simp [BrokerHost.apply]

theorem Closing.apply {step : Teardown} {rest : List Teardown} (c : Closing h) (head : h.teardown = step :: rest) :
    Closing ({ h with teardown := rest }.apply step) := by
  obtain ⟨left,listening,socket,_⟩ := applyFrame step { h with teardown := rest }
  obtain ⟨lock,token,file⟩ := applyFiles step { h with teardown := rest }
  obtain ⟨before,whole,free⟩ := c.last.resolve_left (by simp [head])
  have there := c.lock.mpr (by simp [head])
  rw [head] at whole
  constructor
  · exact ⟨listening.trans c.closed.1,socket.trans c.closed.2⟩
  · intro inside
    rw [token,Bool.and_eq_true_iff] at inside
    have member := head ▸ c.token inside.1
    rw [left]
    exact (List.mem_cons.mp member).resolve_left fun same => by simp [← same] at inside
  · intro inside
    rw [file,Bool.and_eq_true_iff] at inside
    have member := head ▸ c.socket inside.1
    rw [left]
    exact (List.mem_cons.mp member).resolve_left fun same => by simp [← same] at inside
  · rw [lock,left]
    cases before with
    | nil =>
      obtain ⟨rfl,rfl⟩ := List.cons.inj whole
      simp
    | cons first later =>
      obtain ⟨rfl,rfl⟩ := List.cons.inj whole
      have other : step ≠ .removeLock := fun same => free (same ▸ List.mem_cons_self)
      simp [there,other]
  · rw [left]
    cases before with
    | nil => exact Or.inl (List.cons.inj whole).2
    | cons first later =>
      exact Or.inr ⟨later,(List.cons.inj whole).2,fun inside => free (List.mem_cons_of_mem _ inside)⟩

/- Connections, files that go and a child that ends change nothing that a phase rests on. -/
theorem Kept.less (k : Kept h) (point : t.point = h.point) (lock : t.lockFile = h.lockFile)
    (teardown : t.teardown = h.teardown) (cleaned : t.cleaned = h.cleaned) (handlers : t.handlers = h.handlers)
    (abortListener : t.abortListener = h.abortListener)
    (owned : t.child = .alive → h.child = .alive ∧ t.running = h.running) (childless : h.child = .none → t.child = .none)
    (listening : h.listening = false → t.listening = false)
    (socket : h.listening = false → h.activeSocket = false → t.activeSocket = false)
    (token : t.tokenFile = true → h.tokenFile = true) (file : t.socketFile = h.socketFile) : Kept t := by
  have closing (c : Closing h) : Closing t := by
    refine ⟨⟨listening c.closed.1,socket c.closed.1 c.closed.2⟩,?_,?_,?_,teardown ▸ c.last⟩
    · exact fun there => teardown ▸ c.token (token there)
    · exact fun there => teardown ▸ c.socket (file ▸ there)
    · exact lock ▸ teardown ▸ c.lock
  have opening {locked : Bool} (o : Opening locked h) : Opening locked t :=
    ⟨cleaned.trans o.uncleaned,teardown.trans o.idle,childless o.childless,lock.trans o.lock⟩
  have unbound (u : Unbound h) : Unbound t := ⟨listening u.1,socket u.1 u.2.1,file.trans u.2.2⟩
  constructor
  · intro living
    obtain ⟨before,runs⟩ := owned living
    rw [runs,point,lock]
    exact k.owned before
  · have phase := k.phase
    rw [point]
    cases at_ : h.point with
    | access | lock =>
      rw [at_] at phase
      exact ⟨opening phase.1,unbound phase.2.1,Bool.eq_false_iff.mpr fun there => Bool.eq_false_iff.mp phase.2.2 (token there)⟩
    | tokenFile | bind =>
      rw [at_] at phase
      exact ⟨opening phase.1,unbound phase.2⟩
    | chmod =>
      rw [at_] at phase
      exact opening phase
    | failing | early | final ok =>
      rw [at_] at phase
      exact ⟨closing phase.1,teardown ▸ phase.2⟩
    | child =>
      rw [at_] at phase
      exact ⟨fun not_ => teardown ▸ lock ▸ phase.1 (cleaned ▸ not_),fun done => closing (phase.2 (cleaned ▸ done))⟩
    | settled ok =>
      rw [at_] at phase
      exact ⟨closing phase.1,teardown ▸ phase.2⟩
  · rw [handlers,abortListener,point,cleaned]
    exact k.listens

theorem unspawned (childless : h.child = .none) (silent : h.handlers = true ∨ h.abortListener = true → False)
    (phase : Phase h h.point) : Kept h := by
  refine ⟨fun living => ?_,phase,fun listens => (silent listens).elim⟩
  exact nomatch childless.symm.trans living

theorem nothingLeft (idle : h.teardown = []) (lock : h.lockFile = false) (unbound : Unbound h)
    (token : h.tokenFile = false) : Closing h := by
  refine ⟨⟨unbound.1,unbound.2.1⟩,?_,?_,?_,Or.inl idle⟩
  · exact fun there => nomatch token.symm.trans there
  · exact fun there => nomatch unbound.2.2.symm.trans there
  · simp [idle,lock]

theorem cleanupFrame (h : BrokerHost) : h.cleanup.point = h.point ∧ h.cleanup.child = h.child ∧
    h.cleanup.running = h.running ∧ h.cleanup.lockFile = h.lockFile ∧ h.cleanup.cleaned = true := by
  unfold cleanup
  split
  · rename_i done
    exact ⟨rfl,rfl,rfl,rfl,done⟩
  · exact ⟨rfl,rfl,rfl,rfl,rfl⟩

theorem cleanupSilent (uncleaned : h.cleaned = false) :
    h.cleanup.handlers = false ∧ h.cleanup.abortListener = false := by
  unfold cleanup
  rw [if_neg (by simp [uncleaned])]
  exact ⟨rfl,rfl⟩

theorem Kept.cleanup (k : Kept h) (point : h.point = .child) (uncleaned : h.cleaned = false) : Kept h.cleanup := by
  have phase := k.phase
  rw [point] at phase
  obtain ⟨idle,lock⟩ := phase.1 uncleaned
  obtain ⟨at_,child,running,file,cleaned⟩ := h.cleanupFrame
  obtain ⟨handlers,listener⟩ := cleanupSilent uncleaned
  constructor
  · rw [child,running,at_,file]
    exact k.owned
  · rw [at_,point]
    refine ⟨fun not_ => ?_,fun _ => (cleanupCloses uncleaned lock).1⟩
    exact nomatch cleaned.symm.trans not_
  · rw [handlers,listener]
    exact nofun

/- A cleanup that startBrokerHost awaits itself. -/
theorem Kept.awaited {point : HostPoint} (dead : h.child ≠ .alive) (uncleaned : h.cleaned = false)
    (lock : h.lockFile = true) (awaits : ∀ t, Phase t point = (Closing t ∧ t.teardown ≠ [])) :
    Kept { h.cleanup with point } := by
  obtain ⟨_,child,_⟩ := h.cleanupFrame
  obtain ⟨handlers,listener⟩ := cleanupSilent uncleaned
  obtain ⟨closing,some_⟩ := cleanupCloses uncleaned lock
  constructor
  · exact fun living => absurd (child.symm.trans living) dead
  · change Phase { h.cleanup with point } point
    rw [awaits]
    exact ⟨⟨closing.closed,closing.token,closing.socket,closing.lock,closing.last⟩,some_⟩
  · intro listens
    exact nomatch handlers ▸ listener ▸ listens

theorem Kept.launch (k : Kept h) (running : h.running = true) (point : h.point = .chmod) (spawned : Spawned) :
    Kept (h.launch spawned) := by
  have opening : Opening true h := by
    have phase := k.phase
    rw [point] at phase
    exact phase
  have dead : h.child ≠ .alive := fun living => nomatch opening.childless.symm.trans living
  have spawns (child : BrokerChild) :
      Kept { h with handlers := true, abortListener := true, point := .child, child } := by
    refine ⟨fun _ => ⟨running,rfl,opening.lock⟩,⟨fun _ => ⟨opening.idle,opening.lock⟩,?_⟩,fun _ => ⟨rfl,opening.uncleaned⟩⟩
    exact fun cleaned => nomatch opening.uncleaned.symm.trans cleaned
  unfold BrokerHost.launch
  dsimp only
  split
  · exact Kept.awaited (h := { h with handlers := true }) dead opening.uncleaned opening.lock fun _ => rfl
  · cases spawned with
    | threw =>
      exact Kept.awaited (h := { h with handlers := true, abortListener := true }) dead opening.uncleaned opening.lock
        fun _ => rfl
    | unspawned => exact spawns .unspawned
    | started => exact spawns .alive

theorem Kept.leave (k : Kept h) (point : h.point = .child) (dead : h.child ≠ .alive) (idle : h.teardown = [])
    (ok : Bool) : Kept (h.leave ok) := by
  have phase := k.phase
  rw [point] at phase
  unfold BrokerHost.leave
  split
  · rename_i cleaned
    obtain ⟨closed,token,socket,lock,last⟩ := phase.2 cleaned
    refine ⟨fun living => absurd living dead,⟨⟨closed,token,socket,lock,last⟩,idle⟩,fun listens => ?_⟩
    exact nomatch cleaned.symm.trans (k.listens listens).2
  · rename_i uncleaned
    have uncleaned := Bool.eq_false_iff.mpr uncleaned
    exact Kept.awaited dead uncleaned (phase.1 uncleaned).2 fun _ => rfl

theorem Kept.tearDown (k : Kept h) (orderly : h.child = .alive → h.teardown ≠ [.removeLock]) : Kept h.tearDown := by
  unfold BrokerHost.tearDown
  split
  · exact k
  rename_i step rest head
  have there : h.teardown ≠ [] := by simp [head]
  obtain ⟨left,_,_,point,child,running,cleaned,handlers,listener⟩ := applyFrame step { h with teardown := rest }
  have closes (c : Closing h) : Closing ({ h with teardown := rest }.apply step) := c.apply head
  generalize { h with teardown := rest }.apply step = next at *
  have listens : next.handlers = true ∨ next.abortListener = true → h.point = .child ∧ h.cleaned = false := by
    rw [handlers,listener]
    exact k.listens
  -- A teardown under way is that of a cleanup or of the failed setup.
  have ends {p : HostPoint} (at_ : h.point = p) (c : Closing h) (not_ : p ≠ .child) : next.child ≠ .alive ∧
      (next.handlers = true ∨ next.abortListener = true → False) :=
    ⟨fun living => not_ (at_.symm.trans (k.owned (child ▸ living)).2.1),fun l => not_ (at_.symm.trans (listens l).1)⟩
  have phase := k.phase
  unfold resume
  cases at_ : h.point with
  | access | lock =>
    rw [at_] at phase
    exact absurd phase.1.idle there
  | tokenFile | bind =>
    rw [at_] at phase
    exact absurd phase.1.idle there
  | chmod =>
    rw [at_] at phase
    exact absurd phase.idle there
  | failing | early | final ok =>
    rw [at_] at phase
    have c := closes phase.1
    obtain ⟨dead,silent⟩ := ends at_ phase.1 nofun
    rw [point.trans at_]
    split
    · rename_i empty
      exact ⟨fun living => absurd living dead,⟨⟨c.closed,c.token,c.socket,c.lock,c.last⟩,empty⟩,fun l => (silent l).elim⟩
    · rename_i some_
      refine ⟨fun living => absurd living dead,?_,fun l => (silent l).elim⟩
      rw [point.trans at_]
      exact ⟨c,some_⟩
  | child =>
    rw [at_] at phase
    have done : h.cleaned = true := by
      by_contra not_
      exact there (phase.1 (Bool.eq_false_iff.mpr not_)).1
    have c := closes (phase.2 done)
    rw [point.trans at_,ite_self]
    constructor
    · intro living
      have before := k.owned (child ▸ living)
      refine ⟨running ▸ before.1,point.trans at_,c.lock.mpr fun empty => ?_⟩
      obtain ⟨front,whole,_⟩ := (phase.2 done).last.resolve_left there
      rw [head] at whole
      rw [left] at empty
      cases front with
      | nil => exact orderly (child ▸ living) (head.trans whole)
      | cons first later =>
        obtain ⟨_,same⟩ := List.cons.inj whole
        exact absurd (same.symm.trans empty) (by simp)
    · rw [point.trans at_]
      exact ⟨fun not_ => absurd (done.symm.trans (cleaned.symm.trans not_)) nofun,fun _ => c⟩
    · exact fun l => absurd (done.symm.trans (listens l).2) nofun
  | settled ok =>
    rw [at_] at phase
    exact absurd phase.2 there

theorem Kept.receive {e : HostEvent} (k : Kept h) (running : h.running = true) (orderly : Orderly h e) :
    Kept (h.receive e) := by
  have phase := k.phase
  have silent {p : HostPoint} (at_ : h.point = p) (not_ : p ≠ .child) : h.handlers = true ∨ h.abortListener = true → False :=
    fun l => not_ (at_.symm.trans (k.listens l).1)
  cases e with
  | accessed ok =>
    dsimp only [BrokerHost.receive]
    split
    · rename_i at_
      rw [at_] at phase
      obtain ⟨⟨uncleaned,idle,childless,lock⟩,⟨listening,socket,file⟩,token⟩ := phase
      cases ok with
      | true => exact unspawned childless (silent at_ nofun) ⟨⟨uncleaned,idle,childless,lock⟩,⟨listening,socket,file⟩,token⟩
      | false => exact unspawned childless (silent at_ nofun) ⟨nothingLeft idle lock ⟨listening,socket,file⟩ token,idle⟩
    · exact k
  | locked ok =>
    dsimp only [BrokerHost.receive]
    split
    · rename_i at_
      rw [at_] at phase
      obtain ⟨⟨uncleaned,idle,childless,lock⟩,⟨listening,socket,file⟩,token⟩ := phase
      cases ok with
      | true => exact unspawned childless (silent at_ nofun) ⟨⟨uncleaned,idle,childless,rfl⟩,⟨listening,socket,file⟩⟩
      | false => exact unspawned childless (silent at_ nofun) ⟨nothingLeft idle rfl ⟨listening,socket,file⟩ token,idle⟩
    · exact k
  | tokenWritten =>
    dsimp only [BrokerHost.receive]
    split
    · rename_i at_
      rw [at_] at phase
      obtain ⟨⟨uncleaned,idle,childless,lock⟩,⟨listening,socket,file⟩⟩ := phase
      exact unspawned childless (silent at_ nofun) ⟨⟨uncleaned,idle,childless,lock⟩,⟨listening,socket,file⟩⟩
    · exact k
  | tokenFailed left =>
    dsimp only [BrokerHost.receive]
    split
    · rename_i at_
      rw [at_] at phase
      refine unspawned phase.1.childless (silent at_ nofun) ?_
      exact @setupFailedCloses { h with tokenFile := left } false phase.1.lock fun _ => phase.2
    · exact k
  | bound ok =>
    dsimp only [BrokerHost.receive]
    split
    · rename_i at_
      rw [at_] at phase
      obtain ⟨⟨uncleaned,idle,childless,lock⟩,_⟩ := phase
      cases ok with
      | true => exact unspawned childless (silent at_ nofun) ⟨uncleaned,idle,childless,lock⟩
      | false =>
        refine unspawned childless (silent at_ nofun) ?_
        exact @setupFailedCloses { h with server := true } true lock nofun
    · exact k
  | launched spawned =>
    dsimp only [BrokerHost.receive]
    split
    · rename_i at_
      exact k.launch running at_ spawned
    · exact k
  | connected =>
    dsimp only [BrokerHost.receive,connect]
    split
    · rename_i listening
      exact k.less rfl rfl rfl rfl rfl rfl (fun living => ⟨living,rfl⟩) id (fun _ => rfl)
        (fun not_ => absurd listening (Bool.eq_false_iff.mp not_)) id rfl
    · exact k
  | authenticated =>
    dsimp only [BrokerHost.receive]
    split
    · exact k.less rfl rfl rfl rfl rfl rfl (fun living => ⟨living,rfl⟩) id id (fun _ => id) nofun rfl
    · exact k
  | disconnected =>
    exact k.less rfl rfl rfl rfl rfl rfl (fun living => ⟨living,rfl⟩) id id (fun _ _ => rfl) id rfl
  | abort =>
    have noted : Kept { h with aborted := true } :=
      k.less rfl rfl rfl rfl rfl rfl (fun living => ⟨living,rfl⟩) id id (fun _ => id) id rfl
    dsimp only [BrokerHost.receive]
    split
    · rename_i listener
      obtain ⟨point,uncleaned⟩ := k.listens (Or.inr listener)
      exact noted.cleanup point uncleaned
    · exact noted
  | signal handledElsewhere =>
    dsimp only [BrokerHost.receive]
    split
    · rename_i handlers
      obtain ⟨point,uncleaned⟩ := k.listens (Or.inl handlers)
      exact k.cleanup point uncleaned
    · rename_i unhandled
      split
      · exact k
      · rename_i default_
        exact k.less rfl rfl rfl rfl rfl rfl (fun living => ((orderly living).elim unhandled default_).elim) id id (fun _ => id) id rfl
  | died =>
    dsimp only [BrokerHost.receive,die]
    split
    · rename_i living
      exact k.less rfl rfl rfl rfl rfl rfl nofun (fun none_ => nomatch none_.symm.trans living) id (fun _ => id) id rfl
    · exact k
  | exited code signal =>
    dsimp only [BrokerHost.receive]
    split
    · rename_i heard
      exact k.leave heard.1 (fun living => nomatch living.symm.trans heard.2) (orderly running heard.1 heard.2) _
    · exact k
  | spawnError =>
    dsimp only [BrokerHost.receive]
    split
    · rename_i heard
      exact k.leave heard.1 (fun living => nomatch living.symm.trans heard.2) (orderly running heard.1 heard.2) _
    · exact k
  | tornDown => exact k.tearDown orderly

theorem Kept.step {e : HostEvent} (k : Kept h) (orderly : Orderly h e) : Kept (h.step e) := by
  unfold BrokerHost.step
  split
  · rename_i running
    exact k.receive running orderly
  · rename_i ended
    have dead : h.child ≠ .alive := fun living => ended (k.owned living).1
    split
    · unfold die
      rw [if_neg dead]
      exact k
    · exact k

/- What is out of order breaks it at once. -/
theorem Kept.breaks {e : HostEvent} (k : Kept h) (disorder : ¬Orderly h e) : ¬Safe (h.step e) := by
  intro safe
  have leaves {ok : Bool} (running : h.running = true) (point : h.point = .child) (left : h.teardown ≠ [])
      (safe : Safe (h.leave ok)) : False := by
    have phase := k.phase
    rw [point] at phase
    have cleaned : h.cleaned = true := by
      by_contra not_
      exact left (phase.1 (Bool.eq_false_iff.mpr not_)).1
    have lock := (phase.2 cleaned).lock.mpr left
    unfold BrokerHost.leave at safe
    rw [if_pos cleaned] at safe
    exact nomatch lock.symm.trans (safe.settled ok rfl).2.2.2.2.2
  cases e with
  | tornDown =>
    obtain ⟨living,only⟩ := Classical.not_imp.mp disorder
    have last := Decidable.not_not.mp only
    obtain ⟨running,point,_⟩ := k.owned living
    simp only [BrokerHost.step,running,if_true,BrokerHost.receive,BrokerHost.tearDown,last,BrokerHost.apply,resume,point] at safe
    have held := safe.locked living
    simp [lockHeld] at held
  | signal handledElsewhere =>
    obtain ⟨living,none_⟩ := Classical.not_imp.mp disorder
    obtain ⟨handlers,default_⟩ := not_or.mp none_
    have running := (k.owned living).1
    simp only [BrokerHost.step,running,if_true,BrokerHost.receive,if_neg handlers,if_neg default_] at safe
    have held := safe.locked living
    simp [lockHeld] at held
  | exited code signal =>
    simp only [Orderly,Classical.not_imp] at disorder
    obtain ⟨running,point,dead,left⟩ := disorder
    simp only [BrokerHost.step,running,if_true,BrokerHost.receive,point,dead,and_self] at safe
    exact leaves running point left safe
  | spawnError =>
    simp only [Orderly,Classical.not_imp] at disorder
    obtain ⟨running,point,failed,left⟩ := disorder
    simp only [BrokerHost.step,running,if_true,BrokerHost.receive,point,failed,and_self] at safe
    exact leaves running point left safe
  | _ => exact disorder trivial

theorem keptInitially : Kept {} := by
  refine unspawned rfl ?_ ⟨⟨rfl,rfl,rfl,rfl⟩,⟨rfl,rfl,rfl⟩,rfl⟩
  simp

def run (events : List HostEvent) : BrokerHost := events.foldl step {}

/-- The lock covers the child and nothing is left at the end, exactly in the runs whose steps
are all in order. -/
theorem hostLifetime (events : List HostEvent) :
    Meets Orderly step {} events ↔ ∀ n, Safe (run (events.take n)) :=
  runExactly keptInitially (fun _ => Kept.safe) (fun _ _ => Kept.step) (fun _ _ => Kept.breaks) events

def started : List HostEvent :=
  [.accessed true,.locked true,.tokenWritten,.bound true,.launched .started,.connected,.authenticated]

/- An abort, a cleanup that runs to its end and a child that has not ended; an exit that is heard
while the cleanup still runs. -/
def releasedEarly : List HostEvent :=
  started ++ [.abort,.tornDown,.tornDown,.tornDown,.tornDown]

def heardEarly : List HostEvent := started ++ [.abort,.died,.exited none (some "SIGTERM")]

theorem lockWithoutOwner : ¬Safe (run releasedEarly) ∧ ¬Safe (run heardEarly) := by
  constructor
  · intro safe
    exact nomatch safe.locked rfl
  · intro safe
    exact nomatch (safe.settled true rfl).2.2.2.2.2

end BrokerHost
end Northstar.Runtime
