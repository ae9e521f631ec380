import Northstar.Script

/-! The broker lock (broker-lock.ts): acquire and release as programs over single
filesystem and process calls, and any number of processes taking such calls in any
order. A lock file is numbered when it is created. Error texts are left out. -/
namespace Northstar.Runtime

inductive LockMode where
  | serve | session
  deriving DecidableEq, Repr

def LockMode.wire : LockMode → String
  | .serve => "serve"
  | .session => "session"

structure BrokerLockRecord where
  pid : Nat
  startedAt : Int
  mode : LockMode
  deriving Repr

def BrokerLockRecord.json (record : BrokerLockRecord) : JsValue :=
  .object [(js "pid",.number (.int record.pid)),(js "startedAt",.number (.int record.startedAt)),
    (js "mode",.string (js record.mode.wire))]

/- typeError: reading pid off null, which no handler of acquire turns into a lock error. -/
inductive LockErrorCode where
  | lockHeld | staleLockRemovalFailed | lockIoError | typeError | directoryError
  deriving DecidableEq, Repr

abbrev LockOutcome := Except LockErrorCode Unit

inductive LockOp where
  | ensureDirectory
  | create
  | write (handle : Nat) (record : BrokerLockRecord)
  | close (handle : Nat)
  | read
  | kill (pid : Int)
  | remove

inductive CreateReply where
  | created (handle : Nat)
  | exists
  | failed

inductive ReadReply where
  | absent
  | unreadable
  | parsed (value : JsValue)

inductive KillReply where
  | delivered | noSuchProcess | notPermitted | failed

def LockReply : LockOp → Type
  | .create => CreateReply
  | .read => ReadReply
  | .kill _ => KillReply
  | _ => Bool

abbrev LockProgram := Program LockOp LockReply

def ensureDirectory : LockProgram Bool := Program.request LockOp.ensureDirectory

def createFile : LockProgram CreateReply := Program.request LockOp.create

def writeFile (handle : Nat) (record : BrokerLockRecord) : LockProgram Bool :=
  Program.request (LockOp.write handle record)

def closeFile (handle : Nat) : LockProgram Bool := Program.request (LockOp.close handle)

def readFile : LockProgram ReadReply := Program.request LockOp.read

def killZero (pid : Int) : LockProgram KillReply := Program.request (LockOp.kill pid)

def removeFile : LockProgram Bool := Program.request LockOp.remove

def recordPid (value : JsValue) : Option Int := match value.get "pid" with
  | .number (.int n) => some n
  | _ => none

def maxSafeInteger : Int := 2^53 - 1

def assertLockStaleOrHeld (existing : JsValue) : LockProgram (Except LockErrorCode Bool) :=
  match existing with
  | .null => pure (.error .typeError)
  | _ => match recordPid existing with
    | none => pure (.error .lockIoError)
    | some pid =>
      if pid ≤ 0 ∨ pid > maxSafeInteger then pure (.error .lockIoError)
      else do
        match ← killZero pid with
        | .delivered => pure (.ok false)
        | .noSuchProcess => pure (.ok true)
        | .notPermitted => pure (.ok false)
        | .failed => pure (.error .lockIoError)

inductive OpenResult where
  | opened | exists | failed

/- open with O_CREAT|O_EXCL, writeFile, close. -/
def openNew (record : BrokerLockRecord) : LockProgram OpenResult := do
  match ← createFile with
  | .exists => pure .exists
  | .failed => pure .failed
  | .created handle => do
    if !(← writeFile handle record) then pure .failed
    else do
      pure (if ← closeFile handle then .opened else .failed)

/- The stale branch: remove the dead owner's file, then retake the slot. -/
def retake (record : BrokerLockRecord) : LockProgram LockOutcome := do
  if !(← removeFile) then pure (.error .staleLockRemovalFailed)
  else do
    match ← openNew record with
    | .opened => pure (.ok ())
    | .exists => pure (.error .lockHeld)
    | .failed => pure (.error .lockIoError)

def attempts (record : BrokerLockRecord) : Nat → LockProgram LockOutcome
  | 0 => pure (.error .lockHeld)
  | left + 1 => do
    match ← openNew record with
    | .opened => pure (.ok ())
    | .failed => pure (.error .lockIoError)
    | .exists => do
      match ← readFile with
      | .absent => attempts record left
      | .unreadable => pure (.error .lockIoError)
      | .parsed existing => do
        match ← assertLockStaleOrHeld existing with
        | .error code => pure (.error code)
        | .ok false => pure (.error .lockHeld)
        | .ok true => retake record

def maxAttempts : Nat := 3

def acquireBrokerLock (record : BrokerLockRecord) : LockProgram LockOutcome := do
  if !(← ensureDirectory) then pure (.error .directoryError) else attempts record maxAttempts

/- Every failure is swallowed: the lock is gone already or cannot be read. -/
def releaseBrokerLock (pid : Nat) : LockProgram LockOutcome := do
  match ← readFile with
  | .parsed record =>
    if recordPid record = some (pid : Int) then do
      let _ ← removeFile
      pure (.ok ())
    else pure (.ok ())
  | _ => pure (.ok ())

structure LockFile where
  id : Nat
  creator : Option Nat
  content : Option JsValue

inductive CallKind where
  | acquire | release
  deriving DecidableEq

/- owns: the file a create of this process made, until the process removes it or dies;
saw: the file its running call read last. -/
structure Process where
  alive : Bool
  holds : Bool
  call : Option (CallKind × LockProgram LockOutcome)
  owns : Option Nat
  saw : Option Nat

def Process.absent : Process := ⟨false,false,none,none,none⟩

structure Removal where
  removedBy : Nat
  kind : CallKind
  victim : Option Nat
  deriving DecidableEq

structure Machines where
  file : Option LockFile
  files : Nat
  processes : Nat → Process
  removals : List Removal

/- Any file may be there at first, of no process seen here. -/
def Machines.start (content : Option (Option JsValue)) : Machines :=
  ⟨content.map (⟨0,none,·⟩),1,fun _ => .absent,[]⟩

def Machines.set (s : Machines) (p : Nat) (process : Process) : Machines :=
  { s with processes := Function.update s.processes p process }

/- What the environment decides about a call: it works, fails, or (kill) lacks permission. -/
inductive Fate where
  | works | fails | denied
  deriving DecidableEq

def Machines.runs (s : Machines) (pid : Int) : Bool := 0 ≤ pid && (s.processes pid.toNat).alive

/- The live process, other than the remover, whose lock file this is. -/
def Machines.victim (s : Machines) (p : Nat) (f : LockFile) : Option Nat :=
  f.creator.filter fun q => q != p && (s.processes q).owns == some f.id

def Machines.create (s : Machines) (p : Nat) (fate : Fate) : CreateReply × Machines :=
  if fate ≠ .works then (.failed,s)
  else match s.file with
    | some _ => (.exists,s)
    | none => (.created s.files,
        { s with file := some ⟨s.files,some p,none⟩, files := s.files + 1 }.set p
          { s.processes p with owns := some s.files })

def Machines.write (s : Machines) (handle : Nat) (record : BrokerLockRecord) (fate : Fate) :
    Bool × Machines :=
  if fate ≠ .works then (false,s)
  else (true,{ s with file := s.file.map fun f =>
    if f.id = handle then { f with content := some record.json } else f })

def Machines.read (s : Machines) (p : Nat) (fate : Fate) : ReadReply × Machines :=
  if fate ≠ .works then (.unreadable,s)
  else match s.file with
    | none => (.absent,s)
    | some f => match f.content with
      | none => (.unreadable,s)
      | some value => (.parsed value,s.set p { s.processes p with saw := some f.id })

def Machines.kill (s : Machines) (pid : Int) : Fate → KillReply
  | .works => if s.runs pid then .delivered else .noSuchProcess
  | .denied => if s.runs pid then .notPermitted else .failed
  | .fails => .failed

def Machines.remove (s : Machines) (p : Nat) (kind : CallKind) (fate : Fate) : Bool × Machines :=
  if fate ≠ .works then (false,s)
  else match s.file with
    | none => (true,s)
    | some f => (true,
        { s with file := none, removals := ⟨p,kind,s.victim p f⟩ :: s.removals }.set p
          { s.processes p with owns := (s.processes p).owns.filter (· != f.id) })

def Machines.answer (s : Machines) (p : Nat) (kind : CallKind) (fate : Fate) :
    (op : LockOp) → LockReply op × Machines
  | .ensureDirectory => (fate == .works,s)
  | .create => s.create p fate
  | .write handle record => s.write handle record fate
  | .close _ => (fate == .works,s)
  | .read => s.read p fate
  | .kill pid => (s.kill pid fate,s)
  | .remove => s.remove p kind fate

/- A call that returned: only an acquire that succeeded makes its process a holder. -/
def Process.proceed (process : Process) (kind : CallKind) : LockProgram LockOutcome → Process
  | .done (.ok ()) => { process with call := none, holds := process.holds || kind = .acquire }
  | .done (.error _) => { process with call := none }
  | program => { process with call := some (kind,program) }

inductive LockEvent where
  | spawn (p : Nat)
  | die (p : Nat)
  | acquire (p : Nat) (mode : LockMode) (startedAt : Int)
  | release (p : Nat)
  | run (p : Nat) (fate : Fate)

def Machines.idle (s : Machines) (p : Nat) : Bool :=
  (s.processes p).alive && (s.processes p).call.isNone

def lockStep (s : Machines) : LockEvent → Machines
  | .spawn p => if (s.processes p).alive then s else s.set p { Process.absent with alive := true }
  | .die p => s.set p .absent
  | .acquire p mode startedAt =>
      if s.idle p then s.set p { s.processes p with
        call := some (.acquire,acquireBrokerLock ⟨p,startedAt,mode⟩), saw := none }
      else s
  | .release p =>
      if s.idle p then s.set p { s.processes p with
        call := some (.release,releaseBrokerLock p), saw := none, holds := false }
      else s
  | .run p fate => match (s.processes p).call with
      | some (kind,.call op next) =>
          let (reply,s) := s.answer p kind fate op
          s.set p ((s.processes p).proceed kind (next reply))
      | _ => s

/- A removal takes a file that is not the one the remover read. -/
def overtaken (s : Machines) : LockEvent → Bool
  | .run p .works => match (s.processes p).call, s.file with
      | some (_,.call .remove _), some f => (s.processes p).saw != some f.id
      | _, _ => false
  | _ => false

end Northstar.Runtime
