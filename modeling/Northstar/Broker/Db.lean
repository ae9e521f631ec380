import Northstar.Broker.World

/-! The journal operations of db.rs, statement by statement. -/
namespace Northstar.Broker

def dbSchemaVersion : Nat := 1
def maxPayloadBytes : Nat := 4096

inductive DbError where
  | sql (e : SqlError)
  | payloadTooLarge
  | invalidState (message : String)
  | duplicate
  | schemaMismatch (expected found : Nat)
  deriving DecidableEq, Repr

/- The ? operator on one statement: an SQLite error leaves the function. -/
def tryCall {α : Type} (s : Statement) (next : s.Result → Handler (Except DbError α)) :
    Handler (Except DbError α) := do
  match ← call (.sql s) with
  | .error e => pure (.error (.sql e))
  | .ok result => next result

/- Open failures other than SQLite's on these statements end the process before any
statement ran, which is a crash. -/
def openDurable : Handler (Except DbError Unit) :=
  tryCall .pragmas fun _ => tryCall .createTables fun _ => tryCall .selectVersion fun found =>
    match found with
    | none => tryCall (.insertVersion dbSchemaVersion) fun _ => pure (.ok ())
    | some v =>
        if v = dbSchemaVersion then pure (.ok ())
        else pure (.error (.schemaMismatch dbSchemaVersion v))

def checkPayload : Option String → Except DbError Unit
  | none => .ok ()
  | some p => if p.utf8ByteSize > maxPayloadBytes then .error .payloadTooLarge else .ok ()

/- let _ = ROLLBACK, then the error. -/
def abandon {α : Type} (e : DbError) : Handler (Except DbError α) := do
  let _ ← call .rollback
  pure (.error e)

def transitionJob (jobId : String) (newState : JobState) : Handler (Except DbError Unit) := do
  match ← call .beginImmediate with
  | .error e => pure (.error (.sql e))
  | .ok () =>
      match ← call (.sql (.updateState newState jobId)) with
      | .ok 0 =>
          match ← call .rollback with
          | .error e => pure (.error (.sql e))
          | .ok () => pure (.ok ())
      | .ok (_ + 1) =>
          match ← call .commit with
          | .error e => pure (.error (.sql e))
          | .ok () => pure (.ok ())
      | .error e => abandon (.sql e)

def queryReceipt (clientId requestId : String) : Handler (Except DbError (Option ReceiptRecord)) :=
  tryCall (.selectReceipt ⟨clientId,requestId⟩) fun row => pure (.ok row)

def transitionJobByRequest (clientId requestId : String) (newState : JobState) :
    Handler (Except DbError Unit) := do
  match ← call .beginImmediate with
  | .error e => pure (.error (.sql e))
  | .ok () =>
      match ← call (.sql (.updateStateByRequest newState ⟨clientId,requestId⟩)) with
      | .ok _ =>
          match ← call .commit with
          | .error e => pure (.error (.sql e))
          | .ok () => pure (.ok ())
      | .error e => abandon (.sql e)

def bindDispatchedJob (clientId requestId jobId : String) : Handler (Except DbError Unit) := do
  match ← call .beginImmediate with
  | .error e => pure (.error (.sql e))
  | .ok () =>
      match ← call (.sql (.updateJobId jobId .dispatched ⟨clientId,requestId⟩)) with
      | .ok 0 =>
          match ← call .rollback with
          | .error e => pure (.error (.sql e))
          | .ok () => pure (.error (.invalidState "missing pending receipt"))
      | .ok (_ + 1) =>
          match ← call .commit with
          | .error e => pure (.error (.sql e))
          | .ok () => pure (.ok ())
      | .error .constraintViolation => abandon .duplicate
      | .error .failure => abandon (.sql .failure)

def deleteMutationClaim (clientId requestId : String) : Handler (Except DbError Unit) :=
  tryCall (.deleteClaims ⟨clientId,requestId⟩) fun _ => pure (.ok ())

/- A failed COMMIT can leave the transaction active; roll back explicitly so a later
request never inherits an open one. -/
def commitOrRollback : Handler (Except DbError Unit) := do
  match ← call .commit with
  | .error e => abandon (.sql e)
  | .ok () => pure (.ok ())

def releaseStartArtifacts (clientId requestId : String) : Handler (Except DbError Unit) := do
  match ← call .beginImmediate with
  | .error e => pure (.error (.sql e))
  | .ok () =>
      match ← call (.sql (.deleteReceipts ⟨clientId,requestId⟩)) with
      | .error e => abandon (.sql e)
      | .ok _ =>
          match ← call (.sql (.deleteClaims ⟨clientId,requestId⟩)) with
          | .error e => abandon (.sql e)
          | .ok _ => commitOrRollback

def claimFailure : SqlError → DbError
  | .constraintViolation => .duplicate
  | .failure => .sql .failure

def claimStartAtomic (clientId requestId : String) (rec : ReceiptRecord) :
    Handler (Except DbError Unit) := do
  match checkPayload rec.receiptPayload with
  | .error e => pure (.error e)
  | .ok () =>
  match checkPayload rec.requestDigest with
  | .error e => pure (.error e)
  | .ok () =>
  match ← call .beginImmediate with
  | .error e => pure (.error (.sql e))
  | .ok () =>
      match ← call (.sql (.insertClaim ⟨⟨clientId,requestId⟩,.start⟩)) with
      | .error e => abandon (claimFailure e)
      | .ok _ =>
          match ← call (.sql (.insertReceipt rec)) with
          | .error e => abandon (claimFailure e)
          | .ok _ => commitOrRollback

def recoverIncompleteJobs : Handler (Except DbError Nat) :=
  tryCall (.updateIncomplete .outcomeUnknown) fun changed => pure (.ok changed)

def ownsAllJobs (clientId : String) : List String → Handler (Except DbError Bool)
  | [] => pure (.ok true)
  | jobId :: rest => tryCall (.countOwned clientId jobId) fun count =>
      if count ≠ 1 then pure (.ok false) else ownsAllJobs clientId rest

def markJobsOutcomeUnknown : List String → Handler Unit
  | [] => pure ()
  | runId :: rest => do
      let _ ← transitionJob runId .outcomeUnknown
      markJobsOutcomeUnknown rest

end Northstar.Broker
