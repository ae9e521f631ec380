import Northstar.Broker.Protocol

/-! The durable tables behind db.rs and the statements it issues against them.
SQLite is outside the repository: a statement is all or nothing, a primary key
violation refuses the statement, and what an open transaction wrote is seen by its
own connection only until COMMIT. -/
namespace Northstar.Broker

inductive JobState where
  | pending | dispatched | completed | outcomeUnknown
  deriving DecidableEq, Repr

def JobState.asStr : JobState → String
  | .pending => "pending"
  | .dispatched => "dispatched"
  | .completed => "completed"
  | .outcomeUnknown => "outcome_unknown"

structure Key where
  clientId : String
  requestId : String
  deriving DecidableEq, Repr

structure ReceiptRecord where
  jobId : String
  clientId : String
  requestId : String
  state : JobState
  submittedAt : Int
  receiptPayload : Option String
  requestDigest : Option String
  deriving DecidableEq, Repr

def ReceiptRecord.key (r : ReceiptRecord) : Key := ⟨r.clientId,r.requestId⟩

/- takenBy is history, not a column: the method whose handler inserted the row. -/
structure MutationClaim where
  key : Key
  takenBy : RpcMethod
  deriving DecidableEq, Repr

structure Tables where
  schemaVersion : Option Nat
  jobReceipts : List ReceiptRecord
  mutationClaims : List MutationClaim
  deriving DecidableEq, Repr

namespace Tables

def empty : Tables := ⟨none,[],[]⟩

def claimKeys (t : Tables) : List Key := t.mutationClaims.map (·.key)
def jobIds (t : Tables) : List String := t.jobReceipts.map (·.jobId)
def receiptKeys (t : Tables) : List Key := t.jobReceipts.map (·.key)

def receipt (t : Tables) (k : Key) : Option ReceiptRecord := t.jobReceipts.find? (·.key = k)
def stateOf (t : Tables) (k : Key) : Option JobState := (t.receipt k).map (·.state)

def Owned (t : Tables) (clientId jobId : String) : Prop :=
  ∃ r ∈ t.jobReceipts, r.clientId = clientId ∧ r.jobId = jobId

def addClaim (c : MutationClaim) (t : Tables) : Tables :=
  {t with mutationClaims := t.mutationClaims ++ [c]}
def addReceipt (r : ReceiptRecord) (t : Tables) : Tables :=
  {t with jobReceipts := t.jobReceipts ++ [r]}
def removeClaims (k : Key) (t : Tables) : Tables :=
  {t with mutationClaims := t.mutationClaims.filter (·.key ≠ k)}
def removeReceipts (k : Key) (t : Tables) : Tables :=
  {t with jobReceipts := t.jobReceipts.filter (·.key ≠ k)}
def mapReceipts (f : ReceiptRecord → ReceiptRecord) (t : Tables) : Tables :=
  {t with jobReceipts := t.jobReceipts.map f}

def setState (s : JobState) (jobId : String) : Tables → Tables :=
  mapReceipts fun r => if r.jobId = jobId then {r with state := s} else r
def setStateByRequest (s : JobState) (k : Key) : Tables → Tables :=
  mapReceipts fun r => if r.key = k then {r with state := s} else r
def bindJob (jobId : String) (s : JobState) (k : Key) : Tables → Tables :=
  mapReceipts fun r => if r.key = k then {r with jobId := jobId, state := s} else r
def markIncomplete (s : JobState) : Tables → Tables :=
  mapReceipts fun r => if r.state = .pending ∨ r.state = .dispatched then {r with state := s} else r

end Tables

inductive SqlError where
  | constraintViolation | failure
  deriving DecidableEq, Repr

inductive Statement where
  | pragmas
  | createTables
  | selectVersion
  | insertVersion (version : Nat)
  | insertClaim (c : MutationClaim)
  | insertReceipt (r : ReceiptRecord)
  | updateState (s : JobState) (jobId : String)
  | updateStateByRequest (s : JobState) (k : Key)
  | updateJobId (jobId : String) (s : JobState) (k : Key)
  | deleteReceipts (k : Key)
  | deleteClaims (k : Key)
  | updateIncomplete (s : JobState)
  | selectReceipt (k : Key)
  | selectReceiptByJob (jobId : String)
  | countOwned (clientId jobId : String)
  deriving DecidableEq, Repr

/- A write reports the number of rows it changed. -/
abbrev Statement.Result : Statement → Type
  | .selectVersion => Option Nat
  | .selectReceipt _ => Option ReceiptRecord
  | .selectReceiptByJob _ => Option ReceiptRecord
  | _ => Nat

def Statement.run : (s : Statement) → Tables → Except SqlError (s.Result × Tables)
  | .pragmas, t => .ok (0,t)
  | .createTables, t => .ok (0,t)
  | .selectVersion, t => .ok (t.schemaVersion,t)
  | .insertVersion version, t => .ok (1,{t with schemaVersion := some version})
  | .insertClaim c, t =>
      if c.key ∈ t.claimKeys then .error .constraintViolation else .ok (1,t.addClaim c)
  | .insertReceipt r, t =>
      if r.jobId ∈ t.jobIds then .error .constraintViolation else .ok (1,t.addReceipt r)
  | .updateState s jobId, t => .ok (t.jobReceipts.countP (·.jobId = jobId),t.setState s jobId)
  | .updateStateByRequest s k, t =>
      .ok (t.jobReceipts.countP (·.key = k),t.setStateByRequest s k)
  | .updateJobId jobId s k, t =>
      if (t.bindJob jobId s k).jobIds.Nodup then
        .ok (t.jobReceipts.countP (·.key = k),t.bindJob jobId s k)
      else .error .constraintViolation
  | .deleteReceipts k, t => .ok (t.jobReceipts.countP (·.key = k),t.removeReceipts k)
  | .deleteClaims k, t => .ok (t.mutationClaims.countP (·.key = k),t.removeClaims k)
  | .updateIncomplete s, t =>
      .ok (t.jobReceipts.countP (fun r => r.state = .pending ∨ r.state = .dispatched),
        t.markIncomplete s)
  | .selectReceipt k, t => .ok (t.receipt k,t)
  | .selectReceiptByJob jobId, t => .ok (t.jobReceipts.find? (·.jobId = jobId),t)
  | .countOwned clientId jobId, t =>
      .ok (t.jobReceipts.countP (fun r => r.clientId = clientId ∧ r.jobId = jobId),t)

/-- What the environment decides about a statement. A failed COMMIT may leave the
transaction open or roll it back; any other failed statement changes nothing. -/
inductive SqlOutcome where
  | done
  | fault (rolledBack : Bool)
  deriving DecidableEq, Repr

structure Connection where
  durable : Tables
  txn : Option Tables
  deriving DecidableEq, Repr

namespace Connection

def view (c : Connection) : Tables := c.txn.getD c.durable

def write (c : Connection) (t : Tables) : Connection :=
  match c.txn with
  | none => ⟨t,none⟩
  | some _ => ⟨c.durable,some t⟩

def beginImmediate (c : Connection) : SqlOutcome → Except SqlError Unit × Connection
  | .fault _ => (.error .failure,c)
  | .done => match c.txn with
    | some _ => (.error .failure,c)
    | none => (.ok (),⟨c.durable,some c.durable⟩)

def commit (c : Connection) : SqlOutcome → Except SqlError Unit × Connection
  | .fault rolledBack => (.error .failure,if rolledBack then ⟨c.durable,none⟩ else c)
  | .done => match c.txn with
    | none => (.error .failure,c)
    | some t => (.ok (),⟨t,none⟩)

def rollback (c : Connection) : SqlOutcome → Except SqlError Unit × Connection
  | .fault _ => (.error .failure,c)
  | .done => match c.txn with
    | none => (.error .failure,c)
    | some _ => (.ok (),⟨c.durable,none⟩)

def execute (c : Connection) (s : Statement) : SqlOutcome → Except SqlError s.Result × Connection
  | .fault _ => (.error .failure,c)
  | .done => match s.run c.view with
    | .error e => (.error e,c)
    | .ok (result,t) => (.ok result,c.write t)

@[simp] theorem viewNone (t : Tables) : (Connection.mk t none).view = t := rfl
@[simp] theorem viewSome (t u : Tables) : (Connection.mk t (some u)).view = u := rfl
@[simp] theorem writeNone (t u : Tables) : (Connection.mk t none).write u = ⟨u,none⟩ := rfl
@[simp] theorem writeSome (t u v : Tables) :
    (Connection.mk t (some u)).write v = ⟨t,some v⟩ := rfl

theorem writeView (c : Connection) : c.write c.view = c := by
  obtain ⟨durable,txn⟩ := c
  cases txn <;> rfl

/-- A crash keeps what was committed and nothing else. -/
def reopen (c : Connection) : Connection := ⟨c.durable,none⟩

end Connection

/-! What the rows satisfy between statements that are not halves of one change. -/
structure Tables.Consistent (t : Tables) : Prop where
  claimKeys : t.claimKeys.Nodup
  jobIds : t.jobIds.Nodup
  receiptKeys : t.receiptKeys.Nodup
  receiptClaimed : ∀ r ∈ t.jobReceipts, ⟨r.key,.start⟩ ∈ t.mutationClaims
  startReceipted : ∀ c ∈ t.mutationClaims, c.takenBy = .start → c.key ∈ t.receiptKeys

namespace Tables
variable {t : Tables} {k : Key} {r : ReceiptRecord} {s : JobState}

theorem emptyConsistent : Consistent empty := by
  constructor <;> simp [empty,claimKeys,Tables.jobIds,receiptKeys]

/- Every update of receipt rows keeps the key columns. -/
def KeepsKey (f : ReceiptRecord → ReceiptRecord) : Prop := ∀ r, (f r).key = r.key

theorem receiptMap {f} (keep : KeepsKey f) : (t.mapReceipts f).receipt k = (t.receipt k).map f := by
  have same : ((fun r : ReceiptRecord => decide (r.key = k)) ∘ f) = fun r => decide (r.key = k) := by
    funext r
    simp only [Function.comp,keep r]
  simp only [receipt,mapReceipts,List.find?_map,same]

theorem receiptKeysMap {f} (keep : KeepsKey f) : (t.mapReceipts f).receiptKeys = t.receiptKeys := by
  simp only [receiptKeys,mapReceipts,List.map_map]
  exact List.map_congr_left fun r _ => keep r

theorem setStateKeeps (s : JobState) (jobId : String) :
    KeepsKey fun r => if r.jobId = jobId then {r with state := s} else r := by
  intro r; dsimp only; split <;> rfl

theorem setStateByRequestKeeps (s : JobState) (k : Key) :
    KeepsKey fun r => if r.key = k then {r with state := s} else r := by
  intro r; dsimp only; split <;> rfl

theorem bindJobKeeps (jobId : String) (s : JobState) (k : Key) :
    KeepsKey fun r => if r.key = k then {r with jobId := jobId, state := s} else r := by
  intro r; dsimp only; split <;> rfl

theorem markIncompleteKeeps (s : JobState) :
    KeepsKey fun r => if r.state = .pending ∨ r.state = .dispatched then {r with state := s} else r := by
  intro r; dsimp only; split <;> rfl

theorem jobIdsMap {f} (keep : ∀ r : ReceiptRecord, (f r).jobId = r.jobId) :
    (t.mapReceipts f).jobIds = t.jobIds := by
  simp only [Tables.jobIds,mapReceipts,List.map_map]
  exact List.map_congr_left fun r _ => keep r

theorem setStateJobIds (s : JobState) (jobId : String) : (t.setState s jobId).jobIds = t.jobIds :=
  jobIdsMap fun r => by split <;> rfl

theorem setStateByRequestJobIds (s : JobState) (k : Key) :
    (t.setStateByRequest s k).jobIds = t.jobIds :=
  jobIdsMap fun r => by split <;> rfl

theorem markIncompleteJobIds (s : JobState) : (t.markIncomplete s).jobIds = t.jobIds :=
  jobIdsMap fun r => by split <;> rfl

theorem Consistent.mapReceipts {f} (h : t.Consistent) (keep : KeepsKey f)
    (ids : (t.mapReceipts f).jobIds.Nodup) : (t.mapReceipts f).Consistent where
  claimKeys := h.claimKeys
  jobIds := ids
  receiptKeys := by rw [receiptKeysMap keep]; exact h.receiptKeys
  receiptClaimed r member := by
    obtain ⟨old,inside,rfl⟩ := List.mem_map.mp member
    rw [keep old]
    exact h.receiptClaimed old inside
  startReceipted c member taken := by rw [receiptKeysMap keep]; exact h.startReceipted c member taken

theorem Consistent.setState (h : t.Consistent) (s : JobState) (jobId : String) :
    (t.setState s jobId).Consistent :=
  h.mapReceipts (setStateKeeps s jobId)
    (by have ids := h.jobIds; rw [← setStateJobIds s jobId] at ids; exact ids)

theorem Consistent.setStateByRequest (h : t.Consistent) (s : JobState) (k : Key) :
    (t.setStateByRequest s k).Consistent :=
  h.mapReceipts (setStateByRequestKeeps s k)
    (by have ids := h.jobIds; rw [← setStateByRequestJobIds s k] at ids; exact ids)

theorem Consistent.markIncomplete (h : t.Consistent) (s : JobState) : (t.markIncomplete s).Consistent :=
  h.mapReceipts (markIncompleteKeeps s)
    (by have ids := h.jobIds; rw [← markIncompleteJobIds s] at ids; exact ids)

theorem Consistent.bindJob (h : t.Consistent) {jobId : String} {s : JobState}
    (ids : (t.bindJob jobId s k).jobIds.Nodup) : (t.bindJob jobId s k).Consistent :=
  h.mapReceipts (bindJobKeeps jobId s k) ids

theorem receiptMember (found : t.receipt k = some r) : r ∈ t.jobReceipts ∧ r.key = k := by
  refine ⟨List.mem_of_find?_eq_some found,?_⟩
  simpa using List.find?_some found

theorem receiptNone (absent : k ∉ t.receiptKeys) : t.receipt k = none := by
  refine List.find?_eq_none.mpr ?_
  intro r member same
  exact absent (List.mem_map.mpr ⟨r,member,by simpa using same⟩)

theorem receiptPresent (present : k ∈ t.receiptKeys) : ∃ r, t.receipt k = some r := by
  cases found : t.receipt k with
  | some r => exact ⟨r,rfl⟩
  | none =>
    obtain ⟨r,member,same⟩ := List.mem_map.mp present
    have never := List.find?_eq_none.mp found r member
    simp [same] at never

theorem Consistent.receiptUnique (h : t.Consistent) (member : r ∈ t.jobReceipts) :
    t.receipt r.key = some r := by
  obtain ⟨other,found⟩ := receiptPresent (List.mem_map.mpr ⟨r,member,rfl⟩ : r.key ∈ t.receiptKeys)
  have source := receiptMember found
  rw [found,List.inj_on_of_nodup_map h.receiptKeys source.1 member source.2]

theorem ownedMap {f} {clientId jobId : String} (keep : KeepsKey f)
    (ids : ∀ r : ReceiptRecord, (f r).jobId = r.jobId) (h : t.Owned clientId jobId) :
    (t.mapReceipts f).Owned clientId jobId := by
  obtain ⟨r,member,client,job⟩ := h
  refine ⟨f r,List.mem_map.mpr ⟨r,member,rfl⟩,?_,(ids r).trans job⟩
  exact (congrArg Key.clientId (keep r)).trans client

theorem ownedSetState {clientId id jobId : String} (h : t.Owned clientId id) :
    (t.setState s jobId).Owned clientId id :=
  ownedMap (setStateKeeps s jobId) (fun r => by split <;> rfl) h

theorem countOwned {clientId jobId : String}
    (positive : 0 < t.jobReceipts.countP (fun r => r.clientId = clientId ∧ r.jobId = jobId)) :
    t.Owned clientId jobId := by
  obtain ⟨r,member,owned⟩ := List.countP_pos_iff.mp positive
  exact ⟨r,member,by simpa using owned⟩

theorem stateOfMap {f} (keep : KeepsKey f) :
    (t.mapReceipts f).stateOf k = (t.receipt k).map fun r => (f r).state := by
  simp only [stateOf,receiptMap keep,Option.map_map,Function.comp_def]

theorem stateOfAbsent (absent : k ∉ t.receiptKeys) : t.stateOf k = none := by
  rw [stateOf,receiptNone absent,Option.map_none]

theorem stateOfMember (found : t.stateOf k = some s) :
    ∃ r, t.receipt k = some r ∧ r.state = s := Option.map_eq_some_iff.mp found

theorem receiptAdd : (t.addReceipt r).receipt k =
    (t.receipt k).or (if r.key = k then some r else none) := by
  simp only [receipt,addReceipt,List.find?_append,List.find?_singleton,decide_eq_true_eq]

theorem receiptRemove {other : Key} :
    (t.removeReceipts other).receipt k = if k = other then none else t.receipt k := by
  simp only [receipt,removeReceipts,List.find?_filter]
  split
  · rename_i same
    refine List.find?_eq_none.mpr ?_
    intro r _
    simp [same]
  · rename_i different
    congr 1
    funext r
    by_cases h : r.key = k <;> simp [h,different]

/-- No claim row, no receipt row. -/
theorem Consistent.unclaimed (h : t.Consistent) (absent : k ∉ t.claimKeys) : k ∉ t.receiptKeys := by
  intro present
  obtain ⟨r,member,same⟩ := List.mem_map.mp present
  exact absent (List.mem_map.mpr ⟨_,h.receiptClaimed r member,same⟩)

/-- One claim row a key: a key claimed by a cancellation has no receipt. -/
theorem Consistent.cancelUnreceipted (h : t.Consistent) {c : MutationClaim}
    (member : c ∈ t.mutationClaims) (other : c.takenBy ≠ .start) : c.key ∉ t.receiptKeys := by
  intro present
  obtain ⟨r,inside,same⟩ := List.mem_map.mp present
  have claim := h.receiptClaimed r inside
  have equal : c = ⟨r.key,.start⟩ :=
    List.inj_on_of_nodup_map h.claimKeys member claim same.symm
  exact other (by rw [equal])

theorem Consistent.claimStart (h : t.Consistent) (unclaimed : r.key ∉ t.claimKeys)
    (fresh : r.jobId ∉ t.jobIds) : ((t.addClaim ⟨r.key,.start⟩).addReceipt r).Consistent where
  claimKeys := by
    simp only [Tables.claimKeys,addReceipt,addClaim,List.map_append,List.map_cons,List.map_nil]
    exact h.claimKeys.append (by simp) (by simpa using unclaimed)
  jobIds := by
    simp only [Tables.jobIds,addReceipt,addClaim,List.map_append,List.map_cons,List.map_nil]
    exact h.jobIds.append (by simp) (by simpa using fresh)
  receiptKeys := by
    simp only [Tables.receiptKeys,addReceipt,addClaim,List.map_append,List.map_cons,List.map_nil]
    exact h.receiptKeys.append (by simp) (by simpa using h.unclaimed unclaimed)
  receiptClaimed x member := by
    rcases List.mem_append.mp member with old | new
    · exact List.mem_append_left _ (h.receiptClaimed x old)
    · rw [List.mem_singleton.mp new]
      exact List.mem_append_right _ (List.mem_singleton.mpr rfl)
  startReceipted c member taken := by
    simp only [Tables.receiptKeys,addReceipt,addClaim,List.map_append,List.mem_append]
    rcases List.mem_append.mp member with old | new
    · exact .inl (h.startReceipted c old taken)
    · rw [List.mem_singleton.mp new]
      exact .inr (List.mem_singleton.mpr rfl)

theorem Consistent.releaseStart (h : t.Consistent) (k : Key) :
    ((t.removeReceipts k).removeClaims k).Consistent where
  claimKeys := (List.filter_sublist.map _).nodup h.claimKeys
  jobIds := (List.filter_sublist.map _).nodup h.jobIds
  receiptKeys := (List.filter_sublist.map _).nodup h.receiptKeys
  receiptClaimed r member := by
    have source := List.mem_filter.mp member
    exact List.mem_filter.mpr ⟨h.receiptClaimed r source.1,by simpa using source.2⟩
  startReceipted c member taken := by
    have source := List.mem_filter.mp member
    obtain ⟨r,inside,same⟩ := List.mem_map.mp (h.startReceipted c source.1 taken)
    have different : c.key ≠ k := by simpa using source.2
    exact List.mem_map.mpr ⟨r,List.mem_filter.mpr ⟨inside,by simpa [same] using different⟩,same⟩

theorem Consistent.claimCancel (h : t.Consistent) (unclaimed : k ∉ t.claimKeys) :
    (t.addClaim ⟨k,.cancelAndSettle⟩).Consistent where
  claimKeys := by
    simp only [Tables.claimKeys,addClaim,List.map_append,List.map_cons,List.map_nil]
    exact h.claimKeys.append (by simp) (by simpa using unclaimed)
  jobIds := h.jobIds
  receiptKeys := h.receiptKeys
  receiptClaimed r member := List.mem_append_left _ (h.receiptClaimed r member)
  startReceipted c member taken := by
    rcases List.mem_append.mp member with old | new
    · exact h.startReceipted c old taken
    · rw [List.mem_singleton.mp new] at taken
      contradiction

/-- Deleting a claim row keeps agreement as long as no receipt stands on it. -/
theorem Consistent.releaseCancel (h : t.Consistent) (bare : k ∉ t.receiptKeys) :
    (t.removeClaims k).Consistent where
  claimKeys := (List.filter_sublist.map _).nodup h.claimKeys
  jobIds := h.jobIds
  receiptKeys := h.receiptKeys
  receiptClaimed r member := by
    refine List.mem_filter.mpr ⟨h.receiptClaimed r member,?_⟩
    have different : r.key ≠ k := fun same => bare (List.mem_map.mpr ⟨r,member,same⟩)
    simpa using different
  startReceipted c member taken := h.startReceipted c (List.mem_filter.mp member).1 taken

end Tables
end Northstar.Broker
