import Northstar.Broker.Runs

/-! What a run can do to a receipt: it is written at most once, its state moves along
the journal's edges only, and it agrees with the claims table at every crash point. -/
namespace Northstar.Broker

section
variable {cfg : Config}

theorem ledgerSound (cfg : Config) (events : List Event) :
    ∃ g, Ledger.Sound (provisionalJobId cfg) ((run cfg events).world.ledger g) := by
  obtain ⟨g,sound,_⟩ : (run cfg events).Good cfg := runGood events
  exact ⟨g,sound⟩

/-- Over any run, crashes and restarts included, no start is written to the executor
twice; a release comes only before the write. -/
theorem startWrittenOnce (cfg : Config) (events : List Event) (k : Key) :
    (run cfg events).world.started.count k ≤ 1 := by
  obtain ⟨_,sound⟩ := ledgerSound cfg events
  exact List.nodup_iff_count_le_one.mp sound.once k

/-! ## Receipt states -/

inductive Lifecycle : Option JobState → Option JobState → Prop where
  | stays (s) : Lifecycle s s
  | claimed : Lifecycle none (some .pending)
  | released : Lifecycle (some .pending) none
  | dispatched : Lifecycle (some .pending) (some .dispatched)
  | forgotten : Lifecycle (some .pending) (some .outcomeUnknown)
  | settled : Lifecycle (some .dispatched) (some .completed)
  | lost : Lifecycle (some .dispatched) (some .outcomeUnknown)
  | resolved : Lifecycle (some .outcomeUnknown) (some .completed)

/-- A completed receipt was named by a cancellation whose reply was lost or unusable. -/
def Unsettled (cfg : Config) (x : Context) (s : State) (k : Key) : Prop :=
  ∃ r, s.world.db.durable.receipt k = some r ∧ r.state = .completed ∧ x.CancelLost cfg s.world r.jobId

namespace Ledger
variable {provisional : Key → String} {l l' : Ledger} {label : Label}

theorem stateSame {t t' : Tables} (rows : t'.jobReceipts = t.jobReceipts) (k : Key) :
    t'.stateOf k = t.stateOf k := by simp only [Tables.stateOf,Tables.receipt,rows]

theorem completable (h : Sound provisional l) (clear : Clear l.inflight) {r : ReceiptRecord}
    (member : r ∈ l.tables.jobReceipts) :
    Lifecycle (some r.state) (some .completed) ∨ (0 < l.faults ∧ r.state = .pending) := by
  cases state : r.state with
  | completed => exact .inl (.stays _)
  | dispatched => exact .inl .settled
  | outcomeUnknown => exact .inl .resolved
  | pending =>
    refine .inr ⟨?_,rfl⟩
    by_contra never
    have up : l.inflight ≠ .down := by rcases clear with h | ⟨k,h⟩ <;> simp [h]
    have held := h.pendingNamed (by omega) up r member state
    rcases clear with idle | ⟨k,cancelling⟩
    · rw [idle] at held
      cases held
    · rw [cancelling] at held
      cases held

/-- One step moves one receipt along one edge; the two exceptions say what they are. -/
theorem stepLifecycle (h : Sound provisional l) (step : Step provisional label l l') (k : Key) :
    Lifecycle (l.tables.stateOf k) (l'.tables.stateOf k) ∨
    (0 < l.faults ∧ l.tables.stateOf k = some .pending ∧ l'.tables.stateOf k = some .completed) ∨
    (∃ r, label = .markUnknown r.jobId ∧ l.tables.receipt k = some r ∧ r.state = .completed ∧
      l'.tables.stateOf k = some .outcomeUnknown) := by
  have same : l'.tables.jobReceipts = l.tables.jobReceipts →
      Lifecycle (l.tables.stateOf k) (l'.tables.stateOf k) := by
    intro rows
    rw [stateSame rows]
    exact .stays _
  -- a row rewrite, looked at where the key has a row
  have mapped : ∀ {f : ReceiptRecord → ReceiptRecord}, Tables.KeepsKey f →
      l'.tables = l.tables.mapReceipts f → ∀ {P : Prop},
      (∀ r, l.tables.receipt k = some r → l.tables.stateOf k = some r.state →
        l'.tables.stateOf k = some (f r).state → P) →
      (Lifecycle (l.tables.stateOf k) (l'.tables.stateOf k) → P) → P := by
    intro f keep rows P present absent
    cases found : l.tables.receipt k with
    | none =>
      refine absent ?_
      have before : l.tables.stateOf k = none := by simp only [Tables.stateOf,found,Option.map_none]
      have after : l'.tables.stateOf k = none := by
        rw [rows,Tables.stateOfMap keep,found,Option.map_none]
      rw [before,after]
      exact .stays _
    | some r =>
      refine present r found ?_ ?_
      · simp only [Tables.stateOf,found,Option.map_some]
      · rw [rows,Tables.stateOfMap keep,found,Option.map_some]
  cases step with
  | quiet tables => exact .inl (same (by rw [tables]))
  | migrate | claimCancel | releaseCancel | write | rest | halt => exact .inl (same rfl)
  | recover =>
    refine mapped (Tables.markIncompleteKeeps .outcomeUnknown) rfl ?_ .inl
    intro r _ before after
    rw [before,after]
    left
    by_cases incomplete : r.state = .pending ∨ r.state = .dispatched
    · rw [if_pos incomplete]
      rcases incomplete with h | h
      · rw [h]; exact .forgotten
      · rw [h]; exact .lost
    · rw [if_neg incomplete]
      exact .stays _
  | @claim t s b f r named state unclaimed fresh =>
    left
    by_cases own : r.key = k
    · have absent : t.receipt k = none := by
        rw [← own]
        exact Tables.receiptNone (h.consistent.unclaimed unclaimed)
      have before : t.stateOf k = none := by simp only [Tables.stateOf,absent,Option.map_none]
      have after : ((t.addClaim ⟨r.key,.start⟩).addReceipt r).stateOf k = some .pending := by
        rw [Tables.stateOf,Tables.receiptAdd,show (t.addClaim ⟨r.key,.start⟩).receipt k = none from absent]
        simp [own,state]
      rw [before,after]
      exact .claimed
    · have after : ((t.addClaim ⟨r.key,.start⟩).addReceipt r).stateOf k = t.stateOf k := by
        rw [Tables.stateOf,Tables.receiptAdd,if_neg own,Option.or_none]
        rfl
      rw [after]
      exact .stays _
  | @release t s b f k' =>
    left
    have after : ((t.removeReceipts k').removeClaims k').stateOf k =
        if k = k' then none else t.stateOf k := by
      rw [Tables.stateOf,show ((t.removeReceipts k').removeClaims k').receipt k =
        (t.removeReceipts k').receipt k from rfl,Tables.receiptRemove]
      split <;> rfl
    rw [after]
    split
    · rename_i own
      have before : t.stateOf k' = some .pending := h.control.1
      rw [own,before]
      exact .released
    · exact .stays _
  | @dispatch t s b f k' =>
    refine mapped (Tables.setStateByRequestKeeps .dispatched k') rfl ?_ .inl
    intro r found before after
    rw [after]
    left
    split
    · rename_i own
      rw [show k = k' from (Tables.receiptMember found).2.symm.trans own,
        show t.stateOf k' = some .pending from h.control.1]
      exact .dispatched
    · rw [before]
      exact .stays _
  | @settle t s b f k' state g reached final =>
    refine mapped (Tables.setStateByRequestKeeps state k') rfl ?_ .inl
    intro r found before after
    rw [after]
    left
    split
    · rename_i own
      have dispatched : t.stateOf k' = some .dispatched := by
        rcases reached with rfl | rfl
        · exact h.control.1
        · exact h.control
      rw [show k = k' from (Tables.receiptMember found).2.symm.trans own,dispatched]
      rcases final with rfl | rfl
      · exact .settled
      · exact .lost
    · rw [before]
      exact .stays _
  | @bind t s b f k' jobId unique issued =>
    refine mapped (Tables.bindJobKeeps jobId .dispatched k') rfl ?_ .inl
    intro r found before after
    rw [after]
    left
    split
    · rename_i own
      rw [show k = k' from (Tables.receiptMember found).2.symm.trans own,
        show t.stateOf k' = some .dispatched from h.control]
      exact .stays _
    · rw [before]
      exact .stays _
  | @complete t s b f g jobId clear =>
    refine mapped (Tables.setStateKeeps .completed jobId) rfl ?_ .inl
    intro r found before after
    rw [before,after]
    split
    · rcases completable h clear (Tables.receiptMember found).1 with edge | ⟨faults,pending⟩
      · exact .inl edge
      · exact .inr (.inl ⟨faults,by rw [pending],rfl⟩)
    · exact .inl (.stays _)
  | @markUnknown t s b f g jobId clear =>
    refine mapped (Tables.setStateKeeps .outcomeUnknown jobId) rfl ?_ .inl
    intro r found before after
    rw [before,after]
    split
    · rename_i named
      cases state : r.state with
      | pending => exact .inl .forgotten
      | dispatched => exact .inl .lost
      | outcomeUnknown => exact .inl (.stays _)
      | completed => exact .inr (.inr ⟨r,by rw [named],found,state,rfl⟩)
    · exact .inl (.stays _)

end Ledger

/-- Every event moves every receipt along an edge of the lifecycle. A receipt that a
failed statement left pending can also be settled, and a completed one is only ever
touched by a cancellation that names it and loses its reply. -/
theorem receiptLifecycle (cfg : Config) (events : List Event) (e : Event) (k : Key) :
    let s := run cfg events
    let before := s.world.db.durable.stateOf k
    let after := (step cfg s e).world.db.durable.stateOf k
    Lifecycle before after ∨
    (0 < s.world.faults ∧ before = some .pending ∧ after = some .completed) ∨
    (∃ x op, s.pending = some (x,op) ∧ Unsettled cfg x s k ∧ after = some .outcomeUnknown) := by
  intro s before after
  obtain ⟨g,sound,phase⟩ : s.Good cfg := runGood events
  obtain ⟨label,g',moves,_,attributed⟩ := transitionGood (stepTransition cfg s e) phase
  rcases Ledger.stepLifecycle sound moves k with edge | pending | ⟨r,rfl,found,completed,unknown⟩
  · exact .inl edge
  · exact .inr (.inl pending)
  · refine .inr (.inr ?_)
    rcases attributed with process | ⟨_,process⟩ | ⟨x,op,pending,permits⟩
    · rcases process with h | h | h <;> cases h
    · rcases process with h | h <;> cases h
    · exact ⟨x,op,pending,⟨r,found,completed,permits.2⟩,unknown⟩

/-- The state of one receipt before and after the last event of a run. -/
def lastMove (cfg : Config) (events : List Event) (e : Event) (k : Key) :
    Option JobState × Option JobState :=
  let s := run cfg events
  (s.world.db.durable.stateOf k,(step cfg s e).world.db.durable.stateOf k)

def startingR : List Event := booting ++ connecting claimsA ++ [frameA 1 .start "r" (.object [])]

/-- Killed between claim and dispatch, then restarted up to recovery's one statement. -/
def recoveryRun : List Event :=
  startingR ++ answers 6 .null ++ [.crash,.boot smallAuth] ++ answers 3 .null

def provisionalR : String := "runtime_pending_2cedb8b376ad2ff442f6cbbfa17a960a"
def statusReply : Value := executorReply .status "q"
  (.object [("runId",.string provisionalR),("state",.string "completed")])

/-- The release of a start fails, so its row stays pending, and its provisional id is
asked about like any run id. -/
def leftPendingRun : List Event :=
  startingR ++ answers 7 .null ++ List.replicate 2 (.answer failing) ++ answers 2 .null ++
  [frameA 2 .status "q" (.object [("runId",.string provisionalR)])] ++ answers 14 statusReply

def startReply : Value := executorReply .start "r" (.object [("runId",.string "runtime_1")])
def resultReply : Value := executorReply .result "q" (.object [])
def cancelParams : Value :=
  .object [("runIds",.array [.string "runtime_1"]),("settlementWindowMs",natural 1)]

/-- A settled run is named by a cancellation whose reply does not come. -/
def lostCancelRun : List Event :=
  startingR ++ answers 24 startReply ++
  [frameA 2 .result "q" (.object [("runId",.string "runtime_1")])] ++ answers 24 resultReply ++
  [frameA 3 .cancelAndSettle "x" cancelParams] ++ answers 8 .null ++ [.answer failing] ++
  answers 3 .null

theorem lifecycleExceptions :
    lastMove (smallConfig true []) recoveryRun (.answer (smooth "" [])) ⟨"a","r"⟩ =
      (some .pending,some .outcomeUnknown) ∧
    lastMove (smallConfig true [statusReply]) leftPendingRun (.answer (smooth "" [])) ⟨"a","r"⟩ =
      (some .pending,some .completed) ∧
    lastMove (smallConfig true [startReply,resultReply]) lostCancelRun (.answer (smooth "" []))
      ⟨"a","r"⟩ = (some .completed,some .outcomeUnknown) := by
  refine ⟨?_,?_,?_⟩ <;> decide +kernel

/-! ## Claims and receipts -/

/-- Claims and receipts at one crash point: every receipt is claimed, once, and every
start's claim has a receipt, which querySubmission shows unless the start failed for good. -/
structure Agreement (t : Tables) : Prop where
  claimed : ∀ r ∈ t.jobReceipts, r.key ∈ t.claimKeys
  single : t.receiptKeys.Nodup
  found : ∀ c ∈ t.mutationClaims, c.takenBy = .start → ∃ r, t.receipt c.key = some r ∧
    (DefinitelyFailed r ∨ ∃ shown, t.submission c.key = some shown ∧ shown.jobId = r.jobId ∧
      shown.clientId = c.key.clientId ∧ shown.requestId = c.key.requestId)

theorem consistentAgreement {t : Tables} (h : t.Consistent) : Agreement t where
  claimed r member := List.mem_map.mpr ⟨_,h.receiptClaimed r member,rfl⟩
  single := h.receiptKeys
  found c member taken := by
    obtain ⟨r,found⟩ := Tables.receiptPresent (h.startReceipted c member taken)
    refine ⟨r,found,?_⟩
    by_cases failed : DefinitelyFailed r
    · exact .inl failed
    · have key := (Tables.receiptMember found).2
      refine .inr ⟨_,by rw [Tables.submission,found,Option.bind_some,submissionReceipt,if_neg failed],
        rfl,congrArg Key.clientId key,congrArg Key.requestId key⟩

/-- In every durable state a run can reach, and in every answer to querySubmission. -/
theorem claimAgreement (cfg : Config) (events : List Event) :
    Agreement (run cfg events).world.db.durable ∧
    ∀ x r query, (run cfg events).pending = some (x,.send (.queryResponse r)) →
      x.query = some query →
      r.receipt = (run cfg events).world.db.view.submission ⟨x.clientId,query.requestId⟩ := by
  obtain ⟨_,sound⟩ := ledgerSound cfg events
  refine ⟨consistentAgreement sound.consistent,?_⟩
  intro x r query pending asked
  exact (pendingAllowed (runGood events) pending).2 query asked

def refusedReply : Value := failureReply .start "r" "invalid_request" "rejected"

/-- The executor refuses a start: its claim stays and its receipt is not shown. -/
def refusedRun : List Event := startingR ++ answers 24 refusedReply

theorem refusedStartHidden :
    let t := (run (smallConfig true [refusedReply]) refusedRun).world.db.durable
    (⟨⟨"a","r"⟩,.start⟩ : MutationClaim) ∈ t.mutationClaims ∧ t.submission ⟨"a","r"⟩ = none := by
  decide +kernel

end
end Northstar.Broker
