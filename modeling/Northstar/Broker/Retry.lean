import Northstar.Broker.Lifecycle

/-! Retries and duplicates: what a reply that the executor was not reached leaves
claimed, and whom a start is refused for. -/
namespace Northstar.Broker

/-! ## Replies that the executor was not reached -/

/-- A mutation about to be answered with runtime_unavailable although no byte of a
request was written for it. -/
def State.unavailable (s : State) : Option (RpcMethod × Key) :=
  match s.phase with
  | .handling _ session (.message (.request req)) since (.call (.send (.response r)) _) =>
      if replyErrorCode r.reply = some "runtime_unavailable" ∧ s.world.writes = since.writes ∧
          (req.request.method = .start ∨ req.request.method = .cancelAndSettle) then
        some (req.request.method,⟨session.elim "" (·.welcome.clientId),req.request.requestId⟩)
      else none
  | _ => none

/-- No statement has failed since the frame came in. -/
def State.Faultless (s : State) : Prop :=
  match s.phase with
  | .handling _ _ _ since _ => s.world.faults = since.faults
  | _ => True
instance (s : State) : Decidable s.Faultless := by unfold State.Faultless; split <;> infer_instance

/-- The error about to be sent. -/
def State.refusal (s : State) : Option String :=
  match s.phase with
  | .handling _ _ _ _ (.call (.send (.error e)) _) => some e.code
  | _ => none

/-- A start, and a cancellation in a broker without an executor, is no longer claimed
when the broker says the executor was not reached: the same request can be retried. -/
theorem unavailableReleased {cfg : Config} {events : List Event} {method : RpcMethod} {k : Key}
    (unavailable : (run cfg events).unavailable = some (method,k))
    (released : method = .start ∨ cfg.executor = false) (faultless : (run cfg events).Faultless) :
    ¬ Duplicates cfg method k (run cfg events).world.db.view := by
  have good : (run cfg events).Good cfg := runGood events
  generalize run cfg events = s at unavailable faultless good ⊢
  unfold State.unavailable at unavailable
  split at unavailable
  case h_2 => cases unavailable
  rename_i auth session req since r next at'
  split at unavailable
  case isFalse => cases unavailable
  rename_i unreached
  obtain ⟨rfl,rfl⟩ := Prod.mk.inj (Option.some.inj unavailable)
  have pending : s.pending = some (contextOf session (.message (.request req)) since,
      .send (.response r)) := by simp only [State.pending,at']
  have same : s.world.faults = since.faults := by
    simpa only [State.Faultless,at'] using faultless
  refine (pendingAllowed good pending).2 unreached.1 unreached.2.1 same req.request rfl ?_
  rcases unreached.2.2 with start | cancel
  · exact .inl start
  · refine .inr ⟨cancel,?_⟩
    rcases released with start | absent
    · rw [cancel] at start
      cases start
    · exact absent

theorem unexecutedStartReleased :
    ¬ Duplicates (smallConfig false []) .start ⟨"a","r"⟩
      (run (smallConfig false []) (startingR ++ answers 10 .null)).world.db.view :=
  unavailableReleased (by decide +kernel) (.inl rfl) (by decide +kernel)

/-- A run is started; a status request loses its reply, so the stream is dropped; the
executor cannot be reached again when the run is cancelled. -/
def unreachedCancelRun : List Event :=
  startingR ++ answers 24 startReply ++
  [frameA 2 .status "q" (.object [("runId",.string "runtime_1")])] ++ answers 7 .null ++
  [.answer failing] ++ answers 3 .null ++
  [frameA 3 .cancelAndSettle "x" cancelParams] ++ answers 4 .null ++ [.answer failing]

/-- The cancellation is answered runtime_unavailable with its claim kept, and the exact
same request is then refused. -/
theorem unreachedCancelKept :
    let cfg := smallConfig true [startReply]
    let s := run cfg unreachedCancelRun
    s.unavailable = some (.cancelAndSettle,⟨"a","x"⟩) ∧ s.Faultless ∧
    (⟨"a","x"⟩ : Key) ∈ s.world.db.durable.claimKeys ∧
    (run cfg (unreachedCancelRun ++ answers 2 .null ++
      [frameA 4 .cancelAndSettle "x" cancelParams] ++ answers 3 .null)).refusal =
      some "duplicate_mutation" := by
  decide +kernel

/-! ## Starts refused as duplicates -/

/-- The call refuses the request it is made for: by its error, or by a primary key. -/
def Refuses (w : World) : Op → Prop
  | .send (.error e) => e.code = "duplicate_mutation"
  | .sql (.insertClaim c) => c.key ∈ w.db.view.claimKeys
  | .sql (.insertReceipt r) => r.jobId ∈ w.db.view.jobIds
  | _ => False
instance (w : World) (op : Op) : Decidable (Refuses w op) := by
  unfold Refuses; split <;> infer_instance

def State.refusedStart (s : State) : Option Key :=
  match s.phase with
  | .handling _ session (.message (.request req)) _ (.call op _) =>
      if req.request.method = .start ∧ Refuses s.world op then
        some ⟨session.elim "" (·.welcome.clientId),req.request.requestId⟩
      else none
  | _ => none

theorem refusedDuplicates {cfg : Config} {x : Context} {w : World} {op : Op}
    {request : RuntimeRpcRequest} (truthful : x.Truthful cfg w op) (refuses : Refuses w op)
    (asked : x.request = some request) (start : request.method = .start) :
    Duplicates cfg .start (x.key request) w.db.durable := by
  unfold Refuses at refuses
  split at refuses
  · exact truthful refuses request asked start
  · obtain ⟨other,same,rfl,view⟩ := truthful
    cases Option.some.inj (asked.symm.trans same)
    rw [view start] at refuses
    exact .inl refuses
  · obtain ⟨other,same,own,named,ids⟩ := truthful
    cases Option.some.inj (asked.symm.trans same)
    rw [ids,named,own] at refuses
    exact .inr ⟨rfl,refuses⟩
  · exact refuses.elim

def repeatedStartRun : List Event :=
  startingR ++ answers 24 startReply ++ [frameA 2 .start "r" (.object [])] ++ answers 5 .null

/-- Client a:b starts c; then client a starts b:c for the first time. -/
def joinedRun : List Event :=
  booting ++ connecting claimsB ++ [frameB 1 .start "c" (.object [])] ++ answers 24 .null ++
  connecting claimsA ++ [frameA 1 .start "b:c" (.object [])] ++ answers 6 .null

end Northstar.Broker
