import Northstar.Broker.Exchange

/-! Every handler keeps the guarantee. A handling starts idle and ends rested: no
start is left pending unless a statement failed on the way. -/
namespace Northstar.Broker

/-- What is true of the world between two frames. -/
def Rested {α : Type} (_ : α) (w : World) (g : Inflight) : Prop :=
  w.Calm ∧ g ≠ .down ∧ ∀ k, g = .pending k → 0 < w.faults

section
variable {cfg : Config} {x : Context} {w : World} {g : Inflight} {session : Session}
  {sequence : Int} {request : RuntimeRpcRequest}

theorem restedSteady {α β : Type} {a : α} {b : β} {w' : World} (h : Rested a w g) (steady : w.Steady w') :
    Rested b w' g := ⟨steady.calm h.1,h.2.1,fun k same => steady.faults ▸ h.2.2 k same⟩

theorem restedClear {α : Type} {a : α} (calm : w.Calm) (clear : Clear g) : Rested a w g := by
  refine ⟨calm,?_,?_⟩ <;> rcases clear with rfl | ⟨k,rfl⟩ <;> simp

theorem restedWritten {α : Type} {a : α} {k : Key} (calm : w.Calm)
    (reached : g = .dispatched k ∨ g = .written k ∨ g = .idle) : Rested a w g := by
  refine ⟨calm,?_,?_⟩ <;> rcases reached with rfl | rfl | rfl <;> simp

/-! ## Messages -/

theorem sendMsgHarmless {message : BrokerMessage} (harmless : Harmless (.send message)) :
    (sendMsg message).All Harmless fun _ => True := by
  unfold sendMsg
  split
  · trivial
  · exact ⟨harmless,fun _ => trivial⟩

theorem sendErrorHarmless {code : String} (other : code ≠ "duplicate_mutation") :
    (sendError code).All Harmless fun _ => True :=
  Program.allBind (sendMsgHarmless (show Harmless (.send (.error ⟨2,"error",code⟩)) from other))
    fun _ _ => trivial

theorem refuseHarmless {code : String} (other : code ≠ "duplicate_mutation") :
    (refuse code).All Harmless fun _ => True :=
  Program.allBind (sendErrorHarmless other) fun _ _ => trivial

theorem closeHarmless {code : String} (other : code ≠ "duplicate_mutation") :
    (close code).All Harmless fun out => out = none :=
  Program.allBind (sendErrorHarmless other) fun _ _ => rfl

theorem sendErrorEnsures {code : String}
    (truthful : x.Truthful cfg w (.send (.error ⟨2,"error",code⟩))) :
    machine.Ensures (Allowed cfg x) (sendError code) (fun _ w' g' => w.Steady w' ∧ g' = g) w g := by
  refine Machine.ensuresThen (sendMsgEnsures truthful) ?_
  rintro sent w' g' h
  exact h

theorem refuseEnsures {code : String} (truthful : x.Truthful cfg w (.send (.error ⟨2,"error",code⟩)))
    (rested : Rested () w g) : machine.Ensures (Allowed cfg x) (refuse code) Rested w g := by
  refine Machine.ensuresThen (sendErrorEnsures truthful) ?_
  rintro sent w' g' ⟨steady,rfl⟩
  exact restedSteady rested steady

theorem otherCode {code : String} (other : code ≠ "duplicate_mutation") :
    x.Truthful cfg w (.send (.error ⟨2,"error",code⟩)) := fun same => absurd same other

theorem invalidFrame (rested : Rested () w g) :
    machine.Ensures (Allowed cfg x) (refuse "invalid_frame") Rested w g :=
  refuseEnsures (otherCode (by decide)) rested

theorem closeEnsures {code : String} (other : code ≠ "duplicate_mutation") (rested : Rested () w g) :
    machine.Ensures (Allowed cfg x) (close code) Rested w g := by
  refine Machine.ensuresMono ?_ (harmlessEnsures (closeHarmless other))
  rintro out w' g' ⟨steady,rfl,_⟩
  exact restedSteady rested steady

theorem sendReplyEnsures {reply : Value}
    (truthful : x.Truthful cfg w (.send (.response ⟨2,"response",sequence,reply⟩)))
    (rested : Rested () w g) :
    machine.Ensures (Allowed cfg x) (sendReply sequence reply) Rested w g := by
  refine Machine.ensuresMono ?_ (sendMsgEnsures truthful)
  rintro sent w' g' ⟨steady,rfl⟩
  exact restedSteady rested steady

@[simp] theorem failureReplyCode {method : RpcMethod} {requestId code message : String} :
    replyErrorCode (failureReply method requestId code message) = some code := rfl

theorem failureReplyEchoes {code message : String} :
    replyEchoes request (failureReply request.method request.requestId code message) = true := by
  have first : (failureReply request.method request.requestId code message).getStr "requestId" =
      some request.requestId := rfl
  have second : (failureReply request.method request.requestId code message).getStr "method" =
      some request.method.wire := rfl
  have third : ((failureReply request.method request.requestId code message).get "success").bind
      Value.asBool = some false := rfl
  simp only [replyEchoes,first,second,third,beq_self_eq_true,Option.isSome_some,Bool.and_self]

/- The executor was reached in this handling, or the code is another one. -/
theorem reachedTruthful {reply : Value} (reached : x.since.writes < w.writes) :
    x.Truthful cfg w (.send (.response ⟨2,"response",sequence,reply⟩)) := by
  intro _ same
  omega

theorem otherReply {reply : Value} (other : replyErrorCode reply ≠ some "runtime_unavailable") :
    x.Truthful cfg w (.send (.response ⟨2,"response",sequence,reply⟩)) :=
  fun same => absurd same other

/-! ## start -/

/-- The handling of one start: whose it is, and what it looked like when it came in. -/
structure StartOf (x : Context) (session : Session) (request : RuntimeRpcRequest) : Prop where
  client : session.welcome.clientId = x.clientId
  asked : x.request = some request
  method : request.method = .start

theorem settleMoves {s : JobState} (starts : StartOf x session request)
    (reached : g = .dispatched (x.key request) ∨ g = .written (x.key request))
    (final : s = .completed ∨ s = .outcomeUnknown) :
    Moves cfg x w g (w.db.durable.setStateByRequest s
      ⟨session.welcome.clientId,request.requestId⟩) .idle := by
  intro v _ durable
  refine ⟨.settle (x.key request) s,?_,rfl⟩
  rw [starts.client]
  simp only [World.ledger,durable]
  exact .settle reached final

theorem startUnknownEnsures (starts : StartOf x session request) (calm : w.Calm)
    (reached : g = .dispatched (x.key request) ∨ g = .written (x.key request)) :
    machine.Ensures (Allowed cfg x) (startUnknown session request)
      (fun _ w' g' => w.DbOnly w' ∧ Rested () w' g') w g := by
  refine Machine.ensuresThen (transitionByRequestEnsures calm starts.client
    (settleMoves starts reached (.inr rfl))) ?_
  rintro reply w' g' moved
  cases reply with
  | ok =>
    obtain ⟨kept,db,rfl⟩ := moved
    exact ⟨kept,restedClear (.inl (by rw [db])) (.inl rfl)⟩
  | error e =>
    obtain ⟨kept,_,calm',_,_,rfl⟩ := moved
    exact ⟨kept,restedWritten calm' (reached.imp_right .inl)⟩

theorem startUnusableEnsures (starts : StartOf x session request) (calm : w.Calm)
    (reached : g = .dispatched (x.key request) ∨ g = .written (x.key request)) :
    machine.Ensures (Allowed cfg x) (startUnusable session request) Rested w g := by
  refine Machine.ensuresThen (startUnknownEnsures starts calm reached) ?_
  rintro _ w' g' ⟨_,rested⟩
  exact invalidFrame rested

theorem startTimeoutEnsures {message : String} (starts : StartOf x session request) (calm : w.Calm)
    (reached : g = .dispatched (x.key request) ∨ g = .written (x.key request)) :
    machine.Ensures (Allowed cfg x) (startTimeout session sequence request message) Rested w g := by
  refine Machine.ensuresThen (startUnknownEnsures starts calm reached) ?_
  rintro _ w' g' ⟨_,rested⟩
  exact sendReplyEnsures (otherReply (by simp)) rested

theorem settleStartEnsures {replyBytes : Bytes} (starts : StartOf x session request) (calm : w.Calm)
    (reached : x.since.writes < w.writes) (control : g = .written (x.key request)) :
    machine.Ensures (Allowed cfg x) (settleStart cfg session sequence request replyBytes) Rested w g := by
  have unusable : machine.Ensures (Allowed cfg x) (startUnusable session request) Rested w g :=
    startUnusableEnsures starts calm (.inr control)
  unfold settleStart
  split
  · exact unusable
  split
  · exact unusable
  split
  · split
    · exact unusable
    · subst control
      refine Machine.ensuresThen (bindEnsures calm starts.client
        (by simp only [Context.key,starts.client])) ?_
      rintro reply w' g' ⟨kept,calm',bound⟩
      cases reply with
      | error e =>
        obtain ⟨_,rfl⟩ := bound
        exact startUnusableEnsures starts calm' (.inr rfl)
      | ok =>
        subst bound
        exact sendReplyEnsures (reachedTruthful (by rw [kept.writes]; exact reached))
          (restedClear calm' (.inl rfl))
  · refine Machine.ensuresThen (transitionByRequestEnsures calm starts.client
      (settleMoves starts (.inr control) (.inl rfl))) ?_
    rintro reply w' g' moved
    cases reply with
    | error e =>
      obtain ⟨_,_,calm',_,_,rfl⟩ := moved
      exact invalidFrame (restedWritten calm' (.inr (.inl control)))
    | ok =>
      obtain ⟨kept,db,rfl⟩ := moved
      exact sendReplyEnsures (reachedTruthful (by rw [kept.writes]; exact reached))
        (restedClear (.inl (by rw [db])) (.inl rfl))

theorem startWrites (starts : StartOf x session request) :
    Writes cfg x w session.welcome.clientId request (.dispatched (x.key request))
      (.written (x.key request)) := by
  intro v frame _
  have nothing : forwardedRunIds request = [] := by simp only [forwardedRunIds,starts.method]
  refine ⟨⟨starts.client,by rw [nothing]; simp⟩,.write (x.key request),?_,rfl⟩
  simp only [World.ledger,World.noteWrite,starts.method,if_true,starts.client]
  exact .write

/- Releasing leaves neither of the two rows the claim brought. -/
theorem releasedNotDuplicate {t : Tables} {r : ReceiptRecord} (unclaimed : r.jobId ∉ t.jobIds)
    (named : r.jobId = provisionalJobId cfg r.key) :
    ¬ Duplicates cfg .start r.key
      ((((t.addClaim ⟨r.key,.start⟩).addReceipt r).removeReceipts r.key).removeClaims r.key) := by
  rintro (claimed | ⟨_,taken⟩)
  · obtain ⟨c,member,same⟩ := List.mem_map.mp claimed
    have other := (List.mem_filter.mp member).2
    simp [same] at other
  · obtain ⟨row,member,same⟩ := List.mem_map.mp taken
    have inside := List.mem_filter.mp member
    rcases List.mem_append.mp inside.1 with old | new
    · exact unclaimed (List.mem_map.mpr ⟨row,old,same.trans named.symm⟩)
    · rw [List.mem_singleton.mp new] at inside
      simp at inside

/-- After a start's claim: the rows it stands on, and nothing written yet. -/
structure Pending (cfg : Config) (x : Context) (request : RuntimeRpcRequest) (w : World) : Prop where
  row : ∃ (t : Tables) (r : ReceiptRecord), w.db = ⟨(t.addClaim ⟨r.key,.start⟩).addReceipt r,none⟩ ∧
    r.key = x.key request ∧ r.jobId = provisionalJobId cfg r.key ∧ r.jobId ∉ t.jobIds
  since : x.since.faults ≤ w.faults

theorem pendingCalm (h : Pending cfg x request w) : w.Calm := by
  obtain ⟨t,r,db,_⟩ := h.row
  exact .inl (by rw [db])

theorem pendingSteady {w' : World} (h : Pending cfg x request w) (steady : w.Steady w') :
    Pending cfg x request w' :=
  ⟨by rw [steady.db]; exact h.row,by rw [steady.faults]; exact h.since⟩

/-- A start whose dispatch is provably absent: released, or a statement failed. -/
theorem releaseStartEnsures (starts : StartOf x session request) (pending : Pending cfg x request w) :
    machine.Ensures (Allowed cfg x) (releaseStartArtifacts session.welcome.clientId request.requestId)
      (fun _ w' g' => Rested () w' g' ∧ ∀ sequence reply, x.Truthful cfg w'
        (.send (.response ⟨2,"response",sequence,reply⟩))) w (.pending (x.key request)) := by
  obtain ⟨t,r,db,key,named,fresh⟩ := pending.row
  have moves : Moves cfg x w (.pending (x.key request))
      ((w.db.durable.removeReceipts ⟨session.welcome.clientId,request.requestId⟩).removeClaims
        ⟨session.welcome.clientId,request.requestId⟩) .idle := by
    intro v _ durable
    refine ⟨.release (x.key request),?_,rfl⟩
    rw [starts.client]
    simp only [World.ledger,durable]
    exact .release
  refine Machine.ensuresMono ?_ (releaseEnsures (pendingCalm pending) starts.client moves)
  rintro reply w' g' moved
  cases reply with
  | ok =>
    obtain ⟨_,db',rfl⟩ := moved
    refine ⟨restedClear (.inl (by rw [db'])) (.inl rfl),?_⟩
    intro sequence reply _ _ _ other asked _
    cases Option.some.inj (starts.asked.symm.trans asked)
    rw [starts.method,db',db,Connection.viewNone,starts.client]
    have released := releasedNotDuplicate fresh named
    rw [key] at released
    rw [key]
    exact released
  | error e =>
    obtain ⟨_,_,calm,faults,counted,rfl⟩ := moved
    refine ⟨⟨calm,by simp,fun k _ => faults⟩,?_⟩
    intro sequence reply _ _ same
    have more := counted (by rw [db])
    have since := pending.since
    omega

theorem dispatchStartEnsures (starts : StartOf x session request)
    (pending : Pending cfg x request w) (writes : x.since.writes ≤ w.writes) :
    machine.Ensures (Allowed cfg x) (dispatchStart cfg session sequence request) Rested w
      (.pending (x.key request)) := by
  refine harmlessThen prepareHarmless ?_
  intro prepared v steady _
  have pending' := pendingSteady pending steady
  cases prepared with
  | error e =>
    refine Machine.ensuresThen (releaseStartEnsures starts pending') ?_
    rintro _ u h ⟨rested,truthful⟩
    refine Machine.ensuresThen (sendMsgEnsures (truthful _ _)) ?_
    rintro _ z h' ⟨steady',rfl⟩
    exact restedSteady rested steady'
  | ok =>
    have moves : Moves cfg x v (.pending (x.key request)) (v.db.durable.setStateByRequest .dispatched
        ⟨session.welcome.clientId,request.requestId⟩) (.dispatched (x.key request)) := by
      intro u _ durable
      refine ⟨.dispatch (x.key request),?_,rfl⟩
      rw [starts.client]
      simp only [World.ledger,durable]
      exact .dispatch
    refine Machine.ensuresThen (transitionByRequestEnsures (pendingCalm pending') starts.client moves) ?_
    rintro reply u h moved
    cases reply with
    | error e =>
      obtain ⟨_,_,calm,faults,_,rfl⟩ := moved
      exact invalidFrame ⟨calm,by simp,fun k _ => faults⟩
    | ok =>
      obtain ⟨kept,db,rfl⟩ := moved
      have calm : u.Calm := .inl (by rw [db])
      refine Machine.ensuresThen (executePreparedEnsures (startWrites starts)) ?_
      rintro reply z h replied
      have exchanged : ∀ z, Exchanged u z → z.Calm ∧ x.since.writes < z.writes := by
        intro z e
        have counted := e.writes
        have before := kept.writes
        have already := steady.writes
        exact ⟨.inl (by rw [e.db,db]),by omega⟩
      cases reply with
      | ok body =>
        obtain ⟨e,_,rfl⟩ := replied
        exact settleStartEnsures starts (exchanged z e).1 (exchanged z e).2 rfl
      | error failure =>
        cases failure with
        | beforeDispatch m =>
          obtain ⟨steady',rfl⟩ := replied
          exact startTimeoutEnsures starts (steady'.calm calm) (.inl rfl)
        | afterDispatch m =>
          obtain ⟨e,_,rfl⟩ := replied
          exact startTimeoutEnsures starts (exchanged z e).1 (.inr rfl)

theorem handleStartEnsures (starts : StartOf x session request) (calm : w.Calm)
    (arrived : x.since.Steady w) :
    machine.Ensures (Allowed cfg x) (handleStart cfg session sequence request) Rested w .idle := by
  refine quietThen trivial ?_
  intro submittedAt v steady
  have key : (pendingReceipt cfg ⟨session.welcome.clientId,request.requestId⟩ submittedAt
      (cfg.sha256Hex (requestJson request))).key = x.key request := by
    simp only [Context.key,← starts.client]
    rfl
  refine Machine.ensuresThen (claimStartEnsures (steady.calm calm) starts.asked starts.method key
    rfl rfl) ?_
  rintro reply u h claimed
  cases reply with
  | error e =>
    obtain ⟨_,durable,calm',rfl,duplicates⟩ := claimed
    have rested : Rested () u .idle := restedClear calm' (.inl rfl)
    cases e with
    | duplicate =>
      refine refuseEnsures ?_ rested
      intro _ other asked _
      cases Option.some.inj (starts.asked.symm.trans asked)
      rw [durable,← key]
      exact duplicates rfl
    | sql _ | payloadTooLarge | invalidState _ | schemaMismatch _ _ => exact invalidFrame rested
  | ok =>
    obtain ⟨kept,db,rfl,_,fresh⟩ := claimed
    rw [key]
    have pending : Pending cfg x request u := by
      refine ⟨⟨_,_,db,key,rfl,fresh⟩,?_⟩
      have started := arrived.faults
      have quiet := steady.faults
      have more := kept.faults
      omega
    dsimp only
    split
    · refine dispatchStartEnsures starts pending ?_
      rw [kept.writes,steady.writes,arrived.writes]
    · refine Machine.ensuresThen (releaseStartEnsures starts pending) ?_
      rintro _ z h ⟨rested,truthful⟩
      exact sendReplyEnsures (truthful _ _) rested

/-! ## negotiate, status, result -/

/-- A request whose runtime_unavailable replies promise nothing about claims. -/
theorem readTruthful {reply : Value} (asked : x.request = some request)
    (start : request.method ≠ .start) (cancel : request.method ≠ .cancelAndSettle) :
    x.Truthful cfg w (.send (.response ⟨2,"response",sequence,reply⟩)) := by
  intro _ _ _ other same reason
  cases Option.some.inj (asked.symm.trans same)
  rcases reason with h | ⟨h,_⟩
  · exact absurd h start
  · exact absurd h cancel

theorem quietWrites (client : session.welcome.clientId = x.clientId) (start : request.method ≠ .start)
    (owned : ∀ id ∈ forwardedRunIds request, w.db.view.Owned x.clientId id) :
    Writes cfg x w session.welcome.clientId request g g := by
  intro v frame steady
  refine ⟨⟨client,fun id member => by rw [steady.db]; exact owned id member⟩,.quiet,?_,trivial⟩
  refine .quiet rfl ?_ (fun _ member => member) (Nat.le_refl _) rfl
  simp only [World.ledger,World.noteWrite,if_neg start]

theorem completeEnsures {jobId : String} (calm : w.Calm) (clear : Clear g)
    (owned : w.db.view.Owned x.clientId jobId) :
    machine.Ensures (Allowed cfg x) (transitionJob jobId .completed)
      (fun _ w' h => w.DbOnly w' ∧ w'.Calm ∧ h = g ∧
        ∀ id, w.db.view.Owned x.clientId id → w'.db.view.Owned x.clientId id) w g :=
  transitionJobEnsures calm owned fun _ _ mine =>
    ⟨.complete jobId,fun _ _ _ => .complete clear,mine⟩

theorem settleReadEnsures {reply : Value} {ownedRunId : Option String} (calm : w.Calm)
    (owned : ∀ id, ownedRunId = some id → w.db.view.Owned x.clientId id) :
    machine.Ensures (Allowed cfg x) (settleRead request reply ownedRunId) Rested w .idle := by
  have rested : Rested () w .idle := restedClear calm (.inl rfl)
  unfold settleRead
  split
  · exact rested
  · split
    · refine Machine.ensuresThen (completeEnsures calm (.inl rfl) (owned _ rfl)) ?_
      rintro _ w' g' ⟨_,calm',rfl,_⟩
      exact restedClear calm' (.inl rfl)
    · exact rested

theorem forwardReadEnsures {ownedRunId : Option String} (client : session.welcome.clientId = x.clientId)
    (asked : x.request = some request) (start : request.method ≠ .start)
    (cancel : request.method ≠ .cancelAndSettle) (calm : w.Calm)
    (owned : ∀ id, ownedRunId = some id → w.db.view.Owned x.clientId id)
    (forwarded : ∀ id ∈ forwardedRunIds request, w.db.view.Owned x.clientId id) :
    machine.Ensures (Allowed cfg x) (forwardRead cfg session sequence request ownedRunId) Rested w
      .idle := by
  have answer : ∀ v reply, v.Calm →
      machine.Ensures (Allowed cfg x) (sendReply sequence reply) Rested v .idle :=
    fun v reply calm => sendReplyEnsures (readTruthful asked start cancel) (restedClear calm (.inl rfl))
  unfold forwardRead
  split
  · refine Machine.ensuresThen (executeEnsures (quietWrites client start forwarded)) ?_
    rintro reply v h replied
    have exchanged : Exchanged w v → v.Calm := by
      intro e
      unfold World.Calm at *
      rw [e.db,e.faults]
      exact calm
    cases reply with
    | ok body =>
      obtain ⟨e,_,rfl⟩ := replied
      have rested : Rested () v .idle := restedClear (exchanged e) (.inl rfl)
      dsimp only
      split
      · exact invalidFrame rested
      split
      · exact invalidFrame rested
      · refine Machine.ensuresThen (settleReadEnsures (exchanged e)
          (fun id same => by rw [e.db]; exact owned id same)) ?_
        rintro _ u h settled
        exact sendReplyEnsures (readTruthful asked start cancel) settled
    | error failure =>
      cases failure with
      | beforeDispatch m =>
        obtain ⟨steady,rfl⟩ := replied
        exact answer v _ (steady.calm calm)
      | afterDispatch m =>
        obtain ⟨e,_,rfl⟩ := replied
        exact answer v _ (exchanged e)
  · exact answer w _ calm

theorem handleOwnedReadEnsures (client : session.welcome.clientId = x.clientId)
    (asked : x.request = some request) (reads : request.method = .status ∨ request.method = .result)
    (calm : w.Calm) :
    machine.Ensures (Allowed cfg x) (handleOwnedRead cfg session sequence request) Rested w .idle := by
  have rested : Rested () w .idle := restedClear calm (.inl rfl)
  unfold handleOwnedRead
  split
  · exact invalidFrame rested
  rename_i runId found
  rw [client]
  refine Machine.ensuresThen (ownsEnsures calm) ?_
  rintro reply v h ⟨_,db,calm',rfl,owned⟩
  have rested' : Rested () v .idle := restedClear calm' (.inl rfl)
  cases reply with
  | error e => exact invalidFrame rested'
  | ok yes =>
    cases yes with
    | false => exact refuseEnsures (otherCode (by decide)) rested'
    | true =>
      have mine : v.db.view.Owned x.clientId runId := by
        rw [db]
        exact owned rfl runId (by simp)
      have named : request.params.getStr "runId" = some runId :=
        Option.eq_some_of_filter_eq_some found
      have forwarded : forwardedRunIds request = [runId] := by
        rcases reads with h | h <;> simp only [forwardedRunIds,h,named,Option.toList_some]
      refine forwardReadEnsures client asked ?_ ?_ calm' ?_ ?_
      · rcases reads with h | h <;> simp [h]
      · rcases reads with h | h <;> simp [h]
      · rintro id same
        cases same
        exact mine
      · rw [forwarded]
        rintro id member
        rw [List.mem_singleton.mp member]
        exact mine

/-! ## cancelAndSettle -/

structure CancelOf (cfg : Config) (x : Context) (session : Session) (request : RuntimeRpcRequest)
    (runIds : List String) : Prop where
  client : session.welcome.clientId = x.clientId
  asked : x.request = some request
  method : request.method = .cancelAndSettle
  named : cancelRunIds request.params = some runIds

theorem collectRunIdsSource {items : List Value} {before runIds : List String}
    (h : collectRunIds items before = some runIds) :
    runIds = before ++ items.filterMap Value.asStr := by
  induction items generalizing before with
  | nil => simpa [collectRunIds] using h.symm
  | cons item rest ih =>
    simp only [collectRunIds] at h
    split at h
    · cases h
    rename_i runId found
    split at h
    · cases h
    have text : item.asStr = some runId := Option.eq_some_of_filter_eq_some found
    rw [ih h,List.filterMap_cons_some text]
    simp

theorem cancelForwards {runIds : List String} (cancels : CancelOf cfg x session request runIds) :
    forwardedRunIds request = runIds := by
  have named := cancels.named
  unfold cancelRunIds at named
  simp only [forwardedRunIds,cancels.method]
  split at named
  · cases named
  rename_i items found
  split at named
  · cases named
  rw [found,Option.getD_some,collectRunIdsSource named,List.nil_append]

theorem settleRunsEnsures {runIds : List String} {items : List Value} (calm : w.Calm) (clear : Clear g)
    (owned : ∀ id ∈ runIds, w.db.view.Owned x.clientId id) :
    machine.Ensures (Allowed cfg x) (settleRuns runIds items)
      (fun _ w' h => w.DbOnly w' ∧ w'.Calm ∧ h = g) w g := by
  induction items generalizing w with
  | nil => exact ⟨World.DbOnly.refl w,calm,rfl⟩
  | cons item rest ih =>
    unfold settleRuns
    split
    · split
      · rename_i runId state _ _ listed
        refine Machine.ensuresThen (completeEnsures calm clear (owned runId listed.1)) ?_
        rintro _ v h ⟨kept,calm',rfl,keep⟩
        refine Machine.ensuresMono ?_ (ih calm' fun id member => keep id (owned id member))
        rintro _ u h ⟨kept',calm₂,rfl⟩
        exact ⟨kept.trans kept',calm₂,rfl⟩
      · exact ih calm owned
    · exact ih calm owned

theorem markUnknownEnsures {runIds marked : List String}
    (cancels : CancelOf cfg x session request runIds) (calm : w.Calm) (clear : Clear g)
    (part : ∀ id ∈ marked, id ∈ runIds) (owned : ∀ id ∈ marked, w.db.view.Owned x.clientId id)
    (lost : w.replyBody = none ∨ ∃ body, w.replyBody = some body ∧
      ∀ reply, cfg.fromSlice body = some reply → replyEchoes request reply = false) :
    machine.Ensures (Allowed cfg x) (markJobsOutcomeUnknown marked)
      (fun _ w' h => w'.Calm ∧ h = g ∧
        ∀ id, w.db.view.Owned x.clientId id → w'.db.view.Owned x.clientId id) w g := by
  induction marked generalizing w with
  | nil => exact ⟨calm,rfl,fun _ mine => mine⟩
  | cons id rest ih =>
    refine Machine.ensuresThen (transitionJobEnsures calm (owned id (by simp)) ?_) ?_
    · intro v kept mine
      refine ⟨.markUnknown id,fun _ _ _ => .markUnknown clear,mine,request,runIds,cancels.asked,
        cancels.method,cancels.named,part id (by simp),?_⟩
      rw [kept.replyBody]
      exact lost
    · rintro _ v h ⟨kept,calm',rfl,keep⟩
      refine Machine.ensuresMono ?_ (ih calm' (fun id member => part id (by simp [member]))
        (fun id member => keep id (owned id (by simp [member]))) (by rw [kept.replyBody]; exact lost))
      rintro _ u h ⟨calm₂,rfl,keep'⟩
      exact ⟨calm₂,rfl,fun id mine => keep' id (keep id mine)⟩

theorem sendReplyRested {reply : Value}
    (truthful : x.Truthful cfg w (.send (.response ⟨2,"response",sequence,reply⟩)))
    (rested : Rested () w g) :
    machine.Ensures (Allowed cfg x) (do let _ ← sendReply sequence reply; pure ()) Rested w g := by
  refine Machine.ensuresThen (sendMsgEnsures truthful) ?_
  rintro _ w' g' ⟨steady,rfl⟩
  exact restedSteady rested steady

theorem sendErrorRested {code : String} (other : code ≠ "duplicate_mutation") (rested : Rested () w g) :
    machine.Ensures (Allowed cfg x) (sendError code) Rested w g := by
  refine Machine.ensuresMono ?_ (sendErrorEnsures (otherCode other))
  rintro _ w' g' ⟨steady,rfl⟩
  exact restedSteady rested steady

/- With an executor, what a cancellation's runtime_unavailable reply says of its claim
is not promised. -/
theorem cancelTruthful {reply : Value} {runIds : List String}
    (cancels : CancelOf cfg x session request runIds) (executor : cfg.executor = true) :
    x.Truthful cfg w (.send (.response ⟨2,"response",sequence,reply⟩)) := by
  intro _ _ _ other same reason
  cases Option.some.inj (cancels.asked.symm.trans same)
  rcases reason with h | ⟨_,absent⟩
  · rw [cancels.method] at h
    cases h
  · rw [executor] at absent
    cases absent

theorem finishCancelEnsures {runIds : List String} {reply : Value}
    (cancels : CancelOf cfg x session request runIds) (executor : cfg.executor = true)
    (calm : w.Calm) (clear : Clear g) (owned : ∀ id ∈ runIds, w.db.view.Owned x.clientId id)
    (lost : replyEchoes request reply = false → w.replyBody = none ∨ ∃ body,
      w.replyBody = some body ∧
      ∀ reply, cfg.fromSlice body = some reply → replyEchoes request reply = false) :
    machine.Ensures (Allowed cfg x) (finishCancel sequence request runIds reply) Rested w g := by
  unfold finishCancel
  split
  · rename_i unusable
    refine Machine.ensuresThen (markUnknownEnsures cancels calm clear (fun _ h => h) owned
      (lost unusable)) ?_
    rintro _ v h ⟨calm',rfl,_⟩
    exact sendErrorRested (by decide) (restedClear calm' clear)
  split
  · refine Machine.ensuresThen (settleRunsEnsures calm clear owned) ?_
    rintro _ v h ⟨_,calm',rfl⟩
    exact sendReplyRested (cancelTruthful cancels executor) (restedClear calm' clear)
  · exact sendReplyRested (cancelTruthful cancels executor) (restedClear calm clear)

theorem forwardCancelEnsures {runIds : List String} {window : Nat}
    (cancels : CancelOf cfg x session request runIds) (executor : cfg.executor = true)
    (calm : w.Calm) (clear : Clear g) (owned : ∀ id ∈ runIds, w.db.view.Owned x.clientId id) :
    machine.Ensures (Allowed cfg x) (forwardCancel cfg session sequence request runIds window)
      Rested w g := by
  have start : request.method ≠ .start := by rw [cancels.method]; simp
  have writes : Writes cfg x w session.welcome.clientId request g g := quietWrites cancels.client start
    fun id member => owned id (by rw [cancelForwards cancels] at member; exact member)
  refine Machine.ensuresThen (executeEnsures writes) ?_
  rintro reply v h replied
  have exchanged : Exchanged w v → v.Calm ∧ ∀ id ∈ runIds, v.db.view.Owned x.clientId id := by
    intro e
    refine ⟨?_,by rw [e.db]; exact owned⟩
    unfold World.Calm at *
    rw [e.db,e.faults]
    exact calm
  cases reply with
  | ok body =>
    obtain ⟨e,came,rfl⟩ := replied
    dsimp only
    split
    · rename_i garbled
      refine Machine.ensuresThen (markUnknownEnsures cancels (exchanged e).1 clear (fun _ h => h)
        (exchanged e).2 (.inr ⟨body,came,fun reply same => ?_⟩)) ?_
      · rw [garbled] at same
        cases same
      · rintro _ u h ⟨calm',rfl,_⟩
        exact sendErrorRested (by decide) (restedClear calm' clear)
    · rename_i reply parsed
      refine finishCancelEnsures cancels executor (exchanged e).1 clear (exchanged e).2 ?_
      intro unusable
      refine .inr ⟨body,came,fun other same => ?_⟩
      cases Option.some.inj (parsed.symm.trans same)
      exact unusable
  | error failure =>
    have echoes : ∀ code message, replyEchoes request
        (failureReply request.method request.requestId code message) = true :=
      fun _ _ => failureReplyEchoes
    rw [cancels.method] at echoes
    cases failure with
    | beforeDispatch m =>
      obtain ⟨steady,rfl⟩ := replied
      refine finishCancelEnsures cancels executor (steady.calm calm) clear
        (by rw [steady.db]; exact owned) ?_
      intro unusable
      rw [echoes] at unusable
      cases unusable
    | afterDispatch m =>
      obtain ⟨e,none',rfl⟩ := replied
      refine Machine.ensuresThen (markUnknownEnsures cancels (exchanged e).1 clear (fun _ h => h)
        (exchanged e).2 (.inl none')) ?_
      rintro _ u h ⟨calm',rfl,keep⟩
      refine finishCancelEnsures cancels executor calm' clear
        (fun id member => keep id ((exchanged e).2 id member)) ?_
      intro unusable
      rw [echoes] at unusable
      cases unusable

/- Without an executor the claim just taken is given back before the reply. -/
theorem releaseCancelEnsures {runIds : List String} {reply : Value}
    (cancels : CancelOf cfg x session request runIds) (calm : w.Calm)
    (reached : (w.db.txn = none ∧ g = .cancelling (x.key request)) ∨ (w.db.txn ≠ none ∧ g = .idle))
    (arrived : x.since.faults ≤ w.faults) :
    machine.Ensures (Allowed cfg x) (do
      let _ ← deleteMutationClaim session.welcome.clientId request.requestId
      let _ ← sendReply sequence reply
      pure ()) Rested w g := by
  have finish : ∀ v h, v.Calm → h = .idle ∨ h = .cancelling (x.key request) →
      (w.faults < v.faults ∨ v.db.view = w.db.view.removeClaims (x.key request)) →
      machine.Ensures (Allowed cfg x) (do let _ ← sendReply sequence reply; pure ()) Rested v h := by
    intro v h calm' clear gone
    have rested : Rested () v h := restedClear calm' (clear.imp_right fun same => ⟨_,same⟩)
    refine sendReplyRested ?_ rested
    intro _ _ same other asked _
    cases Option.some.inj (cancels.asked.symm.trans asked)
    rcases gone with faults | view
    · omega
    · rintro (present | ⟨start,_⟩)
      · rw [view] at present
        obtain ⟨c,member,key⟩ := List.mem_map.mp present
        have other := (List.mem_filter.mp member).2
        simp [key] at other
      · rw [cancels.method] at start
        cases start
  have own : x.key request = ⟨session.welcome.clientId,request.requestId⟩ := by
    simp only [Context.key,cancels.client]
  unfold deleteMutationClaim tryCall
  rw [Program.bindAssoc,← own]
  refine deleteCancelThen rfl reached ?_
  intro v h reply' kept txn clear gone
  have calm' : v.Calm := by
    rcases calm with closed | faults
    · exact .inl (txn.mpr closed)
    · exact .inr (Nat.lt_of_lt_of_le faults kept.faults)
  cases reply' with
  | error e => exact finish v h calm' clear gone
  | ok n => exact finish v h calm' clear gone

theorem claimCancelEnsures {runIds : List String} {window : Nat}
    (cancels : CancelOf cfg x session request runIds) (calm : w.Calm)
    (owned : ∀ id ∈ runIds, w.db.view.Owned x.clientId id) (arrived : x.since.faults ≤ w.faults) :
    machine.Ensures (Allowed cfg x) (claimCancel cfg session sequence request runIds window)
      Rested w .idle := by
  have own : x.key request = ⟨session.welcome.clientId,request.requestId⟩ := by
    simp only [Context.key,cancels.client]
  unfold claimCancel
  rw [← own]
  refine insertCancelThen rfl ⟨request,cancels.asked,rfl,cancels.method⟩ ?_ ?_
  · intro v g' kept _ db reached
    have view : v.db.view = w.db.view.addClaim ⟨x.key request,.cancelAndSettle⟩ := by
      rw [db]
      obtain ⟨durable,txn⟩ := w.db
      cases txn <;> rfl
    have same : v.db.txn = none ↔ w.db.txn = none := by
      rw [db]
      obtain ⟨durable,txn⟩ := w.db
      cases txn <;> simp [Connection.write]
    have calm' : v.Calm := by
      rcases calm with closed | faults
      · exact .inl (same.mpr closed)
      · exact .inr (Nat.lt_of_lt_of_le faults kept.faults)
    dsimp only
    split
    · rename_i executor
      refine forwardCancelEnsures cancels executor calm' ?_ ?_
      · rcases reached with ⟨_,rfl⟩ | ⟨_,rfl⟩
        · exact .inr ⟨_,rfl⟩
        · exact .inl rfl
      · intro id member
        rw [view]
        exact owned id member
    · refine releaseCancelEnsures cancels calm' ?_ (arrived.trans kept.faults)
      rcases reached with ⟨closed,rfl⟩ | ⟨opened,rfl⟩
      · exact .inl ⟨same.mpr closed,rfl⟩
      · exact .inr ⟨fun h => opened (same.mp h),rfl⟩
  · intro v e kept db
    have rested : Rested () v .idle := by
      refine restedClear ?_ (.inl rfl)
      unfold World.Calm at *
      rw [db]
      exact calm.imp_right fun faults => Nat.lt_of_lt_of_le faults kept.faults
    cases e with
    | failure => exact sendErrorRested (by decide) rested
    | constraintViolation =>
      refine Machine.ensuresMono ?_ (sendErrorEnsures ?_)
      · rintro _ u h ⟨steady,rfl⟩
        exact restedSteady rested steady
      · intro _ other asked start
        cases Option.some.inj (cancels.asked.symm.trans asked)
        rw [cancels.method] at start
        cases start

theorem handleCancelEnsures (client : session.welcome.clientId = x.clientId)
    (asked : x.request = some request) (method : request.method = .cancelAndSettle) (calm : w.Calm)
    (arrived : x.since.faults ≤ w.faults) :
    machine.Ensures (Allowed cfg x) (handleCancelAndSettle cfg session sequence request) Rested w
      .idle := by
  have rested : Rested () w .idle := restedClear calm (.inl rfl)
  unfold handleCancelAndSettle
  split
  · exact sendErrorRested (by decide) rested
  split
  · exact sendErrorRested (by decide) rested
  rename_i runIds named _ window _
  rw [client]
  refine Machine.ensuresThen (ownsEnsures calm) ?_
  rintro reply v h ⟨kept,db,calm',rfl,owned⟩
  have rested' : Rested () v .idle := restedClear calm' (.inl rfl)
  cases reply with
  | error e => exact sendErrorRested (by decide) rested'
  | ok yes =>
    cases yes with
    | false => exact sendErrorRested (by decide) rested'
    | true =>
      exact claimCancelEnsures ⟨client,asked,method,named⟩ calm'
        (by rw [db]; exact owned rfl) (arrived.trans kept.faults)

/-! ## Frames -/

theorem handleQueryEnsures {q : BrokerQuery} (client : session.welcome.clientId = x.clientId)
    (asked : x.query = some q.query) (calm : w.Calm) :
    machine.Ensures (Allowed cfg x) (handleQuery session q) Rested w .idle := by
  refine Machine.ensuresThen (queryEnsures calm client) ?_
  rintro reply v h ⟨_,db,calm',rfl,found⟩
  have rested : Rested () v .idle := restedClear calm' (.inl rfl)
  cases reply with
  | error e => exact invalidFrame rested
  | ok row =>
    refine Machine.ensuresMono ?_ (sendMsgEnsures ?_)
    · rintro sent u h ⟨steady,rfl⟩
      exact restedSteady rested steady
    · intro query same
      cases Option.some.inj (asked.symm.trans same)
      rw [db,Tables.submission,← client,← found row rfl]

theorem handleMethodEnsures {req : BrokerRequest} (client : session.welcome.clientId = x.clientId)
    (asked : x.request = some req.request) (calm : w.Calm) (arrived : x.since.Steady w) :
    machine.Ensures (Allowed cfg x) (handleMethod cfg session req) Rested w .idle := by
  unfold handleMethod
  split
  · rename_i method
    refine Machine.ensuresThen (handleCancelEnsures client asked method calm arrived.faults.ge) ?_
    exact fun _ _ _ rested => rested
  · rename_i method
    exact handleStartEnsures ⟨client,asked,method⟩ calm arrived
  · rename_i method
    refine forwardReadEnsures client asked ?_ ?_ calm ?_ ?_ <;> simp [forwardedRunIds,method]
  · rename_i method
    exact handleOwnedReadEnsures client asked (.inl method) calm
  · rename_i method
    exact handleOwnedReadEnsures client asked (.inr method) calm

theorem verifyTokenHarmless {auth : BrokerAuth} {token epoch clientId sessionId : String}
    {capability : BrokerCapability} :
    (verifyToken cfg auth token epoch clientId sessionId capability).All Harmless fun _ => True := by
  unfold verifyToken
  split
  · trivial
  split
  · trivial
  split
  · trivial
  split
  · trivial
  split
  · trivial
  split
  · trivial
  refine Program.allRequest trivial fun now => ?_
  split
  · trivial
  split <;> trivial

theorem authorizeEnsures {auth : BrokerAuth} {projectId epoch token : String}
    {capability : BrokerCapability} {act : Handler Bool} (calm : w.Calm)
    (acts : ∀ v, w.Steady v → machine.Ensures (Allowed cfg x) act Rested v .idle) :
    machine.Ensures (Allowed cfg x)
      (authorize cfg auth session projectId epoch token sequence capability act) Rested w .idle := by
  have rested : Rested () w .idle := restedClear calm (.inl rfl)
  unfold authorize
  split
  · exact closeEnsures (by decide) rested
  split
  · exact closeEnsures (by decide) rested
  split
  · exact closeEnsures (by decide) rested
  refine harmlessThen verifyTokenHarmless ?_
  intro verdict v steady _
  cases verdict with
  | error e => exact closeEnsures (by cases e <;> decide) (restedSteady rested steady)
  | ok =>
    refine Machine.ensuresThen (acts v steady) ?_
    exact fun _ _ _ rested => rested

theorem handleHelloHarmless {auth : BrokerAuth} {m : BrokerMessage} :
    (handleHello cfg auth m).All Harmless fun _ => True := by
  have weaken : ∀ {p : Handler (Option Session)}, p.All Harmless (fun out => out = none) →
      p.All Harmless fun _ => True := by
    intro p h
    have wider := Program.allBind (f := pure) h fun value _ => (trivial : (fun _ => True) value)
    rwa [Program.bindPure] at wider
  unfold handleHello
  split
  · split
    · exact weaken (closeHarmless (by decide))
    · refine Program.allBind (Q := fun _ => True) ?_ fun claims _ => ?_
      · exact Program.allRequest trivial fun _ => Program.allRequest trivial fun _ =>
          Program.allRequest trivial fun _ => trivial
      · refine Program.allBind (Q := fun _ => True) ?_ fun sent _ => ?_
        · unfold sendWelcome
          split
          · trivial
          · exact ⟨trivial,fun _ => trivial⟩
        · cases sent <;> trivial
  · exact weaken (closeHarmless (by decide))

/-- The client and the request or query a frame is handled for. -/
def contextOf (session : Option Session) (input : Input) (since : World) : Context :=
  ⟨session.elim "" (·.welcome.clientId),
    match input with
    | .message (.request req) => some req.request
    | _ => none,
    match input with
    | .message (.query q) => some q.query
    | _ => none,since⟩

theorem handleInputEnsures {auth : BrokerAuth} {session : Option Session} {input : Input}
    (calm : w.Calm) :
    machine.Ensures (Allowed cfg (contextOf session input w)) (handleInput cfg auth session input)
      Rested w .idle := by
  have rested : Rested () w .idle := restedClear calm (.inl rfl)
  unfold handleInput
  split
  · exact rested
  · refine closeEnsures ?_ rested
    split
    · rename_i known
      rcases known with rfl | rfl <;> decide
    · decide
  · rename_i m
    cases session with
    | none =>
      refine Machine.ensuresMono ?_ (harmlessEnsures handleHelloHarmless)
      rintro out v h ⟨steady,rfl,_⟩
      exact restedSteady rested steady
    | some session =>
      dsimp only
      unfold handleMessage
      split
      · exact authorizeEnsures calm fun v steady => handleQueryEnsures rfl rfl (steady.calm calm)
      · exact authorizeEnsures calm fun v steady =>
          handleMethodEnsures rfl rfl (steady.calm calm) steady
      · exact closeEnsures (by decide) rested

end
end Northstar.Broker
