import Northstar.Broker.Rules

/-! What each journal operation does to the ledger, whatever SQLite answers. -/
namespace Northstar.Broker

section
variable {cfg : Config} {x : Context} {w : World} {g g' : Inflight} {clientId requestId : String}

/-- From the rows of this world, whatever the database calls before the commit do. -/
def Moves (cfg : Config) (x : Context) (w : World) (g : Inflight) (t : Tables) (g' : Inflight) : Prop :=
  ∀ v, w.DbOnly v → v.db.durable = w.db.durable →
    ∃ label, Ledger.Step (provisionalJobId cfg) label (v.ledger g) ⟨t,v.started,v.bound,v.faults,g'⟩ ∧
      x.Permits cfg v label

/-- An operation that commits one change of the rows or leaves them as they were. -/
def Moved (w : World) (t : Tables) (g g' : Inflight) : Except DbError Unit → World → Inflight → Prop
  | .ok (), w', h => w.DbOnly w' ∧ w'.db = ⟨t,none⟩ ∧ h = g'
  | .error _, w', h => w.DbOnly w' ∧ w'.db.durable = w.db.durable ∧ w'.Calm ∧ 0 < w'.faults ∧
      (w.db.txn = none → w.faults < w'.faults) ∧ h = g

theorem closedAfter {w w' : World} (db : w'.db = ⟨w.db.durable,none⟩ ∨ w'.db = w.db) :
    w'.db.durable = w.db.durable := by
  rcases db with gone | same
  · rw [gone]
  · rw [same]

/- let _ = ROLLBACK after a failed statement or a failed COMMIT. -/
theorem abandonEnsures {α : Type} {e : DbError} :
    machine.Ensures (Allowed cfg x) (abandon e : Handler (Except DbError α))
      (fun reply w' h => reply = .error e ∧ w.DbOnly w' ∧
        (w'.db = ⟨w.db.durable,none⟩ ∨ w'.db = w.db) ∧ w'.Calm ∧ h = g) w g := by
  refine rollbackThen ?_
  intro w' reply kept db
  refine ⟨rfl,kept,db.imp_right (·.1),?_,rfl⟩
  rcases db with gone | ⟨_,faults⟩
  · exact .inl (by rw [gone])
  · exact .inr (Nat.lt_of_le_of_lt (Nat.zero_le _) faults)

theorem transitionByRequestEnsures {s : JobState} (calm : w.Calm) (own : clientId = x.clientId)
    (moves : Moves cfg x w g (w.db.durable.setStateByRequest s ⟨clientId,requestId⟩) g') :
    machine.Ensures (Allowed cfg x) (transitionJobByRequest clientId requestId s)
      (Moved w (w.db.durable.setStateByRequest s ⟨clientId,requestId⟩) g g') w g := by
  refine beginThen calm ?_ ?_
  · intro v kept closed opened
    refine sqlThen (t := w.db.durable) (by rw [opened]) own trivial ?_ ?_
    · intro u result t kept' ran db _
      obtain ⟨rfl,rfl⟩ := Prod.mk.inj (Except.ok.inj ran)
      have durable : u.db.durable = w.db.durable := by rw [db,opened]
      refine commitThen (by rw [db]) (moves u (kept.trans kept') durable) ?_ ?_
      · intro z kept'' committed
        exact ⟨(kept.trans kept').trans kept'',committed,rfl⟩
      · intro z kept'' db' faults
        have counted := Nat.lt_of_le_of_lt (kept.trans kept').faults faults
        exact ⟨(kept.trans kept').trans kept'',(closedAfter db').trans durable,.inr (by omega),
          by omega,fun _ => counted,rfl⟩
    · intro u e kept' same failure
      obtain impossible | ⟨rfl,faults⟩ := failure
      · cases impossible
      · refine Machine.ensuresMono ?_ (abandonEnsures (g := g))
        rintro reply z h ⟨rfl,kept'',db',_,rfl⟩
        have counted := Nat.lt_of_le_of_lt kept.faults (Nat.lt_of_lt_of_le faults kept''.faults)
        exact ⟨(kept.trans kept').trans kept'',by rw [closedAfter db',same,opened],.inr (by omega),by omega,
          fun _ => counted,rfl⟩
  · intro v kept same faults counted
    exact ⟨kept,by rw [same],.inr faults,faults,counted,rfl⟩

theorem releaseEnsures (calm : w.Calm) (own : clientId = x.clientId)
    (moves : Moves cfg x w g ((w.db.durable.removeReceipts ⟨clientId,requestId⟩).removeClaims
      ⟨clientId,requestId⟩) g') :
    machine.Ensures (Allowed cfg x) (releaseStartArtifacts clientId requestId)
      (Moved w ((w.db.durable.removeReceipts ⟨clientId,requestId⟩).removeClaims
        ⟨clientId,requestId⟩) g g') w g := by
  -- every way out other than COMMIT goes through a statement that SQLite failed
  have abandoned : ∀ u e, w.DbOnly u → u.db.durable = w.db.durable → w.faults < u.faults →
      machine.Ensures (Allowed cfg x) (abandon (.sql e))
        (Moved w ((w.db.durable.removeReceipts ⟨clientId,requestId⟩).removeClaims
          ⟨clientId,requestId⟩) g g') u g := by
    intro u e kept durable faults
    refine Machine.ensuresMono ?_ (abandonEnsures (g := g))
    rintro reply z h ⟨rfl,kept',db,_,rfl⟩
    have counted := Nat.lt_of_lt_of_le faults kept'.faults
    exact ⟨kept.trans kept',(closedAfter db).trans durable,.inr (by omega),by omega,fun _ => counted,rfl⟩
  refine beginThen calm ?_ ?_
  · intro v kept closed opened
    refine sqlThen (t := w.db.durable) (by rw [opened]) own trivial ?_ ?_
    · intro u result t kept' ran db _
      obtain ⟨rfl,rfl⟩ := Prod.mk.inj (Except.ok.inj ran)
      have durable : u.db.durable = w.db.durable := by rw [db,opened]
      refine sqlThen (by rw [db]) own trivial ?_ ?_
      · intro y result' t' kept₂ ran' db' _
        obtain ⟨rfl,rfl⟩ := Prod.mk.inj (Except.ok.inj ran')
        have durable' : y.db.durable = w.db.durable := by rw [db',durable]
        have so : w.DbOnly y := (kept.trans kept').trans kept₂
        refine commitThen (by rw [db']) (moves y so durable') ?_ ?_
        · intro z kept₃ committed
          exact ⟨so.trans kept₃,committed,rfl⟩
        · intro z kept₃ db₃ faults
          exact abandoned z _ (so.trans kept₃) ((closedAfter db₃).trans durable')
            (Nat.lt_of_le_of_lt so.faults faults)
      · intro y e kept₂ same failure
        obtain impossible | ⟨rfl,faults⟩ := failure
        · cases impossible
        · exact abandoned y _ ((kept.trans kept').trans kept₂) (by rw [same,durable])
            (Nat.lt_of_le_of_lt (kept.trans kept').faults faults)
    · intro u e kept' same failure
      obtain impossible | ⟨rfl,faults⟩ := failure
      · cases impossible
      · exact abandoned u _ (kept.trans kept') (by rw [same,opened])
          (Nat.lt_of_le_of_lt kept.faults faults)
  · intro v kept same faults counted
    exact ⟨kept,by rw [same],.inr faults,faults,counted,rfl⟩

/-- Claiming a start: both rows or neither, and a duplicate only where a key is taken. -/
def Claimed (cfg : Config) (w : World) (r : ReceiptRecord) :
    Except DbError Unit → World → Inflight → Prop
  | .ok (), w', h => w.DbOnly w' ∧
      w'.db = ⟨(w.db.durable.addClaim ⟨r.key,.start⟩).addReceipt r,none⟩ ∧ h = .pending r.key ∧
      r.key ∉ w.db.durable.claimKeys ∧ r.jobId ∉ w.db.durable.jobIds
  | .error e, w', h => w.DbOnly w' ∧ w'.db.durable = w.db.durable ∧ w'.Calm ∧ h = .idle ∧
      (e = .duplicate → Duplicates cfg .start r.key w.db.durable)

theorem claimStartEnsures {r : ReceiptRecord} {request : RuntimeRpcRequest} (calm : w.Calm)
    (asked : x.request = some request) (method : request.method = .start) (own : r.key = x.key request)
    (named : r.jobId = provisionalJobId cfg r.key) (pending : r.state = .pending) :
    machine.Ensures (Allowed cfg x) (claimStartAtomic r.clientId r.requestId r) (Claimed cfg w r)
      w .idle := by
  have mine : r.clientId = x.clientId := congrArg Key.clientId own
  have refused : ∀ e, e ≠ .duplicate → Claimed cfg w r (.error e) w .idle :=
    fun e other => ⟨World.DbOnly.refl w,rfl,calm,rfl,fun same => absurd same other⟩
  have payloads : ∀ p e, checkPayload p = .error e → e ≠ .duplicate := by
    intro p e h same
    subst same
    cases p with
    | none => cases h
    | some text => simp only [checkPayload] at h; split at h <;> cases h
  have abandoned : ∀ u e, w.DbOnly u → u.db.durable = w.db.durable →
      (e = .duplicate → Duplicates cfg .start r.key w.db.durable) →
      machine.Ensures (Allowed cfg x) (abandon e) (Claimed cfg w r) u .idle := by
    intro u e kept durable reason
    refine Machine.ensuresMono ?_ (abandonEnsures (g := .idle))
    rintro reply z h ⟨rfl,kept',db,calm',rfl⟩
    exact ⟨kept.trans kept',(closedAfter db).trans durable,calm',rfl,reason⟩
  unfold claimStartAtomic
  split
  · exact refused _ (payloads _ _ (by assumption))
  split
  · exact refused _ (payloads _ _ (by assumption))
  refine beginThen calm ?_ ?_
  · intro v kept closed opened
    have view : v.db.view = v.db.durable := by rw [opened]; rfl
    have claims : (⟨⟨r.clientId,r.requestId⟩,.start⟩ : MutationClaim) =
        ⟨x.key request,request.method⟩ := by rw [← own,method]; rfl
    refine sqlThen (t := w.db.durable) (by rw [opened]) mine ⟨request,asked,claims,fun _ => view⟩ ?_ ?_
    · intro u result t kept' ran db _
      simp only [Statement.run] at ran
      split at ran
      · cases ran
      rename_i unclaimed
      obtain ⟨rfl,rfl⟩ := Prod.mk.inj (Except.ok.inj ran)
      have durable : u.db.durable = w.db.durable := by rw [db,opened]
      have ids : u.db.view.jobIds = u.db.durable.jobIds := by
        rw [durable,db]
        rfl
      refine sqlThen (by rw [db]) mine ⟨request,asked,own,named,ids⟩ ?_ ?_
      · intro y result' t' kept₂ ran' db' _
        simp only [Statement.run] at ran'
        split at ran'
        · cases ran'
        rename_i fresh
        obtain ⟨rfl,rfl⟩ := Prod.mk.inj (Except.ok.inj ran')
        have durable' : y.db.durable = w.db.durable := by rw [db',durable]
        have so : w.DbOnly y := (kept.trans kept').trans kept₂
        refine commitThen (h := .pending r.key) (by rw [db']) ⟨.claim r.key,?_,mine⟩ ?_ ?_
        · simp only [World.ledger,durable']
          exact .claim named pending unclaimed fresh
        · intro z kept₃ committed
          exact ⟨so.trans kept₃,committed,rfl,unclaimed,fresh⟩
        · intro z kept₃ db₃ _
          exact abandoned z _ (so.trans kept₃) ((closedAfter db₃).trans durable') (fun h => by cases h)
      · intro y e kept₂ same failure
        have so : w.DbOnly y := (kept.trans kept').trans kept₂
        refine abandoned y _ so (by rw [same,durable]) ?_
        intro duplicate
        obtain refusal | ⟨rfl,_⟩ := failure
        · simp only [Statement.run] at refusal
          split at refusal
          · rename_i taken
            exact .inr ⟨rfl,named ▸ taken⟩
          · cases refusal
        · cases duplicate
    · intro u e kept' same failure
      refine abandoned u _ (kept.trans kept') (by rw [same,opened]) ?_
      intro duplicate
      obtain refusal | ⟨rfl,_⟩ := failure
      · simp only [Statement.run] at refusal
        split at refusal
        · rename_i taken
          exact .inl taken
        · cases refusal
      · cases duplicate
  · intro v kept same faults _
    exact ⟨kept,by rw [same],.inr faults,rfl,fun h => by cases h⟩

theorem bindEnsures {jobId : String} {k : Key} (calm : w.Calm) (own : clientId = x.clientId)
    (key : k = ⟨clientId,requestId⟩) :
    machine.Ensures (Allowed cfg x) (bindDispatchedJob clientId requestId jobId)
      (fun reply w' h => w.DbOnly w' ∧ w'.Calm ∧
        match reply with
        | .ok () => h = .idle
        | .error _ => w'.db.durable = w.db.durable ∧ h = .written k) w (.written k) := by
  subst key
  refine beginThen calm ?_ ?_
  · intro v kept closed opened
    refine sqlThen (t := w.db.durable) (by rw [opened]) own trivial ?_ ?_
    · intro u result t kept' ran db bound
      have durable : u.db.durable = w.db.durable := by rw [db,opened]
      simp only [Statement.run] at ran
      split at ran
      case isFalse => cases ran
      rename_i unique
      obtain ⟨rfl,rfl⟩ := Prod.mk.inj (Except.ok.inj ran)
      cases count : w.db.durable.jobReceipts.countP (·.key = ⟨clientId,requestId⟩) with
      | zero =>
        refine rollbackThen ?_
        intro z reply kept'' db'
        have so : w.DbOnly z := (kept.trans kept').trans kept''
        have same : z.db.durable = w.db.durable :=
          (closedAfter (db'.imp_right (·.1))).trans durable
        have calm' : z.Calm := by
          rcases db' with gone | ⟨_,faults⟩
          · exact .inl (by rw [gone])
          · exact .inr (by omega)
        cases reply with
        | ok => exact ⟨so,calm',same,rfl⟩
        | error e => exact ⟨so,calm',same,rfl⟩
      | succ n =>
        refine commitThen (h := .idle) (by rw [db]) ⟨.bind ⟨clientId,requestId⟩ jobId,?_,own⟩ ?_ ?_
        · simp only [World.ledger,durable]
          refine .bind unique ?_
          rw [bound]
          exact List.mem_append_right _ (List.mem_singleton.mpr rfl)
        · intro z kept'' committed
          exact ⟨(kept.trans kept').trans kept'',.inl (by rw [committed]),rfl⟩
        · intro z kept'' db' faults
          exact ⟨(kept.trans kept').trans kept'',.inr (by omega),(closedAfter db').trans durable,rfl⟩
    · intro u e kept' same failure
      have abandoned : ∀ e', machine.Ensures (Allowed cfg x) (abandon e' : Handler (Except DbError Unit))
          (fun reply w' h => w.DbOnly w' ∧ w'.Calm ∧
            match reply with
            | .ok () => h = .idle
            | .error _ => w'.db.durable = w.db.durable ∧ h = .written ⟨clientId,requestId⟩) u
          (.written ⟨clientId,requestId⟩) := by
        intro e'
        refine Machine.ensuresMono ?_ (abandonEnsures (g := .written ⟨clientId,requestId⟩))
        rintro reply z h ⟨rfl,kept'',db,calm',rfl⟩
        exact ⟨(kept.trans kept').trans kept'',calm',by rw [closedAfter db,same,opened],rfl⟩
      cases e with
      | constraintViolation => exact abandoned _
      | failure => exact abandoned _
  · intro v kept same faults _
    exact ⟨kept,.inr faults,by rw [same],rfl⟩

/-- Settling one run by its id: the client's other runs stay its own. -/
theorem transitionJobEnsures {s : JobState} {jobId : String} (calm : w.Calm)
    (owned : w.db.view.Owned x.clientId jobId)
    (permitted : ∀ v, w.DbOnly v → v.db.durable.Owned x.clientId jobId →
      ∃ label, (∀ t b f, Ledger.Step (provisionalJobId cfg) label ⟨t,v.started,b,f,g⟩
        ⟨t.setState s jobId,v.started,b,f,g⟩) ∧ x.Permits cfg v label) :
    machine.Ensures (Allowed cfg x) (transitionJob jobId s)
      (fun _ w' h => w.DbOnly w' ∧ w'.Calm ∧ h = g ∧
        ∀ id, w.db.view.Owned x.clientId id → w'.db.view.Owned x.clientId id) w g := by
  refine beginThen calm ?_ ?_
  · intro v kept closed opened
    have view : w.db.view = w.db.durable := by simp only [Connection.view,closed,Option.getD_none]
    rw [view] at owned
    rw [view]
    have inside : v.db.view.Owned x.clientId jobId := by
      rw [opened]
      exact owned
    refine sqlThen (t := w.db.durable) (by rw [opened]) inside trivial ?_ ?_
    · intro u result t kept' ran db _
      obtain ⟨rfl,rfl⟩ := Prod.mk.inj (Except.ok.inj ran)
      have durable : u.db.durable = w.db.durable := by rw [db,opened]
      have keep : ∀ z : World, z.db = ⟨u.db.durable,none⟩ ∨ z.db = u.db →
          ∀ id, w.db.durable.Owned x.clientId id → z.db.view.Owned x.clientId id := by
        intro z db' id mine
        rcases db' with gone | same
        · rw [gone,durable]
          exact mine
        · rw [same,db]
          exact Tables.ownedSetState mine
      cases count : w.db.durable.jobReceipts.countP (·.jobId = jobId) with
      | zero =>
        refine rollbackThen ?_
        intro z reply kept'' db'
        have so : w.DbOnly z := (kept.trans kept').trans kept''
        have calm' : z.Calm := by
          rcases db' with gone | ⟨_,faults⟩
          · exact .inl (by rw [gone])
          · exact .inr (by omega)
        cases reply with
        | ok => exact ⟨so,calm',rfl,keep z (db'.imp_right (·.1))⟩
        | error e => exact ⟨so,calm',rfl,keep z (db'.imp_right (·.1))⟩
      | succ n =>
        obtain ⟨label,step,permits⟩ := permitted u (kept.trans kept') (durable ▸ owned)
        refine commitThen (h := g) (by rw [db]) ⟨label,?_,permits⟩ ?_ ?_
        · simp only [World.ledger,durable]
          exact step _ _ _
        · intro z kept'' committed
          refine ⟨(kept.trans kept').trans kept'',.inl (by rw [committed]),rfl,?_⟩
          intro id mine
          rw [committed]
          exact Tables.ownedSetState mine
        · intro z kept'' db' faults
          exact ⟨(kept.trans kept').trans kept'',.inr (by omega),rfl,keep z db'⟩
    · intro u e kept' same failure
      refine Machine.ensuresMono ?_ (abandonEnsures (g := g))
      rintro reply z h ⟨rfl,kept'',db,calm',rfl⟩
      refine ⟨(kept.trans kept').trans kept'',calm',rfl,?_⟩
      intro id mine
      rcases db with gone | still
      · rw [gone,same,opened]
        exact mine
      · rw [still,same,opened]
        exact mine
  · intro v kept same faults _
    exact ⟨kept,.inr faults,rfl,fun id mine => by rw [same]; exact mine⟩

theorem ownsEnsures {ids : List String} (calm : w.Calm) :
    machine.Ensures (Allowed cfg x) (ownsAllJobs x.clientId ids)
      (fun reply w' h => w.DbOnly w' ∧ w'.db = w.db ∧ w'.Calm ∧ h = g ∧
        (reply = .ok true → ∀ id ∈ ids, w.db.view.Owned x.clientId id)) w g := by
  induction ids generalizing w with
  | nil => exact ⟨World.DbOnly.refl w,rfl,calm,rfl,fun _ _ member => by cases member⟩
  | cons jobId rest ih =>
    refine readThen rfl rfl trivial ?_ ?_
    · intro v kept db faults
      have calm' : v.Calm := by
        unfold World.Calm at *
        rw [db,faults]
        exact calm
      dsimp only
      split
      · exact ⟨kept,db,calm',rfl,fun h => by cases h⟩
      · rename_i one
        refine Machine.ensuresMono ?_ (ih calm')
        rintro reply u h ⟨kept',db',calm₂,rfl,owned⟩
        refine ⟨kept.trans kept',db'.trans db,calm₂,rfl,?_⟩
        intro yes id member
        rcases List.mem_cons.mp member with rfl | later
        · refine Tables.countOwned ?_
          have counted : w.db.view.jobReceipts.countP
              (fun r => r.clientId = x.clientId ∧ r.jobId = id) = 1 := not_not.mp one
          omega
        · rw [← db]
          exact owned yes id later
    · intro v kept db faults
      exact ⟨kept,db,.inr (by omega),rfl,fun h => by cases h⟩

theorem queryEnsures (calm : w.Calm) (own : clientId = x.clientId) :
    machine.Ensures (Allowed cfg x) (queryReceipt clientId requestId)
      (fun reply w' h => w.DbOnly w' ∧ w'.db = w.db ∧ w'.Calm ∧ h = g ∧
        ∀ row, reply = .ok row → row = w.db.view.receipt ⟨clientId,requestId⟩) w g := by
  refine readThen rfl own trivial ?_ ?_
  · intro v kept db faults
    refine ⟨kept,db,?_,rfl,fun row same => (Except.ok.inj same).symm⟩
    unfold World.Calm at *
    rw [db,faults]
    exact calm
  · intro v kept db faults
    exact ⟨kept,db,.inr (by omega),rfl,fun row same => by cases same⟩

end
end Northstar.Broker
