import Northstar.Broker.Retry

/-! One client's rows under another client's request: they are not changed, the replies
are the same without them, and no run id of theirs reaches the executor. -/
namespace Northstar.Broker

namespace Tables

def rows (p : String → Bool) (t : Tables) : Tables :=
  {t with
    jobReceipts := t.jobReceipts.filter (p ·.clientId)
    mutationClaims := t.mutationClaims.filter (p ·.key.clientId)}

/-- The rows of one client, and the rows of all the others. -/
def only (clientId : String) : Tables → Tables := rows (· = clientId)
def others (clientId : String) : Tables → Tables := rows (· ≠ clientId)

variable {p : String → Bool} {t : Tables} {k : Key} {r : ReceiptRecord} {c : MutationClaim}
  {s : JobState} {a jobId : String}

/-! ## Rows of some clients under the updates -/

theorem rowsMap {f : ReceiptRecord → ReceiptRecord} (keep : KeepsKey f) :
    (t.mapReceipts f).rows p = (t.rows p).mapReceipts f := by
  have same : (fun r : ReceiptRecord => p r.clientId) ∘ f = fun r => p r.clientId := by
    funext r
    exact congrArg (p ∘ Key.clientId) (keep r)
  simp only [rows,mapReceipts,List.filter_map,same]

theorem rowsAddClaim : (t.addClaim c).rows p =
    if p c.key.clientId then (t.rows p).addClaim c else t.rows p := by
  simp only [rows,addClaim,List.filter_append,List.filter_singleton]
  cases p c.key.clientId <;> simp

theorem rowsAddReceipt : (t.addReceipt r).rows p =
    if p r.clientId then (t.rows p).addReceipt r else t.rows p := by
  simp only [rows,addReceipt,List.filter_append,List.filter_singleton]
  cases p r.clientId <;> simp

theorem rowsRemoveReceipts : (t.removeReceipts k).rows p = (t.rows p).removeReceipts k := by
  simp only [rows,removeReceipts,List.filter_filter,Bool.and_comm]

theorem rowsRemoveClaims : (t.removeClaims k).rows p = (t.rows p).removeClaims k := by
  simp only [rows,removeClaims,List.filter_filter,Bool.and_comm]

/-! ## Updates by one client leave the rows of the others -/

theorem othersReceipt (member : r ∈ (t.others a).jobReceipts) : r ∈ t.jobReceipts ∧ r.clientId ≠ a := by
  obtain ⟨inside,other⟩ := List.mem_filter.mp member
  exact ⟨inside,by simpa using other⟩

theorem othersClaim (member : c ∈ (t.others a).mutationClaims) : c.key.clientId ≠ a := by
  simpa using (List.mem_filter.mp member).2

theorem othersMap {f : ReceiptRecord → ReceiptRecord} (keep : KeepsKey f)
    (own : ∀ r ∈ t.jobReceipts, r.clientId ≠ a → f r = r) :
    (t.mapReceipts f).others a = t.others a := by
  have fixed : ∀ r ∈ (t.others a).jobReceipts, f r = id r := by
    intro r member
    have source := othersReceipt member
    exact own r source.1 source.2
  have same : (t.others a).mapReceipts f = t.others a := by
    simp only [mapReceipts,List.map_congr_left fixed,List.map_id]
  exact (rowsMap keep).trans same

theorem othersAddClaim (own : c.key.clientId = a) : (t.addClaim c).others a = t.others a := by
  simp only [others,rowsAddClaim,own,ne_eq,not_true_eq_false,decide_false,Bool.false_eq_true,if_false]

theorem othersAddReceipt (own : r.clientId = a) : (t.addReceipt r).others a = t.others a := by
  simp only [others,rowsAddReceipt,own,ne_eq,not_true_eq_false,decide_false,Bool.false_eq_true,if_false]

theorem othersRemoveReceipts (own : k.clientId = a) : (t.removeReceipts k).others a = t.others a := by
  have kept : (t.others a).removeReceipts k = t.others a := by
    simp only [removeReceipts]
    rw [List.filter_eq_self.mpr]
    intro r member
    have other := (othersReceipt member).2
    have different : r.key ≠ k := fun same => other (by rw [← own,← same]; rfl)
    simpa using different
  exact rowsRemoveReceipts.trans kept

theorem othersRemoveClaims (own : k.clientId = a) : (t.removeClaims k).others a = t.others a := by
  have kept : (t.others a).removeClaims k = t.others a := by
    simp only [removeClaims]
    rw [List.filter_eq_self.mpr]
    intro c member
    have different : c.key ≠ k := fun same => othersClaim member (by rw [same,own])
    simpa using different
  exact rowsRemoveClaims.trans kept

theorem othersByRequest {f : ReceiptRecord → ReceiptRecord} (own : k.clientId = a)
    (keep : KeepsKey fun r => if r.key = k then f r else r) :
    (t.mapReceipts fun r => if r.key = k then f r else r).others a = t.others a := by
  refine othersMap keep fun r _ other => if_neg ?_
  rintro rfl
  exact other own

/- A run id names one row, so an update of an owned run id touches the owner only. -/
theorem othersSetState (keyed : t.jobIds.Nodup) (owned : t.Owned a jobId) :
    (t.setState s jobId).others a = t.others a := by
  refine othersMap (setStateKeeps s jobId) fun r member other => if_neg ?_
  rintro rfl
  obtain ⟨mine,inside,client,same⟩ := owned
  rw [List.inj_on_of_nodup_map keyed inside member same] at client
  exact other client

end Tables

theorem silentTables {provisional : Key → String} {label : Label} {l l' : Ledger}
    (moves : Ledger.Step provisional label l l')
    (silent : label = .quiet ∨ label = .rest ∨ label = .halt) : l'.tables = l.tables := by
  cases moves with
  | quiet tables => exact tables
  | rest | halt => rfl
  | _ => simp at silent

theorem permittedOthers {provisional : Key → String} {cfg : Config} {x : Context} {w : World}
    {label : Label} {l l' : Ledger} (moves : Ledger.Step provisional label l l')
    (durable : w.db.durable = l.tables) (keyed : l.tables.jobIds.Nodup)
    (permits : x.Permits cfg w label) : l'.tables.others x.clientId = l.tables.others x.clientId := by
  cases moves with
  | quiet tables => rw [tables]
  | migrate | recover | rest | halt => exact permits.elim
  | claim => exact (Tables.othersAddReceipt permits).trans (Tables.othersAddClaim permits)
  | release => rw [Tables.othersRemoveClaims permits,Tables.othersRemoveReceipts permits]
  | dispatch => exact Tables.othersByRequest permits (Tables.setStateByRequestKeeps _ _)
  | write => rfl
  | settle => exact Tables.othersByRequest permits (Tables.setStateByRequestKeeps _ _)
  | bind => exact Tables.othersByRequest permits (Tables.bindJobKeeps _ _ _)
  | complete =>
    rw [Context.Permits,durable] at permits
    exact Tables.othersSetState keyed permits
  | markUnknown =>
    rw [Context.Permits,durable] at permits
    exact Tables.othersSetState keyed permits.1
  | claimCancel => exact Tables.othersAddClaim permits
  | releaseCancel => exact Tables.othersRemoveClaims permits

/-! ## The same call without the others' rows -/

namespace Tables
variable {t : Tables} {k : Key} {r : ReceiptRecord} {c : MutationClaim} {s : JobState}
  {a jobId : String}

theorem onlyClaimed (own : k.clientId = a) : k ∈ (t.only a).claimKeys ↔ k ∈ t.claimKeys := by
  constructor
  · intro member
    obtain ⟨c,inside,same⟩ := List.mem_map.mp member
    exact List.mem_map.mpr ⟨c,(List.mem_filter.mp inside).1,same⟩
  · intro member
    obtain ⟨c,inside,rfl⟩ := List.mem_map.mp member
    exact List.mem_map.mpr ⟨c,List.mem_filter.mpr ⟨inside,by simpa using own⟩,rfl⟩

theorem onlyJobIds (free : jobId ∉ (t.others a).jobIds) :
    jobId ∈ (t.only a).jobIds ↔ jobId ∈ t.jobIds := by
  constructor
  · intro member
    obtain ⟨r,inside,same⟩ := List.mem_map.mp member
    exact List.mem_map.mpr ⟨r,(List.mem_filter.mp inside).1,same⟩
  · intro member
    obtain ⟨r,inside,rfl⟩ := List.mem_map.mp member
    by_cases mine : r.clientId = a
    · exact List.mem_map.mpr ⟨r,List.mem_filter.mpr ⟨inside,by simpa using mine⟩,rfl⟩
    · exact absurd (List.mem_map.mpr ⟨r,List.mem_filter.mpr ⟨inside,by simpa using mine⟩,rfl⟩) free

theorem onlyReceipt (own : k.clientId = a) : (t.only a).receipt k = t.receipt k := by
  simp only [receipt,only,rows,List.find?_filter]
  congr 1
  funext r
  by_cases same : r.key = k
  · have mine : r.clientId = a := by rw [← own,← same]; rfl
    simp [same,mine]
  · simp [same]

/-- A count of rows that are all of one client's. -/
theorem onlyCount {p : ReceiptRecord → Bool} (own : ∀ r ∈ t.jobReceipts, p r = true → r.clientId = a) :
    (t.only a).jobReceipts.countP p = t.jobReceipts.countP p := by
  simp only [only,rows,List.countP_filter]
  refine List.countP_congr fun r member => ?_
  constructor
  · intro both
    exact (Bool.and_eq_true_iff.mp both).1
  · intro counted
    exact Bool.and_eq_true_iff.mpr ⟨counted,by simpa using own r member counted⟩

theorem onlyClaimCount (own : k.clientId = a) :
    (t.only a).mutationClaims.countP (·.key = k) = t.mutationClaims.countP (·.key = k) := by
  simp only [only,rows,List.countP_filter]
  refine List.countP_congr fun c _ => ?_
  simp only [Bool.and_eq_true,decide_eq_true_eq]
  exact ⟨And.left,fun same => ⟨same,by rw [same,own]⟩⟩

theorem keyCount (own : k.clientId = a) : ∀ r ∈ t.jobReceipts, decide (r.key = k) = true →
    r.clientId = a := by
  intro r _ same
  rw [← own,← of_decide_eq_true same]
  rfl

theorem ownedCount (keyed : t.jobIds.Nodup) (owned : t.Owned a jobId) :
    ∀ r ∈ t.jobReceipts, decide (r.jobId = jobId) = true → r.clientId = a := by
  intro r member same
  obtain ⟨mine,inside,client,id⟩ := owned
  rw [List.inj_on_of_nodup_map keyed member inside ((of_decide_eq_true same).trans id.symm)]
  exact client

/-- The rows split into one client's and the rest. -/
theorem jobIdsSplit : t.jobIds.Nodup ↔ (t.only a).jobIds.Nodup ∧ (t.others a).jobIds.Nodup ∧
    ∀ id ∈ (t.only a).jobIds, id ∉ (t.others a).jobIds := by
  have split : List.Perm ((t.only a).jobIds ++ (t.others a).jobIds) t.jobIds := by
    simp only [Tables.jobIds,← List.map_append,only,others,rows]
    refine List.Perm.map _ ?_
    have parts := List.filter_append_perm (fun r : ReceiptRecord => decide (r.clientId = a)) t.jobReceipts
    simpa using parts
  rw [← split.nodup_iff,List.nodup_append]
  constructor
  · rintro ⟨mine,theirs,apart⟩
    exact ⟨mine,theirs,fun id left right => apart id left id right rfl⟩
  · rintro ⟨mine,theirs,apart⟩
    refine ⟨mine,theirs,?_⟩
    rintro id left _ right rfl
    exact apart id left right

theorem onlyBindUnique (keyed : t.jobIds.Nodup) (own : k.clientId = a)
    (free : jobId ∉ (t.others a).jobIds) :
    ((t.only a).bindJob jobId s k).jobIds.Nodup ↔ (t.bindJob jobId s k).jobIds.Nodup := by
  have mine : (t.bindJob jobId s k).only a = (t.only a).bindJob jobId s k :=
    rowsMap (bindJobKeeps jobId s k)
  have theirs : (t.bindJob jobId s k).others a = t.others a := othersByRequest own (bindJobKeeps _ _ _)
  obtain ⟨_,others,apart⟩ := (jobIdsSplit (a := a)).mp keyed
  rw [jobIdsSplit (a := a) (t := t.bindJob jobId s k),mine,theirs]
  refine ⟨fun unique => ⟨unique,others,?_⟩,And.left⟩
  intro id member
  obtain ⟨r,inside,rfl⟩ := List.mem_map.mp member
  obtain ⟨old,source,rfl⟩ := List.mem_map.mp inside
  split
  · exact free
  · exact apart _ (List.mem_map.mpr ⟨old,source,rfl⟩)

end Tables

/-- The job id about to be written is already the primary key of another client's row. -/
def Collides (a : String) (w : World) : Op → Prop
  | .sql (.insertReceipt r) => r.jobId ∈ (w.db.view.others a).jobIds
  | .sql (.updateJobId jobId _ _) => jobId ∈ (w.db.view.others a).jobIds
  | _ => False

theorem runOnly {x : Context} {w : World} {s : Statement} (confined : x.Confined w (.sql s))
    (keyed : w.db.view.jobIds.Nodup) (free : ¬ Collides x.clientId w (.sql s)) :
    s.run (w.db.view.only x.clientId) =
      (s.run w.db.view).map fun out => (out.1,out.2.only x.clientId) := by
  cases s with
  | pragmas | createTables | selectVersion | insertVersion _ | updateIncomplete _
  | selectReceiptByJob _ => exact confined.elim
  | insertClaim c =>
    have added := Tables.rowsAddClaim (t := w.db.view) (c := c) (p := (· = x.clientId))
    have own : c.key.clientId = x.clientId := confined
    simp only [own,decide_true,if_true] at added
    simp only [Statement.run,Tables.onlyClaimed own]
    split
    · rfl
    · exact congrArg (fun t => Except.ok (1,t)) added.symm
  | insertReceipt r =>
    have added := Tables.rowsAddReceipt (t := w.db.view) (r := r) (p := (· = x.clientId))
    have own : r.clientId = x.clientId := confined
    simp only [own,decide_true,if_true] at added
    simp only [Statement.run,Tables.onlyJobIds free]
    split
    · rfl
    · exact congrArg (fun t => Except.ok (1,t)) added.symm
  | updateState state jobId =>
    have mapped : (w.db.view.setState state jobId).only x.clientId =
        (w.db.view.only x.clientId).setState state jobId := Tables.rowsMap (Tables.setStateKeeps _ _)
    simp only [Statement.run,Except.map,mapped,Tables.onlyCount (Tables.ownedCount keyed confined)]
  | updateStateByRequest state k =>
    have mapped : (w.db.view.setStateByRequest state k).only x.clientId =
        (w.db.view.only x.clientId).setStateByRequest state k :=
      Tables.rowsMap (Tables.setStateByRequestKeeps _ _)
    simp only [Statement.run,Except.map,mapped,Tables.onlyCount (Tables.keyCount confined)]
  | updateJobId jobId state k =>
    have mapped : (w.db.view.bindJob jobId state k).only x.clientId =
        (w.db.view.only x.clientId).bindJob jobId state k := Tables.rowsMap (Tables.bindJobKeeps _ _ _)
    simp only [Statement.run,Tables.onlyBindUnique keyed confined free,
      Tables.onlyCount (Tables.keyCount confined)]
    split
    · exact congrArg (fun t => Except.ok (_,t)) mapped.symm
    · rfl
  | deleteReceipts k =>
    have removed : (w.db.view.removeReceipts k).only x.clientId =
        (w.db.view.only x.clientId).removeReceipts k := Tables.rowsRemoveReceipts
    simp only [Statement.run,Except.map,removed,Tables.onlyCount (Tables.keyCount confined)]
  | deleteClaims k =>
    have removed : (w.db.view.removeClaims k).only x.clientId =
        (w.db.view.only x.clientId).removeClaims k := Tables.rowsRemoveClaims
    simp only [Statement.run,Except.map,removed,Tables.onlyClaimCount confined]
  | selectReceipt k => simp only [Statement.run,Except.map,Tables.onlyReceipt confined]
  | countOwned clientId jobId =>
    have own : ∀ r ∈ w.db.view.jobReceipts, decide (r.clientId = clientId ∧ r.jobId = jobId) = true →
        r.clientId = x.clientId := by
      intro r _ named
      exact (of_decide_eq_true named).1.trans confined
    simp only [Statement.run,Except.map,Tables.onlyCount own]

/-! ## Whole handlings -/

namespace Connection

def only (a : String) (c : Connection) : Connection := ⟨c.durable.only a,c.txn.map (Tables.only a)⟩

/- job_id is the primary key of job_receipts, inside a transaction too. -/
def Keyed (c : Connection) : Prop := c.durable.jobIds.Nodup ∧ ∀ t, c.txn = some t → t.jobIds.Nodup

variable {a : String} {c : Connection}

theorem onlyView : (c.only a).view = c.view.only a := by
  obtain ⟨durable,txn⟩ := c
  cases txn <;> rfl

theorem onlyWrite {t : Tables} : (c.only a).write (t.only a) = (c.write t).only a := by
  obtain ⟨durable,txn⟩ := c
  cases txn <;> rfl

theorem keyedView (keyed : c.Keyed) : c.view.jobIds.Nodup := by
  obtain ⟨durable,txn⟩ := c
  cases txn with
  | none => exact keyed.1
  | some t => exact keyed.2 t rfl

theorem keyedWrite {t : Tables} (keyed : c.Keyed) (unique : t.jobIds.Nodup) : (c.write t).Keyed := by
  obtain ⟨durable,txn⟩ := c
  cases txn with
  | none => exact ⟨unique,fun _ same => by cases same⟩
  | some u => exact ⟨keyed.1,fun _ same => by cases same; exact unique⟩

theorem beginOnly (o : SqlOutcome) : (c.only a).beginImmediate o =
    ((c.beginImmediate o).1,(c.beginImmediate o).2.only a) := by
  obtain ⟨durable,txn⟩ := c
  cases o <;> cases txn <;> rfl

theorem commitOnly (o : SqlOutcome) : (c.only a).commit o =
    ((c.commit o).1,(c.commit o).2.only a) := by
  obtain ⟨durable,txn⟩ := c
  cases o with
  | fault rolledBack => cases rolledBack <;> rfl
  | done => cases txn <;> rfl

theorem rollbackOnly (o : SqlOutcome) : (c.only a).rollback o =
    ((c.rollback o).1,(c.rollback o).2.only a) := by
  obtain ⟨durable,txn⟩ := c
  cases o <;> cases txn <;> rfl

theorem beginKeyed (o : SqlOutcome) (keyed : c.Keyed) : (c.beginImmediate o).2.Keyed := by
  obtain ⟨durable,txn⟩ := c
  cases o with
  | fault _ => exact keyed
  | done =>
    cases txn with
    | none => exact ⟨keyed.1,fun t same => by cases same; exact keyed.1⟩
    | some t => exact keyed

theorem commitKeyed (o : SqlOutcome) (keyed : c.Keyed) : (c.commit o).2.Keyed := by
  obtain ⟨durable,txn⟩ := c
  cases o with
  | fault rolledBack =>
    cases rolledBack with
    | false => exact keyed
    | true => exact ⟨keyed.1,fun t same => by cases same⟩
  | done =>
    cases txn with
    | none => exact keyed
    | some t => exact ⟨keyed.2 t rfl,fun t same => by cases same⟩

theorem rollbackKeyed (o : SqlOutcome) (keyed : c.Keyed) : (c.rollback o).2.Keyed := by
  obtain ⟨durable,txn⟩ := c
  cases o with
  | fault _ => exact keyed
  | done =>
    cases txn with
    | none => exact keyed
    | some t => exact ⟨keyed.1,fun t same => by cases same⟩

end Connection

theorem runKeyed {s : Statement} {t t' : Tables} {result : s.Result} (keyed : t.jobIds.Nodup)
    (ran : s.run t = .ok (result,t')) : t'.jobIds.Nodup := by
  cases s with
  | insertClaim c =>
    simp only [Statement.run] at ran
    split at ran <;> cases ran
    exact keyed
  | insertReceipt r =>
    simp only [Statement.run] at ran
    split at ran <;> cases ran
    rename_i fresh
    simp only [Tables.jobIds,Tables.addReceipt,List.map_append,List.map_cons,List.map_nil]
    exact keyed.append (List.nodup_singleton _) (by simpa using fresh)
  | updateJobId jobId state k =>
    simp only [Statement.run] at ran
    split at ran <;> cases ran
    assumption
  | updateState state jobId =>
    cases ran
    rw [Tables.setStateJobIds]
    exact keyed
  | updateStateByRequest state k =>
    cases ran
    rw [Tables.setStateByRequestJobIds]
    exact keyed
  | updateIncomplete state =>
    cases ran
    rw [Tables.markIncompleteJobIds]
    exact keyed
  | deleteReceipts k =>
    cases ran
    exact (List.filter_sublist.map _).nodup keyed
  | _ =>
    cases ran
    exact keyed

theorem answerKeyed {w : World} (op : Op) (c : Choice op) (keyed : w.db.Keyed) :
    (machine.answer w op c).2.db.Keyed := by
  cases op with
  | beginImmediate => exact Connection.beginKeyed c keyed
  | commit => exact Connection.commitKeyed c keyed
  | rollback => exact Connection.rollbackKeyed c keyed
  | sql s =>
    simp only [machine,World.answer,noteStatementDb,World.withDb]
    cases c with
    | fault rolledBack => exact keyed
    | done =>
      simp only [Connection.execute]
      cases ran : s.run w.db.view with
      | error e => exact keyed
      | ok out => exact Connection.keyedWrite keyed (runKeyed (Connection.keyedView keyed) ran)
  | readBody length => cases c <;> exact keyed
  | _ => exact keyed

theorem runPrimaryKeys (cfg : Config) (events : List Event) : (run cfg events).world.db.Keyed := by
  refine runKeeps (I := fun s : State => s.world.db.Keyed) ⟨List.nodup_nil,fun _ same => by cases same⟩
    ?_ events
  intro s s' moved keyed
  cases moved with
  | halted => exact ⟨keyed.1,fun _ same => by cases same⟩
  | starting w auth op next c | accepting w auth op next c
  | handling w auth session input since op next c => exact answerKeyed op c keyed
  | _ => exact keyed

/-- A world and what is left of it without the others' rows. -/
def Alike (a : String) (w v : World) : Prop := v.db = w.db.only a ∧ v.stream = w.stream

theorem executeAlike {x : Context} {w : World} {s : Statement} (c : SqlOutcome)
    (confined : x.Confined w (.sql s)) (keyed : w.db.Keyed)
    (free : ¬ Collides x.clientId w (.sql s)) :
    (w.db.only x.clientId).execute s c =
      ((w.db.execute s c).1,(w.db.execute s c).2.only x.clientId) := by
  cases c with
  | fault rolledBack => rfl
  | done =>
    have same := runOnly confined (Connection.keyedView keyed) free
    simp only [Connection.execute,Connection.onlyView,same]
    cases s.run w.db.view with
    | error e => rfl
    | ok out => simp only [Except.map,Connection.onlyWrite]

theorem answerAlike {x : Context} {w v : World} {op : Op} (c : Choice op) (confined : x.Confined w op)
    (keyed : w.db.Keyed) (alike : Alike x.clientId w v) (free : ¬ Collides x.clientId w op) :
    (machine.answer v op c).1 = (machine.answer w op c).1 ∧
      Alike x.clientId (machine.answer w op c).2 (machine.answer v op c).2 := by
  obtain ⟨db,stream⟩ := alike
  cases op with
  | sql s =>
    have same := executeAlike c confined keyed free
    refine ⟨?_,?_,?_⟩
    · simp only [machine,World.answer,db,same]
    · simp only [machine,World.answer,noteStatementDb,World.withDb,db,same]
    · cases s <;> exact stream
  | beginImmediate =>
    have same := Connection.beginOnly (c := w.db) (a := x.clientId) c
    exact ⟨by simp only [machine,World.answer,db,same],
      by simp only [machine,World.answer,World.withDb,db,same],stream⟩
  | commit =>
    have same := Connection.commitOnly (c := w.db) (a := x.clientId) c
    exact ⟨by simp only [machine,World.answer,db,same],
      by simp only [machine,World.answer,World.withDb,db,same],stream⟩
  | rollback =>
    have same := Connection.rollbackOnly (c := w.db) (a := x.clientId) c
    exact ⟨by simp only [machine,World.answer,db,same],
      by simp only [machine,World.answer,World.withDb,db,same],stream⟩
  | lockStream => exact ⟨by simp only [machine,World.answer,stream],db,stream⟩
  | storeStream present => exact ⟨rfl,db,rfl⟩
  | readBody length => cases c <;> exact ⟨rfl,db,stream⟩
  | _ => exact ⟨rfl,db,stream⟩

/-- One frame of a session handled from a world, as far as these answers take it. -/
def handled (cfg : Config) (auth : BrokerAuth) (session : Session) (input : Input) (w : World)
    (oracles : List (Machine.Oracle Choice)) : World × Handler (Option Session) :=
  machine.drive oracles w (handleInput cfg auth (some session) input)

/-- The handling writes no job id that another client's row already has. -/
def Uncollided (cfg : Config) (auth : BrokerAuth) (session : Session) (input : Input) (w : World)
    (oracles : List (Machine.Oracle Choice)) : Prop :=
  ∀ n op next, (handled cfg auth session input w (oracles.take n)).2 = .call op next →
    ¬ Collides session.welcome.clientId (handled cfg auth session input w (oracles.take n)).1 op

theorem handledAlike {cfg : Config} {auth : BrokerAuth} {session : Session} {input : Input}
    {w v : World} {oracles : List (Machine.Oracle Choice)} (calm : w.Calm) (keyed : w.db.Keyed)
    (alike : Alike session.welcome.clientId w v)
    (uncollided : Uncollided cfg auth session input w oracles) :
    (handled cfg auth session input v oracles).2 = (handled cfg auth session input w oracles).2 := by
  have each : ∀ op u (g : Inflight) u' g' v c,
      Allowed cfg (contextOf (some session) input w) op u g u' g' →
      u.db.Keyed ∧ Alike session.welcome.clientId u v → ¬ Collides session.welcome.clientId u op →
      (machine.answer v op c).1 = (machine.answer u op c).1 ∧
      (machine.answer u op c).2.db.Keyed ∧
        Alike session.welcome.clientId (machine.answer u op c).2 (machine.answer v op c).2 := by
    rintro op u g u' g' v c allowed ⟨keyed,alike⟩ free
    have same := answerAlike c allowed.confined keyed alike free
    exact ⟨same.1,answerKeyed op c keyed,same.2⟩
  exact Machine.driveAgree each (handleInputEnsures calm) ⟨keyed,alike⟩ oracles uncollided

/-- For every frame of client a in every state of a run: whatever call it is at, the next
event leaves the others' rows alone; a request that is written to the executor names run
ids of a's receipts only; and the handling goes through the same calls, replies included,
as in a world without the others' rows, as long as it writes no job id of theirs. -/
theorem clientIsolation (cfg : Config) (events : List Event) :
    let s := run cfg events
    (∀ x op e, s.pending = some (x,op) →
      (step cfg s e).world.db.durable.others x.clientId = s.world.db.durable.others x.clientId) ∧
    (∀ x clientId request frame, s.pending = some (x,.writeRequest clientId request frame) →
      clientId = x.clientId ∧ ∀ id ∈ forwardedRunIds request, s.world.db.view.Owned x.clientId id) ∧
    (∀ auth session input v oracles, s.phase = .serving auth (some session) →
      Alike session.welcome.clientId s.world v →
      Uncollided cfg auth session input s.world oracles →
      (handled cfg auth session input v oracles).2 =
        (handled cfg auth session input s.world oracles).2) := by
  intro s
  obtain ⟨g,sound,phase⟩ : s.Good cfg := runGood events
  refine ⟨?_,?_,?_⟩
  · intro x op e pending
    obtain ⟨label,g',moves,_,process | ⟨idle,_⟩ | ⟨y,op',pending',permits⟩⟩ :=
      transitionGood (stepTransition cfg s e) phase
    · exact congrArg (Tables.others x.clientId) (silentTables moves process)
    · rw [pending] at idle
      cases idle
    · cases pending.symm.trans pending'
      exact permittedOthers moves rfl sound.consistent.jobIds permits
  · intro x clientId request frame pending
    exact (pendingAllowed (runGood events) pending).1
  · intro auth session input v oracles serving alike uncollided
    rw [serving] at phase
    exact handledAlike phase.2 (runPrimaryKeys cfg events) alike uncollided

/-! ## A run id given out twice -/

def State.only (a : String) (s : State) : State :=
  {s with world := {s.world with db := s.world.db.only a}}

/-- The call is the reply that the request succeeded. -/
def State.succeeds (s : State) : Bool :=
  match s.phase with
  | .handling _ _ _ _ (.call (.send (.response r)) _) => replySucceeded r.reply
  | _ => false

/-- The executor gives client a:b the run id runtime_1, then client a connects. -/
def sharedRun : List Event :=
  booting ++ connecting claimsB ++ [frameB 1 .start "c" (.object [])] ++
  answers 24 (executorReply .start "c" (.object [("runId",.string "runtime_1")])) ++
  [.receive .closed] ++ answers 1 .null ++ connecting claimsA

/-- The executor gives client a's start the same run id: the job id's primary key refuses
the binding. Without the other client's row the start succeeds. -/
theorem sharedRunIdRefused :
    let cfg := smallConfig true [executorReply .start "c" (.object [("runId",.string "runtime_1")]),
      startReply]
    let s := run cfg sharedRun
    let asked := fun n => frameA 1 .start "r" (.object []) :: answers n startReply
    ((asked 22).foldl (step cfg) s).refusal = some "invalid_frame" ∧
    ((asked 19).foldl (step cfg) (s.only "a")).succeeds = true := by
  decide +kernel

end Northstar.Broker
