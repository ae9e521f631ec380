import Northstar.Broker.Daemon
import Northstar.Broker.Ledger

/-! What one call of a handler may do: take at most one step of the ledger, stay with
the rows of its own client, and say only what is so. Below it, one rule for each kind
of call; the handlers are proved from these rules and never from the machine. -/
namespace Northstar.Broker

def World.ledger (w : World) (g : Inflight) : Ledger := ⟨w.db.durable,w.started,w.bound,w.faults,g⟩

/- A transaction is left open only after a statement has failed. -/
def World.Calm (w : World) : Prop := w.db.txn = none ∨ 0 < w.faults

/-- Calls that leave the database and the executor exchange alone. -/
structure World.Steady (w w' : World) : Prop where
  db : w'.db = w.db
  started : w'.started = w.started
  bound : w'.bound = w.bound
  faults : w'.faults = w.faults
  writes : w'.writes = w.writes
  replyBody : w'.replyBody = w.replyBody

/-- Calls of the database. -/
structure World.DbOnly (w w' : World) : Prop where
  started : w'.started = w.started
  bound : ∀ id ∈ w.bound, id ∈ w'.bound
  faults : w.faults ≤ w'.faults
  writes : w'.writes = w.writes
  replyBody : w'.replyBody = w.replyBody

namespace World
variable {u v w : World}

theorem Steady.refl (w : World) : w.Steady w := ⟨rfl,rfl,rfl,rfl,rfl,rfl⟩

theorem Steady.trans (first : u.Steady v) (second : v.Steady w) : u.Steady w :=
  ⟨second.db.trans first.db,second.started.trans first.started,second.bound.trans first.bound,
    second.faults.trans first.faults,second.writes.trans first.writes,
    second.replyBody.trans first.replyBody⟩

theorem Steady.dbOnly (h : u.Steady v) : u.DbOnly v :=
  ⟨h.started,fun _ member => h.bound ▸ member,h.faults.ge,h.writes,h.replyBody⟩

theorem Steady.calm (h : u.Steady v) (calm : u.Calm) : v.Calm := by
  unfold Calm at *
  rw [h.db,h.faults]
  exact calm

theorem DbOnly.refl (w : World) : w.DbOnly w := (Steady.refl w).dbOnly

theorem DbOnly.trans (first : u.DbOnly v) (second : v.DbOnly w) : u.DbOnly w :=
  ⟨second.started.trans first.started,fun id member => second.bound id (first.bound id member),
    first.faults.trans second.faults,second.writes.trans first.writes,
    second.replyBody.trans first.replyBody⟩

end World

/-- The frame a call is made for: its client, what it asks, and the world it came into. -/
structure Context where
  clientId : String
  request : Option RuntimeRpcRequest
  query : Option SubmissionReceiptQuery
  since : World

def Context.key (x : Context) (request : RuntimeRpcRequest) : Key := ⟨x.clientId,request.requestId⟩

/-- A claim insert for this request would meet a primary key that is already there. -/
def Duplicates (cfg : Config) (method : RpcMethod) (k : Key) (t : Tables) : Prop :=
  k ∈ t.claimKeys ∨ (method = .start ∧ provisionalJobId cfg k ∈ t.jobIds)

def replyErrorCode (reply : Value) : Option String := (reply.get "error").bind (·.getStr "code")

def Context.CancelLost (cfg : Config) (x : Context) (w : World) (jobId : String) : Prop :=
  ∃ request runIds, x.request = some request ∧ request.method = .cancelAndSettle ∧
    cancelRunIds request.params = some runIds ∧ jobId ∈ runIds ∧
    (w.replyBody = none ∨ ∃ body, w.replyBody = some body ∧
      ∀ reply, cfg.fromSlice body = some reply → replyEchoes request reply = false)

def Context.Permits (cfg : Config) (x : Context) (w : World) : Label → Prop
  | .quiet => True
  | .claim k | .release k | .dispatch k | .write k | .settle k _ | .bind k _ | .claimCancel k
  | .releaseCancel k => k.clientId = x.clientId
  | .complete jobId => w.db.durable.Owned x.clientId jobId
  | .markUnknown jobId => w.db.durable.Owned x.clientId jobId ∧ x.CancelLost cfg w jobId
  | .migrate | .recover | .rest | .halt => False

def forwardedRunIds (request : RuntimeRpcRequest) : List String :=
  match request.method with
  | .status | .result => (request.params.getStr "runId").toList
  | .cancelAndSettle => (((request.params.get "runIds").bind Value.asArray).getD []).filterMap
      Value.asStr
  | .negotiate | .start => []

/-- The call names no row and no run id of another client. -/
def Context.Confined (x : Context) (w : World) : Op → Prop
  | .sql (.insertClaim c) => c.key.clientId = x.clientId
  | .sql (.insertReceipt r) => r.clientId = x.clientId
  | .sql (.updateState _ jobId) => w.db.view.Owned x.clientId jobId
  | .sql (.updateStateByRequest _ k) | .sql (.updateJobId _ _ k) | .sql (.deleteReceipts k)
  | .sql (.deleteClaims k) | .sql (.selectReceipt k) => k.clientId = x.clientId
  | .sql (.countOwned clientId _) => clientId = x.clientId
  | .sql _ => False
  | .writeRequest clientId request _ => clientId = x.clientId ∧
      ∀ id ∈ forwardedRunIds request, w.db.view.Owned x.clientId id
  | _ => True

/-- What the broker says about duplicates, about an unreached executor and about a
receipt is so. -/
def Context.Truthful (cfg : Config) (x : Context) (w : World) : Op → Prop
  | .send (.error e) => e.code = "duplicate_mutation" → ∀ request, x.request = some request →
      request.method = .start → Duplicates cfg .start (x.key request) w.db.durable
  | .send (.response r) => replyErrorCode r.reply = some "runtime_unavailable" →
      w.writes = x.since.writes → w.faults = x.since.faults → ∀ request, x.request = some request →
      request.method = .start ∨ (request.method = .cancelAndSettle ∧ cfg.executor = false) →
      ¬ Duplicates cfg request.method (x.key request) w.db.view
  | .send (.queryResponse r) => ∀ query, x.query = some query →
      r.receipt = w.db.view.submission ⟨x.clientId,query.requestId⟩
  | .sql (.insertClaim c) => ∃ request, x.request = some request ∧
      c = ⟨x.key request,request.method⟩ ∧ (request.method = .start → w.db.view = w.db.durable)
  | .sql (.insertReceipt r) => ∃ request, x.request = some request ∧ r.key = x.key request ∧
      r.jobId = provisionalJobId cfg r.key ∧ w.db.view.jobIds = w.db.durable.jobIds
  | _ => True

structure Allowed (cfg : Config) (x : Context) (op : Op) (w : World) (g : Inflight)
    (w' : World) (g' : Inflight) : Prop where
  ledger : ∃ label, Ledger.Step (provisionalJobId cfg) label (w.ledger g) (w'.ledger g') ∧
    x.Permits cfg w label
  confined : x.Confined w op
  truthful : x.Truthful cfg w op

section
variable {cfg : Config} {x : Context} {α : Type} {w : World} {g : Inflight}
  {post : α → World → Inflight → Prop}

theorem quietStep {w' : World} (durable : w'.db.durable = w.db.durable) (kept : w.DbOnly w') :
    ∃ label, Ledger.Step (provisionalJobId cfg) label (w.ledger g) (w'.ledger g) ∧
      x.Permits cfg w label :=
  ⟨.quiet,.quiet durable kept.started kept.bound kept.faults rfl,trivial⟩

theorem withDbOnly (db : Connection) (outcome : SqlOutcome) : w.DbOnly (w.withDb db outcome) := by
  refine ⟨rfl,fun _ member => member,?_,rfl,rfl⟩
  simp only [World.withDb]
  split <;> omega

theorem noteStatementOnly (s : Statement) : w.DbOnly (w.noteStatement s) := by
  refine ⟨?_,?_,?_,?_,?_⟩
  · cases s <;> rfl
  · intro id member
    cases s <;> first | exact member | exact List.mem_append_left _ member
  · cases s <;> exact Nat.le_refl _
  · cases s <;> rfl
  · cases s <;> rfl

theorem noteStatementDb (s : Statement) : (w.noteStatement s).db = w.db := by cases s <;> rfl

theorem noteStatementFaults (s : Statement) : (w.noteStatement s).faults = w.faults := by
  cases s <;> rfl

theorem faultCounted (db : Connection) (rolledBack : Bool) :
    (w.withDb db (.fault rolledBack)).faults = w.faults + 1 := by
  simp [World.withDb]

theorem sqlOnly (s : Statement) (c : SqlOutcome) : w.DbOnly (World.answer w (.sql s) c).2 :=
  (withDbOnly _ c).trans (noteStatementOnly s)

/-! ## Transactions -/

theorem beginThen {next : Except SqlError Unit → Handler α} (calm : w.Calm)
    (opened : ∀ w', w.DbOnly w' → w.db.txn = none →
      w'.db = ⟨w.db.durable,some w.db.durable⟩ →
      machine.Ensures (Allowed cfg x) (next (.ok ())) post w' g)
    (refused : ∀ w', w.DbOnly w' → w'.db = w.db → 0 < w'.faults →
      (w.db.txn = none → w.faults < w'.faults) →
      machine.Ensures (Allowed cfg x) (next (.error .failure)) post w' g) :
    machine.Ensures (Allowed cfg x) (call .beginImmediate >>= next) post w g := by
  intro c
  have kept : w.DbOnly (World.answer w .beginImmediate c).2 := withDbOnly _ c
  have durable : (World.answer w .beginImmediate c).2.db.durable = w.db.durable := by
    cases c with
    | fault _ => rfl
    | done => simp only [World.answer,World.withDb,Connection.beginImmediate]; split <;> rfl
  refine ⟨g,⟨quietStep durable kept,trivial,trivial⟩,?_⟩
  cases c with
  | fault rolledBack =>
    have faults := faultCounted (w := w) (w.db.beginImmediate (.fault rolledBack)).2 rolledBack
    refine refused _ kept rfl ?_ ?_
    · simp only [machine,World.answer,faults]
      omega
    · intro _
      simp only [machine,World.answer,faults]
      omega
  | done =>
    cases txn : w.db.txn with
    | none =>
      have reply : (World.answer w .beginImmediate .done).1 = .ok () := by
        simp only [World.answer,Connection.beginImmediate,txn]
      have db : (World.answer w .beginImmediate .done).2.db =
          ⟨w.db.durable,some w.db.durable⟩ := by
        simp only [World.answer,World.withDb,Connection.beginImmediate,txn]
      have result := opened _ kept txn db
      simp only [machine,reply]
      exact result
    | some t =>
      have reply : (World.answer w .beginImmediate .done).1 = .error .failure := by
        simp only [World.answer,Connection.beginImmediate,txn]
      have db : (World.answer w .beginImmediate .done).2.db = w.db := by
        simp only [World.answer,World.withDb,Connection.beginImmediate,txn]
      have positive : 0 < w.faults := by
        rcases calm with closed | positive
        · rw [txn] at closed
          cases closed
        · exact positive
      have result := refused _ kept db (Nat.lt_of_lt_of_le positive kept.faults)
        (fun closed => by rw [txn] at closed; cases closed)
      simp only [machine,reply]
      exact result

theorem sqlThen {s : Statement} {t : Tables} {next : Except SqlError s.Result → Handler α}
    (inside : w.db.txn = some t) (confined : x.Confined w (.sql s))
    (truthful : x.Truthful cfg w (.sql s))
    (ran : ∀ w' result t', w.DbOnly w' → s.run t = .ok (result,t') →
      w'.db = ⟨w.db.durable,some t'⟩ → w'.bound = (w.noteStatement s).bound →
      machine.Ensures (Allowed cfg x) (next (.ok result)) post w' g)
    (broke : ∀ w' e, w.DbOnly w' → w'.db = w.db →
      s.run t = .error e ∨ (e = .failure ∧ w.faults < w'.faults) →
      machine.Ensures (Allowed cfg x) (next (.error e)) post w' g) :
    machine.Ensures (Allowed cfg x) (call (.sql s) >>= next) post w g := by
  intro c
  have kept : w.DbOnly (World.answer w (.sql s) c).2 := sqlOnly s c
  have view : w.db.view = t := by simp [Connection.view,inside]
  cases c with
  | fault rolledBack =>
    have db : (World.answer w (.sql s) (.fault rolledBack)).2.db = w.db := by
      simp only [World.answer,noteStatementDb]
      rfl
    have faults : (World.answer w (.sql s) (.fault rolledBack)).2.faults = w.faults + 1 := by
      simp only [World.answer,noteStatementFaults,faultCounted]
    refine ⟨g,⟨quietStep (congrArg Connection.durable db) kept,confined,truthful⟩,?_⟩
    exact broke _ .failure kept db (.inr ⟨rfl,by simp only [machine]; omega⟩)
  | done =>
    cases ran' : s.run t with
    | error e =>
      have executed : w.db.execute s .done = (.error e,w.db) := by
        simp only [Connection.execute,view,ran']
      have db : (World.answer w (.sql s) .done).2.db = w.db := by
        simp only [World.answer,noteStatementDb,executed]
        rfl
      refine ⟨g,⟨quietStep (congrArg Connection.durable db) kept,confined,truthful⟩,?_⟩
      have result := broke _ e kept db (.inl ran')
      have reply : (World.answer w (.sql s) .done).1 = .error e := by
        simp only [World.answer,executed]
      simp only [machine,reply]
      exact result
    | ok pair =>
      obtain ⟨value,t'⟩ := pair
      have executed : w.db.execute s .done = (.ok value,⟨w.db.durable,some t'⟩) := by
        simp only [Connection.execute,view,ran',Connection.write,inside]
      have db : (World.answer w (.sql s) .done).2.db = ⟨w.db.durable,some t'⟩ := by
        simp only [World.answer,noteStatementDb,executed]
        rfl
      have bound : (World.answer w (.sql s) .done).2.bound = (w.noteStatement s).bound := by
        simp only [World.answer]
        cases s <;> rfl
      have durable : (World.answer w (.sql s) .done).2.db.durable = w.db.durable := by rw [db]
      refine ⟨g,⟨quietStep durable kept,confined,truthful⟩,?_⟩
      have result := ran _ value t' kept ran' db bound
      have reply : (World.answer w (.sql s) .done).1 = .ok value := by
        simp only [World.answer,executed]
      simp only [machine,reply]
      exact result

theorem commitThen {t : Tables} {h : Inflight} {next : Except SqlError Unit → Handler α}
    (inside : w.db.txn = some t)
    (moves : ∃ label, Ledger.Step (provisionalJobId cfg) label (w.ledger g)
      ⟨t,w.started,w.bound,w.faults,h⟩ ∧ x.Permits cfg w label)
    (committed : ∀ w', w.DbOnly w' → w'.db = ⟨t,none⟩ →
      machine.Ensures (Allowed cfg x) (next (.ok ())) post w' h)
    (failed : ∀ w', w.DbOnly w' → w'.db = ⟨w.db.durable,none⟩ ∨ w'.db = w.db →
      w.faults < w'.faults →
      machine.Ensures (Allowed cfg x) (next (.error .failure)) post w' g) :
    machine.Ensures (Allowed cfg x) (call .commit >>= next) post w g := by
  intro c
  have kept : w.DbOnly (World.answer w .commit c).2 := withDbOnly _ c
  cases c with
  | fault rolledBack =>
    have db : (World.answer w .commit (.fault rolledBack)).2.db = ⟨w.db.durable,none⟩ ∨
        (World.answer w .commit (.fault rolledBack)).2.db = w.db := by
      cases rolledBack
      · exact .inr rfl
      · exact .inl rfl
    have durable : (World.answer w .commit (.fault rolledBack)).2.db.durable = w.db.durable := by
      rcases db with gone | open' <;> simp only [*]
    refine ⟨g,⟨quietStep durable kept,trivial,trivial⟩,failed _ kept db ?_⟩
    have faults := faultCounted (w := w) (w.db.commit (.fault rolledBack)).2 rolledBack
    simp only [machine,World.answer,faults]
    omega
  | done =>
    have committed' : w.db.commit .done = (.ok (),⟨t,none⟩) := by
      simp only [Connection.commit,inside]
    have db : (World.answer w .commit .done).2.db = ⟨t,none⟩ := by
      simp only [World.answer,World.withDb,committed']
    have ledger : (World.answer w .commit .done).2.ledger h =
        ⟨t,w.started,w.bound,w.faults,h⟩ := by
      simp only [World.ledger,World.answer,World.withDb,committed',if_true]
    refine ⟨h,⟨?_,trivial,trivial⟩,?_⟩
    · simp only [machine,ledger]
      exact moves
    · have result := committed _ kept db
      have reply : (World.answer w .commit .done).1 = .ok () := by
        simp only [World.answer,committed']
      simp only [machine,reply]
      exact result

theorem rollbackThen {next : Except SqlError Unit → Handler α}
    (each : ∀ w' reply, w.DbOnly w' →
      w'.db = ⟨w.db.durable,none⟩ ∨ (w'.db = w.db ∧ w.faults < w'.faults) →
      machine.Ensures (Allowed cfg x) (next reply) post w' g) :
    machine.Ensures (Allowed cfg x) (call .rollback >>= next) post w g := by
  intro c
  have kept : w.DbOnly (World.answer w .rollback c).2 := withDbOnly _ c
  have db : (World.answer w .rollback c).2.db = ⟨w.db.durable,none⟩ ∨
      ((World.answer w .rollback c).2.db = w.db ∧ w.faults < (World.answer w .rollback c).2.faults) := by
    cases c with
    | fault rolledBack =>
      refine .inr ⟨rfl,?_⟩
      have faults := faultCounted (w := w) (w.db.rollback (.fault rolledBack)).2 rolledBack
      simp only [World.answer,faults]
      omega
    | done =>
      left
      simp only [World.answer,World.withDb,Connection.rollback]
      obtain ⟨durable,txn⟩ := w.db
      cases txn <;> rfl
  have durable : (World.answer w .rollback c).2.db.durable = w.db.durable := by
    rcases db with gone | ⟨open',_⟩ <;> simp only [*]
  exact ⟨g,⟨quietStep durable kept,trivial,trivial⟩,each _ _ kept db⟩

/-! ## Statements outside a transaction -/

theorem readThen {s : Statement} {value : s.Result} {next : Except SqlError s.Result → Handler α}
    (reads : s.run w.db.view = .ok (value,w.db.view)) (confined : x.Confined w (.sql s))
    (truthful : x.Truthful cfg w (.sql s))
    (ran : ∀ w', w.DbOnly w' → w'.db = w.db → w'.faults = w.faults →
      machine.Ensures (Allowed cfg x) (next (.ok value)) post w' g)
    (failed : ∀ w', w.DbOnly w' → w'.db = w.db → w.faults < w'.faults →
      machine.Ensures (Allowed cfg x) (next (.error .failure)) post w' g) :
    machine.Ensures (Allowed cfg x) (call (.sql s) >>= next) post w g := by
  intro c
  have kept : w.DbOnly (World.answer w (.sql s) c).2 := sqlOnly s c
  cases c with
  | fault rolledBack =>
    have db : (World.answer w (.sql s) (.fault rolledBack)).2.db = w.db := by
      simp only [World.answer,noteStatementDb]
      rfl
    have faults : (World.answer w (.sql s) (.fault rolledBack)).2.faults = w.faults + 1 := by
      simp only [World.answer,noteStatementFaults,faultCounted]
    refine ⟨g,⟨quietStep (congrArg Connection.durable db) kept,confined,truthful⟩,?_⟩
    exact failed _ kept db (by simp only [machine]; omega)
  | done =>
    have executed : w.db.execute s .done = (.ok value,w.db) := by
      simp only [Connection.execute,reads,Connection.writeView]
    have db : (World.answer w (.sql s) .done).2.db = w.db := by
      simp only [World.answer,noteStatementDb,executed]
      rfl
    have faults : (World.answer w (.sql s) .done).2.faults = w.faults := by
      simp only [World.answer,noteStatementFaults]
      rfl
    refine ⟨g,⟨quietStep (congrArg Connection.durable db) kept,confined,truthful⟩,?_⟩
    have result := ran _ kept db faults
    have reply : (World.answer w (.sql s) .done).1 = .ok value := by
      simp only [World.answer,executed]
    simp only [machine,reply]
    exact result

/- A cancellation's claim row is inserted and deleted on its own: durable at once, or
lost in a transaction that an earlier failure left open. -/
theorem insertCancelThen {k : Key} {next : Except SqlError Nat → Handler α}
    (own : k.clientId = x.clientId)
    (asked : ∃ request, x.request = some request ∧ k = x.key request ∧
      request.method = .cancelAndSettle)
    (ran : ∀ w' g', w.DbOnly w' → k ∉ w.db.view.claimKeys →
      w'.db = w.db.write (w.db.view.addClaim ⟨k,.cancelAndSettle⟩) →
      (w.db.txn = none ∧ g' = .cancelling k) ∨ (w.db.txn ≠ none ∧ g' = .idle) →
      machine.Ensures (Allowed cfg x) (next (.ok 1)) post w' g')
    (broke : ∀ w' e, w.DbOnly w' → w'.db = w.db →
      machine.Ensures (Allowed cfg x) (next (.error e)) post w' .idle) :
    machine.Ensures (Allowed cfg x)
      (call (.sql (.insertClaim ⟨k,.cancelAndSettle⟩)) >>= next) post w .idle := by
  intro c
  have kept : w.DbOnly (World.answer w (.sql (.insertClaim ⟨k,.cancelAndSettle⟩)) c).2 := sqlOnly _ c
  have truthful : x.Truthful cfg w (.sql (.insertClaim ⟨k,.cancelAndSettle⟩)) := by
    obtain ⟨request,same,rfl,method⟩ := asked
    exact ⟨request,same,by rw [method],fun start => by rw [method] at start; cases start⟩
  cases c with
  | fault rolledBack =>
    exact ⟨.idle,⟨quietStep rfl kept,own,truthful⟩,broke _ .failure kept rfl⟩
  | done =>
    by_cases claimed : k ∈ w.db.view.claimKeys
    · have executed : w.db.execute (.insertClaim ⟨k,.cancelAndSettle⟩) .done =
          (.error .constraintViolation,w.db) := by
        simp only [Connection.execute,Statement.run,if_pos claimed]
      have db : (World.answer w (.sql (.insertClaim ⟨k,.cancelAndSettle⟩)) .done).2.db = w.db := by
        simp only [World.answer,noteStatementDb,executed]
        rfl
      refine ⟨.idle,⟨quietStep (congrArg Connection.durable db) kept,own,truthful⟩,?_⟩
      have result := broke _ .constraintViolation kept db
      have reply : (World.answer w (.sql (.insertClaim ⟨k,.cancelAndSettle⟩)) .done).1 =
          .error .constraintViolation := by simp only [World.answer,executed]
      simp only [machine,reply]
      exact result
    · have executed : w.db.execute (.insertClaim ⟨k,.cancelAndSettle⟩) .done =
          (.ok 1,w.db.write (w.db.view.addClaim ⟨k,.cancelAndSettle⟩)) := by
        simp only [Connection.execute,Statement.run,if_neg claimed]
      have db : (World.answer w (.sql (.insertClaim ⟨k,.cancelAndSettle⟩)) .done).2.db =
          w.db.write (w.db.view.addClaim ⟨k,.cancelAndSettle⟩) := by
        simp only [World.answer,noteStatementDb,executed]
        rfl
      have reply : (World.answer w (.sql (.insertClaim ⟨k,.cancelAndSettle⟩)) .done).1 = .ok 1 := by
        simp only [World.answer,executed]
      cases txn : w.db.txn with
      | none =>
        have view : w.db.view = w.db.durable := by simp only [Connection.view,txn,Option.getD_none]
        refine ⟨.cancelling k,⟨⟨.claimCancel k,?_,own⟩,own,truthful⟩,?_⟩
        · have ledger : (World.answer w (.sql (.insertClaim ⟨k,.cancelAndSettle⟩)) .done).2.ledger
              (.cancelling k) = ⟨w.db.durable.addClaim ⟨k,.cancelAndSettle⟩,w.started,w.bound,
                w.faults,.cancelling k⟩ := by
            simp only [World.ledger,db,Connection.write,txn,view]
            rfl
          simp only [machine,ledger]
          exact .claimCancel (view ▸ claimed)
        · have result := ran _ (.cancelling k) kept claimed db (.inl ⟨txn,rfl⟩)
          simp only [machine,reply]
          exact result
      | some t =>
        have durable : (World.answer w (.sql (.insertClaim ⟨k,.cancelAndSettle⟩)) .done).2.db.durable =
            w.db.durable := by simp only [db,Connection.write,txn]
        refine ⟨.idle,⟨quietStep durable kept,own,truthful⟩,?_⟩
        have result := ran _ .idle kept claimed db (.inr ⟨by simp [txn],rfl⟩)
        simp only [machine,reply]
        exact result

theorem deleteCancelThen {k : Key} {next : Except SqlError Nat → Handler α}
    (own : k.clientId = x.clientId)
    (reached : (w.db.txn = none ∧ g = .cancelling k) ∨ (w.db.txn ≠ none ∧ g = .idle))
    (each : ∀ w' g' reply, w.DbOnly w' → (w'.db.txn = none ↔ w.db.txn = none) →
      g' = .idle ∨ g' = .cancelling k →
      w.faults < w'.faults ∨ w'.db.view = w.db.view.removeClaims k →
      machine.Ensures (Allowed cfg x) (next reply) post w' g') :
    machine.Ensures (Allowed cfg x) (call (.sql (.deleteClaims k)) >>= next) post w g := by
  intro c
  have kept : w.DbOnly (World.answer w (.sql (.deleteClaims k)) c).2 := sqlOnly _ c
  cases c with
  | fault rolledBack =>
    have faults : (World.answer w (.sql (.deleteClaims k)) (.fault rolledBack)).2.faults =
        w.faults + 1 := by
      simp only [World.answer,noteStatementFaults,faultCounted]
    refine ⟨g,⟨quietStep rfl kept,own,trivial⟩,each _ _ _ kept Iff.rfl ?_ (.inl ?_)⟩
    · rcases reached with ⟨_,same⟩ | ⟨_,same⟩
      · exact .inr same
      · exact .inl same
    · simp only [machine]
      omega
  | done =>
    have db : (World.answer w (.sql (.deleteClaims k)) .done).2.db =
        w.db.write (w.db.view.removeClaims k) := rfl
    rcases reached with ⟨txn,rfl⟩ | ⟨txn,rfl⟩
    · have view : w.db.view = w.db.durable := by simp only [Connection.view,txn,Option.getD_none]
      have ledger : (World.answer w (.sql (.deleteClaims k)) .done).2.ledger .idle =
          ⟨w.db.durable.removeClaims k,w.started,w.bound,w.faults,.idle⟩ := by
        simp only [World.ledger,db,Connection.write,txn,view]
        rfl
      refine ⟨.idle,⟨⟨.releaseCancel k,?_,own⟩,own,trivial⟩,each _ _ _ kept ?_ (.inl rfl) (.inr ?_)⟩
      · simp only [machine,ledger]
        exact .releaseCancel
      · simp only [machine,db,Connection.write,txn]
      · simp only [machine,db,Connection.write,txn,Connection.viewNone]
    · obtain ⟨t,opened⟩ := Option.ne_none_iff_exists'.mp txn
      have durable : (World.answer w (.sql (.deleteClaims k)) .done).2.db.durable = w.db.durable := by
        simp only [db,Connection.write,opened]
      refine ⟨.idle,⟨quietStep durable kept,own,trivial⟩,each _ _ _ kept ?_ (.inl rfl) (.inr ?_)⟩
      · simp [machine,db,Connection.write,opened]
      · simp only [machine,db,Connection.write,opened,Connection.viewSome]

/-! ## Calls that are not the database's -/

/-- Calls that touch neither the rows nor the executor exchange and say nothing that
Truthful restricts. -/
def Harmless : Op → Prop
  | .nowMillis | .nowSecs | .random | .peerIdentity | .sendWelcome _ _ | .lockStream
  | .storeStream _ | .connect | .executorPeer | .socketFileUid | .readTokenFile | .writeAuth _
  | .flush | .setReadTimeout _ | .readLength => True
  | .send (.error e) => e.code ≠ "duplicate_mutation"
  | _ => False

theorem harmlessSteady {op : Op} (harmless : Harmless op) (c : Choice op) :
    w.Steady (machine.answer w op c).2 := by
  cases op with
  | beginImmediate | commit | rollback | sql _ | writeRequest _ _ _ | readBody _ => exact harmless.elim
  | _ => exact ⟨rfl,rfl,rfl,rfl,rfl,rfl⟩

theorem harmlessAllowed {op : Op} (harmless : Harmless op) (c : Choice op) :
    Allowed cfg x op w g (machine.answer w op c).2 g := by
  have steady : w.Steady (machine.answer w op c).2 := harmlessSteady harmless c
  refine ⟨quietStep (congrArg Connection.durable steady.db) steady.dbOnly,?_,?_⟩
  · cases op with
    | sql _ | writeRequest _ _ _ => exact harmless.elim
    | _ => trivial
  · cases op with
    | sql _ => exact harmless.elim
    | send message =>
      cases message with
      | error e => exact fun same => absurd same harmless
      | response _ | queryResponse _ => exact harmless.elim
      | _ => trivial
    | _ => trivial

theorem harmlessEnsures {Q : α → Prop} {p : Handler α} (harmless : p.All Harmless Q) :
    machine.Ensures (Allowed cfg x) p (fun value w' g' => w.Steady w' ∧ g' = g ∧ Q value) w g := by
  have each : ∀ op v c, Harmless op → w.Steady v →
      Allowed cfg x op v g (machine.answer v op c).2 g ∧ w.Steady (machine.answer v op c).2 := by
    intro op v c kind steady
    exact ⟨harmlessAllowed kind c,steady.trans (harmlessSteady kind c)⟩
  exact Machine.ensuresOfAll each harmless (World.Steady.refl w)

theorem harmlessThen {β : Type} {Q : β → Prop} {p : Handler β} {next : β → Handler α}
    (harmless : p.All Harmless Q)
    (each : ∀ value w', w.Steady w' → Q value →
      machine.Ensures (Allowed cfg x) (next value) post w' g) :
    machine.Ensures (Allowed cfg x) (p >>= next) post w g := by
  refine Machine.ensuresThen (harmlessEnsures harmless) ?_
  rintro value w' g' ⟨steady,rfl,ends⟩
  exact each value w' steady ends

theorem quietThen {op : Op} {next : Reply op → Handler α} (harmless : Harmless op)
    (each : ∀ reply w', w.Steady w' → machine.Ensures (Allowed cfg x) (next reply) post w' g) :
    machine.Ensures (Allowed cfg x) (call op >>= next) post w g :=
  harmlessThen (Q := fun _ => True) ⟨harmless,fun _ => trivial⟩ fun reply w' steady _ =>
    each reply w' steady

theorem sendMsgEnsures {message : BrokerMessage} (truthful : x.Truthful cfg w (.send message)) :
    machine.Ensures (Allowed cfg x) (sendMsg message) (fun _ w' g' => w.Steady w' ∧ g' = g) w g := by
  unfold sendMsg
  split
  · exact ⟨World.Steady.refl w,rfl⟩
  · intro c
    exact ⟨g,⟨quietStep rfl (World.DbOnly.refl w),trivial,truthful⟩,World.Steady.refl w,rfl⟩

theorem readBodyThen {length : Nat} {next : Except String Bytes → Handler α}
    (broke : ∀ e, machine.Ensures (Allowed cfg x) (next (.error e)) post w g)
    (came : ∀ body, machine.Ensures (Allowed cfg x) (next (.ok body)) post
      {w with replyBody := some body} g) :
    machine.Ensures (Allowed cfg x) (call (.readBody length) >>= next) post w g := by
  intro c
  have quiet : ∃ label, Ledger.Step (provisionalJobId cfg) label (w.ledger g) (w.ledger g) ∧
      x.Permits cfg w label := quietStep rfl (World.DbOnly.refl w)
  cases c with
  | error e => exact ⟨g,⟨quiet,trivial,trivial⟩,broke e⟩
  | ok body =>
    obtain ⟨label,step,permits⟩ := quiet
    exact ⟨g,⟨⟨label,step,permits⟩,trivial,trivial⟩,came body⟩

theorem writeRequestThen {clientId : String} {request : RuntimeRpcRequest} {frame : Bytes}
    {h : Inflight} {next : Except String Unit → Handler α}
    (moves : ∃ label, Ledger.Step (provisionalJobId cfg) label (w.ledger g)
      ((w.noteWrite clientId request).ledger h) ∧ x.Permits cfg w label)
    (confined : x.Confined w (.writeRequest clientId request frame))
    (each : ∀ reply, machine.Ensures (Allowed cfg x) (next reply) post
      (w.noteWrite clientId request) h) :
    machine.Ensures (Allowed cfg x) (call (.writeRequest clientId request frame) >>= next) post w g :=
  fun c => ⟨h,⟨moves,confined,trivial⟩,each c⟩

end
end Northstar.Broker
