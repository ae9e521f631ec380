import Northstar.Broker.Db

/-! Cancel-and-settle bookkeeping (settle.rs): the receipts of the requested runs are looked up one
by one, and an open one of the client is completed on the way. -/
namespace Northstar.Broker

def maxCancelRunIds : Nat := 64
def minSettlementWindowMs : Nat := 1
def maxSettlementWindowMs : Nat := 10000

inductive SettleError where
  | emptyRunIds | tooManyRunIds | duplicateRunIds | windowOutOfBounds
  | db (e : DbError)
  deriving DecidableEq, Repr

structure SettleRequest where
  runIds : List String
  settlementWindowMs : Nat
  deriving DecidableEq, Repr

structure SettleReport where
  settled : List String
  timedOut : List String
  unknown : List String
  deriving DecidableEq, Repr

def settleValidate (req : SettleRequest) : Except SettleError Unit :=
  if req.runIds = [] then .error .emptyRunIds
  else if maxCancelRunIds < req.runIds.length then .error .tooManyRunIds
  else if ¬req.runIds.Nodup then .error .duplicateRunIds
  else if req.settlementWindowMs < minSettlementWindowMs ∨ maxSettlementWindowMs < req.settlementWindowMs then
    .error .windowOutOfBounds
  else .ok ()

/- The state column is checked, so every state that is read is known. -/
def findByJobId (jobId : String) : Handler (Except DbError (Option ReceiptRecord)) :=
  tryCall (.selectReceiptByJob jobId) fun row => pure (.ok row)

def SettleReport.settle (report : SettleReport) (runId : String) : SettleReport :=
  { report with settled := report.settled ++ [runId] }

def SettleReport.leave (report : SettleReport) (runId : String) : SettleReport :=
  { report with unknown := report.unknown ++ [runId] }

def bookRun (clientId runId : String) (report : SettleReport) : Handler (Except SettleError SettleReport) := do
  match ← findByJobId runId with
  | .error e => pure (.error (.db e))
  | .ok none => pure (.ok (report.leave runId))
  | .ok (some rec) =>
      if rec.clientId ≠ clientId then pure (.ok (report.leave runId))
      else match rec.state with
        | .completed => pure (.ok (report.settle runId))
        | .outcomeUnknown => pure (.ok (report.leave runId))
        | .pending | .dispatched => do
            match ← transitionJob runId .completed with
            | .error e => pure (.error (.db e))
            | .ok () => pure (.ok (report.settle runId))

def bookRuns (clientId : String) : List String → SettleReport → Handler (Except SettleError SettleReport)
  | [], report => pure (.ok report)
  | runId :: rest, report => do
      match ← bookRun clientId runId report with
      | .error e => pure (.error e)
      | .ok booked => bookRuns clientId rest booked

def settleBooks (clientId : String) (req : SettleRequest) : Handler (Except SettleError SettleReport) :=
  match settleValidate req with
  | .error e => pure (.error e)
  | .ok () => bookRuns clientId req.runIds ⟨[],[],[]⟩

/- What the books come to. A run is settled if its receipt is the client's and its outcome is known. -/
def settles (clientId : String) (t : Tables) (runId : String) : Bool :=
  (t.jobReceipts.find? (·.jobId = runId)).any fun r => r.clientId = clientId && r.state ≠ .outcomeUnknown

def Closes (clientId : String) (runIds : List String) (r : ReceiptRecord) : Prop :=
  r.jobId ∈ runIds ∧ r.clientId = clientId ∧ r.state ≠ .outcomeUnknown

instance (clientId : String) (runIds : List String) (r : ReceiptRecord) : Decidable (Closes clientId runIds r) :=
  inferInstanceAs (Decidable (_ ∧ _ ∧ _))

def closeReceipt (clientId : String) (runIds : List String) (r : ReceiptRecord) : ReceiptRecord :=
  if Closes clientId runIds r then { r with state := .completed } else r

def booked (clientId : String) (runIds : List String) : Tables → Tables := Tables.mapReceipts (closeReceipt clientId runIds)

def reported (clientId : String) (t : Tables) (runIds : List String) (report : SettleReport) : SettleReport :=
  ⟨report.settled ++ runIds.filter (settles clientId t),report.timedOut,
    report.unknown ++ runIds.filter fun runId => !settles clientId t runId⟩

/- Only a fault of the database keeps the books from being done. -/
def Booked (clientId : String) (runIds : List String) (report : SettleReport) (t : Tables) (w : World)
    (result : Except SettleError SettleReport) (w' : World) : Prop := match result with
  | .ok out => out = reported clientId t runIds report ∧ w'.db = ⟨booked clientId runIds t,none⟩ ∧ w'.faults = w.faults
  | .error e => (∃ d, e = .db d) ∧ w.faults < w'.faults

abbrev Free : Op → World → Unit → World → Unit → Prop := fun _ _ _ _ _ => True

theorem foundUnique {t : Tables} (once : t.jobIds.Nodup) {r : ReceiptRecord} (member : r ∈ t.jobReceipts) :
    t.jobReceipts.find? (·.jobId = r.jobId) = some r := by
  cases found : t.jobReceipts.find? (·.jobId = r.jobId) with
  | none => exact absurd (decide_eq_true rfl) (List.find?_eq_none.mp found r member)
  | some other =>
    have same : other.jobId = r.jobId := by simpa using List.find?_some found
    exact congrArg some (List.inj_on_of_nodup_map once (List.mem_of_find?_eq_some found) member same)

variable {clientId runId : String} {runIds rest : List String} {t : Tables} {r : ReceiptRecord}

theorem closeJob : (closeReceipt clientId runIds r).jobId = r.jobId := by
  unfold closeReceipt
  split <;> rfl

theorem closeClient : (closeReceipt clientId runIds r).clientId = r.clientId := by
  unfold closeReceipt
  split <;> rfl

theorem closeKnown : (closeReceipt clientId runIds r).state = .outcomeUnknown ↔ r.state = .outcomeUnknown := by
  unfold closeReceipt
  split
  · rename_i closes
    exact ⟨nofun,fun unknown => (closes.2.2 unknown).elim⟩
  · rfl

theorem closeFirst : closeReceipt clientId rest (closeReceipt clientId [runId] r) = closeReceipt clientId (runId :: rest) r := by
  have whole : Closes clientId (runId :: rest) r ↔ Closes clientId [runId] r ∨ Closes clientId rest r := by
    simp only [Closes,List.mem_cons,List.not_mem_nil,or_false,or_and_right]
  have later : Closes clientId rest (closeReceipt clientId [runId] r) ↔ Closes clientId rest r := by
    simp only [Closes,closeJob,closeClient,ne_eq,closeKnown]
  unfold closeReceipt at later ⊢
  by_cases first : Closes clientId [runId] r
  · rw [if_pos first] at later ⊢
    rw [if_pos (whole.mpr (.inl first))]
    split <;> rfl
  · rw [if_neg first] at later ⊢
    simp only [whole,first,false_or]

theorem bookedFirst : booked clientId rest (booked clientId [runId] t) = booked clientId (runId :: rest) t := by
  unfold booked Tables.mapReceipts
  dsimp only
  rw [List.map_map]
  congr 1
  exact List.map_congr_left fun r _ => closeFirst

theorem bookedNone : booked clientId [] t = t := by
  have same : closeReceipt clientId [] = id := funext fun r => if_neg fun closes => List.not_mem_nil closes.1
  unfold booked Tables.mapReceipts
  rw [same,List.map_id]

theorem bookedIds : (booked clientId runIds t).jobIds = t.jobIds := Tables.jobIdsMap fun _ => closeJob

theorem bookedFound : (booked clientId runIds t).jobReceipts.find? (·.jobId = runId) =
    (t.jobReceipts.find? (·.jobId = runId)).map (closeReceipt clientId runIds) := by
  unfold booked Tables.mapReceipts
  dsimp only
  rw [List.find?_map]
  congr 2
  funext r
  simp only [Function.comp,closeJob]

theorem settlesBooked : settles clientId (booked clientId runIds t) = settles clientId t := by
  funext runId
  unfold settles
  rw [bookedFound,Option.any_map]
  congr 1
  funext r
  simp only [closeClient,ne_eq,closeKnown]

theorem reportedFirst {report : SettleReport} : reported clientId t rest (reported clientId t [runId] report) =
    reported clientId t (runId :: rest) report := by
  unfold reported
  cases known : settles clientId t runId <;> simp [known]

theorem reportedBooked {report : SettleReport} :
    reported clientId (booked clientId runIds t) rest report = reported clientId t rest report := by
  unfold reported
  rw [settlesBooked]

/- A run that is not open leaves the table as it is, and one that is open is its only row. -/
theorem bookedStill (once : t.jobIds.Nodup) (done : ∀ r, t.jobReceipts.find? (·.jobId = runId) = some r →
    r.clientId = clientId → r.state = .completed ∨ r.state = .outcomeUnknown) : booked clientId [runId] t = t := by
  have same : t.jobReceipts.map (closeReceipt clientId [runId]) = t.jobReceipts := by
    refine (List.map_congr_left fun r member => ?_).trans (List.map_id _)
    unfold closeReceipt
    split
    · rename_i closes
      have mine := foundUnique once member
      rw [List.mem_singleton.mp closes.1] at mine
      rcases done r mine closes.2.1 with completed | unknown
      · rw [← completed]
        rfl
      · exact (closes.2.2 unknown).elim
    · rfl
  unfold booked Tables.mapReceipts
  rw [same]

theorem bookedOpen (once : t.jobIds.Nodup) (found : t.jobReceipts.find? (·.jobId = runId) = some r)
    (mine : r.clientId = clientId) (known : r.state ≠ .outcomeUnknown) :
    t.setState .completed runId = booked clientId [runId] t := by
  unfold Tables.setState booked Tables.mapReceipts
  congr 1
  refine List.map_congr_left fun other member => ?_
  unfold closeReceipt
  by_cases named : other.jobId = runId
  · have unique := foundUnique once member
    rw [named,found] at unique
    cases Option.some.inj unique
    rw [if_pos named,if_pos ⟨List.mem_singleton.mpr named,mine,known⟩]
  · rw [if_neg named,if_neg fun closes => named (List.mem_singleton.mp closes.1)]

theorem settlesFound (found : t.jobReceipts.find? (·.jobId = runId) = some r) :
    settles clientId t runId = (r.clientId = clientId && r.state ≠ .outcomeUnknown) := by
  unfold settles
  rw [found,Option.any_some]

theorem reportedSettled {report : SettleReport} (known : settles clientId t runId = true) :
    report.settle runId = reported clientId t [runId] report := by
  unfold SettleReport.settle reported
  simp [known]

theorem reportedLeft {report : SettleReport} (unknown : settles clientId t runId = false) :
    report.leave runId = reported clientId t [runId] report := by
  unfold SettleReport.leave reported
  simp [unknown]

/- One statement after the other. -/
theorem foundByJob {w : World} (db : w.db = ⟨t,none⟩) : machine.Ensures Free (findByJobId runId)
    (fun result w' _ => match result with
      | .ok row => row = t.jobReceipts.find? (·.jobId = runId) ∧ w'.db = ⟨t,none⟩ ∧ w'.faults = w.faults
      | .error _ => w.faults < w'.faults) w () := by
  intro c
  refine ⟨(),trivial,?_⟩
  cases c with
  | done =>
    simp [machine,World.answer,World.withDb,World.noteStatement,Connection.execute,Statement.run,db,Machine.Ensures,
      Program.bind]
  | fault rolledBack =>
    simp [machine,World.answer,World.withDb,World.noteStatement,Connection.execute,db,Machine.Ensures,Program.bind]

theorem transitioned {w : World} (db : w.db = ⟨t,none⟩) (there : runId ∈ t.jobIds) (state : JobState) :
    machine.Ensures Free (transitionJob runId state) (fun result w' _ => match result with
      | .ok () => w'.db = ⟨t.setState state runId,none⟩ ∧ w'.faults = w.faults
      | .error _ => w.faults < w'.faults) w () := by
  have some_ : 0 < t.jobReceipts.countP (·.jobId = runId) := by
    obtain ⟨r,member,same⟩ := List.mem_map.mp there
    exact List.countP_pos_iff.mpr ⟨r,member,decide_eq_true same⟩
  obtain ⟨n,count⟩ := Nat.exists_eq_succ_of_ne_zero some_.ne'
  obtain ⟨held,stream,started,granted,bound,writes,faults,replyBody,readings,issued⟩ := w
  cases db
  intro c
  refine ⟨(),trivial,?_⟩
  cases c with
  | fault rolledBack => exact Nat.lt_succ_self faults
  | done =>
    intro d
    refine ⟨(),trivial,?_⟩
    cases d with
    | fault rolledBack =>
      intro e
      refine ⟨(),trivial,?_⟩
      cases e with
      | done => exact Nat.lt_succ_self faults
      | fault again => exact (Nat.lt_succ_self faults).trans (Nat.lt_succ_self _)
    | done =>
      -- the row is there, so the count the update reports is not zero
      simp only [machine,World.answer,World.withDb,World.noteStatement,Connection.beginImmediate,Connection.execute,
        Connection.view,Connection.write,Statement.run,Option.getD_some,count,Program.bind]
      intro e
      refine ⟨(),trivial,?_⟩
      cases e with
      | done => exact ⟨rfl,rfl⟩
      | fault again => exact Nat.lt_succ_self faults

theorem bookedOne {w : World} (db : w.db = ⟨t,none⟩) (once : t.jobIds.Nodup) (report : SettleReport) :
    machine.Ensures Free (bookRun clientId runId report)
      (fun result w' _ => Booked clientId [runId] report t w result w') w () := by
  refine Machine.ensuresThen (foundByJob db) fun result v _ post => ?_
  cases result with
  | error e => exact ⟨⟨e,rfl⟩,post⟩
  | ok row =>
    obtain ⟨found,same,faults⟩ := post
    have left (unknown : settles clientId t runId = false) (still : booked clientId [runId] t = t) :
        Booked clientId [runId] report t w (.ok (report.leave runId)) v :=
      ⟨reportedLeft unknown,by rw [still]; exact same,faults⟩
    cases row with
    | none =>
      refine left ?_ (bookedStill once fun r some_ => nomatch found.trans some_)
      unfold settles
      rw [← found]
      rfl
    | some rec =>
      by_cases foreign : rec.clientId ≠ clientId
      · have unknown : settles clientId t runId = false := by
          rw [settlesFound found.symm,decide_eq_false foreign,Bool.false_and]
        dsimp only
        rw [if_pos foreign]
        refine left unknown (bookedStill once fun r some_ mine => ?_)
        cases Option.some.inj (found.trans some_)
        exact (foreign mine).elim
      · have mine := not_not.mp foreign
        have settled (known : rec.state ≠ .outcomeUnknown) : settles clientId t runId = true := by
          rw [settlesFound found.symm]
          simp [mine,known]
        have transition (known : rec.state ≠ .outcomeUnknown) : machine.Ensures Free (do
            match ← transitionJob runId .completed with
            | .error e => pure (.error (.db e))
            | .ok () => pure (.ok (report.settle runId)))
            (fun result w' _ => Booked clientId [runId] report t w result w') v () := by
          have named : runId ∈ t.jobIds := List.mem_map.mpr ⟨rec,List.mem_of_find?_eq_some found.symm,
            by simpa using List.find?_some found.symm⟩
          refine Machine.ensuresThen (transitioned same named .completed) fun result u _ post => ?_
          cases result with
          | error e => exact ⟨⟨e,rfl⟩,faults ▸ post⟩
          | ok done =>
            rw [bookedOpen once found.symm mine known] at post
            exact ⟨reportedSettled (settled known),post.1,post.2.trans faults⟩
        dsimp only
        rw [if_neg foreign]
        cases state : rec.state with
        | completed =>
          refine ⟨reportedSettled (settled (by rw [state]; decide)),?_,faults⟩
          rw [bookedStill once fun r some_ _ => .inl (Option.some.inj (found.trans some_) ▸ state)]
          exact same
        | outcomeUnknown =>
          refine left ?_ (bookedStill once fun r some_ _ => .inr (Option.some.inj (found.trans some_) ▸ state))
          rw [settlesFound found.symm,state]
          simp
        | pending => exact transition (by rw [state]; decide)
        | dispatched => exact transition (by rw [state]; decide)

theorem bookedAll {w : World} (db : w.db = ⟨t,none⟩) (once : t.jobIds.Nodup) (report : SettleReport) :
    machine.Ensures Free (bookRuns clientId runIds report)
      (fun result w' _ => Booked clientId runIds report t w result w') w () := by
  induction runIds generalizing w t report with
  | nil =>
    refine ⟨?_,by rw [bookedNone]; exact db,rfl⟩
    simp [reported]
  | cons runId rest ih =>
    refine Machine.ensuresThen (bookedOne db once report) fun result v _ post => ?_
    cases result with
    | error e => exact post
    | ok out =>
      obtain ⟨rfl,same,faults⟩ := post
      refine Machine.ensuresMono ?_ (ih same (bookedIds.symm ▸ once) _)
      intro result u _ later
      cases result with
      | error e => exact ⟨later.1,faults ▸ later.2⟩
      | ok out =>
        obtain ⟨rfl,db',faults'⟩ := later
        exact ⟨reportedBooked.trans reportedFirst,by rw [db',bookedFirst],faults'.trans faults⟩

theorem bookedAgain : booked clientId runIds (booked clientId runIds t) = booked clientId runIds t := by
  have same (r : ReceiptRecord) : closeReceipt clientId runIds (closeReceipt clientId runIds r) = closeReceipt clientId runIds r := by
    by_cases closes : Closes clientId runIds r
    · simp only [closeReceipt,if_pos closes]
      split <;> rfl
    · simp only [closeReceipt,if_neg closes]
  unfold booked Tables.mapReceipts
  dsimp only
  rw [List.map_map]
  congr 1
  exact List.map_congr_left fun r _ => same r

/- The books of a request: each run in one list, in order, and of the table only the settled rows changed. -/
structure Balanced (clientId : String) (runIds : List String) (t : Tables) (report : SettleReport) (t' : Tables) : Prop where
  settled : report.settled = runIds.filter (settles clientId t)
  unknown : report.unknown = runIds.filter fun runId => !settles clientId t runId
  timedOut : report.timedOut = []
  known : ∀ runId ∈ report.settled, t.Owned clientId runId
  completed : ∀ runId ∈ report.settled, ∃ r ∈ t'.jobReceipts, r.jobId = runId ∧ r.clientId = clientId ∧ r.state = .completed
  kept : ∀ r ∈ t.jobReceipts, r.clientId ≠ clientId ∨ r.jobId ∉ report.settled → r ∈ t'.jobReceipts
  rows : t'.jobIds = t.jobIds
  rest : t'.mutationClaims = t.mutationClaims ∧ t'.schemaVersion = t.schemaVersion

theorem settlesWitness (yes : settles clientId t runId = true) :
    ∃ r ∈ t.jobReceipts, r.jobId = runId ∧ r.clientId = clientId ∧ r.state ≠ .outcomeUnknown := by
  cases found : t.jobReceipts.find? (·.jobId = runId) with
  | none =>
    unfold settles at yes
    rw [found] at yes
    contradiction
  | some r =>
    rw [settlesFound found] at yes
    simp only [Bool.and_eq_true,decide_eq_true_eq] at yes
    exact ⟨r,List.mem_of_find?_eq_some found,by simpa using List.find?_some found,yes⟩

theorem balanced (once : t.jobIds.Nodup) :
    Balanced clientId runIds t (reported clientId t runIds ⟨[],[],[]⟩) (booked clientId runIds t) where
  settled := rfl
  unknown := rfl
  timedOut := rfl
  known runId member := by
    obtain ⟨r,inside,named,mine,_⟩ := settlesWitness (List.mem_filter.mp member).2
    exact ⟨r,inside,mine,named⟩
  completed runId member := by
    obtain ⟨asked,yes⟩ := List.mem_filter.mp member
    obtain ⟨r,inside,named,mine,known⟩ := settlesWitness yes
    have closes : Closes clientId runIds r := ⟨named ▸ asked,mine,known⟩
    have closed : closeReceipt clientId runIds r = { r with state := .completed } := if_pos closes
    exact ⟨closeReceipt clientId runIds r,List.mem_map_of_mem inside,closeJob.trans named,closeClient.trans mine,by rw [closed]⟩
  kept r inside apart := by
    have still : closeReceipt clientId runIds r = r := if_neg fun closes => by
      rcases apart with foreign | unsettled
      · exact foreign closes.2.1
      · refine unsettled (List.mem_filter.mpr ⟨closes.1,?_⟩)
        rw [settlesFound (foundUnique once inside)]
        simp [closes.2.1,closes.2.2]
    exact still ▸ List.mem_map_of_mem inside
  rows := bookedIds
  rest := ⟨rfl,rfl⟩

/- The second time over the same requests. -/
def Repeats (clientId : String) (req : SettleRequest) (report : SettleReport) (v : World) : Prop :=
  machine.Ensures Free (settleBooks clientId req) (fun again v' _ => match again with
    | .ok out => out = report ∧ v'.db = v.db
    | .error _ => v.faults < v'.faults) v ()

def Books (clientId : String) (req : SettleRequest) (t : Tables) (w : World) (result : Except SettleError SettleReport)
    (w' : World) : Prop := match settleValidate req, result with
  | .error refused, result => result = .error refused ∧ w' = w
  | .ok (), .error e => (∃ d, e = .db d) ∧ w.faults < w'.faults
  | .ok (), .ok report => ∃ t', w'.db = ⟨t',none⟩ ∧ Balanced clientId req.runIds t report t' ∧
      ∀ v : World, v.db = ⟨t',none⟩ → Repeats clientId req report v

/-- A request that is refused changes nothing. Otherwise, unless the database fails, the books balance
and a second application gives the same report and changes nothing. -/
theorem booksBalance (clientId : String) (req : SettleRequest) (t : Tables) (once : t.jobIds.Nodup) (w : World)
    (db : w.db = ⟨t,none⟩) :
    machine.Ensures Free (settleBooks clientId req) (fun result w' _ => Books clientId req t w result w') w () := by
  unfold Books
  unfold settleBooks
  cases valid : settleValidate req with
  | error refused => exact ⟨rfl,rfl⟩
  | ok fine =>
    refine Machine.ensuresMono ?_ (bookedAll db once ⟨[],[],[]⟩)
    intro result w' _ post
    cases result with
    | error e => exact post
    | ok report =>
      obtain ⟨rfl,same,_⟩ := post
      refine ⟨_,same,balanced once,fun v db' => ?_⟩
      unfold Repeats settleBooks
      rw [valid]
      refine Machine.ensuresMono ?_ (bookedAll db' (bookedIds.symm ▸ once) ⟨[],[],[]⟩)
      intro again v' _ post
      cases again with
      | error e => exact post.2
      | ok out =>
        obtain ⟨rfl,db'',_⟩ := post
        exact ⟨reportedBooked,by rw [db'',bookedAgain,db']⟩

def foreignTable : Tables := ⟨some 1,[⟨"job","b","r",.pending,0,none,none⟩],[]⟩

def foreignWorld : World := { World.initial with db := ⟨foreignTable,none⟩ }

theorem foreignBooks : machine.Ensures Free (settleBooks "b" ⟨["job"],1⟩)
    (fun result w' _ => Books "b" ⟨["job"],1⟩ foreignTable foreignWorld result w') foreignWorld () :=
  booksBalance "b" ⟨["job"],1⟩ foreignTable (by decide) foreignWorld rfl

/- The run of another client is in the report, among the unknown ones. -/
theorem foreignReported : (machine.drive [smooth "" []] foreignWorld (settleBooks "a" ⟨["job"],1⟩)).2 =
      .done (.ok ⟨[],[],["job"]⟩) ∧ ¬foreignTable.Owned "a" "job" := by
  refine ⟨rfl,?_⟩
  rintro ⟨r,member,mine,_⟩
  rw [List.mem_singleton.mp member] at mine
  exact absurd mine (by decide)

end Northstar.Broker
