import Northstar.Runtime.Lock

/-! Exclusivity of the broker lock. What a process may conclude from the replies of its
running call is a small automaton; acquire and release only remove a file it allows
them to, and a removal it allows leaves every live owner its file. -/
namespace Northstar.Runtime

inductive Knowledge where
  | nothing
  | created (handle : Nat)
  | written (handle : Nat)
  | closed (handle : Nat)
  | read (value : JsValue)
  | stale

def learn (k : Knowledge) : (op : LockOp) → LockReply op → Knowledge
  | .create, reply => match (reply : CreateReply) with
      | .created handle => .created handle
      | _ => .nothing
  | .write _ _, reply => match k, (reply : Bool) with
      | .created handle, true => .written handle
      | _, _ => .nothing
  | .close _, reply => match k, (reply : Bool) with
      | .written handle, true => .closed handle
      | _, _ => .nothing
  | .read, reply => match (reply : ReadReply) with
      | .parsed value => .read value
      | _ => .nothing
  | .kill _, reply => match (reply : KillReply) with
      | .noSuchProcess => .stale
      | _ => .nothing
  | _, _ => .nothing

def Allowed (pid : Nat) (kind : CallKind) (k : Knowledge) : LockOp → Prop
  | .ensureDirectory => True
  | .create => True
  | .read => True
  | .write handle record => k = .created handle ∧ record.pid = pid
  | .close handle => k = .written handle
  | .kill target => ∃ value, k = .read value ∧ recordPid value = some target
  | .remove => k = .stale ∨
      (kind = .release ∧ ∃ value, k = .read value ∧ recordPid value = some (pid : Int))

/- Every call is allowed by what was learnt before it, and an acquire that returns has
created, written and closed its file. -/
def Follows (pid : Nat) (kind : CallKind) : Knowledge → LockProgram LockOutcome → Prop
  | k, .done (.ok ()) => kind = .acquire → ∃ handle, k = .closed handle
  | _, .done (.error _) => True
  | k, .call op next => Allowed pid kind k op ∧ ∀ reply, Follows pid kind (learn k op reply) (next reply)

theorem openFollows {record : BrokerLockRecord} {kind : CallKind} {k : Knowledge}
    {rest : OpenResult → LockProgram LockOutcome}
    (opened : ∀ handle, Follows record.pid kind (.closed handle) (rest .opened))
    (occupied : Follows record.pid kind .nothing (rest .exists))
    (failed : Follows record.pid kind .nothing (rest .failed)) :
    Follows record.pid kind k (openNew record >>= rest) := by
  refine ⟨trivial,fun reply => ?_⟩
  cases reply with
  | «exists» => exact occupied
  | failed => exact failed
  | created handle =>
    refine ⟨⟨rfl,rfl⟩,fun written => ?_⟩
    cases written with
    | false => exact failed
    | true =>
      refine ⟨rfl,fun closed => ?_⟩
      cases closed with
      | false => exact failed
      | true => exact opened handle

theorem staleFollows {record : BrokerLockRecord} {kind : CallKind} {existing : JsValue}
    {rest : Except LockErrorCode Bool → LockProgram LockOutcome}
    (stale : Follows record.pid kind .stale (rest (.ok true)))
    (other : ∀ k result, result ≠ .ok true → Follows record.pid kind k (rest result)) :
    Follows record.pid kind (.read existing) (assertLockStaleOrHeld existing >>= rest) := by
  unfold assertLockStaleOrHeld
  split
  · exact other _ _ (by simp)
  · split
    · exact other _ _ (by simp)
    · rename_i pid found
      split
      · exact other _ _ (by simp)
      · refine ⟨⟨_,rfl,found⟩,fun reply => ?_⟩
        cases reply with
        | delivered => exact other _ _ (by simp)
        | noSuchProcess => exact stale
        | notPermitted => exact other _ _ (by simp)
        | failed => exact other _ _ (by simp)

theorem retakeFollows {record : BrokerLockRecord} :
    Follows record.pid .acquire .stale (retake record) := by
  refine ⟨.inl rfl,fun removed => ?_⟩
  cases removed with
  | false => trivial
  | true => exact openFollows (fun handle _ => ⟨handle,rfl⟩) trivial trivial

theorem attemptsFollow {record : BrokerLockRecord} (left : Nat) (k : Knowledge) :
    Follows record.pid .acquire k (attempts record left) := by
  induction left generalizing k with
  | zero => trivial
  | succ left ih =>
    refine openFollows (fun handle _ => ⟨handle,rfl⟩) ⟨trivial,fun reply => ?_⟩ trivial
    cases reply with
    | absent => exact ih _
    | unreadable => trivial
    | parsed existing =>
      refine staleFollows retakeFollows fun k result other => ?_
      cases result with
      | error code => trivial
      | ok stale =>
        cases stale with
        | false => trivial
        | true => contradiction

theorem acquireFollows (record : BrokerLockRecord) :
    Follows record.pid .acquire .nothing (acquireBrokerLock record) := by
  refine ⟨trivial,fun ready => ?_⟩
  cases ready with
  | false => trivial
  | true => exact attemptsFollow maxAttempts _

theorem releaseFollows (pid : Nat) : Follows pid .release .nothing (releaseBrokerLock pid) := by
  have finished : ∀ k, Follows pid .release k (.done (.ok ())) := by
    intro k kind
    contradiction
  refine ⟨trivial,fun reply => ?_⟩
  cases reply with
  | absent => exact finished _
  | unreadable => exact finished _
  | parsed value =>
    change Follows _ _ _ (if _ then _ else _)
    split
    · rename_i own
      exact ⟨.inr ⟨rfl,value,rfl,own⟩,fun _ => finished _⟩
    · exact finished _

/- What the state owes to a piece of knowledge. -/
def Knows (s : Machines) (p : Nat) : Knowledge → Prop
  | .nothing => True
  | .created handle => (s.processes p).owns = some handle
  | .written handle => (s.processes p).owns = some handle
  | .closed handle => (s.processes p).owns = some handle
  | .read value => ∃ id, (s.processes p).saw = some id ∧ id < s.files ∧
      ∀ q : Nat, (s.processes q).owns = some id → recordPid value = some (q : Int)
  | .stale => ∃ id, (s.processes p).saw = some id ∧ id < s.files ∧
      ∀ q, (s.processes q).owns ≠ some id

structure Shared (s : Machines) : Prop where
  owned : ∀ (q id : Nat), (s.processes q).owns = some id → ∃ f, s.file = some f ∧ f.id = id ∧
    f.creator = some q ∧ ∀ value, f.content = some value → recordPid value = some (q : Int)
  fresh : ∀ f, s.file = some f → f.id < s.files
  living : ∀ q id, (s.processes q).owns = some id → (s.processes q).alive
  unharmed : ∀ r ∈ s.removals, r.victim = none

structure Local (s : Machines) (p : Nat) : Prop where
  holder : (s.processes p).holds → ∃ id, (s.processes p).owns = some id
  running : ∀ kind program, (s.processes p).call = some (kind,program) →
    (s.processes p).alive ∧ (kind = .release → (s.processes p).holds = false) ∧
      ∃ k, Follows p kind k program ∧ Knows s p k

structure Lawful (s : Machines) : Prop where
  shared : Shared s
  each : ∀ p, Local s p

/- Two live processes never hold the lock at once, and no removal takes the lock file of
another live process. -/
structure Exclusive (s : Machines) : Prop where
  alone : ∀ p q, (s.processes p).holds → (s.processes q).holds → p = q
  unharmed : ∀ r ∈ s.removals, r.victim = none

theorem Shared.oneOwner {s : Machines} (h : Shared s) {p q i j : Nat}
    (left : (s.processes p).owns = some i) (right : (s.processes q).owns = some j) : p = q := by
  obtain ⟨f,file,_,creator,_⟩ := h.owned p i left
  obtain ⟨g,file',_,creator',_⟩ := h.owned q j right
  cases file.symm.trans file'
  exact Option.some.inj (creator.symm.trans creator')

theorem Lawful.exclusive {s : Machines} (h : Lawful s) : Exclusive s where
  alone p q left right := by
    obtain ⟨i,owns⟩ := (h.each p).holder left
    obtain ⟨j,owns'⟩ := (h.each q).holder right
    exact h.shared.oneOwner owns owns'
  unharmed := h.shared.unharmed

/- A step of other processes: files are only added, and new owners own new files. -/
structure Frame (s s' : Machines) (p : Nat) : Prop where
  same : s'.processes p = s.processes p
  files : s.files ≤ s'.files
  owners : ∀ q id, (s'.processes q).owns = some id →
    (s.processes q).owns = some id ∨ s.files ≤ id

theorem Knows.frame {s s' : Machines} {p : Nat} {k : Knowledge}
    (owns : (s'.processes p).owns = (s.processes p).owns)
    (saw : (s'.processes p).saw = (s.processes p).saw) (files : s.files ≤ s'.files)
    (owners : ∀ q id, (s'.processes q).owns = some id →
      (s.processes q).owns = some id ∨ s.files ≤ id) (h : Knows s p k) : Knows s' p k := by
  cases k with
  | nothing => trivial
  | created handle => exact owns.trans h
  | written handle => exact owns.trans h
  | closed handle => exact owns.trans h
  | read value =>
    obtain ⟨id,seen,below,reader⟩ := h
    refine ⟨id,saw.trans seen,Nat.lt_of_lt_of_le below files,fun q owner => ?_⟩
    rcases owners q id owner with old | new
    · exact reader q old
    · omega
  | stale =>
    obtain ⟨id,seen,below,unowned⟩ := h
    refine ⟨id,saw.trans seen,Nat.lt_of_lt_of_le below files,fun q owner => ?_⟩
    rcases owners q id owner with old | new
    · exact unowned q old
    · omega

theorem Local.frame {s s' : Machines} {p : Nat} (f : Frame s s' p) (h : Local s p) : Local s' p where
  holder := f.same ▸ h.holder
  running kind program call := by
    obtain ⟨alive,idle,k,follows,knows⟩ := h.running kind program (f.same ▸ call)
    exact ⟨f.same ▸ alive,f.same ▸ idle,k,follows,
      knows.frame (by rw [f.same]) (by rw [f.same]) f.files f.owners⟩

theorem setSame (s : Machines) (p : Nat) (process : Process) :
    (s.set p process).processes p = process := by
  simp [Machines.set]

theorem setOther (s : Machines) {p q : Nat} (process : Process) (other : q ≠ p) :
    (s.set p process).processes q = s.processes q := by
  simp [Machines.set,other]

/- A process that changes in its own fields only, keeping what it owns or losing it. -/
theorem Shared.set {s : Machines} (h : Shared s) {p : Nat} {process : Process}
    (owns : process.owns = (s.processes p).owns ∨ process.owns = none)
    (alive : process.owns ≠ none → process.alive = (s.processes p).alive) : Shared (s.set p process) := by
  have owner : ∀ q id, ((s.set p process).processes q).owns = some id →
      (s.processes q).owns = some id ∧ ((s.set p process).processes q).alive = (s.processes q).alive := by
    intro q id held
    by_cases same : q = p
    · subst same
      rw [setSame] at held ⊢
      rcases owns with kept | lost
      · exact ⟨kept ▸ held,alive (by simp [held])⟩
      · simp [lost] at held
    · rw [setOther s process same] at held ⊢
      exact ⟨held,rfl⟩
  exact {
    owned := fun q id held => h.owned q id (owner q id held).1
    fresh := h.fresh
    living := fun q id held => (owner q id held).2 ▸ h.living q id (owner q id held).1
    unharmed := h.unharmed }

theorem Frame.set {s : Machines} {p q : Nat} {process : Process} (other : q ≠ p)
    (owns : process.owns = (s.processes p).owns ∨ process.owns = none) :
    Frame s (s.set p process) q where
  same := setOther s process other
  files := Nat.le_refl _
  owners r id held := by
    by_cases same : r = p
    · subst same
      rw [setSame] at held
      rcases owns with kept | lost
      · exact .inl (kept ▸ held)
      · simp [lost] at held
    · exact .inl (setOther s process same ▸ held)

theorem Lawful.set {s : Machines} (h : Lawful s) {p : Nat} {process : Process}
    (owns : process.owns = (s.processes p).owns ∨ process.owns = none)
    (alive : process.owns ≠ none → process.alive = (s.processes p).alive)
    (own : Local (s.set p process) p) : Lawful (s.set p process) where
  shared := h.shared.set owns alive
  each q := by
    by_cases same : q = p
    · exact same ▸ own
    · exact (h.each q).frame (Frame.set same owns)

/- What one answered call leaves: the shared invariant, every other process undisturbed,
and the caller knowing what the reply tells it. -/
structure Answered (s s' : Machines) (p : Nat) (k : Knowledge) : Prop where
  shared : Shared s'
  frame : ∀ q, q ≠ p → Frame s s' q
  knows : Knows s' p k
  alive : (s'.processes p).alive = (s.processes p).alive
  holds : (s'.processes p).holds = (s.processes p).holds
  holder : (s'.processes p).holds → ∃ id, (s'.processes p).owns = some id

theorem Answered.unchanged {s : Machines} {p : Nat} {k : Knowledge} (h : Lawful s)
    (knows : Knows s p k) : Answered s s p k where
  shared := h.shared
  frame _ _ := ⟨rfl,Nat.le_refl _,fun _ _ held => .inl held⟩
  knows := knows
  alive := rfl
  holds := rfl
  holder := (h.each p).holder

theorem answerCreate {s : Machines} (h : Lawful s) {p : Nat} {k : Knowledge}
    (alive : (s.processes p).alive) (fate : Fate) :
    Answered s (s.create p fate).2 p (learn k .create (s.create p fate).1) := by
  unfold Machines.create
  split
  · exact .unchanged h trivial
  · split
    · exact .unchanged h trivial
    · rename_i empty
      have unowned : ∀ q id, (s.processes q).owns ≠ some id := by
        intro q id held
        obtain ⟨f,file,_⟩ := h.shared.owned q id held
        simp [empty] at file
      have owner : ∀ q id, ((({ s with file := some ⟨s.files,some p,none⟩, files := s.files + 1 } :
          Machines).set p { s.processes p with owns := some s.files }).processes q).owns = some id →
          q = p ∧ id = s.files := by
        intro q id held
        by_cases same : q = p
        · subst same
          rw [setSame] at held
          exact ⟨rfl,(Option.some.inj held).symm⟩
        · rw [setOther _ _ same] at held
          exact absurd held (unowned q id)
      exact {
        shared := {
          owned := fun q id held => by
            obtain ⟨rfl,rfl⟩ := owner q id held
            exact ⟨_,rfl,rfl,rfl,fun value none => by contradiction⟩
          fresh := fun f same => by
            cases same
            exact Nat.lt_succ_self _
          living := fun q id held => by
            obtain ⟨rfl,_⟩ := owner q id held
            rw [setSame]
            exact alive
          unharmed := h.shared.unharmed }
        frame := fun q other => ⟨setOther _ _ other,Nat.le_succ _,fun r id held => by
          obtain ⟨_,rfl⟩ := owner r id held
          exact .inr (Nat.le_refl _)⟩
        knows := by
          simp only [learn,Knows,setSame]
        alive := by rw [setSame]
        holds := by rw [setSame]
        holder := fun _ => ⟨s.files,by rw [setSame]⟩ }

theorem recordPidOwn (record : BrokerLockRecord) : recordPid record.json = some (record.pid : Int) := rfl

theorem answerWrite {s : Machines} (h : Lawful s) {p : Nat} {kind : CallKind} {k : Knowledge}
    {handle : Nat} {record : BrokerLockRecord} (knows : Knows s p k)
    (allowed : Allowed p kind k (.write handle record)) (fate : Fate) :
    Answered s (s.write handle record fate).2 p
      (learn k (.write handle record) (s.write handle record fate).1) := by
  obtain ⟨rfl,pid⟩ := allowed
  unfold Machines.write
  split
  · exact .unchanged h trivial
  · exact {
      shared := {
        owned := fun q id held => by
          obtain ⟨f,file,same,creator,content⟩ := h.shared.owned q id held
          have mine := h.shared.oneOwner held knows
          simp only [file,Option.map_some]
          split
          · refine ⟨_,rfl,same,creator,fun value written => ?_⟩
            cases written
            rw [recordPidOwn,pid,mine]
          · exact ⟨f,rfl,same,creator,content⟩
        fresh := fun f file => by
          obtain ⟨g,old,rfl⟩ := Option.map_eq_some_iff.mp file
          have below := h.shared.fresh g old
          split <;> exact below
        living := h.shared.living
        unharmed := h.shared.unharmed }
      frame := fun q other => ⟨rfl,Nat.le_refl _,fun _ _ held => .inl held⟩
      knows := knows
      alive := rfl
      holds := rfl
      holder := (h.each p).holder }

theorem answerRead {s : Machines} (h : Lawful s) {p : Nat} {k : Knowledge} (fate : Fate) :
    Answered s (s.read p fate).2 p (learn k .read (s.read p fate).1) := by
  unfold Machines.read
  split
  · exact .unchanged h trivial
  · split
    · exact .unchanged h trivial
    · rename_i f file
      split
      · exact .unchanged h trivial
      · rename_i value content
        have owns : ∀ q, ((s.set p { s.processes p with saw := some f.id }).processes q).owns =
            (s.processes q).owns := by
          intro q
          by_cases same : q = p
          · rw [same,setSame]
          · rw [setOther _ _ same]
        exact {
          shared := h.shared.set (.inl rfl) fun _ => rfl
          frame := fun q other => Frame.set other (.inl rfl)
          knows := by
            refine ⟨f.id,by rw [setSame],h.shared.fresh f file,fun q held => ?_⟩
            obtain ⟨g,file',same,_,written⟩ := h.shared.owned q f.id (owns q ▸ held)
            cases file.symm.trans file'
            exact written value content
          alive := by rw [setSame]
          holds := by rw [setSame]
          holder := by
            rw [setSame]
            exact (h.each p).holder }

theorem answerKill {s : Machines} (h : Lawful s) {p : Nat} {k : Knowledge} {kind : CallKind}
    {target : Int} (knows : Knows s p k) (allowed : Allowed p kind k (.kill target)) (fate : Fate) :
    Knows s p (learn k (.kill target) (s.kill target fate)) := by
  obtain ⟨value,rfl,named⟩ := allowed
  obtain ⟨id,saw,below,reader⟩ := knows
  -- a process the kill does not find is no owner of the file that names it
  have dead : s.runs target = false → Knows s p .stale := by
    intro absent
    refine ⟨id,saw,below,fun q owns => ?_⟩
    have same := Option.some.inj (named.symm.trans (reader q owns))
    have alive := h.shared.living q id owns
    simp [Machines.runs,same,alive] at absent
  cases fate with
  | works =>
    simp only [Machines.kill]
    split
    · trivial
    · rename_i absent
      exact dead (by simpa using absent)
  | denied =>
    simp only [Machines.kill]
    split <;> trivial
  | fails => trivial

theorem answerRemove {s : Machines} (h : Lawful s) {p : Nat} {k : Knowledge} {kind : CallKind}
    (knows : Knows s p k) (allowed : Allowed p kind k .remove)
    (idle : kind = .release → (s.processes p).holds = false) (fate : Fate)
    (current : fate = .works → ∀ f, s.file = some f → (s.processes p).saw = some f.id) :
    Answered s (s.remove p kind fate).2 p .nothing := by
  unfold Machines.remove
  split
  · exact .unchanged h trivial
  · rename_i works
    split
    · exact .unchanged h trivial
    · rename_i f file
      have saw := current (by simpa using works) f file
      -- only the remover itself can own the file it removes
      have owner : ∀ q, (s.processes q).owns = some f.id → kind = .release ∧ q = p := by
        intro q owns
        rcases allowed with rfl | ⟨release,value,rfl,named⟩
        · obtain ⟨id,same,_,unowned⟩ := knows
          cases saw.symm.trans same
          exact absurd owns (unowned q)
        · obtain ⟨id,same,_,reader⟩ := knows
          cases saw.symm.trans same
          exact ⟨release,by exact_mod_cast Option.some.inj ((reader q owns).symm.trans named)⟩
      have owned : ∀ q id, (s.processes q).owns = some id → id = f.id := by
        intro q id owns
        obtain ⟨g,file',same,_⟩ := h.shared.owned q id owns
        cases file.symm.trans file'
        exact same.symm
      have none : ∀ q id, (({ s with file := none, removals := ⟨p,kind,s.victim p f⟩ :: s.removals } :
          Machines).set p { s.processes p with
            owns := (s.processes p).owns.filter (· != f.id) } |>.processes q).owns ≠ some id := by
        intro q id owns
        by_cases same : q = p
        · rw [same,setSame] at owns
          obtain ⟨owns,other⟩ := Option.filter_eq_some_iff.mp owns
          simp [owned p id owns] at other
        · rw [setOther _ _ same] at owns
          exact same (owner q (owned q id owns ▸ owns)).2
      exact {
        shared := {
          owned := fun q id owns => absurd owns (none q id)
          fresh := fun g gone => by contradiction
          living := fun q id owns => absurd owns (none q id)
          unharmed := fun r member => by
            rcases List.mem_cons.mp member with new | old
            · rw [new]
              refine Option.filter_eq_none_iff.mpr fun q _ both => ?_
              simp only [Bool.and_eq_true,bne_iff_ne,beq_iff_eq] at both
              exact both.1 (owner q both.2).2
            · exact h.shared.unharmed r old }
        frame := fun q other => ⟨setOther _ _ other,Nat.le_refl _,fun r id owns => absurd owns (none r id)⟩
        knows := trivial
        alive := by rw [setSame]
        holds := by rw [setSame]
        holder := fun holds => by
          rw [setSame] at holds
          obtain ⟨id,owns⟩ := (h.each p).holder holds
          have release := (owner p (owned p id owns ▸ owns)).1
          simp [idle release] at holds }

theorem answerAnswered {s : Machines} (h : Lawful s) {p : Nat} {kind : CallKind} {k : Knowledge}
    {op : LockOp} (alive : (s.processes p).alive) (knows : Knows s p k)
    (allowed : Allowed p kind k op) (idle : kind = .release → (s.processes p).holds = false)
    (fate : Fate) (current : op = .remove → fate = .works →
      ∀ f, s.file = some f → (s.processes p).saw = some f.id) :
    Answered s (s.answer p kind fate op).2 p (learn k op (s.answer p kind fate op).1) := by
  cases op with
  | ensureDirectory => exact .unchanged h trivial
  | create => exact answerCreate h alive fate
  | write handle record => exact answerWrite h knows allowed fate
  | close handle =>
    obtain rfl := allowed
    have learnt : ∀ closed : Bool, Knows s p (learn (.written handle) (.close handle) closed) := by
      intro closed
      cases closed with
      | true => exact knows
      | false => trivial
    exact .unchanged h (learnt _)
  | read => exact answerRead h fate
  | kill target => exact .unchanged h (answerKill h knows allowed fate)
  | remove => exact answerRemove h knows allowed idle fate (current rfl)

theorem proceedKeeps (process : Process) (kind : CallKind) (program : LockProgram LockOutcome) :
    (process.proceed kind program).owns = process.owns ∧
      (process.proceed kind program).saw = process.saw ∧
      (process.proceed kind program).alive = process.alive := by
  unfold Process.proceed
  split <;> exact ⟨rfl,rfl,rfl⟩

theorem proceedLocal {s : Machines} {p : Nat} {kind : CallKind} {k : Knowledge}
    {program : LockProgram LockOutcome} (alive : (s.processes p).alive)
    (idle : kind = .release → (s.processes p).holds = false)
    (holder : (s.processes p).holds → ∃ id, (s.processes p).owns = some id)
    (follows : Follows p kind k program) (knows : Knows s p k) :
    Local (s.set p ((s.processes p).proceed kind program)) p := by
  have kept : Knows (s.set p ((s.processes p).proceed kind program)) p k := by
    have keeps := proceedKeeps (s.processes p) kind program
    refine knows.frame (s := s) ?_ ?_ (Nat.le_refl s.files) fun q id owns => .inl ?_
    · rw [setSame,keeps.1]
    · rw [setSame,keeps.2.1]
    · by_cases same : q = p
      · rw [same,setSame,keeps.1] at owns
        exact same ▸ owns
      · rwa [setOther _ _ same] at owns
  cases program with
  | call op next =>
    exact {
      holder := by
        rw [setSame]
        exact holder
      running := fun kind' program' call => by
        rw [setSame] at call ⊢
        cases call
        exact ⟨alive,idle,k,follows,kept⟩ }
  | done outcome =>
    cases outcome with
    | error code =>
      exact {
        holder := by
          rw [setSame]
          exact holder
        running := fun kind' program' call => by
          rw [setSame] at call
          contradiction }
    | ok value =>
      exact {
        holder := fun holds => by
          rw [setSame] at holds ⊢
          simp only [Process.proceed,Bool.or_eq_true,decide_eq_true_eq] at holds
          rcases holds with already | acquired
          · exact holder already
          · obtain ⟨handle,rfl⟩ := follows acquired
            exact ⟨handle,knows⟩
        running := fun kind' program' call => by
          rw [setSame] at call
          contradiction }

theorem lawfulRun {s : Machines} (h : Lawful s) {p : Nat} {fate : Fate}
    (proper : overtaken s (.run p fate) = false) : Lawful (lockStep s (.run p fate)) := by
  simp only [lockStep]
  split
  · rename_i kind op next call
    obtain ⟨alive,idle,k,follows,knows⟩ := (h.each p).running kind _ call
    have current : op = .remove → fate = .works →
        ∀ f, s.file = some f → (s.processes p).saw = some f.id := by
      intro remove works f file
      subst remove works
      simpa [overtaken,call,file] using proper
    have answered := answerAnswered h alive knows follows.1 idle fate current
    have keeps := proceedKeeps ((s.answer p kind fate op).2.processes p) kind
      (next (s.answer p kind fate op).1)
    exact {
      shared := answered.shared.set (.inl keeps.1) fun _ => keeps.2.2
      each := fun q => by
        by_cases same : q = p
        · subst same
          exact proceedLocal (answered.alive.trans alive) (fun release => answered.holds.trans (idle release))
            answered.holder (follows.2 _) answered.knows
        · exact ((h.each q).frame (answered.frame q same)).frame (Frame.set same (.inl keeps.1)) }
  · exact h

theorem lawfulStep {s : Machines} {e : LockEvent} (h : Lawful s) (proper : overtaken s e = false) :
    Lawful (lockStep s e) := by
  cases e with
  | run p fate => exact lawfulRun h proper
  | spawn p =>
    simp only [lockStep]
    split
    · exact h
    · exact h.set (.inr rfl) (fun owns => absurd rfl owns) {
        holder := fun holds => by
          rw [setSame] at holds
          contradiction
        running := fun kind program call => by
          rw [setSame] at call
          contradiction }
  | die p =>
    exact h.set (.inr rfl) (fun owns => absurd rfl owns) {
      holder := fun holds => by
        rw [setSame] at holds
        contradiction
      running := fun kind program call => by
        rw [setSame] at call
        contradiction }
  | acquire p mode startedAt =>
    simp only [lockStep]
    split
    · rename_i idle
      simp only [Machines.idle,Bool.and_eq_true] at idle
      exact h.set (.inl rfl) (fun _ => rfl) {
        holder := by
          rw [setSame]
          exact (h.each p).holder
        running := fun kind program call => by
          rw [setSame] at call ⊢
          cases call
          exact ⟨idle.1,fun other => by contradiction,.nothing,acquireFollows ⟨p,startedAt,mode⟩,trivial⟩ }
    · exact h
  | release p =>
    simp only [lockStep]
    split
    · rename_i idle
      simp only [Machines.idle,Bool.and_eq_true] at idle
      exact h.set (.inl rfl) (fun _ => rfl) {
        holder := fun holds => by
          rw [setSame] at holds
          contradiction
        running := fun kind program call => by
          rw [setSame] at call ⊢
          cases call
          exact ⟨idle.1,fun _ => rfl,.nothing,releaseFollows p,trivial⟩ }
    · exact h

theorem lawfulStart (content : Option (Option JsValue)) : Lawful (.start content) where
  shared := {
    owned := fun q id owns => by contradiction
    fresh := fun f file => by
      obtain ⟨value,_,rfl⟩ := Option.map_eq_some_iff.mp file
      exact Nat.zero_lt_one
    living := fun q id owns => by contradiction
    unharmed := fun r member => by contradiction }
  each p := {
    holder := fun holds => by contradiction
    running := fun kind program call => by contradiction }

/-- In every run where no process removes a lock file created after the read it judges by,
at most one live process holds the lock and no removal takes another live process's file. -/
theorem lockExclusive (content : Option (Option JsValue)) (events : List LockEvent)
    (proper : Meets (fun s e => overtaken s e = false) lockStep (.start content) events) :
    Exclusive (events.foldl lockStep (.start content)) :=
  (runUnder (lawfulStart content) (fun _ _ h meets => lawfulStep h meets) events proper).exclusive

/- Process 1 takes over the lock of a dead process 9 and releases it to process 2. -/
def staleContent : Option (Option JsValue) := some (some (BrokerLockRecord.json ⟨9,0,.serve⟩))

def steps (p n : Nat) : List LockEvent := List.replicate n (.run p .works)

def takeover : List LockEvent :=
  [.spawn 1,.spawn 2,.acquire 1 .serve 5] ++ steps 1 8 ++ [.release 1] ++ steps 1 2 ++
    [.acquire 2 .session 6] ++ steps 2 4

theorem takeoverExclusive : Exclusive (takeover.foldl lockStep (.start staleContent)) :=
  lockExclusive staleContent takeover (by decide)

/- Both processes judge the record of process 9 stale; process 1 takes over, and the
delayed removal of process 2 takes the file of process 1. -/
def delayedRemoval : List LockEvent :=
  [.spawn 1,.spawn 2,.acquire 1 .serve 5,.acquire 2 .serve 6] ++ steps 1 4 ++ steps 2 4 ++
    steps 1 4 ++ steps 2 4

theorem delayedRemovalShares :
    ¬Exclusive (delayedRemoval.foldl lockStep (.start staleContent)) := by
  intro h
  have both : ((delayedRemoval.foldl lockStep (.start staleContent)).processes 1).holds = true ∧
      ((delayedRemoval.foldl lockStep (.start staleContent)).processes 2).holds = true := by
    decide
  have same := h.alone 1 2 both.1 both.2
  contradiction

end Northstar.Runtime
