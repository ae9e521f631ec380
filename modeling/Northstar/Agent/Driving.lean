import Northstar.Agent.Jobs

/-! Admission and driving of agent jobs. A refused creation leaves the store as it was, but for
a deadline that is looked at too late; a job has one drive, unless it is executed again while a
drive whose race has timed out goes on. -/
namespace Northstar.Agent
namespace AgentJobs

def accepts {α : Type} : Except JsString α → Bool
  | .ok _ => true
  | .error _ => false

/- Only the deadline, which is looked at after the registration, is refused. -/
def refusedLate (input : CreateAgentJobInput) : Bool :=
  trim input.query ≠ [] && accepts (validateEventSink input.eventSink) &&
    (refusedConstraint input.constraints).isNone && accepts (validateDepth input.depth) &&
    !accepts (validateDeadlineMs input.deadlineMs)

theorem refusedEarly (ids : Nat → JsString) {s : AgentJobs} {input : CreateAgentJobInput}
    (early : refusedLate input = false) (thrown : accepts (s.createAgentJobEntry ids input).1 = false) :
    (s.createAgentJobEntry ids input).2 = s := by
  unfold refusedLate at early
  unfold createAgentJobEntry at thrown ⊢
  split
  · rfl
  rename_i query
  rw [if_neg query] at thrown
  cases sink : validateEventSink input.eventSink with
  | error message => rfl
  | ok sinkGiven =>
    rw [sink] at early thrown
    cases refused : refusedConstraint input.constraints with
    | some message => rfl
    | none =>
      rw [refused] at early thrown
      cases depth : validateDepth input.depth with
      | error message => rfl
      | ok depthGiven =>
        rw [depth] at early thrown
        cases deadline : validateDeadlineMs input.deadlineMs with
        | error message =>
          rw [deadline] at early
          simp [query,accepts] at early
        | ok deadlineGiven =>
          rw [deadline] at thrown
          contradiction

theorem registersLate (ids : Nat → JsString) {s : AgentJobs} {input : CreateAgentJobInput}
    (late : refusedLate input = true) : accepts (s.createAgentJobEntry ids input).1 = false ∧
      (s.createAgentJobEntry ids input).2 = (s.prune.registerJob ids input).2 := by
  unfold refusedLate at late
  simp only [Bool.and_eq_true,Bool.not_eq_true',decide_eq_true_eq] at late
  obtain ⟨⟨⟨⟨query,sink⟩,free⟩,depth⟩,deadline⟩ := late
  unfold createAgentJobEntry
  rw [if_neg query]
  cases sinkGiven : validateEventSink input.eventSink with
  | error message => rw [sinkGiven] at sink; contradiction
  | ok _ =>
    rw [Option.isNone_iff_eq_none.mp free]
    cases depthGiven : validateDepth input.depth with
    | error message => rw [depthGiven] at depth; contradiction
    | ok _ =>
      cases deadlineGiven : validateDeadlineMs input.deadlineMs with
      | ok _ => rw [deadlineGiven] at deadline; contradiction
      | error message => exact ⟨rfl,rfl⟩

/-- A creation that throws leaves the store and all its maps as they were, if and only if it is
not the deadline, looked at after the job is registered, that alone is refused. -/
theorem admissionAtomic (ids : Nat → JsString) (s : AgentJobs) (input : CreateAgentJobInput) :
    (accepts (s.createAgentJobEntry ids input).1 = false → (s.createAgentJobEntry ids input).2 = s) ↔
      refusedLate input = false := by
  constructor
  · intro atomic
    by_contra late
    obtain ⟨thrown,registered⟩ := registersLate ids (s := s) (Bool.not_eq_false _ ▸ late)
    have longer := congrArg (fun t : AgentJobs => t.heap.length) (registered.symm.trans (atomic thrown))
    simp [registerJob,prune] at longer
  · exact refusedEarly ids

def overdue : CreateAgentJobInput := { query := js "q", deadlineMs := some 7200001 }

/- The job of a refused creation runs, stored and without a drive. -/
theorem undrivenJob :
    ¬ ∀ (ids : Nat → JsString) (s : AgentJobs) (input : CreateAgentJobInput),
      accepts (s.createAgentJobEntry ids input).1 = false → (s.createAgentJobEntry ids input).2 = s := by
  intro atomic
  have same := atomic (fun _ => js "job") {} overdue (by decide)
  have runs : (((({} : AgentJobs).createAgentJobEntry (fun _ => js "job") overdue).2.stored (js "job")).map
      (·.status)) = some .running := by decide
  rw [same] at runs
  contradiction

/- A drive of the job goes on, though no race of it is in flight any more. -/
def doubles (s : AgentJobs) : JobEvent → Bool
  | .execute jobId opts => (s.inFlight jobId).isNone && accepts (validateDeadlineMs opts.deadlineMs) &&
      accepts (validateDepth opts.depth) && accepts (validateEventSink opts.eventSink) &&
      (s.stored jobId).any (·.status = .running) && s.drives.any fun drive => !drive.ended && drive.jobId == jobId
  | _ => false

/- Objects keep the ids they were made with, and a job that runs has at most one drive. -/
structure Sole (ids : Nat → JsString) (s : AgentJobs) : Prop where
  named : ∀ (o : Nat) job, s.heap[o]? = some job → job.jobId = ids o
  stored : ∀ jobId o, s.jobs jobId = some o → ∃ job, s.heap[o]? = some job ∧ job.jobId = jobId
  working : ∀ (d : Nat) drive, s.drives[d]? = some drive → drive.ended = false →
    ∃ o job, drive.job = some o ∧ s.heap[o]? = some job ∧ job.jobId = drive.jobId ∧ job.status = .running
  alone : ∀ (d e : Nat) x y, s.drives[d]? = some x → s.drives[e]? = some y → x.ended = false → y.ended = false →
    x.jobId = y.jobId → d = e

/- Jobs that are ready or failed stay as they are. -/
def Settled (s t : AgentJobs) : Prop := ∀ (o : Nat) job, s.heap[o]? = some job → job.status ≠ .running →
  ∃ later, t.heap[o]? = some later ∧ later.status = job.status ∧ later.result = job.result

theorem settledSame {s t : AgentJobs} (heap : t.heap = s.heap) : Settled s t :=
  fun _ job there _ => ⟨job,heap ▸ there,rfl,rfl⟩

theorem settledTrans {s t u : AgentJobs} (first : Settled s t) (second : Settled t u) : Settled s u := by
  intro o job there over_
  obtain ⟨mid,at_,status,result⟩ := first o job there over_
  obtain ⟨late,then_,still,same⟩ := second o mid at_ (status ▸ over_)
  exact ⟨late,then_,still.trans status,same.trans result⟩

section
variable {ids : Nat → JsString} {s : AgentJobs}

theorem withoutFewer {α : Type} {m : JobMap α} {gone : JsString → Bool} {jobId : JsString} {value : α}
    (there : m.without gone jobId = some value) : m jobId = some value ∧ gone jobId = false := by
  unfold JobMap.without at there
  split at there
  · contradiction
  · rename_i kept
    exact ⟨there,Bool.eq_false_iff.mpr kept⟩

theorem solePrune (h : Sole ids s) : Sole ids s.prune :=
  ⟨h.named,fun jobId o there => h.stored jobId o (withoutFewer there).1,h.working,h.alone⟩

/- A drive that is added while no other drive of its job goes on. -/
theorem soleDrive (h : Sole ids s) (jobId : JsString)
    (free : (s.driveAgentJob jobId).ended = false → ∀ drive ∈ s.drives, drive.ended = false → drive.jobId ≠ jobId) :
    Sole ids { s with drives := s.drives ++ [s.driveAgentJob jobId] } := by
  have mine : (s.driveAgentJob jobId).jobId = jobId := by
    unfold driveAgentJob
    split
    · rfl
    · split <;> rfl
  have place {d : Nat} {drive : Drive} (there : (s.drives ++ [s.driveAgentJob jobId])[d]? = some drive) :
      s.drives[d]? = some drive ∨ d = s.drives.length ∧ drive = s.driveAgentJob jobId := by
    rw [List.getElem?_append] at there
    split at there
    · exact .inl there
    · rename_i late
      rw [List.getElem?_singleton] at there
      split at there
      · exact .inr ⟨by omega,(Option.some.inj there).symm⟩
      · contradiction
  refine ⟨h.named,h.stored,?_,?_⟩
  · intro d drive there going
    cases place there with
    | inl old => exact h.working d drive old going
    | inr new =>
      obtain ⟨_,rfl⟩ := new
      rw [mine]
      unfold driveAgentJob at going ⊢
      cases found : s.jobs jobId with
      | none => rw [found] at going; contradiction
      | some o =>
        obtain ⟨job,at_,name⟩ := h.stored jobId o found
        rw [found] at going
        simp only [at_,decide_eq_false_iff_not,not_not] at going
        simp only [at_]
        exact ⟨o,job,rfl,at_,name,going⟩
  · intro d e x y left right goes runs same
    cases place left with
    | inl old => cases place right with
      | inl other => exact h.alone d e x y old other goes runs same
      | inr new =>
        obtain ⟨_,rfl⟩ := new
        exact absurd (same.trans mine) (free runs x (List.mem_of_getElem? old) goes)
    | inr new => cases place right with
      | inl other =>
        obtain ⟨_,rfl⟩ := new
        exact absurd (same.symm.trans mine) (free goes y (List.mem_of_getElem? other) runs)
      | inr last => exact new.1.trans last.1.symm

theorem soleExecute (h : Sole ids s) (jobId : JsString) (opts : ExecuteAgentJobOptions)
    (lone : doubles s (.execute jobId opts) = false) : Sole ids (s.executeAgentJob jobId opts) ∧
      (s.executeAgentJob jobId opts).heap = s.heap := by
  unfold doubles at lone
  dsimp only at lone
  unfold executeAgentJob
  split
  · exact ⟨h,rfl⟩
  rename_i idle
  cases deadline : validateDeadlineMs opts.deadlineMs with
  | error message => exact ⟨h,rfl⟩
  | ok deadlineGiven =>
    cases depth : validateDepth opts.depth with
    | error message => exact ⟨⟨h.named,h.stored,h.working,h.alone⟩,rfl⟩
    | ok depthGiven =>
      cases sink : validateEventSink opts.eventSink with
      | error message => exact ⟨⟨h.named,h.stored,h.working,h.alone⟩,rfl⟩
      | ok sinkGiven =>
        rw [deadline,depth,sink] at lone
        have added := soleDrive h jobId ?_
        · exact ⟨⟨added.named,added.stored,added.working,added.alone⟩,rfl⟩
        · intro runs drive member going same
          have free : (s.inFlight jobId).isNone = true := by simpa using idle
          have stored : (s.stored jobId).any (·.status = .running) = true := by
            unfold driveAgentJob at runs
            unfold AgentJobs.stored
            cases found : s.jobs jobId with
            | none => rw [found] at runs; contradiction
            | some o =>
              rw [found] at runs
              cases at_ : s.heap[o]? with
              | none => simp only [at_] at runs; contradiction
              | some job =>
                simp only [at_,decide_eq_false_iff_not,not_not] at runs
                simp [at_,runs]
          have others : s.drives.any (fun drive => !drive.ended && drive.jobId == jobId) = true :=
            List.any_eq_true.mpr ⟨drive,member,by simp [going,same]⟩
          rw [free,stored,others] at lone
          contradiction

theorem soleRegister (unique : Function.Injective ids) (h : Sole ids s) (input : CreateAgentJobInput) :
    Sole ids (s.registerJob ids input).2 ∧ Settled s (s.registerJob ids input).2 ∧
      ∀ drive ∈ (s.registerJob ids input).2.drives, drive.ended = false →
        drive.jobId ≠ (s.registerJob ids input).1.jobId := by
  have kept {o : Nat} {job : AgentJob} (there : s.heap[o]? = some job) (new : AgentJob) :
      (s.heap ++ [new])[o]? = some job := by
    rw [List.getElem?_append_left (List.getElem?_eq_some_iff.mp there).1]
    exact there
  refine ⟨⟨?_,?_,?_,h.alone⟩,fun o job there _ => ⟨job,kept there _,rfl,rfl⟩,?_⟩
  · intro o job there
    simp only [registerJob] at there
    rw [List.getElem?_append] at there
    split at there
    · exact h.named o job there
    · rename_i late
      rw [List.getElem?_singleton] at there
      split at there
      · rename_i first
        cases Option.some.inj there
        have place : o = s.heap.length := by omega
        rw [place]
      · contradiction
  · intro jobId o there
    simp only [registerJob,JobMap.set] at there
    split at there
    · rename_i same
      cases Option.some.inj there
      exact ⟨_,List.getElem?_concat_length,same.symm⟩
    · obtain ⟨job,at_,name⟩ := h.stored jobId o there
      exact ⟨job,kept at_ _,name⟩
  · intro d drive there going
    obtain ⟨o,job,mine,at_,name,runs⟩ := h.working d drive there going
    exact ⟨o,job,mine,kept at_ _,name,runs⟩
  · intro drive member going same
    obtain ⟨d,there⟩ := List.getElem?_of_mem member
    obtain ⟨o,job,_,at_,name,_⟩ := h.working d drive there going
    have inside := (List.getElem?_eq_some_iff.mp at_).1
    have equal : ids o = ids s.heap.length := (h.named o job at_).symm.trans (name.trans same)
    exact absurd (unique equal) (Nat.ne_of_lt inside)

theorem soleCreate (unique : Function.Injective ids) (h : Sole ids s) (input : CreateAgentJobInput) :
    Sole ids (s.createAgentJobEntry ids input).2 ∧ Settled s (s.createAgentJobEntry ids input).2 := by
  have same := settledSame (s := s) (t := s) rfl
  obtain ⟨registered,settled,free⟩ := soleRegister unique (solePrune h) input
  unfold createAgentJobEntry
  split
  · exact ⟨h,same⟩
  split
  · exact ⟨h,same⟩
  split
  · exact ⟨h,same⟩
  split
  · exact ⟨h,same⟩
  rename_i sink _ _ depth _
  dsimp only
  split
  · exact ⟨registered,settledTrans (settledSame (t := s.prune) rfl) settled⟩
  · rename_i deadlineMs _
    -- the internal call of executeAgentJob finds no drive of an id that is new
    have quiet (t : AgentJobs) (heap : t.heap = (s.prune.registerJob ids input).2.heap)
        (jobs : t.jobs = (s.prune.registerJob ids input).2.jobs)
        (drives : t.drives = (s.prune.registerJob ids input).2.drives) :
        Sole ids (t.executeAgentJob (s.prune.registerJob ids input).1.jobId { deadlineMs := deadlineMs }) ∧
          Settled s (t.executeAgentJob (s.prune.registerJob ids input).1.jobId { deadlineMs := deadlineMs }) := by
      have sole : Sole ids t :=
        ⟨heap ▸ registered.named,heap ▸ jobs ▸ registered.stored,heap ▸ drives ▸ registered.working,
          drives ▸ registered.alone⟩
      have lone : doubles t (.execute (s.prune.registerJob ids input).1.jobId { deadlineMs := deadlineMs }) = false := by
        have others : (t.drives.any fun drive =>
            !drive.ended && drive.jobId == (s.prune.registerJob ids input).1.jobId) = false := by
          refine List.any_eq_false.mpr fun drive member wrong => ?_
          simp only [Bool.and_eq_true,Bool.not_eq_true',beq_iff_eq] at wrong
          exact free drive (drives ▸ member) wrong.1 wrong.2
        unfold doubles
        dsimp only
        rw [others,Bool.and_false]
      obtain ⟨after,grown⟩ := soleExecute sole _ _ lone
      refine ⟨after,settledTrans (settledTrans (settledSame (t := s.prune) rfl) settled) (settledSame ?_)⟩
      exact grown.trans heap
    unfold getOrCreateJournal
    split <;> exact quiet _ rfl rfl rfl

theorem heapChange (o : Nat) (update : AgentJob → AgentJob) (s : AgentJobs) (at_ : Nat) :
    (s.change o update).heap[at_]? = (s.heap[at_]?).map fun job => if at_ = o then update job else job := by
  unfold change
  dsimp only
  rw [List.getElem?_modify]
  by_cases same : at_ = o
  · simp [same]
  · simp [same,Ne.symm same]

theorem workingAt {d : Nat} {drive : Drive} {o : Nat} (found : s.working d = some (drive,o)) :
    s.drives[d]? = some drive ∧ drive.ended = false ∧ drive.job = some o := by
  unfold working at found
  cases there : s.drives[d]? with
  | none => rw [there] at found; contradiction
  | some x =>
    rw [there] at found
    dsimp only at found
    split at found
    · contradiction
    · rename_i going
      obtain ⟨o',job,same⟩ := Option.map_eq_some_iff.mp found
      cases same
      exact ⟨rfl,Bool.eq_false_iff.mpr going,job⟩

theorem soleNegotiate (h : Sole ids s) (d : Nat) (ready : Bool) :
    Sole ids (s.negotiateLeafTransport d ready) ∧ Settled s (s.negotiateLeafTransport d ready) := by
  unfold negotiateLeafTransport
  split
  · exact ⟨h,settledSame rfl⟩
  · rename_i drive o found
    have moved {at_ : Nat} {job : AgentJob} (there : s.heap[at_]? = some job) :
        ∃ later, (s.change o fun job => job.negotiated ready).heap[at_]? = some later ∧ later.jobId = job.jobId ∧
          later.status = job.status ∧ later.result = job.result := by
      rw [heapChange,there]
      refine ⟨_,rfl,?_⟩
      split <;> exact ⟨rfl,rfl,rfl⟩
    refine ⟨⟨?_,?_,?_,h.alone⟩,?_⟩
    · intro at_ later there
      rw [heapChange] at there
      obtain ⟨job,old,rfl⟩ := Option.map_eq_some_iff.mp there
      rw [← h.named at_ job old]
      split <;> rfl
    · intro jobId at_ there
      obtain ⟨job,old,name⟩ := h.stored jobId at_ there
      obtain ⟨later,now,same,_⟩ := moved old
      exact ⟨later,now,same.trans name⟩
    · intro e x there going
      obtain ⟨at_,job,mine,old,name,runs⟩ := h.working e x there going
      obtain ⟨later,now,same,status,_⟩ := moved old
      exact ⟨at_,later,mine,now,same.trans name,status.trans runs⟩
    · intro at_ job there _
      obtain ⟨later,now,_,status,result⟩ := moved there
      exact ⟨later,now,status,result⟩

theorem settleJobId (job : AgentJob) (now : Int) (outcome : DriveOutcome) :
    (job.settle now outcome).jobId = job.jobId := by
  cases outcome <;> rfl

theorem markFrame (jobId : JsString) (stage : AgentJobStage) (s : AgentJobs) :
    (s.markProgressSettled jobId stage).heap = s.heap ∧ (s.markProgressSettled jobId stage).drives = s.drives ∧
      (s.markProgressSettled jobId stage).jobs = s.jobs := by
  unfold markProgressSettled
  split <;> exact ⟨rfl,rfl,rfl⟩

theorem endedAt (d : Nat) (s : AgentJobs) (e : Nat) : (s.endDrive d).drives[e]? =
    (s.drives[e]?).map fun drive => if e = d then { drive with ended := true } else drive := by
  unfold endDrive
  dsimp only
  rw [List.getElem?_modify]
  by_cases same : e = d
  · simp [same]
  · simp [same,Ne.symm same]

/- The outcome is written to an object no other drive works on. -/
theorem soleFinish (h : Sole ids s) (d : Nat) (outcome : DriveOutcome) :
    Sole ids (s.finish d outcome) ∧ Settled s (s.finish d outcome) := by
  unfold finish
  split
  · exact ⟨h,settledSame rfl⟩
  · rename_i drive o found
    obtain ⟨here,going,mine⟩ := workingAt found
    obtain ⟨o',job,same,at_,name,runs⟩ := h.working d drive here going
    cases Option.some.inj (mine.symm.trans same)
    obtain ⟨heapSame,drivesSame,jobsSame⟩ := markFrame drive.jobId outcome.stage s
    have heap (i : Nat) := heapChange o (fun job => job.settle s.clock outcome) (s.markProgressSettled drive.jobId outcome.stage) i
    rw [heapSame] at heap
    have drives (e : Nat) := endedAt d
      ((s.markProgressSettled drive.jobId outcome.stage).change o fun job => job.settle s.clock outcome) e
    have drivesSame' : ((s.markProgressSettled drive.jobId outcome.stage).change o
        fun job => job.settle s.clock outcome).drives = s.drives := drivesSame
    rw [drivesSame'] at drives
    have kept {i : Nat} {job : AgentJob} (there : s.heap[i]? = some job) (other : i ≠ o) :
        ((s.markProgressSettled drive.jobId outcome.stage).change o fun job => job.settle s.clock outcome).heap[i]? =
          some job := by
      rw [heap,there,Option.map_some,if_neg other]
    refine ⟨⟨?_,?_,?_,?_⟩,?_⟩
    · intro i later there
      obtain ⟨job,old,rfl⟩ := Option.map_eq_some_iff.mp ((heap i).symm.trans there)
      rw [← h.named i job old]
      split
      · exact settleJobId job s.clock outcome
      · rfl
    · intro jobId i there
      obtain ⟨job,old,name⟩ := h.stored jobId i (jobsSame ▸ there)
      refine ⟨_,(heap i).trans (congrArg _ old),?_⟩
      rw [← name]
      split
      · exact settleJobId job s.clock outcome
      · rfl
    · intro e x there runsOn
      obtain ⟨y,old,rfl⟩ := Option.map_eq_some_iff.mp ((drives e).symm.trans there)
      by_cases own : e = d
      · rw [if_pos own] at runsOn
        contradiction
      · rw [if_neg own] at runsOn ⊢
        obtain ⟨i,job',its,there',name',running⟩ := h.working e y old runsOn
        have other : i ≠ o := by
          intro wrong
          subst wrong
          cases Option.some.inj (at_.symm.trans there')
          exact own (h.alone e d y drive old here runsOn going (name'.symm.trans name))
        exact ⟨i,job',its,kept there' other,name',running⟩
    · intro e f x y left right goes runsOn sameId
      obtain ⟨u,oldU,rfl⟩ := Option.map_eq_some_iff.mp ((drives e).symm.trans left)
      obtain ⟨v,oldV,rfl⟩ := Option.map_eq_some_iff.mp ((drives f).symm.trans right)
      by_cases first : e = d
      · rw [if_pos first] at goes
        contradiction
      by_cases second : f = d
      · rw [if_pos second] at runsOn
        contradiction
      rw [if_neg first] at goes sameId
      rw [if_neg second] at runsOn sameId
      exact h.alone e f u v oldU oldV goes runsOn sameId
    · intro i job' there over_
      have other : i ≠ o := by
        intro wrong
        subst wrong
        cases Option.some.inj (at_.symm.trans there)
        exact over_ runs
      exact ⟨job',kept there other,rfl,rfl⟩

theorem soleTimer (h : Sole ids s) (d : Nat) : Sole ids (s.timer d) := by
  have drives (e : Nat) : (s.timer d).drives[e]? = (s.drives[e]?).map fun drive =>
      if e = d ∧ drive.ended = false then { drive with timedOut := true } else drive := by
    unfold timer
    dsimp only
    rw [List.getElem?_modify]
    cases s.drives[e]? with
    | none => split <;> rfl
    | some drive =>
      by_cases same : e = d
      · cases over_ : drive.ended <;> simp [same,over_]
      · simp [same,Ne.symm same]
  have frame {e : Nat} {x : Drive} (there : (s.timer d).drives[e]? = some x) : ∃ y, s.drives[e]? = some y ∧
      x.jobId = y.jobId ∧ x.job = y.job ∧ x.ended = y.ended := by
    obtain ⟨y,old,rfl⟩ := Option.map_eq_some_iff.mp ((drives e).symm.trans there)
    refine ⟨y,old,?_⟩
    split <;> exact ⟨rfl,rfl,rfl⟩
  refine ⟨h.named,h.stored,?_,?_⟩
  · intro e x there going
    obtain ⟨y,old,name,job,over_⟩ := frame there
    rw [name,job]
    exact h.working e y old (over_ ▸ going)
  · intro e f x y left right goes runs same
    obtain ⟨u,oldU,nameU,_,overU⟩ := frame left
    obtain ⟨v,oldV,nameV,_,overV⟩ := frame right
    exact h.alone e f u v oldU oldV (overU ▸ goes) (overV ▸ runs) (nameU ▸ nameV ▸ same)

theorem soleStep (unique : Function.Injective ids) (h : Sole ids s) (event : JobEvent)
    (lone : doubles s event = false) : Sole ids (step ids s event) ∧ Settled s (step ids s event) := by
  cases event with
  | create input => exact soleCreate unique h input
  | execute jobId opts =>
    obtain ⟨sole,heap⟩ := soleExecute h jobId opts lone
    exact ⟨sole,settledSame heap⟩
  | negotiate d ready => exact soleNegotiate h d ready
  | progress d event =>
    unfold step onProgress
    dsimp only
    split
    · exact ⟨h,settledSame rfl⟩
    · unfold getOrCreateJournal
      split <;> exact ⟨⟨h.named,h.stored,h.working,h.alone⟩,settledSame rfl⟩
  | finish d outcome => exact soleFinish h d outcome
  | timer d => exact ⟨soleTimer h d,settledSame rfl⟩
  | settle d =>
    unfold step settle
    dsimp only
    split
    · exact ⟨h,settledSame rfl⟩
    · split <;> exact ⟨⟨h.named,h.stored,h.working,h.alone⟩,settledSame rfl⟩
  | get jobId => exact ⟨⟨h.named,h.stored,h.working,h.alone⟩,settledSame rfl⟩
  | stale jobId owner => exact ⟨⟨h.named,h.stored,h.working,h.alone⟩,settledSame rfl⟩
  | snapshot jobId owner => exact ⟨solePrune h,settledSame rfl⟩
  | hasUnexpired => exact ⟨solePrune h,settledSame rfl⟩
  | pass ms => exact ⟨⟨h.named,h.stored,h.working,h.alone⟩,settledSame rfl⟩

theorem emptySole (ids : Nat → JsString) : Sole ids {} := ⟨nofun,nofun,nofun,nofun⟩

end

theorem soleRun {ids : Nat → JsString} (unique : Function.Injective ids) {s : AgentJobs} (h : Sole ids s)
    (events : List JobEvent) (fine : Meets (fun s e => doubles s e = false) (step ids) s events) :
    Sole ids (events.foldl (step ids) s) ∧ Settled s (events.foldl (step ids) s) := by
  induction events generalizing s with
  | nil => exact ⟨h,settledSame rfl⟩
  | cons event rest ih =>
    obtain ⟨next,settled⟩ := soleStep unique h event fine.1
    obtain ⟨last,kept⟩ := ih next fine.2
    exact ⟨last,settledTrans settled kept⟩

/-- Unless a job is executed while a drive of it goes on whose race is no longer in flight, no
two drives of a job id are in progress at once, and a job that is ready or failed keeps its
status and its result in every later state. -/
theorem singleDrive {ids : Nat → JsString} (unique : Function.Injective ids) (events more : List JobEvent)
    (fine : Meets (fun s e => doubles s e = false) (step ids) {} (events ++ more)) :
    (∀ (d e : Nat) x y, (run ids events).drives[d]? = some x → (run ids events).drives[e]? = some y →
      x.ended = false → y.ended = false → x.jobId = y.jobId → d = e) ∧
    Settled (run ids events) (run ids (events ++ more)) := by
  obtain ⟨first,rest⟩ := meetsAppend.mp fine
  obtain ⟨sole,_⟩ := soleRun unique (emptySole ids) events first
  refine ⟨sole.alone,?_⟩
  unfold run
  rw [List.foldl_append]
  exact (soleRun unique sole more rest).2

def letters (n : Nat) : JsString := List.replicate (n + 1) 97

theorem lettersInjective : Function.Injective letters := by
  intro m n same
  have lengths := congrArg List.length same
  simp only [letters,List.length_replicate] at lengths
  omega

/- The drive ends after its race has timed out. -/
def lateEvents : List JobEvent :=
  [.create { query := js "q" },.timer 0,.settle 0,.progress 0 { stage := some .gather },.finish 0 (.result .null)]

theorem lateDrive : ((run letters (lateEvents ++ [.execute (letters 0) {},.finish 0 .failure])).heap[0]?.map
    (·.status)) = some .ready := by
  have stays := (singleDrive lettersInjective lateEvents [.execute (letters 0) {},.finish 0 .failure]
    (by decide)).2
  have now : ((run letters lateEvents).heap[0]?.map (·.status)) = some .ready := by decide
  obtain ⟨job,there,status⟩ := Option.map_eq_some_iff.mp now
  obtain ⟨later,at_,same,_⟩ := stays 0 job there (by rw [status]; decide)
  rw [at_]
  exact congrArg some (same.trans status)

/- The job is executed again before the slow drive has ended. -/
def doubledEvents : List JobEvent :=
  [.create { query := js "q" },.timer 0,.settle 0,.execute (letters 0) {}]

theorem drivenTwice : ((run letters doubledEvents).drives.countP fun drive =>
      !drive.ended && drive.jobId == letters 0) = 2 ∧
    ((run letters (doubledEvents ++ [.finish 1 (.result .null)])).heap[0]?.map (·.status)) = some .ready ∧
    ((run letters (doubledEvents ++ [.finish 1 (.result .null),.finish 0 .failure])).heap[0]?.map (·.status)) =
      some .failed := by
  decide

end AgentJobs
end Northstar.Agent
