import Northstar.Agent.Driving

/-! Expiry of agent jobs. A job that was pruned, or that a read has reported expired, stays out
of sight, and no map outlives the store's entry, unless a late drive or a late call writes to it. -/
namespace Northstar.Agent
namespace AgentJobs

/- The new deadline of a job that runs past its old one. -/
def revives (s : AgentJobs) (jobId : JsString) (deadlineMs : Option ℚ) : Bool := s.gone jobId &&
  (s.stored jobId).any fun job => job.status = .running &&
    deadlineMs.any fun ms => decide (((s.clock - job.createdAt : Int) : ℚ) ≤ ms)

/- A write to a job the store has let go of, or that brings an expired one back. -/
def strays (s : AgentJobs) : JobEvent → Bool
  | .execute jobId opts => (s.inFlight jobId).isNone && match validateDeadlineMs opts.deadlineMs with
      | .error _ => false
      | .ok deadlineMs => if (s.jobs jobId).isNone then
            deadlineMs.isSome || (accepts (validateDepth opts.depth) && accepts (validateEventSink opts.eventSink))
          else s.revives jobId deadlineMs
  | .progress d _ => (s.working d).any fun (drive,_) => (s.jobs drive.jobId).isNone
  | .finish d _ => (s.working d).any fun (drive,_) => (s.jobs drive.jobId).isSome && s.gone drive.jobId
  | _ => false

/- No map of the four has a key the store does not have. -/
structure Contained (s : AgentJobs) : Prop where
  progress : ∀ jobId, (s.jobProgress jobId).isSome → (s.jobs jobId).isSome
  journals : ∀ jobId, (s.jobJournals jobId).isSome → (s.jobs jobId).isSome
  deadlines : ∀ jobId, (s.jobDeadlines jobId).isSome → (s.jobs jobId).isSome
  inFlight : ∀ jobId, (s.inFlight jobId).isSome → (s.jobs jobId).isSome

structure Final (ids : Nat → JsString) (s : AgentJobs) : Prop where
  named : ∀ (o : Nat) job, s.heap[o]? = some job → job.jobId = ids o
  stored : ∀ jobId o, s.jobs jobId = some o → ∃ job, s.heap[o]? = some job ∧ job.jobId = jobId
  drives : ∀ drive ∈ s.drives, ∀ o, drive.job = some o → ∃ job, s.heap[o]? = some job ∧ job.jobId = drive.jobId
  used : ∀ jobId, s.gone jobId → ∃ o < s.heap.length, ids o = jobId
  past : ∀ jobId o job, s.gone jobId → s.jobs jobId = some o → s.heap[o]? = some job → s.expired job
  contained : Contained s

/- An expired job stays expired while its times and its deadline do. -/
theorem stillExpired {s t : AgentJobs} {job later : AgentJob} (status : later.status = job.status)
    (created : later.createdAt = job.createdAt) (updated : later.updatedAt = job.updatedAt)
    (deadline : job.status = .running → (t.jobDeadlines later.jobId).getD agentRunDeadlineMs ≤
      (s.jobDeadlines job.jobId).getD agentRunDeadlineMs ∨
        (t.jobDeadlines later.jobId).getD agentRunDeadlineMs < ((t.clock - job.createdAt : Int) : ℚ))
    (clock : s.clock ≤ t.clock) (past : s.expired job) : t.expired later := by
  unfold expired at past ⊢
  rw [status]
  cases running : job.status with
  | running =>
    rw [running] at past
    simp only [decide_eq_true_eq,gt_iff_lt,created] at past ⊢
    have later_ : ((s.clock - job.createdAt : Int) : ℚ) ≤ ((t.clock - job.createdAt : Int) : ℚ) := by
      exact_mod_cast Int.sub_le_sub_right clock _
    cases deadline running with
    | inl less => exact lt_of_le_of_lt less (lt_of_lt_of_le past later_)
    | inr less => exact less
  | ready | failed =>
    rw [running] at past
    simp only [decide_eq_true_eq,updated] at past ⊢
    omega

section
variable {ids : Nat → JsString} {s : AgentJobs}

theorem finalSame (h : Final ids s) {t : AgentJobs} (heap : t.heap = s.heap) (jobs : t.jobs = s.jobs)
    (drives : t.drives = s.drives) (gone : t.gone = s.gone) (clock : t.clock = s.clock)
    (deadlines : t.jobDeadlines = s.jobDeadlines) (contained : Contained t) : Final ids t := by
  refine ⟨heap ▸ h.named,heap ▸ jobs ▸ h.stored,heap ▸ drives ▸ h.drives,heap ▸ gone ▸ h.used,?_,contained⟩
  intro jobId o job lost there at_
  have old := h.past jobId o job (gone ▸ lost) (jobs ▸ there) (heap ▸ at_)
  exact stillExpired rfl rfl rfl (fun _ => .inl (by rw [deadlines])) (by rw [clock]) old

theorem deadStored {jobId : JsString} (dead : s.dead jobId) : ∃ o job, s.jobs jobId = some o ∧
    s.heap[o]? = some job ∧ s.expired job := by
  unfold AgentJobs.dead AgentJobs.stored at dead
  cases found : s.jobs jobId with
  | none => rw [found] at dead; contradiction
  | some o =>
    rw [found,Option.bind_some] at dead
    cases at_ : s.heap[o]? with
    | none => rw [at_] at dead; contradiction
    | some job =>
      rw [at_,Option.any_some] at dead
      exact ⟨o,job,rfl,at_,dead⟩

theorem deadOf {jobId : JsString} {o : Nat} {job : AgentJob} (found : s.jobs jobId = some o)
    (at_ : s.heap[o]? = some job) (past : s.expired job) : s.dead jobId := by
  unfold AgentJobs.dead AgentJobs.stored
  rw [found,Option.bind_some,at_,Option.any_some]
  exact past

theorem withoutSome {α : Type} {m : JobMap α} {gone : JsString → Bool} {jobId : JsString}
    (there : (m.without gone jobId).isSome) : (m jobId).isSome ∧ gone jobId = false := by
  obtain ⟨value,found⟩ := Option.isSome_iff_exists.mp there
  obtain ⟨old,kept⟩ := withoutFewer found
  exact ⟨by rw [old]; rfl,kept⟩

theorem withoutKept {α : Type} {m : JobMap α} {gone : JsString → Bool} {jobId : JsString} (there : (m jobId).isSome)
    (kept : gone jobId = false) : (m.without gone jobId).isSome := by
  unfold JobMap.without
  rw [kept]
  exact there

theorem finalPrune (h : Final ids s) : Final ids s.prune := by
  have kept {α : Type} {m : JobMap α} (inside : ∀ jobId, (m jobId).isSome → (s.jobs jobId).isSome) (jobId : JsString)
      (there : (m.without s.dead jobId).isSome) : (s.jobs.without s.dead jobId).isSome := by
    obtain ⟨old,alive⟩ := withoutSome there
    exact withoutKept (inside jobId old) alive
  refine ⟨h.named,fun jobId o there => h.stored jobId o (withoutFewer there).1,h.drives,?_,?_,?_⟩
  · intro jobId lost
    cases Bool.or_eq_true_iff.mp lost with
    | inl old => exact h.used jobId old
    | inr dead =>
      obtain ⟨o,job,found,at_,_⟩ := deadStored dead
      obtain ⟨job',there,name⟩ := h.stored jobId o found
      exact ⟨o,(List.getElem?_eq_some_iff.mp at_).1,(h.named o job' there).symm.trans name⟩
  · intro jobId o job lost found at_
    obtain ⟨old,alive⟩ := withoutFewer found
    cases Bool.or_eq_true_iff.mp lost with
    | inl gone =>
      have dead := deadOf old at_ (h.past jobId o job gone old at_)
      rw [alive] at dead
      contradiction
    | inr dead =>
      rw [alive] at dead
      contradiction
  · exact ⟨kept h.contained.progress,kept h.contained.journals,kept h.contained.deadlines,kept h.contained.inFlight⟩

theorem finalObserve (h : Final ids s) (jobId : JsString) : Final ids (s.observe jobId) := by
  refine ⟨h.named,h.stored,h.drives,?_,?_,⟨h.contained.progress,h.contained.journals,h.contained.deadlines,h.contained.inFlight⟩⟩
  · intro other lost
    cases Bool.or_eq_true_iff.mp lost with
    | inl old => exact h.used other old
    | inr now =>
      obtain ⟨same,dead⟩ := Bool.and_eq_true_iff.mp now
      rw [← beq_iff_eq.mp same] at dead
      obtain ⟨o,job,found,at_,_⟩ := deadStored dead
      obtain ⟨job',there,name⟩ := h.stored _ o found
      exact ⟨o,(List.getElem?_eq_some_iff.mp at_).1,(h.named o job' there).symm.trans name⟩
  · intro other o job lost found at_
    cases Bool.or_eq_true_iff.mp lost with
    | inl old => exact h.past other o job old found at_
    | inr now =>
      obtain ⟨same,dead⟩ := Bool.and_eq_true_iff.mp now
      have mine : s.jobs jobId = some o := beq_iff_eq.mp same ▸ found
      obtain ⟨o',job',found',at_',past⟩ := deadStored dead
      cases Option.some.inj (mine.symm.trans found')
      cases Option.some.inj (Eq.trans at_.symm at_')
      exact past

theorem finalPass (h : Final ids s) (ms : Nat) : Final ids { s with clock := s.clock + ms } := by
  refine ⟨h.named,h.stored,h.drives,h.used,?_,⟨h.contained.progress,h.contained.journals,h.contained.deadlines,
    h.contained.inFlight⟩⟩
  intro jobId o job lost found at_
  have old := h.past jobId o job lost found at_
  exact stillExpired (s := s) rfl rfl rfl (fun _ => .inl (le_refl _)) (by simp) old

theorem storedNone (h : Final ids s) {jobId : JsString} : (s.stored jobId).isSome = (s.jobs jobId).isSome := by
  unfold AgentJobs.stored
  cases found : s.jobs jobId with
  | none => rfl
  | some o =>
    obtain ⟨job,at_,_⟩ := h.stored jobId o found
    rw [Option.bind_some,at_]
    rfl

theorem givenSome {α : Type} {m : JobMap α} {jobId other : JsString} {given : Option α}
    (there : (m.setGiven jobId given other).isSome) : (m other).isSome ∨ other = jobId ∧ given.isSome := by
  cases given with
  | none => exact .inl there
  | some value =>
    unfold JobMap.setGiven JobMap.set at there
    dsimp only at there
    split at there
    · rename_i same
      exact .inr ⟨same,rfl⟩
    · exact .inl there

/- A new deadline of a stored job that no read has reported expired, or that stays expired. -/
theorem finalDeadline (h : Final ids s) {jobId : JsString} {deadlineMs : Option ℚ}
    (there : deadlineMs.isSome → (s.jobs jobId).isSome) (stays : s.revives jobId deadlineMs = false) :
    Final ids { s with jobDeadlines := s.jobDeadlines.setGiven jobId deadlineMs } := by
  refine ⟨h.named,h.stored,h.drives,h.used,?_,⟨h.contained.progress,h.contained.journals,?_,h.contained.inFlight⟩⟩
  · intro other o job lost found at_
    have old := h.past other o job lost found at_
    obtain ⟨job',at_',name⟩ := h.stored other o found
    cases Option.some.inj (at_.symm.trans at_')
    refine stillExpired (s := s) rfl rfl rfl ?_ (le_refl _) old
    intro running
    cases deadlineMs with
    | none => exact .inl (le_refl _)
    | some ms =>
      unfold JobMap.setGiven JobMap.set
      dsimp only
      rw [name]
      split
      · rename_i same
        right
        have present : s.stored other = some job := by
          unfold AgentJobs.stored
          rw [found,Option.bind_some,at_]
        unfold revives at stays
        rw [← same,lost,present,Bool.true_and,Option.any_some,running,Option.any_some] at stays
        cases Bool.and_eq_false_iff.mp stays with
        | inl wrong => contradiction
        | inr beyond => exact lt_of_not_ge (of_decide_eq_false beyond)
      · exact .inl (le_refl _)
  · intro other given
    cases givenSome given with
    | inl old => exact h.contained.deadlines other old
    | inr new => rw [new.1]; exact there new.2

theorem driveJob (h : Final ids s) (jobId : JsString) {o : Nat} (mine : (s.driveAgentJob jobId).job = some o) :
    ∃ job, s.heap[o]? = some job ∧ job.jobId = (s.driveAgentJob jobId).jobId := by
  unfold driveAgentJob at mine ⊢
  cases found : s.jobs jobId with
  | none => rw [found] at mine; contradiction
  | some o' =>
    obtain ⟨job,at_,name⟩ := h.stored jobId o' found
    rw [found] at mine
    simp only [at_,Option.some.injEq] at mine ⊢
    exact ⟨job,mine ▸ at_,name⟩

theorem finalExecute (h : Final ids s) (jobId : JsString) (opts : ExecuteAgentJobOptions)
    (fine : strays s (.execute jobId opts) = false) : Final ids (s.executeAgentJob jobId opts) := by
  unfold strays at fine
  dsimp only at fine
  unfold executeAgentJob
  split
  · exact h
  rename_i idle
  have free : (s.inFlight jobId).isNone = true := by simpa using idle
  rw [free,Bool.true_and] at fine
  cases deadline : validateDeadlineMs opts.deadlineMs with
  | error message => exact h
  | ok deadlineMs =>
    rw [deadline] at fine
    dsimp only at fine
    -- an id that is not stored gets no deadline, and no drive either
    have stored : deadlineMs.isSome ∨ (accepts (validateDepth opts.depth) && accepts (validateEventSink opts.eventSink)) →
        (s.jobs jobId).isSome := by
      intro writes
      by_contra missing
      rw [if_pos (by simpa using missing)] at fine
      obtain ⟨noDeadline,noDrive⟩ := Bool.or_eq_false_iff.mp fine
      cases writes with
      | inl given => rw [noDeadline] at given; contradiction
      | inr drives => rw [noDrive] at drives; contradiction
    have stays : s.revives jobId deadlineMs = false := by
      by_cases missing : (s.jobs jobId).isNone
      · have none : s.stored jobId = none := by
          unfold AgentJobs.stored
          rw [Option.isNone_iff_eq_none.mp missing]
          rfl
        unfold revives
        rw [none,Option.any_none,Bool.and_false]
      · rw [if_neg missing] at fine
        exact fine
    have set := finalDeadline h (fun given => stored (.inl given)) stays
    cases depth : validateDepth opts.depth with
    | error message => exact set
    | ok depthGiven =>
      have deeper := finalSame set (t := { s with
        jobDeadlines := s.jobDeadlines.setGiven jobId deadlineMs
        jobDepths := s.jobDepths.setGiven jobId depthGiven }) rfl rfl rfl rfl rfl rfl
        ⟨set.contained.progress,set.contained.journals,set.contained.deadlines,set.contained.inFlight⟩
      cases sink : validateEventSink opts.eventSink with
      | error message => exact deeper
      | ok sinkGiven =>
        have there := stored (.inr (by rw [depth,sink]; rfl))
        refine ⟨deeper.named,deeper.stored,?_,deeper.used,deeper.past,
          ⟨deeper.contained.progress,deeper.contained.journals,deeper.contained.deadlines,?_⟩⟩
        · intro drive member o mine
          cases List.mem_append.mp member with
          | inl old => exact deeper.drives drive old o mine
          | inr new =>
            cases List.mem_singleton.mp new
            exact driveJob deeper jobId mine
        · intro other flying
          dsimp only at flying
          unfold JobMap.set at flying
          split at flying
          · rename_i same
            exact same ▸ there
          · exact deeper.contained.inFlight other flying

/- A new job is under an id that was never seen before. -/
theorem finalRegister (unique : Function.Injective ids) (h : Final ids s) (input : CreateAgentJobInput) :
    Final ids (s.registerJob ids input).2 ∧ (s.registerJob ids input).2.gone (s.registerJob ids input).1.jobId = false ∧
      ((s.registerJob ids input).2.jobs (s.registerJob ids input).1.jobId).isSome := by
  have kept {o : Nat} {job : AgentJob} (there : s.heap[o]? = some job) (new : AgentJob) :
      (s.heap ++ [new])[o]? = some job := by
    rw [List.getElem?_append_left (List.getElem?_eq_some_iff.mp there).1]
    exact there
  have fresh : s.gone (ids s.heap.length) = false := by
    by_contra lost
    obtain ⟨o,less,same⟩ := h.used _ (Bool.not_eq_false _ ▸ lost)
    exact absurd (unique same) (Nat.ne_of_lt less)
  have widened {other : JsString} (there : (s.jobs other).isSome) :
      ((s.jobs.set (ids s.heap.length) s.heap.length) other).isSome := by
    unfold JobMap.set
    split
    · rfl
    · exact there
  refine ⟨⟨?_,?_,?_,?_,?_,?_⟩,fresh,?_⟩
  · intro o job there
    simp only [registerJob] at there
    rw [List.getElem?_append] at there
    split at there
    · exact h.named o job there
    · rename_i late
      rw [List.getElem?_singleton] at there
      split at there
      · rename_i first
        cases Option.some.inj there
        have place : o = s.heap.length := by omega
        rw [place]
      · contradiction
  · intro jobId o there
    simp only [registerJob,JobMap.set] at there
    split at there
    · rename_i same
      cases Option.some.inj there
      exact ⟨_,List.getElem?_concat_length,same.symm⟩
    · obtain ⟨job,at_,name⟩ := h.stored jobId o there
      exact ⟨job,kept at_ _,name⟩
  · intro drive member o mine
    obtain ⟨job,at_,name⟩ := h.drives drive member o mine
    exact ⟨job,kept at_ _,name⟩
  · intro jobId lost
    obtain ⟨o,less,same⟩ := h.used jobId lost
    refine ⟨o,?_,same⟩
    simp only [registerJob,List.length_append,List.length_singleton]
    omega
  · intro jobId o job lost there at_
    simp only [registerJob,JobMap.set] at there
    split at there
    · rename_i same
      have gone : s.gone jobId = true := lost
      rw [same,fresh] at gone
      contradiction
    · obtain ⟨old,at',_⟩ := h.stored jobId o there
      cases Option.some.inj ((kept at' _).symm.trans at_)
      exact stillExpired (s := s) rfl rfl rfl (fun _ => .inl (le_refl _)) (le_refl _) (h.past jobId o job lost there at')
  · exact ⟨fun _ there => widened (h.contained.progress _ there),fun _ there => widened (h.contained.journals _ there),
      fun _ there => widened (h.contained.deadlines _ there),fun _ there => widened (h.contained.inFlight _ there)⟩
  · simp only [registerJob,JobMap.set,if_true,Option.isSome_some]

theorem journalFrame (h : Final ids s) {jobId : JsString} (there : (s.jobs jobId).isSome) :
    Final ids (s.getOrCreateJournal jobId) := by
  unfold getOrCreateJournal
  split
  · exact h
  · refine finalSame h rfl rfl rfl rfl rfl rfl ⟨h.contained.progress,?_,h.contained.deadlines,h.contained.inFlight⟩
    intro other kept
    dsimp only at kept
    unfold JobMap.set at kept
    split at kept
    · rename_i same
      exact same ▸ there
    · exact h.contained.journals other kept

theorem finalCreate (unique : Function.Injective ids) (h : Final ids s) (input : CreateAgentJobInput) :
    Final ids (s.createAgentJobEntry ids input).2 := by
  obtain ⟨registered,fresh,there⟩ := finalRegister unique (finalPrune h) input
  unfold createAgentJobEntry
  split
  · exact h
  split
  · exact h
  split
  · exact h
  split
  · exact h
  rename_i sink _ _ _ _ depth _
  dsimp only
  generalize s.prune.registerJob ids input = made at registered fresh there
  obtain ⟨job,t⟩ := made
  dsimp only at registered fresh there ⊢
  split
  · exact registered
  · rename_i deadlineMs _
    have calm (u : AgentJobs) (gone : u.gone = t.gone) (given : Option ℚ) : u.revives job.jobId given = false := by
      unfold revives
      rw [gone,fresh,Bool.false_and]
    have set := finalDeadline registered (fun _ => there) (calm t rfl deadlineMs)
    have deeper := finalSame set (t := { t with
      jobDeadlines := t.jobDeadlines.setGiven job.jobId deadlineMs
      jobDepths := t.jobDepths.setGiven job.jobId depth
      jobSinks := t.jobSinks.setGiven job.jobId sink }) rfl rfl rfl rfl rfl rfl
      ⟨set.contained.progress,set.contained.journals,set.contained.deadlines,set.contained.inFlight⟩
    generalize named : ({ t with
      jobDeadlines := t.jobDeadlines.setGiven job.jobId deadlineMs
      jobDepths := t.jobDepths.setGiven job.jobId depth
      jobSinks := t.jobSinks.setGiven job.jobId sink } : AgentJobs) = u at deeper ⊢
    have sameGone : u.gone = t.gone := named ▸ rfl
    have sameJobs : u.jobs = t.jobs := named ▸ rfl
    have opened : Final _ (u.getOrCreateJournal job.jobId) := journalFrame deeper (sameJobs ▸ there)
    refine finalExecute opened _ _ ?_
    have frame : ∀ u : AgentJobs, (u.getOrCreateJournal job.jobId).jobs = u.jobs ∧
        (u.getOrCreateJournal job.jobId).gone = u.gone := by
      intro u
      unfold getOrCreateJournal
      split <;> exact ⟨rfl,rfl⟩
    have quiet := calm (u.getOrCreateJournal job.jobId) ((frame u).2.trans sameGone)
    unfold strays
    dsimp only
    rw [(frame u).1,sameJobs]
    split
    · exact Bool.and_false _
    · rw [if_neg (by simpa using Option.isSome_iff_ne_none.mp there),quiet _,Bool.and_false]

theorem finalNegotiate (h : Final ids s) (d : Nat) (ready : Bool) : Final ids (s.negotiateLeafTransport d ready) := by
  unfold negotiateLeafTransport
  split
  · exact h
  · rename_i drive o _
    have heap (i : Nat) := heapChange o (fun job => job.negotiated ready) s i
    have same (job : AgentJob) (i : Nat) : (if i = o then job.negotiated ready else job).jobId = job.jobId := by
      split <;> rfl
    refine ⟨?_,?_,?_,?_,?_,⟨h.contained.progress,h.contained.journals,h.contained.deadlines,h.contained.inFlight⟩⟩
    · intro i later there
      obtain ⟨job,old,rfl⟩ := Option.map_eq_some_iff.mp ((heap i).symm.trans there)
      rw [same]
      exact h.named i job old
    · intro jobId i there
      obtain ⟨job,old,name⟩ := h.stored jobId i there
      exact ⟨_,(heap i).trans (congrArg _ old),(same job i).trans name⟩
    · intro x member i mine
      obtain ⟨job,old,name⟩ := h.drives x member i mine
      exact ⟨_,(heap i).trans (congrArg _ old),(same job i).trans name⟩
    · intro jobId lost
      obtain ⟨i,less,name⟩ := h.used jobId lost
      exact ⟨i,by simpa [change] using less,name⟩
    · intro jobId i later lost there at_
      obtain ⟨job,old,rfl⟩ := Option.map_eq_some_iff.mp ((heap i).symm.trans at_)
      have past := h.past jobId i job lost there old
      split
      · exact stillExpired (s := s) rfl rfl rfl (fun _ => .inl (le_refl _)) (le_refl _) past
      · exact past

theorem finalProgress (h : Final ids s) (d : Nat) (event : AgentProgressEvent)
    (fine : strays s (.progress d event) = false) : Final ids (s.onProgress d event) := by
  unfold strays at fine
  dsimp only at fine
  unfold onProgress
  split
  · exact h
  · rename_i drive o found
    rw [found,Option.any_some] at fine
    have there : (s.jobs drive.jobId).isSome := by simpa using fine
    let merged := mergeProgress (s.jobProgress drive.jobId) event
    have set := finalSame h (t := { s with jobProgress := s.jobProgress.set drive.jobId merged })
      rfl rfl rfl rfl rfl rfl ⟨?_,h.contained.journals,h.contained.deadlines,h.contained.inFlight⟩
    · exact journalFrame set there
    intro other kept
    dsimp only at kept
    unfold JobMap.set at kept
    split at kept
    · rename_i same
      exact same ▸ there
    · exact h.contained.progress other kept

/- The end of a drive writes to a job that is not stored, or that no read has reported expired. -/
theorem finalFinish (h : Final ids s) (d : Nat) (outcome : DriveOutcome)
    (fine : strays s (.finish d outcome) = false) : Final ids (s.finish d outcome) := by
  unfold strays at fine
  dsimp only at fine
  unfold finish
  split
  · exact h
  · rename_i drive o found
    rw [found,Option.any_some] at fine
    dsimp only at fine
    obtain ⟨here,_,mine⟩ := workingAt found
    obtain ⟨target,at_,name⟩ := h.drives drive (List.mem_of_getElem? here) o mine
    obtain ⟨heapSame,drivesSame,jobsSame⟩ := markFrame drive.jobId outcome.stage s
    have goneSame : (s.markProgressSettled drive.jobId outcome.stage).gone = s.gone := by
      unfold markProgressSettled
      split <;> rfl
    have clockSame : (s.markProgressSettled drive.jobId outcome.stage).clock = s.clock := by
      unfold markProgressSettled
      split <;> rfl
    have deadlinesSame : (s.markProgressSettled drive.jobId outcome.stage).jobDeadlines = s.jobDeadlines := by
      unfold markProgressSettled
      split <;> rfl
    have marked : Contained (s.markProgressSettled drive.jobId outcome.stage) := by
      unfold markProgressSettled
      split
      · exact h.contained
      · rename_i prior known
        refine ⟨?_,h.contained.journals,h.contained.deadlines,h.contained.inFlight⟩
        intro other kept
        dsimp only at kept
        unfold JobMap.set at kept
        split at kept
        · rename_i same
          exact same ▸ h.contained.progress drive.jobId (by rw [known]; rfl)
        · exact h.contained.progress other kept
    have before := finalSame h heapSame jobsSame drivesSame goneSame clockSame deadlinesSame marked
    generalize s.markProgressSettled drive.jobId outcome.stage = t at *
    have heap (i : Nat) := heapChange o (fun job => job.settle s.clock outcome) t i
    have same (job : AgentJob) (i : Nat) : (if i = o then job.settle s.clock outcome else job).jobId = job.jobId := by
      split
      · exact settleJobId job s.clock outcome
      · rfl
    refine ⟨?_,?_,?_,?_,?_,⟨marked.progress,marked.journals,marked.deadlines,marked.inFlight⟩⟩
    · intro i later there
      obtain ⟨job,old,rfl⟩ := Option.map_eq_some_iff.mp ((heap i).symm.trans there)
      rw [same]
      exact before.named i job old
    · intro jobId i there
      obtain ⟨job,old,name'⟩ := before.stored jobId i there
      exact ⟨_,(heap i).trans (congrArg _ old),(same job i).trans name'⟩
    · intro x member i its
      obtain ⟨e,place⟩ := List.getElem?_of_mem member
      obtain ⟨y,old,rfl⟩ := Option.map_eq_some_iff.mp ((endedAt d _ e).symm.trans place)
      have held : y.job = some i := by
        split at its <;> exact its
      obtain ⟨job,there,name'⟩ := before.drives y (List.mem_of_getElem? old) i held
      refine ⟨_,(heap i).trans (congrArg _ there),(same job i).trans ?_⟩
      split <;> exact name'
    · intro jobId lost
      obtain ⟨i,less,name'⟩ := before.used jobId lost
      exact ⟨i,by simpa [change,endDrive] using less,name'⟩
    · intro jobId i later lost there place
      obtain ⟨job,old,rfl⟩ := Option.map_eq_some_iff.mp ((heap i).symm.trans place)
      have past := before.past jobId i job lost there old
      split
      · rename_i here'
        subst here'
        -- the drive's own job is stored and was reported expired
        obtain ⟨job',old',name'⟩ := before.stored jobId i there
        cases Option.some.inj (old.symm.trans old')
        rw [heapSame,at_] at old
        cases Option.some.inj old
        have stored : (s.jobs drive.jobId).isSome := by
          rw [← name,name',← jobsSame]
          exact Option.isSome_iff_exists.mpr ⟨i,there⟩
        have gone : s.gone drive.jobId = true := by
          rw [← name,name',← goneSame]
          exact lost
        rw [stored,gone] at fine
        contradiction
      · exact stillExpired (s := t) rfl rfl rfl (fun _ => .inl (le_refl _)) (le_refl _) past

theorem finalStep (unique : Function.Injective ids) (h : Final ids s) (event : JobEvent)
    (fine : strays s event = false) : Final ids (step ids s event) := by
  cases event with
  | create input => exact finalCreate unique h input
  | execute jobId opts => exact finalExecute h jobId opts fine
  | negotiate d ready => exact finalNegotiate h d ready
  | progress d event => exact finalProgress h d event fine
  | finish d outcome => exact finalFinish h d outcome fine
  | timer d =>
    refine ⟨h.named,h.stored,?_,h.used,h.past,⟨h.contained.progress,h.contained.journals,h.contained.deadlines,
      h.contained.inFlight⟩⟩
    intro x member o mine
    obtain ⟨e,place⟩ := List.getElem?_of_mem member
    have at_ : (s.drives.modify d fun drive => if drive.ended then drive else { drive with timedOut := true })[e]? =
      some x := place
    rw [List.getElem?_modify] at at_
    obtain ⟨y,old,same⟩ := Option.map_eq_some_iff.mp at_
    have frame : x.jobId = y.jobId ∧ x.job = y.job := by
      rw [← same]
      split
      · split <;> exact ⟨rfl,rfl⟩
      · exact ⟨rfl,rfl⟩
    rw [frame.1]
    exact h.drives y (List.mem_of_getElem? old) o (frame.2 ▸ mine)
  | settle d =>
    unfold step settle
    dsimp only
    split
    · exact h
    · split
      · refine finalSame h rfl rfl rfl rfl rfl rfl ⟨h.contained.progress,h.contained.journals,h.contained.deadlines,?_⟩
        intro other kept
        dsimp only at kept
        exact h.contained.inFlight other (withoutSome kept).1
      · exact h
  | get jobId => exact finalObserve h jobId
  | stale jobId owner => exact finalObserve h jobId
  | snapshot jobId owner => exact finalPrune h
  | hasUnexpired => exact finalPrune h
  | pass ms => exact finalPass h ms

theorem emptyFinal (ids : Nat → JsString) : Final ids {} :=
  ⟨nofun,nofun,nofun,nofun,nofun,⟨nofun,nofun,nofun,nofun⟩⟩

/- No read returns the job. -/
structure Hidden (s : AgentJobs) (jobId : JsString) : Prop where
  get : s.getAgentJob jobId = none
  snapshot : ∀ owner, s.getAgentJobSnapshot jobId owner = none
  stale : ∀ owner, s.isAgentJobSnapshotStale jobId owner = none

theorem goneHidden (h : Final ids s) {jobId : JsString} (lost : s.gone jobId) : Hidden s jobId := by
  cases found : s.jobs jobId with
  | none =>
    have missing : s.stored jobId = none := by
      unfold AgentJobs.stored
      rw [found]
      rfl
    have pruned : s.prune.stored jobId = none := by
      unfold AgentJobs.stored prune JobMap.without
      dsimp only
      rw [found]
      split <;> rfl
    exact ⟨by rw [getAgentJob,missing]; rfl,fun owner => by rw [getAgentJobSnapshot,pruned],
      fun owner => by rw [isAgentJobSnapshotStale,missing]⟩
  | some o =>
    obtain ⟨job,at_,_⟩ := h.stored jobId o found
    have past := h.past jobId o job lost found at_
    have there : s.stored jobId = some job := by
      unfold AgentJobs.stored
      rw [found,Option.bind_some,at_]
    have pruned : s.prune.stored jobId = none := by
      unfold AgentJobs.stored prune JobMap.without
      dsimp only
      rw [if_pos (deadOf found at_ past)]
      rfl
    refine ⟨?_,fun owner => by rw [getAgentJobSnapshot,pruned],fun owner => ?_⟩
    · rw [getAgentJob,there,Option.filter_some,past]
      rfl
    · rw [isAgentJobSnapshotStale,there]
      simp only [past,Bool.true_or,if_true]

end

/-- Unless a drive reports to a job that is pruned or ends on one reported expired, or an unknown
or expired job is executed, a job that was pruned or reported expired is never read again, and
the maps of progress, journals, deadlines and drives in flight have no key the store lacks. -/
theorem expiryFinal {ids : Nat → JsString} (unique : Function.Injective ids) (events : List JobEvent)
    (fine : Meets (fun s e => strays s e = false) (step ids) {} events) :
    (∀ jobId, (run ids events).gone jobId → Hidden (run ids events) jobId) ∧ Contained (run ids events) := by
  have final := runUnder (emptyFinal ids) (fun s event h fine => finalStep unique h event fine) events fine
  exact ⟨fun _ lost => goneHidden final lost,final.contained⟩

/- A running job past its deadline that a read reports expired and a snapshot prunes. -/
def prunedEvents : List JobEvent :=
  [.create { query := js "q" },.progress 0 { stage := some .gather },.pass 1800001,.get (letters 0),.snapshot (letters 0) none,
    .finish 0 (.result .null)]

theorem prunedHidden : ((run letters prunedEvents).getAgentJob (letters 0)).isNone ∧
    ((run letters prunedEvents).jobProgress (letters 0)).isNone := by
  obtain ⟨hidden,contained⟩ := expiryFinal lettersInjective prunedEvents (by decide)
  refine ⟨by rw [(hidden (letters 0) (by decide)).get]; rfl,?_⟩
  by_contra kept
  have there := contained.progress (letters 0) (by simpa using Option.ne_none_iff_isSome.mp fun none => kept (by rw [none]; rfl))
  have missing : ((run letters prunedEvents).jobs (letters 0)).isSome = false := by decide
  rw [missing] at there
  contradiction

/- A read reports the job expired, its drive ends, and the job is there again; the progress of a
drive whose job was pruned is kept for ever. -/
theorem expiredReturns :
    (((run letters [.create { query := js "q" },.pass 1800001]).getAgentJob (letters 0)).isNone ∧
      ((run letters [.create { query := js "q" },.pass 1800001,.get (letters 0),.finish 0 (.result .null)]).getAgentJob
        (letters 0)).isSome) ∧
    (((run letters [.create { query := js "q" },.pass 1800001,.hasUnexpired,
        .progress 0 { stage := some .gather }]).jobs (letters 0)).isNone ∧
      ((run letters [.create { query := js "q" },.pass 1800001,.hasUnexpired,
        .progress 0 { stage := some .gather }]).jobProgress (letters 0)).isSome) := by
  decide

end AgentJobs
end Northstar.Agent
