import Mathlib.Data.Rat.Floor
import Northstar.Agent.Evidence
import Northstar.Program

/-! The agent job store (agent-jobs.ts): job objects with the maps kept beside them, and the
drives that write to a job whether or not it is still stored. A drive's controller is its
reports and its end, in any order; of a journal only that it is there matters here. -/
namespace Northstar.Agent

def agentRunDeadlineMs : ℚ := 1800000
def agentRunDeadlineMaxMs : ℚ := 7200000
def agentResultRetentionTtlMs : Int := 86400000
def agentPollVisibilityTtlMs : Int := 300000
def deadlineMessage : JsString := js "agent job deadline exceeded"

inductive JobStatus where
  | running | ready | failed
  deriving DecidableEq, Repr

structure AgentRpcRecord where
  attempted : Bool
  negotiated : Bool
  transport : String
  reason : String
  deriving DecidableEq, Repr

structure AgentJob where
  jobId : JsString
  query : JsString
  status : JobStatus
  createdAt : Int
  updatedAt : Int
  owner : Option JsString
  rpc : AgentRpcRecord
  result : Option JsValue
  error : Option String

inductive AgentJobStage where
  | plan | gather | evaluate | synthesize | verify | done | failed
  deriving DecidableEq, Repr

structure AgentJobProgress where
  stage : AgentJobStage := .plan
  round : Nat := 0
  questionsAnswered : Nat := 0
  questionsTotal : Nat := 0
  searchesUsed : Nat := 0
  fetchesUsed : Nat := 0
  utilityCallsUsed : Option Nat := none
  deriving DecidableEq, Repr

/- A count that is missing or not a finite number is none; so is an unknown stage. -/
structure AgentProgressEvent where
  stage : Option AgentJobStage := none
  round : Option ℚ := none
  questionsAnswered : Option ℚ := none
  questionsTotal : Option ℚ := none
  searchesUsed : Option ℚ := none
  fetchesUsed : Option ℚ := none
  utilityCallsUsed : Option ℚ := none

def asCount (value : Option ℚ) : Option Nat := value.map fun n => ⌊n⌋.toNat

def mergeProgress (prior : Option AgentJobProgress) (event : AgentProgressEvent) : AgentJobProgress :=
  let base := prior.getD {}
  { stage := event.stage.getD base.stage
    round := (asCount event.round).getD base.round
    questionsAnswered := (asCount event.questionsAnswered).getD base.questionsAnswered
    questionsTotal := (asCount event.questionsTotal).getD base.questionsTotal
    searchesUsed := (asCount event.searchesUsed).getD base.searchesUsed
    fetchesUsed := (asCount event.fetchesUsed).getD base.fetchesUsed
    utilityCallsUsed := (asCount event.utilityCallsUsed).or base.utilityCallsUsed }

/- A depth is the text given for it; a deadline that is no finite number is refused as 0 is,
an event sink is whether it is a function. -/
structure ExecuteAgentJobOptions where
  deadlineMs : Option ℚ := none
  depth : Option JsString := none
  eventSink : Option Bool := none

structure CreateAgentJobInput where
  query : JsString
  owner : Option JsString := none
  endpoint : Option JsString := none
  depth : Option JsString := none
  deadlineMs : Option ℚ := none
  eventSink : Option Bool := none
  constraints : List String := []

def unsupportedAgentJobFields : List String := ["limit","category","yearFrom","recency","domains"]

def validateEventSink : Option Bool → Except JsString (Option Unit)
  | none => .ok none
  | some callable => if callable then .ok (some ()) else .error (js "eventSink must be a function")

def validateDepth : Option JsString → Except JsString (Option JsString)
  | none => .ok none
  | some depth =>
      if depth = js "balanced" ∨ depth = js "deep" then .ok (some depth)
      else .error (js "depth must be \"balanced\" or \"deep\"")

def validateDeadlineMs : Option ℚ → Except JsString (Option ℚ)
  | none => .ok none
  | some ms =>
      if ms ≤ 0 then .error (js "deadlineMs must be greater than 0")
      else if ms > agentRunDeadlineMaxMs then .error (js "deadlineMs exceeds maximum of 7200000")
      else .ok (some ms)

/- The first constraint of the list the input has. -/
def refusedConstraint (constraints : List String) : Option JsString :=
  (unsupportedAgentJobFields.find? constraints.contains).map fun field =>
    js ("agent job rejects search constraint \"" ++ field ++ "\": unsupported by the job runtime")

def negotiateAgentRpc (endpoint : Option JsString) : AgentRpcRecord :=
  if trim (endpoint.getD []) = [] then
    ⟨true,false,"standalone","no pi-subagents RPC handshake available; core runs standalone"⟩
  else ⟨true,false,"standalone","unrecognized RPC endpoint shape; core runs standalone"⟩

/- The outcome of a drive's controller. -/
inductive DriveOutcome where
  | result (result : JsValue)
  | deadline (warnings : List JsString)
  | failure
  deriving Repr

def DriveOutcome.stage : DriveOutcome → AgentJobStage
  | .result _ => .done
  | .deadline _ | .failure => .failed

def degradedResult (query : JsString) (warnings : List JsString) : JsValue :=
  .object [(js "version",.number (.int 1)),(js "query",.string query),(js "reportText",.string []),
    (js "claims",.array []),(js "sources",.array []),(js "warnings",.array (warnings.map .string))]

/- validateAgentResult on a result without claims and sources. -/
def degradedValid (query : JsString) (warnings : List JsString) : Bool :=
  trim query ≠ [] && warnings.all fun warning => byteLength warning ≤ agentWarningMaxBytes

def AgentJob.settle (job : AgentJob) (now : Int) : DriveOutcome → AgentJob
  | .result result => { job with result := some result, status := .ready, updatedAt := now }
  | .deadline warnings =>
      let debt := warnings.map (truncateUtf8Bytes · agentWarningMaxBytes) ++ [deadlineMessage]
      { job with
        status := .failed
        result := if degradedValid job.query debt then some (degradedResult job.query debt) else job.result
        error := some "agent_job_deadline"
        updatedAt := now }
  | .failure => { job with
      status := .failed
      rpc := if job.result.isSome then job.rpc else
        ⟨job.rpc.attempted,job.rpc.negotiated,"standalone",
          "job failed before any result was produced; transport reset to standalone"⟩
      error := some "agent_job_failed"
      updatedAt := now }

def AgentJob.negotiated (job : AgentJob) (ready : Bool) : AgentJob :=
  { job with rpc := if ready then ⟨true,true,"leaf-runtime","negotiated exact leaf model"⟩
      else ⟨true,false,"standalone","leaf runtime refresh failed; core runs standalone"⟩ }

/- A call of driveAgentJob, with the object it holds on to. -/
structure Drive where
  jobId : JsString
  job : Option Nat
  ended : Bool
  timedOut : Bool := false
  deriving DecidableEq, Repr

abbrev JobMap (α : Type) := JsString → Option α

namespace JobMap

def set {α : Type} (m : JobMap α) (jobId : JsString) (value : α) : JobMap α :=
  fun other => if other = jobId then some value else m other

def setGiven {α : Type} (m : JobMap α) (jobId : JsString) : Option α → JobMap α
  | none => m
  | some value => m.set jobId value

def without {α : Type} (m : JobMap α) (gone : JsString → Bool) : JobMap α :=
  fun jobId => if gone jobId then none else m jobId

end JobMap

/- `gone` logs the ids that were pruned or that a read reported expired. -/
structure AgentJobs where
  heap : List AgentJob := []
  jobs : JobMap Nat := fun _ => none
  inFlight : JobMap Nat := fun _ => none
  jobProgress : JobMap AgentJobProgress := fun _ => none
  jobDeadlines : JobMap ℚ := fun _ => none
  jobDepths : JobMap JsString := fun _ => none
  jobJournals : JobMap Unit := fun _ => none
  jobSinks : JobMap Unit := fun _ => none
  drives : List Drive := []
  clock : Int := 0
  gone : JsString → Bool := fun _ => false

structure AgentJobSnapshot where
  jobId : JsString
  status : JobStatus
  query : JsString
  updatedAt : Int
  transport : String
  reason : String
  result : Option JsValue
  error : Option String
  progress : Option AgentJobProgress

namespace AgentJobs

def stored (s : AgentJobs) (jobId : JsString) : Option AgentJob := (s.jobs jobId).bind fun o => s.heap[o]?

def expired (s : AgentJobs) (job : AgentJob) : Bool := match job.status with
  | .running => decide (((s.clock - job.createdAt : Int) : ℚ) > (s.jobDeadlines job.jobId).getD agentRunDeadlineMs)
  | .ready | .failed => decide (s.clock - job.updatedAt > agentResultRetentionTtlMs)

def dead (s : AgentJobs) (jobId : JsString) : Bool := (s.stored jobId).any s.expired

def prune (s : AgentJobs) : AgentJobs :=
  { s with
    jobs := s.jobs.without s.dead
    inFlight := s.inFlight.without s.dead
    jobProgress := s.jobProgress.without s.dead
    jobDeadlines := s.jobDeadlines.without s.dead
    jobDepths := s.jobDepths.without s.dead
    jobJournals := s.jobJournals.without s.dead
    jobSinks := s.jobSinks.without s.dead
    gone := fun jobId => s.gone jobId || s.dead jobId }

def jobIdShape (jobId : JsString) : Bool :=
  1 ≤ jobId.length && jobId.length ≤ 64 &&
    jobId.all fun u => (97 ≤ u && u ≤ 122) || (48 ≤ u && u ≤ 57) || u = 45

def getOrCreateJournal (jobId : JsString) (s : AgentJobs) : AgentJobs :=
  if (s.jobJournals jobId).isSome || !jobIdShape jobId then s
  else { s with jobJournals := s.jobJournals.set jobId () }

/- The part of driveAgentJob before its first await. -/
def driveAgentJob (jobId : JsString) (s : AgentJobs) : Drive := match s.jobs jobId with
  | none => ⟨jobId,none,true,false⟩
  | some o => match s.heap[o]? with
      | none => ⟨jobId,none,true,false⟩
      | some job => ⟨jobId,some o,job.status ≠ .running,false⟩

def executeAgentJob (jobId : JsString) (opts : ExecuteAgentJobOptions) (s : AgentJobs) : AgentJobs :=
  if (s.inFlight jobId).isSome then s
  else match validateDeadlineMs opts.deadlineMs with
    | .error _ => s
    | .ok deadlineMs =>
        let s := { s with jobDeadlines := s.jobDeadlines.setGiven jobId deadlineMs }
        match validateDepth opts.depth with
        | .error _ => s
        | .ok depth =>
            let s := { s with jobDepths := s.jobDepths.setGiven jobId depth }
            match validateEventSink opts.eventSink with
            | .error _ => s
            | .ok sink => { s with
                jobSinks := s.jobSinks.setGiven jobId sink
                drives := s.drives ++ [s.driveAgentJob jobId]
                inFlight := s.inFlight.set jobId s.drives.length }

/- The registration of createAgentJobEntry, once everything but the deadline is checked. -/
def registerJob (ids : Nat → JsString) (input : CreateAgentJobInput) (s : AgentJobs) : AgentJob × AgentJobs :=
  let jobId := ids s.heap.length
  let job : AgentJob :=
    ⟨jobId,trim input.query,.running,s.clock,s.clock,input.owner,negotiateAgentRpc input.endpoint,none,none⟩
  (job,{ s with heap := s.heap ++ [job], jobs := s.jobs.set jobId s.heap.length })

/- A deadline that is refused leaves the job stored, without a journal and without a drive. -/
def createAgentJobEntry (ids : Nat → JsString) (input : CreateAgentJobInput) (s : AgentJobs) :
    Except JsString AgentJob × AgentJobs :=
  if trim input.query = [] then (.error (js "agent job requires a non-empty query"),s)
  else match validateEventSink input.eventSink with
    | .error message => (.error message,s)
    | .ok sink => match refusedConstraint input.constraints with
        | some message => (.error message,s)
        | none => match validateDepth input.depth with
            | .error message => (.error message,s)
            | .ok depth =>
                let (job,s) := s.prune.registerJob ids input
                match validateDeadlineMs input.deadlineMs with
                | .error message => (.error message,s)
                | .ok deadlineMs =>
                    let s := { s with
                      jobDeadlines := s.jobDeadlines.setGiven job.jobId deadlineMs
                      jobDepths := s.jobDepths.setGiven job.jobId depth
                      jobSinks := s.jobSinks.setGiven job.jobId sink }
                    (.ok job,(s.getOrCreateJournal job.jobId).executeAgentJob job.jobId { deadlineMs := deadlineMs })

def change (o : Nat) (update : AgentJob → AgentJob) (s : AgentJobs) : AgentJobs :=
  { s with heap := s.heap.modify o update }

/- The object a drive still works on. -/
def working (s : AgentJobs) (d : Nat) : Option (Drive × Nat) := match s.drives[d]? with
  | none => none
  | some drive => if drive.ended then none else drive.job.map fun o => (drive,o)

def negotiateLeafTransport (d : Nat) (ready : Bool) (s : AgentJobs) : AgentJobs := match s.working d with
  | none => s
  | some (_,o) => s.change o fun job => job.negotiated ready

def onProgress (d : Nat) (event : AgentProgressEvent) (s : AgentJobs) : AgentJobs := match s.working d with
  | none => s
  | some (drive,_) =>
      let merged := mergeProgress (s.jobProgress drive.jobId) event
      getOrCreateJournal drive.jobId { s with jobProgress := s.jobProgress.set drive.jobId merged }

def markProgressSettled (jobId : JsString) (stage : AgentJobStage) (s : AgentJobs) : AgentJobs :=
  match s.jobProgress jobId with
  | none => s
  | some prior => { s with jobProgress := s.jobProgress.set jobId { prior with stage := stage } }

def endDrive (d : Nat) (s : AgentJobs) : AgentJobs :=
  { s with drives := s.drives.modify d fun drive => { drive with ended := true } }

/- The controller returns or throws. -/
def finish (d : Nat) (outcome : DriveOutcome) (s : AgentJobs) : AgentJobs := match s.working d with
  | none => s
  | some (drive,o) =>
      ((s.markProgressSettled drive.jobId outcome.stage).change o fun job => job.settle s.clock outcome).endDrive d

/- The race's timer rejects the race only. -/
def timer (d : Nat) (s : AgentJobs) : AgentJobs :=
  { s with drives := s.drives.modify d fun drive =>
      if drive.ended then drive else { drive with timedOut := true } }

/- The race is over, whichever side won it. -/
def settle (d : Nat) (s : AgentJobs) : AgentJobs := match s.drives[d]? with
  | none => s
  | some drive =>
      if (drive.ended || drive.timedOut) && s.inFlight drive.jobId == some d then
        { s with inFlight := s.inFlight.without fun jobId => jobId == drive.jobId }
      else s

def getAgentJob (jobId : JsString) (s : AgentJobs) : Option AgentJob :=
  (s.stored jobId).filter fun job => !s.expired job

def getAgentJobSnapshot (jobId : JsString) (owner : Option JsString) (s : AgentJobs) : Option AgentJobSnapshot :=
  let s := s.prune
  match s.stored jobId with
  | none => none
  | some job =>
      if job.owner.isSome && owner ≠ job.owner then none
      else some ⟨job.jobId,job.status,job.query,job.updatedAt,job.rpc.transport,job.rpc.reason,job.result,
        job.error,s.jobProgress jobId⟩

/- None is the thrown error. -/
def isAgentJobSnapshotStale (jobId : JsString) (owner : Option JsString) (s : AgentJobs) : Option Bool :=
  match s.stored jobId with
  | none => none
  | some job =>
      if s.expired job || job.owner.isSome && owner ≠ job.owner then none
      else some (job.status = .running && decide (s.clock - job.updatedAt > agentPollVisibilityTtlMs))

/- An unpruned read that finds the job expired. -/
def observe (jobId : JsString) (s : AgentJobs) : AgentJobs :=
  { s with gone := fun other => s.gone other || (other == jobId && s.dead jobId) }

end AgentJobs

inductive JobEvent where
  | create (input : CreateAgentJobInput)
  | execute (jobId : JsString) (opts : ExecuteAgentJobOptions)
  | negotiate (drive : Nat) (ready : Bool)
  | progress (drive : Nat) (event : AgentProgressEvent)
  | finish (drive : Nat) (outcome : DriveOutcome)
  | timer (drive : Nat)
  | settle (drive : Nat)
  | get (jobId : JsString)
  | stale (jobId : JsString) (owner : Option JsString)
  | snapshot (jobId : JsString) (owner : Option JsString)
  | hasUnexpired
  | pass (ms : Nat)

namespace AgentJobs

def step (ids : Nat → JsString) (s : AgentJobs) : JobEvent → AgentJobs
  | .create input => (s.createAgentJobEntry ids input).2
  | .execute jobId opts => s.executeAgentJob jobId opts
  | .negotiate d ready => s.negotiateLeafTransport d ready
  | .progress d event => s.onProgress d event
  | .finish d outcome => s.finish d outcome
  | .timer d => s.timer d
  | .settle d => s.settle d
  | .get jobId | .stale jobId _ => s.observe jobId
  | .snapshot _ _ | .hasUnexpired => s.prune
  | .pass ms => { s with clock := s.clock + ms }

def run (ids : Nat → JsString) (events : List JobEvent) : AgentJobs := events.foldl (step ids) {}

end AgentJobs
end Northstar.Agent
