import Northstar.Github.CloneRun

/-! Every run of a clone, whatever it is answered: what becomes of its directory, which children it starts and with
what, when it asks for a token, and what it serves. -/
namespace Northstar.Github.Clone
open Program (Event Runs runsDone runsCall runsBind runsThen)

abbrev CloneEvent := Event CloneOp CloneReply

def startedBy (event : CloneEvent) : Option CloneChild := match event.1 with
  | .run child => some child
  | _ => none

def started (events : List CloneEvent) : List CloneChild := events.filterMap startedBy

theorem startedAppend (a b : List CloneEvent) : started (a ++ b) = started a ++ started b := List.filterMap_append

/- Neither a child nor the directory itself. -/
def Quiet (event : CloneEvent) : Prop := match event.1 with
  | .aborted | .makeDir _ | .writeHelper _ _ | .scan _ => True
  | _ => False

theorem quietStarted {events : List CloneEvent} (quiet : ∀ event ∈ events, Quiet event) : started events = [] := by
  refine List.filterMap_eq_nil_iff.mpr fun event member => ?_
  have kind := quiet event member
  obtain ⟨op,reply⟩ := event
  cases op <;> first | rfl | contradiction

def ghArgv (input : GithubCloneInput) (root : CloneRoot) : List JsString :=
  [js "repo",js "clone",input.owner ++ [47] ++ input.repo,root.within "work",js "--",js "-c",
    js "core.hooksPath=" ++ root.within "no-hooks"] ++ shapeFlags ++ configFlags ++ branchArgs input.ref

def gitArgv (input : GithubCloneInput) (root : CloneRoot) : List JsString :=
  [js "clone"] ++ shapeFlags ++ [js "-c",js "credential.helper=!" ++ root.within "askpass.sh",js "-c",
    js "core.hooksPath=" ++ root.within "no-hooks"] ++ configFlags ++ branchArgs input.ref ++
    [cloneUrl input.owner input.repo,root.within "work"]

section Settings
variable {input : GithubCloneInput} {deps : GithubCloneDependencies} {settings : CloneSettings}

theorem refSame {ref out : JsString} {field : String} (ok : validateGithubCloneRef ref field = .ok out) : out = ref := by
  have last := (passed (passed (passed (passed (passed (passed (passed ok).2).2).2).2).2).2).2
  split at last
  · contradiction
  · exact (Except.ok.inj (passed last).2).symm

theorem checkedSame {ref out : Option JsString} (ok : checkedRef ref = .ok out) : out = ref := by
  cases ref with
  | none => exact (Except.ok.inj ok).symm
  | some ref =>
    rw [checkedRef] at ok
    cases checked : validateGithubCloneRef ref "ref" with
    | error e =>
      rw [checked] at ok
      contradiction
    | ok same =>
      rw [checked,refSame checked] at ok
      exact (Except.ok.inj ok).symm

structure Admitted (input : GithubCloneInput) (deps : GithubCloneDependencies) (settings : CloneSettings) : Prop where
  slug : validateCloneSlug input.owner input.repo = .ok ()
  ref : checkedRef input.ref = .ok input.ref
  policy : resolveGithubClonePolicy deps.policy = .ok settings.policy
  token : settings.token = resolveCloneToken deps
  plain : validateCloneToken settings.token = .ok ()

theorem boundOk {α β : Type} {first : Except CloneError α} {next : α → Except CloneError β} {out : β}
    (ok : (first >>= next) = .ok out) : ∃ value, first = .ok value ∧ next value = .ok out := by
  cases first with
  | error e => contradiction
  | ok value => exact ⟨value,rfl,ok⟩

theorem settingsAdmitted (ok : cloneSettings input deps = .ok settings) : Admitted input deps settings := by
  obtain ⟨_,slug,ok⟩ := boundOk ok
  obtain ⟨ref,checked,ok⟩ := boundOk ok
  obtain ⟨policy,resolved,ok⟩ := boundOk ok
  obtain ⟨_,plain,ok⟩ := boundOk ok
  cases Except.ok.inj ok
  exact ⟨slug,checkedSame checked ▸ checked,resolved,rfl,plain⟩

theorem ghBuilt (admitted : Admitted input deps settings) (root : CloneRoot) :
    buildGithubGhCloneArgv input (root.within "work") none (some (root.within "no-hooks")) = .ok (ghArgv input root) := by
  rw [buildGithubGhCloneArgv,admitted.slug,admitted.ref]
  simp [bind,Except.bind,pure,Except.pure,configArgs,ghArgv]

theorem gitBuilt (admitted : Admitted input deps settings) (root : CloneRoot) :
    buildGithubGitCloneArgv input (root.within "work") (root.within "askpass.sh") (root.within "no-hooks") = .ok (gitArgv input root) := by
  rw [buildGithubGitCloneArgv,admitted.slug,admitted.ref]
  simp [bind,Except.bind,pure,Except.pure,gitArgv]

end Settings

section Pieces
variable {policy : GithubClonePolicy} {token : Option JsString} {root : CloneRoot} {events : List CloneEvent}

theorem makeDirRuns {path : JsString} {result : Except Thrown Unit} (run : Runs (makeDir path) events result) :
    (∀ event ∈ events, Quiet event) ∧ (result = .ok () ∨ ∃ message, result = .error (.other message)) := by
  obtain ⟨reply,rest,rfl,ends⟩ := runsCall.mp run
  obtain ⟨rfl,rfl⟩ := runsDone.mp ends
  refine ⟨by simp [Quiet],?_⟩
  cases (show Except JsString Unit from reply) with
  | ok value => exact .inl rfl
  | error message => exact .inr ⟨message,rfl⟩

theorem helperRuns {result : Except Thrown JsString} (run : Runs (writeCredentialHelper root token) events result) :
    (∀ event ∈ events, Quiet event) ∧ (result = .ok (root.within "askpass.sh") ∨ ∃ message, result = .error (.other message)) := by
  obtain ⟨reply,rest,rfl,ends⟩ := runsCall.mp run
  obtain ⟨rfl,rfl⟩ := runsDone.mp ends
  refine ⟨by simp [Quiet],?_⟩
  cases (show Except JsString Unit from reply) with
  | ok value => exact .inl rfl
  | error message => exact .inr ⟨message,rfl⟩

/- What an attempt through gh came to, with all it did. -/
inductive GhRan (policy : GithubClonePolicy) (child : CloneChild) : List CloneEvent → Except Thrown GhAttempt → Prop where
  | cloned (result : GithubCloneResult) (clean : result.code = 0) : GhRan policy child [⟨.run child,.ok result⟩] (.ok .cloned)
  | failed (result : GithubCloneResult) (unclean : result.code ≠ 0) :
      GhRan policy child [⟨.run child,.ok result⟩] (.ok (.failed result.code))
  | absent : GhRan policy child [⟨.run child,.error .missing⟩,⟨.aborted,false⟩] (.ok .absent)
  | unavailable (failure : RunFailure) (there : failure ≠ .missing) :
      GhRan policy child [⟨.run child,.error failure⟩,⟨.aborted,false⟩] (.ok .unavailable)
  | aborted (failure : RunFailure) :
      GhRan policy child [⟨.run child,.error failure⟩,⟨.aborted,true⟩] (.error (failure.thrown policy))

theorem ghRuns {child : CloneChild} {result : Except Thrown GhAttempt} (run : Runs (attemptGh policy token child) events result) :
    GhRan policy child events result := by
  obtain ⟨reply,rest,rfl,ends⟩ := runsCall.mp run
  cases reply with
  | ok answer =>
    obtain ⟨rfl,rfl⟩ := runsDone.mp ends
    by_cases clean : answer.code = 0
    · simpa [sanitizeCloneResult,clean] using GhRan.cloned answer clean
    · simpa [sanitizeCloneResult,clean] using GhRan.failed answer clean
  | error failure =>
    obtain ⟨aborted,rest,rfl,last⟩ := runsCall.mp ends
    obtain ⟨rfl,rfl⟩ := runsDone.mp last
    cases (show Bool from aborted) with
    | true => exact .aborted failure
    | false =>
      by_cases missing : failure = .missing
      · subst missing
        exact .absent
      · simpa [missing] using GhRan.unavailable failure missing

/- What an attempt through git came to. -/
inductive GitRan (policy : GithubClonePolicy) (token : Option JsString) (child : CloneChild) :
    List CloneEvent → Except Thrown Unit → Prop where
  | cloned (result : GithubCloneResult) (clean : result.code = 0) : GitRan policy token child [⟨.run child,.ok result⟩] (.ok ())
  | refused (result : GithubCloneResult) (unclean : result.code ≠ 0) (held : token.isSome)
      (auth : isGithubCloneAuthFailure (sanitizeCloneOutput result.stderr token) result.code) :
      GitRan policy token child [⟨.run child,.ok result⟩] (.error authenticationRequired)
  | failed (result : GithubCloneResult) (unclean : result.code ≠ 0)
      (other : ¬(token.isSome ∧ isGithubCloneAuthFailure (sanitizeCloneOutput result.stderr token) result.code)) :
      GitRan policy token child [⟨.run child,.ok result⟩] (.error (upstream (js "clone failed with code " ++ js (toString result.code))))
  | thrown (failure : RunFailure) (aborted : Bool) (e : Thrown) (named : e ≠ authenticationRequired) :
      GitRan policy token child [⟨.run child,.error failure⟩,⟨.aborted,aborted⟩] (.error e)

theorem upstreamNamed (message : JsString) : upstream message ≠ authenticationRequired := by simp [upstream,authenticationRequired]

theorem thrownNamed (failure : RunFailure) : failure.thrown policy ≠ authenticationRequired := by
  cases failure <;> simp [RunFailure.thrown,authenticationRequired,cloneCeilingError]

theorem gitRuns {child : CloneChild} {ghAbsent : Bool} {result : Except Thrown Unit}
    (run : Runs (attemptGit policy token ghAbsent child) events result) : GitRan policy token child events result := by
  obtain ⟨reply,rest,rfl,ends⟩ := runsCall.mp run
  cases reply with
  | ok answer =>
    obtain ⟨rfl,rfl⟩ := runsDone.mp ends
    by_cases clean : answer.code = 0
    · simpa [sanitizeCloneResult,clean] using GitRan.cloned answer clean
    · by_cases auth : token.isSome ∧ isGithubCloneAuthFailure (sanitizeCloneOutput answer.stderr token) answer.code
      · simpa [sanitizeCloneResult,clean,auth.1,auth.2] using GitRan.refused answer clean auth.1 auth.2
      · have not_ : (token.isSome && isGithubCloneAuthFailure (sanitizeCloneOutput answer.stderr token) answer.code) = false := by
          simpa using auth
        simpa [sanitizeCloneResult,clean,not_] using GitRan.failed answer clean auth
  | error failure =>
    obtain ⟨aborted,rest,rfl,last⟩ := runsCall.mp ends
    obtain ⟨rfl,rfl⟩ := runsDone.mp last
    refine .thrown failure aborted _ ?_
    split
    · exact thrownNamed failure
    · split
      · split
        · exact upstreamNamed _
        · exact upstreamNamed _
      · exact upstreamNamed _

inductive ScanRan (policy : GithubClonePolicy) (workdir : JsString) : List CloneEvent → Except Thrown CloneScanState → Prop where
  | scanned (tree : CloneDir) (state : CloneScanState) (ok : scanCloneTree policy tree = .ok state) :
      ScanRan policy workdir [⟨.scan workdir,.ok tree⟩] (.ok state)
  | failed (events : List CloneEvent) (quiet : ∀ event ∈ events, Quiet event) (e : Thrown) (named : e ≠ authenticationRequired) :
      ScanRan policy workdir events (.error e)

theorem scanRuns {workdir : JsString} {result : Except Thrown CloneScanState} (run : Runs (scanClone policy workdir) events result) :
    ScanRan policy workdir events result := by
  obtain ⟨reply,rest,rfl,ends⟩ := runsCall.mp run
  cases reply with
  | ok tree =>
    obtain ⟨rfl,rfl⟩ := runsDone.mp ends
    cases scans : scanCloneTree policy tree with
    | ok state => exact .scanned tree state scans
    | error e =>
      refine .failed _ (by simp [Quiet]) _ ?_
      rcases scanParted policy tree with ⟨_,_,state,ok⟩ | ⟨_,fails⟩ | ⟨_,fails⟩
      · exact absurd (scans.symm.trans ok) (by simp)
      · cases Except.error.inj (scans.symm.trans fails)
        simp [authenticationRequired,fileCeilingError]
      · cases Except.error.inj (scans.symm.trans fails)
        simp [authenticationRequired,cloneCeilingError]
  | error message =>
    obtain ⟨aborted,rest,rfl,last⟩ := runsCall.mp ends
    obtain ⟨rfl,rfl⟩ := runsDone.mp last
    refine .failed _ (by simp [Quiet]) _ ?_
    split
    · simp [authenticationRequired]
    · exact upstreamNamed _

end Pieces

section Within
variable (settings : CloneSettings) (input : GithubCloneInput) (parentEnv : ParentEnv) (root : CloneRoot)

def ghOf : CloneChild := ghChild settings.policy parentEnv root (ghArgv input root)

def gitOf : CloneChild := gitChild settings.policy parentEnv root (root.within "askpass.sh") (gitArgv input root)

def outcomeOf (warnings : List JsString) (state : CloneScanState) (ghAbsent : Bool) : GithubCloneOutcome :=
  let payload := clonePayload settings.policy input settings.ref warnings state
  ⟨payload,ghAbsent,payload.warnings⟩

/- The children of a clone that came through: gh alone, or git after gh did not. -/
inductive Fetched : List CloneEvent → Prop where
  | gh (result : GithubCloneResult) (clean : result.code = 0) : Fetched [⟨.run (ghOf settings input parentEnv root),.ok result⟩]
  | git (tried : List CloneEvent) (attempt : GhAttempt) (needed : attempt ≠ .cloned)
      (ran : GhRan settings.policy (ghOf settings input parentEnv root) tried (.ok attempt)) (result : GithubCloneResult)
      (clean : result.code = 0) : Fetched (tried ++ [⟨.run (gitOf settings input parentEnv root),.ok result⟩])

inductive WithinRan : List CloneEvent → Except Thrown GithubCloneOutcome → Prop where
  | unprepared (prep : List CloneEvent) (quiet : ∀ event ∈ prep, Quiet event) (message : JsString) :
      WithinRan prep (.error (.other message))
  | ghEnded (prep gh : List CloneEvent) (quiet : ∀ event ∈ prep, Quiet event) (e : Thrown)
      (ran : GhRan settings.policy (ghOf settings input parentEnv root) gh (.error e)) : WithinRan (prep ++ gh) (.error e)
  | gitEnded (prep gh git : List CloneEvent) (quiet : ∀ event ∈ prep, Quiet event) (attempt : GhAttempt) (needed : attempt ≠ .cloned)
      (tried : GhRan settings.policy (ghOf settings input parentEnv root) gh (.ok attempt)) (e : Thrown)
      (ran : GitRan settings.policy settings.token (gitOf settings input parentEnv root) git (.error e)) :
      WithinRan (prep ++ (gh ++ git)) (.error e)
  | unscanned (prep fetch scan : List CloneEvent) (quiet : ∀ event ∈ prep, Quiet event)
      (fetched : Fetched settings input parentEnv root fetch) (e : Thrown)
      (ran : ScanRan settings.policy (root.within "work") scan (.error e)) : WithinRan (prep ++ (fetch ++ scan)) (.error e)
  | served (prep fetch scan : List CloneEvent) (quiet : ∀ event ∈ prep, Quiet event)
      (fetched : Fetched settings input parentEnv root fetch) (state : CloneScanState)
      (ran : ScanRan settings.policy (root.within "work") scan (.ok state)) (ghAbsent : Bool) (warnings : List JsString) :
      WithinRan (prep ++ (fetch ++ scan)) (.ok (outcomeOf settings input warnings state ghAbsent))

variable {settings input parentEnv root}

theorem quietBoth {a b : List CloneEvent} (first : ∀ event ∈ a, Quiet event) (second : ∀ event ∈ b, Quiet event) :
    ∀ event ∈ a ++ b, Quiet event := by
  intro event member
  exact (List.mem_append.mp member).elim (first event) (second event)

theorem fallBackRuns {deps : GithubCloneDependencies} (admitted : Admitted input deps settings) {attempt : GhAttempt} {events : List CloneEvent}
    {result : Except Thrown (List JsString)}
    (run : Runs (fallBackToGit settings.policy input parentEnv settings.token root attempt (root.within "askpass.sh")) events result) :
    (attempt = .cloned ∧ events = [] ∧ ∃ warnings, result = .ok warnings) ∨
    (attempt ≠ .cloned ∧ ((∃ e, result = .error e ∧ GitRan settings.policy settings.token (gitOf settings input parentEnv root) events (.error e)) ∨
      ∃ warnings, result = .ok warnings ∧ GitRan settings.policy settings.token (gitOf settings input parentEnv root) events (.ok ()))) := by
  rw [fallBackToGit] at run
  split at run
  · rename_i cloned
    obtain ⟨rfl,rfl⟩ := runsDone.mp run
    exact .inl ⟨cloned,rfl,_,rfl⟩
  · rename_i needed
    rw [gitBuilt admitted root] at run
    rcases runsThen.mp run with ⟨e,one,_⟩ | ⟨first,rest,argv,rfl,one,later⟩
    · exact absurd (runsDone.mp one).2 (by simp [Except.mapError])
    · obtain ⟨rfl,built⟩ := runsDone.mp one
      cases Except.ok.inj built
      rcases runsThen.mp later with ⟨e,ran,rfl⟩ | ⟨git,last,_,rfl,ran,ends⟩
      · exact .inr ⟨needed,.inl ⟨e,rfl,gitRuns ran⟩⟩
      · obtain ⟨rfl,rfl⟩ := runsDone.mp ends
        rw [List.nil_append,List.append_nil]
        exact .inr ⟨needed,.inr ⟨_,rfl,gitRuns ran⟩⟩

theorem withinRuns {deps : GithubCloneDependencies} (admitted : Admitted input deps settings) {events : List CloneEvent}
    {result : Except Thrown GithubCloneOutcome}
    (run : Runs (cloneWithin settings.policy input parentEnv settings.token root settings.ref) events result) :
    WithinRan settings input parentEnv root events result := by
  rcases runsThen.mp run with ⟨e,one,rfl⟩ | ⟨hooks,rest,_,rfl,one,home⟩
  · obtain ⟨quiet,failed⟩ := makeDirRuns one
    obtain ⟨message,same⟩ := failed.resolve_left (by simp)
    cases Except.error.inj same
    exact .unprepared _ quiet message
  have quiet := (makeDirRuns one).1
  rcases runsThen.mp home with ⟨e,one,rfl⟩ | ⟨homes,rest,_,rfl,one,help⟩
  · obtain ⟨still,failed⟩ := makeDirRuns one
    obtain ⟨message,same⟩ := failed.resolve_left (by simp)
    cases Except.error.inj same
    exact .unprepared _ (quietBoth quiet still) message
  have quiet := quietBoth quiet (makeDirRuns one).1
  rcases runsThen.mp help with ⟨e,one,rfl⟩ | ⟨helps,rest,helper,rfl,one,build⟩
  · obtain ⟨still,failed⟩ := helperRuns one
    obtain ⟨message,same⟩ := failed.resolve_left (by simp)
    cases Except.error.inj same
    rw [← List.append_assoc]
    exact .unprepared _ (quietBoth quiet still) message
  obtain ⟨still,wrote⟩ := helperRuns one
  have quiet := quietBoth quiet still
  have placed : helper = root.within "askpass.sh" := by
    rcases wrote with same | ⟨message,same⟩
    · exact Except.ok.inj same
    · contradiction
  subst placed
  rw [ghBuilt admitted root] at build
  rcases runsThen.mp build with ⟨e,one,_⟩ | ⟨none_,rest,argv,rfl,one,attempts⟩
  · exact absurd (runsDone.mp one).2 (by simp [Except.mapError])
  obtain ⟨rfl,built⟩ := runsDone.mp one
  cases Except.ok.inj built
  rw [List.nil_append,← List.append_assoc,← List.append_assoc]
  rcases runsThen.mp attempts with ⟨e,one,rfl⟩ | ⟨gh,rest,attempt,rfl,one,falls⟩
  · exact .ghEnded _ _ quiet e (ghRuns one)
  have tried := ghRuns one
  rcases runsThen.mp falls with ⟨e,one,rfl⟩ | ⟨git,rest,warnings,rfl,one,scans⟩
  · rcases fallBackRuns admitted one with ⟨_,_,_,same⟩ | ⟨needed,⟨e',same,ran⟩ | ⟨_,same,_⟩⟩
    · contradiction
    · cases Except.error.inj same
      exact .gitEnded _ gh _ quiet attempt needed tried e ran
    · contradiction
  have fetched : Fetched settings input parentEnv root (gh ++ git) := by
    rcases fallBackRuns admitted one with ⟨cloned,rfl,_⟩ | ⟨needed,⟨e',same,_⟩ | ⟨_,_,ran⟩⟩
    · subst cloned
      cases tried with
      | cloned result clean => exact .gh result clean
    · contradiction
    · cases ran with
      | cloned result clean => exact .git gh attempt needed tried result clean
  rw [← List.append_assoc gh]
  rcases runsThen.mp scans with ⟨e,one,rfl⟩ | ⟨scan,last,state,rfl,one,ends⟩
  · exact .unscanned _ _ _ quiet fetched e (scanRuns one)
  · obtain ⟨rfl,rfl⟩ := runsDone.mp ends
    rw [List.append_nil]
    exact .served _ _ _ quiet fetched state (scanRuns one) _ warnings

theorem ghStarts {child : CloneChild} {policy : GithubClonePolicy} {events : List CloneEvent} {result : Except Thrown GhAttempt}
    (ran : GhRan policy child events result) : started events = [child] := by
  cases ran <;> rfl

theorem gitStarts {child : CloneChild} {policy : GithubClonePolicy} {token : Option JsString} {events : List CloneEvent}
    {result : Except Thrown Unit} (ran : GitRan policy token child events result) : started events = [child] := by
  cases ran <;> rfl

theorem scanStarts {policy : GithubClonePolicy} {workdir : JsString} {events : List CloneEvent} {result : Except Thrown CloneScanState}
    (ran : ScanRan policy workdir events result) : started events = [] := by
  cases ran with
  | scanned tree state ok => rfl
  | failed events quiet e named => exact quietStarted quiet

theorem fetchStarts {events : List CloneEvent} (fetched : Fetched settings input parentEnv root events) :
    started events <+: [ghOf settings input parentEnv root,gitOf settings input parentEnv root] := by
  cases fetched with
  | gh result clean => exact ⟨[_],rfl⟩
  | git tried attempt needed ran result clean =>
    rw [startedAppend,ghStarts ran]
    exact ⟨[],rfl⟩

theorem withinStarts {events : List CloneEvent} {result : Except Thrown GithubCloneOutcome}
    (ran : WithinRan settings input parentEnv root events result) :
    started events <+: [ghOf settings input parentEnv root,gitOf settings input parentEnv root] := by
  cases ran with
  | unprepared prep quiet message =>
    rw [quietStarted quiet]
    exact List.nil_prefix
  | ghEnded prep gh quiet e ran =>
    rw [startedAppend,quietStarted quiet,ghStarts ran]
    exact ⟨[_],rfl⟩
  | gitEnded prep gh git quiet attempt needed tried e ran =>
    rw [startedAppend,startedAppend,quietStarted quiet,ghStarts tried,gitStarts ran]
    exact ⟨[],rfl⟩
  | unscanned prep fetch scan quiet fetched e ran =>
    rw [startedAppend,startedAppend,quietStarted quiet,scanStarts ran,List.append_nil]
    exact fetchStarts fetched
  | served prep fetch scan quiet fetched state ran ghAbsent warnings =>
    rw [startedAppend,startedAppend,quietStarted quiet,scanStarts ran,List.append_nil]
    exact fetchStarts fetched

/- A child or something quiet. -/
def Inner (event : CloneEvent) : Prop := Quiet event ∨ ∃ child, event.1 = .run child

theorem withinInner {events : List CloneEvent} {result : Except Thrown GithubCloneOutcome}
    (ran : WithinRan settings input parentEnv root events result) : ∀ event ∈ events, Inner event := by
  have ofGh {child : CloneChild} {policy : GithubClonePolicy} {events : List CloneEvent} {result : Except Thrown GhAttempt}
      (ran : GhRan policy child events result) : ∀ event ∈ events, Inner event := by
    cases ran <;> simp [Inner,Quiet]
  have ofGit {child : CloneChild} {policy : GithubClonePolicy} {token : Option JsString} {events : List CloneEvent}
      {result : Except Thrown Unit} (ran : GitRan policy token child events result) : ∀ event ∈ events, Inner event := by
    cases ran <;> simp [Inner,Quiet]
  have ofScan {policy : GithubClonePolicy} {workdir : JsString} {events : List CloneEvent} {result : Except Thrown CloneScanState}
      (ran : ScanRan policy workdir events result) : ∀ event ∈ events, Inner event := by
    cases ran with
    | scanned tree state ok => simp [Inner,Quiet]
    | failed events quiet e named => exact fun event member => .inl (quiet event member)
  have ofFetch {events : List CloneEvent} (fetched : Fetched settings input parentEnv root events) : ∀ event ∈ events, Inner event := by
    cases fetched with
    | gh result clean => simp [Inner]
    | git tried attempt needed ran result clean =>
      intro event member
      rcases List.mem_append.mp member with earlier | last
      · exact ofGh ran event earlier
      · exact .inr ⟨_,by rw [List.mem_singleton.mp last]⟩
  intro event member
  cases ran with
  | unprepared prep quiet message => exact .inl (quiet event member)
  | ghEnded prep gh quiet e ran =>
    exact (List.mem_append.mp member).elim (fun early => .inl (quiet event early)) (ofGh ran event)
  | gitEnded prep gh git quiet attempt needed tried e ran =>
    rcases List.mem_append.mp member with early | later
    · exact .inl (quiet event early)
    · exact (List.mem_append.mp later).elim (ofGh tried event) (ofGit ran event)
  | unscanned prep fetch scan quiet fetched e ran =>
    rcases List.mem_append.mp member with early | later
    · exact .inl (quiet event early)
    · exact (List.mem_append.mp later).elim (ofFetch fetched event) (ofScan ran event)
  | served prep fetch scan quiet fetched state ran ghAbsent warnings =>
    rcases List.mem_append.mp member with early | later
    · exact .inl (quiet event early)
    · exact (List.mem_append.mp later).elim (ofFetch fetched event) (ofScan ran event)

end Within

/- A failed removal is thrown only where nothing else was. -/
def settled (inner : Except Thrown GithubCloneOutcome) (reply : Except JsString Unit) : Except Thrown GithubCloneOutcome :=
  match inner, reply with
  | .error e, _ => .error e
  | .ok outcome, .ok _ => .ok outcome
  | .ok _, .error message => .error (.other message)

section Whole
variable {input : GithubCloneInput} {deps : GithubCloneDependencies} {events : List CloneEvent} {result : Except Thrown GithubCloneOutcome}

inductive CloneRan (input : GithubCloneInput) (deps : GithubCloneDependencies) : List CloneEvent → Except Thrown GithubCloneOutcome → Prop where
  | refused (e : CloneError) (no : cloneSettings input deps = .error e) : CloneRan input deps [] (.error (.clone e))
  | unstarted (events : List CloneEvent) (few : events.map Sigma.fst <+: [.aborted,.acquireRoot]) (message : JsString) :
      CloneRan input deps events (.error (.other message))
  | ran (settings : CloneSettings) (set : cloneSettings input deps = .ok settings) (root : CloneRoot) (middle : List CloneEvent)
      (inner : Except Thrown GithubCloneOutcome)
      (within : Runs (cloneWithin settings.policy input deps.parentEnv settings.token root settings.ref) middle inner)
      (reply : Except JsString Unit) :
      CloneRan input deps (⟨.aborted,false⟩ :: ⟨.acquireRoot,.ok root⟩ :: (middle ++ [⟨.release root.path,reply⟩])) (settled inner reply)

theorem cloneRuns (run : Runs (cloneGithubRepo input deps) events result) : CloneRan input deps events result := by
  rw [cloneGithubRepo] at run
  cases set : cloneSettings input deps with
  | error e =>
    rw [set] at run
    obtain ⟨rfl,rfl⟩ := runsDone.mp run
    exact .refused e set
  | ok settings =>
    rw [set] at run
    obtain ⟨aborted,rest,rfl,start⟩ := runsCall.mp run
    cases aborted with
    | true =>
      obtain ⟨rfl,rfl⟩ := runsDone.mp start
      exact .unstarted _ ⟨[.acquireRoot],rfl⟩ _
    | false =>
      obtain ⟨made,rest,rfl,making⟩ := runsCall.mp start
      cases made with
      | error message =>
        obtain ⟨rfl,rfl⟩ := runsDone.mp making
        exact .unstarted _ ⟨[],rfl⟩ _
      | ok root =>
        obtain ⟨middle,last,inner,rfl,within,ends⟩ := runsBind.mp making
        cases inner with
        | error e =>
          obtain ⟨reply,rest,rfl,final⟩ := runsCall.mp ends
          obtain ⟨rfl,rfl⟩ := runsDone.mp final
          exact .ran settings set root middle (.error e) within reply
        | ok outcome =>
          obtain ⟨reply,rest,rfl,final⟩ := runsCall.mp ends
          cases reply with
          | ok value =>
            obtain ⟨rfl,rfl⟩ := runsDone.mp final
            exact .ran settings set root middle (.ok outcome) within (.ok value)
          | error message =>
            obtain ⟨rfl,rfl⟩ := runsDone.mp final
            exact .ran settings set root middle (.ok outcome) within (.error message)

end Whole

end Northstar.Github.Clone
