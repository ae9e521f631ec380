import Northstar.Github.CloneRuns

/-! What holds of every clone, whatever it is answered: its directory is removed, its children are the same two
commands with or without a token, a token is asked for only where git had one, and what is served is within the
ceilings. -/
namespace Northstar.Github.Clone
open Program (Event Runs runsAnswered)

section Whole
variable {input : GithubCloneInput} {deps : GithubCloneDependencies} {events : List CloneEvent} {result : Except Thrown GithubCloneOutcome}

/- A directory that was made is removed, once and last of all; where none was made nothing was done in it. An error of
the clone itself is thrown whatever its removal comes to. -/
theorem rootReleased (run : Runs (cloneGithubRepo input deps) events result) :
    (events.map Sigma.fst <+: [.aborted,.acquireRoot] ∧ ∃ e, result = .error e) ∨
    ∃ root middle inner reply, events = ⟨.aborted,false⟩ :: ⟨.acquireRoot,.ok root⟩ :: (middle ++ [⟨.release root.path,reply⟩]) ∧
      (∀ event ∈ middle, event.1 ≠ .acquireRoot ∧ ∀ path, event.1 ≠ .release path) ∧ result = settled inner reply ∧
      ∃ settings, cloneSettings input deps = .ok settings ∧
        Runs (cloneWithin settings.policy input deps.parentEnv settings.token root settings.ref) middle inner := by
  cases cloneRuns run with
  | refused e no => exact .inl ⟨List.nil_prefix,_,rfl⟩
  | unstarted events few message => exact .inl ⟨few,_,rfl⟩
  | ran settings set root middle inner within reply =>
    refine .inr ⟨root,middle,inner,reply,rfl,?_,rfl,settings,set,within⟩
    intro event member
    have kind := withinInner (withinRuns (settingsAdmitted set) within) event member
    obtain ⟨op,answer⟩ := event
    rcases kind with quiet | ⟨child,same⟩
    · cases op <;> first | contradiction | simp
    · cases same
      simp

/- An environment that holds no token. -/
def withoutTokens (env : ParentEnv) : ParentEnv := fun key =>
  if key = js "GITHUB_TOKEN" ∨ key = js "GH_TOKEN" then none else env key

theorem tokensUnread (env : ParentEnv) : cloneEnvBase (withoutTokens env) = cloneEnvBase env := by
  have same {key : JsString} (other : ¬(key = js "GITHUB_TOKEN" ∨ key = js "GH_TOKEN")) : withoutTokens env key = env key := if_neg other
  have allowed : nativeChildAllowlist.filterMap (fun key => (withoutTokens env key).map (key,·)) =
      nativeChildAllowlist.filterMap fun key => (env key).map (key,·) := by
    refine List.filterMap_congr fun key member => ?_
    rw [same]
    rintro (rfl | rfl)
    · exact absurd member (by decide)
    · exact absurd member (by decide)
  rw [cloneEnvBase,cloneEnvBase,buildNativeChildEnvironment,buildNativeChildEnvironment,allowed,same (by decide),same (by decide)]

theorem unstartedNone (few : events.map Sigma.fst <+: [.aborted,.acquireRoot]) : started events = [] := by
  refine List.filterMap_eq_nil_iff.mpr fun event member => ?_
  have kind := few.subset (List.mem_map_of_mem member)
  obtain ⟨op,answer⟩ := event
  simp only [List.mem_cons,List.not_mem_nil,or_false] at kind
  rcases kind with rfl | rfl <;> rfl

theorem startedWhole (root : CloneRoot) (middle : List CloneEvent) (reply : Except JsString Unit) :
    started (⟨.aborted,false⟩ :: ⟨.acquireRoot,.ok root⟩ :: (middle ++ [⟨.release root.path,reply⟩])) = started middle := by
  change started (middle ++ [⟨.release root.path,reply⟩]) = started middle
  rw [startedAppend]
  exact List.append_nil _

/- The children that are started are gh and then git at most, and each is what it would be without any token. -/
theorem childrenTokenless (run : Runs (cloneGithubRepo input deps) events result) : ∃ policy root, started events <+:
    [ghChild policy (withoutTokens deps.parentEnv) root (ghArgv input root),
      gitChild policy (withoutTokens deps.parentEnv) root (root.within "askpass.sh") (gitArgv input root)] := by
  cases cloneRuns run with
  | refused e no => exact ⟨policyDefaults,⟨[47],rfl⟩,List.nil_prefix⟩
  | unstarted events few message =>
    refine ⟨policyDefaults,⟨[47],rfl⟩,?_⟩
    rw [unstartedNone few]
    exact List.nil_prefix
  | ran settings set root middle inner within reply =>
    refine ⟨settings.policy,root,?_⟩
    have starts := withinStarts (withinRuns (settingsAdmitted set) within)
    rw [startedWhole]
    simpa only [ghOf,gitOf,ghChild,gitChild,childEnvForGh,childEnvForClone,tokensUnread] using starts

def optionShaped (token : JsString) : Bool := token.head? = some 45

theorem unmet {met : Bool} {message : JsString} {out : Unit} (ok : refuse met message = .ok out) : met = false := by
  cases met with
  | false => rfl
  | true => contradiction

theorem slugHead (ok : validateCloneSlug input.owner input.repo = .ok ()) : ∃ u rest, input.owner = u :: rest ∧ u ≠ 45 := by
  obtain ⟨_,owner,_⟩ := boundOk ok
  obtain ⟨sized,owner⟩ := passed owner
  obtain ⟨_,owner⟩ := passed owner
  have shaped := unmet owner
  cases held : input.owner with
  | nil => simp [held] at sized
  | cons u rest => exact ⟨u,rest,rfl,by simpa [held] using (Bool.or_eq_false_iff.mp shaped).2⟩

theorem refHead {ref : JsString} {field : String} (ok : validateGithubCloneRef ref field = .ok ref) : optionShaped ref = false := by
  have shaped := (passed (passed (passed (passed (passed ok).2).2).2).2).1
  simp only [Bool.or_eq_false_iff] at shaped
  exact shaped.1

theorem branchOptions (ok : checkedRef input.ref = .ok input.ref) :
    (branchArgs input.ref).filter optionShaped = if input.ref.isSome then [js "--branch"] else [] := by
  cases held : input.ref with
  | none => rfl
  | some ref =>
    rw [held,checkedRef] at ok
    cases checked : validateGithubCloneRef ref "ref" with
    | error e =>
      rw [checked] at ok
      contradiction
    | ok same =>
      rw [refSame checked] at checked
      have plain := refHead checked
      have dashed : optionShaped (js "--branch") = true := by decide
      simp [branchArgs,dashed,plain]

/- The options of either child: none but fixed ones, in the order in which they are written. -/
def fixedOptions (command : JsString) : List JsString :=
  if command = js "gh" then [js "--",js "-c"] ++ (shapeFlags ++ configFlags).filter optionShaped
  else shapeFlags.filter optionShaped ++ [js "-c",js "-c"] ++ configFlags.filter optionShaped

theorem rootPlain (root : CloneRoot) (name : String) : optionShaped (root.within name) = false := by
  obtain ⟨path,absolute⟩ := root
  cases path with
  | nil => contradiction
  | cons u rest =>
    cases Option.some.inj absolute
    rfl

theorem optionsOfGh {settings : CloneSettings} (admitted : Admitted input deps settings) (root : CloneRoot) :
    (ghArgv input root).filter optionShaped = fixedOptions (js "gh") ++ if input.ref.isSome then [js "--branch"] else [] := by
  obtain ⟨u,rest,owner,apart⟩ := slugHead admitted.slug
  have slug : optionShaped (input.owner ++ [47] ++ input.repo) = false := by simp [optionShaped,owner,apart]
  have hooks : optionShaped (js "core.hooksPath=" ++ root.within "no-hooks") = false := rfl
  have fixed : optionShaped (js "repo") = false ∧ optionShaped (js "clone") = false ∧ optionShaped (js "--") = true ∧
      optionShaped (js "-c") = true := by decide
  rw [ghArgv,List.filter_append,branchOptions admitted.ref]
  simp only [List.filter_append,List.filter_cons,List.filter_nil,fixed,slug,hooks,rootPlain,fixedOptions]
  simp

theorem optionsOfGit {settings : CloneSettings} (admitted : Admitted input deps settings) (root : CloneRoot) :
    (gitArgv input root).filter optionShaped = fixedOptions (js "git") ++ if input.ref.isSome then [js "--branch"] else [] := by
  have helper : optionShaped (js "credential.helper=!" ++ root.within "askpass.sh") = false := rfl
  have hooks : optionShaped (js "core.hooksPath=" ++ root.within "no-hooks") = false := rfl
  have url : optionShaped (cloneUrl input.owner input.repo) = false := rfl
  have fixed : optionShaped (js "clone") = false ∧ optionShaped (js "-c") = true := by decide
  rw [gitArgv,List.filter_append,List.filter_append,branchOptions admitted.ref]
  have apart : js "git" ≠ js "gh" := by decide
  simp only [List.filter_append,List.filter_cons,List.filter_nil,fixed,helper,hooks,url,rootPlain,fixedOptions,if_neg apart]
  simp

/- No text of the request or of the environment is an option of a child: those it has are always the same. -/
theorem optionsFixed (run : Runs (cloneGithubRepo input deps) events result) : ∀ child ∈ started events,
    child.argv.filter optionShaped = fixedOptions child.command ++ if input.ref.isSome then [js "--branch"] else [] := by
  intro child member
  cases cloneRuns run with
  | refused e no => exact absurd member List.not_mem_nil
  | unstarted events few message =>
    rw [unstartedNone few] at member
    exact absurd member List.not_mem_nil
  | ran settings set root middle inner within reply =>
    have admitted := settingsAdmitted set
    rw [startedWhole] at member
    have one := (withinStarts (withinRuns admitted within)).subset member
    simp only [List.mem_cons,List.not_mem_nil,or_false] at one
    rcases one with rfl | rfl
    · exact optionsOfGh admitted root
    · exact optionsOfGit admitted root

/- git ran to an end that says the credential it was given is no good. -/
def AuthFailed (token : Option JsString) (event : CloneEvent) : Prop := ∃ child answer, event = ⟨.run child,.ok answer⟩ ∧
  child.command = js "git" ∧ isGithubCloneAuthFailure (sanitizeCloneOutput answer.stderr token) answer.code

section Auth
variable {settings : CloneSettings} {parentEnv : ParentEnv} {root : CloneRoot} {token : Option JsString}

theorem quietAuth {event : CloneEvent} (quiet : Quiet event) : ¬AuthFailed token event := by
  rintro ⟨child,answer,rfl,_⟩
  exact quiet

theorem ghAuth (token : Option JsString) {policy : GithubClonePolicy} {tried : List CloneEvent} {attempt : Except Thrown GhAttempt}
    (ran : GhRan policy (ghOf settings input parentEnv root) tried attempt) : ∀ event ∈ tried, ¬AuthFailed token event := by
  rintro event member ⟨child,answer,rfl,named,_⟩
  have known : child ∈ started tried := List.mem_filterMap.mpr ⟨_,member,rfl⟩
  rw [ghStarts ran,List.mem_singleton] at known
  subst known
  exact absurd (show js "gh" = js "git" from named) (by decide)

theorem cleanAuth {child : CloneChild} {answer : GithubCloneResult} (clean : answer.code = 0) :
    ¬AuthFailed token ⟨.run child,.ok answer⟩ := by
  rintro ⟨other,answer',same,_,auth⟩
  cases same
  simp [isGithubCloneAuthFailure,clean] at auth

theorem fetchAuth {fetch : List CloneEvent} (fetched : Fetched settings input parentEnv root fetch) :
    ∀ event ∈ fetch, ¬AuthFailed token event := by
  cases fetched with
  | gh result clean =>
    intro event member
    rw [List.mem_singleton.mp member]
    exact cleanAuth clean
  | git tried attempt needed ran result clean =>
    intro event member
    rcases List.mem_append.mp member with earlier | last
    · exact ghAuth token ran event earlier
    · rw [List.mem_singleton.mp last]
      exact cleanAuth clean

theorem scanAuth {policy : GithubClonePolicy} {workdir : JsString} {scan : List CloneEvent} {scanned : Except Thrown CloneScanState}
    (ran : ScanRan policy workdir scan scanned) : ∀ event ∈ scan, ¬AuthFailed token event := by
  cases ran with
  | scanned tree state ok =>
    intro event member
    rw [List.mem_singleton.mp member]
    exact quietAuth trivial
  | failed events quiet e named => exact fun event member => quietAuth (quiet event member)

theorem gitAuth {policy : GithubClonePolicy} {git : List CloneEvent} {e : Thrown}
    (ran : GitRan policy token (gitOf settings input parentEnv root) git (.error e)) :
    e = authenticationRequired ↔ token.isSome ∧ ∃ event ∈ git, AuthFailed token event := by
  cases ran with
  | refused result unclean held auth =>
    exact ⟨fun _ => ⟨held,_,List.mem_singleton.mpr rfl,_,result,rfl,rfl,auth⟩,fun _ => rfl⟩
  | failed result unclean other =>
    refine ⟨fun same => absurd same (upstreamNamed _),?_⟩
    rintro ⟨held,event,member,child,answer,same,_,auth⟩
    rw [List.mem_singleton.mp member] at same
    cases same
    exact absurd ⟨held,auth⟩ other
  | thrown failure aborted e named =>
    refine ⟨fun same => absurd same named,?_⟩
    rintro ⟨_,event,member,child,answer,rfl,_⟩
    simp only [List.mem_cons,List.not_mem_nil,or_false] at member
    rcases member with same | same <;> cases same

theorem withinAuth {middle : List CloneEvent} {inner : Except Thrown GithubCloneOutcome}
    (ran : WithinRan settings input parentEnv root middle inner) : inner = .error authenticationRequired ↔
      settings.token.isSome ∧ ∃ event ∈ middle, AuthFailed settings.token event := by
  have none_ {events : List CloneEvent} {e : Except Thrown GithubCloneOutcome} (named : e ≠ .error authenticationRequired)
      (free : ∀ event ∈ events, ¬AuthFailed settings.token event) : e = .error authenticationRequired ↔
        settings.token.isSome ∧ ∃ event ∈ events, AuthFailed settings.token event := by
    refine ⟨fun same => absurd same named,?_⟩
    rintro ⟨_,event,member,failed⟩
    exact absurd failed (free event member)
  have both {a b : List CloneEvent} (first : ∀ event ∈ a, ¬AuthFailed settings.token event)
      (second : ∀ event ∈ b, ¬AuthFailed settings.token event) : ∀ event ∈ a ++ b, ¬AuthFailed settings.token event :=
    fun event member => (List.mem_append.mp member).elim (first event) (second event)
  cases ran with
  | unprepared prep quiet message => exact none_ (by simp [authenticationRequired]) fun event member => quietAuth (quiet event member)
  | ghEnded prep gh quiet e ran =>
    refine none_ ?_ (both (fun event member => quietAuth (quiet event member)) (ghAuth settings.token ran))
    cases ran with
    | aborted failure => simpa using thrownNamed failure
  | gitEnded prep gh git quiet attempt needed tried e ran =>
    have early := both (fun event member => quietAuth (quiet event member)) (ghAuth settings.token tried)
    rw [Except.error.injEq,gitAuth ran,← List.append_assoc]
    refine and_congr_right fun _ => ⟨?_,?_⟩
    · rintro ⟨event,member,failed⟩
      exact ⟨event,List.mem_append_right _ member,failed⟩
    · rintro ⟨event,member,failed⟩
      rcases List.mem_append.mp member with before | after
      · exact absurd failed (early event before)
      · exact ⟨event,after,failed⟩
  | unscanned prep fetch scan quiet fetched e ran =>
    refine none_ ?_ (both (fun event member => quietAuth (quiet event member)) (both (fetchAuth fetched) (scanAuth ran)))
    cases ran with
    | failed events quiet e named => simpa using named
  | served prep fetch scan quiet fetched state ran ghAbsent warnings =>
    exact none_ (by simp) (both (fun event member => quietAuth (quiet event member)) (both (fetchAuth fetched) (scanAuth ran)))

end Auth

/- Every refusal of a request is an invalid_request. -/
structure Invalid {α : Type} (checked : Except CloneError α) : Prop where
  code : ∀ e, checked = .error e → e.code = .invalidRequest

section Invalid
variable {α β : Type}

theorem invalidOk (value : α) : Invalid (.ok value) := ⟨fun _ same => by contradiction⟩

theorem invalidError {e : CloneError} (code : e.code = .invalidRequest) : Invalid (.error e : Except CloneError α) := by
  constructor
  intro other same
  exact Except.error.inj same ▸ code

theorem invalidRefuse (met : Bool) (message : JsString) : Invalid (refuse met message) := by
  cases met with
  | false => exact invalidOk ()
  | true => exact invalidError rfl

theorem invalidThen {first : Except CloneError α} {next : α → Except CloneError β} (one : Invalid first)
    (rest : ∀ value, Invalid (next value)) : Invalid (first >>= next) := by
  cases first with
  | ok value => exact rest value
  | error e => exact invalidError (one.code e rfl)

theorem slugInvalid (owner repo : JsString) : Invalid (validateCloneSlug owner repo) := by
  have part (field : String) (value : JsString) (max : Nat) : Invalid (validateCloneSlugPart field value max) :=
    invalidThen (invalidRefuse ..) fun _ => invalidThen (invalidRefuse ..) fun _ => invalidRefuse ..
  exact invalidThen (part ..) fun _ => part ..

theorem refInvalid (ref : JsString) (field : String) : Invalid (validateGithubCloneRef ref field) := by
  refine invalidThen (invalidRefuse ..) fun _ => invalidThen (invalidRefuse ..) fun _ => invalidThen (invalidRefuse ..) fun _ =>
    invalidThen (invalidRefuse ..) fun _ => invalidThen (invalidRefuse ..) fun _ => invalidThen (invalidRefuse ..) fun _ =>
    invalidThen (invalidRefuse ..) fun _ => ?_
  split
  · exact invalidError rfl
  · exact invalidThen (invalidRefuse ..) fun _ => invalidOk _

theorem checkedInvalid (ref : Option JsString) : Invalid (checkedRef ref) := by
  cases ref with
  | none => exact invalidOk none
  | some ref =>
    have refused := refInvalid ref "ref"
    rw [checkedRef]
    cases checked : validateGithubCloneRef ref "ref" with
    | ok same => exact invalidOk _
    | error e => exact invalidError (refused.code e checked)

theorem ceilingInvalid (key : CloneCeiling) (raw : JsValue) : Invalid (admitCeiling key raw) := by
  rw [admitCeiling.eq_def]
  split
  · exact invalidOk none
  · split
    · exact invalidError rfl
    · split
      · exact invalidError rfl
      · exact invalidOk _
  · exact invalidError rfl

theorem policyInvalid (overrides : Option (CloneCeiling → JsValue)) : Invalid (resolveGithubClonePolicy overrides) := by
  have all (overrides : CloneCeiling → JsValue) (keys : List CloneCeiling) (start : GithubClonePolicy) :
      Invalid (keys.foldlM (lowerCeiling overrides) start) := by
    induction keys generalizing start with
    | nil => exact invalidOk start
    | cons key rest ih =>
      rw [List.foldlM_cons]
      refine invalidThen (invalidThen (ceilingInvalid ..) fun value => ?_) ih
      cases value <;> exact invalidOk _
  cases overrides with
  | none => exact invalidOk _
  | some overrides => exact all overrides cloneCeilings _

theorem tokenInvalid (token : Option JsString) : Invalid (validateCloneToken token) := by
  rw [validateCloneToken]
  split
  · exact invalidError rfl
  · exact invalidOk ()

end Invalid

theorem settingsInvalid (input : GithubCloneInput) (deps : GithubCloneDependencies) : Invalid (cloneSettings input deps) :=
  invalidThen (slugInvalid ..) fun _ => invalidThen (checkedInvalid _) fun _ => invalidThen (policyInvalid _) fun _ =>
    invalidThen (tokenInvalid _) fun _ => invalidOk _

/- A token is asked for exactly where one was given and git, run with it, ended in a failure of that kind. -/
theorem authExact (run : Runs (cloneGithubRepo input deps) events result) : result = .error authenticationRequired ↔
    (resolveCloneToken deps).isSome ∧ ∃ event ∈ events, AuthFailed (resolveCloneToken deps) event := by
  cases cloneRuns run with
  | refused e no =>
    have code := (settingsInvalid input deps).code e no
    constructor
    · intro same
      cases same
      contradiction
    · rintro ⟨_,event,member,_⟩
      exact absurd member List.not_mem_nil
  | unstarted events few message =>
    constructor
    · intro same
      simp [authenticationRequired] at same
    · rintro ⟨_,event,member,child,answer,rfl,_⟩
      have known : child ∈ started events := List.mem_filterMap.mpr ⟨_,member,rfl⟩
      rw [unstartedNone few] at known
      exact absurd known List.not_mem_nil
  | ran settings set root middle inner within reply =>
    have admitted := settingsAdmitted set
    have exactly := withinAuth (withinRuns admitted within)
    have thrown : settled inner reply = .error authenticationRequired ↔ inner = .error authenticationRequired := by
      cases inner with
      | error e => rfl
      | ok outcome => cases reply <;> simp [settled,authenticationRequired]
    rw [thrown,exactly,admitted.token]
    refine and_congr_right fun _ => ⟨?_,?_⟩
    · rintro ⟨event,member,failed⟩
      exact ⟨event,by simp [member],failed⟩
    · rintro ⟨event,member,failed⟩
      simp only [List.mem_cons,List.mem_append,List.not_mem_nil,or_false] at member
      rcases member with rfl | rfl | there | rfl
      · exact absurd failed (quietAuth trivial)
      · obtain ⟨child,answer,same,_⟩ := failed
        cases same
      · exact ⟨event,there,failed⟩
      · obtain ⟨child,answer,same,_⟩ := failed
        cases same

theorem fetchClean {settings : CloneSettings} {parentEnv : ParentEnv} {root : CloneRoot} {fetch : List CloneEvent}
    (fetched : Fetched settings input parentEnv root fetch) :
    ∃ (child : CloneChild) (answer : GithubCloneResult), ⟨.run child,.ok answer⟩ ∈ fetch ∧ answer.code = 0 := by
  cases fetched with
  | gh result clean => exact ⟨_,result,List.mem_singleton.mpr rfl,clean⟩
  | git tried attempt needed ran result clean => exact ⟨_,result,List.mem_append_right _ (List.mem_singleton.mpr rfl),clean⟩

theorem fileRead {policy : GithubClonePolicy} {tree : CloneDir} {state : CloneScanState} (ok : scanCloneTree policy tree = .ok state)
    {file : GithubCloneScanFile} (member : file ∈ state.files) :
    ∃ content, (file.path,.file file.size content) ∈ cloneEntries tree ∧ file.text = Utf8.decode content ∧
      file.size ≤ policy .maxFileBytes ∧ content.length ≤ policy .maxFileBytes ∧ admitsPath file.path := by
  obtain ⟨order,same,scanned⟩ := scanScanned ok
  obtain ⟨kept,within,filed⟩ := scanned.kept
  rw [filed] at member
  obtain ⟨entry,chosen,rfl⟩ := List.mem_map.mp member
  obtain ⟨there,may⟩ := List.mem_filter.mp (within.subset chosen)
  have there := same.mem_iff.mp there
  obtain ⟨rel,leaf⟩ := entry
  cases leaf with
  | file size content =>
    simp only [readable,Bool.and_eq_true,decide_eq_true_eq] at may
    exact ⟨content,there,rfl,may.1.1.2,may.1.2,may.1.1.1⟩
  | symlink target within => contradiction
  | special => contradiction

theorem metadataListed {policy : GithubClonePolicy} {tree : CloneDir} {state : CloneScanState} (ok : scanCloneTree policy tree = .ok state)
    {path : JsString} (member : path ∈ state.metadataOnly) : ∃ leaf, (path,leaf) ∈ cloneEntries tree ∧ listed (path,leaf) := by
  obtain ⟨order,same,scanned⟩ := scanScanned ok
  obtain ⟨entry,chosen,rfl⟩ := List.mem_map.mp (scanned.paths.subset (List.mem_append_right _ member))
  obtain ⟨there,told⟩ := List.mem_filter.mp chosen
  exact ⟨entry.2,same.mem_iff.mp there,told⟩

/- What a clone serves comes from a child that ended well and from the tree it left: within the default ceilings
whatever overrides there are, and never from .git, from behind a link or past a path that is not let through. -/
theorem cloneServed {outcome : GithubCloneOutcome} (run : Runs (cloneGithubRepo input deps) events (.ok outcome)) :
    ∃ (tree : CloneDir) (workdir : JsString) (child : CloneChild) (answer : GithubCloneResult),
      ⟨.scan workdir,.ok tree⟩ ∈ events ∧ ⟨.run child,.ok answer⟩ ∈ events ∧ answer.code = 0 ∧
      fileCount (cloneEntries tree) ≤ 10000 ∧ repoSize (cloneEntries tree) ≤ 350 * 1024 * 1024 ∧
      outcome.payload.files.length ≤ 200 ∧ outcome.payload.metadataOnly.length ≤ 200 ∧
      (outcome.payload.files.map fun file => byteLength file.text).sum ≤ 64 * 1024 * 1024 ∧
      (∀ file ∈ outcome.payload.files, ∃ content, (file.path,.file file.size content) ∈ cloneEntries tree ∧
        file.text = Utf8.decode content ∧ file.size ≤ 1024 * 1024 ∧ content.length ≤ 1024 * 1024 ∧ admitsPath file.path) ∧
      ∀ path ∈ outcome.payload.metadataOnly, ∃ leaf, (path,leaf) ∈ cloneEntries tree ∧ listed (path,leaf) := by
  obtain ⟨settings,root,middle,reply,set,within,rfl⟩ : ∃ settings root middle reply, cloneSettings input deps = .ok settings ∧
      Runs (cloneWithin settings.policy input deps.parentEnv settings.token root settings.ref) middle (.ok outcome) ∧
      events = ⟨.aborted,false⟩ :: ⟨.acquireRoot,.ok root⟩ :: (middle ++ [⟨.release root.path,reply⟩]) := by
    generalize ended : (Except.ok outcome : Except Thrown GithubCloneOutcome) = result at run
    cases cloneRuns run with
    | refused e no => contradiction
    | unstarted events few message => contradiction
    | ran settings set root middle inner within reply =>
      cases inner with
      | error e => contradiction
      | ok other => cases reply with
        | error message => contradiction
        | ok value =>
          cases Except.ok.inj ended
          exact ⟨settings,root,middle,.ok value,set,within,rfl⟩
  have admitted := settingsAdmitted set
  generalize served : (Except.ok outcome : Except Thrown GithubCloneOutcome) = inner at within
  cases withinRuns admitted within with
  | unprepared prep quiet message => contradiction
  | ghEnded prep gh quiet e ran => contradiction
  | gitEnded prep gh git quiet attempt needed tried e ran => contradiction
  | unscanned prep fetch scan quiet fetched e ran => contradiction
  | served prep fetch scan quiet fetched state ran ghAbsent warnings =>
    cases Except.ok.inj served
    cases ran with
    | scanned tree state ok =>
      obtain ⟨child,answer,ranWell,clean⟩ := fetchClean fetched
      have bounds (key : CloneCeiling) : settings.policy key ≤ policyDefaults key := (policyBounds admitted.policy key).2
      obtain ⟨order,same,scanned⟩ := scanScanned ok
      refine ⟨tree,root.within "work",child,answer,by simp,by simp [ranWell],clean,?_,?_,?_,?_,?_,?_,?_⟩
      · rw [← countSame same,← scanned.scanned]
        exact Nat.le_trans scanned.few (bounds .maxFilesScanned)
      · rw [← sizeSame same,← scanned.repoBytes]
        exact Nat.le_trans scanned.small (bounds .maxRepoBytes)
      · exact Nat.le_trans (List.length_take_le ..) (bounds .maxTreeEntries)
      · exact Nat.le_trans (List.length_take_le ..) (bounds .maxTreeEntries)
      · have part := ((List.take_sublist (settings.policy .maxTreeEntries) state.files).map fun file => byteLength file.text).sum_le_sum
          fun _ _ => Nat.zero_le _
        exact Nat.le_trans part (scanned.texts ▸ Nat.le_trans scanned.budget (bounds .maxTextBytes))
      · intro file member
        obtain ⟨content,there,text,small,short,admits⟩ := fileRead ok (List.mem_of_mem_take member)
        exact ⟨content,there,text,Nat.le_trans small (bounds .maxFileBytes),Nat.le_trans short (bounds .maxFileBytes),admits⟩
      · exact fun path member => metadataListed ok (List.mem_of_mem_take member)

end Whole

/- A clone of one ref with a token, where gh is missing and git leaves the small tree. -/
def smallInput : GithubCloneInput := ⟨js "o",js "r",some (js "main")⟩

def smallDeps : GithubCloneDependencies where
  parentEnv := fun key => if key = js "PATH" then some (js "/bin") else if key = js "GH_TOKEN" then some (js "t") else none
  token := none
  policy := none

def smallAnswers : (op : CloneOp) → CloneReply op
  | .aborted => false
  | .acquireRoot => .ok ⟨js "/tmp/c",rfl⟩
  | .makeDir _ => .ok ()
  | .writeHelper _ _ => .ok ()
  | .run child => if child.command = js "gh" then .error .missing else .ok ⟨[],[],0⟩
  | .scan _ => .ok smallClone
  | .release _ => .ok ()

def smallRun : List CloneEvent × Except Thrown GithubCloneOutcome := (cloneGithubRepo smallInput smallDeps).answered smallAnswers

def smallOutcome : GithubCloneOutcome :=
  ⟨⟨js "o",js "r",js "main",smallScan.files,smallScan.metadataOnly,[usingGitNotice,js "symlink escape rejected: up"]⟩,true,
    [usingGitNotice,js "symlink escape rejected: up"]⟩

theorem smallRuns : Runs (cloneGithubRepo smallInput smallDeps) smallRun.1 smallRun.2 := runsAnswered ..

theorem smallEnds : smallRun.2 = .ok smallOutcome := by decide +kernel

theorem smallReleased :
    (smallRun.1.map Sigma.fst <+: [.aborted,.acquireRoot] ∧ ∃ e, smallRun.2 = .error e) ∨
    ∃ root middle inner reply, smallRun.1 = ⟨.aborted,false⟩ :: ⟨.acquireRoot,.ok root⟩ :: (middle ++ [⟨.release root.path,reply⟩]) ∧
      (∀ event ∈ middle, event.1 ≠ .acquireRoot ∧ ∀ path, event.1 ≠ .release path) ∧ smallRun.2 = settled inner reply ∧
      ∃ settings, cloneSettings smallInput smallDeps = .ok settings ∧
        Runs (cloneWithin settings.policy smallInput smallDeps.parentEnv settings.token root settings.ref) middle inner :=
  rootReleased smallRuns

theorem smallTokenless : ∃ policy root, started smallRun.1 <+:
    [ghChild policy (withoutTokens smallDeps.parentEnv) root (ghArgv smallInput root),
      gitChild policy (withoutTokens smallDeps.parentEnv) root (root.within "askpass.sh") (gitArgv smallInput root)] :=
  childrenTokenless smallRuns

theorem smallOptions : (started smallRun.1).map CloneChild.command = [js "gh",js "git"] ∧ ∀ child ∈ started smallRun.1,
    child.argv.filter optionShaped = fixedOptions child.command ++ if smallInput.ref.isSome then [js "--branch"] else [] :=
  ⟨by decide +kernel,optionsFixed smallRuns⟩

theorem smallAuth : smallRun.2 = .error authenticationRequired ↔
    (resolveCloneToken smallDeps).isSome ∧ ∃ event ∈ smallRun.1, AuthFailed (resolveCloneToken smallDeps) event :=
  authExact smallRuns

theorem smallServed :
    ∃ (tree : CloneDir) (workdir : JsString) (child : CloneChild) (answer : GithubCloneResult),
      ⟨.scan workdir,.ok tree⟩ ∈ smallRun.1 ∧ ⟨.run child,.ok answer⟩ ∈ smallRun.1 ∧ answer.code = 0 ∧
      fileCount (cloneEntries tree) ≤ 10000 ∧ repoSize (cloneEntries tree) ≤ 350 * 1024 * 1024 ∧
      smallOutcome.payload.files.length ≤ 200 ∧ smallOutcome.payload.metadataOnly.length ≤ 200 ∧
      (smallOutcome.payload.files.map fun file => byteLength file.text).sum ≤ 64 * 1024 * 1024 ∧
      (∀ file ∈ smallOutcome.payload.files, ∃ content, (file.path,.file file.size content) ∈ cloneEntries tree ∧
        file.text = Utf8.decode content ∧ file.size ≤ 1024 * 1024 ∧ content.length ≤ 1024 * 1024 ∧ admitsPath file.path) ∧
      ∀ path ∈ smallOutcome.payload.metadataOnly, ∃ leaf, (path,leaf) ∈ cloneEntries tree ∧ listed (path,leaf) :=
  cloneServed (smallEnds ▸ smallRuns)

end Northstar.Github.Clone
