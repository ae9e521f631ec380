import Northstar.Github.CloneHelper
import Northstar.Github.CloneScan
import Northstar.Mapping
import Northstar.Redaction
import Northstar.Tracing

/-! One clone from its request to the page of what it holds (cloneGithubRepo in github-clone.ts): gh first, then git
with the credential helper, in a directory of its own that is removed again. The operations are those on the outside:
what answers them, the size poll and the kill of a child included, is left open. -/
namespace Northstar.Github.Clone
open Program (andThen)

abbrev ParentEnv := JsString → Option JsString

/- Record<string,string> -/
abbrev ChildEnv := List (JsString × JsString)

/- No allowed name is one that the blocked pattern finds. -/
def nativeChildAllowlist : List JsString :=
  [js "PATH",js "HOME",js "USERPROFILE",js "TMPDIR",js "TEMP",js "TMP",js "LANG",js "LC_ALL",js "SystemRoot",js "windir",
    js "COMSPEC",js "PATHEXT"]

def buildNativeChildEnvironment (parentEnv : ParentEnv) : ChildEnv :=
  let out := nativeChildAllowlist.filterMap fun key => (parentEnv key).map (key,·)
  match Mapping.look out (js "PATH"), parentEnv (js "Path") <|> parentEnv (js "path") with
  | none, some alt => Mapping.put out (js "PATH") alt
  | _, _ => out

def assign (env : ChildEnv) (fields : List (JsString × JsString)) : ChildEnv :=
  fields.foldl (fun env field => Mapping.put env field.1 field.2) env

def cloneEnvBase (parentEnv : ParentEnv) : ChildEnv := assign (buildNativeChildEnvironment parentEnv)
  [(js "GIT_TERMINAL_PROMPT",js "0"),(js "GIT_LFS_SKIP_SMUDGE",js "1"),(js "GIT_CONFIG_NOSYSTEM",js "1"),
    (js "GIT_CONFIG_GLOBAL",js "/dev/null"),(js "GIT_CONFIG_SYSTEM",js "/dev/null")]

def childEnvForClone (parentEnv : ParentEnv) (helper : JsString) : ChildEnv :=
  assign (cloneEnvBase parentEnv) [(js "GIT_ASKPASS",helper)]

def childEnvForGh (parentEnv : ParentEnv) (emptyConfigDir : JsString) : ChildEnv :=
  [js "GITHUB_TOKEN",js "GH_TOKEN",js "GIT_ASKPASS"].foldl Mapping.drop
    (assign (cloneEnvBase parentEnv) [(js "HOME",emptyConfigDir),(js "GH_CONFIG_DIR",emptyConfigDir)])

def validateCloneSlugPart (field : String) (value : JsString) (max : Nat) : Except CloneError Unit := do
  refuse (value.length = 0 || value.length > max) (js field ++ js " has invalid length")
  refuse (!value.all ownerUnit) (js field ++ js " uses forbidden characters")
  refuse (doubleDot value || value.head? = some 45) (js field ++ js " is not a valid slug")

def validateCloneSlug (owner repo : JsString) : Except CloneError Unit := do
  validateCloneSlugPart "owner" owner 39
  validateCloneSlugPart "repo" repo 100

structure GithubCloneInput where
  owner : JsString
  repo : JsString
  ref : Option JsString
  deriving DecidableEq

def cloneUrl (owner repo : JsString) : JsString := js "https://github.com/" ++ owner ++ [47] ++ repo ++ js ".git"

def checkedRef : Option JsString → Except CloneError (Option JsString)
  | none => .ok none
  | some ref => (validateGithubCloneRef ref "ref").map some

def branchArgs : Option JsString → List JsString
  | none => []
  | some ref => [js "--branch",ref]

def shapeFlags : List JsString :=
  [js "--no-recurse-submodules",js "--no-replace-objects",js "--no-hardlinks",js "--depth",js "1",js "--single-branch",js "--no-tags"]

def configFlags : List JsString :=
  [js "-c",js "core.fsmonitor=false",js "-c",js "submodule.recurse=false",js "-c",js "filter.lfs.smudge=",js "-c",
    js "filter.lfs.process=",js "-c",js "protocol.file.allow=never"]

def buildGithubGitCloneArgv (input : GithubCloneInput) (destDir credentialHelper emptyHooksDir : JsString) :
    Except CloneError (List JsString) := do
  validateCloneSlug input.owner input.repo
  let ref ← checkedRef input.ref
  pure ([js "clone"] ++ shapeFlags ++ [js "-c",js "credential.helper=!" ++ credentialHelper,js "-c",
    js "core.hooksPath=" ++ emptyHooksDir] ++ configFlags ++ branchArgs ref ++ [cloneUrl input.owner input.repo,destDir])

def configArgs (name : JsString) : Option JsString → List JsString
  | none => []
  | some value => [js "-c",name ++ value]

def buildGithubGhCloneArgv (input : GithubCloneInput) (destDir : JsString) (credentialHelper emptyHooksDir : Option JsString) :
    Except CloneError (List JsString) := do
  validateCloneSlug input.owner input.repo
  let ref ← checkedRef input.ref
  pure ([js "repo",js "clone",input.owner ++ [47] ++ input.repo,destDir,js "--"] ++
    configArgs (js "credential.helper=!") credentialHelper ++ configArgs (js "core.hooksPath=") emptyHooksDir ++
    shapeFlags ++ configFlags ++ branchArgs ref)

/- What mkdtemp answers with. -/
structure CloneRoot where
  path : JsString
  absolute : path.head? = some 47

def CloneRoot.within (root : CloneRoot) (name : String) : JsString := root.path ++ [47] ++ js name

/- A child process as runCloneChild starts it. -/
structure CloneChild where
  command : JsString
  argv : List JsString
  env : ChildEnv
  cwd : JsString
  timeoutMs : Nat
  deriving DecidableEq

structure GithubCloneResult where
  stdout : JsString
  stderr : JsString
  code : Int
  deriving DecidableEq

/- How a child's run is thrown: its binary is missing (ENOENT), the clone grew past its ceiling, or anything else. -/
inductive RunFailure where
  | missing
  | ceiling
  | other (message : JsString)
  deriving DecidableEq

inductive Thrown where
  | clone (error : CloneError)
  | missing
  | other (message : JsString)
  deriving DecidableEq

def RunFailure.thrown (policy : GithubClonePolicy) : RunFailure → Thrown
  | .missing => .missing
  | .ceiling => .clone (cloneCeilingError policy)
  | .other message => .other message

inductive CloneOp where
  | aborted
  | acquireRoot
  | makeDir (path : JsString)
  | writeHelper (path body : JsString)
  | run (child : CloneChild)
  | scan (workdir : JsString)
  | release (root : JsString)

/- The signal's state, what is thrown or answered, and the tree that a scan is answered. -/
def CloneReply : CloneOp → Type
  | .aborted => Bool
  | .acquireRoot => Except JsString CloneRoot
  | .makeDir _ => Except JsString Unit
  | .writeHelper _ _ => Except JsString Unit
  | .run _ => Except RunFailure GithubCloneResult
  | .scan _ => Except JsString CloneDir
  | .release _ => Except JsString Unit

abbrev CloneProgram (α : Type) := Program CloneOp CloneReply (Except Thrown α)

def lowered (text : JsString) : JsString := text.map lowerHex

def authFailurePatterns : List JsString :=
  [js "authentication failed",js "permission denied",js "invalid credentials",js "could not authenticate",
    js "repository not found",js "401",js "403"]

def isGithubCloneAuthFailure (stderr : JsString) (code : Int) : Bool :=
  code ≠ 0 && authFailurePatterns.any fun pattern => decide (pattern <:+: lowered stderr)

def sanitizeCloneOutput (text : JsString) : Option JsString → JsString
  | none => text
  | some token => if token.length = 0 then text else Redaction.hide id (js "[redacted]") text token

def sanitizeCloneResult (result : GithubCloneResult) (token : Option JsString) : GithubCloneResult :=
  { result with stdout := sanitizeCloneOutput result.stdout token, stderr := sanitizeCloneOutput result.stderr token }

structure GithubCloneDependencies where
  parentEnv : ParentEnv
  token : Option JsString
  policy : Option (CloneCeiling → JsValue)

def resolveCloneToken (deps : GithubCloneDependencies) : Option JsString :=
  match deps.token.filter (·.length > 0) with
  | some token => some token
  | none => (deps.parentEnv (js "GITHUB_TOKEN") <|> deps.parentEnv (js "GH_TOKEN")).filter (·.length > 0)

structure GithubClonePayload where
  owner : JsString
  repo : JsString
  ref : JsString
  files : List GithubCloneScanFile
  metadataOnly : List JsString
  warnings : List JsString
  deriving DecidableEq

structure GithubCloneOutcome where
  payload : GithubClonePayload
  ghAbsent : Bool
  warnings : List JsString
  deriving DecidableEq

def usingGitNotice : JsString := js "gh absent, using git for clone"

def makeDir (path : JsString) : CloneProgram Unit := .call (.makeDir path) fun reply => .done (reply.mapError .other)

def writeCredentialHelper (root : CloneRoot) (token : Option JsString) : CloneProgram JsString :=
  let helper := root.within "askpass.sh"
  .call (.writeHelper helper (helperBody token)) fun reply => .done ((reply.mapError .other).map fun _ => helper)

inductive GhAttempt where
  | cloned
  | failed (code : Int)
  | absent
  | unavailable
  deriving DecidableEq

def GhAttempt.warnings : GhAttempt → List JsString
  | .failed code => [js "gh clone failed (code " ++ js (toString code) ++ js "), falling back to git"]
  | .unavailable => [js "gh clone unavailable, falling back to git"]
  | _ => []

def attemptGh (policy : GithubClonePolicy) (token : Option JsString) (child : CloneChild) : CloneProgram GhAttempt :=
  .call (.run child) fun
    | .ok result =>
        let result := sanitizeCloneResult result token
        .done (.ok (if result.code = 0 then .cloned else .failed result.code))
    | .error failure => .call .aborted fun (aborted : Bool) =>
        .done (if aborted = true then .error (failure.thrown policy)
          else .ok (if failure = .missing then .absent else .unavailable))

def upstream (message : JsString) : Thrown := .clone ⟨.upstreamError,js "GitHub clone upstream_error: " ++ message⟩

def authenticationRequired : Thrown :=
  .clone ⟨.authenticationRequired,js "GitHub clone authentication_required: invalid or missing token"⟩

def attemptGit (policy : GithubClonePolicy) (token : Option JsString) (ghAbsent : Bool) (child : CloneChild) : CloneProgram Unit :=
  .call (.run child) fun
    | .ok result =>
        let result := sanitizeCloneResult result token
        .done (if result.code = 0 then .ok ()
          else if token.isSome && isGithubCloneAuthFailure result.stderr result.code then .error authenticationRequired
          else .error (upstream (js "clone failed with code " ++ js (toString result.code))))
    | .error failure => .call .aborted fun (aborted : Bool) =>
        .done (.error (if aborted = true then failure.thrown policy
          else if failure = .missing then
            if ghAbsent then upstream (js "no gh or git binary available") else upstream (js "no git binary available")
          else upstream (js "clone process failed")))

def scanClone (policy : GithubClonePolicy) (workdir : JsString) : CloneProgram CloneScanState :=
  .call (.scan workdir) fun
    | .ok tree => .done ((scanCloneTree policy tree).mapError .clone)
    | .error message => .call .aborted fun (aborted : Bool) =>
        .done (.error (if aborted = true then .other message else upstream (js "scan failed: " ++ message)))

def clonePayload (policy : GithubClonePolicy) (input : GithubCloneInput) (ref : JsString) (warnings : List JsString)
    (scanned : CloneScanState) : GithubClonePayload where
  owner := input.owner
  repo := input.repo
  ref := ref
  files := scanned.files.take (policy .maxTreeEntries)
  metadataOnly := scanned.metadataOnly.take (policy .maxTreeEntries)
  warnings := warnings ++ scanned.warnings ++
    if scanned.files.length > policy .maxTreeEntries ∨ scanned.metadataOnly.length > policy .maxTreeEntries then
      [js "tree entries capped at " ++ js (toString (policy .maxTreeEntries))]
    else []

def ghChild (policy : GithubClonePolicy) (parentEnv : ParentEnv) (root : CloneRoot) (argv : List JsString) : CloneChild :=
  ⟨js "gh",argv,childEnvForGh parentEnv (root.within "gh-home"),root.path,policy .cloneTimeoutMs⟩

def gitChild (policy : GithubClonePolicy) (parentEnv : ParentEnv) (root : CloneRoot) (helper : JsString) (argv : List JsString) : CloneChild :=
  ⟨js "git",argv,childEnvForClone parentEnv helper,root.path,policy .cloneTimeoutMs⟩

section Clone
variable (policy : GithubClonePolicy) (input : GithubCloneInput) (parentEnv : ParentEnv) (token : Option JsString) (root : CloneRoot)

def fallBackToGit (attempt : GhAttempt) (helper : JsString) : CloneProgram (List JsString) :=
  if attempt = .cloned then .done (.ok attempt.warnings)
  else
    (Program.done ((buildGithubGitCloneArgv input (root.within "work") helper (root.within "no-hooks")).mapError .clone)).andThen fun argv =>
    (attemptGit policy token (attempt = .absent) (gitChild policy parentEnv root helper argv)).andThen fun _ =>
    .done (.ok (attempt.warnings ++ if attempt = .absent then [usingGitNotice] else []))

/- What is done within the clone's own directory. -/
def cloneWithin (ref : JsString) : CloneProgram GithubCloneOutcome :=
  (makeDir (root.within "no-hooks")).andThen fun _ =>
  (makeDir (root.within "gh-home")).andThen fun _ =>
  (writeCredentialHelper root token).andThen fun helper =>
  (Program.done ((buildGithubGhCloneArgv input (root.within "work") none (some (root.within "no-hooks"))).mapError .clone)).andThen fun argv =>
  (attemptGh policy token (ghChild policy parentEnv root argv)).andThen fun attempt =>
  (fallBackToGit policy input parentEnv token root attempt helper).andThen fun warnings =>
  (scanClone policy (root.within "work")).andThen fun scanned =>
    let payload := clonePayload policy input ref warnings scanned
    .done (.ok ⟨payload,attempt = .absent,payload.warnings⟩)

end Clone

structure CloneSettings where
  ref : JsString
  policy : GithubClonePolicy
  token : Option JsString

def cloneSettings (input : GithubCloneInput) (deps : GithubCloneDependencies) : Except CloneError CloneSettings := do
  validateCloneSlug input.owner input.repo
  let ref ← checkedRef input.ref
  let policy ← resolveGithubClonePolicy deps.policy
  let token := resolveCloneToken deps
  validateCloneToken token
  pure ⟨ref.getD (js "HEAD"),policy,token⟩

def cloneGithubRepo (input : GithubCloneInput) (deps : GithubCloneDependencies) : CloneProgram GithubCloneOutcome :=
  match cloneSettings input deps with
  | .error e => .done (.error (.clone e))
  | .ok settings => .call .aborted fun (aborted : Bool) =>
      if aborted = true then .done (.error (.other (js "Aborted")))
      else .call .acquireRoot fun
        | .error message => .done (.error (.other message))
        | .ok root => cloneWithin settings.policy input deps.parentEnv settings.token root settings.ref >>= fun
            | .error e => .call (.release root.path) fun _ => .done (.error e)
            | .ok outcome => .call (.release root.path) fun
                | .ok _ => .done (.ok outcome)
                | .error message => .done (.error (.other message))

end Northstar.Github.Clone
