import Northstar.Github.Request
import Northstar.Rooted

/-! What a clone may hold (github-clone-policy.ts): its ceilings, the refs and entry paths it lets through, and
where a symbolic link may lead. -/
namespace Northstar.Github.Clone
open Rooted (Step Stays climb reach)

inductive CloneErrorCode where
  | invalidRequest
  | authenticationRequired
  | upstreamError
  deriving DecidableEq, Repr

/- A SocialError whose backend is github-clone. -/
structure CloneError where
  code : CloneErrorCode
  message : JsString
  deriving DecidableEq, Repr

def clonePolicyError (message : JsString) : CloneError := ⟨.invalidRequest,message⟩

def refuse (met : Bool) (message : JsString) : Except CloneError Unit :=
  if met then .error (clonePolicyError message) else .ok ()

/- keyof GithubClonePolicy -/
inductive CloneCeiling where
  | maxRepoBytes
  | cloneTimeoutMs
  | maxFilesScanned
  | maxTextBytes
  | maxFileBytes
  | maxTreeEntries
  deriving DecidableEq, Repr

def CloneCeiling.name : CloneCeiling → JsString
  | .maxRepoBytes => js "maxRepoBytes"
  | .cloneTimeoutMs => js "cloneTimeoutMs"
  | .maxFilesScanned => js "maxFilesScanned"
  | .maxTextBytes => js "maxTextBytes"
  | .maxFileBytes => js "maxFileBytes"
  | .maxTreeEntries => js "maxTreeEntries"

def cloneCeilings : List CloneCeiling :=
  [.maxRepoBytes,.cloneTimeoutMs,.maxFilesScanned,.maxTextBytes,.maxFileBytes,.maxTreeEntries]

abbrev GithubClonePolicy := CloneCeiling → Nat

def policyDefaults : GithubClonePolicy
  | .maxRepoBytes => 350 * 1024 * 1024
  | .cloneTimeoutMs => 30000
  | .maxFilesScanned => 10000
  | .maxTextBytes => 64 * 1024 * 1024
  | .maxFileBytes => 1024 * 1024
  | .maxTreeEntries => 200

def defaultGithubClonePolicy : GithubClonePolicy := policyDefaults

/- An override of one ceiling, none where it is left out. -/
def admitCeiling (key : CloneCeiling) (raw : JsValue) : Except CloneError (Option Nat) := match raw with
  | .undefined => .ok none
  | .number (.int n) =>
      if n > 2^53 - 1 ∨ n < 1 then .error (unfit key)
      else if n > policyDefaults key then
        .error (clonePolicyError (key.name ++ js " exceeds operator ceiling of " ++ js (toString (policyDefaults key)) ++
          js " (operator-lower-only)"))
      else .ok (some n.toNat)
  | _ => .error (unfit key)
where
  unfit (key : CloneCeiling) : CloneError := clonePolicyError (key.name ++ js " must be a positive integer")

def lowerCeiling (overrides : CloneCeiling → JsValue) (out : GithubClonePolicy) (key : CloneCeiling) :
    Except CloneError GithubClonePolicy := do
  match ← admitCeiling key (overrides key) with
  | none => pure out
  | some value => pure (Function.update out key value)

def resolveGithubClonePolicy : Option (CloneCeiling → JsValue) → Except CloneError GithubClonePolicy
  | none => .ok defaultGithubClonePolicy
  | some overrides => cloneCeilings.foldlM (lowerCeiling overrides) defaultGithubClonePolicy

def cloneRefMax : Nat := 200

/- What the percent pattern finds holds the sign that is looked for before it. -/
def validateGithubCloneRef (ref : JsString) (field : String) : Except CloneError JsString := do
  refuse (ref.length = 0) (js field ++ js " must be a non-empty string")
  refuse (ref.length > cloneRefMax) (tooLong field cloneRefMax)
  refuse (!ref.all refUnit) (js field ++ js " uses forbidden characters")
  refuse (doubleDot ref) (js field ++ js " must not contain '..'")
  refuse (ref.head? = some 45 || ref.head? = some 47) (js field ++ js " must not start with '-' or '/' (option-shape)")
  refuse (ref.getLast? = some 47 || decide ([47,47] <:+: ref)) (js field ++ js " must not have empty segments")
  refuse (decide ([64,123] <:+: ref)) (js field ++ js " must not contain '@\x7b' (reflog)")
  match ([126,94,58] : JsString).find? ref.contains with
  | some char => .error (clonePolicyError (js field ++ js " must not contain '" ++ [char] ++ js "'"))
  | none => do
      refuse (ref.contains 37) (js field ++ js " must not contain percent-encoding")
      pure ref

def clonePathMax : Nat := 200

def validateGithubCloneEntryPath (path : JsString) : Except CloneError JsString := do
  refuse (path.length = 0) (js "entry path must be a non-empty string")
  refuse (path.length > clonePathMax) (tooLong "entry path" clonePathMax)
  refuse (path.head? = some 47) (js "entry path must be relative")
  refuse (path.contains 92) (js "entry path must not contain backslash")
  refuse (path.contains 37) (js "entry path must not contain percent-encoding")
  refuse ((path.splitOn 47).any fun segment => segment.length = 0 || segment = js "..")
    (js "entry path must not contain traversal or empty segments")
  refuse ((path.splitOn 47).any fun segment => segment = js ".git") (js "entry path must not touch .git")
  pure path

def admitsPath (path : JsString) : Bool := match validateGithubCloneEntryPath path with
  | .ok _ => true
  | .error _ => false

/- Where posix.dirname cuts, looking back from a place: at the first slash behind a name, but not at the first unit. -/
def dirnameEnd (path : JsString) : Nat → Bool → Option Nat
  | 0, _ => none
  | i + 1, matchedSlash =>
      if path[i + 1]? = some 47 then if matchedSlash then dirnameEnd path i true else some (i + 1)
      else dirnameEnd path i false

def dirname (path : JsString) : JsString :=
  let hasRoot := path.head? = some 47
  if path.length = 0 then [46]
  else match dirnameEnd path (path.length - 1) true with
    | none => if hasRoot then [47] else [46]
    | some at_ => if hasRoot ∧ at_ = 1 then [47,47] else path.take at_

/- The stack after the segments of a target, none where they climb past its bottom. -/
def walkTarget : List JsString → List JsString → Option (List JsString)
  | stack, [] => some stack
  | stack, segment :: rest =>
      if segment.length = 0 ∨ segment = js "." then walkTarget stack rest
      else if segment = js ".." then if stack.length = 0 then none else walkTarget stack.dropLast rest
      else walkTarget (stack ++ [segment]) rest

def directoryParts (path : JsString) : List JsString :=
  ((dirname path).splitOn 47).filter fun part => decide (part.length > 0 ∧ part ≠ js ".")

def isGithubCloneSymlinkEscape (path target : JsString) : Bool :=
  if target.length = 0 then true
  else if target.head? = some 47 then true
  else match walkTarget (directoryParts path) (target.splitOn 47) with
    | none => true
    | some stack => stack.length = 0 || stack.head? = some (js ".git")

inductive GithubCloneEntryDecision where
  | include_
  | metadataOnly
  | reject
  deriving DecidableEq, Repr

structure GithubCloneEntryInput where
  path : JsString
  size : Option Nat := none
  isSymlink : Bool := false
  symlinkTarget : Option JsString := none
  binary : Bool := false
  special : Bool := false

structure GithubCloneEntryVerdict where
  decision : GithubCloneEntryDecision
  reason : JsString
  deriving DecidableEq, Repr

def classifyGithubCloneEntry (entry : GithubCloneEntryInput) (policy : GithubClonePolicy) : GithubCloneEntryVerdict :=
  if admitsPath entry.path = false then ⟨.reject,js "rejected path"⟩
  else if entry.special then ⟨.reject,js "special file"⟩
  else if entry.isSymlink then
    let target := entry.symlinkTarget.getD []
    if target.length = 0 then ⟨.reject,js "dangling symlink"⟩
    else if isGithubCloneSymlinkEscape entry.path target then ⟨.reject,js "symlink escape"⟩
    else ⟨.metadataOnly,js "symlink"⟩
  else if entry.binary then ⟨.metadataOnly,js "binary"⟩
  else if entry.size.any (· > policy .maxFileBytes) then ⟨.metadataOnly,js "over per-file cap"⟩
  else ⟨.include_,js "text"⟩

end Northstar.Github.Clone
