import Northstar.Research.Contract

/-! Requests to GitHub and their validation (github-request-contract.ts). The warnings a validation
returns are always none; which texts Date.parse reads is a parameter. -/
namespace Northstar.Github
open Research (textOf optionalString)

inductive GithubAction where
  | repo
  | file
  | tree
  | search
  | trending
  | issues
  | pulls
  | releases
  | commits
  | searchRepos
  | workflows
  | runs
  deriving DecidableEq, Repr

def GithubAction.name : GithubAction → JsString
  | .repo => js "repo"
  | .file => js "file"
  | .tree => js "tree"
  | .search => js "search"
  | .trending => js "trending"
  | .issues => js "issues"
  | .pulls => js "pulls"
  | .releases => js "releases"
  | .commits => js "commits"
  | .searchRepos => js "search_repos"
  | .workflows => js "workflows"
  | .runs => js "runs"

def githubActions : List GithubAction :=
  [.repo,.file,.tree,.search,.trending,.issues,.pulls,.releases,.commits,.searchRepos,.workflows,.runs]

def githubActionOf (text : JsString) : Option GithubAction := githubActions.find? fun action => action.name = text

inductive GithubErrorCode where
  | invalidRequest
  | unsupportedAction
  | cursorInvalid
  | cursorMismatch
  deriving DecidableEq, Repr

structure GithubError where
  code : GithubErrorCode
  message : JsString
  backend : Option JsString := none
  deriving DecidableEq, Repr

def refuse (met : Bool) (message : JsString) : Except GithubError Unit :=
  if met then .error ⟨.invalidRequest,message,none⟩ else .ok ()

def echo (value : JsValue) : JsString := (textOf value).take 32

def resolveGithubAction (action : JsString) : Except GithubError GithubAction := match githubActionOf action with
  | none => .error ⟨.unsupportedAction,js "Unsupported github action: " ++ echo (.string action),none⟩
  | some action => .ok action

def asciiLetter (u : UInt16) : Bool := (65 ≤ u && u ≤ 90) || (97 ≤ u && u ≤ 122)
def asciiDigit (u : UInt16) : Bool := 48 ≤ u && u ≤ 57
def ownerUnit (u : UInt16) : Bool := asciiLetter u || asciiDigit u || u = 46 || u = 95 || u = 45
def refUnit (u : UInt16) : Bool := ownerUnit u || u = 47
def hexUnit_ (u : UInt16) : Bool := asciiDigit u || (65 ≤ u && u ≤ 70) || (97 ≤ u && u ≤ 102)

def githubOwnerMax : Nat := 39
def githubRepoMax : Nat := 100
def githubPathMax : Nat := 200
def githubRefMax : Nat := 200
def githubQueryMax : Nat := 256
def githubLabelsMax : Nat := 10
def githubLabelMax : Nat := 50
def githubMaxCursorLength : Nat := 4096

def doubleDot (value : JsString) : Bool := decide ([46,46] <:+: value)

def tooLong (field : String) (max : Nat) : JsString := js field ++ js " exceeds maximum length of " ++ js (toString max)

/- What PERCENT_ENCODING finds holds the sign that is looked for before it. -/
def validateName (field : String) (max : Nat) (value : JsString) : Except GithubError Unit := do
  refuse (value.length = 0) (js field ++ js " must be a non-empty string")
  refuse (value.length > max) (tooLong field max ++ js ": " ++ echo (.string value))
  refuse (!value.all ownerUnit) (js field ++ js " uses forbidden characters: " ++ echo (.string value))
  refuse (doubleDot value) (js field ++ js " must not contain '..': " ++ echo (.string value))
  refuse (value.contains 37) (js field ++ js " must not contain percent-encoding: " ++ echo (.string value))

def validateOwnerRepo (owner repo : JsString) : Except GithubError Unit := do
  validateName "owner" githubOwnerMax owner
  validateName "repo" githubRepoMax repo

def withoutPrefix (start text : JsString) : JsString := if text.take start.length = start then text.drop start.length else text

def withoutSuffix (ending text : JsString) : JsString := (withoutPrefix ending.reverse text.reverse).reverse

def parseRepositorySlug (repository : JsString) : Except GithubError (JsString × JsString) :=
  match (withoutSuffix (js ".git") (withoutPrefix (js "https://github.com/") (trim repository))).splitOn 47 with
  | [owner,repo] => do
      refuse (owner.length = 0 || repo.length = 0) (js "repository must be \"owner/repo\": " ++ echo (.string repository))
      validateOwnerRepo owner repo
      pure (owner,repo)
  | _ => .error ⟨.invalidRequest,js "repository must be \"owner/repo\": " ++ echo (.string repository),none⟩

def validateGithubPath (path : JsString) : Except GithubError JsString := do
  refuse (path.length = 0) (js "path must be a non-empty string")
  refuse (path.length > githubPathMax) (tooLong "path" githubPathMax ++ js ": " ++ echo (.string path))
  refuse (path.contains 92) (js "path must not contain backslash: " ++ echo (.string path))
  refuse (path.contains 37) (js "path must not contain percent-encoding: " ++ echo (.string path))
  refuse (path.head? = some 47 || path.getLast? = some 47) (js "path must not have leading or trailing slash: " ++ echo (.string path))
  refuse ((path.splitOn 47).any fun segment => segment = js ".." || segment.length = 0)
    (js "path must not contain '..' or empty segments: " ++ echo (.string path))
  pure path

def validateGithubRef (ref : JsString) (field : String) : Except GithubError JsString := do
  refuse (ref.length = 0) (js field ++ js " must be a non-empty string")
  refuse (ref.length > githubRefMax) (tooLong field githubRefMax ++ js ": " ++ echo (.string ref))
  refuse (!ref.all refUnit) (js field ++ js " uses forbidden characters: " ++ echo (.string ref))
  refuse (doubleDot ref) (js field ++ js " must not contain '..': " ++ echo (.string ref))
  refuse (ref.head? = some 45) (js field ++ js " must not start with '-': " ++ echo (.string ref))
  match ([126,94,58] : JsString).find? ref.contains with
  | some char => .error ⟨.invalidRequest,js field ++ js " must not contain '" ++ [char] ++ js "': " ++ echo (.string ref),none⟩
  | none => pure ref

/- A number of 10^21 or more has no fraction and is written with a positive exponent. -/
def positiveInteger : JsValue → Option Number
  | .number (.int n) => if 1 ≤ n then some (.int n) else none
  | .number (.float digits) => if (js digits).contains 43 && (js digits).head? ≠ some 45 then some (.float digits) else none
  | _ => none

def validatePositiveInt (raw : JsValue) (field : String) : Except GithubError Number := match positiveInteger raw with
  | some n => .ok n
  | none => .error ⟨.invalidRequest,js field ++ js " must be a positive integer: " ++ echo raw,none⟩

def lowerHex (u : UInt16) : UInt16 := if 65 ≤ u ∧ u ≤ 90 then u + 32 else u

def validateGithubSha (sha : JsString) : Except GithubError JsString := do
  refuse (!(7 ≤ sha.length && sha.length ≤ 40 && sha.all hexUnit_)) (js "sha must be 7-40 hex chars: " ++ echo (.string sha))
  pure (sha.map lowerHex)

def trendingWindows : List JsString := [js "daily",js "weekly",js "monthly"]
def githubIssueStates : List JsString := [js "open",js "closed",js "all"]
def githubRunStatuses : List JsString := [js "completed",js "action_required",js "cancelled",js "failure",js "neutral",js "skipped",
  js "stale",js "success",js "timed_out",js "in_progress",js "queued",js "requested",js "waiting",js "pending"]

def labelText : JsValue → Except GithubError JsString
  | .string entry => do
      refuse ((trim entry).length = 0) (js "labels entries must be non-empty strings")
      refuse (entry.length > githubLabelMax) (js "label exceeds maximum length of " ++ js (toString githubLabelMax) ++ js ": " ++
        echo (.string entry))
      pure entry
  | _ => .error ⟨.invalidRequest,js "labels entries must be non-empty strings",none⟩

def validateLabels : JsValue → Except GithubError (Option (List JsString))
  | .undefined => .ok none
  | .array raw => do
      refuse (raw.length > githubLabelsMax) (js "labels exceeds maximum of " ++ js (toString githubLabelsMax) ++ js " entries")
      let labels ← raw.mapM labelText
      pure (some labels)
  | _ => .error ⟨.invalidRequest,js "labels must be an array of strings",none⟩

def defaultGithubLimit : Int := 20
def defaultGithubTrendingLimit : Int := 10
def githubListLimitMax : Int := 50
def githubTrendingLimitMax : Int := 25

def resolveGithubLimit (raw : JsValue) (field : String) (max fallback : Int) : Except GithubError Int := match raw with
  | .undefined => .ok fallback
  | .null => .ok fallback
  | .number (.int n) => if n < 1 ∨ n > max then .error (outside field max raw) else .ok n
  | _ => .error (outside field max raw)
where
  outside (field : String) (max : Int) (raw : JsValue) : GithubError :=
    ⟨.invalidRequest,js field ++ js " must be an integer in [1, " ++ js (toString max) ++ js "]: " ++ echo raw,none⟩

def limitCapFor (action : GithubAction) : Int := if action = .trending then githubTrendingLimitMax else githubListLimitMax

structure GithubRequestInput where
  action : JsString
  owner : JsValue := .undefined
  repo : JsValue := .undefined
  repository : JsValue := .undefined
  path : JsValue := .undefined
  paths : JsValue := .undefined
  branch : JsValue := .undefined
  ref : JsValue := .undefined
  query : JsValue := .undefined
  language : JsValue := .undefined
  limit : JsValue := .undefined
  perPage : JsValue := .undefined
  number : JsValue := .undefined
  sha : JsValue := .undefined
  since : JsValue := .undefined
  state : JsValue := .undefined
  labels : JsValue := .undefined
  tag : JsValue := .undefined
  latest : JsValue := .undefined
  files : JsValue := .undefined
  author : JsValue := .undefined
  recursive : JsValue := .undefined
  includeReadme : JsValue := .undefined
  jobs : JsValue := .undefined
  workflow : JsValue := .undefined
  status : JsValue := .undefined
  cursor : JsValue := .undefined

structure GithubRequest where
  action : GithubAction
  owner : Option JsString
  repo : Option JsString
  path : Option JsString
  paths : Option (List JsString)
  ref : Option JsString
  query : Option JsString
  language : Option JsString
  limit : Int
  number : Option Number
  sha : Option JsString
  since : Option JsString
  state : Option JsString
  labels : Option (List JsString)
  tag : Option JsString
  latest : Option Bool
  files : Option Bool
  author : Option JsString
  recursive : Option Bool
  includeReadme : Option Bool
  jobs : Option Bool
  workflow : Option JsString
  status : Option JsString
  cursor : Option JsString
  deriving DecidableEq, Repr

def githubPaginationSupported (action : GithubAction) : Bool :=
  action ∈ ([.issues,.pulls,.releases,.commits,.search,.searchRepos,.workflows,.runs] : List GithubAction)

def cleanField (value : JsValue) : Option JsString := optionalString value

def isString : JsValue → Bool
  | .string _ => true
  | _ => false

def present : JsValue → Bool
  | .undefined => false
  | _ => true

def requireOptionalString (raw : JsValue) (field : String) : Except GithubError Unit :=
  refuse (present raw && !isString raw) (js field ++ js " must be a string when provided")

/- A field that may be left out but not left blank. -/
def cleanedField (raw : JsValue) (field : String) : Except GithubError (Option JsString) := do
  refuse (isString raw && (cleanField raw).isNone) (js field ++ js " must be a non-empty string when provided")
  pure (cleanField raw)

def needsRepo (action : GithubAction) : Bool := action ≠ .trending && action ≠ .searchRepos && action ≠ .search

def selectedSlug (input : GithubRequestInput) (owner repo : Option JsString) :
    Except GithubError (Option JsString × Option JsString) :=
  if owner.isNone || repo.isNone then match cleanField input.repository with
    | some slug => do
        let parsed ← parseRepositorySlug slug
        pure (owner.or (some parsed.1),repo.or (some parsed.2))
    | none => do
        refuse (isString input.repository) (js "repository must be a non-empty string when provided")
        pure (owner,repo)
  else pure (owner,repo)

def selectedRepo (action : GithubAction) (input : GithubRequestInput) : Except GithubError (Option JsString × Option JsString) := do
  refuse ((cleanField input.repository).isSome && ((cleanField input.owner).isSome || (cleanField input.repo).isSome))
    (js "repository is mutually exclusive with owner/repo: use one form")
  let pair ← selectedSlug input (cleanField input.owner) (cleanField input.repo)
  match pair with
  | (some owner,some repo) => do
      validateOwnerRepo owner repo
      pure pair
  | _ => do
      refuse (needsRepo action || action = .search && (pair.1.isSome || pair.2.isSome))
        (js "github " ++ action.name ++ js " requires selector: owner, repo")
      pure pair

def validatePathsEntry : JsValue → Except GithubError JsString
  | .string entry => do
      refuse ((trim entry).length = 0) (js "paths entries must be non-empty strings")
      validateGithubPath (entry.dropWhile (· = 47))
  | _ => .error ⟨.invalidRequest,js "paths entries must be non-empty strings",none⟩

def selectedPaths (action : GithubAction) (input : GithubRequestInput) : Except GithubError (Option (List JsString)) :=
  if present input.paths then do
    refuse (action ≠ .file) (js "paths is only supported for github file")
    refuse (cleanField input.path).isSome (js "path and paths are mutually exclusive")
    match input.paths with
    | .array entries => do
        refuse (entries.length = 0) (js "paths must be a non-empty array of strings")
        refuse (entries.length > 10) (js "paths exceeds maximum of 10 entries")
        let paths ← entries.mapM validatePathsEntry
        pure (some paths)
    | _ => .error ⟨.invalidRequest,js "paths must be a non-empty array of strings",none⟩
  else pure none

def validated (check : JsString → Except GithubError JsString) : Option JsString → Except GithubError (Option JsString)
  | none => .ok none
  | some value => do
      let checked ← check value
      pure (some checked)

def selectedPath (action : GithubAction) (input : GithubRequestInput) : Except GithubError (Option JsString) := do
  refuse ((action = .file || action = .commits) && isString input.path && (cleanField input.path).isNone)
    (js "path must be a non-empty string when provided")
  validated validateGithubPath (cleanField input.path)

def selectedRef (input : GithubRequestInput) : Except GithubError (Option JsString) := do
  let branch ← validated (validateGithubRef · "branch") (cleanField input.branch)
  let ref ← validated (validateGithubRef · "ref") (cleanField input.ref)
  refuse (branch.isSome && ref.isSome && branch ≠ ref) (js "branch and ref must agree when both are provided")
  pure (branch.or ref)

def selectedQuery (action : GithubAction) (input : GithubRequestInput) : Except GithubError (Option JsString) := do
  let query ← cleanedField input.query "query"
  refuse (query.any (·.length > githubQueryMax)) (tooLong "query" githubQueryMax ++ js ": " ++ echo (.string (query.getD [])))
  refuse ((action = .search || action = .searchRepos) && query.isNone) (js "github " ++ action.name ++ js " requires selector: query")
  pure query

def selectedLanguage (input : GithubRequestInput) : Except GithubError (Option JsString) := do
  let language ← cleanedField input.language "language"
  refuse (language.any (·.length > githubLabelMax)) (tooLong "language" githubLabelMax ++ js ": " ++ echo (.string (language.getD [])))
  pure language

def selectedNumber (input : GithubRequestInput) : Except GithubError (Option Number) :=
  if present input.number then do
    let number ← validatePositiveInt input.number "number"
    pure (some number)
  else pure none

def selectedSha (input : GithubRequestInput) : Except GithubError (Option JsString) := do
  let sha ← cleanedField input.sha "sha"
  validated validateGithubSha sha

def validateSince (dateParses : JsString → Bool) (action : GithubAction) (since : JsString) : Except GithubError JsString :=
  if action = .trending then do
    refuse (!trendingWindows.contains since) (js "trending since must be daily, weekly, or monthly: " ++ echo (.string since))
    pure since
  else do
    refuse (!dateParses since) (js "since must be an ISO date string: " ++ echo (.string since))
    pure since

def selectedSince (dateParses : JsString → Bool) (action : GithubAction) (input : GithubRequestInput) :
    Except GithubError (Option JsString) := do
  let since ← cleanedField input.since "since"
  validated (validateSince dateParses action) since

def selectedState (action : GithubAction) (input : GithubRequestInput) : Except GithubError (Option JsString) := do
  let state ← cleanedField input.state "state"
  refuse (state.any fun state => (action = .issues || action = .pulls) && !githubIssueStates.contains state)
    (js "state must be open, closed, or all: " ++ echo (.string (state.getD [])))
  pure state

def selectedLabels (action : GithubAction) (input : GithubRequestInput) : Except GithubError (Option (List JsString)) := do
  let labels ← validateLabels input.labels
  refuse (action = .pulls && labels.isSome) (js "labels is only supported for github issues")
  pure labels

def selectedTag (input : GithubRequestInput) : Except GithubError (Option JsString) := do
  let tag ← cleanedField input.tag "tag"
  validated (validateGithubRef · "tag") tag

def validateBooleanFlag (raw : JsValue) (flag : String) : Except GithubError (Option Bool) := match raw with
  | .undefined => .ok none
  | .bool value => .ok (some value)
  | _ => .error ⟨.invalidRequest,js flag ++ js " must be a boolean: " ++ echo raw,none⟩

/- A flag of one action. -/
def flagFor (action only : GithubAction) (raw : JsValue) (flag : String) : Except GithubError (Option Bool) := do
  let value ← validateBooleanFlag raw flag
  refuse (value.isSome && action ≠ only) (js flag ++ js " is only supported for github " ++ only.name)
  pure value

def selectedFiles (action : GithubAction) (input : GithubRequestInput) (number : Option Number) :
    Except GithubError (Option Bool) := do
  let files ← flagFor action .pulls input.files "files"
  refuse (action = .pulls && files = some true && number.isNone) (js "files requires selector: number")
  pure files

def selectedAuthor (action : GithubAction) (input : GithubRequestInput) : Except GithubError (Option JsString) := do
  let author ← cleanedField input.author "author"
  refuse (author.isSome && action ≠ .commits && action ≠ .runs) (js "author is only supported for github commits and runs")
  pure author

def selectedWorkflow (action : GithubAction) (input : GithubRequestInput) : Except GithubError (Option JsString) := do
  let raw ← cleanedField input.workflow "workflow"
  let workflow ← validated validateGithubPath raw
  refuse (raw.isSome && action ≠ .workflows && action ≠ .runs)
    (js "workflow is only supported for github workflows and runs: " ++ echo (.string (raw.getD [])))
  pure workflow

def selectedStatus (action : GithubAction) (input : GithubRequestInput) : Except GithubError (Option JsString) := do
  let status ← cleanedField input.status "status"
  refuse (status.isSome && action ≠ .runs) (js "status is only supported for github runs: " ++ echo (.string (status.getD [])))
  refuse (status.any fun status => !githubRunStatuses.contains status)
    (js "status must be one of " ++ (js ", ").intercalate githubRunStatuses ++ js ": " ++ echo (.string (status.getD [])))
  pure status

/- `perPage` wins; a null one gives way to `limit` under its own name. -/
def selectedLimit (action : GithubAction) (input : GithubRequestInput) : Except GithubError Int :=
  resolveGithubLimit (Research.coalesce input.perPage input.limit) (if present input.perPage then "perPage" else "limit")
    (limitCapFor action) (if action = .trending then defaultGithubTrendingLimit else defaultGithubLimit)

def selectedCursor (action : GithubAction) (input : GithubRequestInput) : Except GithubError (Option JsString) := do
  let cursor ← cleanedField input.cursor "cursor"
  if cursor.isSome && !githubPaginationSupported action then
    .error ⟨.cursorInvalid,js "cursors are not supported for github " ++ action.name,none⟩
  else if cursor.any (·.length > githubMaxCursorLength) then .error ⟨.cursorInvalid,tooLong "cursor" githubMaxCursorLength,none⟩
  else pure cursor

def requireStrings (input : GithubRequestInput) : Except GithubError Unit := do
  requireOptionalString input.owner "owner"
  requireOptionalString input.repo "repo"
  requireOptionalString input.repository "repository"
  requireOptionalString input.path "path"
  requireOptionalString input.branch "branch"
  requireOptionalString input.ref "ref"
  requireOptionalString input.query "query"
  requireOptionalString input.language "language"
  requireOptionalString input.sha "sha"
  requireOptionalString input.since "since"
  requireOptionalString input.state "state"
  requireOptionalString input.tag "tag"
  requireOptionalString input.author "author"
  requireOptionalString input.workflow "workflow"
  requireOptionalString input.status "status"
  requireOptionalString input.cursor "cursor"

def validateGithubRequest (dateParses : JsString → Bool) (input : GithubRequestInput) : Except GithubError GithubRequest := do
  let action ← resolveGithubAction input.action
  requireStrings input
  let pair ← selectedRepo action input
  let path ← selectedPath action input
  let paths ← selectedPaths action input
  let ref ← selectedRef input
  let query ← selectedQuery action input
  let language ← selectedLanguage input
  let number ← selectedNumber input
  let sha ← selectedSha input
  let since ← selectedSince dateParses action input
  let state ← selectedState action input
  let labels ← selectedLabels action input
  let tag ← selectedTag input
  let latest ← flagFor action .releases input.latest "latest"
  let files ← selectedFiles action input number
  let recursive ← flagFor action .tree input.recursive "recursive"
  let includeReadme ← flagFor action .repo input.includeReadme "includeReadme"
  let jobs ← flagFor action .runs input.jobs "jobs"
  let author ← selectedAuthor action input
  let workflow ← selectedWorkflow action input
  let status ← selectedStatus action input
  let limit ← selectedLimit action input
  let cursor ← selectedCursor action input
  refuse (action = .file && path.isNone && paths.isNone) (js "github file requires selector: path or paths")
  pure ⟨action,pair.1,pair.2,path,paths,ref,query,language,limit,number,sha,since,state,labels,tag,latest,files,author,recursive,
    includeReadme,jobs,workflow,status,cursor⟩

theorem andThen {α β : Type} {first : Except GithubError α} {next : α → Except GithubError β} {out : β}
    (ok : (first >>= next) = .ok out) : ∃ value, first = .ok value ∧ next value = .ok out := by
  cases first with
  | error error => contradiction
  | ok value => exact ⟨value,rfl,ok⟩

theorem refuseThen {α : Type} {met : Bool} {message : JsString} {next : Unit → Except GithubError α} {out : α}
    (ok : (refuse met message >>= next) = .ok out) : met = false ∧ next () = .ok out := by
  cases met with
  | true => contradiction
  | false => exact ⟨rfl,ok⟩

/- A selector that is there has something in it. -/
def Filled (value : Option JsString) : Prop := value ≠ some []

theorem cleanFilled (value : JsValue) : Filled (cleanField value) := by
  cases value with
  | string text =>
    change (if Research.nonEmptyString text then some (trim text) else none) ≠ some []
    intro none_
    split at none_
    · rename_i some_
      unfold Research.nonEmptyString at some_
      rw [Option.some.inj none_] at some_
      contradiction
    · contradiction
  | undefined => exact nofun
  | null => exact nofun
  | bool b => exact nofun
  | number n => exact nofun
  | array list => exact nofun
  | object list => exact nofun

theorem cleanedFilled {raw : JsValue} {name : String} {value : Option JsString} (ok : cleanedField raw name = .ok value) :
    Filled value := by
  obtain ⟨-,ok⟩ := refuseThen ok
  cases ok
  exact cleanFilled raw

theorem validatedFilled {check : JsString → Except GithubError JsString} (keeps : ∀ text out, check text = .ok out → text ≠ [] → out ≠ [])
    {raw value : Option JsString} (filled : Filled raw) (ok : validated check raw = .ok value) : Filled value := by
  cases raw with
  | none => cases ok; exact nofun
  | some text =>
    obtain ⟨checked,passed,ok⟩ := andThen ok
    cases ok
    exact fun none_ => keeps text checked passed (fun empty => filled (congrArg some empty)) (Option.some.inj none_)

theorem pathKept {path out : JsString} (ok : validateGithubPath path = .ok out) : out = path := by
  obtain ⟨-,ok⟩ := refuseThen ok
  obtain ⟨-,ok⟩ := refuseThen ok
  obtain ⟨-,ok⟩ := refuseThen ok
  obtain ⟨-,ok⟩ := refuseThen ok
  obtain ⟨-,ok⟩ := refuseThen ok
  obtain ⟨-,ok⟩ := refuseThen ok
  exact (Except.ok.inj ok).symm

theorem refKept {ref out : JsString} {name : String} (ok : validateGithubRef ref name = .ok out) : out = ref := by
  obtain ⟨-,ok⟩ := refuseThen ok
  obtain ⟨-,ok⟩ := refuseThen ok
  obtain ⟨-,ok⟩ := refuseThen ok
  obtain ⟨-,ok⟩ := refuseThen ok
  obtain ⟨-,ok⟩ := refuseThen ok
  split at ok
  · contradiction
  · exact (Except.ok.inj ok).symm

theorem shaFilled {sha out : JsString} (ok : validateGithubSha sha = .ok out) (some_ : sha ≠ []) : out ≠ [] := by
  obtain ⟨-,ok⟩ := refuseThen ok
  cases ok
  exact fun none_ => some_ (List.map_eq_nil_iff.mp none_)

theorem sinceKept {dateParses : JsString → Bool} {action : GithubAction} {since out : JsString}
    (ok : validateSince dateParses action since = .ok out) : out = since := by
  unfold validateSince at ok
  split at ok
  · obtain ⟨-,ok⟩ := refuseThen ok
    exact (Except.ok.inj ok).symm
  · obtain ⟨-,ok⟩ := refuseThen ok
    exact (Except.ok.inj ok).symm

theorem nameFilled {name : String} {max : Nat} {value : JsString} {u : Unit} (ok : validateName name max value = .ok u) : value ≠ [] := by
  obtain ⟨some_,-⟩ := refuseThen ok
  rintro rfl
  contradiction

theorem ownerRepoFilled {owner repo : JsString} {u : Unit} (ok : validateOwnerRepo owner repo = .ok u) : owner ≠ [] ∧ repo ≠ [] := by
  obtain ⟨_,first,second⟩ := andThen ok
  exact ⟨nameFilled first,nameFilled second⟩

theorem slugFilled {slug : JsString} {parsed : JsString × JsString} (ok : parseRepositorySlug slug = .ok parsed) :
    parsed.1 ≠ [] ∧ parsed.2 ≠ [] := by
  unfold parseRepositorySlug at ok
  split at ok
  · obtain ⟨-,ok⟩ := refuseThen ok
    obtain ⟨_,names,ok⟩ := andThen ok
    cases ok
    exact ownerRepoFilled names
  · contradiction

theorem orFilled {a b : Option JsString} (first : Filled a) (second : Filled b) : Filled (a.or b) := by
  cases a with
  | none => exact second
  | some text => exact first

theorem repoFilled {action : GithubAction} {input : GithubRequestInput} {pair : Option JsString × Option JsString}
    (ok : selectedRepo action input = .ok pair) : Filled pair.1 ∧ Filled pair.2 := by
  obtain ⟨-,ok⟩ := refuseThen ok
  obtain ⟨chosen,slug,ok⟩ := andThen ok
  have owner := cleanFilled input.owner
  have repo := cleanFilled input.repo
  have filled : Filled chosen.1 ∧ Filled chosen.2 := by
    unfold selectedSlug at slug
    split at slug
    · split at slug
      · obtain ⟨parsed,read,slug⟩ := andThen slug
        obtain ⟨first,second⟩ := slugFilled read
        cases slug
        exact ⟨orFilled owner fun none_ => first (Option.some.inj none_),orFilled repo fun none_ => second (Option.some.inj none_)⟩
      · obtain ⟨-,slug⟩ := refuseThen slug
        cases slug
        exact ⟨owner,repo⟩
    · cases slug
      exact ⟨owner,repo⟩
  split at ok
  · obtain ⟨_,_,ok⟩ := andThen ok
    cases ok
    exact filled
  · obtain ⟨-,ok⟩ := refuseThen ok
    cases ok
    exact filled

/- A number that an accepted request carries. -/
def Numeric : Number → Prop
  | .int _ => True
  | .float digits => 43 ∈ js digits

theorem positiveNumeric {raw : JsValue} {n : Number} (read : positiveInteger raw = some n) : Numeric n := by
  unfold positiveInteger at read
  split at read
  · split at read
    · cases read; trivial
    · contradiction
  · split at read
    · rename_i shape
      cases read
      exact List.contains_iff_mem.mp (Bool.and_eq_true_iff.mp shape).1
    · contradiction
  · contradiction

/- What holds of the selectors of every accepted request. -/
structure Accepted (request : GithubRequest) : Prop where
  owner : Filled request.owner
  repo : Filled request.repo
  path : Filled request.path
  ref : Filled request.ref
  query : Filled request.query
  language : Filled request.language
  number : ∀ n, request.number = some n → Numeric n
  sha : Filled request.sha
  since : Filled request.since
  state : Filled request.state
  tag : Filled request.tag
  author : Filled request.author
  workflow : Filled request.workflow
  status : Filled request.status

theorem acceptedRequest {dateParses : JsString → Bool} {input : GithubRequestInput} {request : GithubRequest}
    (ok : validateGithubRequest dateParses input = .ok request) : Accepted request := by
  obtain ⟨action,-,ok⟩ := andThen ok
  obtain ⟨_,-,ok⟩ := andThen ok
  obtain ⟨pair,repo,ok⟩ := andThen ok
  obtain ⟨path,path_,ok⟩ := andThen ok
  obtain ⟨paths,-,ok⟩ := andThen ok
  obtain ⟨ref,ref_,ok⟩ := andThen ok
  obtain ⟨query,query_,ok⟩ := andThen ok
  obtain ⟨language,language_,ok⟩ := andThen ok
  obtain ⟨number,number_,ok⟩ := andThen ok
  obtain ⟨sha,sha_,ok⟩ := andThen ok
  obtain ⟨since,since_,ok⟩ := andThen ok
  obtain ⟨state,state_,ok⟩ := andThen ok
  obtain ⟨labels,-,ok⟩ := andThen ok
  obtain ⟨tag,tag_,ok⟩ := andThen ok
  obtain ⟨latest,-,ok⟩ := andThen ok
  obtain ⟨files,-,ok⟩ := andThen ok
  obtain ⟨recursive,-,ok⟩ := andThen ok
  obtain ⟨includeReadme,-,ok⟩ := andThen ok
  obtain ⟨jobs,-,ok⟩ := andThen ok
  obtain ⟨author,author_,ok⟩ := andThen ok
  obtain ⟨workflow,workflow_,ok⟩ := andThen ok
  obtain ⟨status,status_,ok⟩ := andThen ok
  obtain ⟨limit,-,ok⟩ := andThen ok
  obtain ⟨cursor,-,ok⟩ := andThen ok
  obtain ⟨-,ok⟩ := refuseThen ok
  cases ok
  have pair_ := repoFilled repo
  have keeps {check : JsString → Except GithubError JsString} (same : ∀ text out, check text = .ok out → out = text) :
      ∀ text out, check text = .ok out → text ≠ [] → out ≠ [] := fun text out passed some_ => same text out passed ▸ some_
  refine {
    owner := pair_.1
    repo := pair_.2
    path := ?_
    ref := ?_
    query := ?_
    language := ?_
    number := ?_
    sha := ?_
    since := ?_
    state := ?_
    tag := ?_
    author := ?_
    workflow := ?_
    status := ?_ }
  · obtain ⟨-,checked⟩ := refuseThen path_
    exact validatedFilled (keeps fun _ _ => pathKept) (cleanFilled _) checked
  · obtain ⟨branch,first,ref_⟩ := andThen ref_
    obtain ⟨own,second,ref_⟩ := andThen ref_
    obtain ⟨-,ref_⟩ := refuseThen ref_
    cases ref_
    exact orFilled (validatedFilled (keeps fun _ _ => refKept) (cleanFilled _) first)
      (validatedFilled (keeps fun _ _ => refKept) (cleanFilled _) second)
  · obtain ⟨query,cleaned,query_⟩ := andThen query_
    obtain ⟨-,query_⟩ := refuseThen query_
    obtain ⟨-,query_⟩ := refuseThen query_
    cases query_
    exact cleanedFilled cleaned
  · obtain ⟨language,cleaned,language_⟩ := andThen language_
    obtain ⟨-,language_⟩ := refuseThen language_
    cases language_
    exact cleanedFilled cleaned
  · intro n carried
    unfold selectedNumber at number_
    split at number_
    · obtain ⟨read,checked,number_⟩ := andThen number_
      cases number_
      cases carried
      unfold validatePositiveInt at checked
      split at checked
      · rename_i positive
        cases checked
        exact positiveNumeric positive
      · contradiction
    · cases number_
      contradiction
  · obtain ⟨raw,cleaned,checked⟩ := andThen sha_
    exact validatedFilled (fun _ _ => shaFilled) (cleanedFilled cleaned) checked
  · obtain ⟨raw,cleaned,checked⟩ := andThen since_
    exact validatedFilled (keeps fun _ _ => sinceKept) (cleanedFilled cleaned) checked
  · obtain ⟨state,cleaned,state_⟩ := andThen state_
    obtain ⟨-,state_⟩ := refuseThen state_
    cases state_
    exact cleanedFilled cleaned
  · obtain ⟨raw,cleaned,checked⟩ := andThen tag_
    exact validatedFilled (keeps fun _ _ => refKept) (cleanedFilled cleaned) checked
  · obtain ⟨author,cleaned,author_⟩ := andThen author_
    obtain ⟨-,author_⟩ := refuseThen author_
    cases author_
    exact cleanedFilled cleaned
  · obtain ⟨raw,cleaned,workflow_⟩ := andThen workflow_
    obtain ⟨workflow,checked,workflow_⟩ := andThen workflow_
    obtain ⟨-,workflow_⟩ := refuseThen workflow_
    cases workflow_
    exact validatedFilled (keeps fun _ _ => pathKept) (cleanedFilled cleaned) checked
  · obtain ⟨status,cleaned,status_⟩ := andThen status_
    obtain ⟨-,status_⟩ := refuseThen status_
    obtain ⟨-,status_⟩ := refuseThen status_
    cases status_
    exact cleanedFilled cleaned

end Northstar.Github
