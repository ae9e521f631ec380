import Northstar.Github.Request
import Northstar.Research.Cursors

/-! The cursors of GitHub lists and what binds them to a request (github-contract.ts,
github-domain.ts). -/
namespace Northstar.Github
open Research (CursorState ScalarState)
open Utf8 (scrub wellFormed)

def backend : JsString := js "github-api"

structure GithubCursorFingerprintInput where
  action : GithubAction
  owner : Option JsString := none
  repo : Option JsString := none
  query : Option JsString := none
  language : Option JsString := none
  limit : Int
  workflow : Option JsString := none
  ref : Option JsString := none
  status : Option JsString := none
  state : Option JsString := none
  labels : Option (List JsString) := none
  number : Option Number := none
  author : Option JsString := none
  jobs : Option Bool := none
  files : Option Bool := none
  tag : Option JsString := none
  latest : Option Bool := none
  sha : Option JsString := none
  path : Option JsString := none
  since : Option JsString := none
  branch : Option JsString := none

def flagText (flag : Option Bool) (text : String) : JsString := if flag = some true then js text else []

def labelsText (labels : Option (List JsString)) : JsString :=
  (labels.map fun labels => stringify (.array (labels.map .string))).getD []

def fingerprintParts (input : GithubCursorFingerprintInput) : List JsString :=
  [input.action.name,input.owner.getD [],input.repo.getD [],input.query.getD [],input.language.getD [],js (toString input.limit),
    input.workflow.getD [],input.ref.getD [],input.status.getD [],input.state.getD [],labelsText input.labels,
    (input.number.map Number.script).getD [],input.author.getD [],flagText input.jobs "jobs",flagText input.files "files",
    input.tag.getD [],flagText input.latest "latest",input.sha.getD [],input.path.getD [],input.since.getD [],input.branch.getD []]

def fingerprintBytes (input : GithubCursorFingerprintInput) : Bytes := utf8 ([124].intercalate (fingerprintParts input))

def githubCursorFingerprint (sha256hex : Bytes → JsString) (input : GithubCursorFingerprintInput) : JsString :=
  sha256hex (fingerprintBytes input)

/- Of the selectors beside a request only these two are read. -/
structure GithubCursorSelectors where
  author : Option JsString
  jobs : Option Bool

def ifTrue (flag : Option Bool) : Option Bool := if flag = some true then some true else none

def fingerprintFor (request : GithubRequest) (extra : GithubCursorSelectors) : GithubCursorFingerprintInput where
  action := request.action
  owner := request.owner
  repo := request.repo
  query := request.query
  language := request.language
  limit := request.limit
  workflow := request.workflow
  ref := request.ref
  status := request.status
  state := request.state
  labels := request.labels
  number := request.number
  author := extra.author.or request.author
  jobs := ifTrue extra.jobs
  files := ifTrue request.files
  tag := request.tag
  latest := ifTrue request.latest
  sha := request.sha
  path := request.path
  since := request.since

structure GithubCursorInput where
  action : GithubAction
  backend : JsString
  fingerprint : JsString
  state : CursorState

structure GithubCursorExpectation where
  action : GithubAction
  backend : JsString
  fingerprint : JsString

structure DecodedGithubCursor where
  action : GithubAction
  backend : JsString
  state : CursorState

def forbiddenGithubCursorSubstrings : List JsString := [js "token",js "cookie",js "authorization",js "bearer",js "password",js "secret",
  js "api_key",js "apikey",js "http://",js "https://"]

def cursorInvalid (message : JsString) : GithubError := ⟨.cursorInvalid,message,none⟩

section
variable (toLowerCase : JsString → JsString)

def haystack (field : JsString × JsValue) : JsString :=
  toLowerCase (field.1 ++ [32] ++ (match field.2 with | .string value => value | _ => []))

def unsafeField (field : JsString × JsValue) : Option JsString :=
  if field.1.length = 0 then some (js "cursor state keys must be non-empty")
  else if forbiddenGithubCursorSubstrings.any fun forbidden => decide (forbidden <:+: haystack toLowerCase field) then
    some (js "cursor state contains forbidden material in \"" ++ field.1 ++ js "\"")
  else none

def assertGithubCursorSafe (state : CursorState) : Except GithubError Unit := match state.findSome? (unsafeField toLowerCase) with
  | some message => .error (cursorInvalid message)
  | none => .ok ()

def githubPayload (input : GithubCursorInput) : JsValue :=
  .object [(js "v",.number (.int 1)),(js "action",.string input.action.name),(js "backend",.string input.backend),
    (js "fingerprint",.string input.fingerprint),(js "state",.object input.state)]

def exceeds : JsString := js "cursor exceeds maximum length of " ++ js (toString githubMaxCursorLength)

def encodeGithubCursor (input : GithubCursorInput) : Except GithubError JsString := do
  assertGithubCursorSafe toLowerCase input.state
  if (base64url (utf8 (stringify (githubPayload input)))).length > githubMaxCursorLength then .error (cursorInvalid exceeds)
  else pure (base64url (utf8 (stringify (githubPayload input))))

def cursorScalar : JsValue → Bool
  | .string _ => true
  | .number _ => true
  | .bool _ => true
  | _ => false

def stateOf : JsValue → Option CursorState
  | .object state => if state.all fun field => cursorScalar field.2 then some state else none
  | _ => none

def decodeGithubCursor (parse : Bytes → Option JsValue) (cursor : JsString) (expected : GithubCursorExpectation) :
    Except GithubError DecodedGithubCursor :=
  if cursor.length = 0 then .error (cursorInvalid (js "cursor is required"))
  else if cursor.length > githubMaxCursorLength then .error (cursorInvalid exceeds)
  else match parse (fromBase64url cursor) with
    | none => .error (cursorInvalid (js "cursor is not a valid opaque token"))
    | some record =>
        if !Research.isRecord record then .error (cursorInvalid (js "cursor payload is invalid"))
        else if !(record.get "v" matches .number (.int 1)) then .error (cursorInvalid (js "cursor payload version must be 1"))
        else match (record.get "action").asString.bind githubActionOf with
          | none => .error (cursorInvalid (js "cursor action is invalid"))
          | some action => match record.get "backend",record.get "fingerprint" with
            | .string backend,.string fingerprint =>
                if backend.length = 0 || fingerprint.length = 0 then .error (cursorInvalid (js "cursor backend/fingerprint is invalid"))
                else match stateOf (record.get "state") with
                  | none => .error (cursorInvalid (js "cursor state contains non-scalar values"))
                  | some state => do
                      assertGithubCursorSafe toLowerCase state
                      if action ≠ expected.action ∨ backend ≠ expected.backend ∨ fingerprint ≠ expected.fingerprint then
                        .error ⟨.cursorMismatch,js "cursor was issued for " ++ action.name ++ js "/" ++ backend ++ js ", not " ++
                          expected.action.name ++ js "/" ++ expected.backend,some expected.backend⟩
                      else pure ⟨action,backend,state⟩
            | _,_ => .error (cursorInvalid (js "cursor backend/fingerprint is invalid"))

end

/- The fingerprint a request's cursors carry. -/
def bindingOf (request : GithubRequest) : GithubCursorFingerprintInput := fingerprintFor request ⟨request.author,request.jobs⟩

/- Requests for the same rows: all that a cursor is to be bound to agrees. -/
structure SameSelection (r s : GithubRequest) : Prop where
  action : r.action = s.action
  owner : r.owner = s.owner
  repo : r.repo = s.repo
  limit : r.limit = s.limit
  query : r.query = s.query
  language : r.language = s.language
  workflow : r.workflow = s.workflow
  ref : r.ref = s.ref
  status : r.status = s.status
  state : r.state = s.state
  labels : r.labels = s.labels
  number : r.number = s.number
  author : r.author = s.author
  jobs : r.jobs = some true ↔ s.jobs = some true
  files : r.files = some true ↔ s.files = some true
  tag : r.tag = s.tag
  latest : r.latest = some true ↔ s.latest = some true
  sha : r.sha = s.sha
  path : r.path = s.path
  since : r.since = s.since

/- The pieces between bars, in the order of the fields; what stands for a lone surrogate in UTF-8
counts as it. -/
def barPieces (request : GithubRequest) : List JsString :=
  Separated.pieces 124 ((fingerprintParts (bindingOf request)).map scrub)

theorem boundSame (r s : GithubRequest) :
    fingerprintBytes (bindingOf r) = fingerprintBytes (bindingOf s) ↔ barPieces r = barPieces s := by
  unfold fingerprintBytes barPieces
  rw [Utf8.bytesSame,Utf8.scrubJoined (by decide),Utf8.scrubJoined (by decide)]
  exact Separated.joinedSame (List.cons_ne_nil _ _) (List.cons_ne_nil _ _)

theorem actionBack (action : GithubAction) : githubActionOf action.name = some action := by
  cases action <;> rfl

theorem textSame {a b : Option JsString} (first : Filled a) (second : Filled b) (same : a.getD [] = b.getD []) : a = b := by
  cases a with
  | none => cases b with
    | none => rfl
    | some t => exact absurd (congrArg some same.symm) second
  | some s => cases b with
    | none => exact absurd (congrArg some same) first
    | some t => exact congrArg some same

theorem flagSame {a b : Option Bool} {text : String} (some_ : js text ≠ []) (same : flagText (ifTrue a) text = flagText (ifTrue b) text) :
    a = some true ↔ b = some true := by
  unfold flagText ifTrue at same
  by_cases first : a = some true
  · by_cases second : b = some true
    · exact iff_of_true first second
    · rw [if_pos first,if_neg second] at same
      exact absurd same some_
  · by_cases second : b = some true
    · rw [if_neg first,if_pos second] at same
      exact absurd same.symm some_
    · exact iff_of_false first second

theorem wholeScript {i j : Int} (same : js (toString i) = js (toString j)) : i = j := by
  have read : Json.wholeNumber (Number.int i).script = Json.wholeNumber (Number.int j).script := congrArg Json.wholeNumber same
  rw [(Json.wholeText i).2,(Json.wholeText j).2] at read
  exact Number.int.inj read

/- No integer is written with an exponent. -/
theorem wholePlain (i : Int) : 43 ∉ (Number.int i).script := by
  obtain ⟨s,digits,-,-,-,text⟩ := Json.wholeDigits i
  have plain : 43 ∉ s := fun member => absurd (List.all_eq_true.mp digits 43 member) (by decide)
  rw [text]
  split
  · intro member
    rcases List.mem_cons.mp member with minus | later
    · contradiction
    · exact plain later
  · exact plain

theorem numberSame {a b : Number} (first : Numeric a) (second : Numeric b) (same : a.script = b.script) : a = b := by
  cases a with
  | int i => cases b with
    | int j => exact congrArg Number.int (wholeScript same)
    | float digits => exact absurd (show 43 ∈ (Number.int i).script from same ▸ second) (wholePlain i)
  | float digits => cases b with
    | int j => exact absurd (show 43 ∈ (Number.int j).script from same ▸ first) (wholePlain j)
    | float others => exact congrArg Number.float (textInjective same)

theorem scriptSome (n : Number) (numeric : Numeric n) : n.script ≠ [] := by
  cases n with
  | int i => exact (Json.numeralUnits (Json.wholeText i).1).2
  | float digits => exact List.ne_nil_of_mem numeric

theorem numbersSame {a b : Option Number} (first : ∀ n, a = some n → Numeric n) (second : ∀ n, b = some n → Numeric n)
    (same : (a.map Number.script).getD [] = (b.map Number.script).getD []) : a = b := by
  cases a with
  | none => cases b with
    | none => rfl
    | some n => exact absurd same.symm (scriptSome n (second n rfl))
  | some m => cases b with
    | none => exact absurd same (scriptSome m (first m rfl))
    | some n => exact congrArg some (numberSame (first m rfl) (second n rfl) same)

theorem labelsPlain (labels : List JsString) : Json.Plain Json.wholeNumerals (.array (labels.map .string)) := by
  induction labels with
  | nil => trivial
  | cons label rest ih => exact ⟨trivial,ih⟩

theorem labelsSame {a b : Option (List JsString)} (same : labelsText a = labelsText b) : a = b := by
  have some_ (labels : List JsString) : labelsText (some labels) ≠ [] := by
    change stringify (.array (labels.map .string)) ≠ []
    rw [stringify]
    exact nofun
  cases a with
  | none => cases b with
    | none => rfl
    | some labels => exact absurd same.symm (some_ labels)
  | some labels => cases b with
    | none => exact absurd same (some_ labels)
    | some others =>
      have first := Json.parseBack Json.wholeNumerals (labelsPlain labels)
      have second := Json.parseBack Json.wholeNumerals (labelsPlain others)
      change stringify (.array (labels.map .string)) = stringify (.array (others.map .string)) at same
      rw [same] at first
      have values := JsValue.array.inj (Option.some.inj (first.symm.trans second))
      exact congrArg some (List.map_injective_iff.mpr (fun _ _ => JsValue.string.inj) values)

/- What is hashed says which rows are asked for. -/
theorem partsSame {r s : GithubRequest} (first : Accepted r) (second : Accepted s)
    (same : fingerprintParts (bindingOf r) = fingerprintParts (bindingOf s)) : SameSelection r s := by
  have author (request : GithubRequest) : (bindingOf request).author = request.author := Option.or_self
  unfold fingerprintParts at same
  rw [author r,author s] at same
  simp only [List.cons.injEq,and_true] at same
  obtain ⟨action,owner,repo,query,language,limit,workflow,ref,status,state,labels,number,authors,jobs,files,tag,latest,sha,path,since,-⟩ := same
  exact {
    action := Option.some.inj ((actionBack r.action).symm.trans ((congrArg githubActionOf action).trans (actionBack s.action)))
    owner := textSame first.owner second.owner owner
    repo := textSame first.repo second.repo repo
    limit := wholeScript limit
    query := textSame first.query second.query query
    language := textSame first.language second.language language
    workflow := textSame first.workflow second.workflow workflow
    ref := textSame first.ref second.ref ref
    status := textSame first.status second.status status
    state := textSame first.state second.state state
    labels := labelsSame labels
    number := numbersSame first.number second.number number
    author := textSame first.author second.author authors
    jobs := flagSame (by decide) jobs
    files := flagSame (by decide) files
    tag := textSame first.tag second.tag tag
    latest := flagSame (by decide) latest
    sha := textSame first.sha second.sha sha
    path := textSame first.path second.path path
    since := textSame first.since second.since since }

/- Where no field of one request holds a bar or what UTF-8 confuses, no other request regroups it. -/
theorem plainBound {r s : GithubRequest} (first : Accepted r) (second : Accepted s)
    (plain : ∀ part ∈ fingerprintParts (bindingOf r), 124 ∉ part ∧ wellFormed part ∧ 0xFFFD ∉ part)
    (same : barPieces r = barPieces s) : SameSelection r s := by
  have own : (fingerprintParts (bindingOf r)).map scrub = fingerprintParts (bindingOf r) :=
    (List.map_congr_left fun part member => Utf8.scrubWell (plain part member).2.1).trans (List.map_id' _)
  unfold barPieces at same
  rw [own] at same
  have fields := Separated.plainApart (fun part member => (plain part member).1) (by rw [List.length_map]; rfl) same
  refine partsSame first second (List.ext_getElem rfl fun i left right => ?_)
  have part : scrub ((fingerprintParts (bindingOf s))[i]) = (fingerprintParts (bindingOf r))[i] := by
    simp only [fields,List.getElem_map]
  have unique := (Utf8.bytesUnique _).mpr (plain _ (List.getElem_mem left)).2 _
    ((Utf8.bytesSame ((fingerprintParts (bindingOf s))[i]) ((fingerprintParts (bindingOf r))[i])).mpr
      (part.trans (Utf8.scrubWell (plain _ (List.getElem_mem left)).2.1).symm))
  exact unique.symm

section
variable {numerals : Json.Numerals} {sha256hex : Bytes → JsString} {toLowerCase : JsString → JsString}

/- The states of a GitHub cursor: texts, finite numbers and booleans. -/
structure GithubCursorState (numerals : Json.Numerals) (state : CursorState) : Prop where
  valid : ScalarState numerals state
  scalars : ∀ field ∈ state, cursorScalar field.2 = true

def parseJson (numerals : Json.Numerals) (bytes : Bytes) : Option JsValue := Json.parse numerals (Utf8.decode bytes)

theorem githubPlain {input : GithubCursorInput} (valid : ScalarState numerals input.state) :
    Json.Plain numerals (githubPayload input) := by
  have keys : [js "v",js "action",js "backend",js "fingerprint",js "state"].Pairwise fun a b => a ≠ b ∧ Json.listedBefore a b = true := by
    decide
  exact ⟨Json.enumeratedKeys keys,numerals.whole 1 (by decide),trivial,trivial,trivial,Research.statePlain valid,trivial⟩

theorem encodedGithub {input : GithubCursorInput} {cursor : JsString} (ok : encodeGithubCursor toLowerCase input = .ok cursor) :
    assertGithubCursorSafe toLowerCase input.state = .ok () ∧ cursor.length ≤ githubMaxCursorLength ∧
      cursor = base64url (utf8 (stringify (githubPayload input))) := by
  obtain ⟨_,safe,ok⟩ := andThen ok
  split at ok
  · cases ok
  · rename_i short
    have same : base64url (utf8 (stringify (githubPayload input))) = cursor := Except.ok.inj ok
    exact ⟨safe,same ▸ Nat.not_lt.mp short,same.symm⟩

/- A cursor that was issued is read back where its binding is the one expected, and refused elsewhere. -/
theorem issuedGithub {input : GithubCursorInput} {cursor : JsString} (ok : encodeGithubCursor toLowerCase input = .ok cursor)
    (valid : GithubCursorState numerals input.state) (named : input.backend ≠ []) (hashed : input.fingerprint ≠ [])
    (expected : GithubCursorExpectation) :
    decodeGithubCursor toLowerCase (parseJson numerals) cursor expected =
      if input.action ≠ expected.action ∨ input.backend ≠ expected.backend ∨ input.fingerprint ≠ expected.fingerprint then
        .error ⟨.cursorMismatch,js "cursor was issued for " ++ input.action.name ++ js "/" ++ input.backend ++ js ", not " ++
          expected.action.name ++ js "/" ++ expected.backend,some expected.backend⟩
      else .ok ⟨input.action,input.backend,input.state⟩ := by
  obtain ⟨safe,short,rfl⟩ := encodedGithub ok
  have size := base64Size (utf8 (stringify (githubPayload input)))
  have bytes := lengthBytes (stringify (githubPayload input))
  have first : 0 < (stringify (githubPayload input)).length := by
    simp [githubPayload,stringify]
  unfold byteLength at bytes
  have parsed : parseJson numerals (fromBase64url (base64url (utf8 (stringify (githubPayload input))))) = some (githubPayload input) := by
    rw [base64Read,parseJson,Json.parseBack numerals (githubPlain valid.valid)]
  have v : (githubPayload input).get "v" = .number (.int 1) := rfl
  have action : (githubPayload input).get "action" = .string input.action.name := rfl
  have backend_ : (githubPayload input).get "backend" = .string input.backend := rfl
  have fingerprint : (githubPayload input).get "fingerprint" = .string input.fingerprint := rfl
  have state : (githubPayload input).get "state" = .object input.state := rfl
  have record : (!Research.isRecord (githubPayload input)) = false := rfl
  have accepted : stateOf (.object input.state) = some input.state := if_pos (List.all_eq_true.mpr valid.scalars)
  have some_ : (decide (input.backend.length = 0) || decide (input.fingerprint.length = 0)) = false := by
    simp [named,hashed]
  unfold decodeGithubCursor
  rw [if_neg (by omega),if_neg (Nat.not_lt.mpr short),parsed]
  simp only [record,v,action,backend_,fingerprint,state,accepted,JsValue.asString,Option.bind_some,actionBack,some_,safe]
  rfl

/- What cursors promise two requests. -/
structure Bound (numerals : Json.Numerals) (sha256hex : Bytes → JsString) (toLowerCase : JsString → JsString) (r s : GithubRequest) :
    Prop where
  apart : githubCursorFingerprint sha256hex (bindingOf r) ≠ githubCursorFingerprint sha256hex (bindingOf s)
  refused : ∀ state cursor, GithubCursorState numerals state →
    encodeGithubCursor toLowerCase ⟨r.action,backend,githubCursorFingerprint sha256hex (bindingOf r),state⟩ = .ok cursor →
    ∃ error, decodeGithubCursor toLowerCase (parseJson numerals) cursor
      ⟨s.action,backend,githubCursorFingerprint sha256hex (bindingOf s)⟩ = .error error
  returned : ∀ state cursor, GithubCursorState numerals state →
    encodeGithubCursor toLowerCase ⟨r.action,backend,githubCursorFingerprint sha256hex (bindingOf r),state⟩ = .ok cursor →
    decodeGithubCursor toLowerCase (parseJson numerals) cursor
      ⟨r.action,backend,githubCursorFingerprint sha256hex (bindingOf r)⟩ = .ok ⟨r.action,backend,state⟩

/-- Cursors keep two requests apart unless both hold the same pieces between bars, only in other fields; they do so wherever one
of the two holds no bar, no lone surrogate and no U+FFFD. -/
theorem cursorsBound (numerals : Json.Numerals) (sha256hex : Bytes → JsString) (toLowerCase : JsString → JsString)
    (dateParses : JsString → Bool) {a b : GithubRequestInput} {r s : GithubRequest}
    (first : validateGithubRequest dateParses a = .ok r) (second : validateGithubRequest dateParses b = .ok s)
    (differ : ¬SameSelection r s) (digest : sha256hex (fingerprintBytes (bindingOf r)) ≠ [])
    (collisionFree : sha256hex (fingerprintBytes (bindingOf r)) = sha256hex (fingerprintBytes (bindingOf s)) →
      fingerprintBytes (bindingOf r) = fingerprintBytes (bindingOf s)) :
    (Bound numerals sha256hex toLowerCase r s ↔ barPieces r ≠ barPieces s) ∧
    ((∀ part ∈ fingerprintParts (bindingOf r), 124 ∉ part ∧ wellFormed part ∧ 0xFFFD ∉ part) → barPieces r ≠ barPieces s) := by
  refine ⟨⟨fun bound same => ?_,fun apart => ?_⟩,fun plain same => differ (plainBound (acceptedRequest first) (acceptedRequest second) plain same)⟩
  · exact bound.apart (congrArg sha256hex ((boundSame r s).mpr same))
  · have hashed : githubCursorFingerprint sha256hex (bindingOf r) ≠ githubCursorFingerprint sha256hex (bindingOf s) :=
      fun same => apart ((boundSame r s).mp (collisionFree same))
    have named : backend ≠ [] := by decide
    refine ⟨hashed,fun state cursor valid ok => ?_,fun state cursor valid ok => ?_⟩
    · rw [issuedGithub ok valid named digest,if_pos (.inr (.inr hashed))]
      exact ⟨_,rfl⟩
    · rw [issuedGithub ok valid named digest,if_neg]
      rintro (other | other | other)
      · exact other rfl
      · exact other rfl
      · exact other rfl

end

section
def searchFor (query language : String) : GithubRequestInput :=
  { action := js "search", query := .string (js query), language := .string (js language) }

def searched (query language : String) : GithubRequest :=
  ⟨.search,none,none,none,none,none,some (js query),some (js language),20,none,none,none,none,none,none,none,none,none,none,none,none,
    none,none,none⟩

/- A digest as long as the bytes. -/
def plainSha (bytes : Bytes) : JsString := bytes.map fun byte => byte.toUInt16

theorem languagesApart : (Bound Json.wholeNumerals plainSha id (searched "graph" "rust") (searched "graph" "zig") ↔
      barPieces (searched "graph" "rust") ≠ barPieces (searched "graph" "zig")) ∧
    ((∀ part ∈ fingerprintParts (bindingOf (searched "graph" "rust")), 124 ∉ part ∧ wellFormed part ∧ 0xFFFD ∉ part) →
      barPieces (searched "graph" "rust") ≠ barPieces (searched "graph" "zig")) := by
  refine cursorsBound (a := searchFor "graph" "rust") (b := searchFor "graph" "zig") Json.wholeNumerals plainSha id (fun _ => true) rfl rfl
    (fun same => absurd same.language (by decide)) (by decide) ?_
  intro same
  exact List.map_injective_iff.mpr (fun x y same => by simpa using congrArg UInt16.toUInt8 same) same

/- One list's cursor is taken for the other's, whatever the digest. -/
theorem barRegrouped : validateGithubRequest (fun _ => true) (searchFor "a|b" "c") = .ok (searched "a|b" "c") ∧
    validateGithubRequest (fun _ => true) (searchFor "a" "b|c") = .ok (searched "a" "b|c") ∧
    githubPaginationSupported GithubAction.search = true ∧ ¬SameSelection (searched "a|b" "c") (searched "a" "b|c") ∧
    fingerprintBytes (bindingOf (searched "a|b" "c")) = fingerprintBytes (bindingOf (searched "a" "b|c")) :=
  ⟨rfl,rfl,rfl,fun same => absurd same.query (by decide),rfl⟩

end

end Northstar.Github
