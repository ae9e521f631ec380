import Northstar.Network.Addresses

/-! Fetching with redirects followed by hand (core/http.ts). The platform's URL parser, its
lookups and the servers' answers are the surroundings; every request that is issued is
kept, with the addresses its host was resolved to before it. -/
namespace Northstar.Network

def credentialHeaderNames : List JsString :=
  [js "authorization",js "x-subscription-token",js "x-api-key",js "cookie",js "set-cookie",
   js "proxy-authorization"]

def isCredential (name : JsString) : Bool := credentialHeaderNames.contains (toLowerCase name)

abbrev Headers := List (JsString × JsString)

def stripCredentialHeaders (headers : Headers) : Headers := headers.filter fun header => !isCredential header.1

def isByteStringSafe (value : JsString) : Bool := value.all fun u => u ≤ 255

def assertByteStringHeaders (headers : Headers) : Except JsString Unit :=
  match headers.find? fun header => !isByteStringSafe header.1 || !isByteStringSafe header.2 with
  | some header => .error (js "Header \"" ++ header.1 ++
      js ("\" contains non-latin1 characters and cannot be sent as an HTTP ByteString. " ++
        "Re-import browser cookies if this value came from stored cookie state."))
  | none => .ok ()

structure Response where
  status : Nat
  location : Option JsString
  deriving DecidableEq, Repr

structure Request where
  url : JsString
  headers : Headers
  aborted : Bool
  resolved : Option (JsString × List JsString)
  deriving DecidableEq, Repr

/- What a hop meets: the answer to its lookup, whether the caller has aborted when its
request is issued, and the response; a fetch that rejects has none. -/
structure Hop where
  lookup : JsString → Lookup
  aborted : Bool
  response : Option Response

section
variable (parse : UrlParser)

def invalidUrl : JsString := js "Invalid URL"

def validateHttpUrl (raw : JsString) : Except JsString JsString := match parse (trim raw) none with
  | none => .error invalidUrl
  | some url =>
      if url.protocol ≠ http ∧ url.protocol ≠ https then .error (js "Disallowed URL scheme: " ++ url.protocol)
      else if url.username ≠ [] ∨ url.password ≠ [] then
        .error (js "URL credentials are not allowed: " ++ url.href)
      else match assertPublicHostname url.hostname with
        | .error message => .error message
        | .ok () => .ok url.href

def parsed (text : JsString) : Except JsString Url := match parse text none with
  | none => .error invalidUrl
  | some url => .ok url

/- The target of a redirect, and the headers that go there. -/
def redirectTarget (current : JsString) (headers : Headers) (location : JsString) :
    Except JsString (JsString × Headers) := do
  let target ← match parse location (some current) with
    | none => .error invalidUrl
    | some target => .ok target
  let next ← validateHttpUrl parse target.href
  let after ← parsed parse next
  let before ← parsed parse current
  .ok (next,if after.origin ≠ before.origin then stripCredentialHeaders headers else headers)

def preflight (lookup : JsString → Lookup) (current : JsString) : Except JsString (JsString × List JsString) := do
  let url ← parsed parse current
  let addresses ← resolvePublicHostname url.hostname lookup
  .ok (url.hostname,addresses)

/- The loop, with the number of redirects it may still follow. -/
def follow (world : Nat → Hop) (first : JsString) : Nat → Nat → JsString → Headers → Bool →
    Option (JsString × List JsString) → List Request × Except JsString Response
  | left, hop, current, headers, aborted, resolved => match assertByteStringHeaders headers with
      | .error message => ([],.error message)
      | .ok () =>
          let request : Request := ⟨current,headers,aborted || (world hop).aborted,resolved⟩
          match (world hop).response with
          | none => ([request],.error (js "fetch failed"))
          | some response =>
              if response.status < 300 ∨ 400 ≤ response.status then ([request],.ok response)
              else match left with
                | 0 => ([request],.error (js "Too many redirects for " ++ first))
                | left + 1 =>
                    let location := response.location.getD []
                    if location = [] then
                      ([request],.error (js "Redirect without Location header for " ++ current))
                    else match redirectTarget parse current headers location with
                      | .error message => ([request],.error message)
                      | .ok (next,headers) =>
                          match preflight parse (world (hop + 1)).lookup next with
                          | .error message => ([request],.error message)
                          | .ok resolved =>
                              let rest := follow world first left (hop + 1) next headers aborted (some resolved)
                              (request :: rest.1,rest.2)

/- A signal that is aborted from the start leaves the first lookup out. -/
def fetchFollowingRedirects (world : Nat → Hop) (url : JsString) (headers : Headers) (aborted : Bool)
    (maxRedirects : Nat) : List Request × Except JsString Response := match validateHttpUrl parse url with
  | .error message => ([],.error message)
  | .ok current =>
      if aborted then follow parse world url maxRedirects 0 current headers aborted none
      else match preflight parse (world 0).lookup current with
        | .error message => ([],.error message)
        | .ok resolved => follow parse world url maxRedirects 0 current headers aborted (some resolved)

/- A text that fetch reads as a URL of the public web. -/
structure Public (text : JsString) (url : Url) : Prop where
  reads : parse text none = some url
  protocol : url.protocol = http ∨ url.protocol = https
  username : url.username = []
  password : url.password = []
  hostname : assertPublicHostname url.hostname = .ok ()

/- The lookup made for it just before. -/
structure Resolved (lookup : JsString → Lookup) (url : Url) (resolved : Option (JsString × List JsString)) :
    Prop where
  answered : ∃ addresses, resolved = some (url.hostname,addresses) ∧ addresses ≠ [] ∧
    lookup (normalizeHostname url.hostname) = .answered addresses ∧
    ∀ address ∈ addresses, isPrivateOrReservedAddress address = false

variable {parse}

/- Serialising a web URL and parsing the text gives the URL back. -/
def Serialises (parse : UrlParser) : Prop := ∀ text base url, parse text base = some url →
  url.protocol = http ∨ url.protocol = https → parse url.href none = some url

theorem validatedFrom (serialises : Serialises parse) {raw text : JsString} (h : validateHttpUrl parse raw = .ok text) :
    ∃ url, parse (trim raw) none = some url ∧ Public parse text url := by
  unfold validateHttpUrl at h
  split at h
  · exact absurd h nofun
  rename_i url read
  split at h
  · exact absurd h nofun
  rename_i scheme
  split at h
  · exact absurd h nofun
  rename_i plain
  split at h
  · exact absurd h nofun
  rename_i public_
  cases Except.ok.inj h
  have web : url.protocol = http ∨ url.protocol = https := by
    by_cases insecure : url.protocol = http
    · exact .inl insecure
    · exact .inr (not_not.mp fun other => scheme ⟨insecure,other⟩)
  simp only [ne_eq,not_or,not_not] at plain
  exact ⟨url,read,serialises _ _ _ read web,web,plain.1,plain.2,public_⟩

theorem validated (serialises : Serialises parse) {raw text : JsString} (h : validateHttpUrl parse raw = .ok text) :
    ∃ url, Public parse text url :=
  (validatedFrom serialises h).imp fun _ found => found.2

theorem preflighted {lookup : JsString → Lookup} {current : JsString} {url : Url}
    (read : parse current none = some url) {resolved : JsString × List JsString}
    (h : preflight parse lookup current = .ok resolved) : Resolved lookup url (some resolved) := by
  simp only [preflight,parsed,read,bind,Except.bind] at h
  split at h
  · exact absurd h nofun
  · rename_i addresses answered
    cases Except.ok.inj h
    obtain ⟨_,looked,some_,public_⟩ := resolvedPublic answered
    exact ⟨addresses,rfl,some_,looked,public_⟩

/- One redirect: the target is public, and headers only get fewer. -/
theorem redirected (serialises : Serialises parse) {current next location : JsString} {headers after : Headers}
    (h : redirectTarget parse current headers location = .ok (next,after)) :
    (∃ url, Public parse next url) ∧ (∀ header ∈ after, header ∈ headers) ∧
      ∀ before target, parse current none = some before → parse next none = some target →
        before.origin ≠ target.origin → ∀ header ∈ after, isCredential header.1 = false := by
  simp only [redirectTarget,bind,Except.bind] at h
  split at h
  · exact absurd h nofun
  rename_i target found
  split at h
  · exact absurd h nofun
  rename_i text valid
  split at h
  · exact absurd h nofun
  rename_i url there
  split at h
  · exact absurd h nofun
  rename_i old here
  obtain ⟨rfl,rfl⟩ := Prod.mk.inj (Except.ok.inj h)
  have reads {text : JsString} {url : Url} (h : parsed parse text = .ok url) : parse text none = some url := by
    unfold parsed at h
    split at h
    · exact absurd h nofun
    · rename_i found
      rw [found,Except.ok.inj h]
  refine ⟨validated serialises valid,?_,?_⟩
  · intro header member
    split at member
    · exact List.mem_of_mem_filter member
    · exact member
  · intro before after first second apart header member
    rw [Option.some.inj (first.symm.trans (reads here)),Option.some.inj (second.symm.trans (reads there))] at apart
    rw [if_pos (Ne.symm apart)] at member
    simpa using (List.mem_filter.mp member).2

/- What holds of the requests from a hop on. -/
structure Chain (parse : UrlParser) (world : Nat → Hop) (hop left : Nat) (current : JsString)
    (headers : Headers) (log : List Request) : Prop where
  few : log.length ≤ left + 1
  starts : ∀ r ∈ log.head?, r.url = current
  fewer : ∀ r ∈ log, ∀ header ∈ r.headers, header ∈ headers
  checked : ∀ i r, log[i]? = some r → r.aborted = false →
    ∃ url, Public parse r.url url ∧ Resolved (world (hop + i)).lookup url r.resolved
  shed : ∀ before a b after, log = before ++ a :: b :: after → ∀ from_ to_, parse a.url none = some from_ →
    parse b.url none = some to_ → from_.origin ≠ to_.origin →
    ∀ r ∈ b :: after, ∀ header ∈ r.headers, isCredential header.1 = false

theorem chainNil {world : Nat → Hop} {hop left : Nat} {current : JsString} {headers : Headers} :
    Chain parse world hop left current headers [] where
  few := Nat.zero_le _
  starts := nofun
  fewer := nofun
  checked i r there := absurd there (by simp)
  shed before a b after same := absurd same (by simp)

/- One more request before a chain. -/
theorem chainCons {world : Nat → Hop} {hop left : Nat} {headers later : Headers} {request : Request}
    {current next : JsString} {rest : List Request} (here : request.url = current)
    (checked : request.aborted = false →
      ∃ url, Public parse current url ∧ Resolved (world hop).lookup url request.resolved)
    (mine : request.headers = headers) (fewer : ∀ header ∈ later, header ∈ headers)
    (shed : ∀ from_ to_, parse current none = some from_ → parse next none = some to_ →
      from_.origin ≠ to_.origin → ∀ header ∈ later, isCredential header.1 = false)
    (chain : Chain parse world (hop + 1) left next later rest) :
    Chain parse world hop (left + 1) current headers (request :: rest) := by
  subst here
  constructor
  · exact Nat.succ_le_succ chain.few
  · intro r first
    rw [Option.some.inj first]
  · intro r member header inside
    cases List.mem_cons.mp member with
    | inl same => rwa [same,mine] at inside
    | inr later => exact fewer header (chain.fewer r later header inside)
  · intro i r there fresh
    cases i with
    | zero =>
      cases Option.some.inj there
      exact checked fresh
    | succ i =>
      have found := chain.checked i r there fresh
      rwa [Nat.add_assoc,Nat.add_comm 1 i] at found
  · intro before a b after same from_ to_ reads reads' apart
    cases before with
    | nil =>
      obtain ⟨rfl,rfl⟩ := List.cons.inj same
      rw [chain.starts b rfl] at reads'
      intro r member header inside
      exact shed from_ to_ reads reads' apart header (chain.fewer r member header inside)
    | cons first before =>
      exact chain.shed before a b after (List.cons.inj same).2 from_ to_ reads reads' apart

theorem followed (serialises : Serialises parse) (world : Nat → Hop) (first : JsString) (left hop : Nat)
    (current : JsString) (headers : Headers) (aborted : Bool) (resolved : Option (JsString × List JsString))
    (checked : aborted = false → ∃ url, Public parse current url ∧ Resolved (world hop).lookup url resolved) :
    Chain parse world hop left current headers
      (follow parse world first left hop current headers aborted resolved).1 := by
  have single {left : Nat} {hop : Nat} {current : JsString} {headers : Headers}
      {resolved : Option (JsString × List JsString)} (checked : aborted = false →
        ∃ url, Public parse current url ∧ Resolved (world hop).lookup url resolved) :
      Chain parse world hop left current headers
        [⟨current,headers,aborted || (world hop).aborted,resolved⟩] := by
    constructor
    · exact Nat.succ_le_succ (Nat.zero_le left)
    · intro r first
      rw [← Option.some.inj first]
    · intro r member header inside
      rwa [List.mem_singleton.mp member] at inside
    · intro i r there fresh
      cases i with
      | succ i => exact absurd there (by simp)
      | zero =>
        cases Option.some.inj there
        simp only [Bool.or_eq_false_iff] at fresh
        exact checked fresh.1
    · intro before a b after same
      have long := congrArg List.length same
      simp only [List.length_append,List.length_cons,List.length_nil] at long
      omega
  induction left generalizing hop current headers resolved with
  | zero =>
    unfold follow
    split
    · exact chainNil
    dsimp only
    split
    · exact single checked
    split
    · exact single checked
    · exact single checked
  | succ left ih =>
    unfold follow
    split
    · exact chainNil
    dsimp only
    split
    · exact single checked
    split
    · exact single checked
    split
    · exact single checked
    split
    · exact single checked
    rename_i next later target
    obtain ⟨⟨url,public_⟩,fewer,shed⟩ := redirected serialises target
    split
    · exact single checked
    rename_i found flown
    have reached := preflighted public_.reads flown
    refine chainCons rfl ?_ rfl fewer shed (ih (hop + 1) next later (some found) fun _ => ⟨url,public_,reached⟩)
    intro fresh
    simp only [Bool.or_eq_false_iff] at fresh
    exact checked fresh.1

/-- Every request issued with a live signal goes to a URL of the public web whose host was
looked up for it and had public addresses only; a chain has at most one request more than
redirects are allowed; and no request after a change of origin has a credential header. -/
theorem redirectsSafe (serialises : Serialises parse) (world : Nat → Hop) (url : JsString) (headers : Headers)
    (aborted : Bool) (maxRedirects : Nat) :
    (∀ i r, (fetchFollowingRedirects parse world url headers aborted maxRedirects).1[i]? = some r →
      r.aborted = false → ∃ target, Public parse r.url target ∧ Resolved (world i).lookup target r.resolved) ∧
    (fetchFollowingRedirects parse world url headers aborted maxRedirects).1.length ≤ maxRedirects + 1 ∧
    ∀ before a b after,
      (fetchFollowingRedirects parse world url headers aborted maxRedirects).1 = before ++ a :: b :: after →
      ∀ from_ to_, parse a.url none = some from_ → parse b.url none = some to_ → from_.origin ≠ to_.origin →
        ∀ r ∈ b :: after, ∀ header ∈ r.headers, isCredential header.1 = false := by
  obtain ⟨current,chain⟩ : ∃ current, Chain parse world 0 maxRedirects current headers
      (fetchFollowingRedirects parse world url headers aborted maxRedirects).1 := by
    unfold fetchFollowingRedirects
    split
    · exact ⟨[],chainNil⟩
    rename_i current valid
    obtain ⟨target,public_⟩ := validated serialises valid
    split
    · rename_i stopped
      exact ⟨current,followed serialises world url _ 0 current headers aborted none
        fun fresh => absurd (stopped.symm.trans fresh) (by decide)⟩
    split
    · exact ⟨[],chainNil⟩
    · rename_i found flown
      exact ⟨current,followed serialises world url _ 0 current headers aborted (some found)
        fun _ => ⟨target,public_,preflighted public_.reads flown⟩⟩
  refine ⟨fun i r there fresh => ?_,chain.few,chain.shed⟩
  have found := chain.checked i r there fresh
  rwa [Nat.zero_add] at found

end

def demoUrl : Url := ⟨https,[],[],js "example.com",[],js "/a",[],[],by decide,noPort⟩

def otherUrl : Url := ⟨https,[],[],js "example.org",[],js "/b",[],[],by decide,noPort⟩

/- A parser that knows two URLs and the reference of one to the other. -/
def demoParser : UrlParser := fun text _ =>
  if text = demoUrl.href then some demoUrl else if text = otherUrl.href then some otherUrl else none

set_option maxRecDepth 16384 in
theorem demoSerialises : Serialises demoParser := by
  intro text base url read _
  unfold demoParser at read
  split at read
  · cases Option.some.inj read
    decide
  split at read
  · cases Option.some.inj read
    decide
  · exact absurd read nofun

def demoWorld (hop : Nat) : Hop :=
  ⟨fun _ => .answered [js "93.184.216.34"],false,
    some (if hop = 0 then ⟨302,some otherUrl.href⟩ else ⟨200,none⟩)⟩

def demoHeaders : Headers := [(js "Authorization",js "token"),(js "accept",js "text/html")]

def demoFirst : Request :=
  ⟨demoUrl.href,demoHeaders,false,some (js "example.com",[js "93.184.216.34"])⟩

def demoSecond : Request :=
  ⟨otherUrl.href,[(js "accept",js "text/html")],false,some (js "example.org",[js "93.184.216.34"])⟩

set_option maxRecDepth 16384 in
theorem demoLog : (fetchFollowingRedirects demoParser demoWorld demoUrl.href demoHeaders false 10).1 =
    [] ++ demoFirst :: demoSecond :: [] := by decide

set_option maxRecDepth 16384 in
theorem redirectShed : demoSecond.headers.any (fun header => isCredential header.1) = false := by
  have shed := (redirectsSafe demoSerialises demoWorld demoUrl.href demoHeaders false 10).2.2 [] demoFirst demoSecond
    [] demoLog demoUrl otherUrl (by decide) (by decide) (by decide) demoSecond
    (List.mem_singleton_self demoSecond)
  exact List.any_eq_false.mpr fun header member => Bool.eq_false_iff.mp (shed header member)

end Northstar.Network
