import Northstar.Incumbent
import Northstar.Network.Url

/-! The contract of cookie-authenticated fetching (web-access-auth-contract.ts): the operator's
profiles, the profile that governs a URL and the checks a fetch URL and a redirect have to
pass. JSON.parse, the URL parser and the table of lower case are the platform's. -/
namespace Northstar.Network.Auth

def maxAuthProfiles : Nat := 16
def maxAuthHostsPerProfile : Nat := 32
def maxAuthRedirects : Nat := 5

inductive WebAccessAuthCachePolicy where
  | session | off
  deriving DecidableEq, Repr

structure WebAccessAuthProfile where
  name : JsString
  provider : JsString
  hosts : List JsString
  redirects : JsString
  cache : WebAccessAuthCachePolicy
  deriving DecidableEq, Repr

structure ProviderDescriptor where
  provider : String
  cookieDomains : List String

def providerDescriptors : List ProviderDescriptor :=
  [⟨"youtube",["youtube.com"]⟩,⟨"reddit",["reddit.com"]⟩,⟨"bilibili",["bilibili.com"]⟩,
   ⟨"vision-gemini-web",["google.com"]⟩] ++
  ["web","rss","v2ex","brave","exa","tavily","deepResearch","codex","searxng","ollama-search","duckduckgo","parallel",
   "parallel-mcp","tinyfish","querit","valyu","bocha","xcrawl","xai","mistral","brightdata","serpapi","serper","github",
   "diffbot","firecrawl","jina","sparql","twitter","facebook","instagram","xiaohongshu","linkedin","opencli","openai",
   "groq","vision-openai-compatible","vision-gemini","vision-private-gate"].map fun provider => ⟨provider,[]⟩

abbrev Checked := Except JsString

def invalid (field : JsString) (rest : String) : JsString :=
  js "invalid PI_FETCH_AUTH_PROFILES: field \"" ++ field ++ js "\" " ++ js rest

def letter (u : UInt16) : Bool := (65 ≤ u && u ≤ 90) || (97 ≤ u && u ≤ 122)
def alphanumeric (u : UInt16) : Bool := letter u || digit u

/- `^[A-Za-z][A-Za-z0-9_-]{0,63}$` -/
def profileName (name : JsString) : Bool :=
  name.head?.any letter && name.length ≤ 64 && name.all fun u => alphanumeric u || u == 95 || u == 45

/- `[a-z0-9](?:[a-z0-9-]{0,61}[a-z0-9])?` under the flag i. -/
def hostLabel (label : JsString) : Bool :=
  label.head?.any alphanumeric && label.getLast?.any alphanumeric && label.length ≤ 63 &&
    label.all fun u => alphanumeric u || u == 45

def forbidden (u : UInt16) : Bool :=
  whiteSpace u || u == 92 || u == 47 || u == 63 || u == 58 || u == 35 || u == 64 || u == 42

section Contract
variable (toLowerCase : JsString → JsString)

def normalizeHostname (hostname : JsString) : JsString :=
  let lower := toLowerCase hostname
  let opened := if lower.head? = some 91 then lower.tail else lower
  let closed := if opened.getLast? = some 93 then opened.dropLast else opened
  if closed.getLast? = some 46 then closed.dropLast else closed

def hostMatches (hostname allowedHost : JsString) : Bool :=
  hostname == allowedHost || (46 :: allowedHost).isSuffixOf hostname

def parseHost (name value : JsString) : Checked JsString :=
  let host := normalizeHostname toLowerCase (trim value)
  if host.isEmpty || host.head? = some 46 || host.getLast? = some 46 || 253 < host.length || host.any forbidden ||
      !(host.splitOn 46).all hostLabel then
    .error (invalid (name ++ js ".hosts") "contains an invalid hostname")
  else .ok host

def parseHosts (name : JsString) (value : List JsValue) : Checked (List JsString) :=
  if value.isEmpty then .error (invalid (name ++ js ".hosts") "must be a non-empty array")
  else if maxAuthHostsPerProfile < value.length then .error (invalid (name ++ js ".hosts") "exceeds the host limit")
  else
    let hosts : Checked (List JsString) := value.mapM fun entry => match entry with
      | JsValue.string text => parseHost toLowerCase name text
      | _ => .error (invalid (name ++ js ".hosts") "must contain only hostnames")
    hosts.map List.eraseDups

def parseHostsField (name : JsString) : JsValue → Checked (List JsString)
  | .array value => parseHosts toLowerCase name value
  | _ => .error (invalid (name ++ js ".hosts") "must be a non-empty array")

def descriptorOf (provider : JsString) : Option ProviderDescriptor :=
  providerDescriptors.find? fun entry => js entry.provider == provider

def parseProviderField (name : JsString) : JsValue → Checked JsString
  | .string value =>
      if (trim value).isEmpty then .error (invalid (name ++ js ".provider") "is required")
      else match descriptorOf (trim value) with
        | none => .error (invalid (name ++ js ".provider") "names an unknown provider")
        | some descriptor =>
            if descriptor.cookieDomains.isEmpty then .error (invalid (name ++ js ".provider") "has no cookie domains")
            else .ok (trim value)
  | _ => .error (invalid (name ++ js ".provider") "is required")

def assertHostsWithinProviderDomains (hosts : List JsString) (provider name : JsString) : Checked Unit :=
  let domains := ((descriptorOf provider).elim [] ProviderDescriptor.cookieDomains).map fun domain => toLowerCase (js domain)
  if hosts.all fun host => domains.any fun domain => host == domain || (46 :: domain).isSuffixOf host then .ok ()
  else .error (invalid (name ++ js ".hosts") "is outside the provider cookie domains")

/- `value ?? fallback` -/
def orDefault (fallback : String) : JsValue → JsValue
  | .undefined => .string (js fallback)
  | .null => .string (js fallback)
  | value => value

def parseCache (name : JsString) (value : JsValue) : Checked WebAccessAuthCachePolicy :=
  if (orDefault "off" value).asString = some (js "session") then .ok .session
  else if (orDefault "off" value).asString = some (js "off") then .ok .off
  else .error (invalid (name ++ js ".cache") "must be \"session\" or \"off\"")

def parseProfile (name : JsString) (value : JsValue) : Checked WebAccessAuthProfile :=
  if !profileName name then .error (invalid (js "name") "has an invalid profile name")
  else match value with
    | .object config => match config.find? fun field =>
          !(["provider","hosts","cache","redirects"].map js).contains field.1 with
        | some field => .error (invalid (name ++ js "." ++ field.1) "is unknown")
        | none => do
            let provider ← parseProviderField name (value.get "provider")
            let hosts ← parseHostsField toLowerCase name (value.get "hosts")
            if (orDefault "same-origin" (value.get "redirects")).asString ≠ some (js "same-origin") then
              throw (invalid (name ++ js ".redirects") "must be \"same-origin\"")
            let cache ← parseCache name (value.get "cache")
            assertHostsWithinProviderDomains toLowerCase hosts provider name
            pure ⟨name,provider,hosts,js "same-origin",cache⟩
    | _ => .error (invalid name "must be an object")

/- `out[name] = profile`; the profile has its name. -/
def setProfile (out : List WebAccessAuthProfile) (profile : WebAccessAuthProfile) : List WebAccessAuthProfile :=
  if out.any (·.name == profile.name) then out.map fun old => if old.name = profile.name then profile else old
  else out ++ [profile]

def parseEntries : List WebAccessAuthProfile → List (JsString × JsValue) → Checked (List WebAccessAuthProfile)
  | out, [] => .ok out
  | out, (name,value) :: entries => match parseProfile toLowerCase name value with
      | .error message => .error message
      | .ok profile => parseEntries (setProfile out profile) entries

def parseWebAccessAuthProfiles (json : JsString → Option JsValue) (raw : Option JsString) :
    Checked (List WebAccessAuthProfile) := match (raw.map trim).filter (!·.isEmpty) with
  | none => .ok []
  | some text => match json text with
      | some (.object entries) =>
          if maxAuthProfiles < entries.length then .error (invalid (js "profiles") "exceeds the profile limit")
          else parseEntries toLowerCase [] entries
      | _ => .error (invalid (js "profiles") "must be a JSON object")

/- The longest host of the profile that matches, -1 where none does. -/
def specificity (hostname : JsString) (profile : WebAccessAuthProfile) : Int :=
  profile.hosts.foldl (fun most host => if hostMatches hostname host then max most host.length else most) (-1)

def resolveAuthProfileForUrl (parse : UrlParser) (rawUrl : JsString) (profiles : List WebAccessAuthProfile) :
    Option WebAccessAuthProfile := match parse rawUrl none with
  | none => none
  | some url => (profiles.foldl (Incumbent.challenge (specificity (normalizeHostname toLowerCase url.hostname))) {}).answer

def assertAuthFetchUrl (parse : UrlParser) (profile : WebAccessAuthProfile) (rawUrl : JsString) : Checked Url :=
  match parse rawUrl none with
  | none => .error (js "authenticated fetch requires an HTTPS URL")
  | some url =>
      if url.protocol ≠ https then .error (js "authenticated fetch requires an HTTPS URL")
      else if profile.hosts.any fun host => hostMatches (normalizeHostname toLowerCase url.hostname) host then .ok url
      else .error (js "authenticated fetch URL host is not allowed by the auth profile")

end Contract

def authFetchRedirectGuard (profile : WebAccessAuthProfile) (from_ to_ : Url) : Checked Unit :=
  if profile.redirects = js "same-origin" ∧ to_.origin ≠ from_.origin then
    .error (js "authenticated fetch refused a cross-origin redirect")
  else .ok ()

section Accepted
variable {toLowerCase : JsString → JsString}

theorem profileShape {name : JsString} {value : JsValue} {profile : WebAccessAuthProfile}
    (h : parseProfile toLowerCase name value = .ok profile) : profile.name = name ∧ profile.redirects = js "same-origin" := by
  unfold parseProfile at h
  split at h
  · contradiction
  split at h
  · split at h
    · contradiction
    · simp only [bind,Except.bind,pure,Except.pure,throw,throwThe,MonadExceptOf.throw] at h
      split at h
      · contradiction
      split at h
      · contradiction
      split at h
      · contradiction
      split at h
      · contradiction
      split at h
      · contradiction
      · cases h
        exact ⟨rfl,rfl⟩
  · contradiction

/- Names are keys, and a redirect has to stay at its origin. -/
structure Accepted (profiles : List WebAccessAuthProfile) : Prop where
  names : (profiles.map WebAccessAuthProfile.name).Nodup
  redirects : ∀ profile ∈ profiles, profile.redirects = js "same-origin"

theorem Accepted.distinct {profiles : List WebAccessAuthProfile} (h : Accepted profiles) : profiles.Nodup :=
  h.names.of_map _

theorem setAccepted {out : List WebAccessAuthProfile} {profile : WebAccessAuthProfile} (h : Accepted out)
    (same : profile.redirects = js "same-origin") : Accepted (setProfile out profile) := by
  unfold setProfile
  split
  · constructor
    · have kept : (out.map fun old => if old.name = profile.name then profile else old).map WebAccessAuthProfile.name =
          out.map WebAccessAuthProfile.name := by
        rw [List.map_map]
        refine List.map_congr_left fun old _ => ?_
        dsimp only [Function.comp]
        split
        · rename_i equal
          exact equal.symm
        · rfl
      rw [kept]
      exact h.names
    · intro other member
      obtain ⟨old,inside,rfl⟩ := List.mem_map.mp member
      split
      · exact same
      · exact h.redirects old inside
  · rename_i fresh
    constructor
    · rw [List.map_append,List.nodup_append]
      refine ⟨h.names,List.nodup_singleton _,?_⟩
      intro name old other new equal
      obtain ⟨one,inside,rfl⟩ := List.mem_map.mp old
      rw [List.map_singleton,List.mem_singleton] at new
      exact fresh (List.any_eq_true.mpr ⟨one,inside,by rw [equal,new]; exact beq_self_eq_true _⟩)
    · intro other member
      cases List.mem_append.mp member with
      | inl old => exact h.redirects other old
      | inr new => exact List.mem_singleton.mp new ▸ same

theorem entriesAccepted {entries : List (JsString × JsValue)} {out profiles : List WebAccessAuthProfile} (h : Accepted out)
    (parsed : parseEntries toLowerCase out entries = .ok profiles) : Accepted profiles := by
  induction entries generalizing out with
  | nil =>
    cases parsed
    exact h
  | cons entry later ih =>
    obtain ⟨name,value⟩ := entry
    unfold parseEntries at parsed
    split at parsed
    · contradiction
    · rename_i profile here
      exact ih (setAccepted h (profileShape here).2) parsed

theorem profilesAccepted {json : JsString → Option JsValue} {raw : Option JsString} {profiles : List WebAccessAuthProfile}
    (h : parseWebAccessAuthProfiles toLowerCase json raw = .ok profiles) : Accepted profiles := by
  have none : Accepted [] := ⟨List.nodup_nil,nofun⟩
  unfold parseWebAccessAuthProfiles at h
  split at h
  · cases h
    exact none
  split at h
  · split at h
    · contradiction
    · exact entriesAccepted none h
  · contradiction

end Accepted

/- A host of the profile that matches, longer than every matching host of another profile. -/
def MostSpecific (hostname : JsString) (profiles : List WebAccessAuthProfile) (profile : WebAccessAuthProfile) : Prop :=
  profile ∈ profiles ∧ ∃ host ∈ profile.hosts, hostMatches hostname host ∧
    ∀ other ∈ profiles, other ≠ profile → ∀ rival ∈ other.hosts, hostMatches hostname rival → rival.length < host.length

section Specific
variable {hostname : JsString}

theorem foldMost (hosts : List JsString) (least : Int) {n : Int} :
    hosts.foldl (fun (most : Int) host => if hostMatches hostname host then max most host.length else most) least ≤ n ↔
      least ≤ n ∧ ∀ host ∈ hosts, hostMatches hostname host → (host.length : Int) ≤ n := by
  induction hosts generalizing least with
  | nil => simp
  | cons host later ih =>
    rw [List.foldl_cons,ih,List.forall_mem_cons]
    split
    · rename_i matches_
      rw [max_le_iff]
      constructor
      · intro all
        exact ⟨all.1.1,fun _ => all.1.2,all.2⟩
      · intro all
        exact ⟨⟨all.1,all.2.1 matches_⟩,all.2.2⟩
    · rename_i apart
      constructor
      · intro all
        exact ⟨all.1,fun matches_ => absurd matches_ apart,all.2⟩
      · intro all
        exact ⟨all.1,all.2.2⟩

theorem specificityLe {profile : WebAccessAuthProfile} {n : Int} (floor : -1 ≤ n) :
    specificity hostname profile ≤ n ↔ ∀ host ∈ profile.hosts, hostMatches hostname host → (host.length : Int) ≤ n := by
  unfold specificity
  rw [foldMost]
  exact and_iff_right floor

theorem specificityReached {profile : WebAccessAuthProfile} (matches_ : 0 ≤ specificity hostname profile) :
    ∃ host ∈ profile.hosts, hostMatches hostname host ∧ (host.length : Int) = specificity hostname profile := by
  by_contra none
  have less : specificity hostname profile ≤ specificity hostname profile - 1 := by
    refine (specificityLe (by omega)).mpr fun host member here => ?_
    have upper := (specificityLe (by omega)).mp (le_refl (specificity hostname profile)) host member here
    by_contra more
    exact none ⟨host,member,here,by omega⟩
  omega

theorem mostSpecificIff {profiles : List WebAccessAuthProfile} {profile : WebAccessAuthProfile} :
    (profile ∈ profiles ∧ 0 ≤ specificity hostname profile ∧
      ∀ other ∈ profiles, other ≠ profile → specificity hostname other < specificity hostname profile) ↔
    MostSpecific hostname profiles profile := by
  unfold MostSpecific
  refine and_congr_right fun _ => ?_
  constructor
  · intro beats
    obtain ⟨matches_,rest⟩ := beats
    obtain ⟨host,member,here,length⟩ := specificityReached matches_
    refine ⟨host,member,here,fun other there apart rival inside also => ?_⟩
    have less := rest other there apart
    have upper := (specificityLe (n := specificity hostname profile - 1) (by omega)).mp (by omega) rival inside also
    omega
  · intro longest
    obtain ⟨host,member,here,rest⟩ := longest
    have upper : (host.length : Int) ≤ specificity hostname profile := by
      by_contra more
      have below := (specificityLe (n := (host.length : Int) - 1) (by omega)).mp (by omega) host member here
      omega
    refine ⟨by omega,fun other there apart => ?_⟩
    have below : specificity hostname other ≤ (host.length : Int) - 1 := by
      refine (specificityLe (by omega)).mpr fun rival inside also => ?_
      have less := rest other there apart rival inside also
      omega
    omega

end Specific
end Northstar.Network.Auth
