import Northstar.Network.AuthContract
import Northstar.Network.Redirects

/-! Fetching a page with cookies (web-access-auth-fetch.ts): every hop is validated and looked
up before the cookie goes out, and a redirect has to stay at the origin it comes from. The
cookie jar, the lookups and the responses are the surroundings; what is read of the last
response asks for nothing more. -/
namespace Northstar.Network.Auth

structure AuthRequest where
  url : JsString
  cookie : Option JsString
  resolved : JsString × List JsString
  deriving DecidableEq, Repr

/- What a hop meets: the answer to its lookup and the response, none where fetch rejects. -/
structure AuthHop where
  lookup : JsString → Lookup
  response : Option Response

def isRedirectStatus (status : Nat) : Bool := [300,301,302,303,305,307,308].contains status

section
variable (parse : UrlParser) (cookieHeaderForUrl : JsString → JsString → Option JsString) (world : Nat → AuthHop)

/- What follows the redirect of one hop: the next URL with the lookup made for it. -/
def authRedirect (profile : WebAccessAuthProfile) (lookup : JsString → Lookup) (current location : JsString) :
    Checked (JsString × (JsString × List JsString)) := match parse current none with
  | none => .error invalidUrl
  | some from_ => match (parse location (some current)).map fun url => validateHttpUrl parse url.href with
      | some (.ok next) => match parse next none with
          | none => .error invalidUrl
          | some to_ =>
              if to_.protocol ≠ https then .error (js "authenticated fetch requires HTTPS for every redirect hop")
              else match resolvePublicHostname to_.hostname lookup with
                | .error _ => .error (js "authenticated fetch redirect target blocked")
                | .ok addresses => match authFetchRedirectGuard profile from_ to_ with
                    | .error message => .error message
                    | .ok () => .ok (next,to_.hostname,addresses)
      | _ => .error (js "authenticated fetch redirect target rejected")

/- The loop, with the number of redirects it may still follow. -/
def authFollow (profile : WebAccessAuthProfile) : Nat → Nat → JsString → JsString × List JsString →
    List AuthRequest × Checked Response
  | left, hop, current, resolved => match assertByteStringHeaders
        ((cookieHeaderForUrl profile.provider current).toList.map fun cookie => (js "cookie",cookie)) with
      | .error message => ([],.error message)
      | .ok () =>
          let request : AuthRequest := ⟨current,cookieHeaderForUrl profile.provider current,resolved⟩
          match (world hop).response with
          | none => ([request],.error (js "fetch failed"))
          | some response =>
              if isRedirectStatus response.status then
                let location := response.location.getD []
                if location = [] then
                  ([request],.error (js "authenticated fetch redirect without a valid Location header"))
                else match left with
                  | 0 => ([request],.error (js "authenticated fetch exceeded the redirect limit"))
                  | left + 1 => match authRedirect parse profile (world (hop + 1)).lookup current location with
                      | .error message => ([request],.error message)
                      | .ok (next,resolved) =>
                          let rest := authFollow profile left (hop + 1) next resolved
                          (request :: rest.1,rest.2)
              else if response.status < 200 ∨ 300 ≤ response.status then
                ([request],.error (js "authenticated fetch request failed with HTTP " ++ js (toString response.status)))
              else ([request],.ok response)

def fetchAuthenticatedReadablePage (toLowerCase : JsString → JsString) (rawUrl : JsString) (profile : WebAccessAuthProfile) :
    List AuthRequest × Checked Response := match assertAuthFetchUrl toLowerCase parse profile rawUrl with
  | .error message => ([],.error message)
  | .ok _ => match validateHttpUrl parse rawUrl with
      | .error message => ([],.error message)
      | .ok current => match preflight parse (world 0).lookup current with
          | .error message => ([],.error message)
          | .ok resolved => authFollow parse cookieHeaderForUrl world profile maxAuthRedirects 0 current resolved

end

/- White space around a web URL is no part of its origin. -/
def Trims (parse : UrlParser) : Prop := ∀ text url tight, parse text none = some url → url.protocol = https →
  parse (trim text) none = some tight → tight.origin = url.origin ∧ tight.protocol = https

/- A request to a hop that was checked: public, secure, at the origin and looked up. -/
structure Contained (parse : UrlParser) (origin : JsString) (lookup : JsString → Lookup) (r : AuthRequest) (url : Url) : Prop where
  target : Public parse r.url url
  secure : url.protocol = https
  origin : url.origin = origin
  resolved : Resolved lookup url (some r.resolved)

section
variable {parse : UrlParser} {cookieHeaderForUrl : JsString → JsString → Option JsString} {world : Nat → AuthHop}

theorem redirectContained (serialises : Serialises parse) {profile : WebAccessAuthProfile}
    (guarded : profile.redirects = js "same-origin") {lookup : JsString → Lookup} {current location next : JsString}
    {resolved : JsString × List JsString} {url : Url} (here : parse current none = some url)
    (h : authRedirect parse profile lookup current location = .ok (next,resolved)) (cookie : Option JsString) :
    ∃ to_, Contained parse url.origin lookup ⟨next,cookie,resolved⟩ to_ := by
  unfold authRedirect at h
  rw [here] at h
  dsimp only at h
  split at h
  · rename_i text valid
    obtain ⟨target,found,validates⟩ := Option.map_eq_some_iff.mp valid
    obtain ⟨to_,public_⟩ := validated serialises validates
    rw [public_.reads] at h
    dsimp only at h
    split at h
    · contradiction
    rename_i secure
    split at h
    · contradiction
    rename_i addresses answered
    split at h
    · contradiction
    rename_i stays
    cases h
    obtain ⟨_,looked,some_,open_⟩ := resolvedPublic answered
    refine ⟨to_,public_,not_not.mp secure,?_,⟨addresses,rfl,some_,looked,open_⟩⟩
    unfold authFetchRedirectGuard at stays
    split at stays
    · contradiction
    · rename_i same
      by_contra apart
      exact same ⟨guarded,apart⟩
  · contradiction

/- From a hop that was checked on. -/
theorem authFollowed (serialises : Serialises parse) {profile : WebAccessAuthProfile}
    (guarded : profile.redirects = js "same-origin") {origin : JsString} (left hop : Nat) {current : JsString}
    {resolved : JsString × List JsString}
    (checked : ∀ cookie, ∃ url, Contained parse origin (world hop).lookup ⟨current,cookie,resolved⟩ url) :
    (authFollow parse cookieHeaderForUrl world profile left hop current resolved).1.length ≤ left + 1 ∧
    ∀ i r, (authFollow parse cookieHeaderForUrl world profile left hop current resolved).1[i]? = some r →
      ∃ url, Contained parse origin (world (hop + i)).lookup r url := by
  have single : ∀ i r, [(⟨current,cookieHeaderForUrl profile.provider current,resolved⟩ : AuthRequest)][i]? = some r →
      ∃ url, Contained parse origin (world (hop + i)).lookup r url := by
    intro i r there
    cases i with
    | zero =>
      cases Option.some.inj there
      exact checked _
    | succ i => exact absurd there (by simp)
  induction left generalizing hop current resolved with
  | zero =>
    unfold authFollow
    split
    · exact ⟨Nat.zero_le _,fun i r there => absurd there (by simp)⟩
    dsimp only
    split
    · exact ⟨Nat.le_refl _,single⟩
    split
    · split <;> exact ⟨Nat.le_refl _,single⟩
    · split <;> exact ⟨Nat.le_refl _,single⟩
  | succ left ih =>
    have short : [(⟨current,cookieHeaderForUrl profile.provider current,resolved⟩ : AuthRequest)].length ≤ left + 1 + 1 :=
      Nat.succ_le_succ (Nat.zero_le _)
    unfold authFollow
    split
    · exact ⟨Nat.zero_le _,fun i r there => absurd there (by simp)⟩
    dsimp only
    split
    · exact ⟨short,single⟩
    split
    · split
      · exact ⟨short,single⟩
      split
      · exact ⟨short,single⟩
      · rename_i next found redirected_
        obtain ⟨url,here⟩ := checked none
        have further (cookie : Option JsString) := redirectContained serialises guarded here.target.reads redirected_ cookie
        rw [here.origin] at further
        obtain ⟨few,rest⟩ := ih (hop + 1) further (by
          intro i r there
          cases i with
          | zero =>
            cases Option.some.inj there
            exact further _
          | succ i => exact absurd there (by simp))
        refine ⟨Nat.succ_le_succ few,?_⟩
        intro i r there
        cases i with
        | zero => exact single 0 r there
        | succ i =>
          have later := rest i r there
          rwa [Nat.add_assoc,Nat.add_comm 1 i] at later
    · split <;> exact ⟨short,single⟩

end

theorem sameHost {to_ first : Url} (secure : to_.protocol = https) (secure' : first.protocol = https)
    (same : to_.origin = first.origin) : to_.hostname = first.hostname := by
  unfold Url.origin at same
  exact (hostParts (schemeParts (.inr secure) (.inr secure') same).2).1

/-- Under a profile of an accepted map every request goes to the origin of the first URL, at a
host of the profile, over HTTPS, after its own hop was validated and looked up to public
addresses only; there are six at most; and the profile chosen for a URL is the one with the
longest matching host, whatever the order. -/
theorem authContained {parse : UrlParser} (serialises : Serialises parse) (trims : Trims parse)
    (toLowerCase : JsString → JsString) (json : JsString → Option JsValue) (raw : Option JsString)
    (profiles : List WebAccessAuthProfile) (accepted : parseWebAccessAuthProfiles toLowerCase json raw = .ok profiles)
    (cookieHeaderForUrl : JsString → JsString → Option JsString) (world : Nat → AuthHop) (rawUrl : JsString) :
    (∀ profile ∈ profiles,
      (fetchAuthenticatedReadablePage parse cookieHeaderForUrl world toLowerCase rawUrl profile).1.length ≤ maxAuthRedirects + 1 ∧
      ∀ i r, (fetchAuthenticatedReadablePage parse cookieHeaderForUrl world toLowerCase rawUrl profile).1[i]? = some r →
        ∃ first url, parse rawUrl none = some first ∧ Contained parse first.origin (world i).lookup r url ∧
          ∃ host ∈ profile.hosts, hostMatches (normalizeHostname toLowerCase url.hostname) host) ∧
    (∀ url, parse rawUrl none = some url → ∀ profile,
      resolveAuthProfileForUrl toLowerCase parse rawUrl profiles = some profile ↔
        MostSpecific (normalizeHostname toLowerCase url.hostname) profiles profile) ∧
    ∀ others, profiles.Perm others →
      resolveAuthProfileForUrl toLowerCase parse rawUrl others = resolveAuthProfileForUrl toLowerCase parse rawUrl profiles := by
  have fine := profilesAccepted accepted
  refine ⟨?_,?_,?_⟩
  · intro profile member
    unfold fetchAuthenticatedReadablePage
    split
    · exact ⟨Nat.zero_le _,fun i r there => absurd there (by simp)⟩
    rename_i first allowed
    unfold assertAuthFetchUrl at allowed
    split at allowed
    · contradiction
    rename_i url read
    split at allowed
    · contradiction
    rename_i secure
    split at allowed
    · rename_i matches_
      cases allowed
      split
      · exact ⟨Nat.zero_le _,fun i r there => absurd there (by simp)⟩
      rename_i current valid
      split
      · exact ⟨Nat.zero_le _,fun i r there => absurd there (by simp)⟩
      rename_i resolved flown
      obtain ⟨tight,tightRead,public_⟩ := validatedFrom serialises valid
      obtain ⟨origin,web⟩ := trims rawUrl first tight read (not_not.mp secure) tightRead
      have checked (cookie : Option JsString) :
          ∃ to_, Contained parse first.origin (world 0).lookup ⟨current,cookie,resolved⟩ to_ :=
        ⟨tight,public_,web,origin,preflighted public_.reads flown⟩
      obtain ⟨few,every⟩ := @authFollowed parse cookieHeaderForUrl world serialises _
        (fine.redirects profile member) _ maxAuthRedirects 0 _ _ checked
      refine ⟨few,fun i r there => ?_⟩
      obtain ⟨to_,held⟩ := every i r there
      rw [Nat.zero_add] at held
      obtain ⟨host,inside,here⟩ := List.any_eq_true.mp matches_
      refine ⟨first,to_,read,held,host,inside,?_⟩
      rw [sameHost held.secure (not_not.mp secure) held.origin]
      exact here
    · contradiction
  · intro url read profile
    unfold resolveAuthProfileForUrl
    rw [read]
    dsimp only
    rw [Incumbent.answerIff _ fine.distinct,mostSpecificIff]
  · intro others same
    unfold resolveAuthProfileForUrl
    split
    · rfl
    · exact Incumbent.answerPerm _ fine.distinct same

def watchPage : Url := ⟨https,[],[],js "www.youtube.com",[],js "/watch",[],[],by decide,noPort⟩

def feedPage : Url := ⟨https,[],[],js "www.youtube.com",[],js "/feed",[],[],by decide,noPort⟩

/- A parser that knows the two pages. -/
def pageParser : UrlParser := fun text _ =>
  if text = watchPage.href then some watchPage else if text = feedPage.href then some feedPage else none

theorem pageKnown {text : JsString} {base : Option JsString} {url : Url} (read : pageParser text base = some url) :
    (text = watchPage.href ∧ url = watchPage) ∨ (text = feedPage.href ∧ url = feedPage) := by
  unfold pageParser at read
  split at read
  · rename_i here
    exact .inl ⟨here,(Option.some.inj read).symm⟩
  split at read
  · rename_i here
    exact .inr ⟨here,(Option.some.inj read).symm⟩
  · contradiction

set_option maxRecDepth 16384 in
theorem pageSerialises : Serialises pageParser := by
  intro text base url read _
  cases pageKnown read with
  | inl known =>
    rw [known.2]
    decide
  | inr known =>
    rw [known.2]
    decide

set_option maxRecDepth 16384 in
theorem pageTrims : Trims pageParser := by
  intro text url tight read _ tightRead
  have whole : trim text = text := by
    cases pageKnown read with
    | inl known =>
      rw [known.1]
      decide
    | inr known =>
      rw [known.1]
      decide
  rw [whole,read] at tightRead
  cases Option.some.inj tightRead
  cases pageKnown read with
  | inl known =>
    rw [known.2]
    exact ⟨rfl,rfl⟩
  | inr known =>
    rw [known.2]
    exact ⟨rfl,rfl⟩

def latinLower (text : JsString) : JsString := text.map fun u => if 65 ≤ u && u ≤ 90 then u + 32 else u

def tubeProfile : WebAccessAuthProfile :=
  ⟨js "tube",js "youtube",[js "youtube.com",js "www.youtube.com"],js "same-origin",.off⟩

def tubeConfig : JsValue :=
  .object [(js "tube",.object [(js "provider",.string (js "youtube")),
    (js "hosts",.array [.string (js "YouTube.com"),.string (js "www.youtube.com")])])]

/- The watch page redirects to the feed. -/
def tubeWorld (hop : Nat) : AuthHop :=
  ⟨fun _ => .answered [js "142.250.74.46"],some (if hop = 0 then ⟨302,some feedPage.href⟩ else ⟨200,none⟩)⟩

def tubeLog : List AuthRequest :=
  (fetchAuthenticatedReadablePage pageParser (fun _ _ => some (js "SID=1")) tubeWorld latinLower watchPage.href tubeProfile).1

theorem feedContained : (tubeLog[1]?.bind fun r => pageParser r.url none).any (fun url => url.origin == watchPage.origin) = true := by
  have contained := ((authContained pageSerialises pageTrims latinLower (fun _ => some tubeConfig) (some (js "profiles"))
    [tubeProfile] (by decide +kernel) (fun _ _ => some (js "SID=1")) tubeWorld watchPage.href).1 tubeProfile
    (List.mem_singleton_self _)).2
  have second : ∃ r, tubeLog[1]? = some r := Option.isSome_iff_exists.mp (by decide +kernel)
  obtain ⟨r,there⟩ := second
  obtain ⟨first,url,read,held,_⟩ := contained 1 r there
  have known : first = watchPage := Option.some.inj (read.symm.trans (by decide +kernel))
  rw [there,Option.bind_some,held.target.reads,Option.any_some,held.origin,known]
  exact beq_self_eq_true _

end Northstar.Network.Auth
