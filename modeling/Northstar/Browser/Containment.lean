import Northstar.Browser.LoopbackProxy

/-! Where the proxy connects to. An allowed target has the policy's origin, and so its port;
each handler takes the port and TLS from the target's own scheme again. -/
namespace Northstar.Browser
open Network

section
variable {parse : UrlParser} {number : JsString → ScriptNumber} {policy : LoopbackDebugPolicy}
  {pinned : List JsString}

/- The URL a policy was read from. -/
structure PolicySource (policy : LoopbackDebugPolicy) (url : Url) : Prop where
  scheme : url.protocol = http ∨ url.protocol = https
  origin : policy.origin = url.origin
  protocol : policy.protocol = url.protocol
  port : policy.port = url.portNumber (standardPort url.protocol)

theorem policySource {raw : JsString} (h : parseLoopbackDebugTarget parse raw = some policy) :
    ∃ url, PolicySource policy url := by
  simp only [parseLoopbackDebugTarget,bind,Option.bind_eq_some_iff] at h
  obtain ⟨url,_,h⟩ := h
  split at h
  · exact absurd h nofun
  rename_i scheme
  split at h
  · exact absurd h nofun
  split at h
  · exact absurd h nofun
  cases Option.some.inj h
  refine ⟨url,?_,rfl,rfl,rfl⟩
  by_cases plain : url.protocol = http
  · exact .inl plain
  · exact .inr (not_not.mp fun other => scheme ⟨plain,other⟩)

/- An allowed target, in one of four schemes and at the policy's host and port. -/
structure Allowed (policy : LoopbackDebugPolicy) (url : Url) : Prop where
  scheme : (url.protocol = http ∨ url.protocol = ws) ∧ policy.protocol = http ∨
    (url.protocol = https ∨ url.protocol = wss) ∧ policy.protocol = https
  port : ∀ standard, (policy.protocol = http → standard = 80) → (policy.protocol = https → standard = 443) →
    url.portNumber standard = policy.port

theorem schemesApart : http ≠ https ∧ http ≠ ws ∧ http ≠ wss ∧ https ≠ ws ∧ https ≠ wss ∧ ws ≠ wss := by
  decide

theorem standardPorts : standardPort http = 80 ∧ standardPort https = 443 := by decide

theorem allowedSource {raw target : JsString} (h : parseLoopbackDebugTarget parse raw = some policy)
    (allowed : isAllowedLoopbackRequest parse policy target) :
    ∃ url, parse target none = some url ∧ Allowed policy url := by
  obtain ⟨source,from_⟩ := policySource h
  unfold isAllowedLoopbackRequest at allowed
  split at allowed
  · exact absurd allowed (by decide)
  rename_i url read
  obtain ⟨protocol,effective,same⟩ := (Option.any_eq_true ..).mp allowed
  have same := of_decide_eq_true same
  have kind : (url.protocol = http ∨ url.protocol = ws) ∧ protocol = http ∨
      (url.protocol = https ∨ url.protocol = wss) ∧ protocol = https := by
    unfold effectiveProtocol at effective
    split at effective
    · rename_i socket
      exact .inl ⟨.inr socket,(Option.some.inj effective).symm⟩
    split at effective
    · rename_i socket
      exact .inr ⟨.inr socket,(Option.some.inj effective).symm⟩
    split at effective
    · rename_i web
      cases Option.some.inj effective
      exact web.imp (fun plain => ⟨.inl plain,plain⟩) fun secure => ⟨.inl secure,secure⟩
    · exact absurd effective nofun
  have known : protocol = http ∨ protocol = https := kind.imp And.right And.right
  obtain ⟨scheme,host⟩ := schemeParts known from_.scheme (same.trans from_.origin)
  obtain ⟨_,port⟩ := hostParts host
  have policyScheme : policy.protocol = protocol := from_.protocol.trans scheme.symm
  refine ⟨url,read,?_,?_⟩
  · rw [policyScheme]
    exact kind
  · intro standard plain secure
    have standards : standard = standardPort source.protocol := by
      rw [← from_.protocol]
      cases known with
      | inl web =>
        rw [plain (policyScheme.trans web),policyScheme,web,standardPorts.1]
      | inr tls =>
        rw [secure (policyScheme.trans tls),policyScheme,tls,standardPorts.2]
    rw [from_.port,Url.portNumber,Url.portNumber,port,standards]

/- A connection the policy allows: to a pinned loopback address and the policy's port, and,
where the proxy speaks the protocol itself, with TLS exactly under an https origin. -/
def Contained (policy : LoopbackDebugPolicy) (pinned : List JsString) (speaks : Bool) : ProxyOp → Prop
  | .lookup _ => True
  | .connect upstream => upstream.ip ∈ pinned ∧ isLoopbackAddress upstream.ip ∧ upstream.port = policy.port ∧
      (speaks → (upstream.tls ↔ policy.protocol = https))

def speaks : ProxiedRequest → Bool
  | .connect _ => false
  | _ => true

def schemePort (url : Url) : Nat := if url.protocol = http ∨ url.protocol = ws then 80 else 443

/- When a handler takes the port and TLS its target's origin has: an HTTP target has not the
scheme wss, an upgrade not the scheme https, and the host of a CONNECT target does not move
the port out of the URL it is tried as. -/
def Derives (parse : UrlParser) (number : JsString → ScriptNumber) (policy : LoopbackDebugPolicy) :
    ProxiedRequest → Prop
  | .http target _ => target ≠ [] → isAllowedLoopbackRequest parse policy target →
      ∀ url, parse target none = some url → url.protocol ≠ wss
  | .upgrade target _ => target ≠ [] → isAllowedLoopbackRequest parse policy target →
      ∀ url, parse target none = some url → url.protocol ≠ https
  | .connect target => ∀ host port, connectTarget number target = some (host,.whole port) → host ≠ [] →
      1 ≤ port → port ≤ 65535 → isAllowedLoopbackRequest parse policy (probeUrl host (.whole port)) →
      ∀ url, parse (probeUrl host (.whole port)) none = some url → port.toNat = url.portNumber (schemePort url)

theorem pinnedLoopback {answer : List JsString} (h : pinAddresses answer = some pinned) :
    pinned ≠ [] ∧ ∀ ip ∈ pinned, isLoopbackAddress ip := by
  unfold pinAddresses at h
  dsimp only at h
  split at h
  · exact absurd h nofun
  · rename_i some_
    cases Option.some.inj h
    exact ⟨some_,fun ip member => (List.mem_filter.mp member).2⟩

theorem verifiedAll (hostname : JsString) {β : Type} {P : ProxyOp → Prop} (free : ∀ h, P (.lookup h))
    {next : Option (List JsString) → Proxying β}
    (rest : ∀ ips, (∀ found, ips = some found → ∀ ip ∈ found, ip ∈ pinned) → (next ips).All P fun _ => True) :
    (verifyAgainstPin pinned hostname >>= next).All P fun _ => True := by
  refine ⟨free _,fun answer => rest _ ?_⟩
  intro found same ip member
  obtain ⟨_,fine⟩ := Option.filter_eq_some_iff.mp same
  simp only [Bool.and_eq_true,List.all_eq_true] at fine
  exact List.contains_iff_mem.mp (fine.2 ip member)

theorem connectedAll {β : Type} {P : ProxyOp → Prop} {port : Nat} {tls : Bool} {servername : Option JsString}
    {ips : List JsString} (each : ∀ ip ∈ ips, P (.connect ⟨ip,port,tls,servername⟩)) {next : Bool → Proxying β}
    (rest : ∀ connected, (next connected).All P fun _ => True) :
    (connectUpstream port tls servername ips >>= next).All P fun _ => True := by
  induction ips with
  | nil => exact rest false
  | cons ip more ih =>
    refine ⟨each ip List.mem_cons_self,fun connected => ?_⟩
    cases connected with
    | true => exact rest true
    | false => exact ih fun ip member => each ip (List.mem_cons_of_mem _ member)

/- What can happen does: a pinned address is the answer, and it is connected to. -/
theorem verifiedSome (hostname : JsString) {β : Type} {P : ProxyOp → Prop} {ip : JsString} (member : ip ∈ pinned)
    {next : Option (List JsString) → Proxying β}
    (h : (verifyAgainstPin pinned hostname >>= next).All P fun _ => True) :
    (next (some [ip])).All P fun _ => True := by
  have answered : (next ((some [ip]).filter fun addresses => addresses ≠ [] && addresses.all pinned.contains)).All
      P fun _ => True := h.2 (some [ip])
  have kept : (some [ip]).filter (fun addresses => addresses ≠ [] && addresses.all pinned.contains) =
      some [ip] := by
    simp [Option.filter,member]
  rwa [kept] at answered

theorem connectedSome {β : Type} {P : ProxyOp → Prop} {port : Nat} {tls : Bool} {servername : Option JsString}
    {ip : JsString} {next : Bool → Proxying β}
    (h : (connectUpstream port tls servername [ip] >>= next).All P fun _ => True) :
    P (.connect ⟨ip,port,tls,servername⟩) := h.1

/- TLS under one secure scheme is right unless the target has the other. -/
theorem secureScheme {url : Url} (allowed : Allowed policy url) {own other : JsString}
    (kinds : own = https ∧ other = wss ∨ own = wss ∧ other = https) :
    (url.protocol = own ↔ policy.protocol = https) ↔ url.protocol ≠ other := by
  obtain ⟨plain,_,httpWss,httpsWs,_,sockets⟩ := schemesApart
  rcases allowed.scheme with ⟨web,http_⟩ | ⟨tls,https_⟩
  · have insecure : url.protocol ≠ https ∧ url.protocol ≠ wss := by
      rcases web with web | web
      · exact ⟨fun same => plain (web.symm.trans same),fun same => httpWss (web.symm.trans same)⟩
      · exact ⟨fun same => httpsWs (same.symm.trans web),fun same => sockets (web.symm.trans same)⟩
    have notOwn : url.protocol ≠ own := by
      rcases kinds with ⟨rfl,rfl⟩ | ⟨rfl,rfl⟩
      · exact insecure.1
      · exact insecure.2
    have notOther : url.protocol ≠ other := by
      rcases kinds with ⟨rfl,rfl⟩ | ⟨rfl,rfl⟩
      · exact insecure.2
      · exact insecure.1
    exact ⟨fun _ => notOther,fun _ => ⟨fun same => absurd same notOwn,
      fun same => absurd (http_.symm.trans same) plain⟩⟩
  · have apart : own ≠ other := by
      rcases kinds with ⟨rfl,rfl⟩ | ⟨rfl,rfl⟩ <;> decide
    have one : url.protocol = own ∨ url.protocol = other := by
      rcases kinds with ⟨rfl,rfl⟩ | ⟨rfl,rfl⟩
      · exact tls
      · exact tls.symm
    constructor
    · intro agrees same
      exact apart ((agrees.mpr https_).symm.trans same)
    · intro not_
      exact ⟨fun _ => https_,fun _ => one.resolve_right not_⟩

/- The port under one secure scheme is right where TLS is. -/
theorem securePort {url : Url} (allowed : Allowed policy url) {own : JsString}
    (agrees : url.protocol = own ↔ policy.protocol = https) :
    url.portNumber (if decide (url.protocol = own) = true then 443 else 80) = policy.port := by
  apply allowed.port
  · intro web
    have not_ : url.protocol ≠ own := fun same => schemesApart.1 (web.symm.trans (agrees.mp same))
    simp [not_]
  · intro secure
    simp [agrees.mpr secure]

theorem relayContained {raw target : JsString} {answer : List JsString}
    (h : parseLoopbackDebugTarget parse raw = some policy) (pins : pinAddresses answer = some pinned)
    {own other : JsString} (kinds : own = https ∧ other = wss ∨ own = wss ∧ other = https)
    (blocked invalid unpinned failed : Relayed) (relayed : Url → Nat → Relayed) :
    (relay parse policy pinned own blocked invalid unpinned failed relayed target).All
        (Contained policy pinned true) (fun _ => True) ↔
      (target ≠ [] → isAllowedLoopbackRequest parse policy target →
        ∀ url, parse target none = some url → url.protocol ≠ other) := by
  obtain ⟨some_,loopback⟩ := pinnedLoopback pins
  unfold relay
  split
  · rename_i denied
    refine ⟨fun _ there allowed => ?_,fun _ => trivial⟩
    simp only [Bool.or_eq_true,decide_eq_true_eq,Bool.not_eq_true'] at denied
    exact absurd (allowed.symm.trans (denied.resolve_left there)) (by decide)
  rename_i passed
  simp only [Bool.or_eq_true,decide_eq_true_eq,Bool.not_eq_true',not_or,Bool.not_eq_false] at passed
  obtain ⟨url,read,allowed⟩ := allowedSource h passed.2
  rw [read]
  constructor
  · intro all _ _ found same
    cases Option.some.inj same
    obtain ⟨ip,member⟩ := List.exists_mem_of_ne_nil pinned some_
    obtain ⟨_,_,_,tls⟩ := connectedSome (verifiedSome url.hostname member all)
    exact (secureScheme allowed kinds).mp (by simpa using tls rfl)
  · intro derives
    have agrees := (secureScheme allowed kinds).mpr (derives passed.1 passed.2 url rfl)
    refine verifiedAll _ (fun _ => trivial) fun ips within => ?_
    cases ips with
    | none => trivial
    | some ips =>
      refine connectedAll (fun ip member => ?_) fun connected => by cases connected <;> trivial
      have known := within ips rfl ip member
      exact ⟨known,loopback ip known,securePort allowed agrees,fun _ => by simpa using agrees⟩

theorem connectContained {raw target : JsString} {answer : List JsString}
    (h : parseLoopbackDebugTarget parse raw = some policy) (pins : pinAddresses answer = some pinned) :
    (handleConnect parse number policy pinned target).All (Contained policy pinned false) (fun _ => True) ↔
      Derives parse number policy (.connect target) := by
  obtain ⟨some_,loopback⟩ := pinnedLoopback pins
  have standard {url : Url} (allowed : Allowed policy url) : url.portNumber (schemePort url) = policy.port := by
    obtain ⟨plain,_,httpWss,httpsWs,_,sockets⟩ := schemesApart
    apply allowed.port
    · intro web
      rcases allowed.scheme with ⟨kind,_⟩ | ⟨_,secure⟩
      · exact if_pos kind
      · exact absurd (web.symm.trans secure) plain
    · intro secure
      rcases allowed.scheme with ⟨_,web⟩ | ⟨kind,_⟩
      · exact absurd (web.symm.trans secure) plain
      · refine if_neg fun wrong => ?_
        rcases kind with one | one <;> rcases wrong with two | two <;>
          exact absurd (one.symm.trans two) (by decide)
  unfold handleConnect
  constructor
  · intro all host port split_ named low high allowed url read
    obtain ⟨found,same,source⟩ := allowedSource h allowed
    cases Option.some.inj (read.symm.trans same)
    have valid : ScriptNumber.isPort (.whole port) = true := by simp [ScriptNumber.isPort,low,high]
    rw [split_] at all
    simp only [named,valid,allowed,decide_false,Bool.not_true,Bool.or_self,Bool.false_eq_true,if_false] at all
    obtain ⟨ip,member⟩ := List.exists_mem_of_ne_nil pinned some_
    obtain ⟨_,_,agrees,_⟩ := connectedSome (verifiedSome host member all)
    exact agrees.trans (standard source).symm
  · intro derives
    split
    · trivial
    rename_i host port split_
    split
    · trivial
    rename_i passed
    split
    · trivial
    rename_i allowed
    simp only [Bool.or_eq_true,decide_eq_true_eq,Bool.not_eq_true',not_or,Bool.not_eq_false] at passed allowed
    refine verifiedAll host (fun _ => trivial) fun ips within => ?_
    cases ips with
    | none => trivial
    | some ips =>
      cases port with
      | whole port =>
        obtain ⟨low,high⟩ : 1 ≤ port ∧ port ≤ 65535 := by simpa [ScriptNumber.isPort] using passed.2
        obtain ⟨url,read,source⟩ := allowedSource h allowed
        have agrees := derives host port split_ passed.1 low high allowed url read
        refine connectedAll (fun ip member => ?_) fun connected => by cases connected <;> trivial
        have known := within ips rfl ip member
        exact ⟨known,loopback ip known,agrees.trans (standard source),nofun⟩
      | fraction text valid => trivial
      | notFinite => trivial

/-- Every connection a handler opens is to a pinned loopback address and the policy's port,
with TLS for requests and upgrades exactly under an https origin, for all answers to its
lookups, if and only if it derives port and TLS from its target as the target's origin does. -/
theorem proxyContained {raw : JsString} {answer : List JsString} (request : ProxiedRequest)
    (h : parseLoopbackDebugTarget parse raw = some policy) (pins : pinAddresses answer = some pinned) :
    (serve parse number policy pinned request).All (Contained policy pinned (speaks request)) (fun _ => True) ↔
      Derives parse number policy request := by
  cases request with
  | http target headers =>
    simp only [serve,handleHttpRequest,Derives,speaks]
    exact relayContained h pins (.inl ⟨rfl,rfl⟩) _ _ _ _ _
  | upgrade target headers =>
    simp only [serve,handleUpgrade,Derives,speaks]
    exact relayContained h pins (.inr ⟨rfl,rfl⟩) _ _ _ _ _
  | connect target => exact connectContained h pins

end

/- A parser that knows the origin of a local server and its socket. -/
def demoParser : UrlParser := fun text _ =>
  if text = js "https://localhost/" then
    some ⟨https,[],[],js "localhost",[],js "/",[],[],by decide,noPort⟩
  else if text = js "wss://localhost/" then
    some ⟨wss,[],[],js "localhost",[],js "/",[],[],by decide,noPort⟩
  else none

def demoPolicy : LoopbackDebugPolicy :=
  ⟨js "https://localhost/",js "https://localhost",js "localhost",https,443⟩

theorem demoTarget : parseLoopbackDebugTarget demoParser (js "https://localhost/") = some demoPolicy := by
  decide

theorem demoPins : pinAddresses [js "127.0.0.1"] = some [js "127.0.0.1"] := by decide

theorem pageContained : (serve demoParser (fun _ => .notFinite) demoPolicy [js "127.0.0.1"]
    (.http (js "https://localhost/") [])).All (Contained demoPolicy [js "127.0.0.1"] true) (fun _ => True) := by
  refine (proxyContained (.http (js "https://localhost/") []) demoTarget demoPins).mpr ?_
  intro _ _ url read
  have page : demoParser (js "https://localhost/") none =
      some ⟨https,[],[],js "localhost",[],js "/",[],[],by decide,by decide⟩ := if_pos rfl
  rw [← Option.some.inj (page.symm.trans read)]
  decide

/- A plain request for a socket URL of a secure origin goes to port 80 without TLS. -/
theorem socketPlain : ¬ ∀ (parse : UrlParser) (number : JsString → ScriptNumber) (policy : LoopbackDebugPolicy)
    (pinned raw : JsString) (request : ProxiedRequest), parseLoopbackDebugTarget parse raw = some policy →
      pinAddresses [pinned] = some [pinned] →
      (serve parse number policy [pinned] request).All (Contained policy [pinned] (speaks request)) fun _ => True := by
  intro always
  have all := always demoParser (fun _ => .notFinite) demoPolicy (js "127.0.0.1") (js "https://localhost/")
    (.http (js "wss://localhost/") []) demoTarget demoPins
  have allowed : isAllowedLoopbackRequest demoParser demoPolicy (js "wss://localhost/") = true := by decide
  have socket : demoParser (js "wss://localhost/") none =
      some ⟨wss,[],[],js "localhost",[],js "/",[],[],by decide,by decide⟩ := by decide
  simp only [serve,handleHttpRequest,relay,allowed,socket] at all
  obtain ⟨_,_,port,_⟩ := connectedSome (verifiedSome _ (List.mem_singleton_self _) all)
  exact absurd port (by decide)

end Northstar.Browser
