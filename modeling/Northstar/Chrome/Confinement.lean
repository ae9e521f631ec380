import Northstar.Network.Url
import Northstar.Network.Addresses

/-! Confinement of a tab to one host (service_worker.js): the check before a navigation, and the rules that are installed
for the host and match the text of a URL. -/
namespace Northstar.Chrome.Confinement
open Network (Url UrlParser digit http https lowerUnit toLowerCase lastColon notPorted digitPlain)

def isNonEmptyString (s : JsString) : Bool := (trim s).length > 0

/- `.replace(/\.$/, '')`. -/
def dropDot (s : JsString) : JsString := if s.getLast? = some 46 then s.dropLast else s

section Lowering

/- String.prototype.toLowerCase. -/
variable (lower : JsString → JsString)

def navigationMatchesFrozenHost (parse : UrlParser) (rawUrl frozenHostname : JsString) : Bool :=
  if !isNonEmptyString rawUrl || !isNonEmptyString frozenHostname then false
  else match parse rawUrl none with
    | none => false
    | some parsed =>
        let protocol := lower parsed.protocol
        if protocol ≠ http ∧ protocol ≠ https then false
        else
          let actual := dropDot (lower parsed.hostname)
          let frozen := dropDot (lower (trim frozenHostname))
          actual.length > 0 && actual = frozen

/- `/[.*+?^${}()|[\]\\]/`. -/
def special (u : UInt16) : Bool := (js ".*+?^$()|[]\\" ++ [123,125]).contains u

def escaped (host : JsString) : JsString := host.flatMap fun u => if special u then [92,u] else [u]

def dnrResourceTypes : List String := ["main_frame","sub_frame","stylesheet","script","image","font","object","xmlhttprequest","ping",
  "csp_report","media","websocket","webtransport","webbundle","other"]

inductive RuleAction where
  | block
  | allow
  deriving DecidableEq

inductive UrlCondition where
  | urlFilter (text : JsString)
  | regexFilter (text : JsString)

structure DnrRule where
  id : Nat
  priority : Nat
  action : RuleAction
  condition : UrlCondition
  tabIds : List Nat
  resourceTypes : List String

def regexFront : JsString := js "^https?://"
def regexBack : JsString := js "(:[0-9]+)?([/?#]|$)"

def buildDnrRules (frozenHostname : JsString) (tabId base : Nat) : List DnrRule :=
  let host := lower frozenHostname
  [⟨base,1,.block,.urlFilter (js "*"),[tabId],dnrResourceTypes⟩,
    ⟨base + 1,2,.allow,.regexFilter (regexFront ++ escaped host ++ regexBack),[tabId],dnrResourceTypes⟩]

/- The allow rule for a host. -/
def allowRule (frozenHostname : JsString) (tabId base : Nat) : Option DnrRule :=
  (buildDnrRules lower frozenHostname tabId base).find? fun rule => rule.action = .allow

end Lowering

/- The text that a literal pattern stands for: a special character only behind a backslash. -/
def literal : JsString → Option JsString
  | [] => some []
  | 92 :: u :: rest => if special u then (literal rest).map (u :: ·) else none
  | u :: rest => if special u then none else (literal rest).map (u :: ·)

/- `[/?#]|$`. -/
def closes (text : JsString) : Bool := match text.head? with
  | none => true
  | some u => u = 47 || u = 63 || u = 35

/- `(:[0-9]+)?([/?#]|$)`: a port takes all its digits, no digit closes. -/
def portCloses (text : JsString) : Bool := closes text || match text with
  | [] => false
  | u :: rest => u = 58 && rest.takeWhile digit ≠ [] && closes (rest.dropWhile digit)

/- `^https?://` and a host in front of that. -/
def hostMatches (host url : JsString) : Bool := [js "http://",js "https://"].any fun scheme =>
  (scheme ++ host).isPrefixOf url && portCloses (url.drop (scheme ++ host).length)

/- The patterns of that form, and the filter for every URL; no others are built here. -/
def UrlCondition.matches : UrlCondition → JsString → Bool
  | .urlFilter text,_ => text = js "*"
  | .regexFilter text,url =>
      if regexFront <+: text ∧ regexBack <:+ text then
        match literal ((text.drop regexFront.length).take (text.length - regexFront.length - regexBack.length)) with
        | some host => hostMatches host url
        | none => false
      else false

structure NetworkRequest where
  url : JsString
  tabId : Nat
  resourceType : String

def DnrRule.matches (rule : DnrRule) (request : NetworkRequest) : Bool :=
  rule.condition.matches request.url && rule.tabIds.contains request.tabId && rule.resourceTypes.contains request.resourceType

def DnrRule.outranks (rule : DnrRule) : Option DnrRule → Bool
  | none => true
  | some best => best.priority < rule.priority

/- Of the rules that match, the first of the highest priority decides. -/
def decision (rules : List DnrRule) (request : NetworkRequest) : Option RuleAction :=
  ((rules.filter (·.matches request)).foldl (fun best rule => if rule.outranks best then some rule else best) none).map DnrRule.action

/- Units that stand in the authority of a URL without ending it. -/
def inside (u : UInt16) : Prop := u ≠ 47 ∧ u ≠ 63 ∧ u ≠ 35

/- A unit that toLowerCase leaves alone. -/
def lowered (u : UInt16) : Prop := u < 128 ∧ lowerUnit u = u

/- What the parser promises of a URL of the web and of its text. -/
structure Serialised (url : Url) : Prop where
  hostname : ∀ u ∈ url.hostname, inside u ∧ u ≠ 64 ∧ lowered u
  credentials : ∀ u ∈ url.username ++ url.password, inside u
  path : url.pathname.head? = some 47
  solid : ∀ u ∈ url.href, whiteSpace u = false

structure Whatwg (parse : UrlParser) : Prop where
  protocol : ∀ text base url, parse text base = some url → ∀ u ∈ url.protocol, lowered u
  serialised : ∀ text base url, parse text base = some url → url.protocol = http ∨ url.protocol = https → Serialised url

/- What is relied on of toLowerCase: lower-case ASCII stays, and white space around a text stays around it. -/
structure Lowers (lower : JsString → JsString) : Prop where
  stays : ∀ s, (∀ u ∈ s, lowered u) → lower s = s
  trims : ∀ s, lower (trim s) = trim (lower s)

theorem literalEscaped (host : JsString) : literal (escaped host) = some host := by
  induction host with
  | nil => rfl
  | cons u rest ih =>
    unfold escaped at ih ⊢
    rw [List.flatMap_cons]
    by_cases sign : special u = true
    · rw [if_pos sign]
      simp only [List.cons_append,List.nil_append]
      rw [literal,if_pos sign,ih]
      rfl
    · have slash : u ≠ 92 := by
        rintro rfl
        exact sign (by decide)
      rw [if_neg sign,List.singleton_append,literal.eq_3 u _ (fun _ _ same => absurd same slash),if_neg sign,ih]
      rfl

theorem allowBuilt (lower : JsString → JsString) (frozen : JsString) (tabId base : Nat) : allowRule lower frozen tabId base =
    some ⟨base + 1,2,.allow,.regexFilter (regexFront ++ escaped (lower frozen) ++ regexBack),[tabId],dnrResourceTypes⟩ := rfl

theorem allowMatches (host url : JsString) :
    UrlCondition.matches (.regexFilter (regexFront ++ escaped host ++ regexBack)) url = hostMatches host url := by
  have front : regexFront <+: regexFront ++ escaped host ++ regexBack := ⟨escaped host ++ regexBack,(List.append_assoc _ _ _).symm⟩
  have back : regexBack <:+ regexFront ++ escaped host ++ regexBack := List.suffix_append _ _
  have middle : ((regexFront ++ escaped host ++ regexBack).drop regexFront.length).take
      ((regexFront ++ escaped host ++ regexBack).length - regexFront.length - regexBack.length) = escaped host := by
    rw [List.append_assoc,List.drop_left,List.length_append,List.length_append,Nat.add_sub_cancel_left,Nat.add_sub_cancel,
      List.take_left]
  rw [UrlCondition.matches,if_pos ⟨front,back⟩,middle,literalEscaped]

theorem closesPath {part path : JsString} (within : ∀ u ∈ part, inside u) (slash : path.head? = some 47) :
    closes (part ++ path) = true ↔ part = [] := by
  cases part with
  | nil => simp [closes,slash]
  | cons u rest =>
    obtain ⟨a,b,c⟩ := within u List.mem_cons_self
    simp [closes,a,b,c]

/- A port, or none. -/
def portText (text : JsString) : Prop := text = [] ∨ ∃ digits, text = 58 :: digits ∧ digits ≠ [] ∧ digits.all digit = true

theorem digitsEnd {p : UInt16 → Bool} {stop : UInt16} (stops : p stop = false) (part rest : JsString) :
    (part ++ stop :: rest).takeWhile p = part.takeWhile p ∧ (part ++ stop :: rest).dropWhile p = part.dropWhile p ++ stop :: rest := by
  induction part with
  | nil => simp [stops]
  | cons u part ih =>
    cases kept : p u with
    | true => simpa [kept] using ih
    | false => simp [kept]

theorem portPath {part path : JsString} (within : ∀ u ∈ part, inside u) (slash : path.head? = some 47) :
    portCloses (part ++ path) = true ↔ portText part := by
  obtain ⟨more,rfl⟩ : ∃ more, path = 47 :: more := by
    cases path with
    | nil => cases slash
    | cons u more => exact ⟨more,by rw [Option.some.inj slash]⟩
  rw [portCloses.eq_def,Bool.or_eq_true,closesPath within slash]
  apply or_congr_right
  cases part with
  | nil => simp
  | cons u rest =>
    have later : ∀ v ∈ rest.dropWhile digit, inside v := fun v member => within v (List.mem_cons_of_mem _ (List.dropWhile_subset _ member))
    have closes_ := closesPath later (show (47 :: more : JsString).head? = some 47 from rfl)
    have digits := digitsEnd (show digit 47 = false by decide) rest more
    simp only [List.cons_append,digits.1,digits.2,Bool.and_eq_true,closes_,decide_eq_true_eq]
    constructor
    · rintro ⟨⟨rfl,found⟩,none_⟩
      have all := List.dropWhile_eq_nil_iff.mp none_
      rw [List.takeWhile_eq_self_iff.mpr all] at found
      exact ⟨rest,rfl,found,List.all_eq_true.mpr all⟩
    · rintro ⟨digits,same,found,all⟩
      obtain ⟨rfl,rfl⟩ := List.cons.inj same
      have all := List.all_eq_true.mp all
      rw [List.takeWhile_eq_self_iff.mpr all]
      exact ⟨⟨rfl,found⟩,List.dropWhile_eq_nil_iff.mpr all⟩

theorem closesPort {url : Url} : portText (if url.port = [] then [] else 58 :: url.port) := by
  split
  · exact .inl rfl
  · exact .inr ⟨url.port,rfl,by assumption,url.portShape⟩

theorem hostInside {url : Url} (shaped : Serialised url) : ∀ u ∈ url.host, inside u := by
  have numbers : ∀ u ∈ url.port, inside u := by
    intro u member
    have figure := List.all_eq_true.mp url.portShape u member
    refine ⟨?_,?_,?_⟩ <;> rintro rfl <;> exact absurd figure (by decide)
  intro u member
  unfold Url.host at member
  split at member
  · exact (shaped.hostname u member).1
  · rcases List.mem_append.mp member with there | there
    · exact (shaped.hostname u there).1
    · rcases List.mem_cons.mp there with rfl | there
      · exact ⟨by decide,by decide,by decide⟩
      · exact numbers u there

theorem credentialsInside {url : Url} (shaped : Serialised url) : ∀ u ∈ url.credentials, inside u := by
  intro u member
  have given := shaped.credentials u
  have colon : inside 58 := ⟨by decide,by decide,by decide⟩
  have sign : inside 64 := ⟨by decide,by decide,by decide⟩
  unfold Url.credentials at member
  split at member
  · cases member
  · rcases List.mem_append.mp member with there | there
    · rcases List.mem_append.mp there with there | there
      · exact given (List.mem_append_left _ there)
      · split at there
        · cases there
        · rcases List.mem_cons.mp there with rfl | there
          · exact colon
          · exact given (List.mem_append_right _ there)
    · rw [List.mem_singleton.mp there]
      exact sign

theorem credentialsNone {url : Url} (plain : (64 : UInt16) ∉ url.credentials) : url.username = [] ∧ url.password = [] := by
  unfold Url.credentials at plain
  split at plain
  · assumption
  · exact absurd (List.mem_append_right _ (List.mem_singleton.mpr rfl)) plain

/- What follows the slashes of a URL. -/
def afterScheme (url : Url) : JsString := url.credentials ++ url.host ++ (url.pathname ++ url.search ++ url.hash)

theorem hostRead {host : JsString} {url : Url} (web : url.protocol = http ∨ url.protocol = https) :
    hostMatches host url.href = true ↔ ∃ rest, afterScheme url = host ++ rest ∧ portCloses rest = true := by
  have plain : js "http://" = http ++ js "//" := by decide
  have secure : js "https://" = https ++ js "//" := by decide
  have text : url.href = url.protocol ++ (js "//" ++ afterScheme url) := by
    unfold Url.href afterScheme
    simp only [List.append_assoc]
  rw [hostMatches,List.any_eq_true,text,plain,secure]
  constructor
  · rintro ⟨scheme,member,found⟩
    rw [Bool.and_eq_true,List.isPrefixOf_iff_prefix] at found
    obtain ⟨⟨rest,whole⟩,closed⟩ := found
    have listed : ∃ p, (p = http ∨ p = https) ∧ scheme = p ++ js "//" := by
      simpa using member
    obtain ⟨p,known,rfl⟩ := listed
    have parts := (Network.schemeParts known web (by simpa [List.append_assoc] using whole)).2
    refine ⟨rest,by simpa [List.append_assoc] using parts.symm,?_⟩
    rwa [← whole,List.drop_left] at closed
  · rintro ⟨rest,parts,closed⟩
    refine ⟨url.protocol ++ js "//",by rcases web with same | same <;> simp [same],?_⟩
    rw [Bool.and_eq_true,List.isPrefixOf_iff_prefix,parts]
    refine ⟨⟨rest,by simp [List.append_assoc]⟩,?_⟩
    rwa [← List.append_assoc,← List.append_assoc,List.drop_left]

theorem dotted (s : JsString) : s = dropDot s ∨ s = dropDot s ++ [46] := by
  unfold dropDot
  split
  · rename_i last
    have some_ : s ≠ [] := by
      rintro rfl
      cases last
    right
    conv_lhs => rw [← List.dropLast_append_getLast some_]
    rw [List.getLast?_eq_some_getLast some_,Option.some.injEq] at last
    rw [last]
  · exact .inl rfl

theorem namesUnits {host : JsString} {url : Url} (shaped : Serialised url) (names : dropDot host = dropDot url.hostname) :
    ∀ u ∈ host, inside u ∧ u ≠ 64 ∧ lowered u := by
  have stem : ∀ u ∈ dropDot host, inside u ∧ u ≠ 64 ∧ lowered u := by
    intro u member
    rw [names] at member
    rcases dotted url.hostname with same | same
    · exact shaped.hostname u (same ▸ member)
    · exact shaped.hostname u (same ▸ List.mem_append_left _ member)
  intro u member
  rcases dotted host with same | same
  · exact stem u (same ▸ member)
  · rw [same] at member
    rcases List.mem_append.mp member with there | there
    · exact stem u there
    · rw [List.mem_singleton.mp there]
      exact ⟨⟨by decide,by decide,by decide⟩,by decide,by decide,by decide⟩

/- The name of a host, with or without a dot behind it, ends in no port. -/
theorem namesNoPort {host name digits : JsString} {url : Url} (names : dropDot host = dropDot url.hostname) (some_ : digits ≠ []) (all : digits.all digit) :
    host ≠ name ++ 58 :: digits := by
  intro same
  have last : ∃ d, host.getLast? = some d ∧ digit d := by
    have lastDigit := List.getLast?_eq_some_getLast some_
    refine ⟨digits.getLast some_,?_,List.all_eq_true.mp all _ (List.getLast_mem some_)⟩
    rw [same,List.getLast?_append,List.getLast?_cons,lastDigit]
    simp
  obtain ⟨d,last,figure⟩ := last
  have noDot : dropDot host = host := by
    unfold dropDot
    rw [last,if_neg]
    rintro dot
    cases Option.some.inj dot
    exact absurd figure (by decide)
  have stem := names
  rw [noDot] at stem
  have colon : (58 : UInt16) ∈ url.hostname := by
    rcases dotted url.hostname with plain | plain
    · rw [plain,← stem,same]
      exact List.mem_append_right _ List.mem_cons_self
    · rw [plain,← stem,same]
      exact List.mem_append_left _ (List.mem_append_right _ List.mem_cons_self)
  have bracket : url.hostname.getLast? = some 93 := by
    have shape := url.hostnameShape
    rw [Network.hostShape,List.contains_iff_mem.mpr colon] at shape
    exact of_decide_eq_true shape
  rcases dotted url.hostname with plain | plain
  · rw [plain,← stem,last] at bracket
    cases Option.some.inj bracket
    exact absurd figure (by decide)
  · rw [plain,List.getLast?_append] at bracket
    simp at bracket

/- The name of a host with a port, when the whole is a name that may be frozen and a port. -/
theorem hostNamed {host port : JsString} {frozen url : Url} (names : dropDot host = dropDot frozen.hostname) (ported : portText port)
    (same : url.host = host ++ port) : url.hostname = host := by
  unfold Url.host at same
  rcases ported with rfl | ⟨digits,rfl,some_,all⟩
  · rw [List.append_nil] at same
    split at same
    · exact same
    · rename_i here
      exact absurd same.symm (namesNoPort names here url.portShape)
  · split at same
    · exact absurd same (@namesNoPort _ _ _ url rfl some_ all)
    · have plain : (58 : UInt16) ∉ digits := fun member => (digitPlain (List.all_eq_true.mp all 58 member)).1 rfl
      exact (lastColon (Network.portPlain url) plain same).1

/- The text of a URL is read as a name that may be frozen exactly when that is its name, and nothing stands before it. -/
theorem hostExact {host : JsString} {frozen url : Url} (mine : Serialised frozen) (shaped : Serialised url)
    (web : url.protocol = http ∨ url.protocol = https) (names : dropDot host = dropDot frozen.hostname) :
    hostMatches host url.href = true ↔ url.username = [] ∧ url.password = [] ∧ host = url.hostname := by
  have units := namesUnits mine names
  have slash : (url.pathname ++ url.search ++ url.hash).head? = some 47 := by
    rw [List.append_assoc,List.head?_append,shaped.path]
    rfl
  rw [hostRead web]
  constructor
  · rintro ⟨rest,parts,closed⟩
    -- The name has no slash, so it ends before the path.
    obtain ⟨port,authority,tail⟩ : ∃ port, url.credentials ++ url.host = host ++ port ∧
        rest = port ++ (url.pathname ++ url.search ++ url.hash) := by
      rcases List.append_eq_append_iff.mp parts with ⟨more,longer,path⟩ | ⟨port,shorter,tail⟩
      · cases more with
        | nil => exact ⟨[],by simpa using longer.symm,by simpa using path.symm⟩
        | cons u more =>
          rw [path] at slash
          cases Option.some.inj slash
          exact absurd rfl (units 47 (longer ▸ List.mem_append_right _ List.mem_cons_self)).1.1
      · exact ⟨port,shorter,tail⟩
    have within : ∀ u ∈ port, inside u := by
      intro u member
      have there : u ∈ url.credentials ++ url.host := authority ▸ List.mem_append_right _ member
      rcases List.mem_append.mp there with there | there
      · exact credentialsInside shaped u there
      · exact hostInside shaped u there
    rw [tail,portPath within slash] at closed
    have noSign : (64 : UInt16) ∉ url.credentials := by
      intro member
      have there : (64 : UInt16) ∈ host ++ port := authority ▸ List.mem_append_left _ member
      rcases List.mem_append.mp there with there | there
      · exact (units 64 there).2.1 rfl
      · rcases closed with rfl | ⟨digits,rfl,-,all⟩
        · cases there
        · rcases List.mem_cons.mp there with same | there
          · exact absurd same (by decide)
          · exact absurd (List.all_eq_true.mp all 64 there) (by decide)
    obtain ⟨user,secret⟩ := credentialsNone noSign
    have bare : url.credentials = [] := if_pos ⟨user,secret⟩
    rw [bare,List.nil_append] at authority
    exact ⟨user,secret,(hostNamed names closed authority).symm⟩
  · rintro ⟨user,secret,rfl⟩
    have bare : url.credentials = [] := if_pos ⟨user,secret⟩
    have ported : url.host = url.hostname ++ if url.port = [] then [] else 58 :: url.port := by
      unfold Url.host
      split <;> simp
    refine ⟨(if url.port = [] then [] else 58 :: url.port) ++ (url.pathname ++ url.search ++ url.hash),?_,?_⟩
    · rw [afterScheme,bare,ported,List.nil_append,List.append_assoc]
    · refine (portPath ?_ slash).mpr closesPort
      intro u member
      exact hostInside shaped u (ported ▸ List.mem_append_right _ member)

/- The check and the rules agree on a frozen host: a URL that may be navigated to is let through, and what is let through has
the frozen host. -/
structure Agree (lower : JsString → JsString) (parse : UrlParser) (rawUrl frozenHostname : JsString) (tabId ruleBase : Nat) : Prop where
  admitted : ∀ url rule, parse rawUrl none = some url → allowRule lower frozenHostname tabId ruleBase = some rule →
    rule.condition.matches url.href = true
  confined : ∀ text base url rule, parse text base = some url → url.protocol = http ∨ url.protocol = https →
    allowRule lower frozenHostname tabId ruleBase = some rule → rule.condition.matches url.href = true → url.hostname = lower frozenHostname
  blocked : ∀ text base url, parse text base = some url → url.protocol = http ∨ url.protocol = https →
    url.hostname ≠ lower frozenHostname → ∀ resourceType ∈ dnrResourceTypes,
    decision (buildDnrRules lower frozenHostname tabId ruleBase) ⟨url.href,tabId,resourceType⟩ = some .block

theorem checkPassed {lower : JsString → JsString} {parse : UrlParser} {rawUrl frozenHostname : JsString} {url : Url}
    (parsed : parse rawUrl none = some url) (accepted : navigationMatchesFrozenHost lower parse rawUrl frozenHostname = true) :
    (lower url.protocol = http ∨ lower url.protocol = https) ∧ dropDot (lower url.hostname) ≠ [] ∧
    dropDot (lower url.hostname) = dropDot (lower (trim frozenHostname)) := by
  unfold navigationMatchesFrozenHost at accepted
  rw [parsed] at accepted
  split at accepted
  · cases accepted
  · dsimp only at accepted
    split at accepted
    · cases accepted
    · rename_i web
      rw [Bool.and_eq_true,decide_eq_true_eq,decide_eq_true_eq] at accepted
      refine ⟨?_,List.length_pos_iff.mp accepted.1,accepted.2⟩
      by_cases plain : lower url.protocol = http
      · exact .inl plain
      · exact .inr (not_not.mp fun other => web ⟨plain,other⟩)

theorem decided (lower : JsString → JsString) (frozenHostname url : JsString) (tabId ruleBase : Nat) {resourceType : String}
    (known : resourceType ∈ dnrResourceTypes) : decision (buildDnrRules lower frozenHostname tabId ruleBase) ⟨url,tabId,resourceType⟩ =
    some (if hostMatches (lower frozenHostname) url then .allow else .block) := by
  have listed : ([tabId].contains tabId && dnrResourceTypes.contains resourceType) = true := by
    rw [Bool.and_eq_true]
    exact ⟨List.contains_iff_mem.mpr (List.mem_singleton.mpr rfl),List.contains_iff_mem.mpr known⟩
  have first : DnrRule.matches ⟨ruleBase,1,.block,.urlFilter (js "*"),[tabId],dnrResourceTypes⟩ ⟨url,tabId,resourceType⟩ = true := by
    rw [DnrRule.matches,Bool.and_assoc,listed]
    simp [UrlCondition.matches]
  have second : DnrRule.matches ⟨ruleBase + 1,2,.allow,.regexFilter (regexFront ++ escaped (lower frozenHostname) ++ regexBack),[tabId],
      dnrResourceTypes⟩ ⟨url,tabId,resourceType⟩ = hostMatches (lower frozenHostname) url := by
    rw [DnrRule.matches,Bool.and_assoc,listed,Bool.and_true]
    exact allowMatches _ _
  unfold decision buildDnrRules
  cases found : hostMatches (lower frozenHostname) url with
  | true =>
    rw [found] at second
    simp only [List.filter,first,second]
    rfl
  | false =>
    rw [found] at second
    simp only [List.filter,first,second]
    rfl

/-- On a host that a navigation may have, the rules agree with the check exactly when the URL has no credentials and the frozen
host is the URL's own name, in any case of letters. -/
theorem confinementExact {lower : JsString → JsString} {parse : UrlParser} (lowers : Lowers lower) (whatwg : Whatwg parse)
    {rawUrl frozenHostname : JsString} {url : Url} (parsed : parse rawUrl none = some url)
    (accepted : navigationMatchesFrozenHost lower parse rawUrl frozenHostname = true) (tabId ruleBase : Nat) :
    Agree lower parse rawUrl frozenHostname tabId ruleBase ↔
      url.username = [] ∧ url.password = [] ∧ lower frozenHostname = url.hostname := by
  obtain ⟨scheme,some_,names⟩ := checkPassed parsed accepted
  rw [lowers.stays _ (whatwg.protocol _ _ _ parsed)] at scheme
  have shaped := whatwg.serialised _ _ _ parsed scheme
  rw [lowers.stays _ fun u member => (shaped.hostname u member).2.2,lowers.trims] at names
  -- What is in the text of a URL has no white space, so nothing of it is trimmed.
  have read (other : Url) (web : other.protocol = http ∨ other.protocol = https) (serial : Serialised other)
      (found : hostMatches (lower frozenHostname) other.href = true) :
      other.username = [] ∧ other.password = [] ∧ lower frozenHostname = other.hostname := by
    obtain ⟨rest,parts,-⟩ := (hostRead web).mp found
    have solid : ∀ u ∈ lower frozenHostname, whiteSpace u = false := by
      intro u member
      refine serial.solid u ?_
      have there : u ∈ afterScheme other := parts ▸ List.mem_append_left _ member
      unfold afterScheme at there
      unfold Url.href
      simp only [List.mem_append] at there ⊢
      tauto
    rw [trimPlain solid] at names
    exact (hostExact shaped serial web names.symm).mp found
  have same_ (target : JsString) (rule : DnrRule) (built : allowRule lower frozenHostname tabId ruleBase = some rule) :
      rule.condition.matches target = hostMatches (lower frozenHostname) target := by
    rw [allowBuilt] at built
    cases Option.some.inj built
    exact allowMatches _ _
  constructor
  · intro agree
    have found := agree.admitted url _ parsed (allowBuilt _ _ _ _)
    rw [same_ _ _ (allowBuilt _ _ _ _)] at found
    exact read url scheme shaped found
  · intro exact_
    refine ⟨fun target rule again built => ?_,fun text base other rule known web built found => ?_,
      fun text base other known web apart resourceType listed => ?_⟩
    · cases Option.some.inj (parsed.symm.trans again)
      rw [same_ _ _ built]
      exact (hostExact shaped shaped scheme (congrArg dropDot exact_.2.2)).mpr exact_
    · rw [same_ _ _ built] at found
      exact (read other web (whatwg.serialised _ _ _ known web) found).2.2.symm
    · rw [decided _ _ _ _ _ listed,if_neg]
      exact fun found => apart (read other web (whatwg.serialised _ _ _ known web) found).2.2.symm

theorem lowerSpaces (u : UInt16) : whiteSpace (lowerUnit u) = whiteSpace u := by
  unfold lowerUnit
  split
  · rename_i upper
    rw [Bool.and_eq_true,decide_eq_true_eq,decide_eq_true_eq,UInt16.le_iff_toNat_le,UInt16.le_iff_toNat_le] at upper
    have letter : ∀ n < 91, 65 ≤ n → whiteSpace (UInt16.ofNat n + 32) = whiteSpace (UInt16.ofNat n) := by decide
    have here := letter u.toNat (by simpa using Nat.lt_succ_of_le upper.2) upper.1
    rwa [UInt16.ofNat_toNat] at here
  · rfl

theorem lowersAscii : Lowers toLowerCase where
  stays s plain := by
    unfold toLowerCase
    exact (List.map_congr_left fun u member => (plain u member).2).trans (List.map_id _)
  trims s := by
    have drop (part : JsString) : (part.map lowerUnit).dropWhile whiteSpace = (part.dropWhile whiteSpace).map lowerUnit := by
      rw [List.dropWhile_map,show whiteSpace ∘ lowerUnit = whiteSpace from funext lowerSpaces]
    unfold toLowerCase trim
    rw [drop,← List.map_reverse,drop,List.map_reverse]

/- One page of one host: the parser of its two spellings, the second with a dot behind the name. -/
def bareUrl : Url := ⟨http,[],[],js "a.com",[],js "/",[],[],rfl,rfl⟩

def dottedUrl : Url := ⟨http,[],[],js "a.com.",[],js "/",[],[],rfl,rfl⟩

def pageParser : UrlParser := fun text _ =>
  if text = js "HTTP://A.com" then some bareUrl else if text = js "http://a.com./" then some dottedUrl else none

theorem pageWhatwg : Whatwg pageParser := by
  have listed {text base url} (found : pageParser text base = some url) : url = bareUrl ∨ url = dottedUrl := by
    unfold pageParser at found
    split at found
    · exact .inl (Option.some.inj found).symm
    · split at found
      · exact .inr (Option.some.inj found).symm
      · cases found
  have plain {text : JsString} (all : text.all fun u => u < 128 && lowerUnit u == u && u != 47 && u != 63 && u != 35 && u != 64) :
      ∀ u ∈ text, inside u ∧ u ≠ 64 ∧ lowered u := by
    intro u member
    have here := List.all_eq_true.mp all u member
    simp only [Bool.and_eq_true,decide_eq_true_eq,beq_iff_eq,bne_iff_ne] at here
    exact ⟨⟨here.1.1.1.2,here.1.1.2,here.1.2⟩,here.2,here.1.1.1.1⟩
  have solid {text : JsString} (all : text.all fun u => !whiteSpace u) : ∀ u ∈ text, whiteSpace u = false := fun u member => by
    simpa using List.all_eq_true.mp all u member
  have web := plain (show http.all _ by decide)
  refine ⟨fun text base url found u member => ?_,fun text base url found _ => ?_⟩
  · rcases listed found with rfl | rfl <;> exact (web u member).2.2
  · rcases listed found with rfl | rfl
    · exact ⟨plain (by decide),(fun u member => nomatch member),rfl,solid (by decide)⟩
    · exact ⟨plain (by decide),(fun u member => nomatch member),rfl,solid (by decide)⟩

theorem bareAgrees : Agree toLowerCase pageParser (js "HTTP://A.com") (js "A.com") 7 100 ↔
    bareUrl.username = [] ∧ bareUrl.password = [] ∧ toLowerCase (js "A.com") = bareUrl.hostname :=
  confinementExact lowersAscii pageWhatwg (by decide) (by decide) 7 100

theorem dottedRefused : navigationMatchesFrozenHost toLowerCase pageParser (js "http://a.com./") (js "a.com") = true ∧
    ¬ Agree toLowerCase pageParser (js "http://a.com./") (js "a.com") 7 100 := by
  refine ⟨by decide,fun agree => ?_⟩
  have found := agree.admitted dottedUrl _ (by decide) (allowBuilt _ _ _ _)
  rw [allowMatches] at found
  exact absurd found (by decide)

end Northstar.Chrome.Confinement
