import Northstar.Network.Url
import Northstar.Web.Store

/-! Filtering search results by domain (web-site-filter.ts) and what the request validator lets
through to it (parseDomains). -/
namespace Northstar.Web
open Network (UrlParser Url digit)

structure SiteDomainFilters where
  include_ : List JsString
  exclude_ : List JsString

def letter (u : UInt16) : Bool := 97 ≤ u && u ≤ 122

/- A letter whatever its case. -/
def anyLetter (u : UInt16) : Bool := letter u || (65 ≤ u && u ≤ 90)

def stripDots (s : JsString) : JsString := ((s.dropWhile (· = 46)).reverse.dropWhile (· = 46)).reverse

/- `^[a-z0-9][a-z0-9.-]*\.[a-z]{2,}$`, where the dot is the last one. -/
def domainShape (s : JsString) : Bool := match s.reverse.dropWhile anyLetter with
  | 46 :: front => 2 ≤ (s.reverse.takeWhile anyLetter).length && front.getLast?.any (fun u => anyLetter u || digit u) &&
      front.all fun u => anyLetter u || digit u || u = 46 || u = 45
  | _ => false

section Filtering

variable (parse : UrlParser) (lower : JsString → JsString)

/- What stands in the host position, parsed where it can be. -/
def hostPart (input : JsString) : JsString :=
  match if js "://" <:+: input then parse input none else parse (js "https://" ++ input) none with
  | some url => url.hostname
  | none => (input.takeWhile (· ≠ 47)).takeWhile (· ≠ 58)

def normalizeDomain (value : JsString) : Option JsString :=
  let input := lower (trim value)
  if input = [] then none
  else
    let input := if input.head? = some 45 then trim (input.drop 1) else input
    if input = [] then none
    else
      let input := stripDots (hostPart parse input)
      if domainShape input then some input else none

def excluding (raw : JsString) : Bool := (trim raw).head? = some 45

def addDomain (target : List JsString) (domain : JsString) : List JsString := if domain ∈ target then target else target ++ [domain]

def addFilter (filters : SiteDomainFilters) (raw : JsString) : SiteDomainFilters := match normalizeDomain parse lower raw with
  | none => filters
  | some domain =>
      if excluding raw then { filters with exclude_ := addDomain filters.exclude_ domain }
      else { filters with include_ := addDomain filters.include_ domain }

def parseDomainFilter (domains : Option (List JsString)) : SiteDomainFilters := (domains.getD []).foldl (addFilter parse lower) ⟨[],[]⟩

/- The host itself or below it. -/
def under (hostname domain : JsString) : Bool := hostname = domain || (46 :: domain).isSuffixOf hostname

def passesDomainFilters (url : JsString) (filters : SiteDomainFilters) : Bool :=
  if filters.include_ = [] ∧ filters.exclude_ = [] then true
  else match parse url none with
    | none => false
    | some u =>
        let hostname := lower u.hostname
        if filters.exclude_.any (under hostname) then false
        else filters.include_ = [] || filters.include_.any (under hostname)

def webAccessMaxDomains : Nat := 32

def hostUnit (u : UInt16) : Bool := letter u || digit u || u = 46 || u = 45

def cleanDomainHost (entry : JsValue) : Except JsString JsString := match entry with
  | .string text =>
      if (trim text).length = 0 then .error (js "domains entries must be non-empty strings")
      else
        let host := lower (trim text)
        if 253 < host.length ∨ ¬(host ≠ [] ∧ host.all hostUnit) then .error (js "invalid domains hostname: " ++ host.take 64)
        else .ok host
  | _ => .error (js "domains entries must be non-empty strings")

def parseDomains (value : JsValue) : Except JsString (Option (List JsString)) := match value with
  | .undefined => .ok none
  | .array entries =>
      if webAccessMaxDomains < entries.length then
        .error (js "domains must contain at most " ++ js (toString webAccessMaxDomains) ++ js " entries")
      else (entries.mapM (cleanDomainHost lower)).map some
  | _ => .error (js "domains must be an array of hostnames")

/- The last label of a host, apart from dots around it. -/
def lastLabel (host : JsString) : JsString := (stripDots host).reverse.takeWhile (· ≠ 46)

/- What the URL parser does with a host of lower-case letters, digits, dots and hyphens: it keeps it, or
reads one whose last label has a digit as an IPv4 number; a short host of letters it takes as it is. Such
text is in lower case. -/
structure PlainHosts : Prop where
  kept : ∀ host url, host.all hostUnit → parse (js "https://" ++ host) none = some url →
    url.hostname = host ∨ ((lastLabel host).any digit ∧ url.hostname.all fun u => digit u || u = 46)
  letters : ∀ host, host ≠ [] → host.length ≤ 63 → host.all letter →
    ∃ url, parse (js "https://" ++ host) none = some url ∧ url.hostname = host
  lowered : ∀ host, host.all hostUnit → lower host = host

/- The domain that an entry names. -/
def requested (raw : JsString) : JsString := stripDots (if raw.head? = some 45 then raw.drop 1 else raw)

/- Whatever gets past the filters is under a requested include domain and under no requested exclude domain. -/
def NeverWidens (domains : List JsString) : Prop :=
  ∀ url, passesDomainFilters parse lower url (parseDomainFilter parse lower (some domains)) = true →
    ∃ u, parse url none = some u ∧ (∃ raw ∈ domains, excluding raw = false ∧ under (lower u.hostname) (requested raw) = true) ∧
      ∀ raw ∈ domains, excluding raw = true → under (lower u.hostname) (requested raw) = false

/- A dotted name that ends in letters. -/
def Named (raw : JsString) : Prop := domainShape (requested raw) = true

/- One include entry is a dotted name, and where an exclude entry is not, no included host needs it. -/
structure KeepsFilter (domains : List JsString) : Prop where
  included : ∃ raw ∈ domains, excluding raw = false ∧ Named raw
  excluded : ∀ raw ∈ domains, excluding raw = true → ¬Named raw → ∀ url u, parse url none = some u →
    under (lower u.hostname) (requested raw) = true →
    (∃ other ∈ domains, excluding other = false ∧ Named other ∧ under (lower u.hostname) (requested other) = true) →
    ∃ other ∈ domains, excluding other = true ∧ Named other ∧ under (lower u.hostname) (requested other) = true

variable {parse lower}

theorem hostSolid {u : UInt16} (h : hostUnit u) : whiteSpace u = false ∧ u ≠ 58 ∧ u ≠ 47 := by
  simp only [hostUnit,letter,digit,Bool.or_eq_true,Bool.and_eq_true,decide_eq_true_eq,UInt16.le_iff_toNat_le,
    ← UInt16.toNat_inj,UInt16.reduceToNat] at h
  simp only [whiteSpace,Bool.or_eq_false_iff,Bool.and_eq_false_iff,decide_eq_false_iff_not,UInt16.le_iff_toNat_le,
    ← UInt16.toNat_inj,UInt16.reduceToNat,ne_eq]
  omega

theorem hostWithin {host part : JsString} (h : host.all hostUnit) (within : ∀ u ∈ part, u ∈ host) : part.all hostUnit :=
  List.all_eq_true.mpr fun u member => List.all_eq_true.mp h u (within u member)

theorem hostTrim {host : JsString} (h : host.all hostUnit) : trim host = host :=
  trimPlain fun u member => (hostSolid (List.all_eq_true.mp h u member)).1

theorem hostBefore {host : JsString} (h : host.all hostUnit) (p : UInt16 → Bool) (all : ∀ u, hostUnit u → p u) :
    host.takeWhile p = host :=
  List.takeWhile_eq_self_iff.mpr fun u member => all u (List.all_eq_true.mp h u member)

theorem hostSlashless {host : JsString} (h : host.all hostUnit) : ¬js "://" <:+: host := by
  intro within
  have colon : (58 : UInt16) ∈ host := within.subset (by decide)
  exact (hostSolid (List.all_eq_true.mp h 58 colon)).2.1 rfl

/- What is accepted. -/
def Accepted (raw : JsString) : Prop := raw.all hostUnit = true

theorem cleanAccepted {entry : JsValue} {raw : JsString}
    (done : cleanDomainHost lower entry = .ok raw) : Accepted raw ∧ raw.length ≤ 253 := by
  unfold cleanDomainHost at done
  split at done
  · split at done
    · cases done
    · simp only at done
      split at done
      · cases done
      · rename_i ok
        have same := Except.ok.inj done
        subst same
        obtain ⟨short,shape⟩ := not_or.mp ok
        exact ⟨(not_not.mp shape).2,Nat.le_of_not_lt short⟩
  · cases done

theorem mappedAccepted {entries : List JsValue} {domains : List JsString}
    (done : entries.mapM (cleanDomainHost lower) = .ok domains) :
    domains.length = entries.length ∧ ∀ raw ∈ domains, Accepted raw := by
  induction entries generalizing domains with
  | nil =>
    rw [List.mapM_nil] at done
    have same := Except.ok.inj done
    subst same
    exact ⟨rfl,by simp⟩
  | cons entry rest ih =>
    rw [List.mapM_cons] at done
    cases first : cleanDomainHost lower entry with
    | error _ => rw [first] at done; cases done
    | ok raw =>
      cases others : rest.mapM (cleanDomainHost lower) with
      | error _ => rw [first,others] at done; cases done
      | ok more =>
        rw [first,others] at done
        have same : raw :: more = domains := Except.ok.inj done
        subst same
        obtain ⟨size,each⟩ := ih others
        refine ⟨by rw [List.length_cons,List.length_cons,size],fun one member => ?_⟩
        rcases List.mem_cons.mp member with here | later
        · exact here ▸ (cleanAccepted first).1
        · exact each one later

theorem parsedAccepted {value : JsValue} {domains : List JsString}
    (done : parseDomains lower value = .ok (some domains)) : domains.length ≤ 32 ∧ ∀ raw ∈ domains, Accepted raw := by
  unfold parseDomains at done
  split at done
  · cases done
  · rename_i entries
    split at done
    · cases done
    · rename_i few
      cases mapped : entries.mapM (cleanDomainHost lower) with
      | error _ => rw [mapped] at done; cases done
      | ok all =>
        rw [mapped] at done
        have same : all = domains := Option.some.inj (Except.ok.inj done)
        subst same
        obtain ⟨size,each⟩ := mappedAccepted mapped
        exact ⟨size ▸ Nat.le_of_not_lt few,each⟩
  · cases done

theorem takenUpTo {p q : UInt16 → Bool} {s front : JsString} {u : UInt16} (wider : ∀ v, p v → q v) (stops : q u = false)
    (left : s.dropWhile p = u :: front) : s.takeWhile q = s.takeWhile p := by
  induction s with
  | nil => rw [List.dropWhile_nil] at left; cases left
  | cons v rest ih =>
    cases taken : p v with
    | true =>
      rw [List.dropWhile_cons,if_pos taken] at left
      rw [List.takeWhile_cons,List.takeWhile_cons,wider v taken,taken,ih left]
    | false =>
      rw [List.dropWhile_cons,taken] at left
      have same : v = u := (List.cons.inj left).1
      rw [List.takeWhile_cons,List.takeWhile_cons,same,stops,← same,taken]
      rfl

theorem letterUndotted {u : UInt16} (h : anyLetter u) : u ≠ 46 ∧ digit u = false := by
  simp only [anyLetter,letter,Bool.or_eq_true,Bool.and_eq_true,decide_eq_true_eq,UInt16.le_iff_toNat_le,
    UInt16.reduceToNat] at h
  simp only [digit,Bool.and_eq_false_iff,decide_eq_false_iff_not,UInt16.le_iff_toNat_le,← UInt16.toNat_inj,
    UInt16.reduceToNat,ne_eq]
  omega

theorem shapedLast {host : JsString} (h : domainShape (stripDots host)) : (lastLabel host).any digit = false := by
  unfold domainShape at h
  split at h
  · rename_i front left
    rw [lastLabel,takenUpTo (fun v taken => decide_eq_true (letterUndotted taken).1) (by decide) left]
    exact List.any_eq_false.mpr fun u member => by
      rw [(letterUndotted (List.mem_takeWhile_imp member)).2]
      exact Bool.false_ne_true
  · cases h

theorem numericShapeless {host : JsString} (numeric : host.all fun u => digit u || u = 46) :
    domainShape (stripDots host) = false := by
  have unlettered (u : UInt16) (member : u ∈ (stripDots host).reverse) : anyLetter u = false := by
    have inside : u ∈ host := by
      rw [stripDots,List.reverse_reverse] at member
      have first := (List.dropWhile_suffix _).subset member
      exact (List.dropWhile_suffix _).subset (List.mem_reverse.mp first)
    have shape := List.all_eq_true.mp numeric u inside
    cases lettered : anyLetter u with
    | false => rfl
    | true =>
      obtain ⟨undotted,unnumbered⟩ := letterUndotted lettered
      rw [unnumbered,decide_eq_false undotted] at shape
      cases shape
  have none_ : (stripDots host).reverse.takeWhile anyLetter = [] := by
    cases reversed : (stripDots host).reverse with
    | nil => rfl
    | cons u rest => rw [List.takeWhile_cons,unlettered u (reversed ▸ List.mem_cons_self)]; rfl
  unfold domainShape
  split
  · rw [none_]
    rfl
  · rfl

theorem hostRead (plain : PlainHosts parse lower) {host : JsString} (within : host.all hostUnit) :
    (if domainShape (stripDots (hostPart parse host)) then some (stripDots (hostPart parse host)) else none) =
      if domainShape (stripDots host) then some (stripDots host) else none := by
  rw [hostPart,if_neg (hostSlashless within)]
  cases parsed : parse (js "https://" ++ host) none with
  | none =>
    simp only
    rw [hostBefore within _ fun u unit => decide_eq_true (hostSolid unit).2.2,
      hostBefore within _ fun u unit => decide_eq_true (hostSolid unit).2.1]
  | some url =>
    simp only
    rcases plain.kept host url within parsed with same | ⟨last,numeric⟩
    · rw [same]
    · have shapeless : domainShape (stripDots host) = false :=
        Bool.eq_false_iff.mpr fun shaped => by rw [shapedLast shaped] at last; cases last
      rw [numericShapeless numeric,shapeless]
      rfl

theorem normalizeAccepted (plain : PlainHosts parse lower) {raw : JsString} (accepted : Accepted raw) :
    normalizeDomain parse lower raw = if domainShape (requested raw) then some (requested raw) else none := by
  have cut := hostWithin accepted fun u member => List.mem_of_mem_drop (i := 1) member
  have none_ : domainShape (stripDots []) = false := by decide
  unfold normalizeDomain requested
  rw [hostTrim accepted,plain.lowered raw accepted]
  simp only
  rw [hostTrim cut]
  by_cases empty : raw = []
  · rw [if_pos empty,empty]
    rfl
  rw [if_neg empty]
  split
  · split
    · rename_i last
      rw [last,none_]
      rfl
    · exact hostRead plain cut
  · exact hostRead plain accepted

/- The list that an entry goes to, by whether it excludes. -/
def SiteDomainFilters.side (filters : SiteDomainFilters) (out : Bool) : List JsString :=
  if out then filters.exclude_ else filters.include_

theorem addedDomain {target : List JsString} {domain d : JsString} : d ∈ addDomain target domain ↔ d ∈ target ∨ d = domain := by
  unfold addDomain
  split
  · rename_i there
    exact ⟨.inl,fun either => either.elim id fun same => same ▸ there⟩
  · rw [List.mem_append,List.mem_singleton]

theorem addedFilter {filters : SiteDomainFilters} {raw d : JsString} {out : Bool} :
    d ∈ (addFilter parse lower filters raw).side out ↔
      d ∈ filters.side out ∨ excluding raw = out ∧ normalizeDomain parse lower raw = some d := by
  unfold addFilter
  cases normalizeDomain parse lower raw with
  | none => simp
  | some domain =>
    cases excluding raw <;> cases out <;> simp [SiteDomainFilters.side,addedDomain,eq_comm]

theorem foldedFilter {domains : List JsString} {filters : SiteDomainFilters} {d : JsString} {out : Bool} :
    d ∈ (domains.foldl (addFilter parse lower) filters).side out ↔
      d ∈ filters.side out ∨ ∃ raw ∈ domains, excluding raw = out ∧ normalizeDomain parse lower raw = some d := by
  induction domains generalizing filters with
  | nil => simp
  | cons raw rest ih =>
    rw [List.foldl_cons,ih,addedFilter,or_assoc,List.exists_mem_cons_iff]

theorem parsedFilter (plain : PlainHosts parse lower) {domains : List JsString} (accepted : ∀ raw ∈ domains, Accepted raw)
    (out : Bool) {d : JsString} : d ∈ (parseDomainFilter parse lower (some domains)).side out ↔
      ∃ raw ∈ domains, excluding raw = out ∧ Named raw ∧ requested raw = d := by
  have start : d ∉ (SiteDomainFilters.mk [] []).side out := by cases out <;> exact List.not_mem_nil
  rw [parseDomainFilter,Option.getD_some,foldedFilter,or_iff_right start]
  refine exists_congr fun raw => and_congr_right fun member => and_congr_right fun _ => ?_
  rw [normalizeAccepted plain (accepted raw member)]
  unfold Named
  cases domainShape (requested raw) <;> simp

/- Under some surviving entry of a side. -/
def Covered (domains : List JsString) (out : Bool) (hostname : JsString) : Prop :=
  ∃ raw ∈ domains, excluding raw = out ∧ Named raw ∧ under hostname (requested raw) = true

theorem anyCovered (plain : PlainHosts parse lower) {domains : List JsString} (accepted : ∀ raw ∈ domains, Accepted raw)
    (out : Bool) {hostname : JsString} :
    ((parseDomainFilter parse lower (some domains)).side out).any (under hostname) = true ↔ Covered domains out hostname := by
  rw [List.any_eq_true]
  constructor
  · rintro ⟨d,member,within⟩
    obtain ⟨raw,there,which,named,rfl⟩ := (parsedFilter plain accepted out).mp member
    exact ⟨raw,there,which,named,within⟩
  · rintro ⟨raw,there,which,named,within⟩
    exact ⟨requested raw,(parsedFilter plain accepted out).mpr ⟨raw,there,which,named,rfl⟩,within⟩

theorem sideNil (plain : PlainHosts parse lower) {domains : List JsString} (accepted : ∀ raw ∈ domains, Accepted raw)
    (out : Bool) : (parseDomainFilter parse lower (some domains)).side out = [] ↔
      ¬∃ raw ∈ domains, excluding raw = out ∧ Named raw := by
  rw [List.eq_nil_iff_forall_not_mem]
  constructor
  · rintro empty ⟨raw,member,which,named⟩
    exact empty _ ((parsedFilter plain accepted out).mpr ⟨raw,member,which,named,rfl⟩)
  · intro missing d member
    obtain ⟨raw,there,which,named,_⟩ := (parsedFilter plain accepted out).mp member
    exact missing ⟨raw,there,which,named⟩

/- A host in no requested include domain: a run of letters of a length that none of them has. -/
theorem unrequested {domains : List JsString} (few : domains.length ≤ 32) :
    ∃ host : JsString, host ≠ [] ∧ host.length ≤ 63 ∧ host.all letter ∧ ∀ raw ∈ domains, under host (requested raw) = false := by
  have smaller : ((domains.map fun raw => (requested raw).length).toFinset).card < (Finset.Icc 1 33).card := by
    have most := List.toFinset_card_le (domains.map fun raw => (requested raw).length)
    rw [List.length_map] at most
    rw [Nat.card_Icc]
    omega
  obtain ⟨n,bound,missing⟩ := Finset.exists_mem_notMem_of_card_lt_card smaller
  obtain ⟨low,high⟩ := Finset.mem_Icc.mp bound
  refine ⟨List.replicate n 97,?_,?_,?_,fun raw member => ?_⟩
  · exact fun empty => by
      have size := congrArg List.length empty
      rw [List.length_replicate] at size
      exact absurd size (Nat.ne_of_gt low)
  · rw [List.length_replicate]
    exact high.trans (by decide)
  · exact List.all_eq_true.mpr fun u here => by rw [List.eq_of_mem_replicate here]; rfl
  · unfold under
    refine Bool.or_eq_false_iff.mpr ⟨decide_eq_false fun same => missing ?_,Bool.eq_false_iff.mpr fun ends => ?_⟩
    · rw [List.mem_toFinset,List.mem_map]
      exact ⟨raw,member,by rw [← same,List.length_replicate]⟩
    · have dotted := (List.isSuffixOf_iff_suffix.mp ends).subset List.mem_cons_self
      exact absurd (List.eq_of_mem_replicate dotted) (by decide)

theorem passesCovered (plain : PlainHosts parse lower) {domains : List JsString} (accepted : ∀ raw ∈ domains, Accepted raw)
    (included : ∃ raw ∈ domains, excluding raw = false ∧ Named raw) {url : JsString} :
    passesDomainFilters parse lower url (parseDomainFilter parse lower (some domains)) = true ↔
      ∃ u, parse url none = some u ∧ ¬Covered domains true (lower u.hostname) ∧ Covered domains false (lower u.hostname) := by
  have kept : (parseDomainFilter parse lower (some domains)).include_ ≠ [] :=
    fun empty => (sideNil plain accepted false).mp empty included
  unfold passesDomainFilters
  rw [if_neg fun both => kept both.1]
  cases parse url none with
  | none => simp
  | some u =>
    simp only [Option.some.injEq,exists_eq_left']
    rw [← anyCovered plain accepted true,← anyCovered plain accepted false]
    unfold SiteDomainFilters.side
    simp only [if_true,Bool.false_eq_true,if_false]
    cases (parseDomainFilter parse lower (some domains)).exclude_.any (under (lower u.hostname)) <;> simp [kept]

/- With no include entry left every host passes that no exclude entry covers. -/
theorem passesEmptied (plain : PlainHosts parse lower) {domains : List JsString} (accepted : ∀ raw ∈ domains, Accepted raw)
    (emptied : ¬∃ raw ∈ domains, excluding raw = false ∧ Named raw) {url : JsString} {u : Url}
    (parsed : parse url none = some u) (clear : ¬Covered domains true (lower u.hostname)) :
    passesDomainFilters parse lower url (parseDomainFilter parse lower (some domains)) = true := by
  have empty : (parseDomainFilter parse lower (some domains)).include_ = [] := (sideNil plain accepted false).mpr emptied
  have free : (parseDomainFilter parse lower (some domains)).exclude_.any (under (lower u.hostname)) = false :=
    Bool.eq_false_iff.mpr fun hit => clear ((anyCovered plain accepted true).mp hit)
  unfold passesDomainFilters
  split
  · rfl
  · rw [parsed]
    simp only [free]
    simp [empty]

theorem widensEmptied (plain : PlainHosts parse lower) {domains : List JsString} (accepted : ∀ raw ∈ domains, Accepted raw)
    (few : domains.length ≤ 32) (emptied : ¬∃ raw ∈ domains, excluding raw = false ∧ Named raw) :
    ¬NeverWidens parse lower domains := by
  intro narrow
  obtain ⟨host,some_,short,letters,apart⟩ := unrequested few
  obtain ⟨u,parsed,same⟩ := plain.letters host some_ short letters
  have unit : host.all hostUnit := List.all_eq_true.mpr fun v member => by
    rw [hostUnit,List.all_eq_true.mp letters v member]
    rfl
  have lowered : lower u.hostname = host := by rw [same,plain.lowered host unit]
  have clear : ¬Covered domains true (lower u.hostname) := by
    rintro ⟨raw,member,_,_,within⟩
    rw [lowered,apart raw member] at within
    cases within
  obtain ⟨v,again,⟨raw,member,_,within⟩,_⟩ := narrow _ (passesEmptied plain accepted emptied parsed clear)
  cases Option.some.inj (parsed.symm.trans again)
  rw [lowered,apart raw member] at within
  cases within

/-- The filters never widen exactly when an include entry is a dotted name that ends in letters and no
included host lies under an exclude entry that is none. -/
theorem filtersNarrow (plain : PlainHosts parse lower) (value : JsValue) {domains : List JsString}
    (done : parseDomains lower value = .ok (some domains)) : NeverWidens parse lower domains ↔ KeepsFilter parse lower domains := by
  obtain ⟨few,accepted⟩ := parsedAccepted done
  constructor
  · intro narrow
    have included : ∃ raw ∈ domains, excluding raw = false ∧ Named raw := by
      by_contra emptied
      exact widensEmptied plain accepted few emptied narrow
    refine ⟨included,fun raw member out unnamed url u parsed within covered => ?_⟩
    by_contra uncovered
    obtain ⟨v,again,_,apart⟩ := narrow url ((passesCovered plain accepted included).mpr ⟨u,parsed,uncovered,covered⟩)
    cases Option.some.inj (parsed.symm.trans again)
    rw [apart raw member out] at within
    cases within
  · intro keeps url passes
    obtain ⟨u,parsed,clear,covered⟩ := (passesCovered plain accepted keeps.included).mp passes
    obtain ⟨raw,member,which,named,within⟩ := covered
    refine ⟨u,parsed,⟨raw,member,which,within⟩,fun other there out => Bool.eq_false_iff.mpr fun hit => clear ?_⟩
    by_cases named' : Named other
    · exact ⟨other,there,out,named',hit⟩
    · exact keeps.excluded other there out named' url u parsed hit ⟨raw,member,which,named,within⟩

end Filtering

theorem plainShape {host : JsString} (h : host.all hostUnit) : Network.hostShape host := by
  have free : host.contains 58 = false := Bool.eq_false_iff.mpr fun colon =>
    (hostSolid (List.all_eq_true.mp h 58 (List.contains_iff_mem.mp colon))).2.1 rfl
  rw [Network.hostShape,free]
  rfl

/- A parser of https addresses whose host is no number. -/
def hostParser : UrlParser := fun text _ =>
  let host := (text.drop 8).takeWhile (· ≠ 47)
  if h : js "https://" <+: text ∧ host ≠ [] ∧ host.all hostUnit = true ∧ (lastLabel host).any digit = false then
    some ⟨Network.https,[],[],host,[],js "/",[],[],plainShape h.2.2.1,Network.noPort⟩
  else none

theorem hostParsed {host : JsString} (h : host.all hostUnit) : hostParser (js "https://" ++ host) none =
    if host ≠ [] ∧ (lastLabel host).any digit = false then
      some ⟨Network.https,[],[],host,[],js "/",[],[],plainShape h,rfl⟩ else none := by
  have rest : ((js "https://" ++ host).drop 8).takeWhile (· ≠ 47) = host := by
    rw [List.drop_left' (show (js "https://").length = 8 by decide)]
    exact hostBefore h _ fun u unit => decide_eq_true (hostSolid unit).2.2
  unfold hostParser
  simp only [rest,h,List.prefix_append,true_and]
  split <;> rfl

theorem hostParserPlain : PlainHosts hostParser asciiLower := by
  constructor
  · intro host url unit parsed
    rw [hostParsed unit] at parsed
    split at parsed
    · exact .inl (congrArg Url.hostname (Option.some.inj parsed)).symm
    · cases parsed
  · intro host some_ _ letters
    have unit : host.all hostUnit := List.all_eq_true.mpr fun v member => by
      rw [hostUnit,List.all_eq_true.mp letters v member]
      rfl
    have unnumbered : (lastLabel host).any digit = false := List.any_eq_false.mpr fun u member => by
      have inside : u ∈ host := by
        have first := List.mem_reverse.mp ((List.takeWhile_prefix _).subset member)
        rw [stripDots] at first
        have second := List.mem_reverse.mp ((List.dropWhile_suffix _).subset (List.mem_reverse.mp first))
        exact (List.dropWhile_suffix _).subset second
      have lettered : anyLetter u := by rw [anyLetter,List.all_eq_true.mp letters u inside]; rfl
      rw [(letterUndotted lettered).2]
      exact Bool.false_ne_true
    rw [hostParsed unit,if_pos ⟨some_,unnumbered⟩]
    exact ⟨_,rfl,rfl⟩
  · intro host unit
    refine (List.map_congr_left fun u member => ?_).trans (List.map_id host)
    have small := List.all_eq_true.mp unit u member
    simp only [hostUnit,letter,digit,Bool.or_eq_true,Bool.and_eq_true,decide_eq_true_eq,UInt16.le_iff_toNat_le,
      ← UInt16.toNat_inj,UInt16.reduceToNat] at small
    refine if_neg fun capital => ?_
    simp only [UInt16.le_iff_toNat_le,UInt16.reduceToNat] at capital
    omega

theorem exampleNarrow : parseDomains asciiLower (.array [.string (js "Example.com")]) = .ok (some [js "example.com"]) ∧
    (NeverWidens hostParser asciiLower [js "example.com"] ↔ KeepsFilter hostParser asciiLower [js "example.com"]) :=
  ⟨by decide,filtersNarrow hostParserPlain (.array [.string (js "Example.com")]) (by decide)⟩

theorem punycodeWidens : parseDomains asciiLower (.array [.string (js "xn--e1afmkfd.xn--p1ai")]) = .ok (some [js "xn--e1afmkfd.xn--p1ai"]) ∧
    passesDomainFilters hostParser asciiLower (js "https://evil.example/x")
      (parseDomainFilter hostParser asciiLower (some [js "xn--e1afmkfd.xn--p1ai"])) = true ∧
    ¬NeverWidens hostParser asciiLower [js "xn--e1afmkfd.xn--p1ai"] := by
  have passed : passesDomainFilters hostParser asciiLower (js "https://evil.example/x")
      (parseDomainFilter hostParser asciiLower (some [js "xn--e1afmkfd.xn--p1ai"])) = true := by decide
  refine ⟨by decide,passed,fun narrow => ?_⟩
  obtain ⟨u,parsed,⟨raw,member,_,within⟩,_⟩ := narrow _ passed
  have host : u.hostname = js "evil.example" := by
    have same := congrArg (Option.map Url.hostname) parsed
    exact Option.some.inj (same.symm.trans (by decide))
  rw [List.mem_singleton.mp member,host] at within
  exact absurd within (by decide)


end Northstar.Web
