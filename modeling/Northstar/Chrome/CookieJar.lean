import Northstar.Network.Addresses
import Northstar.Separated
import Mathlib.Data.Rat.Defs

/-! The Cookie header of a stored jar: which cookies a URL is sent, and how the header holds them. -/
namespace Northstar.Chrome
open Network Separated

structure BrowserCookie where
  name : JsString
  value : JsString
  domain : JsString
  path : JsString
  expires : ℚ
  secure : Bool
  deriving DecidableEq

def isByteStringSafe (value : JsString) : Bool := value.all (· ≤ 255)

def expired (now : ℚ) (cookie : BrowserCookie) : Bool := decide (0 < cookie.expires) && decide (cookie.expires * 1000 < now)

def domainCovers (toLowerCase : JsString → JsString) (host : JsString) (cookie : BrowserCookie) : Bool :=
  let domain := toLowerCase cookie.domain
  if domain.head? = some 46 then !(decide (host ≠ domain.tail) && !domain.isSuffixOf host)
  else decide (host = domain)

def pathCovers (path : JsString) (cookie : BrowserCookie) : Bool :=
  let cookiePath := if cookie.path = [] then [47] else cookie.path
  let directory := if cookiePath.getLast? = some 47 then cookiePath else cookiePath ++ [47]
  decide (path = cookiePath) || directory.isPrefixOf path

def pairOf (cookie : BrowserCookie) : JsString := cookie.name ++ 61 :: cookie.value

/- One turn of the loop: the part it pushes, if any. -/
def cookiePart (toLowerCase : JsString → JsString) (now : ℚ) (protocol host path : JsString) (cookie : BrowserCookie) :
    Option JsString :=
  if !isByteStringSafe cookie.name || !isByteStringSafe cookie.value then none
  else if expired now cookie then none
  else if cookie.secure && decide (protocol ≠ https) then none
  else if !domainCovers toLowerCase host cookie then none
  else if !pathCovers path cookie then none
  else some (pairOf cookie)

def cookieHeaderForUrl (parse : UrlParser) (toLowerCase : JsString → JsString) (now : ℚ)
    (storage : Option (List BrowserCookie)) (urlValue : JsString) : Option JsString := do
  let url ← parse urlValue none
  if url.protocol ≠ https then none
  else
    let cookies ← storage
    let host := toLowerCase url.hostname
    let path := if url.pathname = [] then [47] else url.pathname
    let parts := cookies.filterMap (cookiePart toLowerCase now url.protocol host path)
    if parts = [] then none else some ([59,32].intercalate parts)

/- A domain that begins with a dot covers its base and what is under it; any other only itself. -/
def DomainMatch (host domain : JsString) : Prop := match domain with
  | 46 :: base => host = base ∨ ∃ sub, host = sub ++ 46 :: base
  | _ => host = domain

/- RFC 6265 5.1.4. -/
def PathMatch (path cookiePath : JsString) : Prop :=
  path = cookiePath ∨ ∃ rest, path = cookiePath ++ rest ∧ (cookiePath.getLast? = some 47 ∨ rest.head? = some 47)

structure Due (toLowerCase : JsString → JsString) (now : ℚ) (host path : JsString) (cookie : BrowserCookie) : Prop where
  unexpired : ¬ (0 < cookie.expires ∧ cookie.expires * 1000 < now)
  domain : DomainMatch host (toLowerCase cookie.domain)
  path : PathMatch path (if cookie.path = [] then [47] else cookie.path)

/- A header value: bytes, none of them NUL, CR or LF. -/
def Legal (text : JsString) : Prop := ∀ u ∈ text, u ≤ 255 ∧ u ≠ 0 ∧ u ≠ 13 ∧ u ≠ 10

def Representable (cookie : BrowserCookie) : Prop := Legal (pairOf cookie) ∧ ¬ [59,32] <:+: pairOf cookie

open Classical in
/- What the header of a URL has to be, over the cookies stored. -/
def HeaderExact (parse : UrlParser) (toLowerCase : JsString → JsString) (now : ℚ)
    (storage : Option (List BrowserCookie)) (urlValue : JsString) (header : Option JsString) : Prop :=
  match parse urlValue none with
  | none => header = none
  | some url =>
    if url.protocol ≠ https then header = none
    else
      let due := (storage.getD []).filter fun cookie => Representable cookie ∧
        Due toLowerCase now (toLowerCase url.hostname) (if url.pathname = [] then [47] else url.pathname) cookie
      match header with
      | none => due = []
      | some text => Legal text ∧ splitPair 59 32 text = due.map pairOf

variable {parse : UrlParser} {toLowerCase : JsString → JsString} {now : ℚ}

theorem domainCoversIff {host : JsString} {cookie : BrowserCookie} :
    domainCovers toLowerCase host cookie ↔ DomainMatch host (toLowerCase cookie.domain) := by
  unfold domainCovers DomainMatch
  generalize toLowerCase cookie.domain = domain
  split
  · rename_i base
    have under : (46 :: base).isSuffixOf host ↔ ∃ sub, host = sub ++ 46 :: base := by
      rw [List.isSuffixOf_iff_suffix]
      exact exists_congr fun sub => eq_comm
    rw [← under]
    by_cases same : host = base <;> simp [same]
  · rename_i other
    have plain : domain.head? ≠ some 46 := by
      cases domain with
      | nil => simp
      | cons u base =>
        intro dot
        exact other base (congrArg (· :: base) (Option.some.inj dot))
    simp [plain]

theorem pathCoversIff {path : JsString} {cookie : BrowserCookie} :
    pathCovers path cookie ↔ PathMatch path (if cookie.path = [] then [47] else cookie.path) := by
  unfold pathCovers PathMatch
  generalize (if cookie.path = [] then ([47] : JsString) else cookie.path) = cookiePath
  simp only [Bool.or_eq_true,decide_eq_true_eq,List.isPrefixOf_iff_prefix]
  refine or_congr_right ?_
  split
  · rename_i slash
    exact ⟨fun ⟨rest,same⟩ => ⟨rest,same.symm,.inl slash⟩,fun ⟨rest,same,_⟩ => ⟨rest,same.symm⟩⟩
  · rename_i bare
    constructor
    · rintro ⟨rest,same⟩
      exact ⟨47 :: rest,by simpa using same.symm,.inr rfl⟩
    · rintro ⟨rest,same,slash | slash⟩
      · exact absurd slash bare
      · obtain ⟨rest,rfl⟩ := List.head?_eq_some_iff.mp slash
        exact ⟨rest,by simpa using same.symm⟩

theorem dueIff {host path : JsString} {cookie : BrowserCookie} : Due toLowerCase now host path cookie ↔
    expired now cookie = false ∧ domainCovers toLowerCase host cookie ∧ pathCovers path cookie := by
  rw [domainCoversIff,pathCoversIff]
  constructor
  · intro due
    exact ⟨by simpa [expired] using due.unexpired,due.domain,due.path⟩
  · rintro ⟨fresh,domain,path⟩
    exact ⟨by simpa [expired] using fresh,domain,path⟩

def ByteSafe (cookie : BrowserCookie) : Prop := isByteStringSafe cookie.name ∧ isByteStringSafe cookie.value

theorem partDue {host path : JsString} {cookie : BrowserCookie} {part : JsString} :
    cookiePart toLowerCase now https host path cookie = some part ↔
    (ByteSafe cookie ∧ Due toLowerCase now host path cookie) ∧ pairOf cookie = part := by
  rw [dueIff]
  unfold cookiePart ByteSafe
  cases isByteStringSafe cookie.name <;> cases isByteStringSafe cookie.value <;> cases expired now cookie <;>
    cases domainCovers toLowerCase host cookie <;> cases pathCovers path cookie <;> simp

/- Nothing in a pair that breaks the header it stands in. -/
def Plain (text : JsString) : Prop := (∀ u ∈ text, u ≠ 0 ∧ u ≠ 13 ∧ u ≠ 10) ∧ ¬ [59,32] <:+: text

theorem representable {cookie : BrowserCookie} : Representable cookie ↔ ByteSafe cookie ∧ Plain (pairOf cookie) := by
  have bytes : (∀ u ∈ pairOf cookie, u ≤ 255) ↔ ByteSafe cookie := by
    unfold ByteSafe isByteStringSafe pairOf
    simp [or_imp,forall_and]
  rw [← bytes]
  constructor
  · rintro ⟨legal,whole⟩
    exact ⟨fun u member => (legal u member).1,fun u member => (legal u member).2,whole⟩
  · rintro ⟨small,clean,whole⟩
    exact ⟨fun u member => ⟨small u member,clean u member⟩,whole⟩

theorem intercalateMem {texts : List JsString} {separator : JsString} {text : JsString} (member : text ∈ texts) {u : UInt16}
    (within : u ∈ text) : u ∈ separator.intercalate texts := by
  induction texts with
  | nil => exact absurd member List.not_mem_nil
  | cons first rest ih => cases rest with
    | nil => simpa [List.mem_singleton.mp member] using within
    | cons next more =>
      rw [List.intercalate_cons_cons]
      rcases List.mem_cons.mp member with rfl | later
      · exact List.mem_append_left _ (List.mem_append_left _ within)
      · exact List.mem_append_right _ (ih later)

theorem separatorLegal : Legal [59,32] := by
  intro u member
  rcases List.mem_pair.mp member with rfl | rfl <;> decide

theorem legalJoined {texts : List JsString} (legal : ∀ text ∈ texts, Legal text) : Legal (List.intercalate [59,32] texts) := by
  induction texts with
  | nil => exact fun u member => absurd member List.not_mem_nil
  | cons first rest ih => cases rest with
    | nil => simpa using legal
    | cons next more =>
      have later := ih fun text member => legal text (List.mem_cons_of_mem _ member)
      intro u member
      rw [List.intercalate_cons_cons] at member
      rcases List.mem_append.mp member with early | after
      · rcases List.mem_append.mp early with within | between
        · exact legal first List.mem_cons_self u within
        · exact separatorLegal u between
      · exact later u after

section
open Classical

/- The pairs sent, joined, are split to those that can be represented just when all of them can. -/
theorem joinedExact {sent : List BrowserCookie} (some_ : sent ≠ []) :
    (Legal (List.intercalate [59,32] (sent.map pairOf)) ∧
      splitPair 59 32 (List.intercalate [59,32] (sent.map pairOf)) =
        (sent.filter fun cookie => Representable cookie).map pairOf) ↔ ∀ cookie ∈ sent, Representable cookie := by
  have joined : sent.map pairOf ≠ [] := by simpa using some_
  constructor
  · rintro ⟨_,split_⟩
    have left : (sent.filter fun cookie => Representable cookie).map pairOf ≠ [] := by
      rw [← split_]
      exact splitPairSome _
    have whole : List.intercalate ([59,32] : JsString) (splitPair (59 : UInt16) 32 (List.intercalate [59,32] (sent.map pairOf))) =
        List.intercalate [59,32] (sent.map pairOf) := joinSplitPair _
    rw [split_] at whole
    have few := Separated.joinedSize ([59,32] : JsString) left
    have many := Separated.joinedSize ([59,32] : JsString) joined
    rw [whole,many,List.map_map,List.map_map] at few
    have same := sublistSum (fun cookie => Nat.succ_pos ((pairOf cookie).length + 1)) List.filter_sublist few.symm
    intro cookie member
    rw [← same] at member
    exact of_decide_eq_true (List.mem_filter.mp member).2
  · intro fine
    have all : (sent.filter fun cookie => Representable cookie) = sent :=
      List.filter_eq_self.mpr fun cookie member => decide_eq_true (fine cookie member)
    refine ⟨legalJoined fun text member => ?_,?_⟩
    · obtain ⟨cookie,there,rfl⟩ := List.mem_map.mp member
      exact (fine cookie there).1
    · rw [all,splitPairJoined (by decide) joined]
      intro text member
      obtain ⟨cookie,there,rfl⟩ := List.mem_map.mp member
      exact (fine cookie there).2

theorem partsSent (host path : JsString) (cookies : List BrowserCookie) :
    cookies.filterMap (cookiePart toLowerCase now https host path) =
      (cookies.filter fun cookie => ByteSafe cookie ∧ Due toLowerCase now host path cookie).map pairOf := by
  induction cookies with
  | nil => rfl
  | cons cookie rest ih =>
    by_cases sent : ByteSafe cookie ∧ Due toLowerCase now host path cookie
    · rw [List.filterMap_cons_some (partDue.mpr ⟨sent,rfl⟩),ih]
      simp [sent]
    · have none_ : cookiePart toLowerCase now https host path cookie = none :=
        Option.eq_none_iff_forall_ne_some.mpr fun part made => sent (partDue.mp made).1
      rw [List.filterMap_cons_none none_,ih,List.filter_cons_of_neg (by simpa using sent)]

end

/-- The header is exact just when every byte-safe cookie due to the URL has a pair without NUL, CR, LF and `; `. -/
theorem headerExactly (parse : UrlParser) (toLowerCase : JsString → JsString) (now : ℚ)
    (storage : Option (List BrowserCookie)) (urlValue : JsString) :
    HeaderExact parse toLowerCase now storage urlValue (cookieHeaderForUrl parse toLowerCase now storage urlValue) ↔
    ∀ url, parse urlValue none = some url → url.protocol = https → ∀ cookies, storage = some cookies →
      ∀ cookie ∈ cookies, ByteSafe cookie →
        Due toLowerCase now (toLowerCase url.hostname) (if url.pathname = [] then [47] else url.pathname) cookie →
        Plain (pairOf cookie) := by
  classical
  unfold HeaderExact cookieHeaderForUrl
  cases read : parse urlValue none with
  | none => simp
  | some url =>
    by_cases secure : url.protocol = https
    · cases storage with
      | none => simp [secure]
      | some cookies =>
        obtain ⟨host,hosted⟩ : ∃ host, host = toLowerCase url.hostname := ⟨_,rfl⟩
        obtain ⟨path,pathed⟩ : ∃ path, path = if url.pathname = [] then ([47] : JsString) else url.pathname := ⟨_,rfl⟩
        obtain ⟨sent,made⟩ : ∃ sent, sent = cookies.filter fun cookie => ByteSafe cookie ∧ Due toLowerCase now host path cookie :=
          ⟨_,rfl⟩
        have told : (∀ cookie ∈ cookies, ByteSafe cookie → Due toLowerCase now host path cookie → Plain (pairOf cookie)) ↔
            ∀ cookie ∈ sent, Representable cookie := by
          simp only [made,List.mem_filter,decide_eq_true_eq,representable]
          exact ⟨fun plain cookie sent => ⟨sent.2.1,plain cookie sent.1 sent.2.1 sent.2.2⟩,
            fun fine cookie member bytes due => (fine cookie ⟨member,bytes,due⟩).2⟩
        have due : (cookies.filter fun cookie => Representable cookie ∧ Due toLowerCase now host path cookie) =
            sent.filter fun cookie => Representable cookie := by
          rw [made,List.filter_filter]
          refine List.filter_congr fun cookie _ => ?_
          simp only [decide_eq_decide,← Bool.decide_and]
          exact ⟨fun both => ⟨both.1,(representable.mp both.1).1,both.2⟩,fun all => ⟨all.1,all.2.2⟩⟩
        simp only [Option.bind_eq_bind,Option.bind_some,secure,ne_eq,not_true_eq_false,if_false,Option.getD_some,← hosted,← pathed,
          partsSent,← made,due,List.map_eq_nil_iff]
        trans ∀ cookie ∈ sent, Representable cookie
        · by_cases some_ : sent = []
          · simp [some_]
          · simp only [some_,if_false]
            exact joinedExact some_
        · rw [← told]
          constructor
          · intro plain other found _ list stored
            cases found
            cases stored
            rwa [← hosted,← pathed]
          · intro plain
            have here := plain url rfl secure cookies rfl
            rwa [← hosted,← pathed] at here
    · simp [secure]

def shopPage : Url := ⟨https,[],[],js "a.example",[],js "/",[],[],by decide,noPort⟩

def smuggler : BrowserCookie := ⟨js "a",js "1; b=2",js "a.example",[],0,false⟩

/- The value of one cookie reads as a pair of its own. -/
theorem smuggledPair : ¬ HeaderExact (fun _ _ => some shopPage) id 0 (some [smuggler]) (js "https://a.example/")
    (cookieHeaderForUrl (fun _ _ => some shopPage) id 0 (some [smuggler]) (js "https://a.example/")) := by
  have sent : cookieHeaderForUrl (fun _ _ => some shopPage) id 0 (some [smuggler]) (js "https://a.example/") =
      some (js "a=1; b=2") := by decide
  have split_ : splitPair 59 32 (js "a=1; b=2") = [js "a=1",js "b=2"] := by decide
  intro exact_
  rw [sent] at exact_
  have few := congrArg List.length (split_.symm.trans exact_.2)
  have most : ∀ keep : BrowserCookie → Bool, (([smuggler].filter keep).map pairOf).length ≤ 1 := fun keep => by
    rw [List.length_map]
    exact List.length_filter_le keep [smuggler]
  exact absurd (few.le.trans (most _)) (by decide)

end Northstar.Chrome
