import Northstar.Web.Store

/-! Reading a stored response (web-access-content-find.ts): selectors, slices, and finding a text in it
exactly, whatever the case, or by its words. -/
namespace Northstar.Web
open Scanning (Listed Nth Stands indexFrom indexNext listedAll listedApart listedStands scan scanListed)

inductive WebAccessFindMode where
  | exact | caseInsensitive | fuzzy
  deriving DecidableEq

inductive FindText where
  | one (text : JsString)
  | many (texts : List JsString)

structure WebAccessGetContentRequest where
  responseId : JsString
  queryIndex : Option Nat
  query : Option JsString
  url : Option JsString
  urlIndex : Option Nat
  provider : Option JsString
  offset : Option Int
  limit : Option Int
  findText : Option FindText
  findMode : Option JsString
  caseSensitive : Option Bool
  fuzzy : Option Bool

structure WebAccessContentMatch where
  query : JsString
  index : Nat
  excerpt : JsString

structure WebAccessContentResult where
  responseId : JsString
  text : JsString
  totalChars : Nat
  offset : Nat
  truncated : Bool
  nextOffset : Option Nat
  found : Option (List WebAccessContentMatch)
  findMode : Option WebAccessFindMode

def formatHit (hit : WebAccessSearchHit) : JsString :=
  js "- " ++ hit.title ++ js " (" ++ hit.url ++ js ")\n  " ++ hit.snippet

def queryHead (queryIndex : Nat) (query : JsString) : JsString := js "Query[" ++ js (toString queryIndex) ++ js "]: " ++ query

def serializeResult (result : WebAccessQueryResult) : JsString :=
  join [10] ([queryHead result.queryIndex result.query] ++ match result.outcome with
    | .ok response =>
        ((filled response.answer).map fun answer => js "Answer (" ++ response.provider ++ js "): " ++ answer).toList ++
          response.results.map formatHit ++ ((filled response.inlineContent).map (js "Content: " ++ ·)).toList
    | .error failure => [js "Error (" ++ failure.provider ++ js "/" ++ failure.kind ++ js "): " ++ failure.message])

def serializeWebAccessEntry (results : List WebAccessQueryResult) : JsString := join [10,10] (results.map serializeResult)

def hitsOf (result : WebAccessQueryResult) : List WebAccessSearchHit := (result.response.map (·.results)).getD []

def collectUrls (results : List WebAccessQueryResult) : List JsString := results.flatMap fun result => (hitsOf result).map (·.url)

def selectResults (entry : WebAccessStoredEntry) (req : WebAccessGetContentRequest) : List WebAccessQueryResult :=
  let results := entry.results
  let results := match req.queryIndex with
    | none => results
    | some i => results.filter (·.queryIndex = i)
  let results := match req.query with
    | none => results
    | some query => if 0 < (trim query).length then results.filter (·.query = query) else results
  match req.provider with
  | none => results
  | some provider => results.filter fun r => r.response.map (·.provider) = some provider

/- The hits of one url, each response's page text behind its own. -/
def selectUrl (results : List WebAccessQueryResult) (needle : JsString) : JsString :=
  join [10] (results.flatMap fun result =>
    ((hitsOf result).filter (·.url = needle)).map formatHit ++
      match result.response.bind fun response => filled response.inlineContent with
      | none => []
      | some content => if (hitsOf result).any (·.url = needle) then [js "Content: " ++ content] else [])

def namedUrl (url : Option JsString) : Option JsString := url.bind fun u => if 0 < (trim u).length then some (trim u) else none

def selectText (entry : WebAccessStoredEntry) (req : WebAccessGetContentRequest) : JsString :=
  let results := selectResults entry req
  match namedUrl req.url, req.urlIndex with
  | some needle, _ => selectUrl results needle
  | none, none => serializeWebAccessEntry results
  | none, some i => match (collectUrls results)[i]? with
      | none => []
      | some picked => match namedUrl (some picked) with
          | some needle => selectUrl results needle
          | none => serializeWebAccessEntry results

def FindText.list : FindText → List JsString
  | .one text => [text]
  | .many texts => texts

def normalizeFindQueries (findText : FindText) : Except JsString (List JsString) :=
  let out := (findText.list.map trim).filter (0 < ·.length)
  if out.length = 0 then .error (js "findText must contain at least one non-empty string") else .ok out

def resolveFindMode (req : WebAccessGetContentRequest) : Except JsString WebAccessFindMode := match req.findMode with
  | some mode =>
      if mode = js "exact" then .ok .exact
      else if mode = js "case-insensitive" then .ok .caseInsensitive
      else if mode = js "fuzzy" then .ok .fuzzy
      else .error (js "findMode must be one of: exact, case-insensitive, fuzzy")
  | none =>
      if req.fuzzy = some true then .ok .fuzzy
      else if req.caseSensitive = some true then .ok .exact
      else .ok .caseInsensitive

/- The other tokens behind the first, one after the other. -/
def inOrder (lower : JsString) : List JsString → Nat → Bool
  | [], _ => true
  | token :: rest, cursor => match indexFrom token lower cursor with
      | none => false
      | some next => inOrder lower rest (next + token.length)

/- Each round starts at least one unit later; `room` is what is left of the twenty. -/
def fuzzyFrom (lower first : JsString) (rest : List JsString) : Nat → Nat → Nat → List Nat
  | 0, _, _ => []
  | n + 1, room, start => match indexFrom first lower start with
      | none => []
      | some place =>
          let here := if inOrder lower rest (place + first.length) then [place] else []
          if room ≤ here.length then here else here ++ fuzzyFrom lower first rest n (room - here.length) (place + 1)

def findIndices (lower : JsString → JsString) (haystack needle : JsString) : WebAccessFindMode → List Nat
  | .exact => scan (indexFrom needle haystack) (max 1 needle.length) 20 0
  | .caseInsensitive => scan (indexFrom (lower needle) (lower haystack)) (max 1 (lower needle).length) 20 0
  | .fuzzy => match ((lower needle).splitOnP whiteSpace).filter (· ≠ []) with
      | [] => []
      | first :: rest => fuzzyFrom (lower haystack) first rest ((lower haystack).length + 1) 20 0

def matchAt (text query : JsString) (index : Nat) : WebAccessContentMatch :=
  ⟨query,index,excerptAround text index query.length⟩

/- The matches of one query, up to twenty in all. -/
def addMatches (text query : JsString) : List WebAccessContentMatch → List Nat → List WebAccessContentMatch
  | found, [] => found
  | found, index :: rest =>
      let found := found ++ [matchAt text query index]
      if 20 ≤ found.length then found else addMatches text query found rest

def findAll (lower : JsString → JsString) (text : JsString) (mode : WebAccessFindMode) :
    List WebAccessContentMatch → List JsString → List WebAccessContentMatch
  | found, [] => found
  | found, query :: rest =>
      let found := addMatches text query found (findIndices lower text query mode)
      if 20 ≤ found.length then found else findAll lower text mode found rest

def getWebAccessContent (lower : JsString → JsString) (store : WebAccessContentStore) (req : WebAccessGetContentRequest) :
    Except JsString WebAccessContentResult := do
  let some entry := store req.responseId
    | throw (js "No stored results for responseId " ++ quote req.responseId ++ js ". Use a responseId returned by search or fetch_content.")
  if req.findMode.isSome && req.findText.isNone then
    throw (js "findMode requires findText; provide findText or omit findMode.")
  let text := selectText entry req
  match req.findText with
  | some findText => do
      let queries ← normalizeFindQueries findText
      let mode ← resolveFindMode req
      let found := findAll lower text mode [] queries
      return ⟨req.responseId,join (js "\n---\n") (found.map (·.excerpt)),text.length,0,false,none,some found,some mode⟩
  | none => do
      let sliced ← sliceText text req.offset req.limit
      return ⟨req.responseId,sliced.text,text.length,sliced.offset,sliced.truncated,sliced.nextOffset,none,none⟩

/- Where the text agrees with a query, as its mode has it. -/
def AgreesIn (lower : JsString → JsString) (mode : WebAccessFindMode) (text query : JsString) (place : Nat) : Prop := match mode with
  | .exact => Stands query text place
  | _ => Agrees lower text query place

/- Each match stands where the text agrees with its query, those of one query do not overlap, and
with fewer than twenty no occurrence is missing. -/
structure FindsRight (lower : JsString → JsString) (mode : WebAccessFindMode) (text : JsString) (queries : List JsString)
    (found : List WebAccessContentMatch) : Prop where
  sound : ∃ runs : List (JsString × List Nat), runs.map Prod.fst <+: queries ∧
    found = (runs.flatMap fun run => run.2.map (matchAt text run.1)) ∧
    ∀ run ∈ runs, (∀ place ∈ run.2, AgreesIn lower mode text run.1 place) ∧ run.2.Pairwise fun p q => p + run.1.length ≤ q
  complete : found.length < 20 → ∀ query ∈ queries, ∀ rank place,
    Nth (AgreesIn lower mode text query) query.length 0 rank place → matchAt text query place ∈ found

theorem exactListed (lower : JsString → JsString) (text : JsString) {query : JsString} (some_ : query ≠ []) :
    Listed (AgreesIn lower .exact text query) query.length 20 0 (findIndices lower text query .exact) := by
  have size : max 1 query.length = query.length := Nat.max_eq_right (List.length_pos_iff.mpr some_)
  rw [findIndices,size]
  exact scanListed (indexNext some_ text) 20 0

theorem addedMatches (text query : JsString) (found : List WebAccessContentMatch) (places : List Nat) :
    ∃ part, part <+: places ∧ addMatches text query found places = found ++ part.map (matchAt text query) ∧
      ((addMatches text query found places).length < 20 → part = places) := by
  induction places generalizing found with
  | nil => exact ⟨[],List.prefix_rfl,(List.append_nil found).symm,fun _ => rfl⟩
  | cons place rest ih =>
    rw [addMatches]
    split
    · rename_i full
      exact ⟨[place],List.prefix_append [place] rest,rfl,fun few => absurd full (Nat.not_le.mpr few)⟩
    · obtain ⟨part,prefix_,same,whole⟩ := ih (found ++ [matchAt text query place])
      refine ⟨place :: part,List.cons_prefix_cons.mpr ⟨rfl,prefix_⟩,?_,fun few => by rw [whole few]⟩
      rw [same,List.append_assoc]
      rfl

theorem foundAll (lower : JsString → JsString) (text : JsString) (mode : WebAccessFindMode) (found : List WebAccessContentMatch)
    (queries : List JsString) : ∃ runs : List (JsString × List Nat), runs.map Prod.fst <+: queries ∧
      findAll lower text mode found queries = found ++ (runs.flatMap fun run => run.2.map (matchAt text run.1)) ∧
      (∀ run ∈ runs, run.2 <+: findIndices lower text run.1 mode) ∧
      ((findAll lower text mode found queries).length < 20 → ∀ query ∈ queries, (query,findIndices lower text query mode) ∈ runs) := by
  induction queries generalizing found with
  | nil =>
    exact ⟨[],List.prefix_rfl,(List.append_nil found).symm,fun _ member => absurd member List.not_mem_nil,
      fun _ _ member => absurd member List.not_mem_nil⟩
  | cons query rest ih =>
    obtain ⟨part,prefix_,same,whole⟩ := addedMatches text query found (findIndices lower text query mode)
    rw [findAll]
    split
    · rename_i full
      refine ⟨[(query,part)],List.prefix_append [query] rest,?_,?_,fun few => absurd full (Nat.not_le.mpr few)⟩
      · rw [same,List.flatMap_singleton]
      · intro run member
        rw [List.mem_singleton.mp member]
        exact prefix_
    · rename_i room
      obtain ⟨runs,firsts,later,each,all⟩ := ih (addMatches text query found (findIndices lower text query mode))
      refine ⟨(query,part) :: runs,List.cons_prefix_cons.mpr ⟨rfl,firsts⟩,?_,?_,?_⟩
      · rw [later,same,List.append_assoc,List.flatMap_cons]
      · intro run member
        rcases List.mem_cons.mp member with rfl | inside
        · exact prefix_
        · exact each run inside
      · intro few q member
        rcases List.mem_cons.mp member with rfl | inside
        · rw [whole (Nat.not_le.mp room)]
          exact List.mem_cons_self
        · exact List.mem_cons_of_mem _ (all few q inside)

theorem findsAll {lower : JsString → JsString} {text : JsString} {mode : WebAccessFindMode} {queries : List JsString}
    (each : ∀ query ∈ queries, Listed (AgreesIn lower mode text query) query.length 20 0 (findIndices lower text query mode)) :
    FindsRight lower mode text queries (findAll lower text mode [] queries) := by
  obtain ⟨runs,firsts,same,parts,all⟩ := foundAll lower text mode [] queries
  rw [List.nil_append] at same
  refine ⟨⟨runs,firsts,same,fun run member => ?_⟩,fun few query member rank place nth => ?_⟩
  · have own := each run.1 (firsts.subset (List.mem_map_of_mem member))
    exact ⟨fun place inside => listedStands own ((parts run member).subset inside),(listedApart own).sublist (parts run member).sublist⟩
  · have run := all few query member
    have size : (findIndices lower text query mode).length < 20 := by
      have part : ((findIndices lower text query mode).map (matchAt text query)).Sublist (findAll lower text mode [] queries) := by
        rw [same]
        exact List.sublist_flatten_of_mem (List.mem_map_of_mem run)
      have most := part.length_le
      rw [List.length_map] at most
      omega
    rw [same]
    exact List.mem_flatMap.mpr ⟨_,run,List.mem_map_of_mem (listedAll (each query member) size nth)⟩

theorem queriesSome {findText : FindText} {queries : List JsString} (ok : normalizeFindQueries findText = .ok queries) :
    ∀ query ∈ queries, query ≠ [] := by
  unfold normalizeFindQueries at ok
  dsimp only at ok
  split at ok
  · cases ok
  · intro query member
    rw [← Except.ok.inj ok] at member
    exact List.length_pos_iff.mp (of_decide_eq_true (List.mem_filter.mp member).2)

/-- A find is right in exact mode, and whatever the case where lower-casing keeps its queries in their places. -/
theorem contentFinds {lower : JsString → JsString} {store : WebAccessContentStore} {req : WebAccessGetContentRequest}
    {entry : WebAccessStoredEntry} {findText : FindText} {queries : List JsString} {mode : WebAccessFindMode}
    (stored : store req.responseId = some entry) (asked : req.findText = some findText)
    (normal : normalizeFindQueries findText = .ok queries) (resolved : resolveFindMode req = .ok mode)
    (keeps : mode = .exact ∨ mode = .caseInsensitive ∧ ∀ query ∈ queries, Keeps lower (selectText entry req) query) :
    ∃ result found, getWebAccessContent lower store req = .ok result ∧ result.found = some found ∧
      FindsRight lower mode (selectText entry req) queries found := by
  have some_ := queriesSome normal
  have right : FindsRight lower mode (selectText entry req) queries (findAll lower (selectText entry req) mode [] queries) := by
    rcases keeps with rfl | ⟨rfl,keeps⟩
    · exact findsAll fun query member => exactListed lower _ (some_ query member)
    · exact findsAll fun query member => keptListed (some_ query member) (keeps query member) 20
  have answer : getWebAccessContent lower store req = .ok ⟨req.responseId,
      join (js "\n---\n") ((findAll lower (selectText entry req) mode [] queries).map (·.excerpt)),(selectText entry req).length,
      0,false,none,some (findAll lower (selectText entry req) mode [] queries),some mode⟩ := by
    unfold getWebAccessContent
    rw [stored,asked]
    simp only [Option.isNone_some,Bool.and_false]
    rw [normal,resolved]
    rfl
  exact ⟨_,_,answer,rfl,right⟩

/- As far as Latin letters go: I with a dot above becomes two units. -/
def latinLower (text : JsString) : JsString :=
  text.flatMap fun u => if u = 0x130 then [0x69,0x307] else if 65 ≤ u ∧ u ≤ 90 then [u + 32] else [u]

def storedQuery (query : JsString) : WebAccessContentStore := fun id =>
  if id = js "r1" then some ⟨[⟨0,query,.ok ⟨js "tavily",[],none,none⟩⟩]⟩ else none

def findRequest (text : JsString) : WebAccessGetContentRequest :=
  ⟨js "r1",none,none,none,none,none,none,none,some (.one text),none,none,none⟩

theorem bravoFound : ∃ result found, getWebAccessContent asciiLower (storedQuery (js "Alpha Bravo")) (findRequest (js "bRaVo")) = .ok result ∧
    result.found = some found ∧ FindsRight asciiLower .caseInsensitive
      (selectText ⟨[⟨0,js "Alpha Bravo",.ok ⟨js "tavily",[],none,none⟩⟩]⟩ (findRequest (js "bRaVo"))) [js "bRaVo"] found :=
  contentFinds rfl rfl rfl rfl (.inr ⟨rfl,fun _ _ => unitsKeep (fun _ _ => rfl) rfl⟩)

def dottedText : JsString := js "Query[0]: \u0130x"

/- The match is one unit behind the letter, where the text has ended. -/
theorem dottedMoved : ((getWebAccessContent latinLower (storedQuery (js "\u0130x")) (findRequest (js "X"))).toOption.bind (·.found)).map
      (fun found => found.map (·.index)) = some [12] ∧
    selectText ⟨[⟨0,js "\u0130x",.ok ⟨js "tavily",[],none,none⟩⟩]⟩ (findRequest (js "X")) = dottedText ∧
    dottedText.length = 12 ∧ Agrees latinLower dottedText (js "X") 11 ∧ ¬Agrees latinLower dottedText (js "X") 12 ∧
    ¬FindsRight latinLower .caseInsensitive dottedText [js "X"] [matchAt dottedText (js "X") 12] := by
  have missing : ¬Agrees latinLower dottedText (js "X") 12 := by decide
  refine ⟨by decide,by decide,by decide,by decide,missing,fun right => ?_⟩
  obtain ⟨runs,-,same,each⟩ := right.sound
  have member : matchAt dottedText (js "X") 12 ∈ runs.flatMap fun run => run.2.map (matchAt dottedText run.1) :=
    same ▸ List.mem_cons_self
  obtain ⟨run,inside,within⟩ := List.mem_flatMap.mp member
  obtain ⟨place,there,is_⟩ := List.mem_map.mp within
  have agrees := (each run inside).1 place there
  rw [show run.1 = js "X" from congrArg WebAccessContentMatch.query is_,show place = 12 from congrArg WebAccessContentMatch.index is_] at agrees
  exact missing agrees

end Northstar.Web
