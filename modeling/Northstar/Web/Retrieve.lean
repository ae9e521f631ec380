import Northstar.Web.Store

/-! Retrieving a stored corpus (web-access-retrieve.ts): its sources as citation blocks in one text, and
the source a found text is attributed to. -/
namespace Northstar.Web
open Scanning (Listed Nth Stands indexFrom listedMember listedStands scan)

structure WebAccessRetrieveRequest where
  responseId : JsString
  sourceIds : Option (List JsString)
  offset : Option Int
  limit : Option Int
  findText : Option JsString

structure WebAccessRetrieveSource where
  sourceId : JsString
  url : JsString
  title : JsString
  provider : JsString
  contentHash : JsString

structure WebAccessRetrieveMatch where
  sourceId : JsString
  index : Nat
  excerpt : JsString

structure WebAccessRetrieveResult where
  responseId : JsString
  text : JsString
  totalChars : Nat
  offset : Nat
  truncated : Bool
  nextOffset : Option Nat
  sources : List WebAccessRetrieveSource
  found : Option (List WebAccessRetrieveMatch)

structure CorpusSource where
  sourceId : JsString
  url : JsString
  title : JsString
  provider : JsString
  snippet : JsString
  inlineContent : Option JsString
  answer : Option JsString
  queryIndex : Nat
  query : JsString

def sourceIdOf (queryIndex hitIndex : Nat) : JsString := js "s-" ++ js (toString queryIndex) ++ js "-" ++ js (toString hitIndex)

def sourcesOf (result : WebAccessQueryResult) : List CorpusSource := match result.response with
  | none => []
  | some response => response.results.zipIdx.map fun (hit,hitIndex) =>
      ⟨sourceIdOf result.queryIndex hitIndex,hit.url,hit.title,response.provider,hit.snippet,response.inlineContent,response.answer,
        result.queryIndex,result.query⟩

def collectSources (store : WebAccessContentStore) (responseId : JsString) (sourceIds : Option (List JsString)) :
    Except JsString (List CorpusSource) := do
  let some entry := store responseId
    | throw (js "No stored results for responseId " ++ quote responseId ++ js ". ResponseIds expire after 1h; re-run search.")
  let all := entry.results.flatMap sourcesOf
  match sourceIds with
  | none => return all
  | some wanted =>
      let unknown := wanted.eraseDups.filter fun id => !all.any (·.sourceId = id)
      if unknown ≠ [] then
        throw (js "Unknown sourceIds for responseId " ++ quote responseId ++ js ": " ++ join (js ", ") unknown)
      return all.filter (wanted.contains ·.sourceId)

variable (sha256hex : Bytes → JsString)

def hashCorpusSource (source : CorpusSource) : JsString :=
  js "sha256:" ++ sha256hex (utf8 (source.title ++ [10] ++ source.url ++ [10] ++ source.snippet ++ [10] ++ source.inlineContent.getD []))

def formatSource (source : CorpusSource) : JsString :=
  join [10] ([js "[" ++ source.sourceId ++ js "] " ++ source.title ++ js " (" ++ source.url ++ js ") [" ++ hashCorpusSource sha256hex source ++
    js "]"] ++ if 0 < source.snippet.length then [source.snippet] else [])

/- The sources of one query with the first of them; no group is empty. -/
def corpusGroups (sources : List CorpusSource) : List (CorpusSource × List CorpusSource) :=
  (sources.map (·.queryIndex)).eraseDups.filterMap fun queryIndex =>
    let group := sources.filter (·.queryIndex = queryIndex)
    group.head?.map fun head => (head,group)

/- The lines of a block before its sources, and behind them. -/
def headLines (head : CorpusSource) : List JsString :=
  [js "Query[" ++ js (toString head.queryIndex) ++ js "]: " ++ head.query] ++
    ((filled head.answer).map fun answer => js "Answer (" ++ head.provider ++ js "): " ++ answer).toList

def tailLines (head : CorpusSource) : List JsString := ((filled head.inlineContent).map (js "Content: " ++ ·)).toList

def serializeCorpus (sources : List CorpusSource) : JsString :=
  join [10,10] ((corpusGroups sources).map fun (head,group) =>
    join [10] (headLines head ++ group.map (formatSource sha256hex) ++ tailLines head))

/- new RegExp(`${id}(?!\d)`).test(excerpt) -/
def named (id excerpt : JsString) : Bool :=
  (List.range (excerpt.length + 1)).any fun place =>
    decide (Stands id excerpt place) && !(excerpt.drop (place + id.length)).head?.any fun u => 48 ≤ u && u ≤ 57

def ownerOf (sources : List CorpusSource) (excerpt : JsString) : JsString :=
  (((sources.find? fun s => named s.sourceId excerpt).map (·.sourceId)).or (sources.head?.map (·.sourceId))).getD []

def retrieveMatch (sources : List CorpusSource) (text findText : JsString) (index : Nat) : WebAccessRetrieveMatch :=
  let excerpt := excerptAround text index findText.length
  ⟨ownerOf sources excerpt,index,excerpt⟩

def retrieveWebAccessCorpus (lower : JsString → JsString) (store : WebAccessContentStore) (req : WebAccessRetrieveRequest) :
    Except JsString WebAccessRetrieveResult := do
  let sources ← collectSources store req.responseId req.sourceIds
  let text := serializeCorpus sha256hex sources
  let cited := sources.map fun s => (⟨s.sourceId,s.url,s.title,s.provider,hashCorpusSource sha256hex s⟩ : WebAccessRetrieveSource)
  match req.findText with
  | some findText =>
      if findText.length = 0 then throw (js "findText must be a non-empty string when provided")
      let needle := lower findText
      let found := (scan (indexFrom needle (lower text)) (max 1 needle.length) 20 0).map (retrieveMatch sources text findText)
      return ⟨req.responseId,join (js "\n---\n") (found.map (·.excerpt)),text.length,0,false,none,cited,some found⟩
  | none =>
      let sliced ← sliceText text req.offset req.limit
      return ⟨req.responseId,sliced.text,text.length,sliced.offset,sliced.truncated,sliced.nextOffset,cited,none⟩

/- The text again, cut where the sources' blocks begin and end. -/
abbrev Segment := Option CorpusSource × JsString

def plainSegment (text : JsString) : Segment := (none,text)

def groupSegments (group : CorpusSource × List CorpusSource) : List Segment :=
  ((headLines group.1).map plainSegment ++ group.2.map (fun s => (some s,formatSource sha256hex s)) ++
    (tailLines group.1).map plainSegment).intersperse (plainSegment [10])

def corpusSegments (sources : List CorpusSource) : List Segment :=
  (((corpusGroups sources).map (groupSegments sha256hex)).intersperse [plainSegment [10,10]]).flatten

/- Where a source's block begins. -/
def BlockAt (sources : List CorpusSource) (s : CorpusSource) (start : Nat) : Prop :=
  ∃ before after, corpusSegments sha256hex sources = before ++ (some s,formatSource sha256hex s) :: after ∧
    start = (before.flatMap Prod.snd).length

/- The stretch lies in the block. -/
def InBlock (sources : List CorpusSource) (s : CorpusSource) (place size : Nat) : Prop :=
  ∃ start, BlockAt sha256hex sources s start ∧ start ≤ place ∧ place + size ≤ start + (formatSource sha256hex s).length

/- Matches name the source they lie in and show what was looked for. -/
structure Attributed (lower : JsString → JsString) (sources : List CorpusSource) (findText : JsString)
    (found : List WebAccessRetrieveMatch) : Prop where
  owner : ∀ m ∈ found, ∀ s, InBlock sha256hex sources s m.index findText.length → m.sourceId = s.sourceId
  shown : ∀ m ∈ found, ∃ stretch, stretch <:+: m.excerpt ∧ lower stretch = lower findText

/- The first source that an excerpt names has this id, or it names none and the first of all has. -/
def Names (sources : List CorpusSource) (excerpt id : JsString) : Prop :=
  ∃ before own after, sources = before ++ own :: after ∧ own.sourceId = id ∧ (∀ t ∈ before, named t.sourceId excerpt = false) ∧
    (named own.sourceId excerpt = true ∨ before = [] ∧ ∀ t ∈ sources, named t.sourceId excerpt = false)

/- Around each of the first twenty occurrences that lie in a block, the text names its source first. -/
def WindowsName (lower : JsString → JsString) (sources : List CorpusSource) (findText : JsString) : Prop :=
  ∀ rank < 20, ∀ place, Nth (Agrees lower (serializeCorpus sha256hex sources) findText) findText.length 0 rank place →
    ∀ s, InBlock sha256hex sources s place findText.length →
      Names sources (excerptAround (serializeCorpus sha256hex sources) place findText.length) s.sourceId

theorem interspersedText {α : Type} (text : α → JsString) (separator : α) (parts : List α) :
    (parts.intersperse separator).flatMap text = join (text separator) (parts.map text) := by
  induction parts using List.twoStepInduction with
  | nil => rfl
  | singleton part => rfl
  | cons_cons first second rest _ ih =>
    rw [List.intersperse_cons_cons,List.flatMap_cons,List.flatMap_cons,ih]
    rfl

theorem segmentsSpell (sources : List CorpusSource) : (corpusSegments sha256hex sources).flatMap Prod.snd = serializeCorpus sha256hex sources := by
  have block (group : CorpusSource × List CorpusSource) : (groupSegments sha256hex group).flatMap Prod.snd =
      join [10] (headLines group.1 ++ group.2.map (formatSource sha256hex) ++ tailLines group.1) := by
    have plain (lines : List JsString) : (lines.map plainSegment).map Prod.snd = lines := by
      rw [List.map_map]
      exact List.map_id lines
    have blocks : (group.2.map fun s => ((some s,formatSource sha256hex s) : Segment)).map Prod.snd = group.2.map (formatSource sha256hex) :=
      List.map_map
    rw [groupSegments,interspersedText,List.map_append,List.map_append,plain,plain,blocks]
    rfl
  have joined := interspersedText (fun segments : List Segment => segments.flatMap Prod.snd) [plainSegment [10,10]]
    ((corpusGroups sources).map (groupSegments sha256hex))
  rw [List.map_map] at joined
  have texts : ((fun segments : List Segment => segments.flatMap Prod.snd) ∘ groupSegments sha256hex) = fun group =>
      join [10] (headLines group.1 ++ group.2.map (formatSource sha256hex) ++ tailLines group.1) := funext block
  rw [texts] at joined
  rw [corpusSegments,List.flatten_eq_flatMap,List.flatMap_assoc]
  exact joined

theorem ownerNames {sources : List CorpusSource} (some_ : sources ≠ []) (excerpt id : JsString) :
    ownerOf sources excerpt = id ↔ Names sources excerpt id := by
  cases found : sources.find? fun s => named s.sourceId excerpt with
  | some own =>
    have owner : ownerOf sources excerpt = own.sourceId := by
      rw [ownerOf,found]
      rfl
    obtain ⟨here,before,after,split,none_⟩ := List.find?_eq_some_iff_append.mp found
    rw [owner]
    constructor
    · rintro rfl
      exact ⟨before,own,after,split,rfl,fun t member => by simpa using none_ t member,.inl here⟩
    · rintro ⟨before',own',after',split',rfl,none',own_ | ⟨-,all⟩⟩
      · have found' : (sources.find? fun s => named s.sourceId excerpt) = some own' := List.find?_eq_some_iff_append.mpr
           ⟨own_,before',after',split',fun t member => by simpa using none' t member⟩
        rw [Option.some.inj (found.symm.trans found')]
      · rw [all own (split ▸ List.mem_append_right before List.mem_cons_self)] at here
        contradiction
  | none =>
    have none_ : ∀ t ∈ sources, named t.sourceId excerpt = false := fun t member => by
      simpa using List.find?_eq_none.mp found t member
    have owner : ownerOf sources excerpt = (sources.head?.map (·.sourceId)).getD [] := by
      rw [ownerOf,found]
      rfl
    rw [owner]
    constructor
    · rintro rfl
      cases sources with
      | nil => contradiction
      | cons first rest => exact ⟨[],first,rest,rfl,rfl,fun t member => absurd member List.not_mem_nil,.inr ⟨rfl,none_⟩⟩
    · rintro ⟨before,own,after,split,rfl,-,own_ | ⟨rfl,-⟩⟩
      · rw [none_ own (split ▸ List.mem_append_right before List.mem_cons_self)] at own_
        contradiction
      · rw [split]
        rfl

theorem blockSome {sources : List CorpusSource} {s : CorpusSource} {place size : Nat} (inside : InBlock sha256hex sources s place size) :
    sources ≠ [] := by
  rintro rfl
  obtain ⟨start,⟨before,after,same,-⟩,-⟩ := inside
  exact List.append_ne_nil_of_right_ne_nil before (List.cons_ne_nil _ after) same.symm

/- The excerpt holds the stretch it is made around. -/
theorem excerptHolds (text : JsString) (place size : Nat) : (text.drop place).take size <:+: excerptAround text place size := by
  have shifted : place - 200 + (place - (place - 200)) = place := by omega
  have stretch : (((text.take (min text.length (place + size + 200))).drop (place - 200)).drop (place - (place - 200))).take size =
      (text.drop place).take size := by
    rw [List.drop_drop,shifted,List.drop_take,List.take_take]
    rcases Nat.le_total text.length (place + size + 200) with short | long
    · rw [Nat.min_eq_left short,List.take_eq_take_iff,List.length_drop]
      omega
    · rw [Nat.min_eq_right long,show min size (place + size + 200 - place) = size by omega]
  rw [← stretch]
  exact (List.take_prefix _ _).isInfix.trans (List.drop_suffix _ _).isInfix

theorem matchExcerpt (sources : List CorpusSource) (text findText : JsString) (place : Nat) :
    (retrieveMatch sources text findText place).excerpt = excerptAround text place findText.length := by
  simp only [retrieveMatch]

/-- Where lower-casing keeps what is looked for in its place, matches name the source they lie in exactly when
the text around them names that source and none before it. -/
theorem ownersNamed {lower : JsString → JsString} {store : WebAccessContentStore} {req : WebAccessRetrieveRequest}
    {sources : List CorpusSource} {findText : JsString} (collected : collectSources store req.responseId req.sourceIds = .ok sources)
    (asked : req.findText = some findText) (some_ : findText ≠ []) (keeps : Keeps lower (serializeCorpus sha256hex sources) findText) :
    ∃ result found, retrieveWebAccessCorpus sha256hex lower store req = .ok result ∧ result.found = some found ∧
      (Attributed sha256hex lower sources findText found ↔ WindowsName sha256hex lower sources findText) := by
  have listed := keptListed some_ keeps 20
  have answer : retrieveWebAccessCorpus sha256hex lower store req = .ok ⟨req.responseId,
      join (js "\n---\n") (((scan (indexFrom (lower findText) (lower (serializeCorpus sha256hex sources))) (max 1 (lower findText).length) 20 0).map
        (retrieveMatch sources (serializeCorpus sha256hex sources) findText)).map (·.excerpt)),
      (serializeCorpus sha256hex sources).length,0,false,none,
      sources.map fun s => ⟨s.sourceId,s.url,s.title,s.provider,hashCorpusSource sha256hex s⟩,
      some ((scan (indexFrom (lower findText) (lower (serializeCorpus sha256hex sources))) (max 1 (lower findText).length) 20 0).map
        (retrieveMatch sources (serializeCorpus sha256hex sources) findText))⟩ := by
    unfold retrieveWebAccessCorpus
    rw [collected]
    simp only [asked]
    have size : findText.length ≠ 0 := fun none_ => some_ (List.length_eq_zero_iff.mp none_)
    simp only [if_neg size]
    rfl
  refine ⟨_,_,answer,rfl,fun attributed rank early place nth s inside => ?_,fun names => ⟨fun m member s inside => ?_,fun m member => ?_⟩⟩
  · have member := List.mem_iff_getElem?.mpr ⟨rank,(listed rank place).mpr ⟨early,nth⟩⟩
    have owner := attributed.owner _ (List.mem_map_of_mem member) s inside
    exact (ownerNames (blockSome sha256hex inside) _ _).mp owner
  · obtain ⟨place,at_,rfl⟩ := List.mem_map.mp member
    obtain ⟨rank,early,nth⟩ := listedMember listed at_
    exact (ownerNames (blockSome sha256hex inside) _ _).mpr (names rank early place nth s inside)
  · obtain ⟨place,at_,rfl⟩ := List.mem_map.mp member
    have held := excerptHolds (serializeCorpus sha256hex sources) place findText.length
    rw [matchExcerpt]
    exact ⟨_,held,listedStands listed at_⟩

/- The digests of the two hits below. -/
def hitDigests (bytes : Bytes) : JsString :=
  if bytes = utf8 (js "Alpha\nu1\n\n") then js "01a29663a3af2a742b4dd8cb2f5c53a680f76fcd764747ef970e401c8f3eb97e"
  else js "a743418bcb4f05cff6c6513cf84ef35a8fe133c994ae8dc5c0d240dc399e3187"

def alphaHit : WebAccessSearchHit := ⟨js "Alpha",js "u1",[]⟩

def bravoHit : WebAccessSearchHit := ⟨js "Bravo",js "u2",[]⟩

def storedHits (hits : List WebAccessSearchHit) : WebAccessContentStore := fun id =>
  if id = js "r1" then some ⟨[⟨0,js "q",.ok ⟨js "tavily",hits,none,none⟩⟩]⟩ else none

def hitSource (hit : WebAccessSearchHit) (index : Nat) : CorpusSource :=
  ⟨sourceIdOf 0 index,hit.url,hit.title,js "tavily",hit.snippet,none,none,0,js "q"⟩

def retrieveRequest (text : JsString) : WebAccessRetrieveRequest := ⟨js "r1",none,none,none,some text⟩

theorem alphaNamed : ∃ result found, retrieveWebAccessCorpus hitDigests asciiLower (storedHits [alphaHit]) (retrieveRequest (js "ALPHA")) = .ok result ∧
    result.found = some found ∧ (Attributed hitDigests asciiLower [hitSource alphaHit 0] (js "ALPHA") found ↔
      WindowsName hitDigests asciiLower [hitSource alphaHit 0] (js "ALPHA")) :=
  ownersNamed hitDigests rfl rfl (by decide) (unitsKeep (fun _ _ => rfl) rfl)

def bothSources : List CorpusSource := [hitSource alphaHit 0,hitSource bravoHit 1]

theorem bravoBlock : InBlock hitDigests bothSources (hitSource bravoHit 1) 113 5 := by
  have first : (((corpusSegments hitDigests bothSources).take 4).flatMap Prod.snd).length = 105 := by decide
  have size : (formatSource hitDigests (hitSource bravoHit 1)).length = 92 := by decide
  refine ⟨105,⟨(corpusSegments hitDigests bothSources).take 4,[],rfl,first.symm⟩,by decide,?_⟩
  rw [size]
  decide

/- Bravo stands in the block of the second source; the text before it still names the first. -/
set_option maxRecDepth 16384 in
theorem bravoMisnamed : ((retrieveWebAccessCorpus hitDigests asciiLower (storedHits [alphaHit,bravoHit])
        (retrieveRequest (js "Bravo"))).toOption.bind (·.found)).map (fun found => found.map fun m => (m.sourceId,m.index)) =
      some [(js "s-0-0",113)] ∧
    InBlock hitDigests bothSources (hitSource bravoHit 1) 113 (js "Bravo").length ∧
    ∀ found ∈ (retrieveWebAccessCorpus hitDigests asciiLower (storedHits [alphaHit,bravoHit])
        (retrieveRequest (js "Bravo"))).toOption.bind (·.found), ¬Attributed hitDigests asciiLower bothSources (js "Bravo") found := by
  have size : (js "Bravo").length = 5 := by decide
  have shown : ((retrieveWebAccessCorpus hitDigests asciiLower (storedHits [alphaHit,bravoHit])
        (retrieveRequest (js "Bravo"))).toOption.bind (·.found)).map (fun found => found.map fun m => (m.sourceId,m.index)) =
      some [(js "s-0-0",113)] := by decide
  refine ⟨shown,size.symm ▸ bravoBlock,fun found member attributed => ?_⟩
  rw [Option.mem_def.mp member,Option.map_some] at shown
  obtain ⟨m,here,same⟩ := List.mem_map.mp (Option.some.inj shown ▸ List.mem_singleton_self (js "s-0-0",113))
  obtain ⟨owner,place⟩ := Prod.mk.inj same
  have right := attributed.owner m here (hitSource bravoHit 1) (by rw [place,size]; exact bravoBlock)
  rw [owner] at right
  exact absurd right (by decide)

end Northstar.Web
