import Mathlib.Data.List.Perm.Basic
import Northstar.Turns
import Northstar.Network.Url
import Northstar.Research.Shared

/-! The page of every research source at once (research-sources.ts): the sources in the order of
what they can filter, what each of them keeps of the URLs, and the cut to the limit. The normal
form of a URL is a parameter. -/
namespace Northstar.Research
open Network (digit decimal)
open Turns

structure ResearchSourceCapability where
  id : JsString
  backend : JsString
  deriving DecidableEq, Repr

def researchSourceCapabilities : List ResearchSourceCapability :=
  [⟨js "semantic_scholar",js "semantic-scholar-api"⟩,⟨js "openalex",js "openalex-api"⟩,⟨js "pubmed",js "pubmed-eutils"⟩,
    ⟨js "stackoverflow",js "stackexchange-api"⟩,⟨js "datacite",js "datacite-api"⟩,⟨js "ror",js "ror-api"⟩,
    ⟨js "gdelt",js "gdelt-api"⟩,⟨js "wikipedia",js "wikipedia-api"⟩,⟨js "wikidata",js "wikidata-api"⟩,
    ⟨js "arxiv",js "arxiv-api"⟩,⟨js "crossref",js "crossref-api"⟩,⟨js "hackernews",js "hn-algolia"⟩]

def sourceIds : List JsString := researchSourceCapabilities.map (·.id)

/- Which of yearFrom, author, doi and venue a source filters by. -/
structure FilterSupport where
  yearFrom : Bool := true
  author : Bool := false
  doi : Bool := false
  venue : Bool := false

def researchFilterSupport (source : JsString) : Option FilterSupport :=
  [(js "semantic_scholar",{}),(js "openalex",{ author := true, doi := true, venue := true }),
    (js "pubmed",{ author := true, doi := true, venue := true }),(js "stackoverflow",{}),
    (js "datacite",{ author := true, doi := true }),(js "ror",{ yearFrom := false }),(js "gdelt",{}),
    (js "wikipedia",{ yearFrom := false }),(js "wikidata",{ yearFrom := false }),(js "arxiv",{}),
    (js "crossref",{ author := true }),(js "hackernews",{})].lookup source

def unsupportedFilterCount (source : JsString) (input : NormalizedResearchInput) : Nat :=
  let lacks (requested : Bool) (supports : FilterSupport → Bool) : Nat :=
    if requested && !(researchFilterSupport source).any supports then 1 else 0
  lacks input.yearFrom.isSome (·.yearFrom) + lacks input.author.isSome (·.author) + lacks input.doi.isSome (·.doi) +
    lacks input.venue.isSome (·.venue) + if input.yearTo.isSome then 1 else 0

/- A stable sort, as the registry order breaks ties. -/
def orderFanoutSources (input : NormalizedResearchInput) : List JsString :=
  sourceIds.mergeSort fun a b => unsupportedFilterCount a input ≤ unsupportedFilterCount b input

def researchTextLength (value : Option JsString) : Nat := (value.map fun text => (trim text).length).getD 0

def chooseRicherResearchEntity (current candidate : NorthstarEntity) : NorthstarEntity where
  kind := current.kind
  id := current.id
  source := current.source
  title := if researchTextLength (some candidate.title) > researchTextLength (some current.title) then candidate.title else current.title
  url := current.url
  snippet := if candidate.snippet.isSome ∧ researchTextLength candidate.snippet > researchTextLength current.snippet
    then candidate.snippet else current.snippet
  authors := current.authors.or candidate.authors
  year := current.year.or candidate.year
  publishedAt := current.publishedAt.or candidate.publishedAt
  venue := current.venue.or candidate.venue
  doi := current.doi.or candidate.doi
  metrics := current.metrics.or candidate.metrics
  abstract := current.abstract

/- What an adapter's promise has settled to. -/
inductive Settled where
  | rejected
  | fulfilled (envelope : NorthstarResult)

/- `/Dropped (\d+)/`, at the front. -/
def droppedHere (text : JsString) : Option Nat :=
  let digits := (text.drop (js "Dropped ").length).takeWhile digit
  if (js "Dropped ").isPrefixOf text && digits ≠ [] then some (decimal digits) else none

def droppedRows : JsString → Option Nat
  | [] => none
  | u :: rest => (droppedHere (u :: rest)).or (droppedRows rest)

structure SourceOutcome where
  source : JsString
  backend : JsString
  entities : List NorthstarEntity
  invalid : Nat
  error : Option NorthstarError
  notes : List JsString

def sourceOutcome (capability : ResearchSourceCapability) : Settled → SourceOutcome
  | .rejected => ⟨capability.id,capability.backend,[],0,
      some { code := .backendUnavailable, message := js "Research adapter failed unexpectedly.", retryable := false },[]⟩
  | .fulfilled envelope =>
      let invalidErrors := envelope.errors.filter (·.code = .invalidEntity)
      ⟨capability.id,capability.backend,envelope.entities,(invalidErrors.map fun error => (droppedRows error.message).getD 0).sum,
        (envelope.errors.find? (·.code ≠ .invalidEntity)).map fun failure =>
          { code := failure.code, message := failure.message, retryable := failure.retryable },envelope.notes⟩

def maxAggregateNotes : Nat := 30

def aggregateNote : JsString := js "Aggregate source pagination is unsupported; choose one exact source to continue."

/- `notes.push` while there is room. -/
def pushNotes (notes added : List JsString) : List JsString := notes ++ added.take (maxAggregateNotes - notes.length)

section
variable (normalizeUrl : JsString → JsString)

def urlKey (entity : NorthstarEntity) : JsString := normalizeUrl entity.url

/- The entities of every source as the adapters returned them. -/
def returnedBy (settled : JsString → Settled) (id : JsString) : List NorthstarEntity :=
  ((researchSourceCapabilities.find? (·.id = id)).map fun capability => (sourceOutcome capability (settled id)).entities).getD []

/- What every source is left with, and how many there were before the cut. -/
def mergeSources (order : List JsString) (limit : Nat) (lists : JsString → List NorthstarEntity) :
    (JsString → List NorthstarEntity) × Nat :=
  let lists := mergedLists (urlKey normalizeUrl) chooseRicherResearchEntity order lists
  let totalBeforeCap := (sourceIds.map fun id => (lists id).length).sum
  (if limit < totalBeforeCap then capped order limit lists else lists,totalBeforeCap)

def capNotes (limit totalBeforeCap : Nat) : List JsString :=
  if limit < totalBeforeCap then
    [js "Aggregate result capped to global limit " ++ js (toString limit) ++ js " (" ++ js (toString (totalBeforeCap - limit)) ++
      js " of " ++ js (toString totalBeforeCap) ++ js " deduplicated entities truncated; capability-first sources retained)."]
  else []

/- An outcome with what its source is left with. -/
def leftOutcome (lists : JsString → List NorthstarEntity) (outcome : SourceOutcome) : NorthstarSourceOutcome where
  source := outcome.source
  backend := outcome.backend
  entities := lists outcome.source
  invalid := outcome.invalid
  error := outcome.error

def aggregate (req : NorthstarRequest) (limit : Nat) (input : NormalizedResearchInput) (settled : JsString → Settled) : NorthstarResult :=
  let perSource := researchSourceCapabilities.map fun capability => sourceOutcome capability (settled capability.id)
  let left := mergeSources normalizeUrl (orderFanoutSources input) limit (returnedBy settled)
  buildNorthstarResult req (perSource.map (leftOutcome left.1)) false limit false none
    (pushNotes (aggregateNote :: capNotes limit left.2)
      (perSource.flatMap fun outcome => outcome.notes.map fun note => outcome.source ++ js ": " ++ note))

def searchAllSources (adapters : JsString → ResearchAdapterRequest → Settled) (request : ResearchAdapterRequest) (limit : Nat)
    (req : NorthstarRequest) (input : NormalizedResearchInput) : Except JsString NorthstarResult :=
  if request.cursor.isSome then
    .ok (buildNorthstarResult req [{
      source := js "all"
      backend := js "native-public-apis"
      error := some {
        code := .paginationNotSupported
        message := js "Continuation cursors require one exact research source, not \"all\"."
        retryable := false } }] false limit false none [])
  else if request.aborted then .error (js "aborted")
  else if input.yearTo.isSome then
    .ok (buildNorthstarResult req (researchSourceCapabilities.map fun capability => {
      source := capability.id
      backend := capability.backend
      error := some {
        code := .invalidInput
        message := capability.id ++ js " does not support the \"yearTo\" filter."
        retryable := false } }) false limit false none [aggregateNote])
  else .ok (aggregate normalizeUrl req limit input fun id => adapters id request)

end

section
variable {normalizeUrl : JsString → JsString}

theorem richerKey (current candidate : NorthstarEntity) :
    urlKey normalizeUrl (chooseRicherResearchEntity current candidate) = urlKey normalizeUrl current := rfl

/- Who an entity is from, and what it is called there. -/
def identity (entity : NorthstarEntity) : NorthstarEntityKind × JsString × JsString × JsString :=
  (entity.kind,entity.id,entity.source,entity.url)

/- At least as much text in the title and in the snippet. -/
def Richer (entity donor : NorthstarEntity) : Prop :=
  researchTextLength (some donor.title) ≤ researchTextLength (some entity.title) ∧
  researchTextLength donor.snippet ≤ researchTextLength entity.snippet

theorem richerBoth (current candidate : NorthstarEntity) : Richer (chooseRicherResearchEntity current candidate) current ∧
    Richer (chooseRicherResearchEntity current candidate) candidate := by
  unfold Richer chooseRicherResearchEntity
  dsimp only
  refine ⟨⟨?_,?_⟩,?_,?_⟩
  · split <;> omega
  · split
    · rename_i more
      exact more.2.le
    · exact Nat.le_refl _
  · split <;> omega
  · split
    · exact Nat.le_refl _
    · rename_i less
      cases given : candidate.snippet with
      | none => exact Nat.zero_le _
      | some text =>
        rw [given] at less
        exact Nat.not_lt.mp fun more => less ⟨rfl,more⟩

theorem Richer.trans {a b c : NorthstarEntity} (ab : Richer a b) (bc : Richer b c) : Richer a c :=
  ⟨bc.1.trans ab.1,bc.2.trans ab.2⟩

/- What the offers of one URL are merged into: the first of them, with the most text of all. -/
theorem mergedRichest (offers : List NorthstarEntity) (held : Option NorthstarEntity) {entity : NorthstarEntity}
    (made : offers.foldl (merged chooseRicherResearchEntity) held = some entity) :
    (∀ donor, held = some donor ∨ donor ∈ offers → Richer entity donor) ∧
    (held.or offers.head?).map identity = some (identity entity) := by
  induction offers generalizing held with
  | nil =>
    cases made
    refine ⟨fun donor among => ?_,rfl⟩
    rcases among with same | member
    · cases Option.some.inj same
      exact ⟨Nat.le_refl _,Nat.le_refl _⟩
    · cases member
  | cons offered rest ih =>
    rw [List.foldl_cons] at made
    obtain ⟨rich,same⟩ := ih _ made
    have now := rich _ (.inl rfl)
    cases held with
    | none =>
      refine ⟨fun donor among => ?_,same⟩
      rcases among with none_ | member
      · cases none_
      · rcases List.mem_cons.mp member with rfl | later
        · exact now
        · exact rich donor (.inr later)
    | some value =>
      have both := richerBoth value offered
      refine ⟨fun donor among => ?_,same⟩
      rcases among with old | member
      · cases Option.some.inj old
        exact now.trans both.1
      · rcases List.mem_cons.mp member with rfl | later
        · exact now.trans both.2
        · exact rich donor (.inr later)

theorem idsDistinct : sourceIds.Nodup := by decide

theorem fanoutPerm (input : NormalizedResearchInput) : (orderFanoutSources input).Perm sourceIds := List.mergeSort_perm _ _

/- The source that is the first in the order to return a URL. -/
abbrev firstSource (normalizeUrl : JsString → JsString) (order : List JsString) (lists : JsString → List NorthstarEntity)
    (url : JsString) : Option JsString := first (urlKey normalizeUrl) order lists url

/- What is left of the lists when every URL is left to the first source that returned it and later sources are cut first. -/
structure Aggregated (normalizeUrl : JsString → JsString) (order : List JsString) (limit : Nat)
    (lists : JsString → List NorthstarEntity) (result : NorthstarResult) : Prop where
  distinct : (result.entities.map (urlKey normalizeUrl)).Nodup
  attributed : ∀ entity ∈ result.entities, ∃ id copy, firstSource normalizeUrl order lists (urlKey normalizeUrl entity) = some id ∧
    copy ∈ lists id ∧ identity copy = identity entity
  richest : ∀ entity ∈ result.entities, ∀ id ∈ order, ∀ donor ∈ lists id,
    urlKey normalizeUrl donor = urlKey normalizeUrl entity → Richer entity donor
  count : result.entities.length = min limit ((order.flatMap lists).map (urlKey normalizeUrl)).eraseDups.length
  laterFirst : ∀ before id after_, order = before ++ id :: after_ →
    (∃ entity ∈ result.entities, firstSource normalizeUrl order lists (urlKey normalizeUrl entity) = some id) →
    ∀ earlier ∈ before, ∀ entity ∈ lists earlier, urlKey normalizeUrl entity ∈ result.entities.map (urlKey normalizeUrl)
  counts : (result.sources.map (·.count)).sum = result.pagination.returned ∧ result.pagination.returned = result.entities.length
  shares : result.sources.map (fun status => (status.source,status.count)) = sourceIds.map fun id =>
    (id,result.entities.countP fun entity => firstSource normalizeUrl order lists (urlKey normalizeUrl entity) = some id)

theorem mergeLeft {order : List JsString} (perm : order.Perm sourceIds) (limit : Nat) (lists : JsString → List NorthstarEntity) :
    Left (urlKey normalizeUrl) chooseRicherResearchEntity order limit lists (mergeSources normalizeUrl order limit lists).1 := by
  have distinct : order.Nodup := perm.nodup_iff.mpr idsDistinct
  refine cutLeft richerKey distinct ?_
  unfold mergeSources
  generalize mergedLists (urlKey normalizeUrl) chooseRicherResearchEntity order lists = after_
  dsimp only
  split
  · exact cappedCut distinct limit after_
  · rename_i few
    refine ⟨(List.take_of_length_le ?_).symm,fun _ _ => rfl,fun _ => List.prefix_refl _,fun _ _ _ _ _ _ _ => rfl⟩
    rw [List.length_flatMap,(perm.map fun id => (after_ id).length).sum_eq]
    exact Nat.not_lt.mp few

theorem outcomeSource (capability : ResearchSourceCapability) (settled : Settled) :
    (sourceOutcome capability settled).source = capability.id := by
  cases settled <;> rfl

/- The lists that the sources are left with, each beside its own source. -/
theorem leftShares (settled : JsString → Settled) (lists : JsString → List NorthstarEntity) :
    ((researchSourceCapabilities.map fun capability => sourceOutcome capability (settled capability.id)).map (leftOutcome lists)).map
      (fun outcome => (outcome.source,outcome.entities)) = sourceIds.map fun id => (id,lists id) := by
  unfold sourceIds
  rw [List.map_map,List.map_map,List.map_map]
  refine List.map_congr_left fun capability _ => ?_
  have named := outcomeSource capability (settled capability.id)
  exact congrArg (fun id => (id,lists id)) named

theorem builtShares {req : NorthstarRequest} {outcomes : List NorthstarSourceOutcome} {limit : Nat} {notes : List JsString}
    {ids : List JsString} {lists : JsString → List NorthstarEntity}
    (parts : outcomes.map (fun outcome => (outcome.source,outcome.entities)) = ids.map fun id => (id,lists id)) :
    (buildNorthstarResult req outcomes false limit false none notes).entities = ids.flatMap lists ∧
    (buildNorthstarResult req outcomes false limit false none notes).sources.map (fun status => (status.source,status.count)) =
      ids.map fun id => (id,(lists id).length) := by
  have entities := congrArg (List.flatMap Prod.snd) parts
  have counts := congrArg (List.map fun part : JsString × List NorthstarEntity => (part.1,part.2.length)) parts
  rw [List.flatMap_map,List.flatMap_map] at entities
  rw [List.map_map,List.map_map] at counts
  refine ⟨entities,Eq.trans ?_ counts⟩
  change (outcomes.map NorthstarSourceOutcome.status).map _ = _
  rw [List.map_map]
  rfl

theorem builtReturned (req : NorthstarRequest) (outcomes : List NorthstarSourceOutcome) (limit : Nat) (notes : List JsString) :
    (buildNorthstarResult req outcomes false limit false none notes).pagination.returned =
      (buildNorthstarResult req outcomes false limit false none notes).entities.length := rfl

theorem mergedOnce (offers : List NorthstarEntity) :
    ((run (urlKey normalizeUrl) chooseRicherResearchEntity offers []).map (urlKey normalizeUrl)).Nodup :=
  runDistinct richerKey offers .nil

theorem mergedEntity {offers : List NorthstarEntity} {entity : NorthstarEntity}
    (member : entity ∈ run (urlKey normalizeUrl) chooseRicherResearchEntity offers []) :
    (∀ donor ∈ offers, urlKey normalizeUrl donor = urlKey normalizeUrl entity → Richer entity donor) ∧
    (offers.filter fun donor => urlKey normalizeUrl donor = urlKey normalizeUrl entity).head?.map identity = some (identity entity) := by
  have found : under (urlKey normalizeUrl) (urlKey normalizeUrl entity) (run (urlKey normalizeUrl) chooseRicherResearchEntity offers []) =
    some entity := foundByKey (mergedOnce offers) member
  unfold run at found
  rw [underRun richerKey] at found
  obtain ⟨rich,same⟩ := mergedRichest _ _ found
  exact ⟨fun donor among eq => rich donor (.inr (List.mem_filter.mpr ⟨among,decide_eq_true eq⟩)),same⟩

theorem aggregatedOf {order : List JsString} (perm : order.Perm sourceIds) {limit : Nat} {lists shares : JsString → List NorthstarEntity}
    (left : Left (urlKey normalizeUrl) chooseRicherResearchEntity order limit lists shares) {result : NorthstarResult}
    (entities : result.entities = sourceIds.flatMap shares) (returned : result.pagination.returned = result.entities.length)
    (counted : result.sources.map (fun status => (status.source,status.count)) = sourceIds.map fun id => (id,(shares id).length)) :
    Aggregated normalizeUrl order limit lists result := by
  have arranged : (order.flatMap shares).Perm result.entities := entities ▸ perm.flatMap_right shares
  have within {entity : NorthstarEntity} (member : entity ∈ result.entities) :
      ∃ id ∈ order, entity ∈ shares id ∧ firstSource normalizeUrl order lists (urlKey normalizeUrl entity) = some id := by
    obtain ⟨id,among,there⟩ := List.mem_flatMap.mp (arranged.mem_iff.mpr member)
    exact ⟨id,among,there,left.own id among entity there⟩
  have gathered {entity : NorthstarEntity} (member : entity ∈ result.entities) :
      entity ∈ run (urlKey normalizeUrl) chooseRicherResearchEntity (order.flatMap lists) [] :=
    List.mem_of_mem_take (left.whole ▸ arranged.mem_iff.mpr member)
  refine ⟨?_,fun entity member => ?_,fun entity member id among donor there eq => ?_,?_,?_,⟨?_,returned⟩,?_⟩
  · refine ((arranged.map (urlKey normalizeUrl)).nodup_iff).mp ?_
    rw [left.whole,List.map_take]
    exact (mergedOnce _).sublist (List.take_sublist _ _)
  · obtain ⟨id,-,-,owner⟩ := within member
    obtain ⟨copy,there,head⟩ := firstOffer owner
    have same := (mergedEntity (gathered member)).2
    rw [head] at same
    exact ⟨id,copy,owner,there,Option.some.inj same⟩
  · exact (mergedEntity (gathered member)).1 donor (List.mem_flatMap.mpr ⟨id,among,there⟩) eq
  · rw [← arranged.length_eq,left.whole,List.length_take,← gatheredKeys richerKey,List.length_map]
  · rintro before id after_ split ⟨entity,member,owner⟩ earlier ahead donor there
    obtain ⟨holder,-,inside,holds⟩ := within member
    cases Option.some.inj (owner.symm.trans holds)
    have kept := left.earlier before id after_ split (List.ne_nil_of_mem inside) earlier ahead donor there
    exact (arranged.map _).mem_iff.mp kept
  · have sums := congrArg (fun parts => (parts.map Prod.snd).sum) counted
    simp only [List.map_map,Function.comp_def] at sums
    rw [sums,returned,entities,List.length_flatMap]
  · rw [counted]
    refine List.map_congr_left fun id among => congrArg (Prod.mk id) ?_
    rw [entities]
    exact (countOwn idsDistinct (fun one inside value there => left.own one (perm.mem_iff.mpr inside) value there) among).symm

theorem aggregateParts (normalizeUrl : JsString → JsString) (req : NorthstarRequest) (limit : Nat) (input : NormalizedResearchInput)
    (settled : JsString → Settled) {shares : JsString → List NorthstarEntity}
    (left : (mergeSources normalizeUrl (orderFanoutSources input) limit (returnedBy settled)).1 = shares) :
    (aggregate normalizeUrl req limit input settled).entities = sourceIds.flatMap shares ∧
    (aggregate normalizeUrl req limit input settled).pagination.returned =
      (aggregate normalizeUrl req limit input settled).entities.length ∧
    (aggregate normalizeUrl req limit input settled).sources.map (fun status => (status.source,status.count)) =
      sourceIds.map fun id => (id,(shares id).length) := by
  unfold aggregate
  dsimp only
  rw [left]
  have built (notes : List JsString) := @builtShares req _ limit notes _ _ (leftShares settled shares)
  generalize (researchSourceCapabilities.map fun capability => sourceOutcome capability (settled capability.id)).map (leftOutcome shares) =
    outcomes at built ⊢
  generalize pushNotes _ _ = notes
  exact ⟨(built notes).1,builtReturned _ _ _ _,(built notes).2⟩

/-- Every URL once, with its first source and the richest text of all, cut from the last sources in the order. -/
theorem aggregateSound (normalizeUrl : JsString → JsString) {adapters : JsString → ResearchAdapterRequest → Settled}
    {request : ResearchAdapterRequest} {limit : Nat} {req : NorthstarRequest} {input : NormalizedResearchInput} {result : NorthstarResult}
    (uncontinued : request.cursor = none) (unbounded : input.yearTo = none)
    (answered : searchAllSources normalizeUrl adapters request limit req input = .ok result) :
    Aggregated normalizeUrl (orderFanoutSources input) limit (returnedBy fun id => adapters id request) result := by
  unfold searchAllSources at answered
  rw [uncontinued,unbounded,if_neg nofun] at answered
  split at answered
  · cases answered
  · rw [if_neg nofun] at answered
    obtain ⟨entities,returned,counted⟩ := aggregateParts normalizeUrl req limit input (fun id => adapters id request) rfl
    have left := @mergeLeft normalizeUrl _ (fanoutPerm input) limit (returnedBy fun id => adapters id request)
    rw [Except.ok.inj answered] at entities returned counted
    exact aggregatedOf (fanoutPerm input) left entities returned counted

def fetchedWork (source title url : String) : NorthstarEntity :=
  ⟨.work,js url,js source,js title,js url,none,none,none,none,none,none,none,none⟩

def twoSources (id : JsString) (_ : ResearchAdapterRequest) : Settled :=
  if id = js "arxiv" then .fulfilled (buildNorthstarResult ⟨[],[],[],none,[]⟩ [{
    source := js "arxiv", backend := js "arxiv-api", entities := [fetchedWork "arxiv" "Nets" "https://a.example/1"] }] false 5 false none [])
  else if id = js "crossref" then .fulfilled (buildNorthstarResult ⟨[],[],[],none,[]⟩ [{
    source := js "crossref", backend := js "crossref-api"
    entities := [fetchedWork "crossref" "Nets, a survey" "https://a.example/1",fetchedWork "crossref" "Trees" "https://b.example/2"] }]
      false 5 false none [])
  else .rejected

theorem twoMerged : Aggregated id (orderFanoutSources ⟨js "nets",5,none,none,none,none,none⟩) 5
    (returnedBy fun source => twoSources source { query := js "nets" })
    (aggregate id ⟨[],[],[],none,[]⟩ 5 ⟨js "nets",5,none,none,none,none,none⟩ fun source => twoSources source { query := js "nets" }) :=
  @aggregateSound id twoSources { query := js "nets" } _ _ _ _ rfl rfl rfl

end
end Northstar.Research
