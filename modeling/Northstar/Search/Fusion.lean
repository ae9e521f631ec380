import Northstar.Gathering
import Northstar.Search.Ledger

/-! Reciprocal rank fusion (fusion.ts): rankings merged under the keys of their items, with exact
scores, and the one caller that merges the copies of an item (knowledge-aggregate.ts). -/
namespace Northstar.Search.Fusion

structure Options (α : Type) where
  k : ℚ
  keyFn : α → JsString
  getId : Option (α → JsString)
  mergeFn : Option (α → α → α)

structure RrfMergeResult (α : Type) where
  item : α
  rrfScore : ℚ
  deriving DecidableEq, Repr

structure Entry (α : Type) where
  key : JsString
  item : α
  score : ℚ

section Merge
variable {α : Type} (o : Options α)

def crossRankKey : α → JsString := o.getId.getD o.keyFn

def merge : α → α → α := o.mergeFn.getD fun current _ => current

/- Within a ranking a repeated key is merged into its first place. -/
def dedupe (ranking : List α) : List α :=
  ((ranking.map fun item => (o.keyFn item,item)).foldl (fun deduped offered =>
    gather Prod.fst (fun held new => (held.1,merge o held.2 new.2)) offered deduped) []).map (·.2)

def offer (item : α) (index : Nat) : Entry α := ⟨crossRankKey o item,item,1 / (o.k + index + 1)⟩

def offersOf (ranking : List α) : List (Entry α) := (dedupe o ranking).zipIdx.map fun place => offer o place.1 place.2

def mergeEntry (held new : Entry α) : Entry α := ⟨held.key,merge o held.item new.item,held.score + new.score⟩

def scoreRanking (scores : List (Entry α)) (ranking : List α) : List (Entry α) :=
  (offersOf o ranking).foldl (fun scores new => gather Entry.key (mergeEntry o) new scores) scores

def fusionOrder (a b : Entry α) : Bool :=
  b.score < a.score || (a.score = b.score && !decide (o.keyFn b.item < o.keyFn a.item))

def rrfMerge (rankings : List (List α)) : List (RrfMergeResult α) :=
  ((rankings.foldl (scoreRanking o) []).mergeSort (fusionOrder o)).map fun entry => ⟨entry.item,entry.score⟩

/- What fusion says it is: a key's place among the distinct keys of a ranking, and the sum over
the rankings it is in. -/
def rankOf (key : JsString) (ranking : List α) : Nat := (ranking.map o.keyFn).eraseDups.idxOf key

def fused (rankings : List (List α)) (key : JsString) : ℚ :=
  ((rankings.filter fun ranking => key ∈ ranking.map o.keyFn).map fun ranking =>
    1 / (o.k + rankOf o key ranking + 1)).sum

structure Fuses (rankings : List (List α)) (results : List (RrfMergeResult α)) : Prop where
  once : (results.map fun result => o.keyFn result.item).Nodup
  every : ∀ key, key ∈ results.map (fun result => o.keyFn result.item) ↔
    ∃ ranking ∈ rankings, key ∈ ranking.map o.keyFn
  score : ∀ result ∈ results, result.rrfScore = fused o rankings (o.keyFn result.item)
  positive : ∀ result ∈ results, 0 < result.rrfScore
  sorted : results.Pairwise fun a b => b.rrfScore < a.rrfScore ∨
    (a.rrfScore = b.rrfScore ∧ o.keyFn a.item < o.keyFn b.item)

def pairs (results : List (RrfMergeResult α)) : List (JsString × ℚ) :=
  results.map fun result => (o.keyFn result.item,result.rrfScore)

/- Identities tell apart what the keys do, and a merged copy has the key of the copies. -/
structure Coherent : Prop where
  positive : 0 < o.k
  same : ∀ a b, crossRankKey o a = crossRankKey o b ↔ o.keyFn a = o.keyFn b
  keeps : ∀ current candidate, o.keyFn current = o.keyFn candidate → o.keyFn (merge o current candidate) = o.keyFn current

variable {o}

theorem dedupedKeys (h : Coherent o) (ranking : List α) :
    (dedupe o ranking).map o.keyFn = (ranking.map o.keyFn).eraseDups := by
  have keys := @gatheredKeys (JsString × α) JsString _ Prod.fst (fun held new => (held.1,merge o held.2 new.2)) _ _
    (fun _ _ => rfl) (ranking.map fun item => (o.keyFn item,item))
  have kept := @runEvery (JsString × α) JsString _ Prod.fst (fun held new => (held.1,merge o held.2 new.2))
    (fun pair => pair.1 = o.keyFn pair.2) (ranking.map fun item => (o.keyFn item,item)) []
    (by
      intro offered member
      obtain ⟨item,_,rfl⟩ := List.mem_map.mp member
      rfl)
    (by
      intro value offered old new same
      exact old.trans (h.keeps value.2 offered.2 (old.symm.trans (same.trans new))).symm)
    (by nofun)
  have views : (ranking.map fun item => (o.keyFn item,item)).map Prod.fst = ranking.map o.keyFn := by
    rw [List.map_map]
    rfl
  rw [views] at keys
  rw [← keys,dedupe,List.map_map]
  exact List.map_congr_left fun pair member => (kept pair member).symm

theorem offersRun (rankings : List (List α)) (scores : List (Entry α)) : rankings.foldl (scoreRanking o) scores =
    (rankings.flatMap (offersOf o)).foldl (fun scores new => gather Entry.key (mergeEntry o) new scores) scores := by
  rw [List.foldl_flatMap]
  rfl

/- An entry of the board is kept under the identity of its item. -/
theorem boardKeyed (h : Coherent o) (rankings : List (List α)) :
    ∀ entry ∈ rankings.foldl (scoreRanking o) [], entry.key = crossRankKey o entry.item := by
  rw [offersRun]
  refine @runEvery (Entry α) JsString _ Entry.key (mergeEntry o) (fun entry => entry.key = crossRankKey o entry.item) _ _
    ?_ ?_ (by nofun)
  · intro offered member
    obtain ⟨ranking,_,inside⟩ := List.mem_flatMap.mp member
    obtain ⟨place,_,rfl⟩ := List.mem_map.mp inside
    rfl
  · intro value offered old new same
    have alike := (h.same value.item offered.item).mp (old.symm.trans (same.trans new))
    exact old.trans ((h.same _ _).mpr (h.keeps value.item offered.item alike)).symm

theorem offersIdentity (ranking : List α) : (offersOf o ranking).map Entry.key = (dedupe o ranking).map (crossRankKey o) := by
  unfold offersOf
  rw [List.map_map]
  have there : (Entry.key ∘ fun place : α × Nat => offer o place.1 place.2) = crossRankKey o ∘ Prod.fst := rfl
  rw [there,← List.map_map,List.zipIdx_map_fst]

theorem boardKeys (rankings : List (List α)) : (rankings.foldl (scoreRanking o) []).map Entry.key =
    (rankings.flatMap fun ranking => (dedupe o ranking).map (crossRankKey o)).eraseDups := by
  rw [offersRun,@gatheredKeys (Entry α) JsString _ Entry.key (mergeEntry o) _ _ fun _ _ => rfl,List.map_flatMap]
  congr 2
  exact funext offersIdentity

theorem mergedScore (offers : List (Entry α)) (held : Option (Entry α)) {entry : Entry α}
    (ends : offers.foldl (merged (mergeEntry o)) held = some entry) :
    entry.score = (held.elim 0 Entry.score) + (offers.map Entry.score).sum := by
  induction offers generalizing held with
  | nil =>
    rw [show held = some entry from ends]
    simp
  | cons new rest ih =>
    rw [ih _ ends,List.map_cons,List.sum_cons]
    cases held with
    | none => simp [merged]
    | some value =>
      simp only [merged,Option.elim,mergeEntry]
      ring

/- A key with distinct keys beside it is offered once, at its place. -/
theorem offeredAt (key : JsString) (items : List α) (n : Nat) (once : (items.map o.keyFn).Nodup) :
    ((((items.zipIdx n).map fun place => offer o place.1 place.2).filter fun e => o.keyFn e.item = key).map Entry.score).sum =
      if key ∈ items.map o.keyFn then 1 / (o.k + ((n + (items.map o.keyFn).idxOf key : Nat) : ℚ) + 1) else 0 := by
  induction items generalizing n with
  | nil => rfl
  | cons item rest ih =>
    obtain ⟨apart,once⟩ := List.nodup_cons.mp once
    simp only [List.zipIdx_cons,List.map_cons]
    by_cases here : o.keyFn item = key
    · have absent : key ∉ rest.map o.keyFn := here ▸ apart
      have later := ih (n + 1) once
      rw [if_neg absent] at later
      rw [List.filter_cons_of_pos (by simpa [offer] using here),List.map_cons,List.sum_cons,later,if_pos (by simp [here]),here]
      simp [offer]
    · rw [List.filter_cons_of_neg (by simpa [offer] using here),ih (n + 1) once]
      have elsewhere : key ≠ o.keyFn item := fun same => here same.symm
      by_cases there : key ∈ rest.map o.keyFn
      · rw [if_pos there,if_pos (List.mem_cons_of_mem _ there),List.idxOf_cons_ne _ here]
        congr 3
        push_cast
        ring
      · rw [if_neg there,if_neg (by simpa [elsewhere] using there)]

theorem contribution (h : Coherent o) (key : JsString) (rankings : List (List α)) :
    (((rankings.flatMap (offersOf o)).filter fun e => o.keyFn e.item = key).map Entry.score).sum = fused o rankings key := by
  induction rankings with
  | nil => rfl
  | cons ranking rest ih =>
    have keys := dedupedKeys h ranking
    have here := offeredAt (o := o) key (dedupe o ranking) 0 (keys ▸ distinctOnce _)
    simp only [keys,List.mem_eraseDups] at here
    rw [List.flatMap_cons,List.filter_append,List.map_append,List.sum_append,ih,show offersOf o ranking =
      ((dedupe o ranking).zipIdx 0).map fun place => offer o place.1 place.2 from rfl,here]
    unfold fused rankOf
    by_cases there : key ∈ ranking.map o.keyFn
    · rw [if_pos there,List.filter_cons_of_pos (by simpa using there),List.map_cons,List.sum_cons,Nat.zero_add]
    · rw [if_neg there,List.filter_cons_of_neg (by simpa using there),zero_add]

theorem offersKeyed {ranking : List α} {new : Entry α} (member : new ∈ offersOf o ranking) :
    new.key = crossRankKey o new.item := by
  obtain ⟨place,_,rfl⟩ := List.mem_map.mp member
  rfl

theorem boardOnce (rankings : List (List α)) : ((rankings.foldl (scoreRanking o) []).map Entry.key).Nodup := by
  rw [boardKeys]
  exact distinctOnce _

theorem boardScore (h : Coherent o) (rankings : List (List α)) {entry : Entry α}
    (member : entry ∈ rankings.foldl (scoreRanking o) []) : entry.score = fused o rankings (o.keyFn entry.item) := by
  have keyed := boardKeyed h rankings entry member
  have found : under Entry.key entry.key (rankings.foldl (scoreRanking o) []) = some entry :=
    foundByKey (boardOnce rankings) member
  rw [offersRun,@underRun (Entry α) JsString _ Entry.key (mergeEntry o) fun _ _ => rfl] at found
  have total := mergedScore _ _ found
  rw [total,← contribution h]
  have alike : ((rankings.flatMap (offersOf o)).filter fun new => new.key = entry.key) =
      (rankings.flatMap (offersOf o)).filter fun new => o.keyFn new.item = o.keyFn entry.item := by
    refine List.filter_congr fun new inside => ?_
    obtain ⟨ranking,_,there⟩ := List.mem_flatMap.mp inside
    rw [decide_eq_decide,offersKeyed there,keyed]
    exact h.same new.item entry.item
  rw [alike]
  exact zero_add _

theorem boardEvery (h : Coherent o) (rankings : List (List α)) (key : JsString) :
    (∃ entry ∈ rankings.foldl (scoreRanking o) [], o.keyFn entry.item = key) ↔
      ∃ ranking ∈ rankings, key ∈ ranking.map o.keyFn := by
  have keys := @boardKeys α o rankings
  have keyed := boardKeyed h rankings
  constructor
  · rintro ⟨entry,member,rfl⟩
    have there : entry.key ∈ (rankings.foldl (scoreRanking o) []).map Entry.key := List.mem_map_of_mem member
    rw [keys,List.mem_eraseDups] at there
    obtain ⟨ranking,inside,of_⟩ := List.mem_flatMap.mp there
    obtain ⟨item,kept,same⟩ := List.mem_map.mp of_
    have alike := (h.same item entry.item).mp (same.trans (keyed entry member))
    refine ⟨ranking,inside,?_⟩
    rw [← List.mem_eraseDups,← dedupedKeys h,← alike]
    exact List.mem_map_of_mem kept
  · rintro ⟨ranking,inside,of_⟩
    rw [← List.mem_eraseDups,← dedupedKeys h] at of_
    obtain ⟨item,kept,rfl⟩ := List.mem_map.mp of_
    have there : crossRankKey o item ∈ (rankings.foldl (scoreRanking o) []).map Entry.key := by
      rw [keys,List.mem_eraseDups]
      exact List.mem_flatMap.mpr ⟨ranking,inside,List.mem_map_of_mem kept⟩
    obtain ⟨entry,member,same⟩ := List.mem_map.mp there
    exact ⟨entry,member,(h.same entry.item item).mp ((keyed entry member).symm.trans same)⟩

theorem fusionSort : SortOrder (fusionOrder o) := by
  have order := @lexicographic (Entry α) (fun a b => decide (b.score ≤ a.score))
    (fun a b => !decide (o.keyFn b.item < o.keyFn a.item))
    ⟨fun a b c ab bc => by simp at ab bc ⊢; exact bc.trans ab,fun a b => by simp; exact le_total _ _⟩
    ⟨fun a b c => listSort.trans (o.keyFn a.item) (o.keyFn b.item) (o.keyFn c.item),
      fun a b => listSort.total (o.keyFn a.item) (o.keyFn b.item)⟩
  have same : fusionOrder o = fun a b => !decide (a.score ≤ b.score) ||
      (decide (b.score ≤ a.score) && !decide (o.keyFn b.item < o.keyFn a.item)) := by
    funext a b
    unfold fusionOrder
    rcases lt_trichotomy a.score b.score with less | eq | more
    · simp [less.not_gt,less.le,less.ne,less.not_ge]
    · simp [eq]
    · simp [more]
  exact same ▸ order

theorem fusedPositive (h : Coherent o) {rankings : List (List α)} {key : JsString}
    (there : ∃ ranking ∈ rankings, key ∈ ranking.map o.keyFn) : 0 < fused o rankings key := by
  obtain ⟨ranking,inside,of_⟩ := there
  have each (rank : Nat) : 0 < 1 / (o.k + rank + 1) := by
    have positive := h.positive
    positivity
  refine List.sum_pos _ ?_ (List.map_eq_nil_iff.not.mpr (List.ne_nil_of_mem (List.mem_filter.mpr ⟨inside,by simpa using of_⟩)))
  intro share member
  obtain ⟨other,_,rfl⟩ := List.mem_map.mp member
  exact each _

theorem resultMember (rankings : List (List α)) (result : RrfMergeResult α) : result ∈ rrfMerge o rankings ↔
    ∃ entry ∈ rankings.foldl (scoreRanking o) [], ⟨entry.item,entry.score⟩ = result := by
  unfold rrfMerge
  simp only [List.mem_map,List.mem_mergeSort]

theorem resultsOnce (h : Coherent o) (rankings : List (List α)) :
    ((rrfMerge o rankings).map fun result => o.keyFn result.item).Nodup := by
  have perm := List.mergeSort_perm (rankings.foldl (scoreRanking o) []) (fusionOrder o)
  unfold rrfMerge
  rw [List.map_map]
  refine ((perm.map _).nodup_iff).mpr (List.pairwise_map.mpr ?_)
  refine (List.pairwise_map.mp (boardOnce rankings)).imp_of_mem fun {a b} first second differ same => differ ?_
  rw [boardKeyed h rankings a first,boardKeyed h rankings b second]
  exact (h.same _ _).mpr same

theorem resultsEvery (h : Coherent o) (rankings : List (List α)) (key : JsString) :
    key ∈ (rrfMerge o rankings).map (fun result => o.keyFn result.item) ↔ ∃ ranking ∈ rankings, key ∈ ranking.map o.keyFn := by
  rw [← boardEvery h]
  constructor
  · intro there
    obtain ⟨result,inside,rfl⟩ := List.mem_map.mp there
    obtain ⟨entry,of_,rfl⟩ := (resultMember rankings result).mp inside
    exact ⟨entry,of_,rfl⟩
  · rintro ⟨entry,of_,rfl⟩
    exact List.mem_map.mpr ⟨_,(resultMember rankings _).mpr ⟨entry,of_,rfl⟩,rfl⟩

theorem resultScore (h : Coherent o) (rankings : List (List α)) {result : RrfMergeResult α}
    (inside : result ∈ rrfMerge o rankings) : result.rrfScore = fused o rankings (o.keyFn result.item) := by
  obtain ⟨entry,of_,rfl⟩ := (resultMember rankings result).mp inside
  exact boardScore h rankings of_

theorem resultsSorted (h : Coherent o) (rankings : List (List α)) : (rrfMerge o rankings).Pairwise fun a b =>
    b.rrfScore < a.rrfScore ∨ (a.rrfScore = b.rrfScore ∧ o.keyFn a.item < o.keyFn b.item) := by
  have order : SortOrder (fusionOrder o) := fusionSort
  have ordered := List.pairwise_mergeSort order.trans order.total (rankings.foldl (scoreRanking o) [])
  have distinct := List.pairwise_map.mp (resultsOnce h rankings)
  unfold rrfMerge at distinct ⊢
  rw [List.pairwise_map] at distinct ⊢
  refine (ordered.and distinct).imp ?_
  rintro a b ⟨before,differ⟩
  simp only [fusionOrder,Bool.or_eq_true,Bool.and_eq_true,decide_eq_true_eq,Bool.not_eq_true',decide_eq_false_iff_not] at before
  refine before.imp id fun ⟨tie,after⟩ => ⟨tie,?_⟩
  by_contra not_
  exact differ (listTie after not_)

theorem fuses (h : Coherent o) (rankings : List (List α)) : Fuses o rankings (rrfMerge o rankings) where
  once := resultsOnce h rankings
  every := resultsEvery h rankings
  score := fun _ inside => resultScore h rankings inside
  positive := fun result inside => by
    rw [resultScore h rankings inside]
    exact fusedPositive h ((resultsEvery h rankings _).mp (List.mem_map_of_mem inside))
  sorted := resultsSorted h rankings

theorem fusedPermuted {rankings others : List (List α)} (perm : rankings.Perm others) (key : JsString) :
    fused o rankings key = fused o others key :=
  ((perm.filter _).map _).sum_eq

theorem pairsWithin (h : Coherent o) {rankings others : List (List α)} (perm : rankings.Perm others) {pair : JsString × ℚ}
    (member : pair ∈ pairs o (rrfMerge o rankings)) : pair ∈ pairs o (rrfMerge o others) := by
  obtain ⟨result,there,rfl⟩ := List.mem_map.mp member
  obtain ⟨ranking,of_,at_⟩ := (resultsEvery h rankings (o.keyFn result.item)).mp (List.mem_map_of_mem there)
  have also := (resultsEvery h others (o.keyFn result.item)).mpr ⟨ranking,perm.mem_iff.mp of_,at_⟩
  obtain ⟨other,found,same⟩ := List.mem_map.mp also
  refine List.mem_map.mpr ⟨other,found,Prod.ext same ?_⟩
  simp only
  rw [resultScore h others found,resultScore h rankings there,same,fusedPermuted perm]

theorem pairsOnce (h : Coherent o) (rankings : List (List α)) : (pairs o (rrfMerge o rankings)).Nodup := by
  refine List.Nodup.of_map Prod.fst ?_
  unfold pairs
  rw [List.map_map]
  exact resultsOnce h rankings

/- Both orders of the rankings are sorted alike, and the order leaves no ties. -/
theorem pairsPermuted (h : Coherent o) {rankings others : List (List α)} (perm : rankings.Perm others) :
    pairs o (rrfMerge o rankings) = pairs o (rrfMerge o others) := by
  have arranged : (pairs o (rrfMerge o rankings)).Perm (pairs o (rrfMerge o others)) :=
    (List.perm_ext_iff_of_nodup (pairsOnce h rankings) (pairsOnce h others)).mpr fun pair =>
      ⟨pairsWithin h perm,pairsWithin h perm.symm⟩
  have sorted (rankings : List (List α)) : (pairs o (rrfMerge o rankings)).Pairwise fun a b =>
      b.2 < a.2 ∨ (a.2 = b.2 ∧ a.1 < b.1) :=
    List.pairwise_map.mpr (resultsSorted h rankings)
  refine @List.Perm.eq_of_pairwise (JsString × ℚ) _ _ _ ?_ (sorted rankings) (sorted others) arranged
  intro a b _ _ ab ba
  rcases ab with less | ⟨tie,ab⟩ <;> rcases ba with more | ⟨tie',ba⟩
  · exact absurd less more.not_gt
  · exact absurd tie' less.ne
  · exact absurd tie more.ne
  · exact absurd ba (List.lt_asymm ab)

/-- Fusion is the sum over the rankings, one entry a key, in an order that the order of the
rankings has no part in. -/
theorem fusionIsSum (h : Coherent o) (rankings : List (List α)) : Fuses o rankings (rrfMerge o rankings) ∧
    ∀ others, rankings.Perm others → pairs o (rrfMerge o rankings) = pairs o (rrfMerge o others) :=
  ⟨fuses h rankings,fun _ perm => pairsPermuted h perm⟩

/- Without an identity of its own or a merge, as most callers have it. -/
theorem plainCoherent (k : ℚ) (positive : 0 < k) (keyFn : α → JsString) : Coherent ⟨k,keyFn,none,none⟩ :=
  ⟨positive,fun _ _ => Iff.rfl,fun _ _ _ => rfl⟩

end Merge

/- Two pages of one site: ranked apart, one identity. -/
def passage (site page : String) : JsString × JsString := (js site,js page)

def bySite : Options (JsString × JsString) := ⟨60,Prod.snd,some Prod.fst,none⟩

theorem siteCountedTwice : rrfMerge bySite [[passage "a" "one",passage "a" "two"]] = [⟨passage "a" "one",1 / 61 + 1 / 62⟩] ∧
    ¬ Fuses bySite [[passage "a" "one",passage "a" "two"]] (rrfMerge bySite [[passage "a" "one",passage "a" "two"]]) := by
  have merged : rrfMerge bySite [[passage "a" "one",passage "a" "two"]] = [⟨passage "a" "one",1 / 61 + 1 / 62⟩] := by
    decide +kernel
  refine ⟨merged,fun fuses => ?_⟩
  have score := fuses.score
  rw [merged] at score
  revert score
  decide +kernel

theorem plainPages : Fuses ⟨60,Prod.snd,none,none⟩ [[passage "a" "one",passage "a" "two"],[passage "a" "two"]]
    (rrfMerge ⟨60,Prod.snd,none,none⟩ [[passage "a" "one",passage "a" "two"],[passage "a" "two"]]) :=
  (fusionIsSum (plainCoherent 60 (by norm_num) Prod.snd) _).1

/- The entities of the knowledge providers: the key is the URL, or else the name, or else the
identifier; a copy fills in what an earlier one lacks. -/
structure KgEntity where
  id : JsString
  type : JsString
  name : Option JsString
  url : Option JsString
  confidence : Option Number

section Entities
variable (normalizeUrl toLowerCase : JsString → JsString)

def trimmed (value : Option JsString) : Option JsString := value.bind fun text => if trim text = [] then none else some (trim text)

def identityKey (entity : KgEntity) : JsString := match (trimmed entity.url).map normalizeUrl with
  | some url => js "canonical_url:" ++ toLowerCase entity.type ++ js ":" ++ url
  | none => match (trimmed entity.name).map toLowerCase with
    | some name => js "typed_identity:" ++ toLowerCase entity.type ++ js ":" ++ name
    | none => js "providerless:" ++ entity.type ++ js ":" ++ entity.id

def mergeKgEntityRepresentations (current candidate : KgEntity) : KgEntity :=
  { current with
    name := current.name.or candidate.name
    url := current.url.or candidate.url
    confidence := current.confidence.or candidate.confidence }

def kgOptions (k : ℚ) : Options KgEntity :=
  ⟨k,identityKey normalizeUrl toLowerCase,none,some mergeKgEntityRepresentations⟩

theorem trimmedOr {current candidate : Option JsString} (same : (trimmed current).isSome ∨ trimmed candidate = none) :
    trimmed (current.or candidate) = trimmed current := by
  cases current with
  | some text => rfl
  | none =>
    rcases same with held | blank
    · contradiction
    · exact blank

theorem kgCoherent (k : ℚ) (positive : 0 < k) : Coherent (kgOptions normalizeUrl toLowerCase k) := by
  refine ⟨positive,fun _ _ => Iff.rfl,fun current candidate same => ?_⟩
  change identityKey normalizeUrl toLowerCase current = identityKey normalizeUrl toLowerCase candidate at same
  change identityKey normalizeUrl toLowerCase (mergeKgEntityRepresentations current candidate) =
    identityKey normalizeUrl toLowerCase current
  unfold identityKey at same ⊢
  simp only [mergeKgEntityRepresentations]
  cases url : trimmed current.url with
  | some text =>
    rw [trimmedOr (.inl (by rw [url]; rfl)),url]
    rfl
  | none =>
    rw [url] at same
    have other : trimmed candidate.url = none := by
      cases there : trimmed candidate.url with
      | none => rfl
      | some text =>
        rw [there] at same
        cases name : trimmed current.name <;> simp [name,js,utf16Char] at same
    rw [trimmedOr (.inr other),url]
    rw [other] at same
    cases name : trimmed current.name with
    | some text => rw [trimmedOr (.inl (by rw [name]; rfl)),name]
    | none =>
      rw [name] at same
      have nameless : trimmed candidate.name = none := by
        cases there : trimmed candidate.name with
        | none => rfl
        | some text =>
          rw [there] at same
          simp [js,utf16Char] at same
      rw [trimmedOr (.inr nameless),name]

end Entities
end Northstar.Search.Fusion
