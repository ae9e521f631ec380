import Northstar.Concurrent
import Northstar.Agent.Recording

/-! The fetch reserve of a gather round (agent-gather.ts): how it is split over the legs, and the
legs that spend it side by side, each against the web as it answers. -/
namespace Northstar.Agent.Fetching
open Program State Intents Evaluation Recording

inductive FetchLegKind where
  | none | single | search
  deriving DecidableEq, Repr

/- One fetch for each direct read while the reserve lasts, and what is left of it. -/
def spendSingles (remaining : Int) : List FetchLegKind → List Int × Int
  | [] => ([],remaining)
  | .single :: legs =>
      if 0 < remaining then
        let later := spendSingles (remaining - 1) legs
        (1 :: later.1,later.2)
      else
        let later := spendSingles remaining legs
        (0 :: later.1,later.2)
  | _ :: legs =>
      let later := spendSingles remaining legs
      (0 :: later.1,later.2)

def shareOf (base remainder : Int) (index : Nat) : Int := base + if (index : Int) < remainder then 1 else 0

/- The searches' budgets are written into the array, numbered in ledger order. -/
def shareSearches (base remainder : Int) : Nat → List FetchLegKind → List Int → List Int
  | index, .search :: legs, _ :: budgets =>
      shareOf base remainder index :: shareSearches base remainder (index + 1) legs budgets
  | index, _ :: legs, budget :: budgets => budget :: shareSearches base remainder index legs budgets
  | _, _, _ => []

def baseShare (forSearch : Int) (searches : Nat) : Int := if 0 < searches then forSearch / searches else 0

def remainderShare (forSearch : Int) (searches : Nat) : Int := if 0 < searches then forSearch % searches else 0

def allocateFetchBudgets (legs : List FetchLegKind) (fetchRemaining : Int) : List Int :=
  let spent := spendSingles (max 0 fetchRemaining) legs
  let searches := legs.count .search
  shareSearches (baseShare spent.2 searches) (remainderShare spent.2 searches) 0 legs spent.1

structure Allocated (legs : List FetchLegKind) (remaining : Int) (budgets : List Int) : Prop where
  each : budgets.length = legs.length
  nonnegative : ∀ budget ∈ budgets, 0 ≤ budget
  within : budgets.sum ≤ max 0 remaining
  unspent : ∀ i : Nat, legs[i]? = some .none → budgets[i]? = some 0
  singles : ∀ i : Nat, legs[i]? = some .single →
    budgets[i]? = some (if ((legs.take i).count .single : Int) < max 0 remaining then 1 else 0)
  fair : ∀ (i j : Nat) (first second : Int), legs[i]? = some .search → legs[j]? = some .search → i ≤ j →
    budgets[i]? = some first → budgets[j]? = some second → second ≤ first ∧ first ≤ second + 1
  exhausted : .search ∈ legs → budgets.sum = max 0 remaining

theorem spentLength (remaining : Int) (legs : List FetchLegKind) : (spendSingles remaining legs).1.length = legs.length := by
  induction legs generalizing remaining with
  | nil => rfl
  | cons leg legs ih =>
    cases leg with
    | none => simp [spendSingles,ih]
    | search => simp [spendSingles,ih]
    | single =>
      simp only [spendSingles]
      split
      · simp [ih]
      · simp [ih]

theorem spentTotal {remaining : Int} (left : 0 ≤ remaining) (legs : List FetchLegKind) :
    (spendSingles remaining legs).1.sum + (spendSingles remaining legs).2 = remaining ∧
      0 ≤ (spendSingles remaining legs).2 := by
  induction legs generalizing remaining with
  | nil => simpa [spendSingles] using left
  | cons leg legs ih =>
    cases leg with
    | none => simpa [spendSingles] using ih left
    | search => simpa [spendSingles] using ih left
    | single =>
      simp only [spendSingles]
      split
      · have later := @ih (remaining - 1) (by omega)
        simp only [List.sum_cons]
        omega
      · simpa using ih left

theorem spentAt {remaining : Int} (left : 0 ≤ remaining) {legs : List FetchLegKind} {i : Nat} {leg : FetchLegKind}
    (at_ : legs[i]? = some leg) : (spendSingles remaining legs).1[i]? =
      some (if leg = .single ∧ ((legs.take i).count .single : Int) < remaining then 1 else 0) := by
  induction legs generalizing remaining i with
  | nil => contradiction
  | cons first legs ih =>
    cases i with
    | zero =>
      cases Option.some.inj at_
      cases leg with
      | none => rfl
      | search => rfl
      | single =>
        simp only [spendSingles]
        split
        · rename_i some
          simp [some]
        · rename_i none
          simp [none]
    | succ i =>
      cases first with
      | none => simpa [spendSingles] using ih left at_
      | search => simpa [spendSingles] using ih left at_
      | single =>
        simp only [spendSingles]
        split
        · have later := @ih (remaining - 1) (by omega) i at_
          simp only [List.getElem?_cons_succ,later,List.take_succ_cons,List.count_cons_self,Nat.cast_add,Nat.cast_one]
          have same : ((legs.take i).count .single : Int) < remaining - 1 ↔
            ((legs.take i).count .single : Int) + 1 < remaining := by omega
          simp only [same]
        · have later := ih left at_
          simp only [List.getElem?_cons_succ,later,List.take_succ_cons,List.count_cons_self,Nat.cast_add,Nat.cast_one]
          have zero : remaining = 0 := by omega
          have neither : ¬ ((legs.take i).count .single : Int) < remaining := by omega
          have nor : ¬ ((legs.take i).count .single : Int) + 1 < remaining := by omega
          simp [neither,nor]

section Shares
variable {base remainder : Int}

theorem shareLength {index : Nat} {legs : List FetchLegKind} {budgets : List Int} (same : budgets.length = legs.length) :
    (shareSearches base remainder index legs budgets).length = legs.length := by
  induction legs generalizing index budgets with
  | nil => simp [shareSearches]
  | cons leg legs ih => cases budgets with
    | nil => contradiction
    | cons budget budgets =>
      have rest := fun index => @ih index budgets (Nat.succ.inj same)
      cases leg <;> simp [shareSearches,rest]

theorem shareAt {index i : Nat} {legs : List FetchLegKind} {budgets : List Int} {leg : FetchLegKind}
    (same : budgets.length = legs.length) (at_ : legs[i]? = some leg) :
    (shareSearches base remainder index legs budgets)[i]? =
      if leg = .search then some (shareOf base remainder (index + (legs.take i).count .search)) else budgets[i]? := by
  induction legs generalizing index budgets i with
  | nil => contradiction
  | cons first legs ih => cases budgets with
    | nil => contradiction
    | cons budget budgets =>
      have rest := fun index i => @ih index i budgets (Nat.succ.inj same)
      cases i with
      | zero =>
        cases Option.some.inj at_
        cases leg <;> simp [shareSearches]
      | succ i =>
        cases first with
        | none => simpa [shareSearches] using rest index i at_
        | single => simpa [shareSearches] using rest index i at_
        | search =>
          have later := rest (index + 1) i at_
          simp only [shareSearches,List.getElem?_cons_succ,later,List.take_succ_cons,List.count_cons_self]
          rw [Nat.add_right_comm,Nat.add_assoc]

theorem shareTotal {index : Nat} {legs : List FetchLegKind} {budgets : List Int} (same : budgets.length = legs.length)
    (empty : ∀ i : Nat, legs[i]? = some .search → budgets[i]? = some 0) :
    (shareSearches base remainder index legs budgets).sum = budgets.sum + base * legs.count .search +
      (min remainder (index + legs.count .search) - min remainder index) := by
  induction legs generalizing index budgets with
  | nil =>
    cases List.eq_nil_of_length_eq_zero same
    simp [shareSearches]
  | cons leg legs ih => cases budgets with
    | nil => contradiction
    | cons budget budgets =>
      have rest := fun index => @ih index budgets (Nat.succ.inj same) fun i at_ => empty (i + 1) at_
      cases leg with
      | none =>
        simp only [shareSearches,List.sum_cons,rest,List.count_cons_of_ne (by decide : FetchLegKind.none ≠ .search)]
        omega
      | single =>
        simp only [shareSearches,List.sum_cons,rest,List.count_cons_of_ne (by decide : FetchLegKind.single ≠ .search)]
        omega
      | search =>
        cases Option.some.inj (empty 0 rfl)
        simp only [shareSearches,List.sum_cons,rest,List.count_cons_self,shareOf,Nat.cast_add,Nat.cast_one,mul_add,mul_one]
        split
        · omega
        · omega

end Shares

structure Divided (forSearch : Int) (searches : Nat) (base remainder : Int) : Prop where
  shared : 0 ≤ base
  left : 0 ≤ remainder
  whole : 0 < searches → base * searches + remainder = forSearch ∧ remainder < searches

theorem divided {forSearch : Int} (left : 0 ≤ forSearch) (searches : Nat) :
    Divided forSearch searches (baseShare forSearch searches) (remainderShare forSearch searches) := by
  unfold baseShare remainderShare
  rcases Nat.eq_zero_or_pos searches with rfl | some
  · simp only [Nat.lt_irrefl,if_false]
    exact ⟨le_refl 0,le_refl 0,fun some => absurd some (Nat.lt_irrefl 0)⟩
  · rw [if_pos some,if_pos some]
    exact ⟨Int.ediv_nonneg left (Int.natCast_nonneg searches),Int.emod_nonneg forSearch (by omega),
      fun _ => ⟨Int.ediv_mul_add_emod forSearch searches,Int.emod_lt_of_pos forSearch (by omega)⟩⟩

theorem allocated (legs : List FetchLegKind) (remaining : Int) :
    Allocated legs remaining (allocateFetchBudgets legs remaining) := by
  have reserve : 0 ≤ max 0 remaining := le_max_left 0 remaining
  have same := spentLength (max 0 remaining) legs
  obtain ⟨total,left⟩ := spentTotal reserve legs
  have spent := fun i leg => @spentAt (max 0 remaining) reserve legs i leg
  unfold allocateFetchBudgets
  simp only
  generalize spendSingles (max 0 remaining) legs = reads at *
  have split := divided left (legs.count .search)
  generalize baseShare reads.2 (legs.count .search) = base at *
  generalize remainderShare reads.2 (legs.count .search) = remainder at *
  have at_ := fun i leg => @shareAt base remainder 0 i legs reads.1 leg same
  have length := @shareLength base remainder 0 legs reads.1 same
  have sum := @shareTotal base remainder 0 legs reads.1 same fun i search => by simpa using spent i _ search
  have used : 0 < legs.count .search → (shareSearches base remainder 0 legs reads.1).sum = max 0 remaining := by
    intro some
    obtain ⟨division,small⟩ := split.whole some
    have nonnegative := split.left
    rw [sum]
    omega
  exact {
    each := length
    nonnegative := by
      intro budget member
      obtain ⟨i,inside,rfl⟩ := List.getElem_of_mem member
      have there : legs[i]? = some legs[i] := List.getElem?_eq_getElem (length ▸ inside)
      have value := at_ i _ there
      rw [List.getElem?_eq_getElem inside,spent i _ there] at value
      have nonnegative := split.shared
      split at value
      · rw [Option.some.inj value,shareOf]
        split
        · omega
        · omega
      · rw [Option.some.inj value]
        split
        · exact Int.one_nonneg
        · exact le_refl 0
    within := by
      rcases Nat.eq_zero_or_pos (legs.count .search) with none | some
      · rw [sum,none]
        simp only [Nat.cast_zero,mul_zero]
        omega
      · exact le_of_eq (used some)
    unspent := by
      intro i none
      simp [at_ i _ none,spent i _ none]
    singles := by
      intro i single
      simp [at_ i _ single,spent i _ single]
    fair := by
      intro i j first second atFirst atSecond order firstIs secondIs
      rw [at_ i _ atFirst,if_pos rfl] at firstIs
      rw [at_ j _ atSecond,if_pos rfl] at secondIs
      rw [← Option.some.inj firstIs,← Option.some.inj secondIs,shareOf,shareOf]
      have fewer : (legs.take i).count .search ≤ (legs.take j).count .search :=
        (List.take_sublist_take_left order).count_le _
      split
      · split
        · omega
        · omega
      · split
        · omega
        · omega
    exhausted := fun search => used (List.count_pos_iff.mpr search) }

/- What a leg asks of the outside: one search, one page, or one specialist tool. -/
inductive ToolOp where
  | search (query : JsString)
  | fetchText (url : JsString)
  | tool (lane : GatherLane) (intent : GatherIntent)

structure SearchHit where
  title : JsString
  url : Option JsString

/- A call that throws replies nothing. -/
def ToolReply : ToolOp → Type
  | .search _ => Option (List SearchHit)
  | .fetchText _ => Option JsString
  | .tool _ _ => Option JsValue

def isFetch : ToolOp → Bool
  | .fetchText _ => true
  | _ => false

structure LegFetch where
  url : JsString
  title : JsString
  index : Nat
  body : Option JsString

structure LegResult where
  searchFailed : Bool
  raw : Option JsValue
  fetches : List LegFetch
  fetchSkipped : Bool

abbrev Leg := Program ToolOp ToolReply

def agentMaxFetchRounds : Nat := 8

def searchedUrls (hits : List SearchHit) : List (JsString × JsString) :=
  hits.filterMap fun hit => hit.url.bind fun url =>
    if isHttpUrl url then some (url,if hit.title = [] then url else hit.title) else none

/- One attempt a hit, one after the other, failed or not. -/
def fetchHits : Nat → List (JsString × JsString) → Leg (List LegFetch)
  | _, [] => pure []
  | index, (url,title) :: rest => request (.fetchText url) >>= fun (body : Option JsString) =>
      fetchHits (index + 1) rest >>= fun later => pure (⟨url,title,index,body⟩ :: later)

/- Budgets are never negative, so the slice of a search's hits is a prefix. -/
def runLeg (ctx : Context) (budget : Int) (action : PlannedAction) : Leg LegResult :=
  match action.intent with
  | .webFetch url =>
      if budget ≤ 0 then pure ⟨false,none,[],true⟩
      else request (.fetchText url) >>= fun (body : Option JsString) => pure ⟨false,none,[⟨url,url,0,body⟩],false⟩
  | intent =>
      if action.lane = .web then
        request (.search action.query) >>= fun (hits : Option (List SearchHit)) => match hits with
          | none => pure ⟨true,none,[],false⟩
          | some hits =>
              fetchHits 0 (((searchedUrls hits).take agentMaxFetchRounds).take budget.toNat) >>= fun fetches =>
                pure ⟨false,none,fetches,false⟩
      else if !ctx.tools action.lane then pure ⟨true,none,[],false⟩
      else request (.tool action.lane intent) >>= fun (raw : Option JsValue) => match raw with
        | none => pure ⟨true,none,[],false⟩
        | some raw => pure ⟨false,some raw,[],false⟩

def legKind (action : PlannedAction) : FetchLegKind :=
  if isFetchRead action.intent then .single else if action.lane = .web then .search else .none

/- The cap of the round (the last one serves every later round), within what the run has left. -/
def fetchRemaining (ctx : Context) (roundFetchCaps : Vector Int 3) (round : Nat) : Int :=
  min (roundFetchCaps[min (max 1 round) 3 - 1]) (max 0 ((ctx.budgets.maxFetches : Int) - ctx.counters.fetchesUsed))

def runLegs (ctx : Context) (roundFetchCaps : Vector Int 3) (round : Nat) (legs : List PlannedAction) : List (Leg LegResult) :=
  (allocateFetchBudgets (legs.map legKind) (fetchRemaining ctx roundFetchCaps round)).zipWith (runLeg ctx) legs

theorem mostHits (index : Nat) (hits : List (JsString × JsString)) : (fetchHits index hits).Most isFetch hits.length := by
  induction hits generalizing index with
  | nil => trivial
  | cons hit rest ih =>
    obtain ⟨url,title⟩ := hit
    simp only [fetchHits]
    exact mostCounted rfl fun body => mostBind (ih (index + 1)) (m := 0) fun later => trivial

theorem mostLeg (ctx : Context) {budget : Int} (action : PlannedAction) : (runLeg ctx budget action).Most isFetch budget.toNat := by
  unfold runLeg
  split
  · split
    · trivial
    · rename_i some
      exact mostMore (n := 1) (by omega) (mostCounted rfl fun body => trivial)
  · split
    · refine mostFree rfl fun hits => ?_
      cases hits with
      | none => trivial
      | some hits =>
        have fetches := mostHits 0 (((searchedUrls hits).take agentMaxFetchRounds).take budget.toNat)
        exact mostMore (by simp) (mostBind fetches (m := 0) fun later => trivial)
    · split
      · trivial
      · refine mostFree rfl fun raw => ?_
        cases raw with
        | none => trivial
        | some raw => trivial

theorem mostLegs (ctx : Context) {budgets : List Int} {legs : List PlannedAction} (same : budgets.length = legs.length) :
    List.Forall₂ (fun p n => p.Most isFetch n) (budgets.zipWith (runLeg ctx) legs) (budgets.map Int.toNat) := by
  induction budgets generalizing legs with
  | nil => exact .nil
  | cons budget budgets ih => cases legs with
    | nil => contradiction
    | cons leg legs => exact .cons (mostLeg ctx leg) (ih (Nat.succ.inj same))

theorem toNatSum {values : List Int} (nonnegative : ∀ value ∈ values, 0 ≤ value) :
    ((values.map Int.toNat).sum : Int) = values.sum := by
  induction values with
  | nil => rfl
  | cons first rest ih =>
    have later := ih fun value member => nonnegative value (List.mem_cons_of_mem _ member)
    have here := nonnegative first List.mem_cons_self
    simp only [List.map_cons,List.sum_cons,Nat.cast_add,later]
    omega

/-- The reserve is split fairly and never overspent, whatever the legs' calls reply and however
their turns fall. -/
theorem fetchesWithinReserve :
    (∀ (legs : List FetchLegKind) (remaining : Int), Allocated legs remaining (allocateFetchBudgets legs remaining)) ∧
    ∀ (ctx : Context) (roundFetchCaps : Vector Int 3) (round : Nat) (legs : List PlannedAction) (calls : List ToolOp)
      (left : List (Leg LegResult)), Interleaved (runLegs ctx roundFetchCaps round legs) calls left →
      (calls.countP isFetch : Int) ≤ max 0 (fetchRemaining ctx roundFetchCaps round) ∧
      (calls.countP isFetch : Int) ≤ max 0 ((ctx.budgets.maxFetches : Int) - ctx.counters.fetchesUsed) := by
  refine ⟨allocated,fun ctx roundFetchCaps round legs calls left run => ?_⟩
  have split := allocated (legs.map legKind) (fetchRemaining ctx roundFetchCaps round)
  have spent := interleavedMost run (mostLegs ctx (by simpa using split.each))
  have reserve := split.within
  rw [← toNatSum split.nonnegative] at reserve
  have within : (calls.countP isFetch : Int) ≤ max 0 (fetchRemaining ctx roundFetchCaps round) := by omega
  have bounded : fetchRemaining ctx roundFetchCaps round ≤ max 0 ((ctx.budgets.maxFetches : Int) - ctx.counters.fetchesUsed) :=
    min_le_right _ _
  exact ⟨within,by omega⟩

/- One direct read against a run that has one fetch left. -/
def lastFetch : Context :=
  ⟨none,fun _ => false,⟨0,23,0,fun _ => 0⟩,⟨12,24,12,fun _ => 8⟩⟩

def directRead : PlannedAction := ⟨.webFetch (js "https://a.org/p"),js "https://a.org/p",[],false⟩

theorem lastFetchSpent : ∃ left, Interleaved (runLegs lastFetch #v[7,4,1] 1 [directRead,directRead])
      [.fetchText (js "https://a.org/p")] left ∧
    (([ToolOp.fetchText (js "https://a.org/p")].countP isFetch : Nat) : Int) ≤ 1 := by
  have run := @Interleaved.turn ToolOp ToolReply LegResult (runLegs lastFetch #v[7,4,1] 1 [directRead,directRead]) 0
    (.fetchText (js "https://a.org/p")) _ [] _ rfl none (.stop _)
  exact ⟨_,run,(fetchesWithinReserve.2 lastFetch #v[7,4,1] 1 [directRead,directRead] _ _ run).2⟩

end Northstar.Agent.Fetching
