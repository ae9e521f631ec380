import Mathlib
import Northstar.Agent.Emission
import Northstar.Agent.JournalText

/-! Every run of a job's emissions: no search and no fetch is told of twice, the plan and the closing counts are written
once, and the journal can be replayed where the rounds that are reported never fall. -/
namespace Northstar.Agent
open AgentEventJournal (appended drain maxCounter hasType)
open Contract (AgentResultV1)

def counters : List (AgentEventType × String) := [(.searchCompleted,"searchesUsed"),(.fetchCompleted,"fetchesUsed")]

def onceTypes : List AgentEventType := [.planAccepted,.synthesisCompleted,.verificationCompleted]

def counts (counter : AgentEventType × String) (events : List JsValue) : List Nat := events.filterMap (told [counter.1] counter.2)

/- Each count is told once and above the last, some events come once, and none but the first is a creation. -/
structure Once (events : List JsValue) : Prop where
  counters : ∀ counter ∈ counters, (counts counter events).Pairwise (· < ·)
  singles : ∀ type ∈ onceTypes, events.countP (eventType · = some type) ≤ 1
  created : ∀ event ∈ events.tail, eventType event ≠ some .jobCreated

/- An event that may come next. -/
structure Fits (events : List JsValue) (event : JsValue) : Prop where
  counters : ∀ counter ∈ counters, ∀ next ∈ told [counter.1] counter.2 event, ∀ count ∈ counts counter events, count < next
  singles : ∀ type ∈ onceTypes, eventType event = some type → events.countP (eventType · = some type) = 0
  created : eventType event ≠ some .jobCreated

theorem onceNil : Once [] := by constructor <;> simp [counts]

theorem onceNext {events : List JsValue} {event : JsValue} (once : Once events) (fits : Fits events event) : Once (events ++ [event]) := by
  constructor
  · intro counter member
    have before := once.counters counter member
    have next := fits.counters counter member
    rw [counts,List.filterMap_append,filterMapCons,List.filterMap_nil,List.append_nil]
    refine List.pairwise_append.mpr ⟨before,?_,fun count inside value there => next value (by simpa using there) count inside⟩
    cases told [counter.1] counter.2 event <;> simp
  · intro type member
    rw [List.countP_append,List.countP_singleton]
    split
    · rename_i same
      rw [fits.singles type member (of_decide_eq_true same)]
    · simpa using once.singles type member
  · cases events with
    | nil => simp
    | cons first rest =>
      rw [List.cons_append,List.tail_cons]
      intro other member
      rcases List.mem_append.mp member with inside | last
      · exact once.created other inside
      · rw [List.mem_singleton.mp last]
        exact fits.created

theorem appendedOk {journal next : AgentEventJournal} {event : JsValue} (ok : journal.append event = .ok next) :
    next.jobId = journal.jobId ∧ next.events = journal.events ++ [event] := by
  unfold AgentEventJournal.append at ok
  split at ok
  · split at ok
    · split at ok
      · obtain rfl := Except.ok.inj ok
        exact ⟨rfl,rfl⟩
      · contradiction
    · contradiction
  · contradiction

theorem appendedOnce {journal : AgentEventJournal} {event : JsValue} (once : Once journal.events) (fits : Fits journal.events event) :
    Once (journal.appended event).events := by
  rcases journal.appendedCases event with same | ⟨_,more⟩
  · rw [same]
    exact once
  · rw [more]
    exact onceNext once fits

theorem valueType (type : AgentEventType) (jobId : JsString) (fields : List (String × JsValue)) :
    eventType (eventValue type jobId fields) = some type := by
  cases type <;> rfl

theorem toldOther {type : AgentEventType} {event : JsValue} (typed : eventType event = some type) {which : AgentEventType}
    (other : which ≠ type) (field : String) : told [which] field event = none := by
  simp [told,typed,Ne.symm other]

/- Events of the other types may come at any time. -/
theorem fitsFree {type : AgentEventType} {event : JsValue} (typed : eventType event = some type)
    (uncounted : ∀ counter ∈ counters, counter.1 ≠ type) (repeated : type ∉ onceTypes) (uncreated : type ≠ .jobCreated)
    (events : List JsValue) : Fits events event := by
  constructor
  · intro counter member next there
    rw [toldOther typed (uncounted counter member)] at there
    simp at there
  · intro which member same
    rw [typed] at same
    exact absurd (Option.some.inj same ▸ member) repeated
  · rw [typed]
    exact fun same => uncreated (Option.some.inj same)

/- One that comes once may come where none of its type is there. -/
theorem fitsSingle {type : AgentEventType} {event : JsValue} (typed : eventType event = some type)
    (uncounted : ∀ counter ∈ counters, counter.1 ≠ type) (uncreated : type ≠ .jobCreated) {journal : AgentEventJournal}
    (first : journal.hasType type = false) : Fits journal.events event := by
  constructor
  · intro counter member next there
    rw [toldOther typed (uncounted counter member)] at there
    simp at there
  · intro which _ same
    rw [typed] at same
    obtain rfl := Option.some.inj same
    rw [List.countP_eq_zero]
    simpa [hasType] using first
  · rw [typed]
    exact fun same => uncreated (Option.some.inj same)

theorem countMax {counts : List Nat} {count : Nat} (member : count ∈ counts) : count ≤ counts.foldl max 0 := by
  obtain ⟨before,after,rfl⟩ := List.append_of_mem member
  rw [List.foldl_append,List.foldl_cons]
  exact (Nat.le_max_right _ count).trans (maxRises _ after)

section Drains
variable {type : AgentEventType} {field : String} (inside : (type,field) ∈ counters) {write : Nat → Option JsValue}
  (writes : ∀ k event, write k = some event → eventType event = some type ∧ countIn event field = k + 1)
include inside writes

theorem drainFits {k : Nat} {event : JsValue} (written : write k = some event) {events : List JsValue}
    (below : ∀ count ∈ counts (type,field) events, count ≤ k) : Fits events event := by
  obtain ⟨typed,count⟩ := writes k event written
  have counted_ : told [type] field event = some (k + 1) := by simp [told,typed,count]
  constructor
  · intro counter member next there held
    by_cases same : counter.1 = type
    · have one : counter = (type,field) := by
        simp only [counters,List.mem_cons,List.not_mem_nil,or_false] at inside member
        rcases inside with inside | inside <;> rcases member with rfl | rfl <;> simp_all
      rw [one] at there ⊢
      rw [counted_,Option.mem_some_iff] at there
      exact fun also => there ▸ Nat.lt_succ_of_le (below held also)
    · rw [toldOther typed same] at there
      simp at there
  · intro which member same
    rw [typed] at same
    obtain rfl := Option.some.inj same
    simp only [counters,onceTypes,List.mem_cons,Prod.mk.injEq,List.not_mem_nil,or_false] at inside member
    rcases inside with ⟨rfl,_⟩ | ⟨rfl,_⟩ <;> simp at member
  · rw [typed]
    simp only [counters,List.mem_cons,Prod.mk.injEq,List.not_mem_nil,or_false] at inside
    rcases inside with ⟨rfl,_⟩ | ⟨rfl,_⟩ <;> simp

theorem drainedOnce (n : Nat) : ∀ (k : Nat) (journal : AgentEventJournal), Once journal.events →
    (∀ count ∈ counts (type,field) journal.events, count ≤ k) →
    Once ((List.range' k n).foldl (fun journal k => (write k).elim journal journal.appended) journal).events := by
  induction n with
  | zero => exact fun _ _ once _ => once
  | succ n ih =>
    intro k journal once below
    rw [List.range'_succ,List.foldl_cons]
    have later : ∀ count ∈ counts (type,field) journal.events, count ≤ k + 1 := fun count member => (below count member).trans (Nat.le_succ k)
    cases written : write k with
    | none => exact ih (k + 1) journal once later
    | some event =>
      rw [Option.elim_some]
      refine ih (k + 1) _ (appendedOnce once (drainFits inside writes written below)) fun count member => ?_
      rcases journal.appendedCases event with same | ⟨_,more⟩
      · exact later count (same ▸ member)
      · rw [more,counts,List.filterMap_append,List.mem_append] at member
        rcases member with before | last
        · exact later count before
        · obtain ⟨typed,counted_⟩ := writes k event written
          have tells : told [type] field event = some (k + 1) := by simp [told,typed,counted_]
          simp [tells] at last
          omega

theorem drainOnce (last : Nat) {journal : AgentEventJournal} (once : Once journal.events) :
    Once (journal.drain write (journal.maxCounter type field) last).events :=
  drainedOnce inside writes _ _ journal once fun _ member => countMax member

end Drains

theorem countBack {event : JsValue} {field : String} {n : Nat} (there : event.get field = counted n) : countIn event field = n := by
  have whole : 0 ≤ (n : Int) := Int.natCast_nonneg n
  simp [countIn,there,counted,State.natural]

theorem valueGet (type : AgentEventType) (jobId : JsString) (fields : List (String × JsValue)) {key : String} (typed : key ≠ "type")
    (owned : key ≠ "jobId") : (eventValue type jobId fields).get key = (fields.lookup key).getD .undefined := by
  have apart {other : String} (different : key ≠ other) : (js key == js other) = false :=
    beq_eq_false_iff_ne.mpr fun same => different (textInjective same)
  have found : (fields.map fun field => (js field.1,field.2)).lookup (js key) = fields.lookup key := by
    induction fields with
    | nil => rfl
    | cons field rest ih =>
      rw [List.map_cons,List.lookup_cons,List.lookup_cons,ih]
      by_cases same : key = field.1
      · rw [same,beq_self_eq_true,beq_self_eq_true]
      · rw [apart same,beq_eq_false_iff_ne.mpr same]
  simp only [eventValue,JsValue.get,List.lookup_cons,apart typed,apart owned,found]

theorem searchCounts (jobId : JsString) (round : Nat) (query : JsString) (hitCount k : Nat) (failed : Bool) :
    eventType (searchEvent jobId round query hitCount k failed) = some .searchCompleted ∧
      countIn (searchEvent jobId round query hitCount k failed) "searchesUsed" = k + 1 := by
  have told_ : (searchEvent jobId round query hitCount k failed).get "searchesUsed" = counted (k + 1) := by
    rw [searchEvent,valueGet _ _ _ (by decide) (by decide)]
    simp [List.lookup_cons]
  exact ⟨rfl,countBack told_⟩

theorem fetchCounts (jobId : JsString) (round k : Nat) (logged : FetchLogEntry) :
    eventType (fetchEvent jobId round k logged) = some .fetchCompleted ∧
      countIn (fetchEvent jobId round k logged) "fetchesUsed" = k + 1 := by
  have told_ : (fetchEvent jobId round k logged).get "fetchesUsed" = counted (k + 1) := by
    rw [fetchEvent,valueGet _ _ _ (by decide) (by decide)]
    simp [List.lookup_cons]
  exact ⟨rfl,countBack told_⟩

theorem searchesOnce (jobQuery : JsString) (round : Nat) (searches : Option Nat) (log : List SearchLogEntry)
    {journal : AgentEventJournal} (once : Once journal.events) : Once (drainSearches jobQuery round searches log journal).events := by
  unfold drainSearches
  cases searches with
  | none => exact once
  | some searches =>
    refine drainOnce (by simp [counters]) (fun k event written => ?_) _ once
    obtain rfl := Option.some.inj written
    cases log[k]? with
    | none => exact searchCounts ..
    | some logged => exact searchCounts ..

theorem fetchesOnce (round : Nat) (fetches : Option Nat) (log : List FetchLogEntry) {journal : AgentEventJournal}
    (once : Once journal.events) : Once (drainFetches round fetches log journal).events := by
  unfold drainFetches
  cases fetches with
  | none => exact once
  | some fetches =>
    refine drainOnce (by simp [counters]) (fun k event written => ?_) _ once
    obtain ⟨logged,_,rfl⟩ := Option.map_eq_some_iff.mp written
    exact fetchCounts ..

theorem evidenceType {jobId : JsString} {round : Nat} {entry event : JsValue} (written : evidenceEvent jobId round entry = some event) :
    eventType event = some .evidenceAdmitted := by
  unfold evidenceEvent at written
  split at written
  · obtain rfl := Option.some.inj written
    rfl
  · contradiction

theorem evidenceOnce (event : DetailedProgress) (round : Nat) {journal : AgentEventJournal} (once : Once journal.events) :
    Once (emitEvidenceAdmitted event round journal).events := by
  have each : ∀ written ∈ (itemsOf (event.detail.get "admittedEvidence")).filterMap (evidenceEvent journal.jobId round),
      eventType written = some .evidenceAdmitted := by
    intro written member
    obtain ⟨entry,_,there⟩ := List.mem_filterMap.mp member
    exact evidenceType there
  unfold emitEvidenceAdmitted
  generalize (itemsOf (event.detail.get "admittedEvidence")).filterMap (evidenceEvent journal.jobId round) = batch at each
  induction batch generalizing journal with
  | nil => exact once
  | cons written rest ih =>
    have fits := fitsFree (each written List.mem_cons_self) (by simp [counters]) (by simp [onceTypes]) (by simp) journal.events
    exact ih (appendedOnce once fits) fun other member => each other (List.mem_cons_of_mem _ member)

theorem candidatesType {jobId : JsString} {round : Nat} {detail event : JsValue} (written : candidatesEvent jobId round detail = some event) :
    eventType event = some .candidatesAccumulated := by
  unfold candidatesEvent at written
  split at written
  · obtain rfl := Option.some.inj written
    rfl
  · contradiction

theorem progressOnce (jobQuery : JsString) (event : DetailedProgress) (searchLog : List SearchLogEntry) (fetchLog : List FetchLogEntry)
    {journal : AgentEventJournal} (once : Once journal.events) :
    Once (emitProgressJournal jobQuery event searchLog fetchLog journal).events := by
  have drained := fetchesOnce ((asCount event.round).getD 0) (asCount event.fetchesUsed) fetchLog
    (searchesOnce jobQuery ((asCount event.round).getD 0) (asCount event.searchesUsed) searchLog once)
  unfold emitProgressJournal
  cases event.stage with
  | none => exact once
  | some stage =>
    cases stage with
    | plan =>
      dsimp only
      split
      · exact once
      · rename_i absent
        exact appendedOnce once (fitsSingle (valueType ..) (by simp [counters]) (by simp) (Bool.eq_false_iff.mpr absent))
    | gather =>
      have admitted := evidenceOnce event ((asCount event.round).getD 0) drained
      dsimp only
      cases written : candidatesEvent journal.jobId ((asCount event.round).getD 0) event.detail with
      | none => exact admitted
      | some candidates =>
        exact appendedOnce admitted (fitsFree (candidatesType written) (by simp [counters]) (by simp [onceTypes]) (by simp) _)
    | evaluate =>
      exact evidenceOnce event _ (appendedOnce drained (fitsFree (valueType ..) (by simp [counters]) (by simp [onceTypes]) (by simp) _))
    | synthesize => exact drained
    | verify => exact drained
    | done => exact drained
    | failed => exact drained

theorem resultOnce (result : AgentResultV1) {journal : AgentEventJournal} (once : Once journal.events) :
    Once (emitResultJournalCounts result journal).events := by
  have synthesized : Once (emitSynthesis result journal).events := by
    unfold emitSynthesis
    split
    · rename_i both
      have absent := (Bool.and_eq_true_iff.mp both).2
      exact appendedOnce once (fitsSingle (valueType ..) (by simp [counters]) (by simp) (by simpa using absent))
    · exact once
  unfold emitResultJournalCounts emitVerification
  split
  · exact synthesized
  · split
    · exact synthesized
    · rename_i absent
      exact appendedOnce synthesized (fitsSingle (valueType ..) (by simp [counters]) (by simp) (Bool.eq_false_iff.mpr absent))

theorem emitOnce (emission : Emission) {journal : AgentEventJournal} (once : Once journal.events) : Once (emit journal emission).events := by
  cases emission with
  | progress jobQuery event searchLog fetchLog => exact progressOnce jobQuery event searchLog fetchLog once
  | result result => exact resultOnce result once
  | ready => exact appendedOnce once (fitsFree (valueType ..) (by simp [counters]) (by simp [onceTypes]) (by simp) _)

theorem runOnce (emissions : List Emission) {journal : AgentEventJournal} (once : Once journal.events) :
    Once (emissions.foldl emit journal).events := by
  induction emissions generalizing journal with
  | nil => exact once
  | cons emission rest ih => exact ih (emitOnce emission once)

theorem createdOnce {journal : AgentEventJournal} (empty : journal.events = []) (query : JsString) (createdAtMs : Nat) :
    Once (journal.appended (createdEvent journal.jobId query createdAtMs)).events := by
  have typed : eventType (createdEvent journal.jobId query createdAtMs) = some .jobCreated := rfl
  rcases journal.appendedCases (createdEvent journal.jobId query createdAtMs) with same | ⟨_,more⟩
  · rw [same,empty]
    exact onceNil
  · rw [more,empty,List.nil_append]
    constructor
    · intro counter member
      have none_ : told [counter.1] counter.2 (createdEvent journal.jobId query createdAtMs) = none := by
        refine toldOther typed ?_ _
        simp only [counters,List.mem_cons,List.not_mem_nil,or_false] at member
        rcases member with rfl | rfl <;> simp
      simp [counts,none_]
    · exact fun type _ => List.countP_le_length.trans (by simp)
    · simp

theorem createdEmpty {jobId : JsString} {journal : AgentEventJournal} (created : createAgentEventJournal jobId = .ok journal) :
    journal.jobId = jobId ∧ journal.events = [] := by
  unfold createAgentEventJournal at created
  split at created
  · obtain rfl := Except.ok.inj created
    exact ⟨rfl,rfl⟩
  · contradiction

/- Whatever a job reports and in whatever order: each search and each fetch is told of once, in the order of their counts, and
the plan and the closing counts come once. -/
theorem emittedOnce (jobId query : JsString) (createdAtMs : Nat) (emissions : List Emission) {journal : AgentEventJournal}
    (created : createAgentEventJournal jobId = .ok journal) : Once (emitted journal query createdAtMs emissions).events :=
  runOnce emissions (createdOnce (createdEmpty created).2 query createdAtMs)

def bareJournal : AgentEventJournal := ⟨js "a",[],by decide,by simp,.inl rfl⟩

theorem bareCreated : createAgentEventJournal (js "a") = .ok bareJournal := dif_pos (by decide)

def searchReport (round : ℚ) (searches : ℚ) : Emission :=
  .progress (js "q") { stage := some .gather, round := some round, searchesUsed := some searches, detail := .undefined } [] []

theorem twiceReported : Once (emitted bareJournal (js "q") 0 [searchReport 1 2,searchReport 1 2]).events :=
  emittedOnce (js "a") (js "q") 0 [searchReport 1 2,searchReport 1 2] bareCreated

/- The round that the events of a report carry: those of a plan carry none. -/
def Emission.reported : Emission → Option Nat
  | .progress _ event _ _ => if event.stage = none ∨ event.stage = some .plan then none else some ((asCount event.round).getD 0)
  | _ => none

def Emission.isReady : Emission → Bool
  | .ready _ _ => true
  | _ => false

/- What an emission may try to append. -/
structure Tried (emission : Emission) (event : JsValue) : Prop where
  round : ∀ round ∈ roundOf event, emission.reported = some round
  ready : eventType event = some .jobReady → emission.isReady = true

def Attempted (emission : Emission) (journal after : AgentEventJournal) : Prop :=
  ∃ attempts : List JsValue, after = attempts.foldl appended journal ∧ ∀ event ∈ attempts, Tried emission event

theorem attemptedNone (emission : Emission) (journal : AgentEventJournal) : Attempted emission journal journal := ⟨[],rfl,by simp⟩

theorem attemptedOne {emission : Emission} {event : JsValue} (tried : Tried emission event) (journal : AgentEventJournal) :
    Attempted emission journal (journal.appended event) := ⟨[event],rfl,by simpa using tried⟩

theorem attemptedThen {emission : Emission} {journal middle after : AgentEventJournal} (first : Attempted emission journal middle)
    (second : Attempted emission middle after) : Attempted emission journal after := by
  obtain ⟨before,rfl,early⟩ := first
  obtain ⟨behind,rfl,late⟩ := second
  exact ⟨before ++ behind,(List.foldl_append).symm,fun event member => (List.mem_append.mp member).elim (early event) (late event)⟩

theorem drainAttempts {emission : Emission} {write : Nat → Option JsValue} (tried : ∀ k event, write k = some event → Tried emission event)
    (first last : Nat) (journal : AgentEventJournal) : Attempted emission journal (journal.drain write first last) := by
  unfold drain
  generalize List.range' first (last - first) = ks
  induction ks generalizing journal with
  | nil => exact attemptedNone emission journal
  | cons k rest ih =>
    rw [List.foldl_cons]
    cases written : write k with
    | none => exact ih journal
    | some event => exact attemptedThen (attemptedOne (tried k event written) journal) (ih _)

/- An event with a round of its own is tried for a report of that round. -/
theorem triedRound {type : AgentEventType} {jobId : JsString} {fields : List (String × JsValue)} {round : Nat} {emission : Emission}
    (same : fields.lookup "round" = some (counted round)) (reported : emission.reported = some round) (other : type ≠ .jobReady) :
    Tried emission (eventValue type jobId fields) := by
  constructor
  · intro found there
    have carried : countIn (eventValue type jobId fields) "round" = round := by
      refine countBack ?_
      rw [valueGet _ _ _ (by decide) (by decide),same]
      rfl
    unfold roundOf told at there
    rw [carried] at there
    split at there
    · rw [reported,Option.mem_some_iff.mp there]
    · simp at there
  · rw [valueType]
    exact fun ready => absurd (Option.some.inj ready) other

theorem triedPlain {type : AgentEventType} (jobId : JsString) (fields : List (String × JsValue)) {emission : Emission}
    (plain : type ∉ roundTypes) (ready : type = .jobReady → emission.isReady = true) : Tried emission (eventValue type jobId fields) := by
  constructor
  · intro found there
    simp [roundOf,told,valueType,plain] at there
  · rw [valueType]
    exact fun same => ready (Option.some.inj same)

theorem evidenceTried {jobId : JsString} {round : Nat} {entry event : JsValue} {emission : Emission}
    (written : evidenceEvent jobId round entry = some event) (reported : emission.reported = some round) : Tried emission event := by
  unfold evidenceEvent at written
  split at written
  · obtain rfl := Option.some.inj written
    exact triedRound (by simp [List.lookup_cons]) reported (by simp)
  · contradiction

theorem evidenceAttempts (event : DetailedProgress) {round : Nat} {emission : Emission} (reported : emission.reported = some round)
    (journal : AgentEventJournal) : Attempted emission journal (emitEvidenceAdmitted event round journal) := by
  refine ⟨_,rfl,fun written member => ?_⟩
  obtain ⟨entry,_,there⟩ := List.mem_filterMap.mp member
  exact evidenceTried there reported

theorem drainedAttempts {emission : Emission} {round : Nat} (reported : emission.reported = some round) (jobQuery : JsString)
    (searches fetches : Option Nat) (searchLog : List SearchLogEntry) (fetchLog : List FetchLogEntry) (journal : AgentEventJournal) :
    Attempted emission journal (drainFetches round fetches fetchLog (drainSearches jobQuery round searches searchLog journal)) := by
  have first : Attempted emission journal (drainSearches jobQuery round searches searchLog journal) := by
    unfold drainSearches
    cases searches with
    | none => exact attemptedNone emission journal
    | some searches =>
      refine drainAttempts (fun k event written => ?_) _ _ journal
      obtain rfl := Option.some.inj written
      cases searchLog[k]? with
      | none => exact triedRound (by simp) reported (by simp)
      | some logged => exact triedRound (by simp) reported (by simp)
  refine attemptedThen first ?_
  unfold drainFetches
  cases fetches with
  | none => exact attemptedNone emission _
  | some fetches =>
    refine drainAttempts (fun k event written => ?_) _ _ _
    obtain ⟨logged,_,rfl⟩ := Option.map_eq_some_iff.mp written
    exact triedRound (by simp) reported (by simp)

theorem candidatesTried {jobId : JsString} {round : Nat} {detail event : JsValue} {emission : Emission}
    (written : candidatesEvent jobId round detail = some event) (reported : emission.reported = some round) : Tried emission event := by
  unfold candidatesEvent at written
  split at written
  · obtain rfl := Option.some.inj written
    exact triedRound (by simp) reported (by simp)
  · contradiction

theorem progressAttempts (jobQuery : JsString) (event : DetailedProgress) (searchLog : List SearchLogEntry) (fetchLog : List FetchLogEntry)
    (journal : AgentEventJournal) : Attempted (.progress jobQuery event searchLog fetchLog) journal
      (emitProgressJournal jobQuery event searchLog fetchLog journal) := by
  have drained (reported : (Emission.progress jobQuery event searchLog fetchLog).reported = some ((asCount event.round).getD 0)) :=
    drainedAttempts reported jobQuery (asCount event.searchesUsed) (asCount event.fetchesUsed) searchLog fetchLog journal
  unfold emitProgressJournal
  cases stage : event.stage with
  | none => exact attemptedNone _ journal
  | some which =>
    have reported (later : which ≠ .plan) : (Emission.progress jobQuery event searchLog fetchLog).reported =
        some ((asCount event.round).getD 0) := by simp [Emission.reported,stage,later]
    cases which with
    | plan =>
      dsimp only
      split
      · exact attemptedNone _ journal
      · exact attemptedOne (triedPlain _ _ (by simp [roundTypes]) (by simp)) journal
    | gather =>
      have told_ := reported (by simp)
      have admitted := attemptedThen (drained told_) (evidenceAttempts event told_ _)
      dsimp only
      cases written : candidatesEvent journal.jobId ((asCount event.round).getD 0) event.detail with
      | none => exact admitted
      | some candidates => exact attemptedThen admitted (attemptedOne (candidatesTried written told_) _)
    | evaluate =>
      have told_ := reported (by simp)
      exact attemptedThen (attemptedThen (drained told_) (attemptedOne (triedRound (by simp) told_ (by simp)) _))
        (evidenceAttempts event told_ _)
    | synthesize => exact drained (reported (by simp))
    | verify => exact drained (reported (by simp))
    | done => exact drained (reported (by simp))
    | failed => exact drained (reported (by simp))

theorem emitAttempts (emission : Emission) (journal : AgentEventJournal) : Attempted emission journal (emit journal emission) := by
  cases emission with
  | progress jobQuery event searchLog fetchLog => exact progressAttempts jobQuery event searchLog fetchLog journal
  | result result =>
    have synthesized : Attempted (.result result) journal (emitSynthesis result journal) := by
      unfold emitSynthesis
      split
      · exact attemptedOne (triedPlain _ _ (by simp [roundTypes]) (by simp)) journal
      · exact attemptedNone _ journal
    refine attemptedThen synthesized ?_
    change Attempted _ _ (emitVerification result (emitSynthesis result journal))
    unfold emitVerification
    split
    · exact attemptedNone _ _
    · split
      · exact attemptedNone _ _
      · exact attemptedOne (triedPlain _ _ (by simp [roundTypes]) (by simp)) _
  | ready bytes warnings => exact attemptedOne (triedPlain _ _ (by simp [roundTypes]) (by simp [Emission.isReady])) journal

/- What is stored after an emission: what was there, and some of what it tried. -/
theorem emitStores (emission : Emission) (journal : AgentEventJournal) :
    (emit journal emission).jobId = journal.jobId ∧
      ∃ more, (emit journal emission).events = journal.events ++ more ∧ ∀ event ∈ more, Tried emission event := by
  obtain ⟨attempts,same,tried⟩ := emitAttempts emission journal
  obtain ⟨job,accepted,within,events⟩ := journal.attemptsKept attempts
  rw [same]
  exact ⟨job,accepted,events,fun event member => tried event (within.mem member)⟩

theorem runStores (emissions : List Emission) (journal : AgentEventJournal) :
    (emissions.foldl emit journal).jobId = journal.jobId ∧
      ∃ more, (emissions.foldl emit journal).events = journal.events ++ more ∧
        ∀ event ∈ more, ∃ emission ∈ emissions, Tried emission event := by
  induction emissions generalizing journal with
  | nil => exact ⟨rfl,[],by simp,by simp⟩
  | cons emission rest ih =>
    obtain ⟨job,more,events,tried⟩ := emitStores emission journal
    obtain ⟨owner,later,after,others⟩ := ih (emit journal emission)
    refine ⟨owner.trans job,more ++ later,?_,fun event member => ?_⟩
    · rw [List.foldl_cons,after,events,List.append_assoc]
    · rcases List.mem_append.mp member with inside | behind
      · exact ⟨emission,List.mem_cons_self,tried event inside⟩
      · obtain ⟨other,there,fits⟩ := others event behind
        exact ⟨other,List.mem_cons_of_mem _ there,fits⟩

theorem roundsRise (emissions : List Emission) {journal : AgentEventJournal}
    (sorted : (journal.events.filterMap roundOf).Pairwise (· ≤ ·)) (rising : (emissions.filterMap Emission.reported).Pairwise (· ≤ ·))
    (below : ∀ round ∈ journal.events.filterMap roundOf, ∀ next ∈ emissions.filterMap Emission.reported, round ≤ next) :
    ((emissions.foldl emit journal).events.filterMap roundOf).Pairwise (· ≤ ·) := by
  induction emissions generalizing journal with
  | nil => exact sorted
  | cons emission rest ih =>
    obtain ⟨_,more,events,tried⟩ := emitStores emission journal
    have each : ∀ round ∈ more.filterMap roundOf, emission.reported = some round := by
      intro round member
      obtain ⟨event,inside,there⟩ := List.mem_filterMap.mp member
      exact (tried event inside).round round there
    have now : ∀ round ∈ more.filterMap roundOf, round ∈ (emission :: rest).filterMap Emission.reported := fun round member =>
      List.mem_filterMap.mpr ⟨emission,List.mem_cons_self,each round member⟩
    have later : ∀ next ∈ rest.filterMap Emission.reported, next ∈ (emission :: rest).filterMap Emission.reported := by
      intro next member
      obtain ⟨other,inside,there⟩ := List.mem_filterMap.mp member
      exact List.mem_filterMap.mpr ⟨other,List.mem_cons_of_mem _ inside,there⟩
    rw [List.foldl_cons]
    rw [filterMapCons] at rising
    obtain ⟨_,restRising,across⟩ := List.pairwise_append.mp rising
    refine ih ?_ restRising ?_
    · rw [events,List.filterMap_append]
      refine List.pairwise_append.mpr ⟨sorted,?_,fun round member next inside => below round member next (now next inside)⟩
      refine List.pairwise_iff_forall_sublist.mpr fun {a b} within => ?_
      have one := each a (within.mem List.mem_cons_self)
      have two := each b (within.mem (List.mem_cons_of_mem _ List.mem_cons_self))
      exact Nat.le_of_eq (Option.some.inj (one.symm.trans two))
    · intro round member next inside
      rw [events,List.filterMap_append,List.mem_append] at member
      rcases member with old | new
      · exact below round old next (later next inside)
      · exact across round (by simp [each round new]) next inside

theorem readyLast (emissions : List Emission) {journal : AgentEventJournal} (unready : ∀ event ∈ journal.events, eventType event ≠ some .jobReady)
    (closing : ∀ emission ∈ emissions.dropLast, emission.isReady = false) :
    ∀ event ∈ (emissions.foldl emit journal).events.dropLast, eventType event ≠ some .jobReady := by
  rcases List.eq_nil_or_concat' emissions with rfl | ⟨before,last,rfl⟩
  · exact fun event member => unready event (List.dropLast_subset _ member)
  · rw [List.dropLast_concat] at closing
    have early : ∀ event ∈ (before.foldl emit journal).events, eventType event ≠ some .jobReady := by
      obtain ⟨_,more,events,tried⟩ := runStores before journal
      rw [events]
      intro event member
      rcases List.mem_append.mp member with old | new
      · exact unready event old
      · intro ready
        obtain ⟨emission,inside,fits⟩ := tried event new
        have closes := fits.ready ready
        rw [closing emission inside] at closes
        contradiction
    rw [List.foldl_append]
    change ∀ event ∈ (emit (before.foldl emit journal) last).events.dropLast, _
    cases closes : last.isReady with
    | false =>
      obtain ⟨_,more,events,tried⟩ := emitStores last (before.foldl emit journal)
      intro event member
      rw [events] at member
      rcases List.mem_append.mp (List.dropLast_subset _ member) with old | new
      · exact early event old
      · exact fun ready => absurd ((tried event new).ready ready) (by simp [closes])
    | true =>
      cases last with
      | ready bytes warnings =>
        rcases (before.foldl emit journal).appendedCases (readyEvent (before.foldl emit journal).jobId bytes warnings) with same | ⟨_,more⟩
        · rw [emit,same]
          exact fun event member => early event (List.dropLast_subset _ member)
        · rw [emit,more,List.dropLast_concat]
          exact early
      | progress => simp [Emission.isReady] at closes
      | result => simp [Emission.isReady] at closes

/- A job that was created, reports rounds that never fall and is ready at its end at most has a journal that can be replayed. -/
theorem emittedReplays (jobId query : JsString) (createdAtMs : Nat) (emissions : List Emission) {journal opened : AgentEventJournal}
    (created : createAgentEventJournal jobId = .ok journal)
    (accepted : journal.append (createdEvent jobId query createdAtMs) = .ok opened)
    (rising : (emissions.filterMap Emission.reported).Pairwise (· ≤ ·))
    (closing : ∀ emission ∈ emissions.dropLast, emission.isReady = false) :
    replayable jobId jobId (emissions.foldl emit opened).events = true := by
  obtain ⟨rfl,empty⟩ := createdEmpty created
  have appends : journal.appended (createdEvent journal.jobId query createdAtMs) = opened := by
    simp [appended,accepted,Except.toOption]
  obtain ⟨owner,first⟩ := appendedOk accepted
  rw [empty,List.nil_append] at first
  have once := runOnce emissions (appends ▸ createdOnce empty query createdAtMs)
  obtain ⟨job,more,events,_⟩ := runStores emissions opened
  have whole : (emissions.foldl emit opened).events = createdEvent journal.jobId query createdAtMs :: more := by
    rw [events,first,List.singleton_append]
  have typed : eventType (createdEvent journal.jobId query createdAtMs) = some .jobCreated := rfl
  refine replayedWhole journal.shaped ⟨?_,⟨_,more,whole,typed,?_⟩,?_,?_,?_,?_⟩
  · have valid := (emissions.foldl emit opened).valid
    rwa [job,owner] at valid
  · have later := once.created
    rwa [whole] at later
  · refine readyLast emissions ?_ closing
    simp [first,typed]
  · refine roundsRise emissions ?_ rising ?_ <;> simp [first,roundOf,told,typed,roundTypes]
  · exact (once.counters (.searchCompleted,"searchesUsed") (by simp [counters])).imp Nat.le_of_lt
  · exact (once.counters (.fetchCompleted,"fetchesUsed") (by simp [counters])).imp Nat.le_of_lt

def createdSorted : List (JsString × JsValue) :=
  [(js "createdAtMs",counted 0),(js "jobId",.string (js "a")),(js "query",.string (js "q")),(js "type",.string (js "JobCreated"))]

theorem createdCanonical : canonicalize (createdEvent (js "a") (js "q") 0) = .object createdSorted := by
  have written : createdEvent (js "a") (js "q") 0 = .object [(js "type",.string (js "JobCreated")),(js "jobId",.string (js "a")),
      (js "query",.string (js "q")),(js "createdAtMs",counted 0)] := rfl
  have listed : assigned createdSorted = createdSorted := rfl
  have order : (canonicalizeFields [(js "type",.string (js "JobCreated")),(js "jobId",.string (js "a")),(js "query",.string (js "q")),
      (js "createdAtMs",counted 0)]).mergeSort keyOrder = createdSorted := by
    simp only [canonicalizeFields,canonicalize,counted]
    refine keySorted ?_ (by decide)
    exact (List.reverse_perm _).symm.trans (.cons _ (.swap ..))
  rw [written,canonicalize,order,listed]

theorem bareOpened : ∃ opened, bareJournal.append (createdEvent (js "a") (js "q") 0) = .ok opened := by
  have valid : validateAgentResearchEvent (createdEvent (js "a") (js "q") 0) = none := by decide
  have owned : jobIdOf (createdEvent (js "a") (js "q") 0) = some (js "a") := by decide
  have fits : byteLength (serializeJournal (js "a") ([] ++ [createdEvent (js "a") (js "q") 0])) ≤ maxJournalBytes := by
    rw [serializeJournal,canonicalJson,journalCanonical,storedJournal,List.nil_append,List.map_singleton,createdCanonical]
    decide
  exact ⟨_,(dif_pos valid).trans ((dif_pos owned).trans (dif_pos fits))⟩

theorem reportReplayed : ∃ opened, bareJournal.append (createdEvent (js "a") (js "q") 0) = .ok opened ∧
    replayable (js "a") (js "a") ([searchReport 1 2,.ready 7 0].foldl emit opened).events = true := by
  obtain ⟨opened,accepted⟩ := bareOpened
  have reported : [searchReport 1 2,.ready 7 0].filterMap Emission.reported = [1] := by
    simp [searchReport,Emission.reported,asCount]
  exact ⟨opened,accepted,emittedReplays (js "a") (js "q") 0 [searchReport 1 2,.ready 7 0] bareCreated accepted
    (reported ▸ List.pairwise_singleton ..) (by simp [searchReport,Emission.isReady])⟩

end Northstar.Agent
