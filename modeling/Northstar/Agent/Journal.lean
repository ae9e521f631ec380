import Mathlib
import Northstar.Agent.Events

/-! What a journal shows: a replay of it in closed form, over every run of appends, and of a journal that can be
replayed from each of its beginnings. -/
namespace Northstar.Agent

def evidenceIn (event : JsValue) : Option JsString :=
  if eventType event = some .evidenceAdmitted then some (textIn event "evidenceId") else none

def questionsIn (event : JsValue) : List JsString :=
  if eventType event = some .planAccepted ∨ eventType event = some .evidenceAdmitted then questionsOf event else []

/- The rounds a replay counts: accumulated candidates move none. -/
def projectedTypes : List AgentEventType := [.searchCompleted,.fetchCompleted,.evidenceAdmitted,.evaluationAccepted,.roundClosed]

/- What a replay comes to, field by field. -/
def projected (events : List JsValue) : ProjectedAgentState where
  rounds := (events.filterMap (told projectedTypes "round")).foldl max 0
  searchesUsed := (events.filterMap (told [.searchCompleted] "searchesUsed")).foldl max 0
  fetchesUsed := (events.filterMap (told [.fetchCompleted] "fetchesUsed")).foldl max 0
  evidenceIds := (events.filterMap evidenceIn).eraseDups
  questionIds := (events.flatMap questionsIn).eraseDups
  answered := (events.filterMap (told [.evaluationAccepted] "answeredCount")).getLast?.getD 0
  grounded := (events.filterMap (told [.verificationCompleted] "supportedCount")).getLast?.getD 0

theorem pushOnce (ids : List JsString) (id : JsString) : pushId ids.eraseDups id = (ids ++ [id]).eraseDups := by
  by_cases there : id ∈ ids
  · simp [pushId,List.eraseDups_append,List.removeAll,there]
  · simp [pushId,List.eraseDups_append,List.removeAll,there,List.eraseDups_cons]

theorem pushAll (ids more : List JsString) : more.foldl pushId ids.eraseDups = (ids ++ more).eraseDups := by
  induction more generalizing ids with
  | nil => simp
  | cons id rest ih =>
    rw [List.foldl_cons,pushOnce,ih,List.append_assoc,List.singleton_append]

theorem projectedLast (events : List JsValue) (event : JsValue) :
    projected (events ++ [event]) = projectEvent (projected events) event := by
  have ids := pushAll (events.flatMap questionsIn) (questionsOf event)
  have id := pushOnce (events.filterMap evidenceIn) (textIn event "evidenceId")
  cases type : eventType event with
  | none => simp [projected,projectEvent,told,evidenceIn,questionsIn,type]
  | some which => cases which <;>
      simp [projected,projectEvent,told,evidenceIn,questionsIn,projectedTypes,type,List.filterMap_append,List.flatMap_append,ids,id]

theorem projectMore (state : ProjectedAgentState) (events : List JsValue) (valid : ∀ event ∈ events, validateAgentResearchEvent event = none) :
    projectFrom state events = .ok (events.foldl projectEvent state) := by
  induction events generalizing state with
  | nil => rfl
  | cons event rest ih =>
    rw [projectFrom,valid event List.mem_cons_self]
    exact ih _ fun other member => valid other (List.mem_cons_of_mem _ member)

theorem projectedFold (events : List JsValue) : events.foldl projectEvent ⟨0,0,0,[],[],0,0⟩ = projected events := by
  induction events using List.reverseRecOn with
  | nil => rfl
  | append_singleton events event ih => rw [List.foldl_append,ih,projectedLast]; rfl

theorem projectValid {events : List JsValue} (valid : ∀ event ∈ events, validateAgentResearchEvent event = none) :
    projectAgentState events = .ok (projected events) := by
  rw [projectAgentState,projectMore _ _ valid,projectedFold]

/- One event that is not valid refuses the whole replay. -/
theorem projectRefused {events : List JsValue} {event : JsValue} (member : event ∈ events) (broken : validateAgentResearchEvent event ≠ none) :
    projectAgentState events = .error (js "unknown event type") := by
  unfold projectAgentState
  generalize (⟨0,0,0,[],[],0,0⟩ : ProjectedAgentState) = state
  induction events generalizing state with
  | nil => simp at member
  | cons first rest ih =>
    rw [projectFrom]
    split
    · rfl
    · rename_i accepted
      rcases List.mem_cons.mp member with rfl | later
      · simp [Option.isSome_iff_ne_none,broken] at accepted
      · exact ih later _

/- A replay comes to a state where every event is valid, and then to what the events say, field by field; never to part of it. -/
theorem projectionExactly (events : List JsValue) (state : ProjectedAgentState) : projectAgentState events = .ok state ↔
    (∀ event ∈ events, validateAgentResearchEvent event = none) ∧ state = projected events := by
  constructor
  · intro ok
    have valid : ∀ event ∈ events, validateAgentResearchEvent event = none := by
      intro event member
      by_contra broken
      rw [projectRefused member broken] at ok
      contradiction
    rw [projectValid valid] at ok
    exact ⟨valid,(Except.ok.inj ok).symm⟩
  · rintro ⟨valid,rfl⟩
    exact projectValid valid

/- A replay of more events shows no less. -/
structure ProjectedAgentState.Below (a b : ProjectedAgentState) : Prop where
  rounds : a.rounds ≤ b.rounds
  searchesUsed : a.searchesUsed ≤ b.searchesUsed
  fetchesUsed : a.fetchesUsed ≤ b.fetchesUsed
  evidenceIds : a.evidenceIds <+: b.evidenceIds
  questionIds : a.questionIds <+: b.questionIds

theorem maxRises (start : Nat) (counts : List Nat) : start ≤ counts.foldl max start := by
  induction counts generalizing start with
  | nil => exact Nat.le_refl start
  | cons count rest ih => exact (Nat.le_max_left start count).trans (ih _)

theorem maxMore (counts more : List Nat) : counts.foldl max 0 ≤ (counts ++ more).foldl max 0 := by
  rw [List.foldl_append]
  exact maxRises _ more

theorem onceMore (ids more : List JsString) : ids.eraseDups <+: (ids ++ more).eraseDups := by
  rw [List.eraseDups_append]
  exact List.prefix_append _ _

theorem projectedBelow (events more : List JsValue) : (projected events).Below (projected (events ++ more)) := by
  constructor
  · simpa [projected] using maxMore _ _
  · simpa [projected] using maxMore _ _
  · simpa [projected] using maxMore _ _
  · simpa [projected] using onceMore _ _
  · simpa [projected] using onceMore _ _

namespace AgentEventJournal

theorem appendedCases (journal : AgentEventJournal) (event : JsValue) : journal.appended event = journal ∨
    ((journal.appended event).jobId = journal.jobId ∧ (journal.appended event).events = journal.events ++ [event]) := by
  unfold appended append
  split
  · split
    · split
      · exact .inr ⟨rfl,rfl⟩
      · exact .inl rfl
    · exact .inl rfl
  · exact .inl rfl

theorem attemptsKept (journal : AgentEventJournal) (attempts : List JsValue) :
    (attempts.foldl appended journal).jobId = journal.jobId ∧
      ∃ accepted, accepted.Sublist attempts ∧ (attempts.foldl appended journal).events = journal.events ++ accepted := by
  induction attempts generalizing journal with
  | nil => exact ⟨rfl,[],.refl _,by simp⟩
  | cons event rest ih =>
    obtain ⟨job,accepted,within,events⟩ := ih (journal.appended event)
    rw [List.foldl_cons]
    rcases journal.appendedCases event with same | ⟨owner,more⟩
    · rw [same] at job events ⊢
      exact ⟨job,accepted,within.cons event,events⟩
    · refine ⟨job.trans owner,event :: accepted,within.cons_cons event,?_⟩
      rw [events,more,List.append_assoc,List.singleton_append]

end AgentEventJournal

/- However often and with whatever an append is tried, what is stored can be replayed, and shows what was there before. -/
theorem attemptsReplay (journal : AgentEventJournal) (attempts : List JsValue) :
    let after := attempts.foldl AgentEventJournal.appended journal
    (∃ accepted, accepted.Sublist attempts ∧ after.events = journal.events ++ accepted) ∧
      (∀ event ∈ after.events, jobIdOf event = some journal.jobId) ∧
      (after.events = [] ∨ byteLength (serializeJournal journal.jobId after.events) ≤ maxJournalBytes) ∧
      projectAgentState after.events = .ok (projected after.events) ∧
      (projected journal.events).Below (projected after.events) := by
  intro after
  obtain ⟨job,accepted,within,events⟩ := journal.attemptsKept attempts
  have valid := after.valid
  have bounded := after.bounded
  change after.jobId = journal.jobId at job
  change after.events = journal.events ++ accepted at events
  rw [job] at valid bounded
  refine ⟨⟨accepted,within,events⟩,fun event member => (valid event member).2,bounded,
    projectValid fun event member => (valid event member).1,?_⟩
  rw [events]
  exact projectedBelow journal.events accepted

/- The loop of a replay against what is said of its events one by one. -/
theorem risenCons (last : Nat) (next : Option Nat) (rest : List Nat) :
    (last :: (next.toList ++ rest)).Pairwise (· ≤ ·) ↔ risen last next = true ∧ (next.getD last :: rest).Pairwise (· ≤ ·) := by
  cases next with
  | none => simp [risen]
  | some value =>
    simp only [Option.toList_some,List.singleton_append,risen,Option.all_some,decide_eq_true_eq,Option.getD_some]
    constructor
    · intro sorted
      obtain ⟨first,later⟩ := List.pairwise_cons.mp sorted
      exact ⟨first value List.mem_cons_self,later⟩
    · intro ⟨first,later⟩
      refine List.pairwise_cons.mpr ⟨fun other member => ?_,later⟩
      rcases List.mem_cons.mp member with rfl | inside
      · exact first
      · exact first.trans ((List.pairwise_cons.mp later).1 other inside)

theorem filterMapCons {α β : Type} (f : α → Option β) (a : α) (rest : List α) :
    (a :: rest).filterMap f = (f a).toList ++ rest.filterMap f := by
  cases h : f a with
  | none => simp [h]
  | some b => simp [h]

/- What one turn of the loop asks of its event. -/
structure Turn (jobId : JsString) (first last : Bool) (seen : Replayed) (raw : JsValue) : Prop where
  valid : validateAgentResearchEvent raw = none ∧ jobIdOf raw = some jobId
  opening : first = true ↔ eventType raw = some .jobCreated
  ready : eventType raw = some .jobReady → last = true
  rounds : risen seen.round (roundOf raw) = true
  searches : risen seen.searches (told [.searchCompleted] "searchesUsed" raw) = true
  fetches : risen seen.fetches (told [.fetchCompleted] "fetchesUsed" raw) = true

def Replayed.next (seen : Replayed) (raw : JsValue) : Replayed :=
  ⟨(roundOf raw).getD seen.round,(told [.searchCompleted] "searchesUsed" raw).getD seen.searches,
    (told [.fetchCompleted] "fetchesUsed" raw).getD seen.fetches⟩

theorem replayTurn (jobId : JsString) (first last : Bool) (seen : Replayed) (raw : JsValue) (after : Replayed) :
    replayEvent jobId first last seen raw = some after ↔ Turn jobId first last seen raw ∧ seen.next raw = after := by
  constructor
  · intro taken
    simp only [replayEvent,Option.ite_none_left_eq_some,Option.ite_none_right_eq_some,Bool.or_eq_true,not_or,Bool.and_eq_true,
      decide_eq_true_eq,not_and,Option.some.injEq,Bool.not_eq_true,not_not,Bool.not_eq_true',Bool.not_eq_false,
      Option.isSome_eq_false_iff,Option.isNone_iff_eq_none] at taken
    obtain ⟨valid,opened,ready,opens,⟨⟨rounds,searches⟩,fetches⟩,same⟩ := taken
    exact ⟨⟨valid,⟨opened,opens⟩,ready,rounds,searches,fetches⟩,same⟩
  · rintro ⟨turn,rfl⟩
    obtain ⟨valid,opening,ready,rounds,searches,fetches⟩ := turn
    cases first <;> simp_all [replayEvent,Replayed.next]

structure Goes (jobId : JsString) (first : Bool) (seen : Replayed) (events : List JsValue) : Prop where
  valid : ∀ event ∈ events, validateAgentResearchEvent event = none ∧ jobIdOf event = some jobId
  opening : ∀ event ∈ events.head?, first = true ↔ eventType event = some .jobCreated
  later : ∀ event ∈ events.tail, eventType event ≠ some .jobCreated
  ready : ∀ event ∈ events.dropLast, eventType event ≠ some .jobReady
  rounds : (seen.round :: events.filterMap roundOf).Pairwise (· ≤ ·)
  searches : (seen.searches :: events.filterMap (told [.searchCompleted] "searchesUsed")).Pairwise (· ≤ ·)
  fetches : (seen.fetches :: events.filterMap (told [.fetchCompleted] "fetchesUsed")).Pairwise (· ≤ ·)

theorem goesCons (jobId : JsString) (first : Bool) (seen : Replayed) (raw : JsValue) (rest : List JsValue) :
    Goes jobId first seen (raw :: rest) ↔ Turn jobId first rest.isEmpty seen raw ∧ Goes jobId false (seen.next raw) rest := by
  constructor
  · rintro ⟨valid,opening,later,ready,rounds,searches,fetches⟩
    rw [filterMapCons,risenCons] at rounds searches fetches
    refine ⟨⟨valid raw List.mem_cons_self,opening raw rfl,fun last => ?_,rounds.1,searches.1,fetches.1⟩,
      ⟨fun event member => valid event (List.mem_cons_of_mem _ member),fun event head => ?_,fun event member => ?_,
        fun event member => ?_,rounds.2,searches.2,fetches.2⟩⟩
    · cases rest with
      | nil => rfl
      | cons next more => exact absurd last (ready raw List.mem_cons_self)
    · simpa using later event (List.mem_of_mem_head? head)
    · exact later event (List.mem_of_mem_tail member)
    · cases rest with
      | nil => simp at member
      | cons next more => exact ready event (List.mem_cons_of_mem _ member)
  · rintro ⟨turn,⟨valid,opening,later,ready,rounds,searches,fetches⟩⟩
    refine ⟨fun event member => ?_,fun event head => ?_,fun event member => ?_,fun event member => ?_,?_,?_,?_⟩
    · rcases List.mem_cons.mp member with rfl | inside
      · exact turn.valid
      · exact valid event inside
    · obtain rfl := Option.some.inj head
      exact turn.opening
    · cases rest with
      | nil => simp at member
      | cons next more =>
        rcases List.mem_cons.mp member with rfl | inside
        · simpa using opening event rfl
        · exact later event inside
    · cases rest with
      | nil => simp at member
      | cons next more =>
        rcases List.mem_cons.mp member with rfl | inside
        · exact fun last => absurd (turn.ready last) (by simp)
        · exact ready event inside
    · rw [filterMapCons,risenCons]
      exact ⟨turn.rounds,rounds⟩
    · rw [filterMapCons,risenCons]
      exact ⟨turn.searches,searches⟩
    · rw [filterMapCons,risenCons]
      exact ⟨turn.fetches,fetches⟩

theorem replayGoes (jobId : JsString) (first : Bool) (seen : Replayed) (events : List JsValue) :
    replayFrom jobId first seen events = true ↔ Goes jobId first seen events := by
  induction events generalizing first seen with
  | nil => exact ⟨fun _ => by constructor <;> simp,fun _ => rfl⟩
  | cons raw rest ih =>
    rw [replayFrom,goesCons]
    cases taken : replayEvent jobId first rest.isEmpty seen raw with
    | none =>
      refine ⟨fun never => by simp at never,fun both => ?_⟩
      rw [(replayTurn ..).mpr ⟨both.1,rfl⟩] at taken
      contradiction
    | some after =>
      obtain ⟨turn,rfl⟩ := (replayTurn ..).mp taken
      exact (ih false _).trans ⟨fun rest_ => ⟨turn,rest_⟩,fun both => both.2⟩

theorem zeroFirst (counts : List Nat) : (0 :: counts).Pairwise (· ≤ ·) ↔ counts.Pairwise (· ≤ ·) := by
  simp [List.pairwise_cons]

theorem replayedSound {jobId journalId : JsString} {events : List JsValue} (replays : replayable jobId journalId events = true) :
    AgentJobs.jobIdShape jobId = true ∧ journalId = jobId ∧ Replays jobId events := by
  simp only [replayable,Bool.and_eq_true,decide_eq_true_eq,replayGoes,and_assoc] at replays
  obtain ⟨shaped,same,some_,goes⟩ := replays
  cases events with
  | nil => simp at some_
  | cons first rest =>
    exact ⟨shaped,same,⟨goes.valid,⟨first,rest,rfl,(goes.opening first rfl).mp rfl,goes.later⟩,goes.ready,
      (zeroFirst _).mp goes.rounds,(zeroFirst _).mp goes.searches,(zeroFirst _).mp goes.fetches⟩⟩

theorem replayedWhole {jobId : JsString} {events : List JsValue} (shaped : AgentJobs.jobIdShape jobId = true)
    (replays : Replays jobId events) : replayable jobId jobId events = true := by
  obtain ⟨first,rest,rfl,created,later⟩ := replays.opened
  simp only [replayable,Bool.and_eq_true,decide_eq_true_eq,replayGoes]
  refine ⟨⟨⟨shaped,trivial⟩,rfl⟩,⟨replays.valid,fun event head => ?_,later,replays.ready,(zeroFirst _).mpr replays.rounds,
    (zeroFirst _).mpr replays.searches,(zeroFirst _).mpr replays.fetches⟩⟩
  obtain rfl := Option.some.inj head
  exact ⟨fun _ => created,fun _ => rfl⟩

/- A journal is replayed to its end where its events are valid and of its job, its creation is first and once, it is ready
at its end at most, and no round and no counter falls. -/
theorem replayableExactly (jobId journalId : JsString) (events : List JsValue) :
    replayable jobId journalId events = true ↔ AgentJobs.jobIdShape jobId = true ∧ journalId = jobId ∧ Replays jobId events := by
  constructor
  · exact replayedSound
  · rintro ⟨shaped,rfl,replays⟩
    exact replayedWhole shaped replays

def lastTold (types : List AgentEventType) (field : String) (events : List JsValue) : Nat :=
  (events.filterMap (told types field)).getLast?.getD 0

theorem maxLast {counts : List Nat} (sorted : counts.Pairwise (· ≤ ·)) : counts.foldl max 0 = counts.getLast?.getD 0 := by
  induction counts using List.reverseRecOn with
  | nil => rfl
  | append_singleton counts count ih =>
    obtain ⟨before,_,below⟩ := List.pairwise_append.mp sorted
    rw [List.foldl_append,ih before,List.getLast?_concat]
    change max _ count = count
    refine Nat.max_eq_right ?_
    cases last : counts.getLast? with
    | none => exact Nat.zero_le _
    | some value => exact below value (List.mem_of_getLast? last) count List.mem_cons_self

theorem toldRound {event : JsValue} {value : Nat} (there : told projectedTypes "round" event = some value) : roundOf event = some value := by
  unfold roundOf told at *
  cases type : eventType event with
  | none => simp [type] at there
  | some which => cases which <;> simp_all [projectedTypes,roundTypes]

theorem Replays.projectedRounds {jobId : JsString} {events : List JsValue} (replays : Replays jobId events) :
    (events.filterMap (told projectedTypes "round")).Pairwise (· ≤ ·) := by
  have sorted := replays.rounds
  rw [List.pairwise_filterMap] at sorted ⊢
  exact sorted.imp fun below a one b two => below a (toldRound one) b (toldRound two)

theorem Replays.begun {jobId : JsString} {events : List JsValue} (replays : Replays jobId events) {n : Nat} (some_ : 0 < n) :
    Replays jobId (events.take n) := by
  have within : (events.take n).Sublist events := List.take_sublist n events
  obtain ⟨first,rest,rfl,created,later⟩ := replays.opened
  obtain ⟨n,rfl⟩ : ∃ m, n = m + 1 := ⟨n - 1,by omega⟩
  constructor
  · exact fun event member => replays.valid event (within.mem member)
  · exact ⟨first,rest.take n,List.take_succ_cons,created,fun event member => later event (List.mem_of_mem_take member)⟩
  · intro event member
    rw [List.dropLast_take_eq_take_dropLast] at member
    exact replays.ready event (List.mem_of_mem_take member)
  · exact replays.rounds.sublist (within.filterMap _)
  · exact replays.searches.sublist (within.filterMap _)
  · exact replays.fetches.sublist (within.filterMap _)

/- A journal that can be replayed can be from each of its beginnings, and a replay shows the last round and counters written. -/
theorem replayedBeginnings (jobId journalId : JsString) (events : List JsValue) (replays : replayable jobId journalId events = true)
    (n : Nat) (some_ : 0 < n) :
    replayable jobId journalId (events.take n) = true ∧
      ∃ state, projectAgentState (events.take n) = .ok state ∧ state.Below (projected events) ∧
        state.rounds = lastTold projectedTypes "round" (events.take n) ∧
        state.searchesUsed = lastTold [.searchCompleted] "searchesUsed" (events.take n) ∧
        state.fetchesUsed = lastTold [.fetchCompleted] "fetchesUsed" (events.take n) := by
  obtain ⟨shaped,rfl,sound⟩ := replayedSound replays
  have begun := sound.begun some_
  refine ⟨replayedWhole shaped begun,projected (events.take n),
    projectValid fun event member => (begun.valid event member).1,?_,maxLast begun.projectedRounds,maxLast begun.searches,
    maxLast begun.fetches⟩
  have whole := projectedBelow (events.take n) (events.drop n)
  rwa [List.take_append_drop] at whole

def shortJournal : List JsValue :=
  [eventValue .jobCreated (js "a") [("query",.string (js "q")),("createdAtMs",.number (.int 0))],
    eventValue .searchCompleted (js "a") [("round",.number (.int 1)),("query",.string (js "q")),("hitCount",.number (.int 3)),
      ("searchesUsed",.number (.int 1))],
    eventValue .jobReady (js "a") [("resultByteLength",.number (.int 2)),("warningCount",.number (.int 0))]]

theorem shortBegun : replayable (js "a") (js "a") (shortJournal.take 2) = true ∧
    ∃ state, projectAgentState (shortJournal.take 2) = .ok state ∧ state.Below (projected shortJournal) ∧
      state.rounds = lastTold projectedTypes "round" (shortJournal.take 2) ∧
      state.searchesUsed = lastTold [.searchCompleted] "searchesUsed" (shortJournal.take 2) ∧
      state.fetchesUsed = lastTold [.fetchCompleted] "fetchesUsed" (shortJournal.take 2) :=
  replayedBeginnings (js "a") (js "a") shortJournal (by decide) 2 (by decide)

end Northstar.Agent
