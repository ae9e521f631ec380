import Northstar.Recency
import Northstar.Search.Attribution

/-! What the search ledger remembers of one key: a reference automaton for the key alone, and
the ledger's run as it looks from there. An outcome is let go of at the first begin past its
window, or when the ledger evicts it. -/
namespace Northstar.Search

structure Asked where
  normalized : List JsString
  optionsKey : JsString
  deriving DecidableEq, Repr

inductive KeyOutcome where
  | succeeded (at' : Int) (asked : Asked)
  | failed (at' : Int) (failures : Nat) (retryable : Bool)
  deriving DecidableEq, Repr

/- Whether the key is of one query or of a batch is kept from its first outcome. -/
structure KeyRecord where
  single : Bool
  outcome : KeyOutcome
  deriving DecidableEq, Repr

structure KeyState where
  record : Option KeyRecord := none
  flying : Option Asked := none
  deriving DecidableEq, Repr

inductive Decision where
  | run | coalesced | suppressed | blocked
  deriving DecidableEq, Repr

def Asked.single (asked : Asked) : Bool := asked.normalized.length == 1

/- A success holds for the success window, a failure for the block window. -/
def KeyOutcome.live (now : Int) : KeyOutcome → Bool
  | .succeeded at' _ => now - at' < successSuppressMs
  | .failed at' _ _ => now - at' < failureBlockMs

/- A retryable failure leaves one retry, any other leaves none. -/
def KeyOutcome.blocks : KeyOutcome → Bool
  | .succeeded _ _ => false
  | .failed _ failures retryable => !retryable || 2 ≤ failures

def KeyRecord.repeats (asked : Asked) (r : KeyRecord) : Bool := match r.outcome with
  | .succeeded _ before => !asked.single || (r.single && before == asked)
  | .failed _ _ _ => false

namespace KeyState

def tick (now : Int) (s : KeyState) : KeyState :=
  { s with record := s.record.filter fun r => r.outcome.live now }

/- `near` is a near-duplicate's success, `full` the cap on active searches. -/
def begin (asked : Asked) (near full : Bool) (now : Int) (before : KeyState) : Decision × KeyState :=
  let s := before.tick now
  if s.record.any (·.outcome.blocks) then (.blocked,s)
  else if s.flying.isSome then (.coalesced,s)
  else if s.record.any (·.repeats asked) || near then (.suppressed,s)
  else (.run,if full then s else { s with flying := some asked })

/- A success wipes the failures before it out. -/
def failures (s : KeyState) : Nat := match s.record with
  | some ⟨_,.failed _ failures _⟩ => failures
  | _ => 0

def remember (s : KeyState) (asked : Asked) (outcome : KeyOutcome) : KeyState :=
  ⟨some ⟨(s.record.map (·.single)).getD asked.single,outcome⟩,none⟩

def settle (now : Int) (s : KeyState) (outcome : Outcome) : KeyState := match s.flying, outcome with
  | none, _ => s
  | some _, .cancelled => { s with flying := none }
  | some asked, .success _ => s.remember asked (.succeeded now asked)
  | some asked, .failure retryable _ => s.remember asked (.failed now (s.failures + 1) retryable)

def forget (s : KeyState) : KeyState := { s with record := none }

end KeyState

inductive KeyInput where
  | begin (asked : Asked) (near full : Bool) (now : Int)
  | tick (now : Int)
  | settle (now : Int) (outcome : Outcome)
  | forget

def KeyState.read (s : KeyState) : KeyInput → KeyState
  | .begin asked near full now => (s.begin asked near full now).2
  | .tick now => s.tick now
  | .settle now outcome => s.settle now outcome
  | .forget => s.forget

inductive Operation where
  | begin (queries : List JsString) (options : LedgerOptions) (now : Int) (aborted : Bool) (promise : Nat)
  | finish (key : JsString) (outcome : Outcome) (now : Int)
  | leave (promise : Nat)

def LedgerBeginResult.decision : LedgerBeginResult → Decision
  | .run _ => .run
  | .coalesced _ _ => .coalesced
  | .suppressed _ _ => .suppressed
  | .blocked => .blocked

section
variable (p : Platform) (maxEntries : Nat)

def asks (queries : List JsString) (options : LedgerOptions) : Asked :=
  ⟨queries.map (normalizeQuery p),canonicalOptions p options⟩

def Asked.key (asked : Asked) : JsString := searchKey p asked.normalized asked.optionsKey

def Asked.context (asked : Asked) : PendingContext :=
  let tokenHashes := if asked.single then hashTokenList p (asked.normalized.headD []) else []
  ⟨distinct tokenHashes,if asked.single then distinct (hashBigrams p tokenHashes) else [],asked.single,
    asked.optionsKey⟩

namespace WebSearchLedger

/- A live success this key's query or one near to it had. -/
def near (l : WebSearchLedger) (asked : Asked) (now : Int) : Bool :=
  asked.single &&
    ((l.expireLocked now).findFuzzySuccess p (asked.normalized.headD []) asked.optionsKey now).isSome

def full (l : WebSearchLedger) : Bool := maxLedgerActiveSearches ≤ l.activeLocked

/- What storing an outcome of `stored` drops from the front of the map. -/
def evicted (l : WebSearchLedger) (stored : JsString) : List JsString :=
  let kept := l.completed.map (·.hash) |>.filter (· != stored)
  (kept ++ [stored]).take (kept.length + 1 - maxEntries)

def perform (l : WebSearchLedger) : Operation → WebSearchLedger
  | .begin queries options now aborted promise => (l.begin p queries options now aborted promise).2
  | .finish key outcome now => l.finish maxEntries key now outcome
  | .leave promise => l.leave promise

/- An operation as one key sees it. -/
def inputs (l : WebSearchLedger) (key : JsString) : Operation → List KeyInput
  | .begin queries options now _ _ =>
      let asked := asks p queries options
      if asked.key p == key then [.begin asked (l.near p asked now) l.full now] else [.tick now]
  | .finish stored outcome now =>
      (if stored == key then [.settle now outcome] else []) ++
        (if outcome.recorded && (l.flight stored).isSome && (l.evicted maxEntries stored).contains key then
          [.forget] else [])
  | .leave _ => []

def trace (key : JsString) : WebSearchLedger → List Operation → List KeyInput
  | _, [] => []
  | l, op :: rest => l.inputs p maxEntries key op ++ trace key (l.perform p maxEntries op) rest

end WebSearchLedger
end

/- The map's entry for a key, against the automaton's record. -/
def Outlives (p : Platform) (e : CompletedEntry) : KeyOutcome → Prop
  | .succeeded at' asked => e.successAt = some at' ∧ e.lastFailureAt = none ∧
      e.tokens = (asked.context p).tokens ∧ e.bigrams = (asked.context p).bigrams ∧
      e.optionsKey = asked.optionsKey
  | .failed at' failures retryable => e.successAt = none ∧ e.lastFailureAt = some at' ∧
      e.failureCount = failures ∧ e.lastRetryable = some retryable

structure Remembers (p : Platform) (e : CompletedEntry) (r : KeyRecord) : Prop where
  single : e.single = r.single
  outcome : Outlives p e r.outcome

structure Follows (p : Platform) (l : WebSearchLedger) (key : JsString) (s : KeyState) : Prop where
  record : Option.Rel (Remembers p) (l.completedAt key) s.record
  context : l.pending.lookup key = s.flying.map (Asked.context p)
  flight : (l.flight key).isSome = s.flying.isSome

structure Kept (maxEntries : Nat) (l : WebSearchLedger) : Prop where
  hashes : (l.completed.map (·.hash)).Nodup
  few : l.completed.length ≤ maxEntries
  keys : (l.inFlight.map (·.key)).Nodup
  pending : l.pending.map (·.1) = l.inFlight.map (·.key)

theorem rememberedLive {p : Platform} {e : CompletedEntry} {r : KeyRecord} (h : Remembers p e r) (now : Int) :
    (e.successAt.any (fun at' => now - at' < successSuppressMs) || isBlocked e now ||
      e.lastFailureAt.any (fun at' => now - at' < failureBlockMs)) = r.outcome.live now := by
  have outcome := h.outcome
  cases kind : r.outcome with
  | succeeded at' asked =>
    rw [kind] at outcome
    obtain ⟨success,failure,_⟩ := outcome
    simp [KeyOutcome.live,isBlocked,success,failure]
  | failed at' failures retryable =>
    rw [kind] at outcome
    obtain ⟨success,failure,_,_⟩ := outcome
    simp only [KeyOutcome.live,isBlocked,success,failure,Option.any_none,Option.any_some,Bool.false_or]
    by_cases late : now - at' ≥ failureBlockMs
    · simp [late,Int.not_lt.mpr late]
    · simp [Int.not_le.mp late]

theorem rememberedBlocks {p : Platform} {e : CompletedEntry} {r : KeyRecord} (h : Remembers p e r) {now : Int}
    (live : r.outcome.live now) : isBlocked e now = r.outcome.blocks := by
  have outcome := h.outcome
  cases kind : r.outcome with
  | succeeded at' asked =>
    rw [kind] at outcome
    simp [KeyOutcome.blocks,isBlocked,outcome.2.1]
  | failed at' failures retryable =>
    rw [kind] at outcome live
    obtain ⟨_,failure,count,again⟩ := outcome
    have within : ¬now - at' ≥ failureBlockMs := Int.not_le.mpr (of_decide_eq_true live)
    cases retryable <;> simp [KeyOutcome.blocks,isBlocked,failure,count,again,within]

/- Nothing a key sees is different. -/
structure Quiet (l l' : WebSearchLedger) (key : JsString) : Prop where
  record : l'.completedAt key = l.completedAt key
  context : l'.pending.lookup key = l.pending.lookup key
  flight : (l'.flight key).isSome = (l.flight key).isSome

theorem Follows.quiet {p : Platform} {l l' : WebSearchLedger} {key : JsString} {s : KeyState}
    (h : Follows p l key s) (same : Quiet l l' key) : Follows p l' key s :=
  ⟨same.record ▸ h.record,same.context ▸ h.context,same.flight ▸ h.flight⟩

theorem expireFollows {p : Platform} {maxEntries : Nat} {l : WebSearchLedger} {key : JsString} {s : KeyState}
    (kept : Kept maxEntries l) (h : Follows p l key s) (now : Int) :
    Follows p (l.expireLocked now) key (s.tick now) := by
  refine ⟨?_,h.context,h.flight⟩
  have found := Recency.lookupFilter kept.hashes (fun entry =>
    entry.successAt.any (fun at' => now - at' < successSuppressMs) || isBlocked entry now ||
      entry.lastFailureAt.any (fun at' => now - at' < failureBlockMs)) key
  have same : (l.expireLocked now).completedAt key = (l.completedAt key).filter _ := found
  have rel := h.record
  rw [same]
  unfold KeyState.tick
  generalize l.completedAt key = found, s.record = record at rel ⊢
  cases rel with
  | none => exact .none
  | @some e r remembers =>
    simp only [Option.filter_some,rememberedLive remembers now]
    split
    · exact .some remembers
    · exact .none

theorem expireKept {maxEntries : Nat} {l : WebSearchLedger} (kept : Kept maxEntries l) (now : Int) :
    Kept maxEntries (l.expireLocked now) :=
  ⟨kept.hashes.sublist (List.filter_sublist.map _),
    Nat.le_trans (List.length_filter_le _ _) kept.few,kept.keys,kept.pending⟩

theorem touchQuiet {maxEntries : Nat} {l : WebSearchLedger} (kept : Kept maxEntries l) {entry : CompletedEntry}
    (there : entry ∈ l.completed) (key : JsString) : Quiet l (l.touch entry) key := by
  refine ⟨?_,rfl,rfl⟩
  have found : Recency.lookup CompletedEntry.hash (Recency.renew _ l.completed entry) key = _ :=
    Recency.lookupRenew l.completed entry key
  refine Eq.trans found ?_
  split
  · rename_i same
    rw [← beq_iff_eq.mp same]
    exact (Recency.lookupUnique kept.hashes there).symm
  · rfl

theorem touchKept {maxEntries : Nat} {l : WebSearchLedger} (kept : Kept maxEntries l) {entry : CompletedEntry}
    (there : entry ∈ l.completed) : Kept maxEntries (l.touch entry) := by
  refine ⟨Recency.renewDistinct kept.hashes entry,?_,kept.keys,kept.pending⟩
  have fewer : ((l.completed.filter fun e => e.hash != entry.hash).length) < l.completed.length :=
    List.length_filter_lt_length_iff_exists.mpr ⟨entry,there,by simp⟩
  have few := kept.few
  simp only [WebSearchLedger.touch,List.length_append,List.length_singleton]
  omega

theorem joinQuiet (l : WebSearchLedger) (joined : JsString) (aborted : Bool) (key : JsString) :
    Quiet l (l.join joined aborted) key := by
  refine ⟨rfl,rfl,?_⟩
  simp only [WebSearchLedger.flight,WebSearchLedger.join,List.find?_map,Option.isSome_map]
  congr 2
  funext f
  dsimp only [Function.comp]
  split <;> rfl

theorem leaveQuiet (l : WebSearchLedger) (promise : Nat) (key : JsString) : Quiet l (l.leave promise) key := by
  refine ⟨rfl,rfl,?_⟩
  simp only [WebSearchLedger.flight,WebSearchLedger.leave,List.find?_map,Option.isSome_map]
  congr 2
  funext f
  dsimp only [Function.comp]
  split <;> rfl

theorem keptFlights {maxEntries : Nat} {l : WebSearchLedger} (kept : Kept maxEntries l)
    {inFlight : List InFlightEntry} (same : inFlight.map (·.key) = l.inFlight.map (·.key)) :
    Kept maxEntries { l with inFlight := inFlight } :=
  ⟨kept.hashes,kept.few,by rw [same]; exact kept.keys,by rw [same]; exact kept.pending⟩

theorem existsNear {p : Platform} {l : WebSearchLedger} {asked : Asked} {now : Int} :
    (l.findFuzzySuccess p (asked.normalized.headD []) asked.optionsKey now).isSome ↔
      ∃ e ∈ l.completed, WebSearchLedger.nearSuccess (distinct (hashTokenList p (asked.normalized.headD [])))
        (distinct (hashBigrams p (hashTokenList p (asked.normalized.headD [])))) asked.optionsKey now e := by
  unfold WebSearchLedger.findFuzzySuccess
  exact List.find?_isSome

theorem selfJaccard (a : List JsString) : jaccard a a = 1 := by
  unfold jaccard
  by_cases none : a.length = 0
  · simp [none]
  · have all : a.filter a.contains = a := List.filter_eq_self.mpr fun x member => by simpa using member
    have some_ : (a.length : ℚ) ≠ 0 := by exact_mod_cast none
    simp [none,all,some_]

/- The success of a query suppresses the query itself. -/
theorem repeatsNear {p : Platform} {l : WebSearchLedger} {asked : Asked} {e : CompletedEntry} {r : KeyRecord}
    {now : Int} (there : e ∈ l.completed) (h : Remembers p e r) (live : r.outcome.live now)
    (single : asked.single) (again : r.repeats asked) :
    (l.findFuzzySuccess p (asked.normalized.headD []) asked.optionsKey now).isSome := by
  refine existsNear.mpr ⟨e,there,?_⟩
  have outcome := h.outcome
  unfold KeyRecord.repeats at again
  cases kind : r.outcome with
  | failed at' failures retryable =>
    rw [kind] at again
    contradiction
  | succeeded at' before =>
    rw [kind] at again live outcome
    obtain ⟨success,_,tokens,bigrams,optionsKey⟩ := outcome
    simp only [single,Bool.not_true,Bool.false_or,Bool.and_eq_true,beq_iff_eq] at again
    obtain ⟨alone,rfl⟩ := again
    have now_ : decide (now - at' < successSuppressMs) = true := live
    unfold WebSearchLedger.nearSuccess
    rw [h.single,alone,success,optionsKey,tokens,bigrams,Asked.context]
    simp only [single,if_true,selfJaccard,Option.any_some,now_,beq_self_eq_true,Bool.and_true]
    decide +kernel

theorem tickLive (now : Int) (s : KeyState) : ∀ r ∈ (s.tick now).record, r.outcome.live now := fun _ member =>
  (Option.mem_filter_iff.mp member).2

theorem blockedAgree {p : Platform} {l : WebSearchLedger} {key : JsString} {s : KeyState} {now : Int}
    (h : Follows p l key s) (live : ∀ r ∈ s.record, r.outcome.live now) :
    ((l.completedAt key).filter (isBlocked · now)).isSome = s.record.any (·.outcome.blocks) := by
  have rel := h.record
  generalize l.completedAt key = found, s.record = record at rel live
  cases rel with
  | none => rfl
  | @some e r remembers =>
    have same := rememberedBlocks remembers (live r rfl)
    rw [Option.filter_some,same,Option.any_some]
    split <;> simp_all

theorem refreshSame {maxEntries : Nat} {l : WebSearchLedger} (kept : Kept maxEntries l) (key : JsString) :
    Kept maxEntries (l.refresh (l.completedAt key)) ∧ (∀ k, Quiet l (l.refresh (l.completedAt key)) k) ∧
      (∀ e, e ∈ (l.refresh (l.completedAt key)).completed ↔ e ∈ l.completed) ∧
      (l.refresh (l.completedAt key)).activeLocked = l.activeLocked := by
  cases found : l.completedAt key with
  | none => exact ⟨kept,fun _ => ⟨rfl,rfl,rfl⟩,fun _ => .rfl,rfl⟩
  | some e =>
    have there := (Recency.lookupMember found).1
    exact ⟨touchKept kept there,touchQuiet kept there,fun _ => Recency.memRenew there kept.hashes,rfl⟩

theorem trackOthers {p : Platform} (l : WebSearchLedger) (asked : Asked) {tracked key : JsString}
    (other : tracked ≠ key) (promise : Nat) :
    Quiet l (l.track p asked.normalized asked.optionsKey tracked promise) key := by
  have apart : (tracked == key) = false := beq_false_of_ne other
  refine ⟨rfl,?_,?_⟩
  · simp only [WebSearchLedger.track,List.lookup_append,List.lookup_cons,List.lookup_nil,beq_false_of_ne other.symm,
      Option.or_none]
  · simp only [WebSearchLedger.flight,WebSearchLedger.track,List.find?_append,List.find?_singleton,apart,
      Bool.false_eq_true,if_false,Option.or_none]

theorem flightKeys {l : WebSearchLedger} {key : JsString} :
    (l.flight key).isSome ↔ key ∈ l.inFlight.map (·.key) := by
  rw [WebSearchLedger.flight,List.find?_isSome,List.mem_map]
  simp only [beq_iff_eq]

theorem lookupAbsent {pending : List (JsString × PendingContext)} {key : JsString}
    (absent : key ∉ pending.map (·.1)) : pending.lookup key = none := by
  refine List.lookup_eq_none_iff.mpr fun entry member => ?_
  exact bne_iff_ne.mpr fun same => absent (List.mem_map.mpr ⟨entry,member,same.symm⟩)

theorem trackOwn {p : Platform} {maxEntries : Nat} {l : WebSearchLedger} {asked : Asked} {key : JsString}
    {s : KeyState} (kept : Kept maxEntries l) (h : Follows p l key s) (free : l.flight key = none) (promise : Nat) :
    Follows p (l.track p asked.normalized asked.optionsKey key promise) key { s with flying := some asked } := by
  have absent : key ∉ l.pending.map (·.1) := by
    rw [kept.pending]
    intro member
    rw [← flightKeys,free] at member
    contradiction
  refine ⟨h.record,?_,?_⟩
  · simp only [WebSearchLedger.track,List.lookup_append,lookupAbsent absent,List.lookup_cons,beq_self_eq_true,
      Option.none_or]
    rfl
  · have free' : l.inFlight.find? (fun f => f.key == key) = none := free
    simp [WebSearchLedger.flight,WebSearchLedger.track,free']

theorem trackKept {p : Platform} {maxEntries : Nat} {l : WebSearchLedger} (asked : Asked) {key : JsString}
    (kept : Kept maxEntries l) (free : l.flight key = none) (promise : Nat) :
    Kept maxEntries (l.track p asked.normalized asked.optionsKey key promise) := by
  have absent : key ∉ l.inFlight.map (·.key) := by
    rw [← flightKeys,free]
    exact Bool.false_ne_true
  refine ⟨kept.hashes,kept.few,?_,?_⟩
  · simp only [WebSearchLedger.track,List.map_append,List.map_cons,List.map_nil]
    exact kept.keys.append (List.nodup_singleton _) (List.disjoint_singleton.mpr absent)
  · simp only [WebSearchLedger.track,List.map_append,List.map_cons,List.map_nil,kept.pending]

section
variable {p : Platform} {maxEntries : Nat}

/- A batch is suppressed by its own success only. -/
theorem batchAgree {l : WebSearchLedger} {asked : Asked} {key : JsString} {s : KeyState} {now : Int}
    (h : Follows p l key s) (live : ∀ r ∈ s.record, r.outcome.live now) (batch : asked.single = false) :
    ((l.completedAt key).filter fun entry =>
      !asked.single && entry.successAt.any fun at' => now - at' < successSuppressMs).isSome =
        s.record.any (·.repeats asked) := by
  have rel := h.record
  generalize l.completedAt key = found, s.record = record at rel live
  cases rel with
  | none => rfl
  | @some e r remembers =>
    have outcome := remembers.outcome
    have now_ := live r rfl
    unfold KeyRecord.repeats
    rw [Option.filter_some,Option.any_some,batch,Bool.not_false,Bool.true_and]
    cases kind : r.outcome with
    | failed at' failures retryable =>
      rw [kind] at outcome
      simp [outcome.1]
    | succeeded at' before =>
      rw [kind] at outcome now_
      have within : decide (now - at' < successSuppressMs) = true := now_
      rw [outcome.1,Option.any_some,if_pos within]
      rfl

theorem singleAgree {l : WebSearchLedger} {asked : Asked} {key : JsString} {s : KeyState} {now : Int}
    (h : Follows p l key s) (live : ∀ r ∈ s.record, r.outcome.live now) (single : asked.single)
    (none' : l.findFuzzySuccess p (asked.normalized.headD []) asked.optionsKey now = none) :
    s.record.any (·.repeats asked) = false := by
  have rel := h.record
  cases there : s.record with
  | none => rfl
  | some r =>
    rw [there] at rel
    cases found : l.completedAt key with
    | none =>
      rw [found] at rel
      cases rel
    | some e =>
      rw [found] at rel
      cases rel with
      | some remembers =>
        rw [Option.any_some,Bool.eq_false_iff]
        intro again
        have near := repeatsNear (Recency.lookupMember found).1 remembers (live r there) single again
        rw [none'] at near
        contradiction

/- The end of begin, where the key is neither blocked nor in flight. -/
theorem admissionOwn {l : WebSearchLedger} (asked : Asked) {key : JsString} {s : KeyState} {now : Int}
    (kept : Kept maxEntries l) (h : Follows p l key s) (live : ∀ r ∈ s.record, r.outcome.live now)
    (free : l.flight key = none) (promise : Nat) :
    let near := asked.single && (l.findFuzzySuccess p (asked.normalized.headD []) asked.optionsKey now).isSome
    let result := l.admission p (l.completedAt key) asked.normalized asked.optionsKey key now promise
    Kept maxEntries result.2 ∧ if s.record.any (·.repeats asked) || near then
      result.1.decision = .suppressed ∧ Follows p result.2 key s
    else result.1.decision = .run ∧ Follows p result.2 key (if l.full then s else { s with flying := some asked }) := by
  dsimp only
  have admitted : Kept maxEntries (if l.activeLocked ≥ maxLedgerActiveSearches then
        (LedgerBeginResult.run key,l) else (.run key,l.track p asked.normalized asked.optionsKey key promise)).2 ∧
      (if l.activeLocked ≥ maxLedgerActiveSearches then
        (LedgerBeginResult.run key,l) else (.run key,l.track p asked.normalized asked.optionsKey key promise)).1.decision =
          .run ∧ Follows p (if l.activeLocked ≥ maxLedgerActiveSearches then (LedgerBeginResult.run key,l)
        else (.run key,l.track p asked.normalized asked.optionsKey key promise)).2 key
          (if l.full then s else { s with flying := some asked }) := by
    by_cases full : l.activeLocked ≥ maxLedgerActiveSearches
    · have full' : l.full = true := decide_eq_true full
      simp only [if_pos full,full',if_true]
      exact ⟨kept,rfl,h⟩
    · have open_ : l.full = false := decide_eq_false full
      simp only [if_neg full,open_,Bool.false_eq_true,if_false]
      exact ⟨trackKept asked kept free promise,rfl,trackOwn kept h free promise⟩
  unfold WebSearchLedger.admission
  have arity : (asked.normalized.length == 1) = asked.single := rfl
  dsimp only
  rw [arity]
  cases single : asked.single with
  | true =>
    rw [if_pos rfl,Bool.true_and]
    cases found : l.findFuzzySuccess p (asked.normalized.headD []) asked.optionsKey now with
    | some fuzzy =>
      have there := List.mem_of_find?_eq_some found
      rw [Option.isSome_some,Bool.or_true,if_pos rfl]
      exact ⟨touchKept kept there,rfl,h.quiet (touchQuiet kept there key)⟩
    | none =>
      have alone := singleAgree h live single found
      rw [alone,Option.isSome_none,Bool.or_false,if_neg Bool.false_ne_true]
      have nothing : (l.completedAt key).filter (fun _ => false) = none := by cases l.completedAt key <;> rfl
      simp only [Bool.not_true,Bool.false_and,nothing]
      exact admitted
  | false =>
    rw [if_neg Bool.false_ne_true,Bool.false_and,Bool.or_false]
    have agree := batchAgree h live single
    rw [single] at agree
    dsimp only
    cases own : (l.completedAt key).filter fun entry =>
        !false && entry.successAt.any fun at' => now - at' < successSuppressMs with
    | some entry =>
      rw [own] at agree
      rw [← agree,Option.isSome_some,if_pos rfl]
      exact ⟨kept,rfl,h⟩
    | none =>
      rw [own] at agree
      rw [← agree,Option.isSome_none,if_neg Bool.false_ne_true]
      exact admitted

/- What begin says of its own key, and how the key goes on. -/
theorem beginOwn {l : WebSearchLedger} {key : JsString} {s : KeyState} (kept : Kept maxEntries l)
    (h : Follows p l key s) {queries : List JsString} {options : LedgerOptions}
    (mine : (asks p queries options).key p = key) (now : Int) (aborted : Bool) (promise : Nat) :
    let asked := asks p queries options
    let result := l.begin p queries options now aborted promise
    let read := s.begin asked (l.near p asked now) l.full now
    Kept maxEntries result.2 ∧ result.1.decision = read.1 ∧ Follows p result.2 key read.2 := by
  have expired := expireFollows kept h now
  have still := expireKept kept now
  have live := tickLive now s
  have agree := blockedAgree expired live
  have key' : searchKey p (queries.map (normalizeQuery p)) (canonicalOptions p options) = key := mine
  dsimp only
  unfold WebSearchLedger.begin KeyState.begin
  dsimp only
  rw [key',← agree]
  cases blocked : ((l.expireLocked now).completedAt key).filter (isBlocked · now) with
  | some e =>
    have there := (Recency.lookupMember (Option.filter_eq_some_iff.mp blocked).1).1
    rw [Option.isSome_some,if_pos rfl]
    exact ⟨touchKept still there,rfl,expired.quiet (touchQuiet still there key)⟩
  | none =>
    rw [Option.isSome_none,if_neg Bool.false_ne_true,← expired.flight]
    dsimp only
    cases flight : (l.expireLocked now).flight key with
    | some flying =>
      rw [Option.isSome_some,if_pos rfl]
      exact ⟨keptFlights still (sameKeys joinTags),rfl,expired.quiet (joinQuiet _ _ _ _)⟩
    | none =>
      rw [Option.isSome_none,if_neg Bool.false_ne_true]
      obtain ⟨refreshed,quiet,members,active⟩ := refreshSame still key
      have seen := expired.quiet (quiet key)
      have free : ((l.expireLocked now).refresh ((l.expireLocked now).completedAt key)).flight key = none := by
        refine Option.not_isSome_iff_eq_none.mp ?_
        rw [(quiet key).flight,flight]
        exact Bool.false_ne_true
      have admitted := admissionOwn (asks p queries options) refreshed seen live free promise
      have near : (((l.expireLocked now).refresh ((l.expireLocked now).completedAt key)).findFuzzySuccess p
          ((asks p queries options).normalized.headD []) (asks p queries options).optionsKey now).isSome =
          ((l.expireLocked now).findFuzzySuccess p ((asks p queries options).normalized.headD [])
            (asks p queries options).optionsKey now).isSome := by
        rw [Bool.eq_iff_iff,existsNear,existsNear]
        simp only [members]
      have full : ((l.expireLocked now).refresh ((l.expireLocked now).completedAt key)).full = l.full := by
        unfold WebSearchLedger.full
        rw [active]
        rfl
      dsimp only at admitted
      rw [near,full,(quiet key).record] at admitted
      obtain ⟨after,decided⟩ := admitted
      refine ⟨after,?_⟩
      unfold WebSearchLedger.near
      split at decided
      · rename_i suppressed
        rw [if_pos suppressed]
        exact decided
      · rename_i runs
        rw [if_neg runs]
        exact decided

/- A begin of another key lets go of what is past its window. -/
theorem beginOther {l : WebSearchLedger} {key : JsString} {s : KeyState} (kept : Kept maxEntries l)
    (h : Follows p l key s) {queries : List JsString} {options : LedgerOptions}
    (other : (asks p queries options).key p ≠ key) (now : Int) (aborted : Bool) (promise : Nat) :
    Kept maxEntries (l.begin p queries options now aborted promise).2 ∧
      Follows p (l.begin p queries options now aborted promise).2 key (s.tick now) := by
  have expired := expireFollows kept h now
  have still := expireKept kept now
  unfold WebSearchLedger.begin
  dsimp only
  split
  · rename_i e blocked
    have there := (Recency.lookupMember (Option.filter_eq_some_iff.mp blocked).1).1
    exact ⟨touchKept still there,expired.quiet (touchQuiet still there key)⟩
  split
  · exact ⟨keptFlights still (sameKeys joinTags),expired.quiet (joinQuiet _ _ _ _)⟩
  · rename_i flight
    obtain ⟨refreshed,quiet,_,_⟩ := refreshSame still ((asks p queries options).key p)
    have seen := expired.quiet (quiet key)
    unfold WebSearchLedger.admission
    dsimp only
    split
    · rename_i fuzzy found
      split at found <;> try contradiction
      have there := List.mem_of_find?_eq_some found
      exact ⟨touchKept refreshed there,seen.quiet (touchQuiet refreshed there key)⟩
    split
    · exact ⟨refreshed,seen⟩
    split
    · exact ⟨refreshed,seen⟩
    · have free : ((l.expireLocked now).refresh ((l.expireLocked now).completedAt
          ((asks p queries options).key p))).flight ((asks p queries options).key p) = none := by
        refine Option.not_isSome_iff_eq_none.mp ?_
        rw [(quiet _).flight]
        exact Option.not_isSome_iff_eq_none.mpr flight
      exact ⟨trackKept (asks p queries options) refreshed free promise,
        seen.quiet (trackOthers _ (asks p queries options) other promise)⟩

theorem lookupKeep (pending : List (JsString × PendingContext)) {stored key : JsString} (other : stored ≠ key) :
    (pending.filter (·.1 != stored)).lookup key = pending.lookup key := by
  induction pending with
  | nil => rfl
  | cons entry rest ih =>
    obtain ⟨name,context⟩ := entry
    rw [List.filter_cons]
    by_cases same : name = stored
    · have apart : (key == name) = false := beq_false_of_ne (same ▸ other.symm)
      rw [if_neg (by simp [same]),List.lookup_cons,apart,ih]
    · rw [if_pos (bne_iff_ne.mpr same),List.lookup_cons,List.lookup_cons,ih]

theorem dropOther (l : WebSearchLedger) {stored key : JsString} (other : stored ≠ key) :
    Quiet l (l.drop stored) key := by
  refine ⟨rfl,lookupKeep l.pending other,?_⟩
  rw [Bool.eq_iff_iff,flightKeys,flightKeys,List.mem_map,List.mem_map]
  constructor
  · rintro ⟨f,member,same⟩
    exact ⟨f,(List.mem_filter.mp member).1,same⟩
  · rintro ⟨f,member,same⟩
    exact ⟨f,List.mem_filter.mpr ⟨member,bne_iff_ne.mpr (same ▸ other.symm)⟩,same⟩

theorem dropOwn {l : WebSearchLedger} {key : JsString} {s : KeyState} (h : Follows p l key s) :
    Follows p (l.drop key) key { s with flying := none } := by
  refine ⟨h.record,lookupAbsent ?_,?_⟩
  · intro member
    obtain ⟨entry,there,same⟩ := List.mem_map.mp member
    exact bne_iff_ne.mp (List.mem_filter.mp there).2 same
  · rw [Option.isSome_none,Bool.eq_false_iff]
    intro flying
    obtain ⟨f,there,same⟩ := List.mem_map.mp (flightKeys.mp flying)
    exact bne_iff_ne.mp (List.mem_filter.mp there).2 same

theorem dropKept {l : WebSearchLedger} (kept : Kept maxEntries l) (key : JsString) :
    Kept maxEntries (l.drop key) := by
  refine ⟨kept.hashes,kept.few,kept.keys.sublist (List.filter_sublist.map _),?_⟩
  have flights := Recency.keysWithout (·.key) l.inFlight key
  have pending := Recency.keysWithout (·.1) l.pending key
  simp only [WebSearchLedger.drop,flights,pending,kept.pending]

theorem evictedFront (l : WebSearchLedger) (e : CompletedEntry) :
    ((Recency.renew CompletedEntry.hash l.completed e).take
      ((Recency.renew CompletedEntry.hash l.completed e).length - maxEntries)).map (·.hash) =
        l.evicted maxEntries e.hash := by
  have kept := Recency.keysWithout (·.hash) l.completed e.hash
  simp only [Recency.renew,WebSearchLedger.evicted,List.map_take,List.map_append,List.map_cons,List.map_nil,
    List.length_append,List.length_singleton]
  rw [kept,← List.length_map (f := CompletedEntry.hash),kept]

/- A stored outcome takes the end of the map; what it drops is gone. -/
theorem storedAt {l : WebSearchLedger} (kept : Kept maxEntries l) (e : CompletedEntry) (key : JsString) :
    (l.storeLocked maxEntries e).completedAt key =
      if (l.evicted maxEntries e.hash).contains key then none
      else if e.hash == key then some e else l.completedAt key := by
  have found := Recency.lookupDrop (Recency.renewDistinct kept.hashes e)
    ((Recency.renew CompletedEntry.hash l.completed e).length - maxEntries) key
  rw [Recency.lookupRenew,evictedFront] at found
  refine Eq.trans found ?_
  simp only [List.contains_iff_mem]
  rfl

theorem storedKept {l : WebSearchLedger} (kept : Kept maxEntries l) (e : CompletedEntry) :
    Kept maxEntries (l.storeLocked maxEntries e) := by
  refine ⟨(Recency.renewDistinct kept.hashes e).sublist ((List.drop_sublist _ _).map _),?_,kept.keys,kept.pending⟩
  simp only [WebSearchLedger.storeLocked,List.length_drop]
  omega

theorem idlePending {l : WebSearchLedger} (kept : Kept maxEntries l) {key : JsString} (free : l.flight key = none) :
    l.pending.lookup key = none := by
  refine lookupAbsent ?_
  rw [kept.pending]
  intro member
  rw [← flightKeys,free] at member
  contradiction

theorem finishDrops {l : WebSearchLedger} (kept : Kept maxEntries l) {key : JsString} (now : Int) {outcome : Outcome}
    (unrecorded : (outcome.recorded && (l.flight key).isSome) = false) :
    l.finish maxEntries key now outcome = l.drop key := by
  cases flight : l.flight key with
  | none =>
    have unknown := idlePending kept flight
    cases outcome with
    | success result =>
      simp only [WebSearchLedger.finish,WebSearchLedger.completeSuccess,flight,unknown,and_self,if_true]
    | failure retryable code =>
      simp only [WebSearchLedger.finish,WebSearchLedger.completeFailure,flight,unknown,and_self,if_true]
    | cancelled => rfl
  | some flying =>
    rw [flight,Option.isSome_some,Bool.and_true] at unrecorded
    cases outcome with
    | success result => contradiction
    | failure retryable code => contradiction
    | cancelled => rfl

/- An outcome that is recorded, as the map's entry and as the automaton's record. -/
theorem finishStores (p : Platform) (maxEntries : Nat) {l : WebSearchLedger} {key : JsString} (now : Int) {outcome : Outcome}
    (recorded : (outcome.recorded && (l.flight key).isSome) = true) :
    ∃ e, e.hash = key ∧ l.finish maxEntries key now outcome = (l.drop key).storeLocked maxEntries e ∧
      ∀ s, Follows p l key s → ∃ r, s.settle now outcome = ⟨some r,none⟩ ∧ Remembers p e r := by
  obtain ⟨counts,flies⟩ := Bool.and_eq_true_iff.mp recorded
  obtain ⟨flying,flight⟩ := Option.isSome_iff_exists.mp flies
  have settled (s : KeyState) (h : Follows p l key s) : ∃ asked, s.flying = some asked ∧
      l.pending.lookup key = some (asked.context p) := by
    have flown := h.flight
    rw [flight,Option.isSome_some] at flown
    obtain ⟨asked,there⟩ := Option.isSome_iff_exists.mp flown.symm
    exact ⟨asked,there,by rw [h.context,there]; rfl⟩
  have same : (l.drop key).completedAt key = l.completedAt key := rfl
  cases outcome with
  | cancelled => contradiction
  | success result =>
    simp only [WebSearchLedger.finish,WebSearchLedger.completeSuccess,flight,reduceCtorEq,false_and,if_false,same]
    refine ⟨_,rfl,rfl,fun s h => ?_⟩
    obtain ⟨asked,there,context⟩ := settled s h
    have rel := h.record
    unfold KeyState.settle KeyState.remember
    rw [there,context]
    refine ⟨_,rfl,?_,rfl,rfl,rfl,rfl,rfl⟩
    generalize l.completedAt key = found, s.record = record at rel
    cases rel with
    | none => rfl
    | some remembers => exact remembers.single
  | failure retryable code =>
    simp only [WebSearchLedger.finish,WebSearchLedger.completeFailure,flight,reduceCtorEq,false_and,if_false,same]
    refine ⟨_,rfl,rfl,fun s h => ?_⟩
    obtain ⟨asked,there,context⟩ := settled s h
    have rel := h.record
    unfold KeyState.settle KeyState.remember KeyState.failures
    rw [there,context]
    refine ⟨_,rfl,?_,rfl,rfl,?_,rfl⟩
    all_goals generalize l.completedAt key = found, s.record = record at rel
    · cases rel with
      | none => rfl
      | some remembers => exact remembers.single
    · cases rel with
      | none => rfl
      | @some e r remembers =>
        obtain ⟨single,outcome⟩ := r
        have known := remembers.outcome
        cases outcome with
        | succeeded at' before => simp [known.1]
        | failed at' failures again => simp [known.1,known.2.2.1]

theorem finishFollows {l : WebSearchLedger} {key : JsString} {s : KeyState} (kept : Kept maxEntries l)
    (h : Follows p l key s) (stored : JsString) (outcome : Outcome) (now : Int) :
    Kept maxEntries (l.finish maxEntries stored now outcome) ∧
      Follows p (l.finish maxEntries stored now outcome) key
        ((l.inputs p maxEntries key (.finish stored outcome now)).foldl KeyState.read s) := by
  unfold WebSearchLedger.inputs
  rw [List.foldl_append]
  have dropped := dropKept kept stored
  cases recorded : outcome.recorded && (l.flight stored).isSome with
  | false =>
    rw [finishDrops kept now recorded,Bool.false_and,if_neg Bool.false_ne_true]
    refine ⟨dropped,?_⟩
    by_cases own : stored = key
    · subst own
      rw [if_pos (beq_self_eq_true _)]
      have settled : s.settle now outcome = { s with flying := none } := by
        unfold KeyState.settle
        cases flying : s.flying with
        | none =>
          show s = { s with flying := none }
          rw [← flying]
        | some asked =>
          rw [h.flight,flying,Option.isSome_some,Bool.and_true] at recorded
          cases outcome with
          | success result => contradiction
          | failure retryable code => contradiction
          | cancelled => rfl
      rw [List.foldl_cons,List.foldl_nil,List.foldl_nil,KeyState.read,settled]
      exact dropOwn h
    · rw [if_neg (by simpa using own)]
      exact h.quiet (dropOther l own)
  | true =>
    obtain ⟨e,rfl,same,settled⟩ := finishStores p maxEntries now recorded
    rw [same,Bool.true_and]
    refine ⟨storedKept dropped e,?_⟩
    have at_ := storedAt dropped e key
    have front : (l.drop e.hash).evicted maxEntries e.hash = l.evicted maxEntries e.hash := rfl
    rw [front] at at_
    by_cases own : e.hash = key
    · subst own
      obtain ⟨r,after,remembers⟩ := settled s h
      rw [if_pos (beq_self_eq_true _)] at at_ ⊢
      rw [List.foldl_cons,List.foldl_nil,KeyState.read,after]
      have gone := dropOwn h
      split
      · rename_i out
        rw [if_pos out] at at_
        exact ⟨at_ ▸ .none,gone.context,gone.flight⟩
      · rename_i stays
        rw [if_neg stays] at at_
        exact ⟨at_ ▸ .some remembers,gone.context,gone.flight⟩
    · have apart : ¬(e.hash == key) = true := by simpa using own
      rw [if_neg apart] at at_ ⊢
      have still := h.quiet (dropOther l own)
      split
      · rename_i out
        rw [if_pos out] at at_
        exact ⟨at_ ▸ .none,still.context,still.flight⟩
      · rename_i stays
        rw [if_neg stays] at at_
        exact ⟨at_ ▸ h.record,still.context,still.flight⟩

theorem performFollows {l : WebSearchLedger} {key : JsString} {s : KeyState} (kept : Kept maxEntries l)
    (h : Follows p l key s) (op : Operation) :
    Kept maxEntries (l.perform p maxEntries op) ∧ Follows p (l.perform p maxEntries op) key
      ((l.inputs p maxEntries key op).foldl KeyState.read s) := by
  cases op with
  | finish stored outcome now => exact finishFollows kept h stored outcome now
  | leave promise => exact ⟨keptFlights kept (sameKeys leaveTags),h.quiet (leaveQuiet l promise key)⟩
  | begin queries options now aborted promise =>
    unfold WebSearchLedger.inputs WebSearchLedger.perform
    dsimp only
    by_cases mine : (asks p queries options).key p = key
    · obtain ⟨after,_,follows⟩ := beginOwn kept h mine now aborted promise
      rw [if_pos (beq_iff_eq.mpr mine)]
      exact ⟨after,follows⟩
    · rw [if_neg (by simpa using mine)]
      exact beginOther kept h mine now aborted promise

theorem traceFollows {l : WebSearchLedger} {key : JsString} {s : KeyState} (kept : Kept maxEntries l)
    (h : Follows p l key s) (ops : List Operation) :
    Kept maxEntries (ops.foldl (WebSearchLedger.perform p maxEntries) l) ∧
      Follows p (ops.foldl (WebSearchLedger.perform p maxEntries) l) key
        ((l.trace p maxEntries key ops).foldl KeyState.read s) := by
  induction ops generalizing l s with
  | nil => exact ⟨kept,h⟩
  | cons op rest ih =>
    obtain ⟨after,follows⟩ := performFollows kept h op
    rw [WebSearchLedger.trace,List.foldl_append]
    exact ih after follows

/- Only at its maximum does the map evict, the outcome least recently used, for a new key. -/
theorem evictsOldest {l : WebSearchLedger} (kept : Kept maxEntries l) (some_ : 0 < maxEntries)
    {stored key : JsString} (out : key ∈ l.evicted maxEntries stored) :
    l.completed.length = maxEntries ∧ (l.completed.map (·.hash)).head? = some key ∧
      stored ∉ l.completed.map (·.hash) := by
  unfold WebSearchLedger.evicted at out
  dsimp only at out
  have few := kept.few
  have fewer := List.length_filter_le (· != stored) (l.completed.map (·.hash))
  rw [List.length_map] at fewer
  have more : 0 < ((l.completed.map (·.hash)).filter (· != stored)).length + 1 - maxEntries := by
    by_contra none
    rw [Nat.eq_zero_of_not_pos none,List.take_zero] at out
    contradiction
  have all : (l.completed.map (·.hash)).filter (· != stored) = l.completed.map (·.hash) := by
    refine List.filter_sublist.eq_of_length ?_
    rw [List.length_map]
    omega
  have one : ((l.completed.map (·.hash)).filter (· != stored)).length + 1 - maxEntries = 1 := by omega
  rw [one,all] at out
  refine ⟨by omega,?_,?_⟩
  · cases hashes : l.completed.map (·.hash) with
    | nil =>
      rw [all,hashes] at more
      simp only [List.length_nil] at more
      omega
    | cons first rest =>
      rw [hashes] at out
      exact congrArg some (List.mem_singleton.mp out).symm
  · intro member
    rw [← all] at member
    exact bne_iff_ne.mp (List.mem_filter.mp member).2 rfl

theorem emptyKept (maxEntries : Nat) : Kept maxEntries .empty := ⟨List.nodup_nil,Nat.zero_le _,List.nodup_nil,rfl⟩

theorem emptyFollows (p : Platform) (key : JsString) : Follows p .empty key {} := ⟨.none,rfl,rfl⟩

end

/-- Every key of the ledger goes as the reference automaton for it does, and a begin of the key
decides what the automaton decides. The map stays within its maximum, and lets go only of the
outcome least recently used, for the outcome of a key that had none. -/
theorem ledgerFollows (p : Platform) (maxEntries : Nat) (ops : List Operation) (key : JsString) :
    let l := ops.foldl (WebSearchLedger.perform p maxEntries) .empty
    let s := (WebSearchLedger.empty.trace p maxEntries key ops).foldl KeyState.read {}
    (∀ queries options now aborted promise, (asks p queries options).key p = key →
      (l.begin p queries options now aborted promise).1.decision =
        (s.begin (asks p queries options) (l.near p (asks p queries options) now) l.full now).1) ∧
    l.pending.map (·.1) = l.inFlight.map (·.key) ∧ l.completed.length ≤ maxEntries ∧
    ∀ stored, key ∈ l.evicted maxEntries stored → maxEntries = 0 ∨ (l.completed.length = maxEntries ∧
      (l.completed.map (·.hash)).head? = some key ∧ stored ∉ l.completed.map (·.hash)) := by
  intro l s
  obtain ⟨kept,follows⟩ := traceFollows (emptyKept maxEntries) (emptyFollows p key) ops
  refine ⟨?_,kept.pending,kept.few,?_⟩
  · intro queries options now aborted promise mine
    exact (beginOwn kept follows mine now aborted promise).2.1
  · intro stored out
    cases Nat.eq_zero_or_pos maxEntries with
    | inl none => exact .inl none
    | inr some_ => exact .inr (evictsOldest kept some_ out)

def begins (name : String) (now : Int) : Operation := .begin [js name] {} now false 0

def ends (name : String) (outcome : Outcome) (now : Int) : Operation :=
  .finish ((asks plain [js name] {}).key plain) outcome now

def decides (maxEntries : Nat) (ops : List Operation) (name : String) (now : Int) : Decision :=
  ((ops.foldl (WebSearchLedger.perform plain maxEntries) .empty).begin plain [js name] {} now false 0).1.decision

/- The automaton of a key that hears nothing of other keys. -/
def decidesAlone (inputs : List KeyInput) (name : String) (now : Int) : Decision :=
  ((inputs.foldl KeyState.read {}).begin (asks plain [js name] {}) false false now).1

def upstream : Outcome := .failure true .upstreamError

/- Another search ends while the retry of the first is in flight. -/
def evictedRetry : List Operation :=
  [begins "rust" 0,ends "rust" upstream 1,begins "rust" 2,begins "lean" 3,ends "lean" (.success .null) 4]

/- A near-duplicate's success suppresses a query that never ran; and the failure of a search in
flight is evicted, so that it gets a second retry. -/
theorem decisionsShared :
    (decides 128 [begins "a b c d e f g" 0,ends "a b c d e f g" (.success .null) 1] "a b c d e f g h" 2 =
        .suppressed ∧
      decidesAlone [] "a b c d e f g h" 2 = .run) ∧
    (((evictedRetry.take 4).foldl (WebSearchLedger.perform plain 1) .empty).completed.map (·.hash) =
        [(asks plain [js "rust"] {}).key plain] ∧
      (evictedRetry.foldl (WebSearchLedger.perform plain 1) .empty).completed.map (·.hash) =
        [(asks plain [js "lean"] {}).key plain] ∧
      ((evictedRetry.foldl (WebSearchLedger.perform plain 1) .empty).flight
        ((asks plain [js "rust"] {}).key plain)).isSome ∧
      decides 1 (evictedRetry ++ [ends "rust" upstream 5]) "rust" 6 = .run ∧
      decidesAlone [.begin (asks plain [js "rust"] {}) false false 0,.settle 1 upstream,
        .begin (asks plain [js "rust"] {}) false false 2,.settle 5 upstream] "rust" 6 = .blocked) := by
  decide +kernel

end Northstar.Search
