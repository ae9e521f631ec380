import Northstar.Search.Ledger

/-! Concurrent searches over one ledger. Every begin call is numbered; the number of
a call that runs names the run, and the promise it opened when the ledger tracks it.
`ends` and `settled` log what the runs report and which promise each report settles. -/
namespace Northstar.Search

inductive Outcome where
  | success (result : JsValue)
  | failure (retryable : Bool) (code : LedgerFailureCode)
  | cancelled

inductive Delivery where
  | leader (outcome : Outcome)
  | aborted

structure Admitted where
  run : Nat
  key : JsString
  tracked : Bool
  deriving DecidableEq

structure Follower where
  call : Nat
  promise : Nat
  received : Option Delivery

structure Settlement where
  key : JsString
  promise : Nat
  settledBy : Nat
  outcome : Outcome
  now : Int

structure Searches where
  ledger : WebSearchLedger
  calls : Nat
  admitted : List Admitted
  ends : List (Nat × Outcome)
  settled : List Settlement
  followers : List Follower

def Searches.start : Searches := ⟨.empty,0,[],[],[],[]⟩

inductive Event where
  | begin (queries : List JsString) (options : LedgerOptions) (aborted : Bool) (now : Int)
  | finish (run : Nat) (outcome : Outcome) (now : Int)
  | abort (call : Nat)

def WebSearchLedger.finish (maxEntries : Nat) (l : WebSearchLedger) (key : JsString) (now : Int) :
    Outcome → WebSearchLedger
  | .success result => l.completeSuccess maxEntries key result now
  | .failure retryable code => l.completeFailure maxEntries key retryable code now
  | .cancelled => l.cancel key

def Follower.deliver (promise : Nat) (outcome : Outcome) (f : Follower) : Follower :=
  if f.promise == promise && f.received.isNone then { f with received := some (.leader outcome) } else f

def Follower.abort (call : Nat) (f : Follower) : Follower :=
  if f.call == call && f.received.isNone then { f with received := some .aborted } else f

def Searches.begun (s : Searches) (aborted : Bool) :
    LedgerBeginResult × WebSearchLedger → Searches
  | (.run key,ledger) => { s with
      ledger := ledger
      calls := s.calls + 1
      admitted := s.admitted ++ [⟨s.calls,key,(ledger.flight key).any (·.promise == s.calls)⟩] }
  | (.coalesced _ promise,ledger) => { s with
      ledger := ledger
      calls := s.calls + 1
      followers := s.followers ++ [⟨s.calls,promise,if aborted then some .aborted else none⟩] }
  | (_,ledger) => { s with ledger := ledger, calls := s.calls + 1 }

def Searches.finished (maxEntries : Nat) (s : Searches) (run : Nat) (key : JsString)
    (outcome : Outcome) (now : Int) : Searches :=
  let after := { s with
    ledger := s.ledger.finish maxEntries key now outcome
    ends := s.ends ++ [(run,outcome)] }
  match s.ledger.flight key with
  | none => after
  | some flying => { after with
      settled := ⟨key,flying.promise,run,outcome,now⟩ :: s.settled
      followers := s.followers.map (Follower.deliver flying.promise outcome) }

def step (p : Platform) (maxEntries : Nat) (s : Searches) : Event → Searches
  | .begin queries options aborted now =>
      s.begun aborted (s.ledger.begin p queries options now aborted s.calls)
  | .finish run outcome now => match s.admitted.find? (·.run == run) with
      | none => s
      | some search => s.finished maxEntries run search.key outcome now
  | .abort call => match s.followers.find? (fun f => f.call == call && f.received.isNone) with
      | none => s
      | some follower => { s with
          ledger := s.ledger.leave follower.promise
          followers := s.followers.map (Follower.abort call) }

/- A run that opened no promise, or has reported already, reports while a promise of
its key is open. -/
def meddles (s : Searches) : Event → Bool
  | .finish run _ _ => s.admitted.any fun search => search.run == run &&
      (!search.tracked || (s.ends.lookup run).isSome) && (s.ledger.flight search.key).isSome
  | _ => false

def Outcome.recorded : Outcome → Bool
  | .cancelled => false
  | _ => true

def Records (entry : CompletedEntry) (s : Settlement) : Prop := match s.outcome with
  | .success result => entry.successAt = some s.now ∧ entry.responseId = extractResponseId result ∧
      entry.lastFailureAt = none ∧ entry.lastCode = none ∧ entry.lastRetryable = none
  | .failure retryable code => entry.successAt = none ∧ entry.responseId = none ∧
      entry.lastFailureAt = some s.now ∧ entry.lastCode = some code ∧
      entry.lastRetryable = some retryable
  | .cancelled => False

def lastRecorded (s : Searches) (key : JsString) : Option Settlement :=
  s.settled.find? fun p => p.key == key && p.outcome.recorded

/-- Every promise is settled by the run that opened it, with what that run reported
first; followers and the record of a key get exactly that, and no such report is lost. -/
structure Attributed (s : Searches) : Prop where
  own : ∀ p ∈ s.settled, p.settledBy = p.promise
  once : (s.settled.map (·.promise)).Nodup
  reported : ∀ p ∈ s.settled, s.ends.lookup p.promise = some p.outcome
  delivered : ∀ f ∈ s.followers, ∀ outcome, f.received = some (.leader outcome) →
    s.ends.lookup f.promise = some outcome
  waiting : ∀ f ∈ s.followers, f.received.isNone → s.ends.lookup f.promise = none
  recorded : ∀ entry ∈ s.ledger.completed, ∃ p, lastRecorded s entry.hash = some p ∧ Records entry p
  kept : ∀ a ∈ s.admitted, a.tracked → ∀ outcome, s.ends.lookup a.run = some outcome →
    ∃ p ∈ s.settled, p.promise = a.run ∧ p.key = a.key ∧ p.outcome = outcome

structure Sound (s : Searches) : Prop where
  runsBelow : ∀ a ∈ s.admitted, a.run < s.calls
  runsDistinct : (s.admitted.map (·.run)).Nodup
  endsBelow : ∀ e ∈ s.ends, e.1 < s.calls
  keysDistinct : (s.ledger.inFlight.map (·.key)).Nodup
  pendingKeys : s.ledger.pending.map (·.1) = s.ledger.inFlight.map (·.key)
  flying : ∀ f ∈ s.ledger.inFlight, ∃ a ∈ s.admitted,
    a.run = f.promise ∧ a.key = f.key ∧ a.tracked ∧ s.ends.lookup a.run = none
  active : ∀ a ∈ s.admitted, a.tracked → s.ends.lookup a.run = none →
    ∃ f ∈ s.ledger.inFlight, f.promise = a.run ∧ f.key = a.key
  joined : ∀ f ∈ s.followers, f.received.isNone → ∃ g ∈ s.ledger.inFlight, g.promise = f.promise
  attributed : Attributed s

/- What begin can do to the ledger: the completed searches only thin out. -/
inductive BeginStep (l : WebSearchLedger) (promise : Nat) :
    LedgerBeginResult × WebSearchLedger → Prop where
  | tracked (key context completed) (fewer : ∀ e ∈ completed, e ∈ l.completed)
      (free : l.flight key = none) :
      BeginStep l promise (.run key,⟨completed,l.inFlight ++ [⟨key,promise,1⟩],l.pending ++ [(key,context)]⟩)
  | bypass (key completed) (fewer : ∀ e ∈ completed, e ∈ l.completed)
      (free : l.flight key = none) :
      BeginStep l promise (.run key,⟨completed,l.inFlight,l.pending⟩)
  | coalesced (key flying completed aborted) (fewer : ∀ e ∈ completed, e ∈ l.completed)
      (found : l.flight key = some flying) :
      BeginStep l promise (.coalesced key flying.promise,
        WebSearchLedger.join ⟨completed,l.inFlight,l.pending⟩ key aborted)
  | suppressed (responseId ageMs completed) (fewer : ∀ e ∈ completed, e ∈ l.completed) :
      BeginStep l promise (.suppressed responseId ageMs,⟨completed,l.inFlight,l.pending⟩)
  | blocked (completed) (fewer : ∀ e ∈ completed, e ∈ l.completed) :
      BeginStep l promise (.blocked,⟨completed,l.inFlight,l.pending⟩)

theorem touchFewer {l : WebSearchLedger} {entry : CompletedEntry} (present : entry ∈ l.completed) :
    ∀ e ∈ (l.touch entry).completed, e ∈ l.completed := by
  intro e member
  simp only [WebSearchLedger.touch,List.mem_append,List.mem_singleton,List.mem_filter] at member
  rcases member with kept | same
  · exact kept.1
  · exact same ▸ present

theorem completedMember {l : WebSearchLedger} {key : JsString} {entry : CompletedEntry}
    (found : l.completedAt key = some entry) : entry ∈ l.completed :=
  List.mem_of_find?_eq_some found

theorem BeginStep.earlier {l : WebSearchLedger} (completed : List CompletedEntry) {promise : Nat}
    {result : LedgerBeginResult × WebSearchLedger} (fewer : ∀ e ∈ completed, e ∈ l.completed)
    (h : BeginStep ⟨completed,l.inFlight,l.pending⟩ promise result) : BeginStep l promise result := by
  cases h with
  | tracked key context later fewer' free =>
    exact .tracked _ _ _ (fun e member => fewer e (fewer' e member)) free
  | bypass key later fewer' free => exact .bypass _ _ (fun e member => fewer e (fewer' e member)) free
  | coalesced key flying later aborted fewer' found =>
    exact .coalesced _ _ _ aborted (fun e member => fewer e (fewer' e member)) found
  | suppressed responseId ageMs later fewer' =>
    exact .suppressed _ _ _ fun e member => fewer e (fewer' e member)
  | blocked later fewer' => exact .blocked _ fun e member => fewer e (fewer' e member)

theorem admitStep {p : Platform} {l : WebSearchLedger} {existing : Option CompletedEntry}
    {normalized : List JsString} {optionsKey key : JsString} {now : Int} {promise : Nat}
    (free : l.flight key = none) :
    BeginStep l promise (l.admission p existing normalized optionsKey key now promise) := by
  unfold WebSearchLedger.admission
  dsimp only
  split
  · rename_i fuzzy found
    split at found <;> try contradiction
    exact .suppressed _ _ _ (touchFewer (List.mem_of_find?_eq_some found))
  · split
    · exact .suppressed _ _ _ fun _ h => h
    · split
      · exact .bypass _ _ (fun _ h => h) free
      · exact .tracked _ _ _ (fun _ h => h) free

theorem beginStep {p : Platform} {l : WebSearchLedger} {queries : List JsString}
    {options : LedgerOptions} {now : Int} {aborted : Bool} {promise : Nat} :
    BeginStep l promise (l.begin p queries options now aborted promise) := by
  refine BeginStep.earlier (l := l) (l.expireLocked now).completed
    (fun e member => (List.mem_filter.mp member).1) ?_
  unfold WebSearchLedger.begin
  dsimp only
  split
  · rename_i blocked found
    exact .blocked _ (touchFewer (completedMember (Option.filter_eq_some_iff.mp found).1))
  · split
    · rename_i flying found
      exact .coalesced _ _ _ aborted (fun _ h => h) found
    · rename_i free
      cases found : WebSearchLedger.completedAt (l.expireLocked now)
          (searchKey p (queries.map (normalizeQuery p)) (canonicalOptions p options)) with
      | none => exact admitStep free
      | some existing =>
        exact BeginStep.earlier _ (touchFewer (completedMember found)) (admitStep free)

theorem finishMaps (maxEntries : Nat) (l : WebSearchLedger) (key : JsString) (now : Int)
    (outcome : Outcome) :
    (l.finish maxEntries key now outcome).inFlight = l.inFlight.filter (·.key != key) ∧
      (l.finish maxEntries key now outcome).pending = l.pending.filter (·.1 != key) := by
  cases outcome with
  | success result =>
    simp only [WebSearchLedger.finish,WebSearchLedger.completeSuccess]
    split <;> exact ⟨rfl,rfl⟩
  | failure retryable code =>
    simp only [WebSearchLedger.finish,WebSearchLedger.completeFailure]
    split <;> exact ⟨rfl,rfl⟩
  | cancelled => exact ⟨rfl,rfl⟩

theorem finishIdle (maxEntries : Nat) {l : WebSearchLedger} {key : JsString} (now : Int)
    (outcome : Outcome) (free : l.flight key = none) (unknown : l.pending.lookup key = none) :
    (l.finish maxEntries key now outcome).completed = l.completed := by
  cases outcome with
  | success result =>
    simp only [WebSearchLedger.finish,WebSearchLedger.completeSuccess,free,unknown,and_self,if_pos]
    rfl
  | failure retryable code =>
    simp only [WebSearchLedger.finish,WebSearchLedger.completeFailure,free,unknown,and_self,if_pos]
    rfl
  | cancelled => rfl

theorem storedMember {maxEntries : Nat} {l : WebSearchLedger} {entry e : CompletedEntry}
    (member : e ∈ (l.storeLocked maxEntries entry).completed) :
    (e ∈ l.completed ∧ e.hash ≠ entry.hash) ∨ e = entry := by
  have kept := List.mem_of_mem_drop member
  rcases List.mem_append.mp kept with old | new
  · have old := List.mem_filter.mp old
    exact .inl ⟨old.1,by simpa using old.2⟩
  · exact .inr (List.mem_singleton.mp new)

theorem finishCompleted {maxEntries : Nat} {l : WebSearchLedger} {key : JsString} {now : Int}
    {outcome : Outcome} {flying : InFlightEntry} (promise run : Nat) {e : CompletedEntry}
    (found : l.flight key = some flying)
    (member : e ∈ (l.finish maxEntries key now outcome).completed) :
    (e ∈ l.completed ∧ (outcome.recorded → e.hash ≠ key)) ∨
      (e.hash = key ∧ Records e ⟨key,promise,run,outcome,now⟩) := by
  cases outcome with
  | success result =>
    simp only [WebSearchLedger.finish,WebSearchLedger.completeSuccess,found,reduceCtorEq,false_and,
      if_false] at member
    rcases storedMember member with old | new
    · exact .inl ⟨old.1,fun _ => old.2⟩
    · exact .inr (new ▸ ⟨rfl,rfl,rfl,rfl,rfl,rfl⟩)
  | failure retryable code =>
    simp only [WebSearchLedger.finish,WebSearchLedger.completeFailure,found,reduceCtorEq,false_and,
      if_false] at member
    rcases storedMember member with old | new
    · exact .inl ⟨old.1,fun _ => old.2⟩
    · exact .inr (new ▸ ⟨rfl,rfl,rfl,rfl,rfl,rfl⟩)
  | cancelled => exact .inl ⟨member,fun recorded => by contradiction⟩

theorem Attributed.quiet {s s' : Searches} (h : Attributed s) (settled : s'.settled = s.settled)
    (ends : s'.ends = s.ends) (fewer : ∀ e ∈ s'.ledger.completed, e ∈ s.ledger.completed)
    (admitted : ∀ a ∈ s'.admitted, a ∈ s.admitted ∨ s.ends.lookup a.run = none)
    (followers : ∀ f ∈ s'.followers, f ∈ s.followers ∨
      ((∀ outcome, f.received ≠ some (.leader outcome)) ∧
        (f.received.isNone → s.ends.lookup f.promise = none))) : Attributed s' where
  own p member := h.own p (settled ▸ member)
  once := settled ▸ h.once
  reported p member := ends ▸ h.reported p (settled ▸ member)
  delivered f member outcome received := by
    rcases followers f member with old | new
    · exact ends ▸ h.delivered f old outcome received
    · exact absurd received (new.1 outcome)
  waiting f member received := by
    rcases followers f member with old | new
    · exact ends ▸ h.waiting f old received
    · exact ends ▸ new.2 received
  recorded entry member := by
    simpa only [lastRecorded,settled] using h.recorded entry (fewer entry member)
  kept a member tracked outcome reported := by
    rw [ends] at reported
    rcases admitted a member with old | new
    · exact settled ▸ h.kept a old tracked outcome reported
    · exact absurd reported (by simp [new])

theorem Sound.unreported {s : Searches} (h : Sound s) : s.ends.lookup s.calls = none := by
  rw [List.lookup_eq_none_iff]
  intro e member
  have below := h.endsBelow e member
  simpa using (Nat.ne_of_lt below).symm

theorem Sound.sameRun {s : Searches} (h : Sound s) {a b : Admitted} (left : a ∈ s.admitted)
    (right : b ∈ s.admitted) (same : a.run = b.run) : a = b :=
  List.inj_on_of_nodup_map h.runsDistinct left right same

theorem Sound.sameKey {s : Searches} (h : Sound s) {f g : InFlightEntry}
    (left : f ∈ s.ledger.inFlight) (right : g ∈ s.ledger.inFlight) (same : f.key = g.key) : f = g :=
  List.inj_on_of_nodup_map h.keysDistinct left right same

theorem flightFound {l : WebSearchLedger} {key : JsString} {f : InFlightEntry}
    (found : l.flight key = some f) : f ∈ l.inFlight ∧ f.key = key :=
  ⟨List.mem_of_find?_eq_some found,by simpa using List.find?_some found⟩

theorem flightFree {l : WebSearchLedger} {key : JsString} (free : l.flight key = none) :
    ∀ f ∈ l.inFlight, f.key ≠ key := by
  intro f member
  simpa using List.find?_eq_none.mp free f member

theorem soundTracked {s : Searches} (h : Sound s) {key : JsString} {context : PendingContext}
    {completed : List CompletedEntry} (aborted : Bool)
    (fewer : ∀ e ∈ completed, e ∈ s.ledger.completed) (free : s.ledger.flight key = none) :
    Sound (s.begun aborted (.run key,⟨completed,s.ledger.inFlight ++ [⟨key,s.calls,1⟩],
      s.ledger.pending ++ [(key,context)]⟩)) := by
  have opened : WebSearchLedger.flight ⟨completed,s.ledger.inFlight ++ [⟨key,s.calls,1⟩],
      s.ledger.pending ++ [(key,context)]⟩ key = some ⟨key,s.calls,1⟩ := by
    simp only [WebSearchLedger.flight] at free
    simp [WebSearchLedger.flight,List.find?_append,free]
  have fresh := h.unreported
  simp only [Searches.begun,opened,Option.any_some,beq_self_eq_true]
  exact {
    runsBelow := fun a member => by
      rcases List.mem_append.mp member with old | new
      · exact Nat.lt_succ_of_lt (h.runsBelow a old)
      · rw [List.mem_singleton.mp new]
        exact Nat.lt_succ_self _
    runsDistinct := by
      rw [List.map_append,List.nodup_append]
      refine ⟨h.runsDistinct,by simp,?_⟩
      intro run old other new
      obtain ⟨a,member,same⟩ := List.mem_map.mp old
      have below := h.runsBelow a member
      simp only [List.map_cons,List.map_nil,List.mem_singleton] at new
      omega
    endsBelow := fun e member => Nat.lt_succ_of_lt (h.endsBelow e member)
    keysDistinct := by
      rw [List.map_append,List.nodup_append]
      refine ⟨h.keysDistinct,by simp,?_⟩
      intro k old other new same
      obtain ⟨f,member,held⟩ := List.mem_map.mp old
      simp only [List.map_cons,List.map_nil,List.mem_singleton] at new
      exact flightFree free f member (held.trans (same.trans new))
    pendingKeys := by simp [h.pendingKeys]
    flying := fun f member => by
      rcases List.mem_append.mp member with old | new
      · obtain ⟨a,held,facts⟩ := h.flying f old
        exact ⟨a,List.mem_append_left _ held,facts⟩
      · have same := List.mem_singleton.mp new
        exact ⟨⟨s.calls,key,true⟩,List.mem_append_right _ (List.mem_singleton.mpr rfl),
          by rw [same],by rw [same],rfl,fresh⟩
    active := fun a member tracked unreported => by
      rcases List.mem_append.mp member with old | new
      · obtain ⟨f,held,facts⟩ := h.active a old tracked unreported
        exact ⟨f,List.mem_append_left _ held,facts⟩
      · have same := List.mem_singleton.mp new
        exact ⟨⟨key,s.calls,1⟩,List.mem_append_right _ (List.mem_singleton.mpr rfl),
          by rw [same],by rw [same]⟩
    joined := fun f member waiting => by
      obtain ⟨g,held,same⟩ := h.joined f member waiting
      exact ⟨g,List.mem_append_left _ held,same⟩
    attributed := h.attributed.quiet rfl rfl fewer (fun a member => by
      rcases List.mem_append.mp member with old | new
      · exact .inl old
      · exact .inr (List.mem_singleton.mp new ▸ fresh)) fun f member => .inl member }

def InFlightEntry.tag (f : InFlightEntry) : Nat × JsString := (f.promise,f.key)

theorem sameTags {left right : List InFlightEntry}
    (same : left.map InFlightEntry.tag = right.map InFlightEntry.tag) {f : InFlightEntry}
    (member : f ∈ left) : ∃ g ∈ right, g.promise = f.promise ∧ g.key = f.key := by
  have tagged : f.tag ∈ right.map InFlightEntry.tag := same ▸ List.mem_map_of_mem member
  obtain ⟨g,held,equal⟩ := List.mem_map.mp tagged
  exact ⟨g,held,congrArg Prod.fst equal,congrArg Prod.snd equal⟩

theorem sameKeys {left right : List InFlightEntry}
    (same : left.map InFlightEntry.tag = right.map InFlightEntry.tag) :
    left.map (·.key) = right.map (·.key) := by
  have keys := congrArg (List.map Prod.snd) same
  simpa only [List.map_map,Function.comp_def,InFlightEntry.tag] using keys

/- A step that settles nothing and opens no promise. -/
theorem Sound.quiet {s s' : Searches} (h : Sound s) (attributed : Attributed s')
    (flights : s'.ledger.inFlight.map InFlightEntry.tag = s.ledger.inFlight.map InFlightEntry.tag)
    (pending : s'.ledger.pending = s.ledger.pending) (ends : s'.ends = s.ends)
    (calls : s.calls ≤ s'.calls) (bypass : Option Admitted)
    (admitted : s'.admitted = s.admitted ++ bypass.toList)
    (untracked : ∀ a ∈ bypass, a.run = s.calls ∧ a.tracked = false ∧ s.calls < s'.calls)
    (joined : ∀ f ∈ s'.followers, f.received.isNone →
      ∃ g ∈ s.ledger.inFlight, g.promise = f.promise) : Sound s' where
  runsBelow a member := by
    rw [admitted] at member
    rcases List.mem_append.mp member with old | new
    · exact Nat.lt_of_lt_of_le (h.runsBelow a old) calls
    · obtain ⟨same,_,below⟩ := untracked a (Option.mem_toList.mp new)
      exact same ▸ below
  runsDistinct := by
    rw [admitted,List.map_append,List.nodup_append]
    refine ⟨h.runsDistinct,by cases bypass <;> simp,?_⟩
    intro run old other new
    obtain ⟨a,held,rfl⟩ := List.mem_map.mp old
    obtain ⟨b,extra,rfl⟩ := List.mem_map.mp new
    have fresh := (untracked b (Option.mem_toList.mp extra)).1
    have below := h.runsBelow a held
    omega
  endsBelow e member := Nat.lt_of_lt_of_le (h.endsBelow e (ends ▸ member)) calls
  keysDistinct := sameKeys flights ▸ h.keysDistinct
  pendingKeys := by rw [pending,sameKeys flights,h.pendingKeys]
  flying f member := by
    obtain ⟨g,held,promise,key⟩ := sameTags flights member
    obtain ⟨a,run,facts⟩ := h.flying g held
    exact ⟨a,admitted ▸ List.mem_append_left _ run,promise ▸ key ▸ ends ▸ facts⟩
  active a member tracked unreported := by
    rw [admitted] at member
    rcases List.mem_append.mp member with old | new
    · obtain ⟨f,held,promise,key⟩ := h.active a old tracked (ends ▸ unreported)
      obtain ⟨g,held,promise',key'⟩ := sameTags flights.symm held
      exact ⟨g,held,promise'.trans promise,key'.trans key⟩
    · have not := (untracked a (Option.mem_toList.mp new)).2.1
      simp [not] at tracked
  joined f member waiting := by
    obtain ⟨g,held,same⟩ := joined f member waiting
    obtain ⟨g',held',promise,_⟩ := sameTags flights.symm held
    exact ⟨g',held',promise.trans same⟩
  attributed := attributed

theorem joinTags {l : WebSearchLedger} {key : JsString} {aborted : Bool} :
    (l.join key aborted).inFlight.map InFlightEntry.tag = l.inFlight.map InFlightEntry.tag := by
  simp only [WebSearchLedger.join,List.map_map]
  refine List.map_congr_left fun f _ => ?_
  simp only [Function.comp_def]
  split <;> rfl

theorem leaveTags {l : WebSearchLedger} {promise : Nat} :
    (l.leave promise).inFlight.map InFlightEntry.tag = l.inFlight.map InFlightEntry.tag := by
  simp only [WebSearchLedger.leave,List.map_map]
  refine List.map_congr_left fun f _ => ?_
  simp only [Function.comp_def]
  split <;> rfl

theorem soundBegun {s : Searches} (h : Sound s) (aborted : Bool)
    {result : LedgerBeginResult × WebSearchLedger} (step : BeginStep s.ledger s.calls result) :
    Sound (s.begun aborted result) := by
  cases step with
  | tracked key context completed fewer free => exact soundTracked h aborted fewer free
  | bypass key completed fewer free =>
    have unopened : WebSearchLedger.flight ⟨completed,s.ledger.inFlight,s.ledger.pending⟩ key = none :=
      free
    simp only [Searches.begun,unopened,Option.any_none]
    refine h.quiet (h.attributed.quiet rfl rfl fewer ?_ fun f member => .inl member) rfl rfl rfl
      (Nat.le_succ _) (some ⟨s.calls,key,false⟩) rfl ?_ h.joined
    · intro a member
      rcases List.mem_append.mp member with old | new
      · exact .inl old
      · exact .inr (List.mem_singleton.mp new ▸ h.unreported)
    · intro a same
      cases same
      exact ⟨rfl,rfl,Nat.lt_succ_self _⟩
  | coalesced key flying completed aborted' fewer found =>
    obtain ⟨held,_⟩ := flightFound found
    obtain ⟨leader,_,same,_,_,unreported⟩ := h.flying flying held
    refine h.quiet (h.attributed.quiet rfl rfl fewer (fun a member => .inl member) ?_) joinTags rfl rfl
      (Nat.le_succ _) none (List.append_nil _).symm (fun a none => by contradiction) ?_
    · intro f member
      rcases List.mem_append.mp member with old | new
      · exact .inl old
      · rw [List.mem_singleton.mp new]
        exact .inr ⟨fun outcome => by split <;> simp,fun _ => same ▸ unreported⟩
    · intro f member waiting
      rcases List.mem_append.mp member with old | new
      · exact h.joined f old waiting
      · exact ⟨flying,held,by rw [List.mem_singleton.mp new]⟩
  | suppressed responseId ageMs completed fewer =>
    exact h.quiet (h.attributed.quiet rfl rfl fewer (fun a member => .inl member)
      fun f member => .inl member) rfl rfl rfl (Nat.le_succ _) none
      (List.append_nil _).symm (fun a none => by contradiction) h.joined
  | blocked completed fewer =>
    exact h.quiet (h.attributed.quiet rfl rfl fewer (fun a member => .inl member)
      fun f member => .inl member) rfl rfl rfl (Nat.le_succ _) none
      (List.append_nil _).symm (fun a none => by contradiction) h.joined

theorem abortedKeeps {call : Nat} {f : Follower} :
    (f.abort call).promise = f.promise ∧
      (f.abort call = f ∨ (f.abort call).received = some .aborted) := by
  unfold Follower.abort
  split
  · exact ⟨rfl,.inr rfl⟩
  · exact ⟨rfl,.inl rfl⟩

theorem soundAborted {s : Searches} (h : Sound s) (call promise : Nat) :
    Sound { s with
      ledger := s.ledger.leave promise
      followers := s.followers.map (Follower.abort call) } := by
  refine h.quiet (h.attributed.quiet rfl rfl (fun e member => member) (fun a member => .inl member) ?_)
    leaveTags rfl rfl (Nat.le_refl _) none (List.append_nil _).symm
    (fun a none => by contradiction) ?_
  · intro f member
    obtain ⟨g,held,rfl⟩ := List.mem_map.mp member
    rcases abortedKeeps.2 with same | gone
    · exact .inl (same.symm ▸ held)
    · exact .inr ⟨fun outcome => by simp [gone],fun none => by simp [gone] at none⟩
  · intro f member waiting
    obtain ⟨g,held,rfl⟩ := List.mem_map.mp member
    rcases abortedKeeps.2 with same | gone
    · rw [same] at waiting ⊢
      exact h.joined g held waiting
    · simp [gone] at waiting

theorem lookupAppend {ends : List (Nat × Outcome)} {run r : Nat} {outcome : Outcome} :
    (ends ++ [(run,outcome)]).lookup r =
      (ends.lookup r).or (if r = run then some outcome else none) := by
  rw [List.lookup_append]
  by_cases same : r = run
  · simp [same,List.lookup]
  · simp [same,List.lookup,beq_eq_false_iff_ne.mpr same]

theorem lookupKept {ends : List (Nat × Outcome)} {run r : Nat} {outcome first : Outcome}
    (found : ends.lookup r = some first) : (ends ++ [(run,outcome)]).lookup r = some first := by
  rw [lookupAppend,found,Option.some_or]

theorem lookupOther {ends : List (Nat × Outcome)} {run r : Nat} {outcome : Outcome}
    (other : r ≠ run) : (ends ++ [(run,outcome)]).lookup r = ends.lookup r := by
  rw [lookupAppend,if_neg other,Option.or_none]

/- A report that finds no promise of its key: only a run whose own promise is settled, or
that never had one, makes it. -/
theorem soundUnheard {s : Searches} (h : Sound s) (maxEntries : Nat) {search : Admitted}
    (present : search ∈ s.admitted) (outcome : Outcome) (now : Int)
    (free : s.ledger.flight search.key = none) :
    Sound (s.finished maxEntries search.run search.key outcome now) := by
  have unknown : s.ledger.pending.lookup search.key = none := by
    rw [List.lookup_eq_none_iff]
    intro entry member
    have key : entry.1 ∈ s.ledger.inFlight.map (·.key) := h.pendingKeys ▸ List.mem_map_of_mem member
    obtain ⟨f,held,same⟩ := List.mem_map.mp key
    have other := flightFree free f held
    simpa [← same] using other.symm
  have spent : ∀ a ∈ s.admitted, a.tracked → s.ends.lookup a.run = none → a.run ≠ search.run := by
    intro a member tracked unreported same
    obtain ⟨f,held,_,key⟩ := h.active a member tracked unreported
    have equal := h.sameRun member present same
    exact flightFree free f held (equal ▸ key)
  have others : ∀ f ∈ s.ledger.inFlight, f.promise ≠ search.run := by
    intro f held same
    obtain ⟨a,member,run,_,tracked,unreported⟩ := h.flying f held
    exact spent a member tracked unreported (run.trans same)
  have flights : s.ledger.inFlight.filter (·.key != search.key) = s.ledger.inFlight :=
    List.filter_eq_self.mpr fun f held => by simpa using flightFree free f held
  have contexts : s.ledger.pending.filter (·.1 != search.key) = s.ledger.pending :=
    List.filter_eq_self.mpr fun entry member => by
      have other : ¬search.key = entry.1 := by simpa using List.lookup_eq_none_iff.mp unknown entry member
      simpa using Ne.symm other
  have maps := finishMaps maxEntries s.ledger search.key now outcome
  rw [flights,contexts] at maps
  have completed := finishIdle maxEntries now outcome free unknown
  have attributed := h.attributed
  simp only [Searches.finished,free]
  exact {
    runsBelow := h.runsBelow
    runsDistinct := h.runsDistinct
    endsBelow := fun e member => by
      rcases List.mem_append.mp member with old | new
      · exact h.endsBelow e old
      · rw [List.mem_singleton.mp new]
        exact h.runsBelow search present
    keysDistinct := maps.1.symm ▸ h.keysDistinct
    pendingKeys := by rw [maps.1,maps.2,h.pendingKeys]
    flying := fun f member => by
      rw [maps.1] at member
      obtain ⟨a,held,run,key,tracked,unreported⟩ := h.flying f member
      exact ⟨a,held,run,key,tracked,(lookupOther (run ▸ others f member)).trans unreported⟩
    active := fun a member tracked unreported => by
      rw [maps.1]
      refine h.active a member tracked ?_
      cases old : s.ends.lookup a.run with
      | none => rfl
      | some first => simp [lookupKept old] at unreported
    joined := fun f member waiting => maps.1.symm ▸ h.joined f member waiting
    attributed := {
      own := attributed.own
      once := attributed.once
      reported := fun p member => lookupKept (attributed.reported p member)
      delivered := fun f member first received =>
        lookupKept (attributed.delivered f member first received)
      waiting := fun f member waiting => by
        obtain ⟨g,held,same⟩ := h.joined f member waiting
        exact (lookupOther (same ▸ others g held)).trans (attributed.waiting f member waiting)
      recorded := fun entry member => attributed.recorded entry (completed ▸ member)
      kept := fun a member tracked first reported => by
        refine attributed.kept a member tracked first ?_
        cases old : s.ends.lookup a.run with
        | none => rwa [lookupOther (spent a member tracked old),old] at reported
        | some earlier => rwa [lookupKept old] at reported } }

theorem deliverCases (promise : Nat) (outcome : Outcome) (f : Follower) :
    (f.deliver promise outcome = f ∧ (f.received.isNone → f.promise ≠ promise)) ∨
      (f.deliver promise outcome = { f with received := some (.leader outcome) } ∧
        f.promise = promise) := by
  unfold Follower.deliver
  split
  · rename_i both
    simp only [Bool.and_eq_true,beq_iff_eq] at both
    exact .inr ⟨rfl,both.1⟩
  · rename_i neither
    refine .inl ⟨rfl,fun none same => neither ?_⟩
    simp [same,none]

/- The report of the run that opened the promise settles it. -/
theorem soundSettled {s : Searches} (h : Sound s) (maxEntries : Nat) {search : Admitted}
    (present : search ∈ s.admitted) (tracked : search.tracked)
    (unreported : s.ends.lookup search.run = none) (outcome : Outcome) (now : Int)
    {flying : InFlightEntry} (found : s.ledger.flight search.key = some flying) :
    Sound (s.finished maxEntries search.run search.key outcome now) := by
  obtain ⟨held,key⟩ := flightFound found
  have promise : flying.promise = search.run := by
    obtain ⟨f,member,same,key'⟩ := h.active search present tracked unreported
    exact h.sameKey member held (key'.trans key.symm) ▸ same
  have others : ∀ f ∈ s.ledger.inFlight, f.promise = search.run → f.key = search.key := by
    intro f member same
    obtain ⟨a,admitted,run,key',_⟩ := h.flying f member
    exact key' ▸ congrArg Admitted.key (h.sameRun admitted present (run.trans same))
  have unsettled : ∀ p ∈ s.settled, p.promise ≠ search.run := by
    intro p member same
    have reported := h.attributed.reported p member
    rw [same,unreported] at reported
    contradiction
  obtain ⟨flights,contexts⟩ := finishMaps maxEntries s.ledger search.key now outcome
  have attributed := h.attributed
  have first : (s.ends ++ [(search.run,outcome)]).lookup search.run = some outcome := by
    rw [lookupAppend,unreported,if_pos rfl,Option.none_or]
  simp only [Searches.finished,found,promise]
  exact {
    runsBelow := h.runsBelow
    runsDistinct := h.runsDistinct
    endsBelow := fun e member => by
      rcases List.mem_append.mp member with old | new
      · exact h.endsBelow e old
      · rw [List.mem_singleton.mp new]
        exact h.runsBelow search present
    keysDistinct := by
      rw [flights]
      exact h.keysDistinct.sublist (List.filter_sublist.map _)
    pendingKeys := by
      have keys := congrArg (List.filter (· != search.key)) h.pendingKeys
      rw [List.filter_map,List.filter_map] at keys
      rw [flights,contexts]
      exact keys
    flying := fun f member => by
      rw [flights] at member
      obtain ⟨member,other⟩ := List.mem_filter.mp member
      obtain ⟨a,admitted,run,key',tracked',unreported'⟩ := h.flying f member
      have different : a.run ≠ search.run := by
        intro same
        exact absurd (others f member (run.symm.trans same)) (by simpa using other)
      exact ⟨a,admitted,run,key',tracked',(lookupOther different).trans unreported'⟩
    active := fun a member tracked' unreported' => by
      have old : s.ends.lookup a.run = none := by
        cases old : s.ends.lookup a.run with
        | none => rfl
        | some earlier => simp [lookupKept old] at unreported'
      obtain ⟨f,held',same,key'⟩ := h.active a member tracked' old
      have different : f.key ≠ search.key := by
        intro equal
        have run : f.promise = search.run := h.sameKey held' held (equal.trans key.symm) ▸ promise
        rw [← same,run,first] at unreported'
        contradiction
      exact ⟨f,flights ▸ List.mem_filter.mpr ⟨held',by simpa using different⟩,same,key'⟩
    joined := fun f member waiting => by
      obtain ⟨g,old,rfl⟩ := List.mem_map.mp member
      rcases deliverCases search.run outcome g with untouched | delivered
      · rw [untouched.1] at waiting ⊢
        obtain ⟨f,held',same⟩ := h.joined g old waiting
        have different : f.key ≠ search.key := by
          intro equal
          have run : f.promise = search.run := h.sameKey held' held (equal.trans key.symm) ▸ promise
          exact untouched.2 waiting (same.symm.trans run)
        exact ⟨f,flights ▸ List.mem_filter.mpr ⟨held',by simpa using different⟩,same⟩
      · simp [delivered.1] at waiting
    attributed := {
      own := fun p member => by
        rcases List.mem_cons.mp member with new | old
        · rw [new]
        · exact attributed.own p old
      once := by
        rw [List.map_cons,List.nodup_cons]
        refine ⟨fun member => ?_,attributed.once⟩
        obtain ⟨p,old,same⟩ := List.mem_map.mp member
        exact unsettled p old same
      reported := fun p member => by
        rcases List.mem_cons.mp member with new | old
        · rw [new]
          exact first
        · exact lookupKept (attributed.reported p old)
      delivered := fun f member received' arrives => by
        obtain ⟨g,old,rfl⟩ := List.mem_map.mp member
        rcases deliverCases search.run outcome g with untouched | delivered
        · rw [untouched.1] at arrives ⊢
          exact lookupKept (attributed.delivered g old received' arrives)
        · rw [delivered.1] at arrives ⊢
          cases arrives
          exact delivered.2 ▸ first
      waiting := fun f member waits => by
        obtain ⟨g,old,rfl⟩ := List.mem_map.mp member
        rcases deliverCases search.run outcome g with untouched | delivered
        · rw [untouched.1] at waits ⊢
          exact (lookupOther (untouched.2 waits)).trans (attributed.waiting g old waits)
        · simp [delivered.1] at waits
      recorded := fun entry member => by
        rcases finishCompleted search.run search.run found member with old | new
        · obtain ⟨p,last,records⟩ := attributed.recorded entry old.1
          refine ⟨p,?_,records⟩
          have skipped : (search.key == entry.hash && outcome.recorded) = false := by
            rw [Bool.and_eq_false_iff,beq_eq_false_iff_ne]
            by_cases recorded : outcome.recorded
            · exact .inl (old.2 recorded).symm
            · exact .inr (by simpa using recorded)
          simp only [lastRecorded,List.find?_cons,skipped]
          exact last
        · refine ⟨_,List.find?_cons_of_pos ?_,new.2⟩
          have recorded : outcome.recorded = true := by
            cases outcome with
            | cancelled => exact False.elim new.2
            | _ => rfl
          simp [new.1,recorded]
      kept := fun a member tracked' reported' reports => by
        cases old : s.ends.lookup a.run with
        | some earlier =>
          rw [lookupKept old] at reports
          obtain ⟨p,settled,facts⟩ := attributed.kept a member tracked' earlier old
          exact ⟨p,List.mem_cons_of_mem _ settled,Option.some.inj reports ▸ facts⟩
        | none =>
          by_cases same : a.run = search.run
          · rw [same,first] at reports
            cases reports
            have equal := h.sameRun member present same
            exact ⟨_,List.mem_cons_self,same.symm,congrArg Admitted.key equal.symm,rfl⟩
          · rw [lookupOther same,old] at reports
            contradiction } }

theorem soundStart : Sound .start where
  runsBelow a member := by contradiction
  runsDistinct := List.nodup_nil
  endsBelow e member := by contradiction
  keysDistinct := List.nodup_nil
  pendingKeys := rfl
  flying f member := by contradiction
  active a member := by contradiction
  joined f member := by contradiction
  attributed := {
    own := fun p member => by contradiction
    once := List.nodup_nil
    reported := fun p member => by contradiction
    delivered := fun f member => by contradiction
    waiting := fun f member => by contradiction
    recorded := fun entry member => by contradiction
    kept := fun a member => by contradiction }

theorem soundStep {p : Platform} {maxEntries : Nat} {s : Searches} {e : Event} (h : Sound s)
    (proper : meddles s e = false) : Sound (step p maxEntries s e) := by
  cases e with
  | begin queries options aborted now => exact soundBegun h aborted beginStep
  | abort call =>
    simp only [step]
    split
    · exact h
    · exact soundAborted h call _
  | finish run outcome now =>
    simp only [step]
    split
    · exact h
    · rename_i search found
      have present := List.mem_of_find?_eq_some found
      have same : search.run = run := by simpa using List.find?_some found
      subst same
      have absent := List.any_eq_false.mp proper search present
      cases flight : s.ledger.flight search.key with
      | none => exact soundUnheard h maxEntries present outcome now flight
      | some flying =>
        simp only [flight,beq_self_eq_true,Option.isSome_some,Bool.and_true,Bool.true_and,
          Bool.or_eq_true,Bool.not_eq_true',not_or,Bool.not_eq_false] at absent
        exact soundSettled h maxEntries present absent.1 (Option.not_isSome_iff_eq_none.mp absent.2)
          outcome now flight

/-- In every run where no search that opened no promise, or has reported already, reports
while another search of its key is in flight, outcomes reach the searches they belong to. -/
theorem outcomesAttributed (p : Platform) (maxEntries : Nat) (events : List Event)
    (proper : Meets (fun s e => meddles s e = false) (step p maxEntries) .start events) :
    Attributed (events.foldl (step p maxEntries) .start) :=
  (runUnder soundStart (fun _ _ h meets => soundStep h meets) events proper).attributed

def plain : Platform := ⟨id,id,fun point => point != [32],id⟩

def search (name : String) : Event := .begin [js name] {} false 0

theorem followerServed : Attributed
    ([search "moons of saturn",search "moons of saturn",.finish 0 (.failure true .timeout) 5].foldl
      (step plain maxLedgerEntries) .start) :=
  outcomesAttributed plain maxLedgerEntries _ (by decide)

/- With 32 searches in flight search 32 runs untracked; once search 0 is gone, search 33
opens a promise for the same key, and the failure of search 32 settles it. -/
def bypassRun : List Event :=
  (List.range 32).map (fun n => search ("topic " ++ toString n)) ++
    [search "moons",.finish 0 .cancelled 1,search "moons",.finish 32 (.failure true .timeout) 2]

set_option maxRecDepth 16384 in
theorem bypassSettlesAnother :
    ¬Attributed (bypassRun.foldl (step plain maxLedgerEntries) .start) := by
  intro h
  have foreign : ∃ p ∈ (bypassRun.foldl (step plain maxLedgerEntries) .start).settled,
      p.settledBy = 32 ∧ p.promise = 33 := by decide
  obtain ⟨p,member,settledBy,promise⟩ := foreign
  have own := h.own p member
  omega

end Northstar.Search
