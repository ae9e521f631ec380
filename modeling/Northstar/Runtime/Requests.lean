import Northstar.Program
import Northstar.Runtime.LeafClient

/-! One request of the leaf-runtime client and what it leaves behind (leaf-runtime-client.ts):
the entry of the pending map, the handler on the bus, the closure in the list of subscriptions
and the timer. The bus may call a handler and the caller may dispose while an emit goes on. -/
namespace Northstar.Runtime

structure Pending where
  requestId : JsString
  method : RuntimeRpcMethod
  settled : Bool
  outcomes : List (Except LeafRuntimeError JsValue)

structure Requests where
  promises : List Pending := []
  pending : List (JsString × Nat) := []
  timers : List Nat := []
  handlers : List Nat := []
  subscriptions : List Nat := []
  emitting : List Nat := []
  disposed : Bool := false

inductive RequestEvent where
  | request (requestId : JsString) (method : RuntimeRpcMethod) (params : JsValue) (timeoutMs : Option Number)
  | emitted (thrown : Option LeafRuntimeError)
  | reply (number : Nat) (raw : JsValue)
  | fire (number : Nat)
  | dispose

namespace Requests

/- What is the same in both ends of a request and in dispose; the timer is cleared and the handler
taken off the bus before the promise hears of it. -/
def conclude (n : Nat) (outcome : Except LeafRuntimeError JsValue) (s : Requests) : Requests :=
  { s with
    promises := s.promises.modify n fun p => { p with settled := true, outcomes := p.outcomes ++ [outcome] }
    timers := s.timers.filter (· ≠ n)
    handlers := s.handlers.filter (· ≠ n) }

def settle (n : Nat) (outcome : Except LeafRuntimeError JsValue) (s : Requests) : Requests :=
  match s.promises[n]? with
  | none => s
  | some p =>
      if p.settled then s
      else
        let concluded := s.conclude n outcome
        { concluded with
          subscriptions := concluded.subscriptions.filter (· ≠ n)
          pending := concluded.pending.filter (·.1 ≠ p.requestId) }

/- A promise that is rejected before anything is set up for it. -/
def refuse (requestId : JsString) (method : RuntimeRpcMethod) (error : LeafRuntimeError) (s : Requests) : Requests :=
  { s with promises := s.promises ++ [⟨requestId,method,true,[.error error]⟩] }

/- Up to the emit. -/
def request (defaultTimeoutMs : Int) (requestId : JsString) (method : RuntimeRpcMethod) (params : JsValue)
    (timeoutMs : Option Number) (s : Requests) : Requests :=
  if s.disposed then s.refuse requestId method disposedError
  else match asTimeoutMs timeoutMs defaultTimeoutMs with
    | .error error => s.refuse requestId method error
    | .ok _ =>
        if !requestIdShape requestId then s.refuse requestId method invalidReply
        else match validateRequest (LeafRuntimeClient.envelope requestId method params) with
          | .error refused => s.refuse requestId method ⟨"invalid_reply",refused.message⟩
          | .ok _ =>
              let n := s.promises.length
              { s with
                promises := s.promises ++ [⟨requestId,method,false,[]⟩]
                handlers := s.handlers ++ [n]
                subscriptions := s.subscriptions ++ [n]
                timers := s.timers ++ [n]
                pending := s.pending.filter (·.1 ≠ requestId) ++ [(requestId,n)]
                emitting := n :: s.emitting }

/- The innermost emit comes back, or throws. -/
def emitted (thrown : Option LeafRuntimeError) (s : Requests) : Requests := match s.emitting with
  | [] => s
  | n :: outer =>
      let back := { s with emitting := outer }
      match thrown with
      | none => back
      | some error => back.settle n (.error error)

/- A bus that works on a copy of its handlers may call one that is no longer there. -/
def reply (n : Nat) (raw : JsValue) (s : Requests) : Requests := match s.promises[n]? with
  | none => s
  | some p =>
      if p.settled then s
      else s.settle n (LeafRuntimeClient.checked (fun _ => p.requestId) n p.method raw)

/- The cancellation that follows has a handler and a timer of its own. -/
def fire (n : Nat) (s : Requests) : Requests :=
  if s.timers.contains n then
    { s with timers := s.timers.filter (· ≠ n) }.settle n (.error localTimeout)
  else s

def disposeOne (s : Requests) (entry : JsString × Nat) : Requests :=
  if s.promises[entry.2]?.any (·.settled) then s else s.conclude entry.2 (.error disposedError)

def dispose (s : Requests) : Requests :=
  if s.disposed then s
  else
    let rejected := s.pending.foldl disposeOne { s with disposed := true }
    { rejected with
      pending := []
      handlers := rejected.handlers.filter fun n => !rejected.subscriptions.contains n
      subscriptions := [] }

def step (defaultTimeoutMs : Int) (s : Requests) : RequestEvent → Requests
  | .request requestId method params timeoutMs => s.request defaultTimeoutMs requestId method params timeoutMs
  | .emitted thrown => s.emitted thrown
  | .reply n raw => s.reply n raw
  | .fire n => s.fire n
  | .dispose => s.dispose

/- Nothing of a request is left. -/
structure Gone (n : Nat) (s : Requests) : Prop where
  timer : n ∉ s.timers
  handler : n ∉ s.handlers
  subscription : n ∉ s.subscriptions
  entry : ∀ e ∈ s.pending, e.2 ≠ n

def SettledAt (n : Nat) (s : Requests) : Prop := (s.promises[n]?.any (·.settled)) = true

def outcomesOf (n : Nat) (s : Requests) : List (Except LeafRuntimeError JsValue) :=
  (s.promises[n]?.map (·.outcomes)).getD []

/- What the loop of dispose keeps as well. -/
structure Held (s : Requests) : Prop where
  opened : ∀ n p, s.promises[n]? = some p → p.settled = false → p.outcomes = [] ∧ n ∈ s.timers
  closed : ∀ n p, s.promises[n]? = some p → p.settled = true → p.outcomes.length = 1 ∧ n ∉ s.timers ∧ n ∉ s.handlers
  known : ∀ n, n ∈ s.timers ∨ n ∈ s.handlers ∨ n ∈ s.subscriptions → n < s.promises.length

structure Sound (s : Requests) : Prop extends Held s where
  unlisted : ∀ n p, s.promises[n]? = some p → p.settled = true → n ∉ s.subscriptions
  entries : ∀ e ∈ s.pending, ∃ p, s.promises[e.2]? = some p ∧ p.requestId = e.1 ∧ p.settled = false

theorem Sound.gone {s : Requests} (h : Sound s) {n : Nat} {p : Pending} (at_ : s.promises[n]? = some p)
    (settled : p.settled = true) : Gone n s := by
  have closed := h.closed n p at_ settled
  refine ⟨closed.2.1,closed.2.2,h.unlisted n p at_ settled,fun e member same => ?_⟩
  obtain ⟨q,found,_,open_⟩ := h.entries e member
  rw [same,at_] at found
  rw [← Option.some.inj found,settled] at open_
  contradiction

theorem concludedAt (n : Nat) (outcome : Except LeafRuntimeError JsValue) (s : Requests) (j : Nat) :
    (s.conclude n outcome).promises[j]? =
      if n = j then s.promises[j]?.map fun p => { p with settled := true, outcomes := p.outcomes ++ [outcome] }
      else s.promises[j]? := by
  unfold conclude
  dsimp only
  rw [List.getElem?_modify]
  split
  · rfl
  · exact Option.map_id' ..

theorem concludedIds (n : Nat) (outcome : Except LeafRuntimeError JsValue) (s : Requests) :
    (s.conclude n outcome).promises.map (·.requestId) = s.promises.map (·.requestId) := by
  refine List.ext_getElem? fun j => ?_
  rw [List.getElem?_map,List.getElem?_map,concludedAt]
  split
  · rw [Option.map_map]
    rfl
  · rfl

theorem concludeSettles {s : Requests} {n : Nat} {p : Pending} (at_ : s.promises[n]? = some p)
    (outcome : Except LeafRuntimeError JsValue) : SettledAt n (s.conclude n outcome) := by
  unfold SettledAt
  rw [concludedAt,if_pos rfl,at_]
  rfl

theorem concludeKeeps {s : Requests} {j : Nat} (already : SettledAt j s) {n : Nat} {p : Pending}
    (at_ : s.promises[n]? = some p) (outcome : Except LeafRuntimeError JsValue) : SettledAt j (s.conclude n outcome) := by
  by_cases same : n = j
  · subst same
    exact concludeSettles at_ outcome
  · unfold SettledAt
    rw [concludedAt,if_neg same]
    exact already

theorem heldConclude {s : Requests} (h : Held s) {n : Nat} {p : Pending} (at_ : s.promises[n]? = some p)
    (open_ : p.settled = false) (outcome : Except LeafRuntimeError JsValue) : Held (s.conclude n outcome) := by
  constructor
  · intro j q found unsettled
    rw [concludedAt] at found
    split at found
    · rename_i same
      rw [← same,at_] at found
      cases Option.some.inj found
      contradiction
    · rename_i other
      have held := h.opened j q found unsettled
      exact ⟨held.1,List.mem_filter.mpr ⟨held.2,by simpa using Ne.symm other⟩⟩
  · intro j q found settled
    rw [concludedAt] at found
    split at found
    · rename_i same
      subst same
      rw [at_] at found
      cases Option.some.inj found
      refine ⟨by simp [(h.opened n p at_ open_).1],fun member => ?_,fun member => ?_⟩
      · simpa using (List.mem_filter.mp member).2
      · simpa using (List.mem_filter.mp member).2
    · have held := h.closed j q found settled
      exact ⟨held.1,fun member => held.2.1 (List.mem_of_mem_filter member),
        fun member => held.2.2 (List.mem_of_mem_filter member)⟩
  · intro j member
    change j < (s.promises.modify n _).length
    rw [List.length_modify]
    refine h.known j ?_
    rcases member with timer | handler | subscription
    · exact .inl (List.mem_of_mem_filter timer)
    · exact .inr (.inl (List.mem_of_mem_filter handler))
    · exact .inr (.inr subscription)

theorem soundSettle {s : Requests} (h : Sound s) (n : Nat) (outcome : Except LeafRuntimeError JsValue) :
    Sound (s.settle n outcome) := by
  unfold settle
  split
  · exact h
  · rename_i p at_
    split
    · exact h
    · rename_i settled
      have open_ : p.settled = false := by simpa using settled
      have held := heldConclude h.toHeld at_ open_ outcome
      refine ⟨⟨held.opened,held.closed,fun j member => held.known j ?_⟩,?_,?_⟩
      · rcases member with timer | handler | subscription
        · exact .inl timer
        · exact .inr (.inl handler)
        · exact .inr (.inr (List.mem_of_mem_filter subscription))
      · intro j q found done member
        have left := List.mem_filter.mp member
        rw [concludedAt,if_neg (by simpa using Ne.symm (of_decide_eq_true left.2))] at found
        exact h.unlisted j q found done left.1
      · intro e member
        have left := List.mem_filter.mp member
        obtain ⟨q,found,named,unsettled⟩ := h.entries e left.1
        have other : n ≠ e.2 := by
          rintro rfl
          rw [at_] at found
          exact of_decide_eq_true left.2 (by rw [← named,Option.some.inj found])
        exact ⟨q,by rw [concludedAt,if_neg other]; exact found,named,unsettled⟩

theorem addedAt {s : Requests} {p q : Pending} {j : Nat} (found : (s.promises ++ [p])[j]? = some q) :
    s.promises[j]? = some q ∨ j = s.promises.length ∧ q = p := by
  rcases Nat.lt_trichotomy j s.promises.length with below | same | above
  · rw [List.getElem?_append_left below] at found
    exact .inl found
  · subst same
    rw [List.getElem?_concat_length] at found
    exact .inr ⟨rfl,(Option.some.inj found).symm⟩
  · rw [List.getElem?_eq_none (by simp; omega)] at found
    contradiction

theorem soundRefuse {s : Requests} (h : Sound s) (requestId : JsString) (method : RuntimeRpcMethod)
    (error : LeafRuntimeError) : Sound (s.refuse requestId method error) := by
  have apart : ∀ n, n ∈ s.timers ∨ n ∈ s.handlers ∨ n ∈ s.subscriptions → n ≠ s.promises.length :=
    fun n member => Nat.ne_of_lt (h.known n member)
  refine ⟨⟨?_,?_,fun n member => ?_⟩,?_,?_⟩
  · intro n p found unsettled
    rcases addedAt found with old | ⟨_,rfl⟩
    · exact h.opened n p old unsettled
    · contradiction
  · intro n p found settled
    rcases addedAt found with old | ⟨rfl,rfl⟩
    · exact h.closed n p old settled
    · exact ⟨rfl,fun member => apart _ (.inl member) rfl,fun member => apart _ (.inr (.inl member)) rfl⟩
  · exact (h.known n member).trans_le (by simp [refuse])
  · intro n p found settled member
    rcases addedAt found with old | ⟨rfl,_⟩
    · exact h.unlisted n p old settled member
    · exact apart _ (.inr (.inr member)) rfl
  · intro e member
    obtain ⟨p,found,named⟩ := h.entries e member
    exact ⟨p,List.getElem?_append_left (List.getElem?_eq_some_iff.mp found).1 ▸ found,named⟩

theorem soundRequest {s : Requests} (h : Sound s) (defaultTimeoutMs : Int) (requestId : JsString)
    (method : RuntimeRpcMethod) (params : JsValue) (timeoutMs : Option Number) :
    Sound (s.request defaultTimeoutMs requestId method params timeoutMs) := by
  unfold request
  split
  · exact soundRefuse h _ _ _
  · split
    · exact soundRefuse h _ _ _
    · split
      · exact soundRefuse h _ _ _
      · split
        · exact soundRefuse h _ _ _
        · refine ⟨⟨?_,?_,fun n member => ?_⟩,?_,?_⟩
          · intro n p found unsettled
            rcases addedAt found with old | ⟨rfl,rfl⟩
            · exact ⟨(h.opened n p old unsettled).1,List.mem_append_left _ (h.opened n p old unsettled).2⟩
            · exact ⟨rfl,List.mem_append_right _ List.mem_cons_self⟩
          · intro n p found settled
            rcases addedAt found with old | ⟨_,rfl⟩
            · have less := (List.getElem?_eq_some_iff.mp old).1
              have closed := h.closed n p old settled
              simp [closed.1,closed.2.1,closed.2.2,Nat.ne_of_lt less]
            · contradiction
          · simp only [List.mem_append,List.mem_singleton,List.length_append,List.length_singleton] at member ⊢
            rcases member with (timer | rfl) | (handler | rfl) | (subscription | rfl)
            · exact (h.known n (.inl timer)).trans (Nat.lt_succ_self _)
            · exact Nat.lt_succ_self _
            · exact (h.known n (.inr (.inl handler))).trans (Nat.lt_succ_self _)
            · exact Nat.lt_succ_self _
            · exact (h.known n (.inr (.inr subscription))).trans (Nat.lt_succ_self _)
            · exact Nat.lt_succ_self _
          · intro n p found settled member
            rcases addedAt found with old | ⟨_,rfl⟩
            · have less := (List.getElem?_eq_some_iff.mp old).1
              simp [h.unlisted n p old settled,Nat.ne_of_lt less] at member
            · contradiction
          · intro e member
            rcases List.mem_append.mp member with old | new
            · obtain ⟨p,found,named⟩ := h.entries e (List.mem_of_mem_filter old)
              exact ⟨p,List.getElem?_append_left (List.getElem?_eq_some_iff.mp found).1 ▸ found,named⟩
            · rw [List.mem_singleton.mp new]
              exact ⟨_,List.getElem?_concat_length,rfl,rfl⟩

theorem soundEmitted {s : Requests} (h : Sound s) (thrown : Option LeafRuntimeError) : Sound (s.emitted thrown) := by
  unfold emitted
  split
  · exact h
  · rename_i n outer _
    have back : Sound { s with emitting := outer } := ⟨⟨h.opened,h.closed,h.known⟩,h.unlisted,h.entries⟩
    split
    · exact back
    · exact soundSettle back n _

theorem soundReply {s : Requests} (h : Sound s) (n : Nat) (raw : JsValue) : Sound (s.reply n raw) := by
  unfold reply
  split
  · exact h
  · split
    · exact h
    · exact soundSettle h n _

/- The timer that fired is gone before the promise is rejected, so this is settle on the way. -/
theorem fireSettles {s : Requests} (h : Sound s) {n : Nat} (timer : n ∈ s.timers) :
    s.fire n = s.settle n (.error localTimeout) := by
  have unsettled : ∀ p, s.promises[n]? = some p → p.settled = false := by
    intro p found
    cases settled : p.settled with
    | false => rfl
    | true => exact absurd timer (h.closed n p found settled).2.1
  have opened := List.getElem?_eq_getElem (h.known n (.inl timer))
  unfold fire settle
  rw [if_pos (List.contains_iff_mem.mpr timer)]
  dsimp only
  rw [opened]
  dsimp only
  rw [if_neg (by rw [unsettled _ opened]; exact Bool.false_ne_true),if_neg (by rw [unsettled _ opened]; exact Bool.false_ne_true)]
  simp only [conclude,List.filter_filter]
  simp

theorem soundFire {s : Requests} (h : Sound s) (n : Nat) : Sound (s.fire n) := by
  by_cases timer : n ∈ s.timers
  · exact fireSettles h timer ▸ soundSettle h n _
  · unfold fire
    rw [if_neg (by simpa using timer)]
    exact h

/- The loop of dispose settles every promise it comes by and leaves the subscriptions to the end. -/
theorem disposedOne {s : Requests} (h : Held s) {entry : JsString × Nat} (there : entry.2 < s.promises.length) :
    Held (disposeOne s entry) ∧ (disposeOne s entry).promises.length = s.promises.length ∧
      SettledAt entry.2 (disposeOne s entry) ∧ ∀ j, SettledAt j s → SettledAt j (disposeOne s entry) := by
  have at_ := List.getElem?_eq_getElem there
  unfold disposeOne
  split
  · rename_i settled
    exact ⟨h,rfl,settled,fun _ already => already⟩
  · rename_i unsettled
    rw [at_] at unsettled
    exact ⟨heldConclude h at_ (by simpa using unsettled) _,List.length_modify ..,concludeSettles at_ _,
      fun _ already => concludeKeeps already at_ _⟩

theorem disposedAll (entries : List (JsString × Nat)) {s : Requests} (h : Held s)
    (there : ∀ e ∈ entries, e.2 < s.promises.length) : Held (entries.foldl disposeOne s) ∧
      (entries.foldl disposeOne s).promises.length = s.promises.length ∧
      (∀ e ∈ entries, SettledAt e.2 (entries.foldl disposeOne s)) ∧
      ∀ j, SettledAt j s → SettledAt j (entries.foldl disposeOne s) := by
  induction entries generalizing s with
  | nil => exact ⟨h,rfl,fun _ none_ => (List.not_mem_nil none_).elim,fun _ already => already⟩
  | cons entry rest ih =>
    obtain ⟨held,size,first,kept⟩ := disposedOne h (there entry List.mem_cons_self)
    have later : ∀ e ∈ rest, e.2 < (disposeOne s entry).promises.length := by
      intro e member
      rw [size]
      exact there e (List.mem_cons_of_mem _ member)
    obtain ⟨held',size',each,kept'⟩ := ih held later
    refine ⟨held',size'.trans size,fun e member => ?_,fun j already => kept' j (kept j already)⟩
    rcases List.mem_cons.mp member with rfl | among
    · exact kept' _ first
    · exact each e among

theorem disposedIds (entries : List (JsString × Nat)) (s : Requests) :
    (entries.foldl disposeOne s).promises.map (·.requestId) = s.promises.map (·.requestId) := by
  induction entries generalizing s with
  | nil => rfl
  | cons entry rest ih =>
    rw [List.foldl_cons,ih]
    unfold disposeOne
    split
    · rfl
    · exact concludedIds ..

theorem entriesThere {s : Requests} (h : Sound s) : ∀ e ∈ s.pending, e.2 < s.promises.length := by
  intro e member
  obtain ⟨p,found,_⟩ := h.entries e member
  exact (List.getElem?_eq_some_iff.mp found).1

theorem soundDispose {s : Requests} (h : Sound s) : Sound s.dispose := by
  unfold dispose
  split
  · exact h
  · have start : Held { s with disposed := true } := ⟨h.opened,h.closed,h.known⟩
    obtain ⟨held,_,_,_⟩ := disposedAll s.pending start (entriesThere h)
    refine ⟨⟨held.opened,fun n p found settled => ?_,fun n member => held.known n ?_⟩,fun _ _ _ _ => List.not_mem_nil,
      fun _ none_ => (List.not_mem_nil none_).elim⟩
    · have closed := held.closed n p found settled
      exact ⟨closed.1,closed.2.1,fun member => closed.2.2 (List.mem_of_mem_filter member)⟩
    · rcases member with timer | handler | none_
      · exact .inl timer
      · exact .inr (.inl (List.mem_of_mem_filter handler))
      · exact (List.not_mem_nil none_).elim

theorem soundStep (defaultTimeoutMs : Int) {s : Requests} (h : Sound s) (e : RequestEvent) :
    Sound (step defaultTimeoutMs s e) := by
  cases e with
  | request requestId method params timeoutMs => exact soundRequest h _ _ _ _ _
  | emitted thrown => exact soundEmitted h thrown
  | reply n raw => exact soundReply h n raw
  | fire n => exact soundFire h n
  | dispose => exact soundDispose h

theorem soundInitially : Sound {} := by
  refine ⟨⟨?_,?_,?_⟩,?_,?_⟩ <;> simp

theorem soundRun (defaultTimeoutMs : Int) (events : List RequestEvent) : Sound (events.foldl (step defaultTimeoutMs) {}) :=
  runInvariant soundInitially (fun _ e h => soundStep defaultTimeoutMs h e) events

/- A settled promise stays settled. -/
theorem settleKeeps {s : Requests} {j : Nat} (already : SettledAt j s) (n : Nat) (outcome : Except LeafRuntimeError JsValue) :
    SettledAt j (s.settle n outcome) := by
  unfold settle
  split
  · exact already
  · rename_i p at_
    split
    · exact already
    · exact concludeKeeps already at_ outcome

theorem settleSettles {s : Requests} {n : Nat} (there : n < s.promises.length) (outcome : Except LeafRuntimeError JsValue) :
    SettledAt n (s.settle n outcome) := by
  have at_ := List.getElem?_eq_getElem there
  unfold settle
  rw [at_]
  dsimp only
  split
  · rename_i settled
    unfold SettledAt
    rw [at_]
    exact settled
  · exact concludeSettles at_ outcome

theorem addedKeeps {s : Requests} {j : Nat} (already : SettledAt j s) (p : Pending) :
    ((s.promises ++ [p])[j]?.any (·.settled)) = true := by
  unfold SettledAt at already
  cases at_ : s.promises[j]? with
  | none =>
    rw [at_] at already
    contradiction
  | some q =>
    rw [List.getElem?_append_left (List.getElem?_eq_some_iff.mp at_).1]
    exact already

theorem stepKeeps (defaultTimeoutMs : Int) {s : Requests} (h : Sound s) {j : Nat} (already : SettledAt j s)
    (e : RequestEvent) : SettledAt j (step defaultTimeoutMs s e) := by
  cases e with
  | request requestId method params timeoutMs =>
    change SettledAt j (s.request defaultTimeoutMs requestId method params timeoutMs)
    unfold request
    split
    · exact addedKeeps already _
    · split
      · exact addedKeeps already _
      · split
        · exact addedKeeps already _
        · split
          · exact addedKeeps already _
          · exact addedKeeps already _
  | emitted thrown =>
    change SettledAt j (s.emitted thrown)
    unfold emitted
    split
    · exact already
    · dsimp only
      split
      · exact already
      · exact settleKeeps (by exact already) _ _
  | reply n raw =>
    change SettledAt j (s.reply n raw)
    unfold reply
    split
    · exact already
    · split
      · exact already
      · exact settleKeeps already _ _
  | fire n =>
    change SettledAt j (s.fire n)
    unfold fire
    split
    · exact settleKeeps (by exact already) _ _
    · exact already
  | dispose =>
    change SettledAt j s.dispose
    unfold dispose
    split
    · exact already
    · exact (disposedAll s.pending (s := { s with disposed := true }) ⟨h.opened,h.closed,h.known⟩ (entriesThere h)).2.2.2 j already

theorem staysSettled (defaultTimeoutMs : Int) {s : Requests} (h : Sound s) {j : Nat} (already : SettledAt j s)
    (later : List RequestEvent) : (outcomesOf j (later.foldl (step defaultTimeoutMs) s)).length = 1 := by
  induction later generalizing s with
  | nil =>
    unfold SettledAt at already
    unfold outcomesOf
    rw [List.foldl_nil]
    cases at_ : s.promises[j]? with
    | none =>
      rw [at_] at already
      contradiction
    | some p =>
      rw [at_] at already
      exact (h.closed j p at_ already).1
  | cons e rest ih => exact ih (soundStep defaultTimeoutMs h e) (stepKeeps defaultTimeoutMs h already e)

theorem fireReaches {s : Requests} (h : Sound s) {n : Nat} (there : n < s.promises.length) : SettledAt n (s.fire n) := by
  by_cases timer : n ∈ s.timers
  · exact fireSettles h timer ▸ settleSettles there _
  · have at_ := List.getElem?_eq_getElem there
    cases settled : s.promises[n].settled with
    | false => exact absurd (h.opened n _ at_ settled).2 timer
    | true =>
      unfold fire
      rw [if_neg (by simpa using timer)]
      unfold SettledAt
      rw [at_]
      exact settled

/- As long as no id is drawn twice, the map has every open request. -/
def Listed (s : Requests) : Prop := (s.promises.map (·.requestId)).Nodup → ∀ n p, s.promises[n]? = some p →
  p.settled = false → s.disposed = false ∧ (p.requestId,n) ∈ s.pending

theorem sameNumber {s : Requests} (once : (s.promises.map (·.requestId)).Nodup) {n m : Nat} {p q : Pending}
    (first : s.promises[n]? = some p) (second : s.promises[m]? = some q) (same : p.requestId = q.requestId) : n = m := by
  have size := (List.getElem?_eq_some_iff.mp first).1
  refine (List.getElem?_inj (by simpa using size) once).mp ?_
  rw [List.getElem?_map,List.getElem?_map,first,second]
  exact congrArg some same

theorem listedSettle {s : Requests} (h : Listed s) (n : Nat) (outcome : Except LeafRuntimeError JsValue) :
    Listed (s.settle n outcome) := by
  unfold settle
  split
  · exact h
  · rename_i p at_
    split
    · exact h
    · intro once j q found open_
      change ((s.conclude n outcome).promises.map (·.requestId)).Nodup at once
      rw [concludedIds] at once
      rw [concludedAt] at found
      split at found
      · rename_i same
        rw [← same,at_] at found
        cases Option.some.inj found
        contradiction
      · rename_i other
        obtain ⟨live,inside⟩ := h once j q found open_
        refine ⟨live,List.mem_filter.mpr ⟨inside,decide_eq_true fun same => other ?_⟩⟩
        exact (sameNumber once found at_ same).symm

theorem listedRefuse {s : Requests} (h : Listed s) (requestId : JsString) (method : RuntimeRpcMethod)
    (error : LeafRuntimeError) : Listed (s.refuse requestId method error) := by
  intro once n p found open_
  unfold refuse at once
  rw [List.map_append] at once
  rcases addedAt found with old | ⟨_,rfl⟩
  · exact h once.of_append_left n p old open_
  · contradiction

theorem listedStep (defaultTimeoutMs : Int) {s : Requests} (sound : Sound s) (h : Listed s) (e : RequestEvent) :
    Listed (step defaultTimeoutMs s e) := by
  cases e with
  | request requestId method params timeoutMs =>
    change Listed (s.request defaultTimeoutMs requestId method params timeoutMs)
    unfold request
    split
    · exact listedRefuse h _ _ _
    · rename_i live
      split
      · exact listedRefuse h _ _ _
      · split
        · exact listedRefuse h _ _ _
        · split
          · exact listedRefuse h _ _ _
          · intro once n p found open_
            simp only [List.map_append,List.map_cons,List.map_nil] at once
            rcases addedAt found with old | ⟨rfl,rfl⟩
            · refine ⟨by simpa using live,List.mem_append_left _ (List.mem_filter.mpr ⟨?_,decide_eq_true fun same => ?_⟩)⟩
              · exact (h once.of_append_left n p old open_).2
              · have member := List.mem_map_of_mem (f := Pending.requestId) (List.mem_of_getElem? old)
                exact List.disjoint_of_nodup_append once member (List.mem_singleton.mpr same)
            · exact ⟨by simpa using live,List.mem_append_right _ List.mem_cons_self⟩
  | emitted thrown =>
    change Listed (s.emitted thrown)
    unfold emitted
    split
    · exact h
    · dsimp only
      split
      · exact h
      · exact listedSettle (by exact h) _ _
  | reply n raw =>
    change Listed (s.reply n raw)
    unfold reply
    split
    · exact h
    · split
      · exact h
      · exact listedSettle h _ _
  | fire n =>
    change Listed (s.fire n)
    unfold fire
    split
    · exact listedSettle (by exact h) _ _
    · exact h
  | dispose =>
    change Listed s.dispose
    unfold dispose
    split
    · exact h
    · obtain ⟨_,size,each,kept⟩ :=
        @disposedAll s.pending { s with disposed := true } ⟨sound.opened,sound.closed,sound.known⟩ (entriesThere sound)
      intro once n p found open_
      have ids := disposedIds s.pending { s with disposed := true }
      dsimp only at once found
      rw [ids] at once
      have after (settled : SettledAt n (s.pending.foldl disposeOne { s with disposed := true })) : False := by
        unfold SettledAt at settled
        rw [found,Option.any_some,open_] at settled
        contradiction
      have inside : n < s.promises.length := size ▸ (List.getElem?_eq_some_iff.mp found).1
      have at_ := List.getElem?_eq_getElem inside
      cases before : s.promises[n].settled with
      | true => exact (after (kept n (by unfold SettledAt; rw [at_]; exact before))).elim
      | false => exact (after (each _ (h once n _ at_ before).2)).elim

/- What ends a request that is open. -/
def Ends (s : Requests) (n : Nat) : RequestEvent → Prop
  | .request _ _ _ _ => False
  | .emitted thrown => thrown.isSome ∧ s.emitting.head? = some n
  | .reply m _ => m = n
  | .fire m => m = n
  | .dispose => (s.promises.map (·.requestId)).Nodup

theorem ended {defaultTimeoutMs : Int} {s : Requests} (sound : Sound s) (listed : Listed s) {n : Nat}
    (there : n < s.promises.length) {e : RequestEvent} (ends : Ends s n e) : SettledAt n (step defaultTimeoutMs s e) := by
  have at_ := List.getElem?_eq_getElem there
  cases e with
  | request requestId method params timeoutMs => exact ends.elim
  | emitted thrown =>
    obtain ⟨threw,top⟩ := ends
    obtain ⟨error,rfl⟩ := Option.isSome_iff_exists.mp threw
    obtain ⟨outer,shape⟩ := List.head?_eq_some_iff.mp top
    change SettledAt n (s.emitted (some error))
    unfold emitted
    rw [shape]
    exact settleSettles (by exact there) _
  | reply m raw =>
    obtain rfl : m = n := ends
    change SettledAt m (s.reply m raw)
    unfold reply
    rw [at_]
    dsimp only
    split
    · rename_i settled
      unfold SettledAt
      rw [at_]
      exact settled
    · exact settleSettles there _
  | fire m =>
    obtain rfl : m = n := ends
    exact fireReaches sound there
  | dispose =>
    have kept := stepKeeps defaultTimeoutMs sound (j := n) (e := .dispose)
    cases settled : s.promises[n].settled with
    | true => exact kept (by unfold SettledAt; rw [at_]; exact settled)
    | false =>
      obtain ⟨live,inside⟩ := listed ends n _ at_ settled
      change SettledAt n s.dispose
      unfold dispose
      rw [if_neg (by rw [live]; exact Bool.false_ne_true)]
      exact (disposedAll s.pending (s := { s with disposed := true }) ⟨sound.opened,sound.closed,sound.known⟩
        (entriesThere sound)).2.2.1 _ inside

/-- In every run a request has at most one outcome, and with it nothing of the request is left. A
reply, its timer, an emit that throws and, where no id was drawn twice, dispose give it one that stays. -/
theorem settlesOnce (defaultTimeoutMs : Int) (events : List RequestEvent) :
    let s := events.foldl (step defaultTimeoutMs) {}
    (∀ n p, s.promises[n]? = some p → p.outcomes.length ≤ 1 ∧ (p.outcomes = [] → n ∈ s.timers) ∧
      (p.outcomes ≠ [] → Gone n s)) ∧
    ∀ n < s.promises.length, ∀ e, Ends s n e → ∀ later : List RequestEvent,
      (outcomesOf n (later.foldl (step defaultTimeoutMs) (step defaultTimeoutMs s e))).length = 1 := by
  intro s
  have both : Sound s ∧ Listed s := runInvariant (I := fun s => Sound s ∧ Listed s)
    ⟨soundInitially,fun _ _ _ none_ => nomatch none_⟩
    (fun _ e h => ⟨soundStep defaultTimeoutMs h.1 e,listedStep defaultTimeoutMs h.1 h.2 e⟩) events
  obtain ⟨sound,listed⟩ := both
  refine ⟨fun n p found => ?_,fun n there e ends later => ?_⟩
  · cases settled : p.settled with
    | false =>
      have opened := sound.opened n p found settled
      exact ⟨by simp [opened.1],fun _ => opened.2,fun some_ => (some_ opened.1).elim⟩
    | true =>
      have one := (sound.closed n p found settled).1
      refine ⟨one.le,fun none_ => ?_,fun _ => sound.gone found settled⟩
      rw [none_] at one
      contradiction
  · exact staysSettled defaultTimeoutMs (soundStep defaultTimeoutMs sound e) (ended sound listed there ends) later

end Requests
end Northstar.Runtime
