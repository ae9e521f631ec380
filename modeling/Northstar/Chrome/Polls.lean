import Northstar.Chrome.Pairing

/-! The long polls of the owner bridge and the list it keeps them in: which of them are still open is
written down beside a run, event by event, without a look at that list. -/
namespace Northstar.Chrome

inductive PollEnd where
  | answered
  | timedOut
  | closed
  | stopped
  deriving DecidableEq, Repr

structure Poll where
  number : Nat
  instanceId : Option JsString
  ended : Option PollEnd := none
  deriving DecidableEq, Repr

namespace Poll

def waiting (p : Poll) : Bool := p.ended.isNone

def endFirst (fits : Poll → Bool) (how : PollEnd) : List Poll → List Poll
  | [] => []
  | p :: rest => if fits p then { p with ended := some how } :: rest else p :: endFirst fits how rest

def endAll (fits : Poll → Bool) (how : PollEnd) (polls : List Poll) : List Poll :=
  polls.map fun p => if fits p then { p with ended := some how } else p

/- Who it is from. -/
def label (p : Poll) : Nat × Option JsString := (p.number,p.instanceId)

end Poll

namespace ChromeBridge

/- The poller of a poll that is let in and finds nothing queued. -/
def waits (config : BridgeConfig) (origin secret : Option JsString) (query : InstanceQuery) (waitMs : Nat) (now : Int)
    (s : ChromeBridge) : Option (Option JsString) := match s.gate config origin secret with
  | none => none
  | some _ => match parseBridgeInstanceQuery query with
      | .error _ => none
      | .ok claim =>
          let poller := claim.map (·.instanceId)
          if ((s.enterClaim claim now).queuedFor poller).isNone && waitMs ≠ 0 then some poller else none

/- The target of a command that is taken on. -/
def takenFor (config : BridgeConfig) (localCaller : Bool) (body : Body Command) (s : ChromeBridge) : Option JsString :=
  match (s.handleCommand config localCaller body).2,body with
  | .awaits,.parsed command => some command.targetInstanceId
  | _,_ => none

def notePolls (config : BridgeConfig) (s : ChromeBridge) (polls : List Poll) : BridgeEvent → List Poll
  | .poll origin secret query waitMs now => match s.waits config origin secret query waitMs now with
      | some poller => polls ++ [{ number := s.requests, instanceId := poller }]
      | none => polls
  | .command localCaller body => match s.takenFor config localCaller body with
      | some target => Poll.endFirst (fun p => p.waiting && p.instanceId = some target) .answered polls
      | none => polls
  | .pollTimeout number => Poll.endAll (fun p => p.waiting && p.number = number) .timedOut polls
  | .pollClosed number => Poll.endAll (fun p => p.waiting && p.number = number) .closed polls
  | .stop => Poll.endAll Poll.waiting .stopped polls
  | _ => polls

end ChromeBridge

/- A bridge and the polls it was ever waiting with. -/
structure PolledBridge where
  bridge : ChromeBridge
  polls : List Poll := []

namespace PolledBridge

def step (config : BridgeConfig) (s : PolledBridge) (event : BridgeEvent) : PolledBridge :=
  ⟨s.bridge.step config event,s.bridge.notePolls config s.polls event⟩

def run (config : BridgeConfig) (extensionId : Option JsString) (events : List BridgeEvent) : PolledBridge :=
  events.foldl (step config) { bridge := ChromeBridge.start extensionId }

theorem runBridge (config : BridgeConfig) (extensionId : Option JsString) (events : List BridgeEvent) :
    (run config extensionId events).bridge = ChromeBridge.run config extensionId events := by
  have all (events : List BridgeEvent) (s : PolledBridge) :
      (events.foldl (step config) s).bridge = events.foldl (ChromeBridge.step config) s.bridge := by
    induction events generalizing s with
    | nil => rfl
    | cons event rest ih => exact ih (s.step config event)
  exact all events _

def stillOpen (s : PolledBridge) : List Poll := s.polls.filter Poll.waiting

/- The list holds the open polls and nothing else. -/
structure OpenOnly (s : PolledBridge) : Prop where
  listed : s.bridge.nextWaiters.map NextWaiter.number = s.stillOpen.map Poll.number
  bounded : s.bridge.nextWaiters.length ≤ s.stillOpen.length

/- A timer fires at a poll that is still open. -/
def expires (s : PolledBridge) : BridgeEvent → Prop
  | .pollTimeout number => ∃ p ∈ s.stillOpen, p.number = number
  | _ => False

end PolledBridge

def NextWaiter.label (w : NextWaiter) : Nat × Option JsString := (w.number,w.instanceId)

def NextWaiter.waiting (w : NextWaiter) : Bool := !w.settled

theorem openAfterFirst (fits : Nat × Option JsString → Bool) (how : PollEnd) (polls : List Poll) :
    ((Poll.endFirst (fun p => p.waiting && fits p.label) how polls).filter Poll.waiting).map Poll.label =
      ((polls.filter Poll.waiting).map Poll.label).eraseP fits := by
  induction polls with
  | nil => rfl
  | cons p rest ih =>
    unfold Poll.endFirst
    cases here : p.waiting with
    | false => simpa [here] using ih
    | true => cases there : fits p.label with
      | true =>
        have over_ : ({ p with ended := some how } : Poll).waiting = false := rfl
        simp [here,there,over_]
      | false => simpa [here,there] using ih

theorem openAfterAll (fits : Nat × Option JsString → Bool) (how : PollEnd) (polls : List Poll) :
    ((Poll.endAll (fun p => p.waiting && fits p.label) how polls).filter Poll.waiting).map Poll.label =
      ((polls.filter Poll.waiting).map Poll.label).filter (fun l => !fits l) := by
  induction polls with
  | nil => rfl
  | cons p rest ih =>
    unfold Poll.endAll at ih ⊢
    cases here : p.waiting with
    | false => simpa [here] using ih
    | true => cases there : fits p.label with
      | true =>
        have over_ : ({ p with ended := some how } : Poll).waiting = false := rfl
        simpa [here,there,over_] using ih
      | false => simpa [here,there] using ih

theorem waitersErased (fits : Nat × Option JsString → Bool) (waiters : List NextWaiter) :
    ((waiters.eraseP fun w => w.waiting && fits w.label).filter NextWaiter.waiting).map NextWaiter.label =
      ((waiters.filter NextWaiter.waiting).map NextWaiter.label).eraseP fits := by
  induction waiters with
  | nil => rfl
  | cons w rest ih =>
    cases here : w.waiting with
    | false => simpa [here,List.eraseP_cons] using ih
    | true => cases there : fits w.label with
      | true => simp [here,there]
      | false => simpa [here,there,List.eraseP_cons] using ih

namespace PolledBridge
open ChromeBridge

def Agrees (waiters : List NextWaiter) (polls : List Poll) : Prop :=
  (waiters.filter NextWaiter.waiting).map NextWaiter.label = (polls.filter Poll.waiting).map Poll.label

theorem enqueueWaiters (command : Command) (s : ChromeBridge) : (s.enqueue command).nextWaiters =
    s.nextWaiters.eraseP fun w => w.waiting && decide (w.label.2 = some command.targetInstanceId) := by
  unfold enqueue
  dsimp only
  split
  · rfl
  · rename_i none_
    refine (List.eraseP_of_forall_not fun w member => ?_).symm
    exact List.find?_eq_none.mp none_ w member

theorem commandWaiters (config : BridgeConfig) (localCaller : Bool) (body : Body Command) (s : ChromeBridge) :
    ((s.handleCommand config localCaller body).1.notePosted body).nextWaiters = match s.takenFor config localCaller body with
      | some target => s.nextWaiters.eraseP fun w => w.waiting && decide (w.label.2 = some target)
      | none => s.nextWaiters := by
  have noted (t : ChromeBridge) : (t.notePosted body).nextWaiters = t.nextWaiters := by cases body <;> rfl
  rw [noted]
  unfold takenFor handleCommand
  split
  · rfl
  · cases body with
    | unread => rfl
    | malformed => rfl
    | parsed command =>
      dsimp only
      split
      · rfl
      · split
        · rfl
        · split
          · rfl
          · split
            · rfl
            · exact enqueueWaiters command _

theorem nextWaitersOf (config : BridgeConfig) (origin secret : Option JsString) (query : InstanceQuery) (waitMs : Nat) (now : Int)
    (s : ChromeBridge) : ∃ more, (s.handleNext config origin secret query waitMs now).nextWaiters = s.nextWaiters ++ more ∧
      (∀ w ∈ more, w.waiting = true) ∧
      more.map NextWaiter.label = ((s.waits config origin secret query waitMs now).map fun poller => (s.requests,poller)).toList := by
  unfold handleNext waits
  cases s.gate config origin secret with
  | none => exact ⟨[],(List.append_nil _).symm,nofun,rfl⟩
  | some presented =>
    dsimp only
    cases parseBridgeInstanceQuery query with
    | error _ => exact ⟨[],(List.append_nil _).symm,nofun,rfl⟩
    | ok claim =>
      have entered : (s.enterClaim claim now).nextWaiters = s.nextWaiters ∧ (s.enterClaim claim now).requests = s.requests := by
        cases claim <;> exact ⟨rfl,rfl⟩
      obtain ⟨waiters,requests⟩ := entered
      dsimp only
      unfold pollAs
      generalize s.enterClaim claim now = t at waiters requests ⊢
      cases t.queuedFor (claim.map (·.instanceId)) with
      | some queued => exact ⟨[],waiters.trans (List.append_nil _).symm,nofun,rfl⟩
      | none =>
        dsimp only
        by_cases soon : waitMs = 0
        · rw [if_pos soon,if_neg (by simp [soon])]
          exact ⟨[],waiters.trans (List.append_nil _).symm,nofun,rfl⟩
        · rw [if_neg soon,if_pos (by simp [soon])]
          refine ⟨[⟨t.requests,claim.map (·.instanceId),presented,false⟩],congrArg (· ++ _) waiters,fun w member => ?_,?_⟩
          · rw [List.mem_singleton.mp member]
            rfl
          · rw [← requests]
            rfl

/- Neither a poll nor the end of one, and no command. -/
def aside : BridgeEvent → Bool
  | .poll _ _ _ _ _ => false
  | .pollTimeout _ => false
  | .pollClosed _ => false
  | .command _ _ => false
  | .stop => false
  | _ => true

theorem otherWaiters (config : BridgeConfig) (s : ChromeBridge) {event : BridgeEvent} (other : aside event = true) :
    (s.step config event).nextWaiters = s.nextWaiters := by
  cases event with
  | start => rfl
  | stop => cases other
  | arm => rfl
  | disarm => rfl
  | register origin =>
    change (s.handleRegister origin).nextWaiters = _
    unfold handleRegister
    split
    · rfl
    · split <;> rfl
  | registerBody number body now => exact (bodyEntered config number body now s).polls
  | poll origin secret query waitMs now => cases other
  | pollTimeout number => cases other
  | pollClosed number => cases other
  | result origin secret query now =>
    change (s.handleResult config origin secret query now).nextWaiters = _
    unfold handleResult
    split
    · rfl
    · exact (View.mk.inj (viewEnter (parseBridgeInstanceQuery query).toOption.join now s)).2.2.2.1
  | resultBody number body =>
    change (s.resultBody number body).nextWaiters = _
    unfold resultBody
    split
    · rfl
    · dsimp only
      split
      · rfl
      · rfl
      · split <;> rfl
  | command localCaller body => cases other
  | commandTimeout id => exact (View.mk.inj (viewTimeout id s)).2.2.2.1
  | commandClosed id => exact (View.mk.inj (viewClosed id s)).2.2.2.1
  | revokeCommand id => exact (View.mk.inj (viewRevoke id s)).2.2.2.1
  | revokeAll => exact (View.mk.inj (viewRevokeAll s)).2.2.2.1
  | purge at_ => rfl

/- A poll that ends by its timer stays in the list, one that is closed leaves it. -/
theorem settledWaiters (number : Nat) (keep : Bool) (s : ChromeBridge) :
    ((s.settleNext number keep).nextWaiters.filter NextWaiter.waiting).map NextWaiter.label =
      ((s.nextWaiters.filter NextWaiter.waiting).map NextWaiter.label).filter fun l => !decide (l.1 = number) := by
  unfold settleNext
  split
  · rename_i none_
    refine (List.filter_eq_self.mpr fun l member => ?_).symm
    obtain ⟨w,waiting,rfl⟩ := List.mem_map.mp member
    obtain ⟨there,open_⟩ := List.mem_filter.mp waiting
    cases same : decide (w.label.1 = number) with
    | false => rfl
    | true => exact absurd (Bool.and_eq_true_iff.mpr ⟨same,open_⟩) (List.find?_eq_none.mp none_ w there)
  · dsimp only
    change List.map NextWaiter.label (List.filter NextWaiter.waiting (if keep = true then _ else _)) = _
    generalize s.nextWaiters = waiters
    have settled : (((waiters.map fun w => if w.number = number then { w with settled := true } else w).filter NextWaiter.waiting).map
        NextWaiter.label) = ((waiters.filter NextWaiter.waiting).map NextWaiter.label).filter fun l => !decide (l.1 = number) := by
      induction waiters with
      | nil => rfl
      | cons w rest ih =>
        rw [List.map_cons]
        by_cases same : w.number = number
        · have over_ : ({ w with settled := true } : NextWaiter).waiting = false := rfl
          rw [if_pos same,List.filter_cons_of_neg (by simp [over_]),ih]
          cases open_ : w.waiting <;> simp [open_,NextWaiter.label,same]
        · rw [if_neg same]
          cases open_ : w.waiting <;> simpa [open_,NextWaiter.label,same] using ih
    split
    · exact settled
    · rw [← settled,List.filter_filter]
      refine congrArg (List.map NextWaiter.label) (List.filter_congr fun w member => ?_)
      obtain ⟨old,-,rfl⟩ := List.mem_map.mp member
      by_cases same : old.number = number
      · rw [if_pos same]
        rfl
      · rw [if_neg same]
        simp [same]

theorem agreesStep (config : BridgeConfig) {s : PolledBridge} (h : Agrees s.bridge.nextWaiters s.polls) (event : BridgeEvent) :
    Agrees (s.step config event).bridge.nextWaiters (s.step config event).polls := by
  have quiet (other : aside event = true) (same : s.bridge.notePolls config s.polls event = s.polls) :
      Agrees (s.step config event).bridge.nextWaiters (s.step config event).polls := by
    unfold step
    rw [otherWaiters config s.bridge other,same]
    exact h
  have ended (number : Nat) (keep : Bool) (how : PollEnd) :
      Agrees (s.bridge.settleNext number keep).nextWaiters (Poll.endAll (fun p => p.waiting && p.number = number) how s.polls) :=
    (settledWaiters number keep s.bridge).trans
      ((congrArg (List.filter fun l => !decide (l.1 = number)) h).trans (openAfterAll (fun l => l.1 = number) how s.polls).symm)
  cases event with
  | poll origin secret query waitMs now =>
    obtain ⟨more,listed,open_,labels⟩ := nextWaitersOf config origin secret query waitMs now s.bridge
    change Agrees (s.bridge.handleNext config origin secret query waitMs now).nextWaiters (match s.bridge.waits config origin secret query waitMs now with
      | some poller => s.polls ++ [{ number := s.bridge.requests, instanceId := poller }]
      | none => s.polls)
    unfold Agrees at h ⊢
    rw [listed,List.filter_append,List.map_append,List.filter_eq_self.mpr open_,labels,h]
    cases s.bridge.waits config origin secret query waitMs now with
    | none => exact List.append_nil _
    | some poller =>
      rw [List.filter_append,List.map_append]
      rfl
  | pollTimeout number => exact ended number true .timedOut
  | pollClosed number => exact ended number false .closed
  | command localCaller body =>
    change Agrees ((s.bridge.handleCommand config localCaller body).1.notePosted body).nextWaiters
      (match s.bridge.takenFor config localCaller body with
      | some target => Poll.endFirst (fun p => p.waiting && p.instanceId = some target) .answered s.polls
      | none => s.polls)
    rw [commandWaiters]
    cases s.bridge.takenFor config localCaller body with
    | none => exact h
    | some target =>
      exact (waitersErased (fun l => l.2 = some target) s.bridge.nextWaiters).trans
        ((congrArg (List.eraseP fun l => decide (l.2 = some target)) h).trans
          (openAfterFirst (fun l => l.2 = some target) .answered s.polls).symm)
  | stop =>
    refine Eq.symm ((congrArg (List.map Poll.label) (List.filter_eq_nil_iff.mpr fun p member => ?_)))
    obtain ⟨old,-,rfl⟩ := List.mem_map.mp member
    by_cases open_ : old.waiting = true
    · rw [if_pos open_]
      exact nofun
    · rw [if_neg open_]
      exact open_
  | start => exact quiet rfl rfl
  | arm => exact quiet rfl rfl
  | disarm => exact quiet rfl rfl
  | register origin => exact quiet rfl rfl
  | registerBody number body now => exact quiet rfl rfl
  | result origin secret query now => exact quiet rfl rfl
  | resultBody number body => exact quiet rfl rfl
  | commandTimeout id => exact quiet rfl rfl
  | commandClosed id => exact quiet rfl rfl
  | revokeCommand id => exact quiet rfl rfl
  | revokeAll => exact quiet rfl rfl
  | purge at_ => exact quiet rfl rfl

/- Every entry of the list is an open poll just when the list is exactly the open polls. -/
theorem openAll {s : PolledBridge} (h : Agrees s.bridge.nextWaiters s.polls) :
    s.OpenOnly ↔ ∀ w ∈ s.bridge.nextWaiters, w.waiting = true := by
  have sizes := congrArg List.length h
  rw [List.length_map,List.length_map] at sizes
  constructor
  · intro only
    refine List.filter_eq_self.mp (List.filter_sublist.eq_of_length_le ?_)
    rw [sizes]
    exact only.bounded
  · intro all
    have whole := List.filter_eq_self.mpr all
    unfold Agrees at h
    rw [whole] at h sizes
    have numbers := congrArg (List.map Prod.fst) h
    rw [List.map_map,List.map_map] at numbers
    exact ⟨numbers,sizes.le⟩

theorem openStep (config : BridgeConfig) {s : PolledBridge} (h : Agrees s.bridge.nextWaiters s.polls)
    (all : ∀ w ∈ s.bridge.nextWaiters, w.waiting = true) (event : BridgeEvent) :
    (∀ w ∈ (s.step config event).bridge.nextWaiters, w.waiting = true) ↔ ¬ s.expires event := by
  have unmoved (same : (s.bridge.step config event).nextWaiters = s.bridge.nextWaiters) :
      ∀ w ∈ (s.step config event).bridge.nextWaiters, w.waiting = true := fun w member => all w (same ▸ member)
  have other (quiet : aside event = true) : ∀ w ∈ (s.step config event).bridge.nextWaiters, w.waiting = true := unmoved (otherWaiters config s.bridge quiet)
  cases event with
  | poll origin secret query waitMs now =>
    refine iff_of_true (fun w member => ?_) id
    obtain ⟨more,listed,open_,-⟩ := nextWaitersOf config origin secret query waitMs now s.bridge
    rcases List.mem_append.mp (listed ▸ member : w ∈ s.bridge.nextWaiters ++ more) with old | new
    · exact all w old
    · exact open_ w new
  | command localCaller body =>
    refine iff_of_true (fun w member => ?_) id
    have listed := commandWaiters config localCaller body s.bridge
    refine all w ?_
    change w ∈ ((s.bridge.handleCommand config localCaller body).1.notePosted body).nextWaiters at member
    rw [listed] at member
    cases target : s.bridge.takenFor config localCaller body with
    | none => rw [target] at member; exact member
    | some target_ => rw [target] at member; exact List.eraseP_sublist.subset member
  | pollTimeout number =>
    change (∀ w ∈ (s.bridge.settleNext number true).nextWaiters, w.waiting = true) ↔ ¬ ∃ p ∈ s.stillOpen, p.number = number
    have found : (∃ p ∈ s.stillOpen, p.number = number) ↔ ∃ w ∈ s.bridge.nextWaiters, w.number = number := by
      have labels : (s.bridge.nextWaiters.map NextWaiter.label) = s.stillOpen.map Poll.label := by
        unfold Agrees at h
        rwa [List.filter_eq_self.mpr all] at h
      constructor
      · rintro ⟨p,member,rfl⟩
        have there : p.label ∈ s.bridge.nextWaiters.map NextWaiter.label := labels ▸ List.mem_map_of_mem member
        obtain ⟨w,inside,same⟩ := List.mem_map.mp there
        exact ⟨w,inside,congrArg Prod.fst same⟩
      · rintro ⟨w,member,rfl⟩
        have there : w.label ∈ s.stillOpen.map Poll.label := labels ▸ List.mem_map_of_mem member
        obtain ⟨p,inside,same⟩ := List.mem_map.mp there
        exact ⟨p,inside,congrArg Prod.fst same⟩
    rw [found]
    unfold settleNext
    split
    · rename_i none_
      refine iff_of_true all fun ⟨w,member,same⟩ => ?_
      exact List.find?_eq_none.mp none_ w member (Bool.and_eq_true_iff.mpr ⟨decide_eq_true same,all w member⟩)
    · rename_i next there
      have member := List.mem_of_find?_eq_some there
      have number_ : next.number = number := of_decide_eq_true (Bool.and_eq_true_iff.mp
        (List.find?_some (p := fun w : NextWaiter => decide (w.number = number) && !w.settled) there)).1
      refine iff_of_false (fun open_ => ?_) (not_not.mpr ⟨next,member,number_⟩)
      have stays : ({ next with settled := true } : NextWaiter) ∈
          s.bridge.nextWaiters.map fun w => if w.number = number then { w with settled := true } else w :=
        List.mem_map.mpr ⟨next,member,if_pos number_⟩
      exact absurd (open_ _ stays) nofun
  | pollClosed number =>
    refine iff_of_true (fun w member => ?_) id
    change w ∈ (s.bridge.settleNext number false).nextWaiters at member
    unfold settleNext at member
    split at member
    · exact all w member
    · obtain ⟨moved,apart⟩ := List.mem_filter.mp member
      obtain ⟨old,inside,rfl⟩ := List.mem_map.mp moved
      by_cases same : old.number = number
      · rw [if_pos same] at apart
        exact absurd same (of_decide_eq_true apart)
      · rw [if_neg same]
        exact all old inside
  | stop => exact iff_of_true nofun id
  | start => exact iff_of_true (other rfl) id
  | arm => exact iff_of_true (other rfl) id
  | disarm => exact iff_of_true (other rfl) id
  | register origin => exact iff_of_true (other rfl) id
  | registerBody number body now => exact iff_of_true (other rfl) id
  | result origin secret query now => exact iff_of_true (other rfl) id
  | resultBody number body => exact iff_of_true (other rfl) id
  | commandTimeout id_ => exact iff_of_true (other rfl) id
  | commandClosed id_ => exact iff_of_true (other rfl) id
  | revokeCommand id_ => exact iff_of_true (other rfl) id
  | revokeAll => exact iff_of_true (other rfl) id
  | purge at_ => exact iff_of_true (other rfl) id

theorem runAgrees (config : BridgeConfig) (extensionId : Option JsString) (events : List BridgeEvent) :
    Agrees (run config extensionId events).bridge.nextWaiters (run config extensionId events).polls := by
  have all (events : List BridgeEvent) {s : PolledBridge} (h : Agrees s.bridge.nextWaiters s.polls) :
      Agrees (events.foldl (step config) s).bridge.nextWaiters (events.foldl (step config) s).polls := by
    induction events generalizing s with
    | nil => exact h
    | cons event rest ih => exact ih (agreesStep config h event)
  exact all events rfl

/-- In a run the list is exactly the open polls, at every point, just when no timer fires at a poll that is still open. -/
theorem openExactly (config : BridgeConfig) (extensionId : Option JsString) (events : List BridgeEvent) :
    (∀ before, before <+: events → (run config extensionId before).OpenOnly) ↔
      ∀ before event, before ++ [event] <+: events → ¬ (run config extensionId before).expires event := by
  have next (before : List BridgeEvent) (event : BridgeEvent) :
      run config extensionId (before ++ [event]) = (run config extensionId before).step config event :=
    List.foldl_concat _ _ _ _
  constructor
  · intro only before event part
    have here := (openAll (runAgrees config extensionId before)).mp (only before ((List.prefix_append _ _).trans part))
    have after_ := (openAll (runAgrees config extensionId _)).mp (only (before ++ [event]) part)
    rw [next] at after_
    exact (openStep config (runAgrees config extensionId before) here event).mp after_
  · intro quiet before part
    refine (openAll (runAgrees config extensionId before)).mpr ?_
    induction before using List.reverseRecOn with
    | nil => exact nofun
    | append_singleton before event ih =>
      have here := ih ((List.prefix_append _ _).trans part)
      rw [next]
      exact (openStep config (runAgrees config extensionId before) here event).mpr (quiet before event part)

def pollingConfig : BridgeConfig := ⟨js "session",js "pairing-secret"⟩

def expiringPoll : List BridgeEvent :=
  [.poll (some (js "chrome-extension://abcd")) (some (js "pairing-secret")) {} 1000 0,.pollTimeout 0]

theorem expiredListed : ¬ ∀ before, before <+: expiringPoll → (run pollingConfig (some (js "abcd")) before).OpenOnly := by
  intro only
  have bounded := (only expiringPoll (List.prefix_refl _)).bounded
  exact absurd bounded (by decide)

end PolledBridge
end Northstar.Chrome
