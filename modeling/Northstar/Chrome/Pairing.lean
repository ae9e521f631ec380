import Northstar.Chrome.Bridge

/-! Who may register with the bridge. The origin of a registration is compared with the pin
before its body is read and not again when the body has come, so the pin may be set between
the two; polls and results are compared under a pin that no longer changes. -/
namespace Northstar.Chrome

def Answer.succeeded (a : Answer) : Bool := a.status = 200 || a.status = 204

namespace ChromeBridge

def disclosures (s : ChromeBridge) : Nat := s.answers.countP (·.disclosed)

/- The part of the state pairing is about. -/
structure View where
  pinned : Option JsString
  window : Bool
  arms : Nat
  polls : List NextWaiter
  results : List (Nat × JsString)
  answers : List Answer

def view (s : ChromeBridge) : View :=
  ⟨s.pinnedOrigin,s.pairingBootstrapOpen,s.arms,s.nextWaiters,s.resulting,s.answers⟩

/- An origin that was compared with the pin. -/
def Compared (s : ChromeBridge) (origin : JsString) : Prop :=
  (∃ next ∈ s.nextWaiters, next.origin = origin) ∨ (∃ entry ∈ s.resulting, entry.2 = origin) ∨
    s.pinnedOrigin = some origin

/- A step that leaves the pin and the window alone and discloses nothing. -/
structure Quiet (s t : ChromeBridge) : Prop where
  pinned : t.pinnedOrigin = s.pinnedOrigin
  window : t.pairingBootstrapOpen = s.pairingBootstrapOpen
  arms : t.arms = s.arms
  polls : ∀ next ∈ t.nextWaiters, Compared s next.origin
  results : ∀ entry ∈ t.resulting, Compared s entry.2
  answers : ∃ more, t.answers = s.answers ++ more ∧ ∀ a ∈ more, a.disclosed = false ∧
    (a.succeeded → a.pinned = s.pinnedOrigin ∧ ∃ origin, a.origin = some origin ∧ Compared s origin)

theorem quietView {s t : ChromeBridge} (same : view t = view s) : Quiet s t := by
  obtain ⟨pinned,window,arms,polls,results,answers⟩ := View.mk.inj same
  constructor
  · exact pinned
  · exact window
  · exact arms
  · exact fun next member => .inl ⟨next,polls ▸ member,rfl⟩
  · exact fun entry member => .inr (.inl ⟨entry,results ▸ member,rfl⟩)
  · exact ⟨[],by rw [answers,List.append_nil],by simp⟩

/- One more answer, to an origin that was compared or without success. -/
theorem quietAnswer {s t : ChromeBridge} (route : Route) (origin : Option JsString) (status : Nat)
    (h : Quiet s t) (fine : (⟨route,origin,none,status,false⟩ : Answer).succeeded →
      ∃ o, origin = some o ∧ Compared s o) : Quiet s (t.answer route origin status) := by
  obtain ⟨more,same,each⟩ := h.answers
  refine ⟨h.pinned,h.window,h.arms,h.polls,h.results,more ++ [⟨route,origin,t.pinnedOrigin,status,false⟩],?_,?_⟩
  · rw [answer,same,List.append_assoc]
  · intro a member
    cases List.mem_append.mp member with
    | inl old => exact each a old
    | inr new =>
      rw [List.mem_singleton.mp new]
      exact ⟨rfl,fun good => ⟨h.pinned,fine good⟩⟩

theorem viewTrim (s : ChromeBridge) : view s.trimRevokedIds = view s := by
  unfold trimRevokedIds
  split <;> rfl

theorem viewRevoke (id : JsString) (s : ChromeBridge) : view (s.revokeCommand id) = view s := by
  have dropped : view ((s.addRevoked id).trimRevokedIds.dropEverywhere id) = view s := viewTrim _
  unfold revokeCommand
  dsimp only
  split
  · exact dropped
  · exact dropped

theorem viewFold {α : Type} {f : ChromeBridge → α → ChromeBridge} (each : ∀ s a, view (f s a) = view s)
    (items : List α) (s : ChromeBridge) : view (items.foldl f s) = view s := by
  induction items generalizing s with
  | nil => rfl
  | cons a rest ih => exact (ih (f s a)).trans (each s a)

theorem viewRevokeAll (s : ChromeBridge) : view s.revokeAll = view s := by
  have queued := viewFold (f := fun s (command : Command) => addRevoked command.id s) (fun _ _ => rfl)
    (s.queues.flatMap (·.2)) s
  unfold revokeAll
  dsimp only
  refine (viewFold ?_ _ _).trans ((viewTrim _).trans queued)
  exact fun _ _ => rfl

theorem viewTimeout (id : JsString) (s : ChromeBridge) : view (s.commandTimeout id) = view s := by
  unfold commandTimeout
  split
  · rfl
  · exact viewTrim _

theorem viewClosed (id : JsString) (s : ChromeBridge) : view (s.commandClosed id) = view s := by
  unfold commandClosed
  split <;> rfl

theorem gated {config : BridgeConfig} {origin secret : Option JsString} {s : ChromeBridge}
    {presented : JsString} (h : s.gate config origin secret = some presented) :
    s.pinnedOrigin = some presented := by
  have kept := (Option.filter_eq_some_iff.mp h).2
  simp only [Bool.and_eq_true,decide_eq_true_eq] at kept
  exact kept.1

theorem quietRegister (origin : Option JsString) (s : ChromeBridge) : Quiet s (s.handleRegister origin) := by
  have same : Quiet s s := quietView rfl
  unfold handleRegister
  split
  · exact quietAnswer .register origin 403 same (fun good => nomatch good)
  split
  · exact quietAnswer .register origin 403 same (fun good => nomatch good)
  · exact quietView rfl

theorem quietEnqueue (command : Command) (s : ChromeBridge) : Quiet s (s.enqueue command) := by
  unfold enqueue
  dsimp only
  split
  · rename_i next found
    have polled : Compared s next.origin := .inl ⟨next,List.mem_of_find?_eq_some found,rfl⟩
    apply quietAnswer
    · refine ⟨rfl,rfl,rfl,?_,?_,[],by simp,by simp⟩
      · exact fun other member => .inl ⟨other,List.mem_of_mem_eraseP member,rfl⟩
      · exact fun entry member => .inr (.inl ⟨entry,member,rfl⟩)
    · exact fun _ => ⟨next.origin,rfl,polled⟩
  · exact quietView rfl

theorem quietCommand (config : BridgeConfig) (localCaller : Bool) (body : Body Command) (s : ChromeBridge) :
    Quiet s ((s.handleCommand config localCaller body).1.notePosted body) := by
  have noted (t : ChromeBridge) : view (t.notePosted body) = view t := by
    cases body <;> rfl
  have handled : Quiet s (s.handleCommand config localCaller body).1 := by
    unfold handleCommand
    split
    · exact quietView rfl
    cases body with
    | unread => exact quietView rfl
    | malformed => exact quietView rfl
    | parsed command =>
      dsimp only
      split
      · exact quietView rfl
      split
      · exact quietView rfl
      split
      · exact quietView rfl
      split
      · exact quietView rfl
      · have entered := quietEnqueue command
          { s with waiters := s.waiters ++ [command], accepted := s.accepted ++ [command] }
        exact ⟨entered.pinned,entered.window,entered.arms,entered.polls,entered.results,entered.answers⟩
  have last := View.mk.inj (noted (s.handleCommand config localCaller body).1)
  exact ⟨last.1 ▸ handled.pinned,last.2.1 ▸ handled.window,last.2.2.1 ▸ handled.arms,
    last.2.2.2.1 ▸ handled.polls,last.2.2.2.2.1 ▸ handled.results,last.2.2.2.2.2 ▸ handled.answers⟩

theorem viewEnter (claim : Option InstanceClaim) (now : Int) (s : ChromeBridge) :
    view (s.enterClaim claim now) = view s := by
  cases claim <;> rfl

theorem quietPoll (presented : JsString) (poller : Option JsString) (waitMs : Nat) (s : ChromeBridge)
    (pinned : Compared s presented) : Quiet s (s.pollAs presented poller waitMs) := by
  have same : Quiet s s := quietView rfl
  unfold pollAs
  split
  · apply quietAnswer
    · exact quietView rfl
    · exact fun _ => ⟨presented,rfl,pinned⟩
  split
  · exact quietAnswer .next (some presented) 204 same fun _ => ⟨presented,rfl,pinned⟩
  · refine ⟨rfl,rfl,rfl,?_,same.results,same.answers⟩
    intro next member
    cases List.mem_append.mp member with
    | inl old => exact same.polls next old
    | inr new => exact List.mem_singleton.mp new ▸ pinned

theorem quietBefore {s t u : ChromeBridge} (same : view t = view s) (h : Quiet t u) : Quiet s u := by
  obtain ⟨pinned,window,arms,polls,results,answers⟩ := View.mk.inj same
  have compared (origin : JsString) : Compared t origin → Compared s origin := by
    unfold Compared
    rw [pinned,polls,results]
    exact id
  obtain ⟨more,added,each⟩ := h.answers
  refine ⟨h.pinned.trans pinned,h.window.trans window,h.arms.trans arms,
    fun next member => compared _ (h.polls next member),
    fun entry member => compared _ (h.results entry member),more,by rw [added,answers],?_⟩
  intro a member
  obtain ⟨kept,fine⟩ := each a member
  refine ⟨kept,fun good => ?_⟩
  obtain ⟨under,origin,presented,seen⟩ := fine good
  exact ⟨under.trans pinned,origin,presented,compared origin seen⟩

theorem quietNext (config : BridgeConfig) (origin secret : Option JsString) (query : InstanceQuery)
    (waitMs : Nat) (now : Int) (s : ChromeBridge) :
    Quiet s (s.handleNext config origin secret query waitMs now) := by
  have same : Quiet s s := quietView rfl
  unfold handleNext
  split
  · exact quietAnswer .next origin 403 same (fun good => nomatch good)
  rename_i presented passed
  split
  · exact quietAnswer .next origin 400 same (fun good => nomatch good)
  rename_i claim _
  have entered := viewEnter claim now s
  have pinned := (View.mk.inj entered).1
  exact quietBefore entered (quietPoll presented _ waitMs _ (.inr (.inr (pinned.trans (gated passed)))))

theorem quietSettleNext (number : Nat) (keep : Bool) (s : ChromeBridge) : Quiet s (s.settleNext number keep) := by
  unfold settleNext
  split
  · exact quietView rfl
  rename_i next found
  have polled : Compared s next.origin := .inl ⟨next,List.mem_of_find?_eq_some found,rfl⟩
  have settled : ∀ w ∈ s.nextWaiters.map (fun w => if w.number = number then { w with settled := true } else w),
      Compared s w.origin := by
    intro w member
    obtain ⟨old,inside,rfl⟩ := List.mem_map.mp member
    refine .inl ⟨old,inside,?_⟩
    split <;> rfl
  apply quietAnswer
  · refine ⟨rfl,rfl,rfl,?_,?_,[],by simp,by simp⟩
    · intro w member
      dsimp only at member
      split at member
      · exact settled w member
      · exact settled w (List.mem_of_mem_filter member)
    · exact fun entry member => .inr (.inl ⟨entry,member,rfl⟩)
  · exact fun _ => ⟨next.origin,rfl,polled⟩

theorem quietResult (config : BridgeConfig) (origin secret : Option JsString) (query : InstanceQuery)
    (now : Int) (s : ChromeBridge) : Quiet s (s.handleResult config origin secret query now) := by
  unfold handleResult
  split
  · exact quietAnswer .result origin 403 (quietView rfl) (fun good => nomatch good)
  rename_i presented passed
  dsimp only
  have seen := quietView (viewEnter (parseBridgeInstanceQuery query).toOption.join now s)
  refine ⟨seen.pinned,seen.window,seen.arms,seen.polls,?_,seen.answers⟩
  intro entry member
  cases List.mem_append.mp member with
  | inl old => exact seen.results entry old
  | inr new => exact List.mem_singleton.mp new ▸ .inr (.inr (gated passed))

theorem quietResultBody (number : Nat) (body : Body CommandResult) (s : ChromeBridge) :
    Quiet s (s.resultBody number body) := by
  unfold resultBody
  split
  · exact quietView rfl
  rename_i presented found
  obtain ⟨before,after,entries,_⟩ := List.lookup_eq_some_iff.mp found
  have compared : Compared s presented := .inr (.inl ⟨(number,presented),by simp [entries],rfl⟩)
  have rest : Quiet s { s with resulting := s.resulting.filter fun entry => entry.1 ≠ number } :=
    ⟨rfl,rfl,rfl,fun next member => .inl ⟨next,member,rfl⟩,
      fun entry member => .inr (.inl ⟨entry,List.mem_of_mem_filter member,rfl⟩),[],by simp,by simp⟩
  have fine (status : Nat) : (⟨.result,some presented,none,status,false⟩ : Answer).succeeded →
      ∃ o, some presented = some o ∧ Compared s o := fun _ => ⟨presented,rfl,compared⟩
  dsimp only
  split
  · exact quietAnswer .result _ 413 rest (fine 413)
  · exact quietAnswer .result _ 400 rest (fine 400)
  · split
    · refine quietAnswer .result _ 200 ?_ (fine 200)
      exact ⟨rest.pinned,rest.window,rest.arms,rest.polls,rest.results,rest.answers⟩
    · refine quietAnswer .result _ 200 ?_ (fine 200)
      exact ⟨rest.pinned,rest.window,rest.arms,rest.polls,rest.results,rest.answers⟩

theorem quietStop (s : ChromeBridge) : Quiet s s.stop := by
  refine ⟨rfl,rfl,rfl,fun next member => (List.not_mem_nil member).elim,
    fun entry member => .inr (.inl ⟨entry,member,rfl⟩),_,rfl,?_⟩
  intro a member
  obtain ⟨next,open_,rfl⟩ := List.mem_map.mp member
  exact ⟨rfl,fun _ => ⟨rfl,next.origin,rfl,.inl ⟨next,List.mem_of_mem_filter open_,rfl⟩⟩⟩

/- The registration would be answered with success. -/
def accepts (config : BridgeConfig) (value : JsValue) (s : ChromeBridge) : Bool :=
  (parseBridgeInstanceClaim value).toOption.isSome && (s.pairingBootstrapOpen ||
    isPairingSecretAllowed (value.get "pairingSecret").asString config.pairingSecret)

/- A registration that will succeed presents the origin the pin has by now, if it has one. -/
def originsAgree (config : BridgeConfig) (s : ChromeBridge) : BridgeEvent → Bool
  | .registerBody number (.parsed value) _ => match s.registering.lookup number with
      | none => true
      | some presented => !s.accepts config value || s.pinnedOrigin.all (· = presented)
  | _ => true

/- What the body of a registration changes. -/
structure Entered (config : BridgeConfig) (number : Nat) (body : Body JsValue) (s t : ChromeBridge) : Prop where
  pinned : ∀ origin, s.pinnedOrigin = some origin → t.pinnedOrigin = some origin
  polls : t.nextWaiters = s.nextWaiters
  results : t.resulting = s.resulting
  arms : t.arms = s.arms
  answers : t.answers = s.answers ∧ t.pairingBootstrapOpen = s.pairingBootstrapOpen ∨
    ∃ presented a, s.registering.lookup number = some presented ∧ t.answers = s.answers ++ [a] ∧
      a.origin = some presented ∧ a.pinned = s.pinnedOrigin ∧
      (a.succeeded → ∃ value, body = .parsed value ∧ s.accepts config value) ∧
      (if a.disclosed then s.pairingBootstrapOpen = true ∧ t.pairingBootstrapOpen = false
        else t.pairingBootstrapOpen = s.pairingBootstrapOpen)

theorem bodyEntered (config : BridgeConfig) (number : Nat) (body : Body JsValue) (now : Int) (s : ChromeBridge) :
    Entered config number body s (s.registerBody config number body now) := by
  unfold registerBody
  split
  · exact ⟨fun _ same => same,rfl,rfl,rfl,.inl ⟨rfl,rfl⟩⟩
  rename_i presented found
  have refused (status : Nat) (bad : (⟨.register,some presented,s.pinnedOrigin,status,false⟩ : Answer).succeeded =
      false) : Entered config number body s (answer .register (some presented) status
        { s with registering := s.registering.filter fun entry => entry.1 ≠ number }) :=
    ⟨fun _ same => same,rfl,rfl,rfl,.inr ⟨presented,_,found,rfl,rfl,rfl,fun good => by
      rw [bad] at good
      contradiction,rfl⟩⟩
  dsimp only
  split
  · exact refused 413 rfl
  · exact refused 400 rfl
  rename_i value
  unfold registered
  split
  · exact refused 400 rfl
  rename_i claim parsed
  dsimp only
  split
  · exact refused 403 rfl
  rename_i allowed
  have accepted : s.accepts config value := by
    rw [accepts,parsed]
    cases window : s.pairingBootstrapOpen <;>
      cases secret : isPairingSecretAllowed (value.get "pairingSecret").asString config.pairingSecret <;>
      first | rfl | simp [window,secret] at allowed
  refine ⟨?_,rfl,rfl,rfl,.inr ⟨presented,_,found,rfl,rfl,rfl,fun _ => ⟨value,rfl,accepted⟩,?_⟩⟩
  · intro origin same
    simp [same]
  · cases window : s.pairingBootstrapOpen <;>
      cases secret : isPairingSecretAllowed (value.get "pairingSecret").asString config.pairingSecret <;>
      simp

structure Paired (s : ChromeBridge) : Prop where
  polls : ∀ next ∈ s.nextWaiters, s.pinnedOrigin = some next.origin
  results : ∀ entry ∈ s.resulting, s.pinnedOrigin = some entry.2
  answers : ∀ a ∈ s.answers, a.succeeded → ∀ origin, a.pinned = some origin → a.origin = some origin

theorem comparedPinned {s : ChromeBridge} (h : Paired s) {origin : JsString} (seen : Compared s origin) :
    s.pinnedOrigin = some origin := by
  rcases seen with ⟨next,member,rfl⟩ | ⟨entry,member,rfl⟩ | same
  · exact h.polls next member
  · exact h.results entry member
  · exact same

theorem pairedQuiet {s t : ChromeBridge} (h : Paired s) (quiet : Quiet s t) : Paired t := by
  constructor
  · exact fun next member => quiet.pinned.trans (comparedPinned h (quiet.polls next member))
  · exact fun entry member => quiet.pinned.trans (comparedPinned h (quiet.results entry member))
  · intro a member good origin under
    obtain ⟨more,added,each⟩ := quiet.answers
    rw [added] at member
    cases List.mem_append.mp member with
    | inl old => exact h.answers a old good origin under
    | inr new =>
      obtain ⟨same,presented,is_,seen⟩ := (each a new).2 good
      rw [is_,← under,same,comparedPinned h seen]

theorem pairedEntered {config : BridgeConfig} {number : Nat} {body : Body JsValue} {now : Int}
    {s t : ChromeBridge} (h : Paired s) (entered : Entered config number body s t)
    (agree : originsAgree config s (.registerBody number body now)) : Paired t := by
  constructor
  · exact fun next member => entered.pinned _ (h.polls next (entered.polls ▸ member))
  · exact fun entry member => entered.pinned _ (h.results entry (entered.results ▸ member))
  · intro a member good origin under
    cases entered.answers with
    | inl same => exact h.answers a (same.1 ▸ member) good origin under
    | inr added =>
      obtain ⟨presented,new,found,answers,is_,pinned,success,_⟩ := added
      rw [answers] at member
      cases List.mem_append.mp member with
      | inl old => exact h.answers a old good origin under
      | inr last =>
        rw [List.mem_singleton.mp last] at good under ⊢
        obtain ⟨value,rfl,accepted⟩ := success good
        rw [pinned] at under
        simp only [originsAgree,found,accepted,under] at agree
        rw [is_]
        have same : origin = presented := by simpa using agree
        rw [same]

theorem eventQuiet (config : BridgeConfig) (s : ChromeBridge) (e : BridgeEvent) :
    Quiet s (step config s e) ∨ (∃ number body now, e = .registerBody number body now) ∨ e = .arm ∨ e = .disarm := by
  cases e with
  | start => exact .inl (quietView rfl)
  | stop => exact .inl (quietStop s)
  | arm => exact .inr (.inr (.inl rfl))
  | disarm => exact .inr (.inr (.inr rfl))
  | register origin => exact .inl (quietRegister origin s)
  | registerBody number body now => exact .inr (.inl ⟨number,body,now,rfl⟩)
  | poll origin secret query waitMs now => exact .inl (quietNext config origin secret query waitMs now s)
  | pollTimeout number => exact .inl (quietSettleNext number true s)
  | pollClosed number => exact .inl (quietSettleNext number false s)
  | result origin secret query now => exact .inl (quietResult config origin secret query now s)
  | resultBody number body => exact .inl (quietResultBody number body s)
  | command localCaller body => exact .inl (quietCommand config localCaller body s)
  | commandTimeout id => exact .inl (quietView (viewTimeout id s))
  | commandClosed id => exact .inl (quietView (viewClosed id s))
  | revokeCommand id => exact .inl (quietView (viewRevoke id s))
  | revokeAll => exact .inl (quietView (viewRevokeAll s))
  | purge at_ => exact .inl (quietView rfl)

theorem pairedStep {config : BridgeConfig} {s : ChromeBridge} {e : BridgeEvent} (h : Paired s)
    (agree : originsAgree config s e) : Paired (step config s e) := by
  rcases eventQuiet config s e with quiet | ⟨number,body,now,rfl⟩ | rfl | rfl
  · exact pairedQuiet h quiet
  · exact pairedEntered h (bodyEntered config number body now s) agree
  · exact ⟨h.polls,h.results,h.answers⟩
  · exact ⟨h.polls,h.results,h.answers⟩

theorem pinnedStep {config : BridgeConfig} {s : ChromeBridge} (e : BridgeEvent) {origin : JsString}
    (pinned : s.pinnedOrigin = some origin) : (step config s e).pinnedOrigin = some origin := by
  rcases eventQuiet config s e with quiet | ⟨number,body,now,rfl⟩ | rfl | rfl
  · exact quiet.pinned.trans pinned
  · exact (bodyEntered config number body now s).pinned origin pinned
  · exact pinned
  · exact pinned

/- An open window has an arm call that no disclosure has used. -/
def Window (s : ChromeBridge) : Prop := disclosures s + s.pairingBootstrapOpen.toNat ≤ s.arms

theorem quietDisclosures {s t : ChromeBridge} (quiet : Quiet s t) : disclosures t = disclosures s := by
  obtain ⟨more,added,each⟩ := quiet.answers
  have none_ : more.countP (·.disclosed) = 0 :=
    List.countP_eq_zero.mpr fun a member => by rw [(each a member).1]; exact Bool.false_ne_true
  rw [disclosures,added,List.countP_append,none_]
  rfl

theorem enteredDisclosures {config : BridgeConfig} {number : Nat} {body : Body JsValue} {s t : ChromeBridge}
    (entered : Entered config number body s t) :
    disclosures t + t.pairingBootstrapOpen.toNat ≤ disclosures s + s.pairingBootstrapOpen.toNat ∧
      (s.pairingBootstrapOpen = false → disclosures t = disclosures s ∧ t.pairingBootstrapOpen = false) := by
  cases entered.answers with
  | inl same => simp [disclosures,same]
  | inr added =>
    obtain ⟨presented,a,_,answers,_,_,_,told⟩ := added
    rw [disclosures,answers,List.countP_append]
    cases secret : a.disclosed with
    | true =>
      rw [secret,if_pos rfl] at told
      simp [disclosures,secret,told]
    | false =>
      rw [secret] at told
      have same : t.pairingBootstrapOpen = s.pairingBootstrapOpen := told
      simp [disclosures,secret,same]

theorem windowStep (config : BridgeConfig) {s : ChromeBridge} (e : BridgeEvent) (h : Window s) :
    Window (step config s e) := by
  unfold Window at h ⊢
  rcases eventQuiet config s e with quiet | ⟨number,body,now,rfl⟩ | rfl | rfl
  · rw [quietDisclosures quiet,quiet.window,quiet.arms]
    exact h
  · have entered := bodyEntered config number body now s
    have fewer := (enteredDisclosures entered).1
    have arms := entered.arms
    simp only [step]
    omega
  · have open_ : (s.pairingBootstrapOpen || s.started).toNat ≤ 1 := Bool.toNat_le _
    simp only [step,armPairingBootstrap,disclosures] at h ⊢
    omega
  · simp only [step,disarmPairingBootstrap,disclosures,Bool.toNat_false] at h ⊢
    omega

/- With the window closed nothing is disclosed until the next arm call. -/
theorem closedRun (config : BridgeConfig) (s : ChromeBridge) (closed : s.pairingBootstrapOpen = false)
    (later : List BridgeEvent) (unarmed : BridgeEvent.arm ∉ later) :
    disclosures (later.foldl (step config) s) = disclosures s := by
  induction later generalizing s with
  | nil => rfl
  | cons e rest ih =>
    obtain ⟨other,rest'⟩ := not_or.mp (fun h => unarmed (List.mem_cons.mpr h))
    have kept : disclosures (step config s e) = disclosures s ∧ (step config s e).pairingBootstrapOpen = false := by
      rcases eventQuiet config s e with quiet | ⟨number,body,now,rfl⟩ | rfl | rfl
      · exact ⟨quietDisclosures quiet,quiet.window.trans closed⟩
      · exact (enteredDisclosures (bodyEntered config number body now s)).2 closed
      · exact (other rfl).elim
      · exact ⟨rfl,rfl⟩
    exact (ih _ kept.2 rest').trans kept.1

/-- The pin never changes, a secret is disclosed at most once for each arm call and never
after a disarm; and where every registration that succeeds presents the origin pinned by
then, no request of another origin succeeds. -/
theorem pairingOneShot (config : BridgeConfig) (extensionId : Option JsString) (events : List BridgeEvent)
    (agree : Meets (fun s e => originsAgree config s e) (step config) (start extensionId) events) :
    (∀ before later origin, events = before ++ later →
      (run config extensionId before).pinnedOrigin = some origin →
      (run config extensionId events).pinnedOrigin = some origin) ∧
    (∀ a ∈ (run config extensionId events).answers, a.succeeded →
      ∀ origin, a.pinned = some origin → a.origin = some origin) ∧
    disclosures (run config extensionId events) ≤ (run config extensionId events).arms ∧
    ∀ before later, events = before ++ .disarm :: later → BridgeEvent.arm ∉ later →
      disclosures (run config extensionId events) = disclosures (run config extensionId before) := by
  constructor
  · intro before later origin split_ pinned
    rw [split_,run,List.foldl_append]
    exact runInvariant (I := fun s : ChromeBridge => s.pinnedOrigin = some origin) pinned
      (fun s e kept => pinnedStep e kept) later
  constructor
  · have paired : Paired (start extensionId) := ⟨by simp [start],by simp [start],by simp [start]⟩
    exact (runUnder paired (fun s e kept fine => pairedStep kept fine) events agree).answers
  constructor
  · have window : Window (start extensionId) := Nat.le_refl _
    have kept := runInvariant window (fun s e kept => windowStep config e kept) events
    exact Nat.le_trans (Nat.le_add_right _ _) kept
  · intro before later split_ unarmed
    rw [split_,run,List.foldl_append,List.foldl_cons]
    exact closedRun config _ rfl later unarmed

def demoConfig : BridgeConfig := ⟨js "session-token",js "pairing-secret"⟩

def demoClaim (instanceId : String) (secret : JsValue) : JsValue := .object
  [(js "protocol",.number (.int 1)),(js "instanceId",.string (js instanceId)),
   (js "family",.string (js "chrome")),(js "version",.string (js "1.2.3")),(js "pairingSecret",secret)]

def demoOrigin (name : String) : Option JsString := some (extensionOriginForId (js name))

theorem pairedOnce : disclosures (run demoConfig none [.start,.arm,.register (demoOrigin "companion-a"),
    .registerBody 0 (.parsed (demoClaim "instance-a" .undefined)) 0]) = 1 ∧
    ∀ a ∈ (run demoConfig none [.start,.arm,.register (demoOrigin "companion-a"),
      .registerBody 0 (.parsed (demoClaim "instance-a" .undefined)) 0]).answers, a.succeeded →
      ∀ origin, a.pinned = some origin → a.origin = some origin :=
  ⟨by decide,(pairingOneShot demoConfig none _ (by decide)).2.1⟩

/- Two registrations pass the origin check before either is pinned; the second succeeds
under the first one's pin. -/
theorem otherOriginSucceeds : ¬ ∀ (config : BridgeConfig) (extensionId : Option JsString)
    (events : List BridgeEvent), ∀ a ∈ (run config extensionId events).answers, a.succeeded →
      ∀ origin, a.pinned = some origin → a.origin = some origin := by
  intro always
  have other : (run demoConfig none [.start,.register (demoOrigin "companion-a"),
      .register (demoOrigin "companion-b"),
      .registerBody 0 (.parsed (demoClaim "instance-a" (.string (js "pairing-secret")))) 0,
      .registerBody 1 (.parsed (demoClaim "instance-b" (.string (js "pairing-secret")))) 0]).answers[1]? =
        some ⟨.register,demoOrigin "companion-b",demoOrigin "companion-a",200,false⟩ := by
    decide
  have same := always _ _ _ _ (List.mem_of_getElem? other) rfl _ rfl
  exact absurd same (by decide)

end ChromeBridge
end Northstar.Chrome
