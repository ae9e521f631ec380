import Northstar.Chrome.Pairing
import Northstar.Encoding

/-! How long a revoked command id is remembered. The set of revoked ids is emptied in the
step that takes it past its bound; until then an id in it is refused. -/
namespace Northstar.Chrome
namespace ChromeBridge

/- The ids an event revokes or times out. -/
def revokes (s : ChromeBridge) : BridgeEvent → List JsString
  | .revokeCommand id => [id]
  | .revokeAll => (s.queues.flatMap (·.2)).map (·.id) ++ s.waiters.map (·.id)
  | .commandTimeout id => if s.waiters.any fun c => c.id = id then [id] else []
  | _ => []

/- A step that forgets no id. -/
structure Keeps (s t : ChromeBridge) : Prop where
  clears : t.clears = s.clears
  ids : ∀ id ∈ s.revokedIds, id ∈ t.revokedIds

/- Ids are forgotten only where the set is emptied. -/
structure Remembers (s t : ChromeBridge) : Prop where
  clears : s.clears ≤ t.clears
  ids : t.clears = s.clears → ∀ id ∈ s.revokedIds, id ∈ t.revokedIds

theorem keepsSame {s t : ChromeBridge} (clears : t.clears = s.clears) (ids : t.revokedIds = s.revokedIds) :
    Keeps s t :=
  ⟨clears,fun _ member => ids ▸ member⟩

theorem keepsTrans {s t u : ChromeBridge} (first : Keeps s t) (second : Keeps t u) : Keeps s u :=
  ⟨second.clears.trans first.clears,fun id member => second.ids id (first.ids id member)⟩

theorem remembersKeeps {s t : ChromeBridge} (h : Keeps s t) : Remembers s t :=
  ⟨Nat.le_of_eq h.clears.symm,fun _ => h.ids⟩

theorem remembersTrans {s t u : ChromeBridge} (first : Remembers s t) (second : Remembers t u) :
    Remembers s u := by
  constructor
  · exact Nat.le_trans first.clears second.clears
  · intro same id member
    have middle : t.clears = s.clears := Nat.le_antisymm (same ▸ second.clears) first.clears
    exact second.ids (same.trans middle.symm) id (first.ids middle id member)

theorem addedRevoked (id : JsString) (s : ChromeBridge) :
    Keeps s (s.addRevoked id) ∧ id ∈ (s.addRevoked id).revokedIds ∧
      (s.addRevoked id).revokedIds.length ≤ s.revokedIds.length + 1 := by
  unfold addRevoked
  dsimp only
  split
  · rename_i known
    exact ⟨keepsSame rfl rfl,List.contains_iff_mem.mp known,Nat.le_succ _⟩
  · exact ⟨⟨rfl,fun other member => List.mem_append_left _ member⟩,
      List.mem_append_right _ (List.mem_singleton_self id),by simp⟩

theorem trimmedRevoked (s : ChromeBridge) : Remembers s s.trimRevokedIds ∧
    (s.trimRevokedIds.clears ≠ s.clears → maxRevokedIds < s.revokedIds.length) := by
  unfold trimRevokedIds
  split
  · exact ⟨remembersKeeps (keepsSame rfl rfl),fun changed => absurd rfl changed⟩
  · rename_i over_
    exact ⟨⟨Nat.le_succ _,fun same => absurd same (Nat.succ_ne_self _)⟩,fun _ => Nat.lt_of_not_le over_⟩

/- Adding the ids of a list, one by one. -/
theorem addedAll (f : ChromeBridge → Command → ChromeBridge) (each : ∀ s c, Keeps s (f s c) ∧
      c.id ∈ (f s c).revokedIds ∧ (f s c).revokedIds.length ≤ s.revokedIds.length + 1)
    (items : List Command) (s : ChromeBridge) : Keeps s (items.foldl f s) ∧
      (∀ c ∈ items, c.id ∈ (items.foldl f s).revokedIds) ∧
      (items.foldl f s).revokedIds.length ≤ s.revokedIds.length + items.length := by
  induction items generalizing s with
  | nil => exact ⟨keepsSame rfl rfl,fun c member => (List.not_mem_nil member).elim,Nat.le_refl _⟩
  | cons c rest ih =>
    obtain ⟨first,noted,more⟩ := each s c
    obtain ⟨later,others,size⟩ := ih (f s c)
    refine ⟨keepsTrans first later,fun other member => ?_,?_⟩
    · cases List.mem_cons.mp member with
      | inl here => exact later.ids _ (here ▸ noted)
      | inr inside => exact others other inside
    · rw [List.foldl_cons,List.length_cons]
      omega

theorem sameEnqueue (command : Command) (s : ChromeBridge) : Keeps s (s.enqueue command) := by
  unfold enqueue
  dsimp only
  split <;> exact keepsSame rfl rfl

theorem sameCommand (config : BridgeConfig) (localCaller : Bool) (body : Body Command) (s : ChromeBridge) :
    Keeps s ((s.handleCommand config localCaller body).1.notePosted body) := by
  have noted (t : ChromeBridge) : Keeps t (t.notePosted body) := by
    cases body <;> exact keepsSame rfl rfl
  refine keepsTrans ?_ (noted _)
  unfold handleCommand
  split
  · exact keepsSame rfl rfl
  split
  · exact keepsSame rfl rfl
  · exact keepsSame rfl rfl
  rename_i command
  split
  · exact keepsSame rfl rfl
  split
  · exact keepsSame rfl rfl
  split
  · exact keepsSame rfl rfl
  split
  · exact keepsSame rfl rfl
  · have entered := sameEnqueue command
      { s with waiters := s.waiters ++ [command], accepted := s.accepted ++ [command] }
    exact ⟨entered.clears,entered.ids⟩

theorem sameNext (config : BridgeConfig) (origin secret : Option JsString) (query : InstanceQuery)
    (waitMs : Nat) (now : Int) (s : ChromeBridge) :
    Keeps s (s.handleNext config origin secret query waitMs now) := by
  have entered (claim : Option InstanceClaim) : Keeps s (s.enterClaim claim now) := by
    cases claim <;> exact keepsSame rfl rfl
  have polled (presented : JsString) (poller : Option JsString) (t : ChromeBridge) :
      Keeps t (t.pollAs presented poller waitMs) := by
    unfold pollAs
    split
    · exact keepsSame rfl rfl
    split <;> exact keepsSame rfl rfl
  unfold handleNext
  split
  · exact keepsSame rfl rfl
  split
  · exact keepsSame rfl rfl
  · exact keepsTrans (entered _) (polled _ _ _)

theorem sameRegisterBody (config : BridgeConfig) (number : Nat) (body : Body JsValue) (now : Int)
    (s : ChromeBridge) : Keeps s (s.registerBody config number body now) := by
  have entered (presented : JsString) (value : JsValue) (t : ChromeBridge) :
      Keeps t (t.registered config presented value now) := by
    unfold registered
    split
    · exact keepsSame rfl rfl
    dsimp only
    split <;> exact keepsSame rfl rfl
  unfold registerBody
  split
  · exact keepsSame rfl rfl
  dsimp only
  split
  · exact keepsSame rfl rfl
  · exact keepsSame rfl rfl
  · refine keepsTrans ?_ (entered _ _ _)
    exact keepsSame rfl rfl

theorem keptResultBody (number : Nat) (body : Body CommandResult) (s : ChromeBridge) :
    Keeps s (s.resultBody number body) := by
  unfold resultBody
  split
  · exact keepsSame rfl rfl
  dsimp only
  split
  · exact keepsSame rfl rfl
  · exact keepsSame rfl rfl
  rename_i result
  split
  · have added := (addedRevoked result.id
      { s with resulting := s.resulting.filter fun entry => entry.1 ≠ number }).1
    exact ⟨added.clears,added.ids⟩
  · exact keepsSame rfl rfl

/- What an event that revokes does to the set: nothing is forgotten and all it revokes is
remembered unless the set is emptied, which takes more ids than the bound. -/
structure Revoked (s : ChromeBridge) (e : BridgeEvent) (t : ChromeBridge) : Prop where
  remembers : Remembers s t
  noted : t.clears = s.clears → ∀ id ∈ revokes s e, id ∈ t.revokedIds
  emptied : t.clears ≠ s.clears → maxRevokedIds < s.revokedIds.length + (revokes s e).length

theorem revokedTimeout (id : JsString) (s : ChromeBridge) :
    Revoked s (.commandTimeout id) (s.commandTimeout id) := by
  unfold commandTimeout
  split
  · rename_i none_
    have waits : (s.waiters.any fun c => c.id = id) = false := by
      rw [List.any_eq_false]
      exact List.find?_eq_none.mp none_
    refine ⟨remembersKeeps (keepsSame rfl rfl),fun _ other member => ?_,fun changed => absurd rfl changed⟩
    simp [revokes,waits] at member
  · rename_i command found
    have same := List.find?_some found
    have waits : (s.waiters.any fun c => c.id = id) = true :=
      List.any_eq_true.mpr ⟨command,List.mem_of_find?_eq_some found,same⟩
    have only : revokes s (.commandTimeout id) = [id] := if_pos waits
    obtain ⟨added,noted,more⟩ := addedRevoked id ((s.settleWaiter id .timedOut).dropFrom command.targetInstanceId id)
    obtain ⟨trimmed,emptied⟩ :=
      trimmedRevoked (((s.settleWaiter id .timedOut).dropFrom command.targetInstanceId id).addRevoked id)
    have kept := remembersTrans (remembersKeeps added) trimmed
    refine ⟨⟨kept.clears,kept.ids⟩,fun same other member => ?_,fun changed => ?_⟩
    · rw [only] at member
      rw [List.mem_singleton.mp member]
      exact trimmed.ids same id noted
    · rw [only]
      exact Nat.lt_of_lt_of_le (emptied changed) more

theorem revokedCommand (id : JsString) (s : ChromeBridge) :
    Revoked s (.revokeCommand id) (s.revokeCommand id) := by
  obtain ⟨added,noted,more⟩ := addedRevoked id s
  obtain ⟨trimmed,emptied⟩ := trimmedRevoked (s.addRevoked id)
  have kept := remembersTrans (remembersKeeps added) trimmed
  have all : Revoked s (.revokeCommand id) (s.addRevoked id).trimRevokedIds := by
    refine ⟨kept,fun same other member => ?_,fun changed => Nat.lt_of_lt_of_le (emptied changed) more⟩
    rw [List.mem_singleton.mp member]
    exact trimmed.ids same id noted
  unfold revokeCommand
  dsimp only
  split
  · exact ⟨⟨all.remembers.clears,all.remembers.ids⟩,all.noted,all.emptied⟩
  · exact ⟨⟨all.remembers.clears,all.remembers.ids⟩,all.noted,all.emptied⟩

def queuedRevoked (s : ChromeBridge) : ChromeBridge :=
  (s.queues.flatMap (·.2)).foldl (fun s command => addRevoked command.id s) s

theorem waitersKept (s : ChromeBridge) :
    ({ s.queuedRevoked with queues := [] } : ChromeBridge).trimRevokedIds.waiters = s.waiters := by
  have fold (items : List Command) (t : ChromeBridge) :
      (items.foldl (fun s command => addRevoked command.id s) t).waiters = t.waiters := by
    induction items generalizing t with
    | nil => rfl
    | cons c rest ih => exact ih _
  unfold trimRevokedIds
  split <;> exact fold _ s

theorem revokedAll (s : ChromeBridge) : Revoked s .revokeAll s.revokeAll := by
  obtain ⟨added,queued,more⟩ := addedAll (fun s command => addRevoked command.id s)
    (fun t c => addedRevoked c.id t) (s.queues.flatMap (·.2)) s
  obtain ⟨trimmed,emptied⟩ := trimmedRevoked { s.queuedRevoked with queues := [] }
  have first := remembersTrans (remembersKeeps added) ⟨trimmed.clears,trimmed.ids⟩
  have waiters := waitersKept s
  have all : s.revokeAll = (({ s.queuedRevoked with queues := [] } : ChromeBridge).trimRevokedIds.waiters).foldl
      (fun s command => (s.settleWaiter command.id .revoked).addRevoked command.id)
      ({ s.queuedRevoked with queues := [] } : ChromeBridge).trimRevokedIds := rfl
  rw [waiters] at all
  generalize ({ s.queuedRevoked with queues := [] } : ChromeBridge).trimRevokedIds = t at *
  obtain ⟨last,noted,_⟩ := addedAll (fun s command => (s.settleWaiter command.id .revoked).addRevoked command.id)
    (fun t c => by
      obtain ⟨kept,inside,size⟩ := addedRevoked c.id (t.settleWaiter c.id .revoked)
      exact ⟨⟨kept.clears,kept.ids⟩,inside,size⟩) s.waiters t
  rw [← all] at last noted
  constructor
  · exact remembersTrans first (remembersKeeps last)
  · intro same id member
    have middle := last.clears.symm.trans same
    cases List.mem_append.mp member with
    | inl inQueue =>
      obtain ⟨c,inside,rfl⟩ := List.mem_map.mp inQueue
      exact last.ids _ (trimmed.ids (middle.trans added.clears.symm) _ (queued c inside))
    | inr waiting =>
      obtain ⟨c,inside,rfl⟩ := List.mem_map.mp waiting
      exact noted c inside
  · intro changed
    have over_ := emptied fun same => changed (last.clears.trans (same.trans added.clears))
    have size : (revokes s .revokeAll).length = (s.queues.flatMap (·.2)).length + s.waiters.length := by
      simp [revokes]
    rw [size]
    exact Nat.lt_of_lt_of_le over_ (Nat.le_trans more (by omega))

theorem stepRevoked (config : BridgeConfig) (s : ChromeBridge) (e : BridgeEvent) :
    Revoked s e (step config s e) := by
  have quiet {t : ChromeBridge} (h : Keeps s t) (none_ : revokes s e = []) : Revoked s e t :=
    ⟨remembersKeeps h,fun _ id member => (List.not_mem_nil (none_ ▸ member)).elim,
      fun changed => absurd h.clears changed⟩
  cases e with
  | start => exact quiet (keepsSame rfl rfl) rfl
  | stop => exact quiet (keepsSame rfl rfl) rfl
  | arm => exact quiet (keepsSame rfl rfl) rfl
  | disarm => exact quiet (keepsSame rfl rfl) rfl
  | register origin =>
    refine quiet ?_ rfl
    simp only [step,handleRegister]
    split
    · exact keepsSame rfl rfl
    split <;> exact keepsSame rfl rfl
  | registerBody number body now => exact quiet (sameRegisterBody config number body now s) rfl
  | poll origin secret query waitMs now => exact quiet (sameNext config origin secret query waitMs now s) rfl
  | pollTimeout number =>
    refine quiet ?_ rfl
    simp only [step,settleNext]
    split <;> exact keepsSame rfl rfl
  | pollClosed number =>
    refine quiet ?_ rfl
    simp only [step,settleNext]
    split <;> exact keepsSame rfl rfl
  | result origin secret query now =>
    have entered (claim : Option InstanceClaim) : Keeps s (s.enterClaim claim now) := by
      cases claim <;> exact keepsSame rfl rfl
    refine quiet ?_ rfl
    simp only [step,handleResult]
    split
    · exact keepsSame rfl rfl
    · exact ⟨(entered _).clears,(entered _).ids⟩
  | resultBody number body => exact quiet (keptResultBody number body s) rfl
  | command localCaller body => exact quiet (sameCommand config localCaller body s) rfl
  | commandTimeout id => exact revokedTimeout id s
  | commandClosed id =>
    refine quiet ?_ rfl
    simp only [step,commandClosed]
    split <;> exact keepsSame rfl rfl
  | revokeCommand id => exact revokedCommand id s
  | revokeAll => exact revokedAll s
  | purge at_ => exact quiet (keepsSame rfl rfl) rfl

/-- A command posted under an id that was revoked or timed out is refused as revoked, and
changes nothing, until the set of revoked ids is emptied; no step empties it that does not
take it past its bound. -/
theorem revokedUntilEmptied (config : BridgeConfig) (extensionId : Option JsString)
    (before later : List BridgeEvent) (e : BridgeEvent) (id : JsString)
    (revoked : id ∈ revokes (run config extensionId before) e)
    (kept : (run config extensionId (before ++ e :: later)).clears = (run config extensionId before).clears)
    (command : Command) (named : command.id = id)
    (token : utf8 command.bridgeToken = utf8 config.sessionToken) :
    (run config extensionId (before ++ e :: later)).handleCommand config true (.parsed command) =
        (run config extensionId (before ++ e :: later),.revoked) ∧
      ∀ s e', (step config s e').clears ≠ s.clears →
        maxRevokedIds < s.revokedIds.length + (revokes s e').length := by
  constructor
  · have first := stepRevoked config (run config extensionId before) e
    have rest : Remembers (step config (run config extensionId before) e)
        (later.foldl (step config) (step config (run config extensionId before) e)) :=
      runInvariant (I := fun t : ChromeBridge => Remembers (step config (run config extensionId before) e) t)
        (remembersKeeps (keepsSame rfl rfl))
        (fun s e h => remembersTrans h (stepRevoked config s e).remembers) later
    have last : run config extensionId (before ++ e :: later) =
        later.foldl (step config) (step config (run config extensionId before) e) := by
      rw [run,List.foldl_append]
      rfl
    rw [last] at kept ⊢
    have middle : (step config (run config extensionId before) e).clears =
        (run config extensionId before).clears :=
      Nat.le_antisymm (kept ▸ rest.clears) first.remembers.clears
    have there := rest.ids (kept.trans middle.symm) id (first.noted middle id revoked)
    unfold handleCommand
    rw [if_neg (by decide)]
    dsimp only
    rw [if_neg (not_not.mpr token),if_pos (List.contains_iff_mem.mpr (named ▸ there))]
  · exact fun s e' => (stepRevoked config s e').emptied

/- Distinct ids revoked one after another in an idle bridge fill the set. -/
theorem revokedMany (ids : List JsString) (s : ChromeBridge) (idle : s.queues = [] ∧ s.waiters = [])
    (distinct : ids.Nodup) (new : ∀ id ∈ ids, id ∉ s.revokedIds)
    (room : s.revokedIds.length + ids.length ≤ maxRevokedIds) (config : BridgeConfig) :
    (ids.map BridgeEvent.revokeCommand).foldl (step config) s = { s with revokedIds := s.revokedIds ++ ids } := by
  induction ids generalizing s with
  | nil => simp
  | cons id rest ih =>
    obtain ⟨fresh,later⟩ := List.nodup_cons.mp distinct
    rw [List.length_cons] at room
    have unseen : s.revokedIds.contains id = false := by
      simpa using new id List.mem_cons_self
    have one : step config s (.revokeCommand id) = { s with revokedIds := s.revokedIds ++ [id] } := by
      have short : (s.revokedIds ++ [id]).length ≤ maxRevokedIds := by
        rw [List.length_append,List.length_singleton]
        omega
      obtain ⟨queues,waiters⟩ := idle
      cases s
      simp only at queues waiters unseen short
      subst queues waiters
      simp only [step,revokeCommand,addRevoked,unseen,Bool.false_eq_true,if_false,trimRevokedIds,
        if_pos short,dropEverywhere]
      rfl
    rw [List.map_cons,List.foldl_cons,one,ih]
    · simp
    · exact idle
    · exact later
    · intro other member
      have apart : other ≠ id := fun same => fresh (same ▸ member)
      simpa [apart] using new other (List.mem_cons_of_mem _ member)
    · rw [List.length_append,List.length_singleton]
      omega

/- One more empties it, the new id included. -/
theorem revokedOver (id : JsString) (s : ChromeBridge) (idle : s.queues = [] ∧ s.waiters = [])
    (new : id ∉ s.revokedIds) (full : s.revokedIds.length = maxRevokedIds) (config : BridgeConfig) :
    step config s (.revokeCommand id) = { s with revokedIds := [], clears := s.clears + 1 } := by
  have unseen : s.revokedIds.contains id = false := by simpa using new
  have long : ¬ (s.revokedIds ++ [id]).length ≤ maxRevokedIds := by
    rw [List.length_append,List.length_singleton]
    omega
  obtain ⟨queues,waiters⟩ := idle
  cases s
  simp only at queues waiters unseen long
  subst queues waiters
  simp only [step,revokeCommand,addRevoked,unseen,Bool.false_eq_true,if_false,trimRevokedIds,
    if_neg long,dropEverywhere]
  rfl

theorem revokedAllForgotten {first last : JsString} {middle : List JsString}
    (distinct : (first :: middle ++ [last]).Nodup) (full : (first :: middle).length = maxRevokedIds)
    (s : ChromeBridge) (idle : s.queues = [] ∧ s.waiters = []) (empty : s.revokedIds = [])
    (config : BridgeConfig) :
    (BridgeEvent.revokeCommand first :: (middle.map BridgeEvent.revokeCommand ++ [.revokeCommand last])).foldl
      (step config) s = { s with revokedIds := [], clears := s.clears + 1 } := by
  obtain ⟨once,_,apart⟩ := List.nodup_append.mp distinct
  have filled := revokedMany (first :: middle) s idle once (fun id _ => by rw [empty]; exact List.not_mem_nil)
    (by rw [empty,full]; exact Nat.le_refl _) config
  rw [← List.cons_append,← List.map_cons,List.foldl_append,filled,List.foldl_cons,List.foldl_nil,empty,
    List.nil_append]
  have new : last ∉ first :: middle :=
    fun member => apart last member last (List.mem_singleton_self last) rfl
  exact revokedOver last { s with revokedIds := first :: middle } idle new full config

def pairedEvents : List BridgeEvent := [.start,.arm,.register (demoOrigin "companion-a"),
  .registerBody 0 (.parsed (demoClaim "instance-a" .undefined)) 0]

def pairedBridge : ChromeBridge := run demoConfig none pairedEvents

def numbered (i : Nat) : JsString := [UInt16.ofNat i]

def demoCommand (i : Nat) : Command := ⟨numbered i,js "instance-a",js "session-token",.null⟩

def manyIds (n : Nat) : List JsString := (List.range' 1 n).map numbered

theorem manyDistinct {n : Nat} (few : n < 60000) : (numbered 0 :: manyIds n ++ [numbered (n + 1)]).Nodup := by
  have same : numbered 0 :: manyIds n ++ [numbered (n + 1)] = (List.range (n + 2)).map numbered := by
    rw [List.range_eq_range',List.range'_succ,List.range'_concat]
    simp [manyIds,Nat.add_comm]
  rw [same]
  apply List.Nodup.map_on
  · intro i inside k among same
    have left := List.mem_range.mp inside
    have right := List.mem_range.mp among
    have units := congrArg UInt16.toNat (List.singleton_inj.mp same)
    rwa [unitToNat (by omega),unitToNat (by omega)] at units
  · exact List.nodup_range

theorem pairedIdle : pairedBridge.queues = [] ∧ pairedBridge.waiters = [] :=
  ⟨List.isEmpty_iff.mp (by decide),List.isEmpty_iff.mp (by decide)⟩

theorem revokedRemembered :
    (run demoConfig none (pairedEvents ++ .revokeCommand (numbered 0) :: [])).handleCommand demoConfig true
        (.parsed (demoCommand 0)) =
      (run demoConfig none (pairedEvents ++ .revokeCommand (numbered 0) :: []),.revoked) :=
  (revokedUntilEmptied demoConfig none pairedEvents [] (.revokeCommand (numbered 0)) (numbered 0)
    (List.mem_singleton_self _) (by decide) (demoCommand 0) rfl rfl).1

/- The first of many revoked ids is accepted again. -/
theorem revokedForgotten : ¬ ∀ (config : BridgeConfig) (extensionId : Option JsString)
    (before later : List BridgeEvent) (e : BridgeEvent) (id : JsString),
    id ∈ revokes (run config extensionId before) e → ∀ command : Command, command.id = id →
      utf8 command.bridgeToken = utf8 config.sessionToken →
      ((run config extensionId (before ++ e :: later)).handleCommand config true (.parsed command)).2 = .revoked := by
  intro always
  have refused := always demoConfig none pairedEvents
    ((manyIds 1999).map BridgeEvent.revokeCommand ++ [.revokeCommand (numbered 2000)])
    (.revokeCommand (numbered 0)) (numbered 0) (List.mem_singleton_self _) (demoCommand 0) rfl rfl
  have full : (numbered 0 :: manyIds 1999).length = maxRevokedIds := by
    rw [List.length_cons,manyIds,List.length_map,List.length_range']
    rfl
  have emptied := revokedAllForgotten (manyDistinct (n := 1999) (by decide)) full pairedBridge pairedIdle
    (List.isEmpty_iff.mp (by decide)) demoConfig
  have all : run demoConfig none (pairedEvents ++ .revokeCommand (numbered 0) ::
      ((manyIds 1999).map BridgeEvent.revokeCommand ++ [.revokeCommand (numbered 2000)])) =
        { pairedBridge with revokedIds := [], clears := pairedBridge.clears + 1 } := by
    rw [run,List.foldl_append]
    exact emptied
  rw [all] at refused
  have accepted : (({ pairedBridge with revokedIds := [], clears := pairedBridge.clears + 1 } :
      ChromeBridge).handleCommand demoConfig true (.parsed (demoCommand 0))).2 = .awaits := by
    decide
  exact absurd (accepted.symm.trans refused) (by decide)

end ChromeBridge
end Northstar.Chrome
