import Northstar.Chrome.Revocation
import Northstar.Runtime.RunTable

/-! A command in the bridge. It lives in its target's queue and in the map of waiters, and
the events that end its wait take it out of both, but for a result, which leaves the queue. -/
namespace Northstar.Chrome
namespace ChromeBridge

structure Delivery where
  queues : List (JsString × List Command)
  waiters : List Command
  handed : List Handed
  settlements : List (JsString × Settlement)
  posted : List JsString
  accepted : List Command

def delivery (s : ChromeBridge) : Delivery :=
  ⟨s.queues,s.waiters,s.handed,s.settlements,s.posted,s.accepted⟩

namespace Delivery

def queued (d : Delivery) : List Command := d.queues.flatMap (·.2)

/- A queued command waits and goes to its own target; what was handed has left the queue; a
wait that was settled is over. -/
structure Sound (d : Delivery) : Prop where
  keys : (d.queues.map (·.1)).Nodup
  targets : ∀ entry ∈ d.queues, ∀ c ∈ entry.2, c.targetInstanceId = entry.1
  queuedOnce : (d.queued.map (·.id)).Nodup
  queuedWaits : ∀ c ∈ d.queued, c ∈ d.waiters
  waitersOnce : (d.waiters.map (·.id)).Nodup
  handedOnce : (d.handed.map (·.command.id)).Nodup
  handedLeft : ∀ h ∈ d.handed, h.command.id ∉ d.queued.map (·.id)
  handedRight : ∀ h ∈ d.handed, h.poller = some h.command.targetInstanceId ∧ h.waiting = true
  settledOnce : (d.settlements.map (·.1)).Nodup
  settledEnded : ∀ e ∈ d.settlements, e.1 ∉ d.waiters.map (·.id)
  accepted : ∀ c ∈ d.accepted, c ∈ d.waiters ∨ c.id ∈ d.settlements.map (·.1)
  posted : ∀ id, id ∈ d.waiters.map (·.id) ∨ id ∈ d.handed.map (·.command.id) ∨
    id ∈ d.settlements.map (·.1) → id ∈ d.posted

/- Queues that hold less. -/
theorem Sound.fewer {d : Delivery} (h : Sound d) {queues : List (JsString × List Command)}
    (keys : (queues.map (·.1)).Sublist (d.queues.map (·.1)))
    (targets : ∀ entry ∈ queues, ∀ c ∈ entry.2, c.targetInstanceId = entry.1)
    (fewer : (queues.flatMap (·.2)).Sublist d.queued) : Sound { d with queues := queues } where
  keys := h.keys.sublist keys
  targets := targets
  queuedOnce := h.queuedOnce.sublist (fewer.map _)
  queuedWaits c member := h.queuedWaits c (fewer.subset member)
  waitersOnce := h.waitersOnce
  handedOnce := h.handedOnce
  handedLeft hand member inside := h.handedLeft hand member ((fewer.map _).subset inside)
  handedRight := h.handedRight
  settledOnce := h.settledOnce
  settledEnded := h.settledEnded
  accepted := h.accepted
  posted := h.posted

/- The wait of a command that is not queued ends. -/
theorem Sound.settle {d : Delivery} (h : Sound d) {command : Command} (member : command ∈ d.waiters)
    (left : command.id ∉ d.queued.map (·.id)) (how : Settlement) :
    Sound { d with waiters := d.waiters.filter (fun c => c.id ≠ command.id),
                   settlements := d.settlements ++ [(command.id,how)] } := by
  have fewer : (d.waiters.filter fun c => c.id ≠ command.id).Sublist d.waiters := List.filter_sublist
  have there : command.id ∈ d.waiters.map (·.id) := List.mem_map.mpr ⟨command,member,rfl⟩
  constructor
  · exact h.keys
  · exact h.targets
  · exact h.queuedOnce
  · intro c queued
    have apart : c.id ≠ command.id := fun same => left (same ▸ List.mem_map.mpr ⟨c,queued,rfl⟩)
    exact List.mem_filter.mpr ⟨h.queuedWaits c queued,by simpa using apart⟩
  · exact h.waitersOnce.sublist (fewer.map _)
  · exact h.handedOnce
  · exact h.handedLeft
  · exact h.handedRight
  · rw [List.map_append]
    refine h.settledOnce.append (List.nodup_singleton _) (List.disjoint_singleton.mpr ?_)
    intro again
    obtain ⟨e,settled,same⟩ := List.mem_map.mp again
    exact h.settledEnded e settled (same ▸ there)
  · intro e settled waiting
    cases List.mem_append.mp settled with
    | inl old => exact h.settledEnded e old ((fewer.map _).subset waiting)
    | inr new =>
      rw [List.mem_singleton.mp new] at waiting
      obtain ⟨c,kept,same⟩ := List.mem_map.mp waiting
      have apart := (List.mem_filter.mp kept).2
      simp [same] at apart
  · intro c taken
    rw [List.map_append]
    cases h.accepted c taken with
    | inr settled => exact .inr (List.mem_append_left _ settled)
    | inl waiting =>
      by_cases same : c.id = command.id
      · exact .inr (List.mem_append_right _ (by simp [same]))
      · exact .inl (List.mem_filter.mpr ⟨waiting,by simpa using same⟩)
  · intro id known
    apply h.posted
    rcases known with waiting | handed | settled
    · exact .inl ((fewer.map _).subset waiting)
    · exact .inr (.inl handed)
    · rw [List.map_append] at settled
      cases List.mem_append.mp settled with
      | inl old => exact .inr (.inr old)
      | inr new => exact .inl (by rw [List.mem_singleton.mp new]; exact there)

/- A new command begins to wait. -/
theorem Sound.enter {d : Delivery} (h : Sound d) {command : Command} (new : command.id ∉ d.posted) :
    Sound { d with waiters := d.waiters ++ [command], accepted := d.accepted ++ [command],
                   posted := d.posted ++ [command.id] } := by
  have fresh : command.id ∉ d.waiters.map (·.id) := fun member => new (h.posted _ (.inl member))
  constructor
  · exact h.keys
  · exact h.targets
  · exact h.queuedOnce
  · exact fun c queued => List.mem_append_left _ (h.queuedWaits c queued)
  · rw [List.map_append]
    exact h.waitersOnce.append (List.nodup_singleton _) (List.disjoint_singleton.mpr fresh)
  · exact h.handedOnce
  · exact h.handedLeft
  · exact h.handedRight
  · exact h.settledOnce
  · intro e settled waiting
    rw [List.map_append] at waiting
    cases List.mem_append.mp waiting with
    | inl old => exact h.settledEnded e settled old
    | inr last =>
      have same : e.1 = command.id := List.mem_singleton.mp last
      exact new (h.posted _ (.inr (.inr (same ▸ List.mem_map.mpr ⟨e,settled,rfl⟩))))
  · intro c taken
    cases List.mem_append.mp taken with
    | inl old => exact (h.accepted c old).imp (List.mem_append_left _) id
    | inr last => exact .inl (List.mem_append_right _ last)
  · intro id known
    rw [List.map_append] at known
    rcases known with waiting | rest
    · cases List.mem_append.mp waiting with
      | inl old => exact List.mem_append_left _ (h.posted id (.inl old))
      | inr last => exact List.mem_append_right _ last
    · exact List.mem_append_left _ (h.posted id (.inr rest))

/- A waiting command is handed to a poll of its target and is in no queue any more. -/
theorem Sound.hand {d : Delivery} (h : Sound d) {command : Command} {poller : Option JsString}
    (waits : command ∈ d.waiters) (left : command.id ∉ d.queued.map (·.id))
    (new : command.id ∉ d.handed.map (·.command.id)) (right : poller = some command.targetInstanceId) :
    Sound { d with handed := d.handed ++ [⟨command,poller,d.waiters.any fun c => c.id = command.id⟩] } := by
  have waiting : (d.waiters.any fun c => c.id = command.id) = true :=
    List.any_eq_true.mpr ⟨command,waits,by simp⟩
  constructor
  · exact h.keys
  · exact h.targets
  · exact h.queuedOnce
  · exact h.queuedWaits
  · exact h.waitersOnce
  · rw [List.map_append]
    exact h.handedOnce.append (List.nodup_singleton _) (List.disjoint_singleton.mpr new)
  · intro hand member
    cases List.mem_append.mp member with
    | inl old => exact h.handedLeft hand old
    | inr last =>
      rw [List.mem_singleton.mp last]
      exact left
  · intro hand member
    cases List.mem_append.mp member with
    | inl old => exact h.handedRight hand old
    | inr last => exact List.mem_singleton.mp last ▸ ⟨right,waiting⟩
  · exact h.settledOnce
  · exact h.settledEnded
  · exact h.accepted
  · intro id known
    apply h.posted
    rcases known with waits' | handed | settled
    · exact .inl waits'
    · rw [List.map_append] at handed
      cases List.mem_append.mp handed with
      | inl old => exact .inr (.inl old)
      | inr last => exact .inl (List.mem_map.mpr ⟨command,waits,(List.mem_singleton.mp last).symm⟩)
    · exact .inr (.inr settled)

/- Queues of which some are shortened and some dropped. -/
theorem shortened {f : JsString × List Command → JsString × List Command} (keep : JsString × List Command → Bool)
    (each : ∀ entry, (f entry).1 = entry.1 ∧ (f entry).2.Sublist entry.2)
    (queues : List (JsString × List Command)) :
    (((queues.map f).filter keep).map (·.1)).Sublist (queues.map (·.1)) ∧
      (((queues.map f).filter keep).flatMap (·.2)).Sublist (queues.flatMap (·.2)) := by
  induction queues with
  | nil => exact ⟨.refl _,.refl _⟩
  | cons entry rest ih =>
    obtain ⟨key,less⟩ := each entry
    rw [List.map_cons,List.filter_cons]
    split
    · constructor
      · simp only [List.map_cons,key]
        exact ih.1.cons_cons _
      · simp only [List.flatMap_cons]
        exact less.append ih.2
    · constructor
      · exact ih.1.cons _
      · rw [List.flatMap_cons]
        exact ih.2.trans (List.sublist_append_right _ _)

theorem droppedId {id : JsString} {queue : List Command} (once : (queue.map (·.id)).Nodup) {c : Command}
    (member : c ∈ dropQueued id queue) : c.id ≠ id := by
  induction queue with
  | nil => exact (List.not_mem_nil member).elim
  | cons first rest ih =>
    rw [List.map_cons,List.nodup_cons] at once
    rw [dropQueued,List.eraseP_cons] at member
    by_cases same : first.id = id
    · simp only [same,decide_true,cond_true] at member
      intro again
      exact once.1 (by rw [same,← again]; exact List.mem_map.mpr ⟨c,member,rfl⟩)
    · simp only [same,decide_false,cond_false] at member
      cases List.mem_cons.mp member with
      | inl here => exact here ▸ same
      | inr later => exact ih once.2 later

theorem entryOnce {d : Delivery} (h : Sound d) {entry : JsString × List Command} (member : entry ∈ d.queues) :
    (entry.2.map (·.id)).Nodup :=
  h.queuedOnce.sublist ((List.sublist_flatten_of_mem (List.mem_map.mpr ⟨entry,member,rfl⟩)).map _)

theorem shortEntries {f : JsString × List Command → JsString × List Command} {keep : JsString × List Command → Bool}
    {d : Delivery} (h : Sound d) (each : ∀ entry, (f entry).1 = entry.1 ∧ (f entry).2.Sublist entry.2) :
    ∀ entry ∈ (d.queues.map f).filter keep, ∀ c ∈ entry.2, c.targetInstanceId = entry.1 := by
  intro entry member c inside
  obtain ⟨old,there,rfl⟩ := List.mem_map.mp (List.mem_of_mem_filter member)
  rw [(each old).1]
  exact h.targets old there c ((each old).2.subset inside)

/- Dropping an id from every queue, or from its target's, leaves it in none. -/
theorem soundEverywhere {s : ChromeBridge} (id : JsString) (h : Sound s.delivery) :
    Sound (s.dropEverywhere id).delivery ∧ id ∉ (s.dropEverywhere id).delivery.queued.map (·.id) := by
  have each : ∀ entry : JsString × List Command, (entry.1,dropQueued id entry.2).1 = entry.1 ∧
      (entry.1,dropQueued id entry.2).2.Sublist entry.2 := fun _ => ⟨rfl,List.eraseP_sublist⟩
  obtain ⟨keys,fewer⟩ := shortened (fun entry => !entry.2.isEmpty) each s.queues
  constructor
  · exact h.fewer keys (shortEntries h each) fewer
  · intro member
    obtain ⟨c,queued,same⟩ := List.mem_map.mp member
    obtain ⟨entry,inside,there⟩ := List.mem_flatMap.mp queued
    obtain ⟨old,known,rfl⟩ := List.mem_map.mp (List.mem_of_mem_filter inside)
    exact droppedId (entryOnce h known) there same

theorem soundFrom {s : ChromeBridge} {command : Command} (h : Sound s.delivery) (waits : command ∈ s.waiters) :
    Sound (s.dropFrom command.targetInstanceId command.id).delivery ∧
      command.id ∉ (s.dropFrom command.targetInstanceId command.id).delivery.queued.map (·.id) := by
  have each : ∀ entry : JsString × List Command,
      (if entry.1 = command.targetInstanceId then (entry.1,dropQueued command.id entry.2) else entry).1 = entry.1 ∧
      (if entry.1 = command.targetInstanceId then (entry.1,dropQueued command.id entry.2) else entry).2.Sublist
        entry.2 := by
    intro entry
    split
    · exact ⟨rfl,List.eraseP_sublist⟩
    · exact ⟨rfl,.refl _⟩
  obtain ⟨keys,fewer⟩ := shortened (fun entry => entry.1 ≠ command.targetInstanceId || !entry.2.isEmpty) each s.queues
  constructor
  · exact h.fewer keys (shortEntries h each) fewer
  · intro member
    obtain ⟨c,queued,same⟩ := List.mem_map.mp member
    obtain ⟨entry,inside,there⟩ := List.mem_flatMap.mp queued
    obtain ⟨old,known,rfl⟩ := List.mem_map.mp (List.mem_of_mem_filter inside)
    split at there
    · exact droppedId (entryOnce h known) there same
    · rename_i other
      have waiting := h.queuedWaits c (List.mem_flatMap.mpr ⟨old,known,there⟩)
      have one := List.inj_on_of_nodup_map h.waitersOnce waiting waits same
      exact other (by rw [← h.targets old known c there,one])

/- Replacing the queue of one target. -/
theorem replaced {queues : List (JsString × List Command)} (keys : (queues.map (·.1)).Nodup) (target : JsString)
    (queue : List Command) :
    ((Runtime.mapSet queues target queue).flatMap (·.2) ++ (queues.lookup target).getD []).Perm
        (queues.flatMap (·.2) ++ queue) ∧
      ((Runtime.mapSet queues target queue).map (·.1)).Nodup := by
  induction queues with
  | nil => exact ⟨by simp [Runtime.mapSet],by simp [Runtime.mapSet]⟩
  | cons entry rest ih =>
    obtain ⟨key,old⟩ := entry
    obtain ⟨fresh,later⟩ := List.nodup_cons.mp keys
    by_cases same : key = target
    · have found : ((key,old) :: rest).lookup target = some old := by simp [same]
      rw [found]
      simp only [Runtime.mapSet,if_pos same,List.flatMap_cons,Option.getD_some,List.map_cons]
      constructor
      · rw [List.append_assoc]
        exact List.perm_append_comm.trans (List.perm_append_comm.append_right queue)
      · exact List.nodup_cons.mpr ⟨same ▸ fresh,later⟩
    · obtain ⟨perm,once⟩ := ih later
      have skip : ((key,old) :: rest).lookup target = rest.lookup target := by
        simp [List.lookup_cons,beq_false_of_ne (Ne.symm same)]
      rw [skip]
      simp only [Runtime.mapSet,if_neg same,List.flatMap_cons,List.map_cons,List.append_assoc]
      constructor
      · exact perm.append_left old
      · refine List.nodup_cons.mpr ⟨?_,once⟩
        intro member
        obtain ⟨other,inside,eq⟩ := List.mem_map.mp member
        cases Runtime.LeafRuntime.memMapSet inside with
        | inl there => exact fresh (List.mem_map.mpr ⟨other,there,eq⟩)
        | inr new => exact same (by rw [← eq,new])

theorem emptyDropped (queues : List (JsString × List Command)) :
    (queues.filter fun entry => !entry.2.isEmpty).flatMap (·.2) = queues.flatMap (·.2) := by
  induction queues with
  | nil => rfl
  | cons entry rest ih =>
    rw [List.filter_cons]
    cases held : entry.2 with
    | nil => simpa [held] using ih
    | cons c more => simp [held,ih]

/- One more command in its target's queue. -/
theorem Sound.push {d : Delivery} (h : Sound d) {command : Command} (waits : command ∈ d.waiters)
    (left : command.id ∉ d.queued.map (·.id)) (new : command.id ∉ d.handed.map (·.command.id)) :
    Sound { d with
      queues := Runtime.mapSet d.queues command.targetInstanceId
        ((d.queues.lookup command.targetInstanceId).getD [] ++ [command]) } := by
  obtain ⟨perm,keys⟩ := replaced h.keys command.targetInstanceId
    ((d.queues.lookup command.targetInstanceId).getD [] ++ [command])
  generalize old : (d.queues.lookup command.targetInstanceId).getD [] = queue at perm keys ⊢
  have more : ((Runtime.mapSet d.queues command.targetInstanceId (queue ++ [command])).flatMap (·.2)).Perm
      (d.queued ++ [command]) := by
    have moved := perm.trans (List.perm_append_comm.append_left _)
    rw [← List.append_assoc] at moved
    exact (List.perm_append_right_iff queue).mp moved
  have held : ∀ c ∈ queue, (command.targetInstanceId,queue) ∈ d.queues := by
    intro c member
    cases found : d.queues.lookup command.targetInstanceId with
    | none =>
      rw [found] at old
      rw [← old] at member
      exact (List.not_mem_nil member).elim
    | some there =>
      rw [found] at old
      obtain ⟨before,after,entries,_⟩ := List.lookup_eq_some_iff.mp found
      rw [entries]
      simp [← old]
  constructor
  · exact keys
  · intro entry member c inside
    cases Runtime.LeafRuntime.memMapSet member with
    | inl there => exact h.targets entry there c inside
    | inr new =>
      rw [new] at inside ⊢
      cases List.mem_append.mp inside with
      | inl there => exact h.targets _ (held c there) c there
      | inr last => rw [List.mem_singleton.mp last]
  · refine (more.map _).nodup_iff.mpr ?_
    rw [List.map_append]
    exact h.queuedOnce.append (List.nodup_singleton _) (List.disjoint_singleton.mpr left)
  · intro c queued
    cases List.mem_append.mp (more.mem_iff.mp queued) with
    | inl old => exact h.queuedWaits c old
    | inr last => rw [List.mem_singleton.mp last]; exact waits
  · exact h.waitersOnce
  · exact h.handedOnce
  · intro hand member inside
    have inside := (more.map (·.id)).mem_iff.mp inside
    rw [List.map_append] at inside
    cases List.mem_append.mp inside with
    | inl old => exact h.handedLeft hand member old
    | inr last => exact new (List.mem_map.mpr ⟨hand,member,List.mem_singleton.mp last⟩)
  · exact h.handedRight
  · exact h.settledOnce
  · exact h.settledEnded
  · exact h.accepted
  · exact h.posted

/- The head of the poller's queue is taken out and handed over. -/
theorem soundQueued {s : ChromeBridge} (h : Sound s.delivery) {instanceId : JsString} {command : Command}
    (head : (s.queueOf instanceId).head? = some command) :
    Sound { s.delivery with
      queues := (Runtime.mapSet s.queues instanceId (s.queueOf instanceId).tail).filter fun e => !e.2.isEmpty
      handed := s.handed ++ [⟨command,some instanceId,s.waiters.any fun c => c.id = command.id⟩] } := by
  obtain ⟨rest,queue⟩ : ∃ rest, s.queueOf instanceId = command :: rest := List.head?_eq_some_iff.mp head
  have found : s.queues.lookup instanceId = some (command :: rest) := by
    cases there : s.queues.lookup instanceId with
    | none => simp [queueOf,there] at queue
    | some old => simpa [queueOf,there] using queue
  obtain ⟨before,after,entries,_⟩ := List.lookup_eq_some_iff.mp found
  have entry : (instanceId,command :: rest) ∈ s.delivery.queues := by
    rw [show s.delivery.queues = s.queues from rfl,entries]
    simp
  have queued : command ∈ s.delivery.queued := List.mem_flatMap.mpr ⟨_,entry,List.mem_cons_self⟩
  have waits := h.queuedWaits command queued
  obtain ⟨perm,keys⟩ := replaced h.keys instanceId rest
  rw [show s.delivery.queues = s.queues from rfl,found,Option.getD_some] at perm
  have less : (command :: (Runtime.mapSet s.queues instanceId rest).flatMap (·.2)).Perm s.delivery.queued :=
    (List.perm_append_right_iff rest).mp (List.perm_middle.symm.trans perm)
  have dropped := emptyDropped (Runtime.mapSet s.queues instanceId rest)
  have once := (less.map (·.id)).nodup_iff.mpr h.queuedOnce
  rw [List.map_cons,List.nodup_cons] at once
  have popped : Sound { s.delivery with
      queues := (Runtime.mapSet s.queues instanceId rest).filter fun e => !e.2.isEmpty } := by
    constructor
    · exact keys.sublist (List.filter_sublist.map _)
    · intro e member c inside
      cases Runtime.LeafRuntime.memMapSet (List.mem_of_mem_filter member) with
      | inl there => exact h.targets e there c inside
      | inr new =>
        rw [new] at inside ⊢
        exact h.targets _ entry c (List.mem_cons_of_mem _ inside)
    · simp only [Delivery.queued,dropped]
      exact once.2
    · intro c member
      simp only [Delivery.queued,dropped] at member
      exact h.queuedWaits c (less.mem_iff.mp (List.mem_cons_of_mem _ member))
    · exact h.waitersOnce
    · exact h.handedOnce
    · intro hand member inside
      simp only [Delivery.queued,dropped] at inside
      exact h.handedLeft hand member ((less.map (·.id)).mem_iff.mp (List.mem_cons_of_mem _ inside))
    · exact h.handedRight
    · exact h.settledOnce
    · exact h.settledEnded
    · exact h.accepted
    · exact h.posted
  rw [queue,List.tail_cons]
  have target := h.targets _ entry command List.mem_cons_self
  refine popped.hand waits ?_ ?_ (by rw [target])
  · simp only [Delivery.queued,dropped]
    exact once.1
  · intro member
    obtain ⟨hand,inside,same⟩ := List.mem_map.mp member
    exact h.handedLeft hand inside (same ▸ List.mem_map.mpr ⟨command,queued,rfl⟩)

end Delivery
open Delivery

theorem soundEnqueue {s : ChromeBridge} (h : Sound s.delivery) {command : Command} (waits : command ∈ s.waiters)
    (left : command.id ∉ s.delivery.queued.map (·.id)) (new : command.id ∉ s.handed.map (·.command.id)) :
    Sound (s.enqueue command).delivery := by
  unfold enqueue
  dsimp only
  split
  · rename_i next found
    have fits := List.find?_some found
    simp only [Bool.and_eq_true,decide_eq_true_eq] at fits
    exact h.hand waits left new fits.2
  · exact h.push waits left new

theorem Delivery.Sound.note {d : Delivery} (h : Sound d) (id : JsString) :
    Sound { d with posted := d.posted ++ [id] } :=
  ⟨h.keys,h.targets,h.queuedOnce,h.queuedWaits,h.waitersOnce,h.handedOnce,h.handedLeft,h.handedRight,
    h.settledOnce,h.settledEnded,h.accepted,fun id known => List.mem_append_left _ (h.posted id known)⟩

theorem notedEnqueue (command other : Command) (s : ChromeBridge) :
    (s.enqueue command).notePosted (.parsed other) = (s.notePosted (.parsed other)).enqueue command := by
  have same : (s.notePosted (.parsed other)).nextWaiters = s.nextWaiters := rfl
  unfold enqueue
  dsimp only
  rw [same]
  split <;> rfl

theorem soundCommand (config : BridgeConfig) (localCaller : Bool) {body : Body Command} {s : ChromeBridge}
    (h : Sound s.delivery) (new : ∀ command, body = .parsed command → command.id ∉ s.posted) :
    Sound ((s.handleCommand config localCaller body).1.notePosted body).delivery := by
  have noted : Sound (s.notePosted body).delivery := by
    cases body with
    | parsed command => exact h.note command.id
    | malformed => exact h
    | unread => exact h
  unfold handleCommand
  split
  · exact noted
  split
  · exact noted
  · exact noted
  rename_i command
  split
  · exact noted
  split
  · exact noted
  split
  · exact noted
  split
  · exact noted
  have fresh := new command rfl
  have queued : command.id ∉ s.delivery.queued.map (·.id) := by
    intro member
    obtain ⟨c,inside,same⟩ := List.mem_map.mp member
    exact fresh (h.posted _ (.inl (same ▸ List.mem_map.mpr ⟨c,h.queuedWaits c inside,rfl⟩)))
  have handed : command.id ∉ s.handed.map (·.command.id) := fun member => fresh (h.posted _ (.inr (.inl member)))
  dsimp only
  rw [notedEnqueue]
  exact soundEnqueue (h.enter fresh) (List.mem_append_right _ (List.mem_singleton_self command)) queued handed

theorem soundTrim {s : ChromeBridge} (h : Sound s.delivery) : Sound s.trimRevokedIds.delivery := by
  unfold trimRevokedIds
  split <;> exact h

theorem soundTimeout (id : JsString) {s : ChromeBridge} (h : Sound s.delivery) :
    Sound (s.commandTimeout id).delivery := by
  unfold commandTimeout
  split
  · exact h
  rename_i command found
  have same : command.id = id := by simpa using List.find?_some found
  have waits := List.mem_of_find?_eq_some found
  obtain ⟨sound,left⟩ := soundFrom h waits
  subst same
  exact soundTrim (sound.settle waits left .timedOut)

theorem soundClosed (id : JsString) {s : ChromeBridge} (h : Sound s.delivery) :
    Sound (s.commandClosed id).delivery := by
  unfold commandClosed
  split
  · exact h
  rename_i command found
  have same : command.id = id := by simpa using List.find?_some found
  have waits := List.mem_of_find?_eq_some found
  obtain ⟨sound,left⟩ := soundFrom h waits
  subst same
  exact sound.settle waits left .aborted

theorem soundRevoke (id : JsString) {s : ChromeBridge} (h : Sound s.delivery) :
    Sound (s.revokeCommand id).delivery := by
  obtain ⟨sound,left⟩ := soundEverywhere id (soundTrim (s := s.addRevoked id) h)
  unfold revokeCommand
  dsimp only
  split
  · rename_i waits
    obtain ⟨command,inside,same⟩ := List.any_eq_true.mp waits
    have same : command.id = id := of_decide_eq_true same
    subst same
    exact sound.settle inside left .revoked
  · exact sound

theorem queuedRevokedDelivery (s : ChromeBridge) : s.queuedRevoked.delivery = s.delivery := by
  have fold (items : List Command) (t : ChromeBridge) :
      (items.foldl (fun s command => addRevoked command.id s) t).delivery = t.delivery := by
    induction items generalizing t with
    | nil => rfl
    | cons c rest ih => exact ih _
  exact fold _ s

theorem soundRevokeAll {s : ChromeBridge} (h : Sound s.delivery) : Sound s.revokeAll.delivery := by
  have empty : Sound { s.delivery with queues := [] } :=
    h.fewer (List.nil_sublist _) (by simp) (List.nil_sublist _)
  rw [← queuedRevokedDelivery s] at empty
  have trimmed := soundTrim (s := { s.queuedRevoked with queues := [] }) empty
  have idle : ({ s.queuedRevoked with queues := [] } : ChromeBridge).trimRevokedIds.queues = [] := by
    unfold trimRevokedIds
    split <;> rfl
  have all : s.revokeAll = (({ s.queuedRevoked with queues := [] } : ChromeBridge).trimRevokedIds.waiters).foldl
      (fun s command => (s.settleWaiter command.id .revoked).addRevoked command.id)
      ({ s.queuedRevoked with queues := [] } : ChromeBridge).trimRevokedIds := rfl
  rw [all]
  generalize ({ s.queuedRevoked with queues := [] } : ChromeBridge).trimRevokedIds = t at idle trimmed
  have settle (items : List Command) (t : ChromeBridge) (sound : Sound t.delivery) (idle : t.queues = [])
      (once : (items.map (·.id)).Nodup) (inside : ∀ c ∈ items, c ∈ t.waiters) :
      Sound (items.foldl (fun s command => (s.settleWaiter command.id .revoked).addRevoked command.id) t).delivery := by
    induction items generalizing t with
    | nil => exact sound
    | cons c rest ih =>
      obtain ⟨fresh,later⟩ := List.nodup_cons.mp once
      have left : c.id ∉ t.delivery.queued.map (·.id) := by
        rw [Delivery.queued,show t.delivery.queues = t.queues from rfl,idle]
        exact List.not_mem_nil
      refine ih _ (sound.settle (inside c List.mem_cons_self) left .revoked) idle later ?_
      intro other member
      have apart : other.id ≠ c.id := fun same => fresh (List.mem_map.mpr ⟨other,member,same⟩)
      exact List.mem_filter.mpr ⟨inside other (List.mem_cons_of_mem _ member),by simpa using apart⟩
  exact settle t.waiters t trimmed idle trimmed.waitersOnce fun _ member => member

theorem soundStop {s : ChromeBridge} (h : Sound s.delivery) : Sound s.stop.delivery := by
  have ended : (s.waiters.map fun c => (c.id,Settlement.stopped)).map (·.1) = s.waiters.map (·.id) := by
    rw [List.map_map]
    rfl
  constructor
  · exact List.nodup_nil
  · exact fun entry member => (List.not_mem_nil member).elim
  · exact List.nodup_nil
  · exact fun c member => (List.not_mem_nil member).elim
  · exact List.nodup_nil
  · exact h.handedOnce
  · exact fun hand _ member => List.not_mem_nil member
  · exact h.handedRight
  · simp only [delivery,stop,List.map_append,ended]
    refine h.settledOnce.append h.waitersOnce ?_
    intro id settled waiting
    obtain ⟨e,inside,rfl⟩ := List.mem_map.mp settled
    exact h.settledEnded e inside waiting
  · exact fun e _ member => List.not_mem_nil member
  · intro c taken
    simp only [delivery,stop,List.map_append,ended]
    refine .inr ?_
    cases h.accepted c taken with
    | inl waiting => exact List.mem_append_right _ (List.mem_map.mpr ⟨c,waiting,rfl⟩)
    | inr settled => exact List.mem_append_left _ settled
  · intro id known
    apply h.posted
    rcases known with waiting | handed | settled
    · exact (List.not_mem_nil waiting).elim
    · exact .inr (.inl handed)
    · simp only [delivery,stop,List.map_append,ended] at settled
      cases List.mem_append.mp settled with
      | inl old => exact .inr (.inr old)
      | inr new => exact .inl new

theorem soundPoll (presented : JsString) (poller : Option JsString) (waitMs : Nat) {s : ChromeBridge}
    (h : Sound s.delivery) : Sound (s.pollAs presented poller waitMs).delivery := by
  unfold pollAs
  split
  · rename_i instanceId command found
    obtain ⟨id,given,found⟩ := Option.bind_eq_some_iff.mp found
    obtain ⟨c,head,found⟩ := Option.bind_eq_some_iff.mp found
    cases Option.some.inj found
    subst given
    exact soundQueued h head
  split <;> exact h

theorem soundNext (config : BridgeConfig) (origin secret : Option JsString) (query : InstanceQuery)
    (waitMs : Nat) (now : Int) {s : ChromeBridge} (h : Sound s.delivery) :
    Sound (s.handleNext config origin secret query waitMs now).delivery := by
  unfold handleNext
  split
  · exact h
  split
  · exact h
  · rename_i claim _
    have entered : Sound (s.enterClaim claim now).delivery := by
      cases claim <;> exact h
    exact soundPoll _ _ waitMs entered

/- A result names a command of a queue that nobody has taken. -/
def resultQueued (s : ChromeBridge) (number : Nat) : Body CommandResult → Bool
  | .parsed result => (s.resulting.lookup number).isSome &&
      s.queues.any fun entry => entry.2.any fun c => c.id = result.id
  | _ => false

theorem soundResult {number : Nat} {body : Body CommandResult} {s : ChromeBridge} (h : Sound s.delivery)
    (taken : s.resultQueued number body = false) : Sound (s.resultBody number body).delivery := by
  unfold resultBody
  split
  · exact h
  rename_i presented pending
  dsimp only
  split
  · exact h
  · exact h
  rename_i result
  split
  · exact h
  rename_i fine
  simp only [Bool.or_eq_true,Bool.not_eq_true',not_or,Bool.not_eq_false] at fine
  obtain ⟨command,waits,same⟩ := List.any_eq_true.mp fine.1
  have same : command.id = result.id := of_decide_eq_true same
  have left : command.id ∉ s.delivery.queued.map (·.id) := by
    intro member
    obtain ⟨c,inside,alike⟩ := List.mem_map.mp member
    obtain ⟨entry,there,held⟩ := List.mem_flatMap.mp inside
    have queued : (s.queues.any fun entry => entry.2.any fun c => c.id = result.id) = true :=
      List.any_eq_true.mpr ⟨entry,there,List.any_eq_true.mpr ⟨c,held,by simp [alike,same]⟩⟩
    simp [resultQueued,pending,queued] at taken
  rw [← same]
  exact h.settle waits left .result

/- Posts have distinct ids, and no result comes for a command that is still queued. -/
def delivers (s : ChromeBridge) : BridgeEvent → Bool
  | .command _ (.parsed command) => !s.posted.contains command.id
  | .resultBody number body => !s.resultQueued number body
  | _ => true

theorem soundStep (config : BridgeConfig) {s : ChromeBridge} {e : BridgeEvent} (h : Sound s.delivery)
    (fine : delivers s e) : Sound (step config s e).delivery := by
  cases e with
  | start => exact h
  | stop => exact soundStop h
  | arm => exact h
  | disarm => exact h
  | register origin =>
    simp only [step,handleRegister]
    split
    · exact h
    split <;> exact h
  | registerBody number body now =>
    simp only [step,registerBody]
    split
    · exact h
    split
    · exact h
    · exact h
    simp only [registered]
    split
    · exact h
    split <;> exact h
  | poll origin secret query waitMs now => exact soundNext config origin secret query waitMs now h
  | pollTimeout number =>
    simp only [step,settleNext]
    split <;> exact h
  | pollClosed number =>
    simp only [step,settleNext]
    split <;> exact h
  | result origin secret query now =>
    have entered (claim : Option InstanceClaim) : Sound (s.enterClaim claim now).delivery := by
      cases claim <;> exact h
    simp only [step,handleResult]
    split
    · exact h
    · exact entered _
  | resultBody number body => exact soundResult h (by simpa [delivers] using fine)
  | command localCaller body =>
    apply soundCommand config localCaller h
    intro command same
    subst same
    simpa [delivers] using fine
  | commandTimeout id => exact soundTimeout id h
  | commandClosed id => exact soundClosed id h
  | revokeCommand id => exact soundRevoke id h
  | revokeAll => exact soundRevokeAll h
  | purge at_ => exact h

/-- Each command is handed over at most once, to a poll of its target and while its poster
waits; each accepted command either still waits, and its timer ends the wait, or was settled,
once; one that was revoked or timed out has no result. -/
theorem commandsDelivered (config : BridgeConfig) (extensionId : Option JsString) (events : List BridgeEvent)
    (fine : Meets (fun s e => delivers s e) (step config) (start extensionId) events) :
    ((run config extensionId events).handed.map (·.command.id)).Nodup ∧
    (∀ h ∈ (run config extensionId events).handed,
      h.poller = some h.command.targetInstanceId ∧ h.waiting = true) ∧
    ((run config extensionId events).settlements.map (·.1)).Nodup ∧
    (∀ c ∈ (run config extensionId events).accepted,
      c.id ∈ (run config extensionId events).settlements.map (·.1) ∨
      c.id ∉ (run config extensionId events).settlements.map (·.1) ∧
        (c.id,.timedOut) ∈ ((run config extensionId events).commandTimeout c.id).settlements) ∧
    ∀ id how, (id,.revoked) ∈ (run config extensionId events).settlements ∨
      (id,.timedOut) ∈ (run config extensionId events).settlements →
      (id,how) ∈ (run config extensionId events).settlements → how ≠ .result := by
  have sound : Sound (run config extensionId events).delivery := by
    have first : Sound (start extensionId).delivery := by
      constructor <;> simp [start,delivery,Delivery.queued]
    exact runUnder (I := fun s : ChromeBridge => Sound s.delivery) first
      (fun s e h fine => soundStep config h fine) events fine
  generalize run config extensionId events = s at sound
  constructor
  · exact sound.handedOnce
  constructor
  · exact sound.handedRight
  constructor
  · exact sound.settledOnce
  constructor
  · intro c taken
    cases sound.accepted c taken with
    | inr settled => exact .inl settled
    | inl waits =>
      refine .inr ⟨?_,?_⟩
      · intro settled
        obtain ⟨e,inside,same⟩ := List.mem_map.mp settled
        exact sound.settledEnded e inside (same ▸ List.mem_map.mpr ⟨c,waits,rfl⟩)
      · have found : (s.waiters.find? fun other => other.id = c.id).isSome :=
          List.find?_isSome.mpr ⟨c,waits,by simp⟩
        obtain ⟨other,at_⟩ := Option.isSome_iff_exists.mp found
        have trimmed (t : ChromeBridge) : t.trimRevokedIds.settlements = t.settlements := by
          unfold trimRevokedIds
          split <;> rfl
        unfold commandTimeout
        rw [at_]
        dsimp only
        rw [trimmed]
        exact List.mem_append_right _ (List.mem_singleton_self _)
  · intro id how ended result same
    subst same
    have one := fun kind (member : (id,kind) ∈ s.settlements) =>
      List.inj_on_of_nodup_map sound.settledOnce member result rfl
    cases ended with
    | inl revoked => exact absurd (one _ revoked) (by simp)
    | inr timedOut => exact absurd (one _ timedOut) (by simp)

def demoQuery : InstanceQuery :=
  ⟨some (js "instance-a"),some (js "1"),some (js "chrome"),some (js "1.2.3"),none⟩

def demoPoll : BridgeEvent := .poll (demoOrigin "companion-a") (some (js "pairing-secret")) demoQuery 0 0

def demoResult : BridgeEvent := .result (demoOrigin "companion-a") (some (js "pairing-secret")) demoQuery 0

def deliveredEvents : List BridgeEvent :=
  pairedEvents ++ [.command true (.parsed (demoCommand 0)),demoPoll,demoResult,
    .resultBody 1 (.parsed ⟨numbered 0,.null⟩)]

theorem commandDelivered : (run demoConfig none deliveredEvents).handed.all (fun h =>
    h.poller == some h.command.targetInstanceId && h.waiting) = true := by
  have delivered := (commandsDelivered demoConfig none deliveredEvents (by decide)).2.1
  refine List.all_eq_true.mpr fun h member => ?_
  obtain ⟨poller,waiting⟩ := delivered h member
  rw [Bool.and_eq_true,beq_iff_eq]
  exact ⟨poller,waiting⟩

/- A result that comes before the poll ends the wait, and the command is handed over after it. -/
theorem endedDelivered : ¬ ∀ (config : BridgeConfig) (extensionId : Option JsString) (events : List BridgeEvent),
    (run config extensionId events).posted.Nodup →
      ∀ h ∈ (run config extensionId events).handed, h.waiting = true := by
  intro always
  have handed : ((run demoConfig none (pairedEvents ++ [.command true (.parsed (demoCommand 0)),demoResult,
      .resultBody 1 (.parsed ⟨numbered 0,.null⟩),demoPoll])).handed[0]?.map (·.waiting)) = some false := by
    decide
  obtain ⟨h,there,over_⟩ := Option.map_eq_some_iff.mp handed
  have waiting := always demoConfig none _ (by decide) h (List.mem_of_getElem? there)
  exact absurd (over_.symm.trans waiting) (by decide)

end ChromeBridge
end Northstar.Chrome
