import Northstar.Sidecar.Custody

/-! The manager's operations keep what its fields say about its children, but for a health
reply that is taken after the child has exited. -/
namespace Northstar.Sidecar
namespace SidecarManager
open Custody

/- The operations of the manager, each on a stored start. -/
theorem soundSettle {s : SidecarManager} {old r : Start} (h : Sound s.custody) (member : old ∈ s.starts)
    (f : Follows old r) : Sound (s.settle r).custody :=
  h.put member f.ends nofun

theorem soundPoint {s : SidecarManager} {old r : Start} (h : Sound s.custody) (member : old ∈ s.starts)
    (f : Follows old r) (written : waited r → Delivered s.children r) : Sound (s.put r).custody :=
  h.put member f written

theorem soundKill {s : SidecarManager} (h : Sound s.custody) (c : Nat) : Sound (s.kill c).custody :=
  h.change (fun _ _ wrong => absurd wrong nofun) (fun _ => rfl) fun _ _ running listening => ⟨running,listening⟩

theorem soundKillStale {s : SidecarManager} {old r : Start} (h : Sound s.custody) (member : old ∈ s.starts)
    (f : Follows old r) (stale : r.generation ≠ s.startGeneration) : Sound (s.killStaleChild r).custody := by
  cases mine : r.child with
  | none =>
    rw [killStaleChild,mine]
    exact h
  | some c =>
    simp only [killStaleChild,mine,releaseStaleChild]
    have his : old.child = some c := f.child.symm.trans mine
    by_cases here : s.process = some c
    · have idle := staleFree h member (fun same => stale (f.generation.trans same)) his here
      have lost := h.lose (f := fun child => { child with killed := true }) here (fun _ => .inr rfl)
        (fun _ => rfl) idle
      have quiet := lost.change (c := c) (f := fun child => { child with listening := false })
        (fun _ running fine => ⟨running,fine⟩) (fun _ => rfl) nofun
      rw [show (if (s.kill c).process = some c then none else (s.kill c).process) = none from if_pos here]
      exact quiet
    · have quiet := (soundKill h c).change (c := c) (f := fun child => { child with listening := false })
        (fun _ running fine => ⟨running,fine⟩) (fun _ => rfl) (fun same => absurd same here)
      rw [show (if (s.kill c).process = some c then none else (s.kill c).process) = s.process from if_neg here]
      exact quiet

theorem soundDrop {s : SidecarManager} {old r : Start} (h : Sound s.custody) (member : old ∈ s.starts)
    (f : Follows old r) (stale : r.generation ≠ s.startGeneration) : Sound (s.dropToken r).custody := by
  unfold dropToken
  split
  · rename_i own
    simp only [Bool.and_eq_true,decide_eq_true_eq] at own
    obtain ⟨t,mine⟩ := Option.isSome_iff_exists.mp own.1
    exact h.drop member (fun same => stale (f.generation.trans same)) (f.authToken.symm.trans mine)
      (own.2.trans mine)
  · exact h

theorem staleOf {s : SidecarManager} {old r : Start} (h : Sound s.custody) (member : old ∈ s.starts)
    (f : Follows old r) (cancelled : s.cancelled r) : r.generation ≠ s.startGeneration := by
  simp only [SidecarManager.cancelled,Bool.or_eq_true,decide_eq_true_eq] at cancelled
  cases cancelled with
  | inl apart => exact apart
  | inr stopped => exact fun same => h.stopped stopped old member (f.generation.symm.trans same)

theorem currentOf {s : SidecarManager} {r : Start} (fine : ¬s.cancelled r) :
    r.generation = s.startGeneration ∧ s.status ≠ .stopped := by
  simpa [SidecarManager.cancelled] using fine

theorem killStaleStarts (r : Start) (s : SidecarManager) :
    (s.killStaleChild r).starts = s.starts ∧ (s.killStaleChild r).startGeneration = s.startGeneration ∧
      (s.killStaleChild r).status = s.status := by
  unfold killStaleChild
  split
  · exact ⟨rfl,rfl,rfl⟩
  · unfold releaseStaleChild
    split <;> exact ⟨rfl,rfl,rfl⟩

theorem dropTokenSame (r : Start) (s : SidecarManager) : (s.dropToken r).starts = s.starts ∧
    (s.dropToken r).process = s.process ∧ ∃ token, (s.dropToken r).custody = { s.custody with authToken := token } := by
  unfold dropToken
  split
  · exact ⟨rfl,rfl,none,rfl⟩
  · exact ⟨rfl,rfl,s.authToken,rfl⟩

theorem soundFailed {s : SidecarManager} {old r : Start} (message : String) (h : Sound s.custody)
    (member : old ∈ s.starts) (f : Follows old r) : Sound (s.failed r message).custody := by
  unfold failed
  split
  · rename_i cancelled
    have stale := staleOf h member f cancelled
    obtain ⟨starts,generation,_⟩ := killStaleStarts r s
    have killed := soundDrop (soundKillStale h member f stale) (starts ▸ member) f (generation ▸ stale)
    refine soundSettle killed ?_ f
    rw [(dropTokenSame r _).1,starts]
    exact member
  · rename_i fine
    obtain ⟨current,_⟩ := currentOf fine
    have now : old.generation = s.startGeneration := f.generation.symm.trans current
    obtain ⟨starts,process,token,same⟩ := dropTokenSame r s
    have turned := h.turn .error nofun nofun
    have ended (t : SidecarManager) (sound : Sound t.custody) (there : t.starts = s.starts) :
        Sound (t.settle r).custody := soundSettle sound (there ▸ member) f
    have dropped (free : ∀ c, r.child = some c → s.process ≠ some c) :
        Sound { s.custody with status := .error, authToken := token } :=
      turned.fail member now (fun c his => free c (f.child.trans his)) nofun token
    have noted (error : Option String) :
        ({ s.dropToken r with status := .error, error := error } : SidecarManager).custody =
          { s.custody with status := .error, authToken := token } := by
      rw [show ({ s.dropToken r with status := .error, error := error } : SidecarManager).custody =
        { (s.dropToken r).custody with status := .error } from rfl,same]
    dsimp only
    split
    · rename_i none_
      refine ended _ ?_ starts
      rw [noted]
      exact dropped fun c his => absurd (none_.symm.trans his) nofun
    · rename_i c mine
      split
      · rename_i here
        rw [process] at here
        refine ended _ ?_ starts
        have lost := turned.lose (f := fun child => { child with killed := true }) here (fun _ => .inr rfl)
          (fun _ => rfl) nofun
        have gone := lost.fail member now nofun nofun token
        have children : (s.dropToken r).children = s.children := congrArg Custody.children same
        have generation : (s.dropToken r).startGeneration = s.startGeneration :=
          congrArg Custody.startGeneration same
        have minted : (s.dropToken r).minted = s.minted := congrArg Custody.minted same
        have timer : (s.dropToken r).backoffTimer = s.backoffTimer := congrArg Custody.backoffTimer same
        have held : (s.dropToken r).authToken = token := congrArg Custody.authToken same
        simp only [custody,kill,changeChild,children,generation,minted,timer,held,starts]
        exact gone
      · rename_i other
        rw [process] at other
        refine ended _ ?_ starts
        rw [noted]
        exact dropped fun i his => by
          rw [Option.some.inj (his.symm.trans mine)]
          exact other

theorem soundWithPort (options : SidecarOptions) {s : SidecarManager} {r : Start} (port : Nat)
    (launch : Option String) (h : Sound s.custody) (member : r ∈ s.starts) (waits : r.point = .port) :
    Sound (s.withPort options r port launch).custody := by
  unfold withPort
  split
  · exact soundSettle h member (followsSame r)
  rename_i fine
  obtain ⟨current,_⟩ := currentOf fine
  split
  · exact soundFailed (s := { s with port := some port }) _ h member (followsSame r)
  · exact h.spawn member waits current ⟨rfl,rfl⟩ rfl rfl ((h.each r member).port waits).2 rfl

theorem soundKillProcess {s : SidecarManager} (h : Sound s.custody) (idle : s.status ≠ .running) :
    Sound s.killProcess.custody ∧ s.killProcess.process = none := by
  unfold killProcess
  split
  · rename_i gone
    exact ⟨h,gone⟩
  · rename_i c here
    exact ⟨h.lose (f := fun child => { child with killed := true }) here (fun _ => .inr rfl)
      (fun _ => rfl) idle,rfl⟩

theorem soundBegin (options : SidecarOptions) {s : SidecarManager} (launch : Option String)
    (h : Sound s.custody) : Sound (s.begin options launch).custody := by
  unfold begin
  split
  · exact h
  rename_i idle
  split
  · exact h
  obtain ⟨cleaned,gone⟩ := soundKillProcess h idle
  have generation : s.killProcess.startGeneration = s.startGeneration := by
    unfold killProcess
    split <;> rfl
  obtain ⟨later,less⟩ := cleaned.supersede .starting nofun s.killProcess.authToken
  have entered := later.enter gone rfl rfl less
  dsimp only
  split
  · rw [← generation]
    exact entered
  · rw [← generation]
    exact soundWithPort options _ launch
      (s := { s.killProcess with
        status := .starting, error := none, backoffTimer := none,
        startGeneration := s.killProcess.startGeneration + 1,
        starts := s.killProcess.starts ++ [⟨s.killProcess.startGeneration + 1,.port,none,none,0,.pending,none⟩] })
      entered (List.mem_append_right _ (List.mem_singleton_self _)) rfl

theorem soundSpawnFailed {s : SidecarManager} {r : Start} (message : String) (h : Sound s.custody)
    (member : r ∈ s.starts) : Sound (s.spawnFailed r message).custody := by
  unfold spawnFailed
  split
  · exact h
  rename_i c mine
  dsimp only
  have exited (other : s.process ≠ some c) :
      Sound (s.changeChild c fun child => { child with exited := true }).custody :=
    h.change (fun _ wrong => absurd wrong nofun) (fun _ => rfl) fun same => absurd same other
  split
  · rename_i cancelled
    have stale : r.generation ≠ s.startGeneration := staleOf h member (followsSame r) cancelled
    refine soundSettle ?_ ?_ (followsSame r)
    · simp only [releaseStaleChild,mine]
      by_cases here : s.process = some c
      · have lost := h.lose (f := fun child => { child with exited := true }) here (fun _ => .inl rfl)
          (fun _ => rfl) (staleFree h member stale mine here)
        have quiet := lost.change (c := c) (f := fun child => { child with listening := false })
          (fun _ running fine => ⟨running,fine⟩) (fun _ => rfl) nofun
        simp only [changeChild,here]
        exact quiet
      · have quiet := (exited here).change (c := c) (f := fun child => { child with listening := false })
          (fun _ running fine => ⟨running,fine⟩) (fun _ => rfl) (fun same => absurd same here)
        simp only [changeChild,here]
        exact quiet
    · simp only [releaseStaleChild,mine]
      exact member
  · rename_i fine
    obtain ⟨current,_⟩ := currentOf (s := s) (r := r) fine
    have turned := h.turn .error nofun nofun
    refine soundFailed message ?_ member (followsSame r)
    cases here : s.process with
    | none =>
      have changed := turned.change (c := c) (f := fun child => { child with exited := true })
        (fun _ wrong => absurd wrong nofun) (fun _ => rfl) fun same => absurd (here.symm.trans same) nofun
      have gone : s.process = none := here
      simp only [custody,changeChild,gone] at changed ⊢
      exact changed
    | some i =>
      have same : i = c := Option.some.inj (((h.each r member).process current i here).symm.trans mine)
      exact turned.lose (c := c) (f := fun child => { child with exited := true }) (same ▸ here) (fun _ => .inl rfl)
        (fun _ => rfl) nofun

theorem soundMint {s : SidecarManager} {r : Start} (h : Sound s.custody) (found : s.firstSpawned = some r) :
    Sound (s.mintToken r).custody := by
  obtain ⟨spawned,before,after,starts,earlier⟩ := List.find?_eq_some_iff_append.mp found
  have spawned : r.point = .spawned := of_decide_eq_true spawned
  have member : r ∈ s.starts := List.mem_of_find?_eq_some found
  refine h.mint member spawned ?_ rfl rfl rfl rfl
  intro o inside less
  have order := h.order
  rw [show s.custody.starts = s.starts from rfl,starts] at order
  obtain ⟨_,later,_⟩ := List.pairwise_append.mp order
  rw [show s.custody.starts = s.starts from rfl,starts] at inside
  cases List.mem_append.mp inside with
  | inl first => simpa using earlier o first
  | inr rest =>
    cases List.mem_cons.mp rest with
    | inl same => exact absurd less (by rw [same]; exact Nat.lt_irrefl _)
    | inr behind =>
      exact absurd less (Nat.lt_asymm ((List.pairwise_cons.mp later).1 o behind).generation)

theorem soundPoll (options : SidecarOptions) {s : SidecarManager} {old r : Start} (deadline : Int)
    (h : Sound s.custody) (member : old ∈ s.starts) (f : Follows old r) (going : old.point ≠ .over)
    (delivered : Delivered s.children r) : Sound (s.pollHealth options r deadline).custody := by
  unfold pollHealth
  split
  · split
    · exact soundFailed _ h member f
    · exact soundPoint h member ⟨f.generation,f.child,f.authToken,nofun,nofun,nofun,fun gone => absurd gone going⟩
        fun _ => delivered
  · have turned := h.turn .error nofun nofun
    dsimp only
    exact soundFailed (s := { s with status := .error, error := some _ }) _ turned member f

theorem soundPortKnown (options : SidecarOptions) {s : SidecarManager} {old r : Start}
    (h : Sound s.custody) (member : old ∈ s.starts) (f : Follows old r) (going : old.point ≠ .over)
    (delivered : Delivered s.children r) : Sound (s.portKnown options r).custody := by
  unfold portKnown
  split
  · rename_i cancelled
    have killed := soundKillStale h member f (staleOf h member f cancelled)
    exact soundSettle killed ((killStaleStarts r s).1 ▸ member) f
  · exact soundPoll options _ h member f going delivered

theorem soundAwait (options : SidecarOptions) {s : SidecarManager} {old r : Start}
    (h : Sound s.custody) (member : old ∈ s.starts) (f : Follows old r) (going : old.point ≠ .over)
    (delivered : Delivered s.children r) : Sound (s.awaitPortLine options r).custody := by
  unfold awaitPortLine
  split
  · exact soundPoint h member ⟨f.generation,f.child,f.authToken,nofun,nofun,nofun,fun gone => absurd gone going⟩
      fun _ => delivered
  · exact soundPortKnown options h member f going delivered
  · exact soundFailed _ h member f

theorem soundWritten (options : SidecarOptions) {s : SidecarManager} {r : Start}
    (h : Sound s.custody) (member : r ∈ s.starts) (point : r.point = .token) :
    Sound (s.tokenWritten options r).custody := by
  unfold tokenWritten
  split
  · exact h
  · rename_i c mine
    obtain ⟨wrote,delivered⟩ := h.write member point mine
    exact soundAwait options (s := s.changeChild c fun child => { child with written := r.authToken }) wrote
      member (followsSame r) (by rw [point]; exact nofun) delivered

theorem soundLine (options : SidecarOptions) {s : SidecarManager} {r : Start} (line : PortLine)
    (h : Sound s.custody) (member : r ∈ s.starts) : Sound (s.settlePortLine options r line).custody := by
  have f : Follows r { r with portLine := line } := ⟨rfl,rfl,rfl,id,id,id,id⟩
  have placed := h.each r member
  unfold settlePortLine
  dsimp only
  split
  · rename_i waits
    exact soundAwait options h member f (by rw [waits]; exact nofun) (placed.written (by rw [waited,waits]))
  · exact soundPoint h member f placed.written

/- The condition on a reply: a start that is not superseded still has its child. -/
theorem soundHealthy {s : SidecarManager} {r : Start} (h : Sound s.custody) (member : r ∈ s.starts)
    (asks : asking r) (fine : s.cancelled r = true ∨ s.process = r.child) : Sound (s.healthy r).custody := by
  unfold healthy
  split
  · rename_i cancelled
    have killed := soundKillStale h member (followsSame r) (staleOf h member (followsSame r) cancelled)
    exact soundSettle killed ((killStaleStarts r s).1 ▸ member) (followsSame r)
  · rename_i going
    obtain ⟨current,_⟩ := currentOf going
    have waits : waited r := by
      unfold asking at asks
      unfold waited
      split at asks
      · rename_i point
        rw [point]
      · exact absurd asks (by decide)
    exact h.succeed member current ((h.each r member).written waits) (fine.resolve_left going)

theorem soundHandled (options : SidecarOptions) {s : SidecarManager} {c : Nat} (h : Sound s.custody)
    (here : s.process = some c) :
    Sound ((s.changeChild c fun child => { child with exited := true }).handleExit options).custody := by
  have busy : ∀ r ∈ s.starts, r.point = .port → r.generation ≠ s.startGeneration := by
    intro r inside port current
    exact absurd (((h.each r inside).clear port current).1.symm.trans here) nofun
  have down (status : SidecarStatus) (idle : status ≠ .running) (stopped : status = .stopped → s.status = .stopped)
      (timer : Option Int) : Sound { s.custody with
        status := status, authToken := none, backoffTimer := timer, process := none,
        children := s.children.modify c fun child => { child with exited := true } } := by
    have lost := (h.turn status idle stopped).lose (f := fun child => { child with exited := true }) here
      (fun _ => .inl rfl) (fun _ => rfl) idle
    exact lost.crash rfl idle busy none timer
  unfold handleExit
  dsimp only
  split
  · rename_i stopped
    have stopped : s.status = .stopped := stopped
    have ended := down s.status (by rw [stopped]; exact nofun) id s.backoffTimer
    exact ended
  · split
    · exact down .error nofun nofun s.backoffTimer
    · exact down .starting nofun nofun _

theorem handledStarts (options : SidecarOptions) (s : SidecarManager) : (s.handleExit options).starts = s.starts := by
  unfold handleExit
  dsimp only
  split
  · rfl
  split <;> rfl

theorem soundExit (options : SidecarOptions) {s : SidecarManager} (c : Nat) (h : Sound s.custody) :
    Sound (s.exit options c).custody := by
  unfold exit
  split
  · exact h
  rename_i child there
  split
  · exact h
  dsimp only
  have other (apart : s.process ≠ some c) :
      Sound (s.changeChild c fun child => { child with exited := true }).custody :=
    h.change (fun _ wrong => absurd wrong nofun) (fun _ => rfl) fun same => absurd same apart
  split
  · rename_i deaf
    apply other
    intro same
    obtain ⟨held,at_,_,listening⟩ := h.held c same
    have one : child = held := Option.some.inj (there.symm.trans at_)
    rw [one,listening] at deaf
    exact absurd deaf (by decide)
  have handled : Sound (if (s.changeChild c fun child => { child with exited := true }).process = some c then
      (s.changeChild c fun child => { child with exited := true }).handleExit options
      else s.changeChild c fun child => { child with exited := true }).custody := by
    split
    · rename_i here
      exact soundHandled options h here
    · rename_i apart
      exact other apart
  generalize (if (s.changeChild c fun child => { child with exited := true }).process = some c then
      (s.changeChild c fun child => { child with exited := true }).handleExit options
      else s.changeChild c fun child => { child with exited := true }) = t at handled ⊢
  split
  · exact handled
  · rename_i r found
    exact soundLine options _ handled (List.mem_of_find?_eq_some found)

theorem soundStop {s : SidecarManager} (h : Sound s.custody) : Sound s.stop.custody := by
  unfold stop
  dsimp only
  split
  · rename_i gone
    exact (h.supersede .stopped nofun none).1
  · rename_i c here
    have lost := (h.turn .error nofun nofun).lose
      (f := fun child => { child with listening := false, killed := true }) here (fun _ => .inr rfl)
      (fun _ => rfl) nofun
    exact (lost.supersede .stopped nofun none).1

/- The two steps at which the fields come apart: a start takes its health reply after its
child has exited, and one that was stopped runs into the deadline of its polls. -/
def heeds (s : SidecarManager) : SidecarEvent → Bool
  | .healthReply generation true => (s.startAt generation asking).all fun r => s.cancelled r || s.process = r.child
  | .wake generation => (s.startAt generation sleeping).all fun r => s.clock < deadline r || s.status ≠ .stopped
  | _ => true

theorem soundResume {s : SidecarManager} {generation : Nat} {here : Start → Bool}
    {next : Start → SidecarManager → SidecarManager} (h : Sound s.custody)
    (each : ∀ r ∈ s.starts, s.startAt generation here = some r → here r → Sound (next r s).custody) :
    Sound (s.resume generation here next).custody := by
  unfold resume
  split
  · exact h
  · rename_i r found
    have fits := List.find?_some found
    simp only [Bool.and_eq_true] at fits
    exact each r (List.mem_of_find?_eq_some found) found fits.2

theorem soundStep (options : SidecarOptions) {s : SidecarManager} {e : SidecarEvent} (h : Sound s.custody)
    (fine : heeds s e) : Sound (step options s e).custody := by
  have asks (r : Start) (on : asking r) : r.point ≠ .over ∧ waited r := by
    unfold asking at on
    unfold waited
    split at on
    · rename_i point
      rw [point]
      exact ⟨nofun,rfl⟩
    · exact absurd on (by decide)
  have sleeps (r : Start) (on : sleeping r) : r.point ≠ .over ∧ waited r := by
    unfold sleeping at on
    unfold waited
    split at on
    · rename_i point
      rw [point]
      exact ⟨nofun,rfl⟩
    · exact absurd on (by decide)
  have slept (r : Start) (inside : r ∈ s.starts) (on : asking r) (note : Option String) :
      Sound (s.put { r with point := .health (deadline r) false, lastError := note }).custody :=
    soundPoint h inside ⟨rfl,rfl,rfl,nofun,nofun,nofun,fun gone => absurd gone (asks r on).1⟩
      fun _ => (h.each r inside).written (asks r on).2
  cases e with
  | start launch => exact soundBegin options launch h
  | ensureRunning launch =>
    simp only [step,ensureRunning]
    split
    · exact h
    · exact h
    · exact soundBegin options launch h
    · exact soundBegin options launch h
  | stop => exact soundStop h
  | stopSettled generation =>
    simp only [step,stopSettled]
    split
    · exact h
    · split <;> exact h
  | portFound generation port launch =>
    exact soundResume h fun r inside _ at_ => soundWithPort options port launch h inside (of_decide_eq_true at_)
  | portFailed generation message =>
    exact soundResume h fun r inside _ _ => soundFailed message h inside (followsSame r)
  | immediate =>
    simp only [step]
    split
    · exact h
    · rename_i r found
      exact soundMint h found
  | spawnError generation message =>
    exact soundResume h fun r inside _ _ => soundSpawnFailed message h inside
  | tokenWritten generation =>
    exact soundResume h fun r inside _ at_ => soundWritten options h inside (of_decide_eq_true at_)
  | tokenFailed generation message =>
    exact soundResume h fun r inside _ _ => soundFailed message h inside (followsSame r)
  | portLine generation port => exact soundResume h fun r inside _ _ => soundLine options _ h inside
  | portLineFailed generation message => exact soundResume h fun r inside _ _ => soundLine options _ h inside
  | healthReply generation ok =>
    refine soundResume h fun r inside found on => ?_
    split
    · rename_i good
      subst good
      simp only [heeds,found,Option.all_some,Bool.or_eq_true,decide_eq_true_eq] at fine
      exact soundHealthy h inside on fine
    · exact slept r inside on r.lastError
  | healthFailed generation message => exact soundResume h fun r inside _ on => slept r inside on (some message)
  | wake generation =>
    refine soundResume h fun r inside _ on => ?_
    exact soundPoll options _ h inside (followsSame r) (sleeps r on).1 ((h.each r inside).written (sleeps r on).2)
  | exit child => exact soundExit options child h
  | backoff launch =>
    simp only [step]
    split
    · exact h
    · exact soundBegin options (s := { s with backoffTimer := none }) launch h.disarm
  | pass ms => exact h

/- A stopped manager: every start is cancelled, and none changes what the stop has left. -/
structure Quiet (n : Nat) (s : SidecarManager) : Prop where
  status : s.status = .stopped
  backoffTimer : s.backoffTimer = none
  children : s.children.length = n

theorem Quiet.cancels {n : Nat} {s : SidecarManager} (h : Quiet n s) (r : Start) : s.cancelled r = true := by
  simp [SidecarManager.cancelled,h.status]

theorem quietChange {n c : Nat} {f : Child → Child} {s : SidecarManager} (h : Quiet n s) :
    Quiet n (s.changeChild c f) :=
  ⟨h.status,h.backoffTimer,(List.length_modify ..).trans h.children⟩

theorem quietRelease {n : Nat} {s : SidecarManager} (h : Quiet n s) (r : Start) :
    Quiet n (s.releaseStaleChild r) := by
  unfold releaseStaleChild
  split
  · exact h
  · rename_i c _
    have changed := quietChange (c := c) (f := fun child => { child with listening := false }) h
    exact ⟨changed.status,changed.backoffTimer,changed.children⟩

theorem quietKillStale {n : Nat} {s : SidecarManager} (h : Quiet n s) (r : Start) :
    Quiet n (s.killStaleChild r) := by
  unfold killStaleChild
  split
  · exact h
  · exact quietRelease (quietChange h) r

theorem quietSettle {n : Nat} {s : SidecarManager} (h : Quiet n s) (r : Start) : Quiet n (s.settle r) :=
  ⟨h.status,h.backoffTimer,h.children⟩

theorem quietFailed {n : Nat} {s : SidecarManager} (h : Quiet n s) (r : Start) (message : String) :
    Quiet n (s.failed r message) := by
  unfold failed
  rw [if_pos (h.cancels r)]
  apply quietSettle
  have killed := quietKillStale h r
  unfold dropToken
  split
  · exact ⟨killed.status,killed.backoffTimer,killed.children⟩
  · exact killed

theorem quietSpawnFailed {n : Nat} {s : SidecarManager} (h : Quiet n s) (r : Start) (message : String) :
    Quiet n (s.spawnFailed r message) := by
  unfold spawnFailed
  split
  · exact h
  · rename_i c _
    have changed := quietChange (c := c) (f := fun child => { child with exited := true }) h
    dsimp only
    rw [if_pos (changed.cancels r)]
    exact quietSettle (quietRelease changed r) r

theorem quietAwait (options : SidecarOptions) {n : Nat} {s : SidecarManager} (h : Quiet n s) (r : Start) :
    Quiet n (s.awaitPortLine options r) := by
  unfold awaitPortLine
  split
  · exact ⟨h.status,h.backoffTimer,h.children⟩
  · unfold portKnown
    rw [if_pos (h.cancels r)]
    exact quietSettle (quietKillStale h r) r
  · exact quietFailed h r _

theorem quietLine (options : SidecarOptions) {n : Nat} {s : SidecarManager} (h : Quiet n s) (r : Start)
    (line : PortLine) : Quiet n (s.settlePortLine options r line) := by
  unfold settlePortLine
  dsimp only
  split
  · exact quietAwait options h _
  · exact ⟨h.status,h.backoffTimer,h.children⟩

theorem quietExit (options : SidecarOptions) {n : Nat} {s : SidecarManager} (h : Quiet n s) (c : Nat) :
    Quiet n (s.exit options c) := by
  unfold exit
  split
  · exact h
  split
  · exact h
  have changed := quietChange (c := c) (f := fun child => { child with exited := true }) h
  dsimp only
  split
  · exact changed
  have handled : Quiet n (if (s.changeChild c fun child => { child with exited := true }).process = some c then
      (s.changeChild c fun child => { child with exited := true }).handleExit options
      else s.changeChild c fun child => { child with exited := true }) := by
    split
    · unfold handleExit
      dsimp only
      rw [if_pos changed.status]
      exact ⟨changed.status,changed.backoffTimer,changed.children⟩
    · exact changed
  split
  · exact handled
  · exact quietLine options handled _ _

theorem quietStop {n : Nat} {s : SidecarManager} (size : s.children.length = n) : Quiet n s.stop := by
  unfold stop
  dsimp only
  split
  · exact ⟨rfl,rfl,size⟩
  · exact ⟨rfl,rfl,(List.length_modify ..).trans size⟩

/- The caller's calls that may start the sidecar. -/
def calls : SidecarEvent → Bool
  | .start _ | .ensureRunning _ => true
  | _ => false

theorem quietStep (options : SidecarOptions) {n : Nat} {s : SidecarManager} {e : SidecarEvent} (h : Quiet n s)
    (fine : heeds s e) (still : calls e = false) : Quiet n (step options s e) := by
  have resumed {generation : Nat} {here : Start → Bool} {next : Start → SidecarManager → SidecarManager}
      (each : ∀ r, s.startAt generation here = some r → Quiet n (next r s)) :
      Quiet n (s.resume generation here next) := by
    unfold resume
    split
    · exact h
    · rename_i r found
      exact each r found
  cases e with
  | start => exact absurd still (by simp [calls])
  | ensureRunning => exact absurd still (by simp [calls])
  | stop => exact quietStop h.children
  | stopSettled generation =>
    simp only [step,stopSettled]
    split
    · exact h
    · split <;> exact ⟨h.status,h.backoffTimer,h.children⟩
  | portFound generation port launch =>
    refine resumed fun r _ => ?_
    unfold withPort
    rw [if_pos (h.cancels r)]
    exact quietSettle h r
  | portFailed generation message => exact resumed fun r _ => quietFailed h r message
  | immediate =>
    simp only [step]
    split
    · exact h
    · exact ⟨h.status,h.backoffTimer,h.children⟩
  | spawnError generation message => exact resumed fun r _ => quietSpawnFailed h r message
  | tokenWritten generation =>
    refine resumed fun r _ => ?_
    unfold tokenWritten
    split
    · exact h
    · exact quietAwait options (quietChange h) r
  | tokenFailed generation message => exact resumed fun r _ => quietFailed h r message
  | portLine generation port => exact resumed fun r _ => quietLine options h r _
  | portLineFailed generation message => exact resumed fun r _ => quietLine options h r _
  | healthReply generation ok =>
    refine @resumed _ _ (fun r s => if ok then s.healthy r else s.put { r with point := .health (deadline r) false })
      fun r _ => ?_
    split
    · unfold healthy
      rw [if_pos (h.cancels r)]
      exact quietSettle (quietKillStale h r) r
    · exact ⟨h.status,h.backoffTimer,h.children⟩
  | healthFailed generation message => exact resumed fun r _ => ⟨h.status,h.backoffTimer,h.children⟩
  | wake generation =>
    refine resumed fun r found => ?_
    simp only [heeds,found,Option.all_some,Bool.or_eq_true,decide_eq_true_eq] at fine
    unfold pollHealth
    rw [if_pos (fine.resolve_right (not_not.mpr h.status))]
    split
    · exact quietFailed h r _
    · exact ⟨h.status,h.backoffTimer,h.children⟩
  | exit child => exact quietExit options h child
  | backoff launch =>
    simp only [step,h.backoffTimer]
    exact h
  | pass ms => exact ⟨h.status,h.backoffTimer,h.children⟩

theorem quietRun (options : SidecarOptions) {n : Nat} {s : SidecarManager} (h : Quiet n s)
    (later : List SidecarEvent) (fine : Meets (fun s e => heeds s e) (step options) s later)
    (still : ∀ e ∈ later, calls e = false) : Quiet n (later.foldl (step options) s) := by
  induction later generalizing s with
  | nil => exact h
  | cons e more ih =>
    have next := quietStep options h fine.1 (still e List.mem_cons_self)
    exact ih next fine.2 fun e member => still e (List.mem_cons_of_mem _ member)

/- A child that has neither exited nor been sent a signal. -/
def alive (s : SidecarManager) (c : Nat) : Bool := s.children[c]?.any fun child => !child.exited && !child.killed

theorem aliveOf {s : SidecarManager} {c : Nat} (h : s.alive c) : s.custody.Alive c := by
  obtain ⟨child,there,running⟩ := (Option.any_eq_true ..).mp h
  simp only [Bool.and_eq_true,Bool.not_eq_true'] at running
  exact ⟨child,there,running⟩

/-- At most one child is alive; a running manager's process is a child that has not exited
and was given the stored token, with no restart pending; after a stop, with no call that
starts, the manager stays stopped and spawns no child. -/
theorem supervised (options : SidecarOptions) (events : List SidecarEvent)
    (fine : Meets (fun s e => heeds s e) (step options) {} events) :
    (∀ c d, (run options events).alive c → (run options events).alive d → c = d) ∧
    ((run options events).status = .running → ∃ c child t, (run options events).process = some c ∧
      (run options events).children[c]? = some child ∧ child.exited = false ∧
      (run options events).authToken = some t ∧ child.written = some t ∧
      (run options events).backoffTimer = none) ∧
    ∀ before later, events = before ++ .stop :: later → (∀ e ∈ later, calls e = false) →
      (run options events).status = .stopped ∧
      (run options events).children.length = (run options before).children.length := by
  have sound : Sound (run options events).custody := by
    have first : Sound ({} : SidecarManager).custody := by
      constructor
      · rintro c ⟨child,there,_⟩
        exact absurd there nofun
      · exact nofun
      · exact nofun
      · exact .nil
      · exact nofun
      · exact nofun
      · exact nofun
    exact runUnder (I := fun s : SidecarManager => Sound s.custody) first
      (fun s e h fine => soundStep options h fine) events fine
  constructor
  · intro c d one two
    exact Option.some.inj ((sound.only c (aliveOf one)).symm.trans (sound.only d (aliveOf two)))
  constructor
  · intro running
    obtain ⟨r,_,runs⟩ := sound.running running
    obtain ⟨c,t,child,mine,token,there,wrote⟩ := runs.delivered
    have process := runs.process.trans mine
    obtain ⟨held,at_,fresh,_⟩ := sound.held c process
    have same : child = held := Option.some.inj (there.symm.trans at_)
    exact ⟨c,child,t,process,there,same ▸ fresh,runs.authToken.trans token,wrote,runs.backoffTimer⟩
  · intro before later same still
    subst same
    obtain ⟨_,_,rest⟩ := meetsAppend.mp fine
    have stopped : Quiet (run options before).children.length (step options (run options before) .stop) :=
      quietStop rfl
    have quiet := quietRun options stopped later rest still
    have last : run options (before ++ .stop :: later) =
        later.foldl (step options) (step options (run options before) .stop) := by
      rw [run,List.foldl_append]
      rfl
    rw [last]
    exact ⟨quiet.status,quiet.children⟩

def demoOptions : SidecarOptions := ⟨"app.py","python3","all-MiniLM-L6-v2","",none,60000,1000,30000⟩

def askedEvents : List SidecarEvent :=
  [.start none,.portFound 1 8765 none,.immediate,.tokenWritten 1,.portLine 1 8765]

theorem sidecarRuns : ∃ c child t, (run demoOptions (askedEvents ++ [.healthReply 1 true])).process = some c ∧
    (run demoOptions (askedEvents ++ [.healthReply 1 true])).children[c]? = some child ∧ child.exited = false ∧
    (run demoOptions (askedEvents ++ [.healthReply 1 true])).authToken = some t ∧ child.written = some t ∧
    (run demoOptions (askedEvents ++ [.healthReply 1 true])).backoffTimer = none :=
  (supervised demoOptions (askedEvents ++ [.healthReply 1 true]) (by decide)).2.1 (by decide)

/- The child exits while its good health reply is read. -/
theorem exitedRuns : ¬ ∀ (options : SidecarOptions) (events : List SidecarEvent),
    (run options events).status = .running →
      (run options events).process.isSome ∧ (run options events).backoffTimer = none := by
  intro always
  have dead := always demoOptions (askedEvents ++ [.exit 0,.healthReply 1 true]) (by decide)
  exact absurd dead (by decide)

end SidecarManager
end Northstar.Sidecar
