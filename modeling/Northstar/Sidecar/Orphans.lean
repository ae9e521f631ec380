import Northstar.Sidecar.Shared

/-! A child of the shared sidecar is its manager's process and its manager the singleton, so a hook
that is installed would stop it; but the hooks come only once an acquisition is past its start. -/
namespace Northstar.Sidecar
namespace SidecarManager

/- The child that lives is the process; a manager that was dropped has none and starts none. -/
structure Kept (dropped : Prop) (s : SidecarManager) : Prop where
  only : ∀ c, s.alive c → s.process = some c
  generation : ∀ r ∈ s.starts, r.generation ≤ s.startGeneration
  port : ∀ r ∈ s.starts, r.generation = s.startGeneration → r.point = .port → s.process = none
  process : ∀ r ∈ s.starts, r.generation = s.startGeneration → ∀ c, s.process = some c → r.child = some c
  gone : dropped → s.process = none ∧ s.backoffTimer = none ∧ ∀ r ∈ s.starts, r.generation ≠ s.startGeneration

variable {dropped : Prop} {s t : SidecarManager}

theorem Kept.same (h : Kept dropped s) (children : t.children = s.children) (process : t.process = s.process)
    (starts : t.starts = s.starts) (generation : t.startGeneration = s.startGeneration) (timer : t.backoffTimer = s.backoffTimer) :
    Kept dropped t := by
  have alike (c : Nat) : t.alive c = s.alive c := by
    unfold alive
    rw [children]
  constructor
  · intro c living
    exact process.trans (h.only c (alike c ▸ living))
  · rw [starts,generation]
    exact h.generation
  · rw [starts,generation,process]
    exact h.port
  · rw [starts,generation,process]
    exact h.process
  · rw [starts,generation,process,timer]
    exact h.gone

theorem Kept.change (h : Kept dropped s) (c : Nat) {f : Child → Child}
    (dies : ∀ child, !(f child).exited && !(f child).killed → !child.exited && !child.killed) :
    Kept dropped (s.changeChild c f) := by
  refine ⟨?_,h.generation,h.port,h.process,h.gone⟩
  intro i living
  obtain ⟨child,there,alive_⟩ := (Option.any_eq_true ..).mp living
  obtain ⟨old,at_,same⟩ := Custody.modified there
  refine h.only i ((Option.any_eq_true ..).mpr ⟨old,at_,?_⟩)
  split at same
  · exact dies old (same ▸ alive_)
  · exact same ▸ alive_

theorem Kept.kill (h : Kept dropped s) (c : Nat) : Kept dropped (s.kill c) := by
  refine h.change c fun child living => ?_
  simp at living

theorem killedDead (s : SidecarManager) (c : Nat) : (s.kill c).alive c = false := by
  unfold alive SidecarManager.kill changeChild
  rw [List.getElem?_modify]
  cases s.children[c]? with
  | none => rfl
  | some child => simp

theorem Kept.put (h : Kept dropped s) {old r : Start} (member : old ∈ s.starts) (generation : r.generation = old.generation)
    (child : r.child = old.child) (port : r.point = .port → old.point = .port) : Kept dropped (s.put r) := by
  have every {P : Start → Prop} (mine : P r) (others : ∀ other ∈ s.starts, P other) : ∀ other ∈ (s.put r).starts, P other := by
    intro other inside
    obtain ⟨before,there,same⟩ := List.mem_map.mp inside
    split at same
    · exact same ▸ mine
    · exact same ▸ others before there
  constructor
  · exact h.only
  · exact every (generation ▸ h.generation old member) h.generation
  · exact every (fun here at_ => h.port old member (generation ▸ here) (port at_)) h.port
  · exact every (fun here c is => child.trans (h.process old member (generation ▸ here) c is)) h.process
  · intro gone
    obtain ⟨none_,timer,stale⟩ := h.gone gone
    exact ⟨none_,timer,every (fun here => stale old member (generation ▸ here)) stale⟩

theorem Kept.settle (h : Kept dropped s) (old : Start) {r : Start} (member : old ∈ s.starts) (generation : r.generation = old.generation)
    (child : r.child = old.child) : Kept dropped (s.settle r) :=
  (h.put (r := { r with point := .over }) member generation child nofun).same rfl rfl rfl rfl rfl

/- A child that is not alive may be let go of. -/
theorem Kept.lose (h : Kept dropped s) {c : Nat} (dead : s.alive c = false) :
    Kept dropped { s with process := if s.process = some c then none else s.process } := by
  have less : ∀ i, (if s.process = some c then none else s.process) = some i → s.process = some i := by
    intro i is
    split at is
    · contradiction
    · exact is
  constructor
  · intro i living
    have mine := h.only i living
    change (if s.process = some c then none else s.process) = some i
    rw [if_neg ?_,mine]
    intro same
    rw [← Option.some.inj (mine.symm.trans same)] at dead
    exact Bool.false_ne_true (dead.symm.trans living)
  · exact h.generation
  · intro r member here at_
    change (if s.process = some c then none else s.process) = none
    rw [h.port r member here at_]
    exact ite_self none
  · intro r member here i is
    exact h.process r member here i (less i is)
  · intro gone
    obtain ⟨none_,rest⟩ := h.gone gone
    refine ⟨?_,rest⟩
    change (if s.process = some c then none else s.process) = none
    rw [none_]
    exact ite_self none

theorem Kept.release (h : Kept dropped s) {r : Start} (dead : ∀ c, r.child = some c → s.alive c = false) :
    Kept dropped (s.releaseStaleChild r) := by
  unfold releaseStaleChild
  split
  · exact h
  · rename_i c mine
    have lost := h.lose (dead c mine)
    exact (lost.change (f := fun child => { child with listening := false }) c fun child living => living).same rfl rfl rfl rfl rfl

theorem Kept.killStale (h : Kept dropped s) (r : Start) : Kept dropped (s.killStaleChild r) := by
  unfold killStaleChild
  split
  · exact h
  · rename_i c mine
    refine (h.kill c).release fun i is => ?_
    rw [mine] at is
    exact Option.some.inj is ▸ killedDead s c

theorem Kept.dropToken (h : Kept dropped s) (r : Start) : Kept dropped (s.dropToken r) := by
  unfold SidecarManager.dropToken
  split
  · exact h.same rfl rfl rfl rfl rfl
  · exact h

theorem dropTokenStarts (s : SidecarManager) (r : Start) : (s.dropToken r).starts = s.starts := by
  unfold SidecarManager.dropToken
  split <;> rfl

theorem Kept.failed (h : Kept dropped s) {old r : Start} (message : String) (member : old ∈ s.starts)
    (generation : r.generation = old.generation) (child : r.child = old.child) : Kept dropped (s.failed r message) := by
  unfold SidecarManager.failed
  split
  · refine ((h.killStale r).dropToken r).settle old ?_ generation child
    rw [dropTokenStarts,(killStaleStarts r s).1]
    exact member
  · dsimp only
    have noted (error : Option String) : Kept dropped { s.dropToken r with status := .error, error := error } :=
      (h.dropToken r).same rfl rfl rfl rfl rfl
    have inside : old ∈ (s.dropToken r).starts := (dropTokenStarts s r).symm ▸ member
    split
    · exact (noted _).settle old inside generation child
    · rename_i c mine
      split
      · rename_i is
        refine Kept.settle ?_ old inside generation child
        have killed := ((h.dropToken r).kill c).lose (killedDead (s.dropToken r) c)
        refine killed.same rfl ?_ rfl rfl rfl
        exact (if_pos is).symm
      · exact (noted _).settle old inside generation child

/- A start that is current finds no process where it spawns its own. -/
theorem Kept.withPort (h : Kept dropped s) (options : SidecarOptions) {r : Start} (port : Nat) (launch : Option String)
    (member : r ∈ s.starts) (here : r.point = .port) : Kept dropped (s.withPort options r port launch) := by
  unfold SidecarManager.withPort
  split
  · exact h.settle _ member rfl rfl
  rename_i fine
  obtain ⟨current,_⟩ := currentOf fine
  split
  · have ported : Kept dropped { s with port := some port } := h.same rfl rfl rfl rfl rfl
    exact ported.failed _ member rfl rfl
  have free := h.port r member current here
  have fresh (other : Start) (inside : other ∈ s.starts.map fun other => if other.generation = r.generation then
      ({ r with point := .spawned, child := some s.children.length, port := port } : Start) else other)
      (mine : other.generation = s.startGeneration) :
      other = { r with point := .spawned, child := some s.children.length, port := port } := by
    obtain ⟨before,_,same⟩ := List.mem_map.mp inside
    split at same
    · exact same.symm
    · rename_i apart
      exact absurd ((same ▸ mine).trans current.symm) apart
  constructor
  · intro c living
    change some s.children.length = some c
    obtain ⟨child,there,running⟩ := (Option.any_eq_true ..).mp living
    have there' : (s.children ++ [⟨command options port,false,false,true,none⟩])[c]? = some child := there
    by_cases new : c < s.children.length
    · rw [List.getElem?_append_left new] at there'
      have mine := h.only c ((Option.any_eq_true ..).mpr ⟨child,there',running⟩)
      rw [free] at mine
      contradiction
    · have bound := (List.getElem?_eq_some_iff.mp there').1
      rw [List.length_append,List.length_singleton] at bound
      exact congrArg some (by omega)
  · intro other inside
    obtain ⟨before,there,same⟩ := List.mem_map.mp inside
    split at same
    · rename_i alike
      rw [← same]
      exact Nat.le_of_eq current
    · exact same ▸ h.generation before there
  · intro other inside mine at_
    rw [fresh other inside mine] at at_
    contradiction
  · intro other inside mine c is
    rw [fresh other inside mine]
    exact is
  · intro gone
    exact absurd current ((h.gone gone).2.2 r member)

theorem Kept.killProcess (h : Kept dropped s) : Kept dropped s.killProcess ∧ s.killProcess.process = none ∧
    s.killProcess.starts = s.starts ∧ s.killProcess.startGeneration = s.startGeneration := by
  unfold SidecarManager.killProcess
  split
  · rename_i none_
    exact ⟨h,none_,rfl,rfl⟩
  · rename_i c mine
    have killed := (h.kill c).lose (killedDead s c)
    have is : (s.kill c).process = some c := mine
    exact ⟨killed.same rfl (if_pos is).symm rfl rfl rfl,rfl,rfl,rfl⟩

theorem Kept.begin (h : Kept False s) (options : SidecarOptions) (launch : Option String) : Kept False (s.begin options launch) := by
  unfold SidecarManager.begin
  split
  · exact h
  split
  · exact h
  obtain ⟨clean,free,_,generation⟩ := h.killProcess
  generalize s.killProcess = u at clean free generation ⊢
  dsimp only
  rw [← generation]
  have entered : Kept False { u with
      status := .starting, error := none, backoffTimer := none, startGeneration := u.startGeneration + 1,
      starts := u.starts ++ [⟨u.startGeneration + 1,.port,none,none,0,.pending,none⟩] } := by
    constructor
    · exact clean.only
    · intro r member
      cases List.mem_append.mp member with
      | inl before => exact Nat.le_succ_of_le (clean.generation r before)
      | inr new =>
        rw [List.mem_singleton.mp new]
    · exact fun _ _ _ _ => free
    · intro r _ _ c is
      exact absurd (free.symm.trans is) nofun
    · exact False.elim
  split
  · exact entered.same rfl rfl rfl rfl rfl
  · rename_i port _
    exact (entered.withPort options port launch (List.mem_append_right _ List.mem_cons_self) rfl).same rfl rfl rfl rfl rfl

theorem exitedDead (s : SidecarManager) (c : Nat) : (s.changeChild c fun child => { child with exited := true }).alive c = false := by
  unfold alive changeChild
  rw [List.getElem?_modify]
  cases s.children[c]? with
  | none => rfl
  | some child => simp

theorem Kept.spawnFailed (h : Kept dropped s) {r : Start} (message : String) (member : r ∈ s.starts) :
    Kept dropped (s.spawnFailed r message) := by
  unfold SidecarManager.spawnFailed
  split
  · exact h
  rename_i c mine
  dsimp only
  have exited := h.change (f := fun child => { child with exited := true }) c fun child living => by simp at living
  have dead := exitedDead s c
  split
  · refine (exited.release (r := r) fun i is => ?_).settle r ?_ rfl rfl
    · exact Option.some.inj (mine.symm.trans is) ▸ dead
    · unfold releaseStaleChild
      rw [mine]
      exact member
  · rename_i fine
    obtain ⟨current,_⟩ := currentOf fine
    have lost := exited.lose dead
    have free : (if s.process = some c then none else s.process) = none := by
      split
      · rfl
      · rename_i other
        cases is : s.process with
        | none => rfl
        | some i => exact absurd (is.trans (mine ▸ (h.process r member current i is).symm)) other
    have freed : Kept dropped { s.changeChild c (fun child => { child with exited := true }) with
        process := none, status := .error, error := some message } := lost.same rfl free.symm rfl rfl rfl
    exact freed.failed message member rfl rfl

theorem Kept.mint (h : Kept dropped s) {r : Start} (member : r ∈ s.starts) : Kept dropped (s.mintToken r) :=
  Kept.put (h.same (t := { s with authToken := some s.minted, minted := s.minted + 1 }) rfl rfl rfl rfl rfl) member rfl rfl nofun

theorem Kept.poll (h : Kept dropped s) (options : SidecarOptions) {old r : Start} (deadline : Int) (member : old ∈ s.starts)
    (generation : r.generation = old.generation) (child : r.child = old.child) : Kept dropped (s.pollHealth options r deadline) := by
  unfold SidecarManager.pollHealth
  split
  · split
    · exact h.failed _ member generation child
    · exact h.put member generation child nofun
  · have noted (message : String) : Kept dropped { s with status := .error, error := some message } :=
      h.same rfl rfl rfl rfl rfl
    exact (noted _).failed _ member generation child

theorem Kept.portKnown (h : Kept dropped s) (options : SidecarOptions) {old r : Start} (member : old ∈ s.starts)
    (generation : r.generation = old.generation) (child : r.child = old.child) : Kept dropped (s.portKnown options r) := by
  unfold SidecarManager.portKnown
  split
  · exact (h.killStale r).settle _ ((killStaleStarts r s).1.symm ▸ member) generation child
  · exact h.poll options _ member generation child

theorem Kept.awaitPortLine (h : Kept dropped s) (options : SidecarOptions) {old r : Start} (member : old ∈ s.starts)
    (generation : r.generation = old.generation) (child : r.child = old.child) : Kept dropped (s.awaitPortLine options r) := by
  unfold SidecarManager.awaitPortLine
  split
  · exact h.put member generation child nofun
  · exact h.portKnown options member generation child
  · exact h.failed _ member generation child

theorem Kept.tokenWritten (h : Kept dropped s) (options : SidecarOptions) {r : Start} (member : r ∈ s.starts) :
    Kept dropped (s.tokenWritten options r) := by
  unfold SidecarManager.tokenWritten
  split
  · exact h
  · rename_i c _
    exact (h.change (f := fun child => { child with written := r.authToken }) c fun child living => living).awaitPortLine options member rfl rfl

theorem Kept.line (h : Kept dropped s) (options : SidecarOptions) {r : Start} (line : PortLine) (member : r ∈ s.starts) :
    Kept dropped (s.settlePortLine options r line) := by
  unfold SidecarManager.settlePortLine
  dsimp only
  split
  · exact h.awaitPortLine options member rfl rfl
  · exact h.put member rfl rfl id

theorem Kept.healthy (h : Kept dropped s) {r : Start} (member : r ∈ s.starts) : Kept dropped (s.healthy r) := by
  unfold SidecarManager.healthy
  split
  · exact (h.killStale r).settle _ ((killStaleStarts r s).1.symm ▸ member) rfl rfl
  · have running : Kept dropped { s with consecutiveFailures := 0, status := .running } := h.same rfl rfl rfl rfl rfl
    exact running.settle _ member rfl rfl

theorem Kept.handleExit (h : Kept dropped s) (options : SidecarOptions) {c : Nat} (mine : s.process = some c)
    (dead : s.alive c = false) : Kept dropped (s.handleExit options) := by
  have lost := h.lose dead
  have freed : Kept dropped { s with process := none, authToken := none } := lost.same rfl (if_pos mine).symm rfl rfl rfl
  unfold SidecarManager.handleExit
  dsimp only
  split
  · exact freed
  split
  · exact freed.same rfl rfl rfl rfl rfl
  · refine ⟨freed.only,freed.generation,freed.port,freed.process,?_⟩
    intro gone
    exact absurd ((h.gone gone).1.symm.trans mine) nofun

theorem Kept.exit (h : Kept dropped s) (options : SidecarOptions) (c : Nat) : Kept dropped (s.exit options c) := by
  unfold SidecarManager.exit
  split
  · exact h
  split
  · exact h
  have exited := h.change (f := fun child => { child with exited := true }) c fun child living => by simp at living
  have dead : (s.changeChild c fun child => { child with exited := true }).alive c = false := exitedDead s c
  generalize (s.changeChild c fun child => { child with exited := true }) = u at exited dead ⊢
  dsimp only
  split
  · exact exited
  have handled : Kept dropped (if u.process = some c then u.handleExit options else u) := by
    split
    · rename_i mine
      exact exited.handleExit options mine dead
    · exact exited
  split
  · exact handled
  · rename_i r found
    exact handled.line options _ (List.mem_of_find?_eq_some found)

theorem Kept.stop (h : Kept dropped s) (gone : Prop) : Kept gone s.stop := by
  have stale : ∀ r ∈ s.starts, r.generation ≠ s.startGeneration + 1 := fun r member same =>
    absurd (same ▸ h.generation r member) (Nat.not_succ_le_self _)
  have bound : ∀ r ∈ s.starts, r.generation ≤ s.startGeneration + 1 := fun r member => Nat.le_succ_of_le (h.generation r member)
  unfold SidecarManager.stop
  dsimp only
  split
  · rename_i none_
    exact ⟨h.only,bound,fun r member here => absurd here (stale r member),fun r member here => absurd here (stale r member),
      fun _ => ⟨none_,rfl,stale⟩⟩
  · rename_i c mine
    have killed := (h.change (f := fun child => { child with listening := false, killed := true }) c fun child living => by simp at living)
    have dead : (s.changeChild c fun child => { child with listening := false, killed := true }).alive c = false := by
      unfold alive changeChild
      rw [List.getElem?_modify]
      cases s.children[c]? with
      | none => rfl
      | some child => simp
    have lost := killed.lose dead
    refine ⟨?_,bound,fun r member here => absurd here (stale r member),fun r member here => absurd here (stale r member),
      fun _ => ⟨rfl,rfl,stale⟩⟩
    intro i living
    have is := lost.only i living
    rw [show (s.changeChild c fun child => { child with listening := false, killed := true }).process = some c from mine,if_pos rfl] at is
    contradiction

theorem Kept.resume (h : Kept dropped s) {generation : Nat} {here : Start → Bool} {next : Start → SidecarManager → SidecarManager}
    (each : ∀ r ∈ s.starts, here r = true → Kept dropped (next r s)) : Kept dropped (s.resume generation here next) := by
  unfold SidecarManager.resume
  cases found : s.startAt generation here with
  | none => exact h
  | some r =>
    have there := List.find?_some found
    exact each r (List.mem_of_find?_eq_some found) (Bool.and_eq_true_iff.mp there).2

theorem Kept.weaken (h : Kept dropped s) {gone : Prop} (less : gone → dropped) : Kept gone s :=
  ⟨h.only,h.generation,h.port,h.process,fun is => h.gone (less is)⟩

theorem Kept.step (h : Kept dropped s) (options : SidecarOptions) {e : SidecarEvent} (own : SharedSidecar.outside e = false) :
    Kept dropped (s.step options e) := by
  cases e with
  | start => contradiction
  | ensureRunning => contradiction
  | stop => contradiction
  | stopSettled generation =>
    simp only [SidecarManager.step,stopSettled]
    split
    · exact h
    · split <;> exact h.same rfl rfl rfl rfl rfl
  | portFound generation port launch =>
    exact h.resume fun r member here => h.withPort options port launch member (of_decide_eq_true here)
  | portFailed generation message => exact h.resume fun r member _ => h.failed message member rfl rfl
  | immediate =>
    simp only [SidecarManager.step]
    split
    · exact h
    · rename_i r found
      exact h.mint (List.mem_of_find?_eq_some found)
  | spawnError generation message => exact h.resume fun r member _ => h.spawnFailed message member
  | tokenWritten generation => exact h.resume fun r member _ => h.tokenWritten options member
  | tokenFailed generation message => exact h.resume fun r member _ => h.failed message member rfl rfl
  | portLine generation port => exact h.resume fun r member _ => h.line options _ member
  | portLineFailed generation message => exact h.resume fun r member _ => h.line options _ member
  | healthReply generation ok =>
    change Kept dropped (s.resume generation asking fun r s => if ok then s.healthy r else s.put { r with point := .health (deadline r) false })
    refine h.resume fun r member _ => ?_
    split
    · exact h.healthy member
    · exact h.put member rfl rfl (by rintro ⟨⟩)
  | healthFailed generation message => exact h.resume fun r member _ => h.put member rfl rfl (by rintro ⟨⟩)
  | wake generation => exact h.resume fun r member _ => h.poll options _ member rfl rfl
  | exit child => exact h.exit options child
  | backoff launch =>
    simp only [SidecarManager.step]
    split
    · exact h
    · rename_i timer armed
      have free : ¬dropped := fun gone => by cases (h.gone gone).2.1.symm.trans armed
      have disarmed : Kept False { s with backoffTimer := none } :=
        ⟨h.only,h.generation,h.port,h.process,False.elim⟩
      exact (disarmed.begin options launch).weaken free
  | pass ms => exact h.same rfl rfl rfl rfl rfl

end SidecarManager

namespace SharedSidecar
open SidecarManager

/- A child of a manager that has neither exited nor been sent a signal. -/
def lives (s : SharedSidecar) (m c : Nat) : Bool := s.managers[m]?.any (·.alive c)

/- Every child that lives would be stopped by a hook that is installed. -/
def Guarded (s : SharedSidecar) : Prop :=
  ∀ m c, s.lives m c → s.hookInstalled = true ∧ s.onProcessExit.lives m c = false

structure Sound (s : SharedSidecar) : Prop where
  singleton : ∀ m, s.singleton = some m → m < s.managers.length
  each : ∀ i m, s.managers[i]? = some m → Kept (s.singleton ≠ some i) m
  resolved : ∀ r ∈ s.resolved, r.singleton = some r.candidate

variable {s t : SharedSidecar}

theorem Sound.same (h : Sound s) (managers : t.managers = s.managers) (singleton : t.singleton = s.singleton)
    (resolved : t.resolved = s.resolved) : Sound t := by
  constructor
  · rw [singleton,managers]
    exact h.singleton
  · rw [singleton,managers]
    exact h.each
  · rw [resolved]
    exact h.resolved

theorem Sound.change (h : Sound s) {m : Nat} {f : SidecarManager → SidecarManager}
    (keeps : ∀ manager, s.managers[m]? = some manager → Kept (s.singleton ≠ some m) manager → Kept (s.singleton ≠ some m) (f manager)) :
    Sound (s.change m f) := by
  refine ⟨?_,?_,h.resolved⟩
  · intro i is
    have bound := h.singleton i is
    change i < (s.managers.modify m f).length
    rwa [List.length_modify]
  · intro i manager there
    have there' : (s.managers.modify m f)[i]? = some manager := there
    rw [List.getElem?_modify] at there'
    obtain ⟨old,at_,same⟩ := Option.map_eq_some_iff.mp there'
    have kept := h.each i old at_
    by_cases here : m = i
    · subst here
      rw [if_pos rfl] at same
      exact same ▸ keeps old at_ kept
    · rw [if_neg here] at same
      exact same ▸ kept

theorem wakeManagers (m : Nat) (s : SharedSidecar) : (s.wake m).managers = s.managers ∧ (s.wake m).singleton = s.singleton ∧
    (s.wake m).resolved = s.resolved ∧ (s.wake m).hookInstalled = s.hookInstalled := by
  unfold wake
  split <;> exact ⟨rfl,rfl,rfl,rfl⟩

theorem Sound.wake (h : Sound s) (m : Nat) : Sound (s.wake m) := by
  obtain ⟨managers,singleton,resolved,_⟩ := wakeManagers m s
  exact h.same managers singleton resolved

theorem Sound.stopManager (h : Sound s) (m : Nat) : Sound (s.stopManager m) :=
  (h.change fun _ _ kept => kept.stop _).wake m

theorem Sound.stopSingleton (h : Sound s) : Sound s.stopSingleton := by
  unfold SharedSidecar.stopSingleton
  split
  · exact h
  · exact h.stopManager _

theorem freshKept (dropped : Prop) : Kept dropped {} := by
  constructor
  · exact nofun
  · exact nofun
  · exact nofun
  · exact nofun
  · exact fun _ => ⟨rfl,rfl,nofun⟩

theorem Sound.withSingleton (h : Sound s) (options : SidecarOptions) : Sound (s.withSingleton options) := by
  unfold SharedSidecar.withSingleton
  split
  · exact h
  rename_i none_
  refine ⟨?_,?_,h.resolved⟩
  · intro m is
    rw [List.length_append,List.length_singleton,← Option.some.inj is]
    exact Nat.lt_succ_self _
  · intro i manager there
    by_cases old : i < s.managers.length
    · rw [List.getElem?_append_left old] at there
      exact (h.each i manager there).weaken fun _ => none_ ▸ nofun
    · have bound := (List.getElem?_eq_some_iff.mp there).1
      rw [List.length_append,List.length_singleton] at bound
      have last : i = s.managers.length := by omega
      rw [last,List.getElem?_concat_length] at there
      exact Option.some.inj there ▸ freshKept _

theorem Sound.ensureRunning (h : Sound s) (process : Option JsString) (launch : Option String) {candidate : Nat}
    (mine : s.singleton = some candidate) : Sound (s.ensureRunning process launch candidate) := by
  unfold SharedSidecar.ensureRunning
  split
  · rename_i before options there _
    split
    · exact h.same rfl rfl rfl
    · have entered : Sound (s.change candidate (·.ensureRunning options launch)) := by
        refine h.change fun manager _ kept => ?_
        unfold SidecarManager.ensureRunning
        split
        · exact kept
        · exact kept
        · exact ((kept.weaken False.elim).begin options launch).weaken fun apart => apart mine
        · exact ((kept.weaken False.elim).begin options launch).weaken fun apart => apart mine
      have noted : Sound { s.change candidate (·.ensureRunning options launch) with
          acquisitions := s.acquisitions ++ [⟨candidate,firstWait before (before.ensureRunning options launch),false⟩] } :=
        entered.same rfl rfl rfl
      exact noted.wake candidate
  · exact h

theorem Sound.acquire (h : Sound s) (own process : Option JsString) (options : SidecarOptions) (launch : Option String) :
    Sound (s.acquire own process options launch) := by
  unfold SharedSidecar.acquire
  split
  · exact h
  · dsimp only
    have made := h.withSingleton options
    split
    · rename_i candidate is
      exact made.ensureRunning process launch is
    · exact made

theorem Sound.proceed (h : Sound s) (i : Nat) (process : Option JsString) : Sound (s.proceed i process) := by
  unfold SharedSidecar.proceed
  split
  · exact h
  rename_i a _
  split
  · split
    · rename_i fine
      obtain ⟨_,is⟩ := Bool.and_eq_true_iff.mp fine
      dsimp only
      split
      · refine ⟨h.singleton,h.each,?_⟩
        intro r member
        cases List.mem_append.mp member with
        | inl before => exact h.resolved r before
        | inr new =>
          rw [List.mem_singleton.mp new]
          exact of_decide_eq_true is
      · exact h.same rfl rfl rfl
    · exact h.same rfl rfl rfl
  · exact h

theorem Sound.shutdown (h : Sound s) : Sound s.shutdownSharedSidecar := by
  unfold SharedSidecar.shutdownSharedSidecar
  dsimp only
  split
  · rename_i none_
    refine ⟨nofun,fun i manager there => (h.each i manager there).weaken fun _ => none_ ▸ nofun,h.resolved⟩
  · rename_i m is
    unfold SharedSidecar.stopManager
    apply Sound.wake
    refine ⟨nofun,?_,h.resolved⟩
    intro i manager there
    have there' : (s.managers.modify m (·.stop))[i]? = some manager := there
    rw [List.getElem?_modify] at there'
    obtain ⟨old,at_,same⟩ := Option.map_eq_some_iff.mp there'
    have kept := h.each i old at_
    by_cases here : m = i
    · rw [if_pos here] at same
      exact same ▸ kept.stop _
    · rw [if_neg here] at same
      refine same ▸ kept.weaken fun _ other => here ?_
      exact Option.some.inj (is.symm.trans other)

theorem Sound.step (h : Sound s) (e : SharedEvent) : Sound (s.step e) := by
  cases e with
  | acquire own process options launch => exact h.acquire own process options launch
  | poll i =>
    simp only [SharedSidecar.step,poll]
    split
    · exact h
    · split
      · split
        · exact h
        · exact h.same rfl rfl rfl
      · exact h
  | externalReply i ok =>
    simp only [SharedSidecar.step,externalReply]
    split
    · exact h
    rename_i a _
    split
    · have running : Sound (if ok then s.change a.candidate fun m : SidecarManager => { m with status := .running } else s) := by
        split
        · exact h.change fun _ _ kept => kept.same rfl rfl rfl rfl rfl
        · exact h
      exact running.same rfl rfl rfl
    · exact h
  | proceed i process => exact h.proceed i process
  | release i =>
    simp only [SharedSidecar.step,release]
    split
    · exact h
    · split
      · exact h.same rfl rfl rfl
      · exact h
  | shutdown => exact h.shutdown
  | signal =>
    simp only [SharedSidecar.step,handleSignalShutdown]
    split
    · have removed : Sound s.remove := h.same rfl rfl rfl
      exact removed.stopSingleton
    · exact h
  | manager m e =>
    simp only [SharedSidecar.step,managerEvent]
    split
    · rename_i options _
      split
      · exact h
      · rename_i own
        exact (h.change fun _ _ kept => kept.step options (Bool.not_eq_true _ ▸ own)).wake m
    · exact h

theorem soundRun (events : List SharedEvent) : Sound (run events) := by
  have first : Sound {} := ⟨nofun,nofun,nofun⟩
  exact runInvariant (I := Sound) first (fun _ e h => h.step e) events

/- An installed hook stops the one child that can live. -/
theorem hookStops (h : Sound s) {m c : Nat} (living : s.lives m c) : s.onProcessExit.lives m c = false := by
  obtain ⟨manager,there,alive_⟩ := (Option.any_eq_true ..).mp living
  have kept := h.each m manager there
  have mine := kept.only c alive_
  have is : s.singleton = some m := by
    by_contra apart
    exact absurd ((kept.gone apart).1.symm.trans mine) nofun
  unfold onProcessExit SharedSidecar.stopSingleton
  rw [is]
  dsimp only
  unfold SharedSidecar.stopManager lives
  rw [(wakeManagers m (s.change m (·.stop))).1]
  change (s.managers.modify m (·.stop))[m]?.any (·.alive c) = false
  rw [List.getElem?_modify,there]
  have stopped := kept.stop True
  cases dead : manager.stop.alive c with
  | false => simpa using dead
  | true => exact absurd ((stopped.gone trivial).1.symm.trans (stopped.only c dead)) nofun

/- An acquisition gets past its start while its manager is the singleton. -/
def secures (s : SharedSidecar) : SharedEvent → Bool
  | .proceed i _ => s.acquisitions[i]?.any fun a => s.passes a
  | _ => false

def clears : SharedEvent → Bool
  | .shutdown | .signal => true
  | _ => false

/- Whether one did since the last shutdown or signal. -/
def secured (s : SharedSidecar) (before : Bool) : List SharedEvent → Bool
  | [] => before
  | e :: rest => secured (s.step e) (!clears e && (before || s.secures e)) rest

theorem hookStep (s : SharedSidecar) (e : SharedEvent) :
    (s.step e).hookInstalled = (!clears e && (s.hookInstalled || s.secures e)) := by
  cases e with
  | acquire own process options launch =>
    have made : (s.withSingleton options).hookInstalled = s.hookInstalled := by
      unfold withSingleton
      split <;> rfl
    have ensured (candidate : Nat) : ((s.withSingleton options).ensureRunning process launch candidate).hookInstalled =
        (s.withSingleton options).hookInstalled := by
      unfold SharedSidecar.ensureRunning
      split
      · split
        · rfl
        · exact (wakeManagers candidate _).2.2.2
      · rfl
    have same : (s.acquire own process options launch).hookInstalled = s.hookInstalled := by
      unfold SharedSidecar.acquire
      split
      · rfl
      · dsimp only
        split
        · exact (ensured _).trans made
        · exact made
    rw [SharedSidecar.step,same]
    exact (Bool.or_false _).symm
  | poll i =>
    simp only [SharedSidecar.step,poll,secures,clears,Bool.or_false,Bool.not_false,Bool.true_and]
    split
    · rfl
    · split
      · split <;> rfl
      · rfl
  | externalReply i ok =>
    simp only [SharedSidecar.step,externalReply,secures,clears,Bool.or_false,Bool.not_false,Bool.true_and]
    split
    · rfl
    · split
      · split <;> rfl
      · rfl
  | proceed i process =>
    simp only [SharedSidecar.step,SharedSidecar.proceed,secures,clears,Bool.not_false,Bool.true_and]
    cases found : s.acquisitions[i]? with
    | none => exact (Bool.or_false _).symm
    | some a =>
      dsimp only [Option.any_some]
      cases fine : s.passes a with
      | false =>
        rw [Bool.or_false]
        split <;> rfl
      | true =>
        rw [Bool.or_true]
        have settled := of_decide_eq_true (Bool.and_eq_true_iff.mp fine).1
        rw [settled]
        dsimp only
        rw [if_pos rfl]
        split <;> rfl
  | release i =>
    simp only [SharedSidecar.step,release,secures,clears,Bool.or_false,Bool.not_false,Bool.true_and]
    split
    · rfl
    · split <;> rfl
  | shutdown =>
    simp only [SharedSidecar.step,shutdownSharedSidecar,clears,Bool.not_true,Bool.false_and]
    split
    · rfl
    · exact (wakeManagers _ _).2.2.2
  | signal =>
    simp only [SharedSidecar.step,handleSignalShutdown,clears,Bool.not_true,Bool.false_and]
    split
    · unfold SharedSidecar.stopSingleton
      split
      · rfl
      · exact (wakeManagers _ _).2.2.2
    · rename_i none
      exact Bool.not_eq_true _ ▸ none
  | manager m e =>
    simp only [SharedSidecar.step,managerEvent,secures,clears,Bool.or_false,Bool.not_false,Bool.true_and]
    split
    · split
      · rfl
      · exact (wakeManagers _ _).2.2.2
    · rfl

theorem hookSecured (events : List SharedEvent) (s : SharedSidecar) :
    (events.foldl SharedSidecar.step s).hookInstalled = s.secured s.hookInstalled events := by
  induction events generalizing s with
  | nil => rfl
  | cons e rest ih =>
    rw [List.foldl_cons,ih,hookStep]
    rfl

/-- In each state a run reaches, every child that lives would be stopped by an installed hook just
when none lives or an acquisition got past its start since the last shutdown or signal; and an
acquisition resolves only with the manager that is then the singleton. -/
theorem neverOrphaned (events : List SharedEvent) :
    (Guarded (run events) ↔ ((∃ m c, (run events).lives m c = true) → secured {} false events = true)) ∧
    ∀ r ∈ (run events).resolved, r.singleton = some r.candidate := by
  have sound := soundRun events
  have hook : (run events).hookInstalled = secured {} false events := hookSecured events {}
  refine ⟨?_,sound.resolved⟩
  constructor
  · intro guarded living
    obtain ⟨m,c,alive_⟩ := living
    exact hook ▸ (guarded m c alive_).1
  · intro held m c alive_
    exact ⟨hook.trans (held ⟨m,c,alive_⟩),hookStops sound alive_⟩

/- The first acquisition waits for its child to answer. -/
def startingUp : List SharedEvent := [.acquire none none demoOptions none,.manager 0 (.portFound 1 8765 none),.manager 0 .immediate,
  .manager 0 (.tokenWritten 1),.manager 0 (.portLine 1 8765)]

theorem startingUnguarded : ¬Guarded (run startingUp) := by
  intro guarded
  have hooked := (guarded 0 0 (by decide)).1
  exact absurd hooked (by decide)

end SharedSidecar
end Northstar.Sidecar
