import Northstar.Sidecar.Manager

/-! What the manager's fields say about its children, kept by each change the starts, the
stops and the exit handlers make. -/
namespace Northstar.Sidecar
namespace SidecarManager

structure Custody where
  status : SidecarStatus
  authToken : Option Nat
  process : Option Nat
  backoffTimer : Option Int
  startGeneration : Nat
  starts : List Start
  children : List Child
  minted : Nat

def custody (s : SidecarManager) : Custody :=
  ⟨s.status,s.authToken,s.process,s.backoffTimer,s.startGeneration,s.starts,s.children,s.minted⟩

/- Two starts, the earlier one first. It has its spawn looked at first. -/
structure Before (a b : Start) : Prop where
  generation : a.generation < b.generation
  minted : a.point = .spawned → b.authToken = none
  children : ∀ c, a.child = some c → b.child ≠ some c
  tokens : ∀ t, a.authToken = some t → b.authToken ≠ some t

/- A start whose token has been written to its child. -/
def Delivered (children : List Child) (r : Start) : Prop :=
  ∃ c t child, r.child = some c ∧ r.authToken = some t ∧ children[c]? = some child ∧ child.written = some t

def waited (r : Start) : Bool := match r.point with
  | .portLine | .health .. => true
  | _ => false

namespace Custody

/- A child that has neither exited nor been sent a signal. -/
def Alive (d : Custody) (c : Nat) : Prop :=
  ∃ child, d.children[c]? = some child ∧ child.exited = false ∧ child.killed = false

structure Placed (d : Custody) (r : Start) : Prop where
  generation : r.generation ≤ d.startGeneration
  child : ∀ c, r.child = some c → c < d.children.length
  minted : ∀ t, r.authToken = some t → t < d.minted
  port : r.point = .port → r.child = none ∧ r.authToken = none
  clear : r.point = .port → r.generation = d.startGeneration → d.process = none ∧ d.backoffTimer = none
  spawned : r.point = .spawned → r.authToken = none
  token : r.point = .token → r.authToken.isSome
  process : r.generation = d.startGeneration → ∀ c, d.process = some c → r.child = some c
  own : r.generation = d.startGeneration → ∀ c, d.process = some c → r.child = some c →
    r.authToken.isSome → d.authToken = r.authToken
  written : waited r → Delivered d.children r

structure Running (d : Custody) (r : Start) : Prop where
  generation : r.generation = d.startGeneration
  finished : r.point = .over
  delivered : Delivered d.children r
  process : d.process = r.child
  authToken : d.authToken = r.authToken
  backoffTimer : d.backoffTimer = none

structure Sound (d : Custody) : Prop where
  only : ∀ c, d.Alive c → d.process = some c
  held : ∀ c, d.process = some c →
    ∃ child, d.children[c]? = some child ∧ child.exited = false ∧ child.listening = true
  restart : d.backoffTimer.isSome → d.process = none
  order : d.starts.Pairwise Before
  each : ∀ r ∈ d.starts, Placed d r
  stopped : d.status = .stopped → ∀ r ∈ d.starts, r.generation ≠ d.startGeneration
  running : d.status = .running → ∃ r ∈ d.starts, Running d r

theorem modified {children : List Child} {c i : Nat} {f : Child → Child} {child : Child}
    (h : (children.modify c f)[i]? = some child) :
    ∃ old, children[i]? = some old ∧ child = if c = i then f old else old := by
  rw [List.getElem?_modify] at h
  obtain ⟨old,there,same⟩ := Option.map_eq_some_iff.mp h
  exact ⟨old,there,same.symm⟩

theorem modifiedAt {children : List Child} {c i : Nat} {f : Child → Child} {old : Child}
    (h : children[i]? = some old) : (children.modify c f)[i]? = some (if c = i then f old else old) := by
  rw [List.getElem?_modify,h]
  rfl

theorem deliveredChange {children : List Child} {r : Start} {c : Nat} {f : Child → Child}
    (same : ∀ child, (f child).written = child.written) (h : Delivered children r) :
    Delivered (children.modify c f) r := by
  obtain ⟨i,t,child,mine,token,there,wrote⟩ := h
  refine ⟨i,t,_,mine,token,modifiedAt there,?_⟩
  split
  · rw [same,wrote]
  · exact wrote

theorem beforeOf {starts : List Start} (order : starts.Pairwise Before) {a b : Start} (first : a ∈ starts)
    (second : b ∈ starts) (less : a.generation < b.generation) : Before a b := by
  induction order with
  | nil => exact (List.not_mem_nil first).elim
  | @cons r rest head tail ih =>
    cases List.mem_cons.mp first with
    | inl here =>
      cases List.mem_cons.mp second with
      | inl same =>
        rw [here,same] at less
        exact absurd less (Nat.lt_irrefl _)
      | inr later => exact here ▸ head b later
    | inr inside =>
      cases List.mem_cons.mp second with
      | inl here =>
        have other := (head a inside).generation
        rw [here] at less
        exact absurd less (Nat.lt_asymm other)
      | inr later => exact ih inside later

theorem oneStart {d : Custody} (h : Sound d) {a b : Start} (first : a ∈ d.starts) (second : b ∈ d.starts)
    (same : a.generation = b.generation) : a = b := by
  have distinct : (d.starts.map (·.generation)).Nodup :=
    List.pairwise_map.mpr (h.order.imp fun before => Nat.ne_of_lt before.generation)
  exact List.inj_on_of_nodup_map distinct first second same

theorem apartTokens {d : Custody} (h : Sound d) {a b : Start} (first : a ∈ d.starts) (second : b ∈ d.starts)
    (apart : a.generation ≠ b.generation) {t : Nat} (mine : a.authToken = some t) : b.authToken ≠ some t := by
  cases Nat.lt_or_gt_of_ne apart with
  | inl less => exact (beforeOf h.order first second less).tokens t mine
  | inr more => exact fun theirs => (beforeOf h.order second first more).tokens t theirs mine

theorem apartChildren {d : Custody} (h : Sound d) {a b : Start} (first : a ∈ d.starts) (second : b ∈ d.starts)
    (apart : a.generation ≠ b.generation) {c : Nat} (mine : a.child = some c) : b.child ≠ some c := by
  cases Nat.lt_or_gt_of_ne apart with
  | inl less => exact (beforeOf h.order first second less).children c mine
  | inr more => exact fun theirs => (beforeOf h.order second first more).children c theirs mine

/- A stored start and what it is replaced by, the same but for what it waits for. -/
structure Follows (old r : Start) : Prop where
  generation : r.generation = old.generation
  child : r.child = old.child
  authToken : r.authToken = old.authToken
  port : r.point = .port → old.point = .port
  spawned : r.point = .spawned → old.point = .spawned
  token : r.point = .token → old.point = .token
  finished : old.point = .over → r.point = .over

theorem followsSame (r : Start) : Follows r r := ⟨rfl,rfl,rfl,id,id,id,id⟩

theorem Follows.ends {old r : Start} (f : Follows old r) : Follows old { r with point := .over } :=
  ⟨f.generation,f.child,f.authToken,nofun,nofun,nofun,fun _ => rfl⟩

def replace (r : Start) (d : Custody) : Custody :=
  { d with starts := d.starts.map fun other => if other.generation = r.generation then r else other }

theorem Sound.put {d : Custody} (h : Sound d) {old r : Start} (member : old ∈ d.starts) (f : Follows old r)
    (written : waited r → Delivered d.children r) : Sound (d.replace r) := by
  have each (o : Start) (inside : o ∈ d.starts) :
      Follows o (if o.generation = r.generation then r else o) := by
    split
    · rename_i same
      rw [oneStart h inside member (same.trans f.generation)]
      exact f
    · exact followsSame o
  constructor
  · exact h.only
  · exact h.held
  · exact h.restart
  · refine List.pairwise_map.mpr (h.order.imp_of_mem ?_)
    intro a b first second before
    have left := each a first
    have right := each b second
    constructor
    · rw [left.generation,right.generation]
      exact before.generation
    · intro spawned
      rw [right.authToken]
      exact before.minted (left.spawned spawned)
    · rw [left.child,right.child]
      exact before.children
    · rw [left.authToken,right.authToken]
      exact before.tokens
  · intro x inside
    obtain ⟨o,there,rfl⟩ := List.mem_map.mp inside
    have placed := h.each o there
    have same := each o there
    constructor
    · rw [same.generation]
      exact placed.generation
    · rw [same.child]
      exact placed.child
    · rw [same.authToken]
      exact placed.minted
    · intro port
      rw [same.child,same.authToken]
      exact placed.port (same.port port)
    · intro port
      rw [same.generation]
      exact placed.clear (same.port port)
    · intro spawned
      rw [same.authToken]
      exact placed.spawned (same.spawned spawned)
    · intro minted
      rw [same.authToken]
      exact placed.token (same.token minted)
    · rw [same.generation,same.child]
      exact placed.process
    · rw [same.generation,same.child,same.authToken]
      exact placed.own
    · split
      · exact written
      · exact placed.written
  · intro stopped x inside
    obtain ⟨o,there,rfl⟩ := List.mem_map.mp inside
    rw [(each o there).generation]
    exact h.stopped stopped o there
  · intro running
    obtain ⟨o,there,runs⟩ := h.running running
    have same := each o there
    refine ⟨_,List.mem_map.mpr ⟨o,there,rfl⟩,?_⟩
    obtain ⟨c,t,child,mine,token,rest⟩ := runs.delivered
    exact ⟨same.generation.trans runs.generation,same.finished runs.finished,
      ⟨c,t,child,same.child.trans mine,same.authToken.trans token,rest⟩,runs.process.trans same.child.symm,
      runs.authToken.trans same.authToken.symm,runs.backoffTimer⟩

/- Children that change but for what was written to them, under a process that is kept. -/
theorem Sound.change {d : Custody} (h : Sound d) {c : Nat} {f : Child → Child}
    (dead : ∀ child, (f child).exited = false → (f child).killed = false →
      child.exited = false ∧ child.killed = false)
    (same : ∀ child, (f child).written = child.written)
    (held : d.process = some c → ∀ child, child.exited = false → child.listening = true →
      (f child).exited = false ∧ (f child).listening = true) :
    Sound { d with children := d.children.modify c f } := by
  constructor
  · intro i alive
    obtain ⟨child,there,running,fine⟩ := alive
    obtain ⟨old,before,rfl⟩ := modified there
    apply h.only
    refine ⟨old,before,?_⟩
    split at running
    · rename_i here
      rw [if_pos here] at fine
      exact dead old running fine
    · rename_i other
      rw [if_neg other] at fine
      exact ⟨running,fine⟩
  · intro i process
    obtain ⟨child,there,fine⟩ := h.held i process
    refine ⟨_,modifiedAt there,?_⟩
    split
    · rename_i here
      exact held (here ▸ process) child fine.1 fine.2
    · exact fine
  · exact h.restart
  · exact h.order
  · intro r inside
    have placed := h.each r inside
    refine ⟨placed.generation,?_,placed.minted,placed.port,placed.clear,placed.spawned,placed.token,placed.process,placed.own,?_⟩
    · rw [List.length_modify]
      exact placed.child
    · exact fun waits => deliveredChange same (placed.written waits)
  · exact h.stopped
  · intro running
    obtain ⟨r,inside,runs⟩ := h.running running
    exact ⟨r,inside,runs.generation,runs.finished,deliveredChange same runs.delivered,runs.process,runs.authToken,
      runs.backoffTimer⟩

/- A process that is let go of once its child is dead. -/
theorem Sound.lose {d : Custody} (h : Sound d) {c : Nat} {f : Child → Child} (here : d.process = some c)
    (dead : ∀ child, (f child).exited = true ∨ (f child).killed = true)
    (same : ∀ child, (f child).written = child.written) (idle : d.status ≠ .running) :
    Sound { d with children := d.children.modify c f, process := none } := by
  constructor
  · intro i alive
    obtain ⟨child,there,running,fine⟩ := alive
    obtain ⟨old,before,rfl⟩ := modified there
    by_cases at_ : c = i
    · rw [if_pos at_] at running fine
      cases dead old with
      | inl exited => exact absurd (exited.symm.trans running) (by decide)
      | inr killed => exact absurd (killed.symm.trans fine) (by decide)
    · rw [if_neg at_] at running fine
      exact absurd (Option.some.inj (here.symm.trans (h.only i ⟨old,before,running,fine⟩))) at_
  · exact nofun
  · exact fun _ => rfl
  · exact h.order
  · intro r inside
    have placed := h.each r inside
    refine ⟨placed.generation,?_,placed.minted,placed.port,?_,placed.spawned,placed.token,nofun,nofun,?_⟩
    · rw [List.length_modify]
      exact placed.child
    · exact fun port current => ⟨rfl,(placed.clear port current).2⟩
    · exact fun waits => deliveredChange same (placed.written waits)
  · exact h.stopped
  · exact fun running => absurd running idle

theorem Sound.turn {d : Custody} (h : Sound d) (status : SidecarStatus) (idle : status ≠ .running)
    (stopped : status = .stopped → d.status = .stopped) : Sound { d with status := status } := by
  constructor
  · exact h.only
  · exact h.held
  · exact h.restart
  · exact h.order
  · intro r inside
    have placed := h.each r inside
    exact ⟨placed.generation,placed.child,placed.minted,placed.port,placed.clear,placed.spawned,placed.token,placed.process,placed.own,
      placed.written⟩
  · exact fun same => h.stopped (stopped same)
  · exact fun running => absurd running idle

/- A start that was superseded gives up its own token. -/
theorem Sound.drop {d : Custody} (h : Sound d) {r : Start} (member : r ∈ d.starts)
    (stale : r.generation ≠ d.startGeneration) {t : Nat} (mine : r.authToken = some t)
    (here : d.authToken = some t) : Sound { d with authToken := none } := by
  constructor
  · exact h.only
  · exact h.held
  · exact h.restart
  · exact h.order
  · intro o inside
    have placed := h.each o inside
    refine ⟨placed.generation,placed.child,placed.minted,placed.port,placed.clear,placed.spawned,placed.token,
      placed.process,?_,placed.written⟩
    intro current c process child minted
    have theirs := (placed.own current c process child minted).symm.trans here
    exact absurd theirs (apartTokens h member inside (fun same => stale (same.trans current)) mine)
  · exact h.stopped
  · intro running
    obtain ⟨o,inside,runs⟩ := h.running running
    have theirs := runs.authToken.symm.trans here
    exact absurd theirs (apartTokens h member inside (fun same => stale (same.trans runs.generation)) mine)

/- The current start fails: nobody is left that the token would be for. -/
theorem Sound.fail {d : Custody} (h : Sound d) {r : Start} (member : r ∈ d.starts)
    (current : r.generation = d.startGeneration) (free : ∀ c, r.child = some c → d.process ≠ some c)
    (idle : d.status ≠ .running) (token : Option Nat) : Sound { d with authToken := token } := by
  constructor
  · exact h.only
  · exact h.held
  · exact h.restart
  · exact h.order
  · intro o inside
    have placed := h.each o inside
    refine ⟨placed.generation,placed.child,placed.minted,placed.port,placed.clear,placed.spawned,placed.token,
      placed.process,?_,placed.written⟩
    intro now c process child _
    rw [oneStart h inside member (now.trans current.symm)] at child
    exact absurd process (free c child)
  · exact h.stopped
  · exact fun running => absurd running idle

theorem staleFree {d : Custody} (h : Sound d) {r : Start} (member : r ∈ d.starts)
    (stale : r.generation ≠ d.startGeneration) {c : Nat} (mine : r.child = some c)
    (process : d.process = some c) : d.status ≠ .running := by
  intro running
  obtain ⟨o,inside,runs⟩ := h.running running
  have theirs := runs.process.symm.trans process
  exact apartChildren h member inside (fun same => stale (same.trans runs.generation)) mine theirs

/- A restart is set only where no start is about to spawn. -/
theorem Sound.crash {d : Custody} (h : Sound d) (gone : d.process = none) (idle : d.status ≠ .running)
    (busy : ∀ r ∈ d.starts, r.point = .port → r.generation ≠ d.startGeneration) (token : Option Nat)
    (timer : Option Int) : Sound { d with authToken := token, backoffTimer := timer } := by
  constructor
  · exact h.only
  · exact h.held
  · exact fun _ => gone
  · exact h.order
  · intro r inside
    have placed := h.each r inside
    refine ⟨placed.generation,placed.child,placed.minted,placed.port,?_,placed.spawned,placed.token,
      placed.process,?_,placed.written⟩
    · exact fun port current => absurd current (busy r inside port)
    · exact fun _ c process => absurd (gone.symm.trans process) nofun
  · exact h.stopped
  · exact fun running => absurd running idle

theorem Sound.disarm {d : Custody} (h : Sound d) : Sound { d with backoffTimer := none } := by
  constructor
  · exact h.only
  · exact h.held
  · exact nofun
  · exact h.order
  · intro r inside
    have placed := h.each r inside
    refine ⟨placed.generation,placed.child,placed.minted,placed.port,?_,placed.spawned,placed.token,placed.process,placed.own,
      placed.written⟩
    exact fun port current => ⟨(placed.clear port current).1,rfl⟩
  · exact h.stopped
  · intro running
    obtain ⟨r,inside,runs⟩ := h.running running
    exact ⟨r,inside,runs.generation,runs.finished,runs.delivered,runs.process,runs.authToken,rfl⟩

/- Every start so far is superseded. -/
theorem Sound.supersede {d : Custody} (h : Sound d) (status : SidecarStatus)
    (idle : status ≠ .running) (token : Option Nat) :
    Sound { d with
      status := status, authToken := token, backoffTimer := none, startGeneration := d.startGeneration + 1 } ∧
      ∀ r ∈ d.starts, r.generation < d.startGeneration + 1 := by
  have less (r : Start) (inside : r ∈ d.starts) : r.generation < d.startGeneration + 1 :=
    Nat.lt_succ_of_le (h.each r inside).generation
  refine ⟨?_,less⟩
  constructor
  · exact h.only
  · exact h.held
  · exact nofun
  · exact h.order
  · intro r inside
    have placed := h.each r inside
    have never : r.generation ≠ d.startGeneration + 1 := Nat.ne_of_lt (less r inside)
    exact ⟨Nat.le_of_lt (less r inside),placed.child,placed.minted,placed.port,fun _ now => absurd now never,
      placed.spawned,placed.token,fun now => absurd now never,fun now => absurd now never,placed.written⟩
  · exact fun _ r inside => Nat.ne_of_lt (less r inside)
  · exact fun running => absurd running idle

theorem Sound.enter {d : Custody} (h : Sound d) (gone : d.process = none) (clear : d.backoffTimer = none)
    (starting : d.status = .starting) (less : ∀ r ∈ d.starts, r.generation < d.startGeneration) :
    Sound { d with starts := d.starts ++ [⟨d.startGeneration,.port,none,none,0,.pending,none⟩] } := by
  constructor
  · exact h.only
  · exact h.held
  · exact h.restart
  · refine List.pairwise_append.mpr ⟨h.order,List.pairwise_singleton _ _,?_⟩
    intro a inside b last
    rw [List.mem_singleton.mp last]
    exact ⟨less a inside,fun _ => rfl,nofun,nofun⟩
  · intro r inside
    cases List.mem_append.mp inside with
    | inl there =>
      have placed := h.each r there
      exact ⟨placed.generation,placed.child,placed.minted,placed.port,placed.clear,placed.spawned,placed.token,
        placed.process,placed.own,placed.written⟩
    | inr last =>
      rw [List.mem_singleton.mp last]
      exact ⟨Nat.le_refl _,nofun,nofun,fun _ => ⟨rfl,rfl⟩,fun _ _ => ⟨gone,clear⟩,nofun,nofun,
        fun _ c process => absurd (gone.symm.trans process) nofun,nofun,nofun⟩
  · exact fun stopped => absurd (starting.symm.trans stopped) (by decide)
  · exact fun running => absurd (starting.symm.trans running) (by decide)

/- The current start spawns its child: no other is alive. -/
theorem Sound.spawn {d : Custody} (h : Sound d) {r : Start} (member : r ∈ d.starts) (port : r.point = .port)
    (current : r.generation = d.startGeneration) {r' : Start} {child : Child}
    (fresh : child.exited = false ∧ child.listening = true) (generation : r'.generation = r.generation)
    (mine : r'.child = some d.children.length) (token : r'.authToken = none) (point : r'.point = .spawned) :
    Sound ({ d with children := d.children ++ [child], process := some d.children.length }.replace r') := by
  have placed := h.each r member
  obtain ⟨gone,clear⟩ := placed.clear port current
  have same (o : Start) (inside : o ∈ d.starts) :
      (if o.generation = r'.generation then r' else o).generation = o.generation := by
    split
    · rename_i eq
      exact eq.symm
    · rfl
  have newer (c : Nat) (less : c < d.children.length) : c ≠ d.children.length := Nat.ne_of_lt less
  have written (o : Start) (delivered : Delivered d.children o) : Delivered (d.children ++ [child]) o := by
    obtain ⟨c,t,old,his,minted,there,wrote⟩ := delivered
    obtain ⟨less,_⟩ := List.getElem?_eq_some_iff.mp there
    exact ⟨c,t,old,his,minted,by rw [List.getElem?_append_left less,there],wrote⟩
  constructor
  · intro i alive
    obtain ⟨old,there,running,fine⟩ := alive
    have there : (d.children ++ [child])[i]? = some old := there
    by_cases less : i < d.children.length
    · rw [List.getElem?_append_left less] at there
      exact absurd (gone.symm.trans (h.only i ⟨old,there,running,fine⟩)) nofun
    · obtain ⟨bound,_⟩ := List.getElem?_eq_some_iff.mp there
      rw [List.length_append,List.length_singleton] at bound
      exact congrArg some (by omega)
  · intro i process
    cases Option.some.inj process
    exact ⟨child,by simp [replace],fresh⟩
  · intro timer
    have timer : d.backoffTimer.isSome := timer
    rw [clear] at timer
    exact absurd timer (by decide)
  · refine List.pairwise_map.mpr (h.order.imp_of_mem ?_)
    intro a b first second before
    constructor
    · rw [same a first,same b second]
      exact before.generation
    · intro spawned
      split
      · exact token
      · split at spawned
        · rename_i other here
          have later := before.generation
          have bound := (h.each b second).generation
          rw [here,generation,current] at later
          exact absurd later (Nat.not_lt_of_le bound)
        · exact before.minted spawned
    · intro c his
      split at his
      · rw [mine] at his
        cases Option.some.inj his
        split
        · rename_i one two
          exact absurd (one.trans two.symm) (Nat.ne_of_lt before.generation)
        · intro theirs
          exact newer _ ((h.each b second).child _ theirs) rfl
      · split
        · rw [mine]
          intro theirs
          exact newer _ ((h.each a first).child _ his) (Option.some.inj theirs).symm
        · exact before.children c his
    · intro t his
      split at his
      · exact absurd (token.symm.trans his) nofun
      · split
        · rw [token]
          exact nofun
        · exact before.tokens t his
  · intro x inside
    obtain ⟨o,there,rfl⟩ := List.mem_map.mp inside
    have his := h.each o there
    split
    · refine ⟨?_,?_,?_,?_,?_,fun _ => token,?_,?_,?_,?_⟩
      · rw [generation]
        exact placed.generation
      · intro c theirs
        rw [mine] at theirs
        cases Option.some.inj theirs
        simp [replace]
      · intro t minted
        exact absurd (token.symm.trans minted) nofun
      · intro wrong
        exact absurd (point.symm.trans wrong) nofun
      · intro wrong
        exact absurd (point.symm.trans wrong) nofun
      · intro wrong
        exact absurd (point.symm.trans wrong) nofun
      · intro _ c process
        exact mine.trans process
      · intro _ c _ _ minted
        rw [token] at minted
        exact absurd minted (by decide)
      · intro waits
        rw [waited,point] at waits
        exact absurd waits (by decide)
    · rename_i other
      refine ⟨his.generation,?_,his.minted,his.port,?_,his.spawned,his.token,?_,?_,?_⟩
      · intro c theirs
        simp only [replace,List.length_append]
        exact Nat.lt_add_right _ (his.child c theirs)
      · intro _ now
        exact absurd (now.trans (current.symm.trans generation.symm)) other
      · intro now
        exact absurd (now.trans (current.symm.trans generation.symm)) other
      · intro now
        exact absurd (now.trans (current.symm.trans generation.symm)) other
      · exact fun waits => written o (his.written waits)
  · intro stopped
    exact absurd current (h.stopped stopped r member)
  · intro running
    obtain ⟨o,inside,runs⟩ := h.running running
    rw [oneStart h inside member (runs.generation.trans current.symm)] at runs
    exact absurd (port.symm.trans runs.finished) nofun

/- The earliest start that has spawned mints its token; the current start has none before it. -/
theorem Sound.mint {d : Custody} (h : Sound d) {r : Start} (member : r ∈ d.starts) (spawned : r.point = .spawned)
    (first : ∀ o ∈ d.starts, o.generation < r.generation → o.point ≠ .spawned) {r' : Start}
    (generation : r'.generation = r.generation) (child : r'.child = r.child)
    (token : r'.authToken = some d.minted) (point : r'.point = .token) :
    Sound ({ d with authToken := some d.minted, minted := d.minted + 1 }.replace r') := by
  have placed := h.each r member
  have later (o : Start) (inside : o ∈ d.starts) (apart : o.generation ≠ r.generation)
      (current : o.generation = d.startGeneration) : o.authToken = none := by
    cases Nat.lt_or_gt_of_ne apart with
    | inl less =>
      rw [current] at less
      exact absurd less (Nat.not_lt_of_le placed.generation)
    | inr more => exact (beforeOf h.order member inside more).minted spawned
  have newer (o : Start) (inside : o ∈ d.starts) : o.authToken ≠ some d.minted :=
    fun same => Nat.lt_irrefl _ ((h.each o inside).minted _ same)
  have mine (o : Start) (inside : o ∈ d.starts) (same : o.generation = r'.generation) : o = r :=
    oneStart h inside member (same.trans generation)
  constructor
  · exact h.only
  · exact h.held
  · exact h.restart
  · refine List.pairwise_map.mpr (h.order.imp_of_mem ?_)
    intro a b one two before
    constructor
    · split
      · split
        · rename_i left right
          exact absurd (left.trans right.symm) (Nat.ne_of_lt before.generation)
        · rename_i left _
          rw [← left]
          exact before.generation
      · split
        · rename_i _ right
          rw [← right]
          exact before.generation
        · exact before.generation
    · intro waits
      split at waits
      · exact absurd (point.symm.trans waits) nofun
      · split
        · rename_i _ right
          have less := before.generation
          rw [right,generation] at less
          exact absurd waits (first a one less)
        · exact before.minted waits
    · intro c his
      split at his
      · rename_i left
        split
        · rename_i right
          exact absurd (left.trans right.symm) (Nat.ne_of_lt before.generation)
        · rw [child,← mine a one left] at his
          exact before.children c his
      · split
        · rename_i right
          rw [child,← mine b two right]
          exact before.children c his
        · exact before.children c his
    · intro t his
      split at his
      · rename_i left
        split
        · rename_i right
          exact absurd (left.trans right.symm) (Nat.ne_of_lt before.generation)
        · rw [← his,token]
          exact newer b two
      · split
        · rw [token]
          intro same
          exact newer a one (his.trans same.symm)
        · exact before.tokens t his
  · intro x inside
    obtain ⟨o,there,rfl⟩ := List.mem_map.mp inside
    have his := h.each o there
    split
    · refine ⟨?_,?_,?_,?_,?_,?_,?_,?_,?_,?_⟩
      · rw [generation]
        exact placed.generation
      · rw [child]
        exact placed.child
      · intro t minted
        rw [token] at minted
        cases Option.some.inj minted
        exact Nat.lt_succ_self _
      · exact fun wrong => absurd (point.symm.trans wrong) nofun
      · exact fun wrong => absurd (point.symm.trans wrong) nofun
      · exact fun wrong => absurd (point.symm.trans wrong) nofun
      · exact fun _ => by rw [token]; rfl
      · rw [generation,child]
        exact placed.process
      · exact fun _ _ _ _ _ => token.symm
      · intro waits
        rw [waited,point] at waits
        exact absurd waits (by decide)
    · rename_i other
      refine ⟨his.generation,his.child,?_,his.port,his.clear,his.spawned,his.token,his.process,?_,his.written⟩
      · exact fun t minted => Nat.lt_succ_of_lt (his.minted t minted)
      · intro current c _ _ minted
        rw [later o there (fun same => other (same.trans generation.symm)) current] at minted
        exact absurd minted (by decide)
  · intro stopped x inside
    obtain ⟨o,there,rfl⟩ := List.mem_map.mp inside
    split
    · rw [generation]
      exact h.stopped stopped r member
    · exact h.stopped stopped o there
  · intro running
    obtain ⟨o,inside,runs⟩ := h.running running
    have apart : o.generation ≠ r.generation := by
      intro same
      rw [oneStart h inside member same] at runs
      exact absurd (spawned.symm.trans runs.finished) nofun
    obtain ⟨c,t,_,_,minted,_⟩ := runs.delivered
    exact absurd (minted.symm.trans (later o inside apart runs.generation)) nofun

/- A start writes its token to its own child, which no other start has. -/
theorem Sound.write {d : Custody} (h : Sound d) {r : Start} (member : r ∈ d.starts) (point : r.point = .token)
    {c : Nat} (mine : r.child = some c) :
    Sound { d with children := d.children.modify c fun child => { child with written := r.authToken } } ∧
      Delivered (d.children.modify c fun child => { child with written := r.authToken }) r := by
  have placed := h.each r member
  have kept (o : Start) (inside : o ∈ d.starts) (apart : o.generation ≠ r.generation)
      (delivered : Delivered d.children o) :
      Delivered (d.children.modify c fun child => { child with written := r.authToken }) o := by
    obtain ⟨i,t,child,his,token,there,wrote⟩ := delivered
    have other : c ≠ i := fun same => apartChildren h inside member apart his (same ▸ mine)
    exact ⟨i,t,_,his,token,modifiedAt there,by rw [if_neg other]; exact wrote⟩
  constructor
  · constructor
    · intro i alive
      obtain ⟨child,there,running,fine⟩ := alive
      obtain ⟨old,before,rfl⟩ := modified there
      refine h.only i ⟨old,before,?_,?_⟩
      · split at running <;> exact running
      · split at fine <;> exact fine
    · intro i process
      obtain ⟨child,there,fine⟩ := h.held i process
      refine ⟨_,modifiedAt there,?_⟩
      split <;> exact fine
    · exact h.restart
    · exact h.order
    · intro o inside
      have his := h.each o inside
      refine ⟨his.generation,?_,his.minted,his.port,his.clear,his.spawned,his.token,his.process,his.own,?_⟩
      · rw [List.length_modify]
        exact his.child
      · intro waits
        by_cases same : o.generation = r.generation
        · rw [oneStart h inside member same,waited,point] at waits
          exact absurd waits (by decide)
        · exact kept o inside same (his.written waits)
    · exact h.stopped
    · intro running
      obtain ⟨o,inside,runs⟩ := h.running running
      have apart : o.generation ≠ r.generation := by
        intro same
        rw [oneStart h inside member same] at runs
        exact absurd (point.symm.trans runs.finished) nofun
      exact ⟨o,inside,runs.generation,runs.finished,kept o inside apart runs.delivered,runs.process,runs.authToken,
        runs.backoffTimer⟩
  · obtain ⟨t,token⟩ := Option.isSome_iff_exists.mp (placed.token point)
    obtain ⟨old,there⟩ : ∃ old, d.children[c]? = some old := ⟨_,List.getElem?_eq_getElem (placed.child c mine)⟩
    exact ⟨c,t,_,mine,token,modifiedAt there,by rw [if_pos rfl]; exact token⟩

/- The current start succeeds while its child is the process. -/
theorem Sound.succeed {d : Custody} (h : Sound d) {r : Start} (member : r ∈ d.starts)
    (current : r.generation = d.startGeneration) (delivered : Delivered d.children r)
    (process : d.process = r.child) :
    Sound ({ d with status := .running }.replace { r with point := .over }) := by
  have ended := h.put member (followsSame r).ends nofun
  obtain ⟨c,t,child,mine,token,there,wrote⟩ := delivered
  have here := process.trans mine
  have minted : d.authToken = r.authToken :=
    (h.each r member).own current c here mine (by rw [token]; rfl)
  have quiet : d.backoffTimer = none := by
    cases timer : d.backoffTimer with
    | none => rfl
    | some delay => exact absurd ((h.restart (by rw [timer]; rfl)).symm.trans here) nofun
  constructor
  · exact ended.only
  · exact ended.held
  · exact ended.restart
  · exact ended.order
  · intro o inside
    have his := ended.each o inside
    exact ⟨his.generation,his.child,his.minted,his.port,his.clear,his.spawned,his.token,his.process,his.own,
      his.written⟩
  · exact nofun
  · intro _
    refine ⟨{ r with point := .over },List.mem_map.mpr ⟨r,member,if_pos rfl⟩,?_⟩
    exact ⟨current,rfl,⟨c,t,child,mine,token,there,wrote⟩,process,minted,quiet⟩

end Custody
end SidecarManager
end Northstar.Sidecar
