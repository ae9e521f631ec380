import Mathlib.Data.List.Basic

/-! Runs that put the state back when they return: such a run returns with the state it was given, or fails.
When it fails is told by what it calls. -/
namespace Northstar.Undoing

section Rules

variable {σ ε α β γ : Type} {state : σ} {why : ε} {fails failsToo : Prop}

/- From a state, a run fails for one reason just when a condition holds, and else returns with the state it was given. -/
def Settles (run : StateT σ (Except ε) α) (state : σ) (why : ε) (fails : Prop) : Prop :=
  (fails ∧ run state = .error why) ∨ (¬fails ∧ ∃ value, run state = .ok (value,state))

theorem settlesSame {run : StateT σ (Except ε) α} (settles : Settles run state why fails) (same : fails ↔ failsToo) :
    Settles run state why failsToo := by
  rwa [Settles,← same]

theorem settlesPure (value : α) : Settles (pure value) state why False := .inr ⟨id,value,rfl⟩

theorem settlesThrow : Settles (throw why : StateT σ (Except ε) α) state why True := .inl ⟨trivial,rfl⟩

/- What comes next may fail in a way that depends on the value. -/
theorem settlesBind {run : StateT σ (Except ε) α} {next : α → StateT σ (Except ε) β} {later : α → Prop}
    (first : Settles run state why fails) (second : ∀ value, run state = .ok (value,state) → Settles (next value) state why (later value)) :
    Settles (run >>= next) state why (fails ∨ ∃ value, run state = .ok (value,state) ∧ later value) := by
  rcases first with ⟨bad,stopped⟩ | ⟨fine,value,returned⟩
  · refine .inl ⟨.inl bad,?_⟩
    change run state >>= _ = _
    rw [stopped]
    rfl
  · have goesOn : (run >>= next) state = next value state := by
      change run state >>= _ = _
      rw [returned]
      rfl
    have only : (fails ∨ ∃ value, run state = .ok (value,state) ∧ later value) ↔ later value := by
      constructor
      · rintro (bad | ⟨other,same,bad⟩)
        · exact absurd bad fine
        · obtain rfl : value = other := (Prod.mk.inj (Except.ok.inj (returned.symm.trans same))).1
          exact bad
      · intro bad
        exact .inr ⟨value,returned,bad⟩
    rw [Settles,goesOn,only]
    exact second value returned

theorem settlesThen {run : StateT σ (Except ε) α} {next : α → StateT σ (Except ε) β} (first : Settles run state why fails)
    (second : ∀ value, Settles (next value) state why failsToo) : Settles (run >>= next) state why (fails ∨ failsToo) := by
  refine settlesSame (settlesBind first fun value _ => second value) (or_congr_right' fun fine => ?_)
  rcases first with ⟨bad,_⟩ | ⟨_,value,returned⟩
  · exact absurd bad fine
  · exact ⟨fun ⟨_,_,bad⟩ => bad,fun bad => ⟨value,returned,bad⟩⟩

/- What is done with the value cannot fail. -/
theorem settlesPlain {run : StateT σ (Except ε) α} {next : α → StateT σ (Except ε) β} (first : Settles run state why fails)
    (second : ∀ value, Settles (next value) state why False) : Settles (run >>= next) state why fails :=
  settlesSame (settlesThen first second) (iff_of_eq (or_false fails))

theorem settlesRead {next : σ → StateT σ (Except ε) α} (settles : Settles (next state) state why fails) :
    Settles (get >>= next) state why fails := settles

theorem settlesWhen {run : StateT σ (Except ε) α} {value : α} {given : Prop} [Decidable given] (settles : given → Settles run state why fails) :
    Settles (if given then run else pure value) state why (given ∧ fails) := by
  split
  · rename_i given
    exact settlesSame (settles given) (and_iff_right given).symm
  · rename_i missing
    exact settlesSame (settlesPure value) (false_iff _ |>.mpr fun both => missing both.1)

/- A run between a change of the state and the change back. -/
theorem settlesWithin {run : StateT σ (Except ε) α} (enter leave : σ → σ) (undone : leave (enter state) = state)
    (settles : Settles run (enter state) why fails) :
    Settles (do modify enter; let value ← run; modify leave; pure value) state why fails := by
  rcases settles with ⟨bad,stopped⟩ | ⟨fine,value,returned⟩
  · refine .inl ⟨bad,?_⟩
    change run (enter state) >>= _ = _
    rw [stopped]
    rfl
  · refine .inr ⟨fine,value,?_⟩
    change run (enter state) >>= _ = _
    rw [returned]
    change Except.ok (value,leave (enter state)) = _
    rw [undone]

theorem settlesFold {items : List γ} {step : α → γ → StateT σ (Except ε) α} {bad : γ → Prop}
    (each : ∀ item ∈ items, ∀ value, Settles (step value item) state why (bad item)) (value : α) :
    Settles (items.foldlM step value) state why (∃ item ∈ items, bad item) := by
  induction items generalizing value with
  | nil => exact settlesSame (settlesPure value) (by simp)
  | cons item rest ih =>
    have tail (value : α) := ih (fun other member => each other (List.mem_cons_of_mem _ member)) value
    rw [List.foldlM_cons]
    exact settlesSame (settlesThen (each item List.mem_cons_self value) tail) (by simp)

theorem settlesMap {items : List γ} {step : γ → StateT σ (Except ε) α} {bad : γ → Prop}
    (each : ∀ item ∈ items, Settles (step item) state why (bad item)) :
    Settles (items.mapM step) state why (∃ item ∈ items, bad item) := by
  induction items with
  | nil => exact settlesSame (settlesPure []) (by simp)
  | cons item rest ih =>
    have tail := ih fun other member => each other (List.mem_cons_of_mem _ member)
    rw [List.mapM_cons]
    refine settlesSame (settlesThen (each item List.mem_cons_self) fun value => settlesPlain tail fun values => settlesPure _) (by simp)

theorem settlesOk {run : StateT σ (Except ε) α} (settles : Settles run state why fails) :
    (∃ value, run state = .ok (value,state)) ↔ ¬fails := by
  rcases settles with ⟨bad,stopped⟩ | ⟨fine,returned⟩
  · exact iff_of_false (fun ⟨value,returned⟩ => nomatch stopped.symm.trans returned) (not_not.mpr bad)
  · exact iff_of_true returned fine

end Rules

section Calls

variable {τ : Type} (calls : τ → List τ) (fault : τ → Prop)

/- A task is at fault itself, or a task that it calls, and so on. -/
inductive Reaches : τ → Prop
  | here {task} (bad : fault task) : Reaches task
  | deeper {task called} (call : called ∈ calls task) (tail : Reaches called) : Reaches task

variable {calls fault}

theorem reachesStep {task : τ} : Reaches calls fault task ↔ fault task ∨ ∃ called ∈ calls task, Reaches calls fault called := by
  constructor
  · intro reaches
    cases reaches with
    | here bad => exact .inl bad
    | deeper call tail => exact .inr ⟨_,call,tail⟩
  · rintro (bad | ⟨called,call,tail⟩)
    · exact .here bad
    · exact .deeper call tail

/- A measure that every call lowers, and one step for each: what holds of a task whose calls it holds of, holds with
as many steps as the measure. -/
theorem measured {holds : Nat → τ → Prop} (measure : τ → Nat) (less : ∀ task, ∀ called ∈ calls task, measure called < measure task)
    (step : ∀ steps task, (∀ called ∈ calls task, holds steps called) → holds (steps + 1) task) (steps : Nat) (task : τ)
    (enough : measure task < steps) : holds steps task := by
  induction steps generalizing task with
  | zero => omega
  | succ steps ih => exact step steps task fun called call => ih called (by have := less task called call; omega)

end Calls

end Northstar.Undoing
