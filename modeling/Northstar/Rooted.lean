import Mathlib

/-! Names walked from a directory one step at a time, and the stack that tells whether such a walk leaves it. -/
namespace Northstar.Rooted
variable {α : Type}

inductive Step (α : Type) where
  | up
  | into (name : α)
  deriving DecidableEq

/- Above the top stands the top itself. -/
def move (place : List α) : Step α → List α
  | .up => place.dropLast
  | .into name => place ++ [name]

def reach (place : List α) (steps : List (Step α)) : List α := steps.foldl move place

/- No place on the way is outside of the root. -/
def Stays (root place : List α) (steps : List (Step α)) : Prop := ∀ n, root <+: reach place (steps.take n)

/- Where the steps lead below the root, or nothing once one of them leaves it. -/
def climb : List α → List (Step α) → Option (List α)
  | stack, [] => some stack
  | stack, .up :: rest => if stack = [] then none else climb stack.dropLast rest
  | stack, .into name :: rest => climb (stack ++ [name]) rest

variable {root : List α}

theorem staysCons (place : List α) (step : Step α) (rest : List (Step α)) :
    Stays root place (step :: rest) ↔ root <+: place ∧ Stays root (move place step) rest := by
  constructor
  · intro stays
    exact ⟨stays 0,fun n => stays (n + 1)⟩
  · intro stays n
    cases n with
    | zero => exact stays.1
    | succ n => exact stays.2 n

theorem outsideTop (some_ : root ≠ []) (steps : List (Step α)) : ¬ Stays root root.dropLast steps := by
  intro stays
  have short := (stays 0).length_le
  have least : 0 < root.length := List.length_pos_iff.mpr some_
  simp only [reach,List.take_zero,List.foldl_nil,List.length_dropLast] at short
  omega

/- The stack is exact, wherever the root stands but at the top of all. -/
theorem climbExactly (some_ : root ≠ []) (stack : List α) (steps : List (Step α)) (final : List α) :
    climb stack steps = some final ↔ Stays root (root ++ stack) steps ∧ reach (root ++ stack) steps = root ++ final := by
  induction steps generalizing stack with
  | nil => simp [climb,Stays,reach]
  | cons step rest ih =>
    rw [staysCons]
    cases step with
    | up =>
      rw [climb]
      split
      · rename_i bare
        subst bare
        have left : ¬ Stays root (move root .up) rest := outsideTop some_ rest
        simp [left]
      · rename_i below
        have moved : move (root ++ stack) .up = root ++ stack.dropLast := List.dropLast_append_of_ne_nil below
        rw [ih,moved]
        simp [reach,moved]
    | into name =>
      have moved : move (root ++ stack) (.into name) = root ++ (stack ++ [name]) := List.append_assoc ..
      rw [climb,ih,moved]
      simp [reach,moved]

end Northstar.Rooted
