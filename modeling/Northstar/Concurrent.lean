import Northstar.Program

/-! Programs that run side by side, one call at a time in any order. A bound on the calls of each,
whatever is replied, is a bound on the calls of all. -/
namespace Northstar
namespace Program
variable {Op : Type} {Reply : Op → Type} {α β : Type} {counted : Op → Bool}

/-- At most so many calls of a kind, whatever is replied. -/
def Most (counted : Op → Bool) : Program Op Reply α → Nat → Prop
  | .done _, _ => True
  | .call op next, n =>
      if counted op then ∃ m, n = m + 1 ∧ ∀ reply, Most counted (next reply) m
      else ∀ reply, Most counted (next reply) n

theorem mostMore {p : Program Op Reply α} {n m : Nat} (fewer : n ≤ m) (h : p.Most counted n) : p.Most counted m := by
  induction p generalizing n m with
  | done value => trivial
  | call op next ih =>
    unfold Most at h ⊢
    split at h
    · rename_i costs
      obtain ⟨k,rfl,later⟩ := h
      rw [if_pos costs]
      exact ⟨m - 1,by omega,fun reply => ih reply (by omega) (later reply)⟩
    · rename_i free
      rw [if_neg free]
      exact fun reply => ih reply fewer (h reply)

theorem mostBind {p : Program Op Reply α} {f : α → Program Op Reply β} {n m : Nat} (first : p.Most counted n)
    (rest : ∀ value, (f value).Most counted m) : (p >>= f).Most counted (n + m) := by
  induction p generalizing n with
  | done value => exact mostMore (Nat.le_add_left m n) (rest value)
  | call op next ih =>
    rw [bindCall]
    unfold Most at first ⊢
    split at first
    · rename_i costs
      obtain ⟨k,rfl,later⟩ := first
      rw [if_pos costs]
      exact ⟨k + m,by omega,fun reply => ih reply (later reply)⟩
    · rename_i free
      rw [if_neg free]
      exact fun reply => ih reply (first reply)

theorem mostCounted {op : Op} {next : Reply op → Program Op Reply α} {n : Nat} (costs : counted op = true)
    (rest : ∀ reply, (next reply).Most counted n) : (request op >>= next).Most counted (n + 1) := by
  rw [bindRequest]
  unfold Most
  rw [if_pos costs]
  exact ⟨n,rfl,rest⟩

theorem mostFree {op : Op} {next : Reply op → Program Op Reply α} {n : Nat} (free : counted op = false)
    (rest : ∀ reply, (next reply).Most counted n) : (request op >>= next).Most counted n := by
  rw [bindRequest]
  unfold Most
  rw [if_neg (by rw [free]; exact Bool.false_ne_true)]
  exact rest

/-- Turns of programs in any order, with the calls they made and what is left of them. -/
inductive Interleaved : List (Program Op Reply α) → List Op → List (Program Op Reply α) → Prop where
  | stop (programs) : Interleaved programs [] programs
  | turn {programs i op next ops left} (at_ : programs[i]? = some (.call op next)) (reply : Reply op)
      (rest : Interleaved (programs.set i (next reply)) ops left) : Interleaved programs (op :: ops) left

theorem sumSet {values : List Nat} {i n m : Nat} (at_ : values[i]? = some n) :
    (values.set i m).sum + n = values.sum + m := by
  induction values generalizing i with
  | nil => contradiction
  | cons first rest ih => cases i with
    | zero =>
      cases Option.some.inj at_
      simp only [List.set_cons_zero,List.sum_cons]
      omega
    | succ i =>
      have later := ih at_
      simp only [List.set_cons_succ,List.sum_cons]
      omega

theorem interleavedMost {programs left : List (Program Op Reply α)} {ops : List Op} (run : Interleaved programs ops left)
    {bounds : List Nat} (each : List.Forall₂ (fun p n => p.Most counted n) programs bounds) :
    ops.countP counted ≤ bounds.sum := by
  induction run generalizing bounds with
  | stop programs => exact Nat.zero_le _
  | @turn programs i op next ops left at_ reply rest ih =>
    have there := (List.getElem?_eq_some_iff.mp at_).1
    have bounded : i < bounds.length := each.length_eq ▸ there
    have bound := List.getElem?_eq_getElem bounded
    have most := each.get there bounded
    simp only [List.get_eq_getElem,(List.getElem?_eq_some_iff.mp at_).2] at most
    have after {n : Nat} (later : (next reply).Most counted n) :
        List.Forall₂ (fun p n => p.Most counted n) (programs.set i (next reply)) (bounds.set i n) := by
      refine List.forall₂_iff_get.mpr ⟨by simp [each.length_eq],fun j first second => ?_⟩
      simp only [List.get_eq_getElem,List.getElem_set]
      split
      · exact later
      · exact each.get (by simpa using first) (by simpa using second)
    unfold Most at most
    split at most
    · rename_i costs
      obtain ⟨m,size,later⟩ := most
      have total := ih (after (later reply))
      have sum := sumSet (m := m) bound
      rw [List.countP_cons_of_pos costs]
      omega
    · rename_i free
      have total := ih (after (most reply))
      have sum := sumSet (m := bounds[i]) bound
      rw [List.countP_cons_of_neg free]
      omega

end Program
end Northstar
