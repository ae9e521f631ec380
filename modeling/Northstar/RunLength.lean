import Mathlib.Data.List.Infix
import Mathlib.Data.List.Chain

/-! Lists as runs of equal elements, and where three elements in a row can stand in a list that is
put together from pieces whose ends tell them apart. -/
namespace Northstar.RunLength

variable {α : Type}

def runs [DecidableEq α] : List α → List (α × Nat)
  | [] => []
  | u :: rest => match runs rest with
      | (v,n) :: more => if v = u then (u,n + 1) :: more else (u,1) :: (v,n) :: more
      | [] => [(u,1)]

def expand (rs : List (α × Nat)) : List α := rs.flatMap fun r => List.replicate r.2 r.1

/- Neighbouring runs are of different elements, and none is empty. -/
def Apart (rs : List (α × Nat)) : Prop := rs.IsChain (fun a b => a.1 ≠ b.1) ∧ ∀ r ∈ rs, 0 < r.2

theorem expandRuns [DecidableEq α] (text : List α) : expand (runs text) = text := by
  induction text with
  | nil => rfl
  | cons u rest ih =>
    unfold runs
    cases shape : runs rest with
    | nil =>
      rw [shape] at ih
      rw [← ih]
      rfl
    | cons first more =>
      obtain ⟨v,n⟩ := first
      rw [shape] at ih
      simp only
      split
      · rename_i same
        rw [← ih,same]
        rfl
      · rw [← ih]
        rfl

theorem runsApart [DecidableEq α] (text : List α) : Apart (runs text) := by
  induction text with
  | nil => exact ⟨.nil,nofun⟩
  | cons u rest ih =>
    unfold runs
    cases shape : runs rest with
    | nil => exact ⟨.singleton _,by simp⟩
    | cons first more =>
      obtain ⟨v,n⟩ := first
      rw [shape] at ih
      obtain ⟨chain,positive⟩ := ih
      have later : ∀ r ∈ more, 0 < r.2 := fun r member => positive r (List.mem_cons_of_mem _ member)
      simp only
      split
      · rename_i same
        refine ⟨?_,?_⟩
        · cases more with
          | nil => exact .singleton _
          | cons next more =>
            obtain ⟨apart,chain⟩ := List.isChain_cons_cons.mp chain
            exact List.isChain_cons_cons.mpr ⟨same ▸ apart,chain⟩
        · intro r member
          rcases List.mem_cons.mp member with rfl | inside
          · exact Nat.succ_pos n
          · exact later r inside
      · rename_i differ
        refine ⟨List.isChain_cons_cons.mpr ⟨fun same => differ same.symm,chain⟩,?_⟩
        intro r member
        rcases List.mem_cons.mp member with rfl | inside
        · exact Nat.one_pos
        · exact positive r inside

theorem apartTail {r : α × Nat} {rs : List (α × Nat)} (h : Apart (r :: rs)) : Apart rs :=
  ⟨h.1.tail,fun other member => h.2 other (List.mem_cons_of_mem _ member)⟩

/- A piece for a run begins and ends with its element. -/
def Ends (u : α) (piece : List α) : Prop := piece.head? = some u ∧ piece.getLast? = some u

theorem endsReplicate (u : α) {n : Nat} (positive : 0 < n) : Ends u (List.replicate n u) := by
  have some_ : n ≠ 0 := Nat.pos_iff_ne_zero.mp positive
  exact ⟨by simp [List.head?_replicate,some_],by simp [List.getLast?_replicate,some_]⟩

theorem piecesHead {f : α × Nat → List α} {rs : List (α × Nat)} (ends : ∀ r ∈ rs, Ends r.1 (f r)) :
    (rs.flatMap f).head? = rs.head?.map (·.1) := by
  cases rs with
  | nil => rfl
  | cons r rest => simp [(ends r List.mem_cons_self).1]

/- Where a run is followed by others, their pieces begin with another element. -/
theorem nextApart {f : α × Nat → List α} {r : α × Nat} {rest : List (α × Nat)} (apart : Apart (r :: rest))
    (ends : ∀ r ∈ rest, Ends r.1 (f r)) : ∀ v ∈ (rest.flatMap f).head?, r.1 ≠ v := by
  rw [piecesHead ends]
  cases rest with
  | nil => nofun
  | cons next more =>
    intro v is
    cases Option.some.inj is
    exact (List.isChain_cons_cons.mp apart.1).1

theorem infixParts {c : α} {a b : List α} (apart : ∀ u ∈ a.getLast?, ∀ v ∈ b.head?, u ≠ v) :
    [c,c,c] <:+: a ++ b ↔ [c,c,c] <:+: a ∨ [c,c,c] <:+: b := by
  constructor
  · rintro ⟨before,after,whole⟩
    rw [List.append_assoc,List.append_eq_append_iff] at whole
    rcases whole with ⟨more,rfl,rest⟩ | ⟨more,rfl,rest⟩
    · rcases more with _ | ⟨x,_ | ⟨y,_ | ⟨z,more⟩⟩⟩
      · exact .inr ⟨[],after,by simpa using rest⟩
      · simp only [List.cons_append,List.nil_append,List.cons.injEq] at rest
        obtain ⟨rfl,rfl⟩ := rest
        exact absurd rfl (apart c (by simp) c (by simp))
      · simp only [List.cons_append,List.nil_append,List.cons.injEq] at rest
        obtain ⟨rfl,rfl,rfl⟩ := rest
        exact absurd rfl (apart c (by simp) c (by simp))
      · simp only [List.cons_append,List.nil_append,List.cons.injEq] at rest
        obtain ⟨rfl,rfl,rfl,_⟩ := rest
        exact .inl ⟨before,more,by simp⟩
    · exact .inr ⟨more,after,by rw [List.append_assoc]; exact rest.symm⟩
  · rintro (inside | inside)
    · exact inside.trans (List.prefix_append a b).isInfix
    · exact inside.trans (List.suffix_append a b).isInfix

/- Three in a row, in a prefix of the pieces, stand in one piece that is wholly in the prefix,
if no piece has them before its end. -/
theorem infixPieces {c : α} {f : α × Nat → List α} {bad : α × Nat → Prop} {rs : List (α × Nat)} (apart : Apart rs)
    (ends : ∀ r ∈ rs, Ends r.1 (f r))
    (each : ∀ r ∈ rs, ∀ part, part <+: f r → ([c,c,c] <:+: part ↔ bad r ∧ part = f r)) {part : List α}
    (start : part <+: rs.flatMap f) :
    [c,c,c] <:+: part ↔ ∃ i r, rs[i]? = some r ∧ bad r ∧ (rs.take (i + 1)).flatMap f <+: part := by
  induction rs generalizing part with
  | nil =>
    rw [List.flatMap_nil,List.prefix_nil] at start
    subst start
    simp
  | cons r rest ih =>
    have here := each r List.mem_cons_self
    have ends' : ∀ r ∈ rest, Ends r.1 (f r) := fun r member => ends r (List.mem_cons_of_mem _ member)
    have nonempty (r : α × Nat) (h : Ends r.1 (f r)) : f r ≠ [] := fun empty => by simp [Ends,empty] at h
    have first : (∃ i r', (r :: rest)[i]? = some r' ∧ bad r' ∧ ((r :: rest).take (i + 1)).flatMap f <+: part) ↔
        (bad r ∧ f r <+: part) ∨ ∃ i r', rest[i]? = some r' ∧ bad r' ∧ f r ++ (rest.take (i + 1)).flatMap f <+: part := by
      constructor
      · rintro ⟨_ | i,r',at_,is,whole⟩
        · cases Option.some.inj at_
          exact .inl ⟨is,by simpa using whole⟩
        · exact .inr ⟨i,r',at_,is,by simpa using whole⟩
      · rintro (⟨is,whole⟩ | ⟨i,r',at_,is,whole⟩)
        · exact ⟨0,r,rfl,is,by simpa using whole⟩
        · exact ⟨i + 1,r',at_,is,by simpa using whole⟩
    rw [first]
    rw [List.flatMap_cons] at start
    rcases List.prefix_or_prefix_of_prefix start (List.prefix_append (f r) _) with within | ⟨more,rfl⟩
    · rw [here part within]
      constructor
      · rintro ⟨is,rfl⟩
        exact .inl ⟨is,List.prefix_rfl⟩
      · rintro (⟨is,whole⟩ | ⟨i,r',at_,_,whole⟩)
        · exact ⟨is,within.eq_of_length_le whole.length_le⟩
        · -- the later piece has no room in a prefix of this one
          have size := (whole.trans within).length_le
          have some_ : 0 < ((rest.take (i + 1)).flatMap f).length := by
            cases rest with
            | nil => contradiction
            | cons next more =>
              have first := List.length_pos_iff.mpr (nonempty next (ends' next List.mem_cons_self))
              rw [List.take_succ_cons,List.flatMap_cons,List.length_append]
              omega
          rw [List.length_append] at size
          omega
    · have later := (List.prefix_append_right_inj (f r)).mp start
      have beside : ∀ u ∈ (f r).getLast?, ∀ v ∈ more.head?, u ≠ v := by
        intro u last v next
        rw [(ends r List.mem_cons_self).2] at last
        cases Option.some.inj last
        refine nextApart apart ends' v ?_
        obtain ⟨left,whole⟩ := later
        rw [← whole,List.head?_append_of_ne_nil]
        · exact next
        · rintro rfl
          contradiction
      rw [infixParts beside,here (f r) List.prefix_rfl,ih (apartTail apart) ends' (fun r member => each r (List.mem_cons_of_mem _ member)) later]
      simp only [and_true,List.prefix_append_right_inj,List.prefix_append]

end Northstar.RunLength
