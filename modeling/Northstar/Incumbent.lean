import Mathlib.Data.List.Perm.Basic
import Mathlib.Data.List.Nodup

/-! The scan for a sole best candidate: an incumbent, its score and whether another candidate
tied with it. Negative scores do not compete. -/
namespace Northstar

structure Incumbent (α : Type) where
  best : Option α := none
  score : Int := -1
  tied : Bool := false

namespace Incumbent

variable {α : Type} (score : α → Int)

def challenge (held : Incumbent α) (candidate : α) : Incumbent α :=
  if score candidate < 0 then held
  else if held.score < score candidate then ⟨some candidate,score candidate,false⟩
  else if score candidate = held.score then { held with tied := true }
  else held

def answer (held : Incumbent α) : Option α := if held.tied then none else held.best

/- What the scan knows of the candidates it is through. -/
structure Scanned (through : List α) (held : Incumbent α) : Prop where
  floor : -1 ≤ held.score
  bound : ∀ candidate ∈ through, score candidate ≤ held.score ∨ score candidate < 0
  empty : held.best = none → held.score = -1 ∧ held.tied = false
  holds : ∀ best, held.best = some best → best ∈ through ∧ score best = held.score ∧ 0 ≤ held.score
  sole : held.tied = false → ∀ best, held.best = some best → ∀ other ∈ through, score other = held.score → other = best
  tie : held.tied = true → ∀ best, held.best = some best → ∃ other ∈ through, other ≠ best ∧ score other = held.score

theorem scannedStep {through : List α} {held : Incumbent α} {candidate : α} (h : Scanned score through held)
    (fresh : candidate ∉ through) : Scanned score (through ++ [candidate]) (held.challenge score candidate) := by
  have last : candidate ∈ through ++ [candidate] := List.mem_append_right _ List.mem_cons_self
  have earlier {other : α} (member : other ∈ through) : other ∈ through ++ [candidate] := List.mem_append_left _ member
  unfold challenge
  split
  · rename_i out
    refine ⟨h.floor,?_,h.empty,?_,?_,?_⟩
    · intro other member
      cases List.mem_append.mp member with
      | inl old => exact h.bound other old
      | inr new => exact .inr (List.mem_singleton.mp new ▸ out)
    · intro best held_
      obtain ⟨member,same,floor⟩ := h.holds best held_
      exact ⟨earlier member,same,floor⟩
    · intro alone best held_ other member same
      have floor := (h.holds best held_).2.2
      cases List.mem_append.mp member with
      | inl old => exact h.sole alone best held_ other old same
      | inr new =>
        rw [List.mem_singleton.mp new] at same
        omega
    · intro tied best held_
      obtain ⟨other,member,apart,same⟩ := h.tie tied best held_
      exact ⟨other,earlier member,apart,same⟩
  rename_i competes
  split
  · rename_i wins
    have floor := h.floor
    refine ⟨by dsimp only; omega,?_,nofun,?_,?_,nofun⟩
    · intro other member
      cases List.mem_append.mp member with
      | inl old =>
        cases h.bound other old with
        | inl less => exact .inl (by dsimp only; omega)
        | inr out => exact .inr out
      | inr new => exact .inl (List.mem_singleton.mp new ▸ Int.le_refl _)
    · intro best held_
      cases held_
      exact ⟨last,rfl,by dsimp only; omega⟩
    · intro _ best held_ other member same
      cases held_
      cases List.mem_append.mp member with
      | inl old =>
        dsimp only at same
        cases h.bound other old <;> omega
      | inr new => exact List.mem_singleton.mp new
  rename_i loses
  split
  · rename_i same
    refine ⟨h.floor,?_,?_,?_,nofun,?_⟩
    · intro other member
      cases List.mem_append.mp member with
      | inl old => exact h.bound other old
      | inr new => exact .inl (List.mem_singleton.mp new ▸ Int.le_of_eq same)
    · intro none
      have floor := (h.empty none).1
      omega
    · intro best held_
      obtain ⟨member,equal,floor⟩ := h.holds best held_
      exact ⟨earlier member,equal,floor⟩
    · intro _ best held_
      obtain ⟨member,_,_⟩ := h.holds best held_
      exact ⟨candidate,last,fun same => fresh (same ▸ member),same⟩
  · rename_i apart
    refine ⟨h.floor,?_,h.empty,?_,?_,?_⟩
    · intro other member
      cases List.mem_append.mp member with
      | inl old => exact h.bound other old
      | inr new =>
        rw [List.mem_singleton.mp new]
        exact .inl (by omega)
    · intro best held_
      obtain ⟨member,same,floor⟩ := h.holds best held_
      exact ⟨earlier member,same,floor⟩
    · intro alone best held_ other member same
      cases List.mem_append.mp member with
      | inl old => exact h.sole alone best held_ other old same
      | inr new =>
        rw [List.mem_singleton.mp new] at same
        exact absurd same apart
    · intro tied best held_
      obtain ⟨other,member,apart,same⟩ := h.tie tied best held_
      exact ⟨other,earlier member,apart,same⟩

theorem scannedFold {through rest : List α} {held : Incumbent α} (h : Scanned score through held)
    (distinct : (through ++ rest).Nodup) : Scanned score (through ++ rest) (rest.foldl (challenge score) held) := by
  induction rest generalizing through held with
  | nil => rwa [List.append_nil]
  | cons candidate later ih =>
    have split : through ++ candidate :: later = through ++ [candidate] ++ later := by simp
    have fresh : candidate ∉ through := by
      intro old
      exact List.disjoint_of_nodup_append distinct old List.mem_cons_self
    rw [split]
    exact ih (scannedStep score h fresh) (split ▸ distinct)

theorem scanned {candidates : List α} (distinct : candidates.Nodup) :
    Scanned score candidates (candidates.foldl (challenge score) {}) :=
  have nothing : Scanned score [] {} := ⟨Int.le_refl _,nofun,fun _ => ⟨rfl,rfl⟩,nofun,nofun,nofun⟩
  scannedFold score nothing distinct

/- The answer is the candidate that beats every other one. -/
theorem answerIff {candidates : List α} (distinct : candidates.Nodup) (candidate : α) :
    (candidates.foldl (challenge score) {}).answer = some candidate ↔
      candidate ∈ candidates ∧ 0 ≤ score candidate ∧ ∀ other ∈ candidates, other ≠ candidate → score other < score candidate := by
  have h := scanned score distinct
  generalize candidates.foldl (challenge score) {} = held at h
  unfold answer
  constructor
  · intro found
    split at found
    · contradiction
    rename_i alone
    obtain ⟨member,same,floor⟩ := h.holds candidate found
    refine ⟨member,by omega,?_⟩
    intro other there apart
    have unequal : score other ≠ held.score := by
      intro equal
      exact apart (h.sole (by simpa using alone) candidate found other there equal)
    cases h.bound other there <;> omega
  · intro beats
    obtain ⟨member,floor,over_⟩ := beats
    have most : score candidate ≤ held.score := by
      cases h.bound candidate member <;> omega
    cases there : held.best with
    | none =>
      have empty := (h.empty there).1
      omega
    | some best =>
      obtain ⟨inside,same,_⟩ := h.holds best there
      have equal : best = candidate := by
        by_contra apart
        have less := over_ best inside apart
        omega
      cases tied : held.tied with
      | false => rw [if_neg Bool.false_ne_true,equal]
      | true =>
        obtain ⟨other,outside,apart,level⟩ := h.tie tied best there
        have less := over_ other outside (equal ▸ apart)
        rw [equal] at same
        omega

theorem answerPerm {candidates others : List α} (distinct : candidates.Nodup) (same : candidates.Perm others) :
    (others.foldl (challenge score) {}).answer = (candidates.foldl (challenge score) {}).answer := by
  refine Option.ext fun candidate => ?_
  rw [answerIff score (same.nodup_iff.mp distinct),answerIff score distinct]
  simp only [same.mem_iff]

end Incumbent
end Northstar
