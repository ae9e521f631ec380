import Mathlib.Data.List.Basic

/-! Backtracking patterns over a text, as a regular expression literal of a script runs them.
A place in a text is what was read, latest unit first, and what is left; a pattern answers
the places it can end at in the order a backtracking matcher tries them. -/
namespace Northstar

structure Place (α : Type) where
  read : List α
  left : List α

inductive Pattern (α : Type) where
  | empty
  | unit (accepts : α → Bool)
  | seq (first second : Pattern α)
  | either (first second : Pattern α)
  | many (body : Pattern α)
  | edge (word : α → Bool)
  | ahead (body : Pattern α)
  | start

namespace Pattern

variable {α : Type}

/- One more round as long as it reads something, then without it. -/
def rounds (body : Place α → List (Place α)) : Nat → Place α → List (Place α)
  | 0, place => [place]
  | n + 1, place =>
      ((body place).filter fun next => next.left.length < place.left.length).flatMap (rounds body n) ++ [place]

def ends : Pattern α → Place α → List (Place α)
  | .empty, place => [place]
  | .unit accepts, ⟨read,left⟩ => match left with
      | [] => []
      | u :: rest => if accepts u then [⟨u :: read,rest⟩] else []
  | .seq first second, place => (first.ends place).flatMap second.ends
  | .either first second, place => first.ends place ++ second.ends place
  | .many body, place => rounds body.ends place.left.length place
  | .edge word, place => if place.read.head?.any word != place.left.head?.any word then [place] else []
  | .ahead body, place => if (body.ends place).isEmpty then [] else [place]
  | .start, place => if place.read.isEmpty then [place] else []

def opt (body : Pattern α) : Pattern α := .either body .empty

def some (body : Pattern α) : Pattern α := .seq body (.many body)

def all : List (Pattern α) → Pattern α
  | [] => .empty
  | [one] => one
  | one :: rest => .seq one (all rest)

def times (body : Pattern α) : Nat → Pattern α
  | 0 => .empty
  | n + 1 => .seq body (times body n)

/- Between `least` and `least + more` times, as often as it can. -/
def upTo (body : Pattern α) (least more : Nat) : Pattern α :=
  .seq (body.times least) (Nat.rec .empty (fun _ rest => opt (.seq body rest)) more)

/- What the pattern reads at a place, with the place after it. -/
def matchAt (pattern : Pattern α) (place : Place α) : Option (List α × Place α) :=
  (pattern.ends place).head?.map fun next =>
    (place.left.take (place.left.length - next.left.length),next)

/- Every match from left to right, each with the index it starts at; after an empty match the
search goes on one unit later. -/
def searchFrom (pattern : Pattern α) : Nat → Place α → List (Nat × List α)
  | 0, _ => []
  | n + 1, place =>
      let later := match place.left with
        | [] => []
        | u :: rest => pattern.searchFrom n ⟨u :: place.read,rest⟩
      match pattern.matchAt place with
      | none => later
      | Option.some (found,next) =>
          if found.isEmpty then (place.read.length,[]) :: later
          else (place.read.length,found) :: pattern.searchFrom n next

def matchAll (pattern : Pattern α) (text : List α) : List (Nat × List α) :=
  pattern.searchFrom (text.length + 1) ⟨[],text⟩

def firstMatch (pattern : Pattern α) (text : List α) : Option (List α) :=
  (pattern.matchAll text).head?.map Prod.snd

def test (pattern : Pattern α) (text : List α) : Bool := !(pattern.matchAll text).isEmpty

def replaceFrom (pattern : Pattern α) (by_ : List α) : Nat → Place α → List α
  | 0, place => place.left
  | n + 1, place =>
      let later := match place.left with
        | [] => []
        | u :: rest => u :: pattern.replaceFrom by_ n ⟨u :: place.read,rest⟩
      match pattern.matchAt place with
      | none => later
      | Option.some (found,next) =>
          if found.isEmpty then by_ ++ later else by_ ++ pattern.replaceFrom by_ n next

def replaceAll (pattern : Pattern α) (by_ text : List α) : List α :=
  pattern.replaceFrom by_ (text.length + 1) ⟨[],text⟩

/- A pattern reads on from a place and never back. -/
def ReadsOn (start next : Place α) : Prop := ∃ taken, start.left = taken ++ next.left

theorem readsOnThen {a b c : Place α} (first : ReadsOn a b) (later : ReadsOn b c) : ReadsOn a c := by
  obtain ⟨one,same⟩ := first
  obtain ⟨two,next⟩ := later
  exact ⟨one ++ two,by rw [same,next,List.append_assoc]⟩

theorem roundsReadOn {body : Place α → List (Place α)} (each : ∀ a, ∀ b ∈ body a, ReadsOn a b) (n : Nat)
    (place : Place α) : ∀ next ∈ rounds body n place, ReadsOn place next := by
  induction n generalizing place with
  | zero =>
    intro next member
    rw [List.mem_singleton.mp member]
    exact ⟨[],rfl⟩
  | succ n ih =>
    intro next member
    rcases List.mem_append.mp member with further | here
    · obtain ⟨between,round,rest⟩ := List.mem_flatMap.mp further
      exact readsOnThen (each place between (List.mem_filter.mp round).1) (ih between next rest)
    · rw [List.mem_singleton.mp here]
      exact ⟨[],rfl⟩

theorem endsReadOn (pattern : Pattern α) (place : Place α) : ∀ next ∈ pattern.ends place, ReadsOn place next := by
  induction pattern generalizing place with
  | empty =>
    intro next member
    rw [List.mem_singleton.mp member]
    exact ⟨[],rfl⟩
  | unit accepts =>
    intro next member
    obtain ⟨read,left⟩ := place
    cases left with
    | nil => exact absurd member List.not_mem_nil
    | cons u rest =>
      simp only [ends] at member
      split at member
      · rw [List.mem_singleton.mp member]
        exact ⟨[u],rfl⟩
      · exact absurd member List.not_mem_nil
  | seq first second one two =>
    intro next member
    obtain ⟨between,head,tail⟩ := List.mem_flatMap.mp member
    exact readsOnThen (one place between head) (two between next tail)
  | either first second one two =>
    intro next member
    rcases List.mem_append.mp member with left | right
    · exact one place next left
    · exact two place next right
  | many body ih => exact roundsReadOn ih _ place
  | edge word =>
    intro next member
    simp only [ends] at member
    split at member
    · rw [List.mem_singleton.mp member]
      exact ⟨[],rfl⟩
    · exact absurd member List.not_mem_nil
  | ahead body ih =>
    intro next member
    simp only [ends] at member
    split at member
    · exact absurd member List.not_mem_nil
    · rw [List.mem_singleton.mp member]
      exact ⟨[],rfl⟩
  | start =>
    intro next member
    simp only [ends] at member
    split at member
    · rw [List.mem_singleton.mp member]
      exact ⟨[],rfl⟩
    · exact absurd member List.not_mem_nil

/- A pattern that cannot match without one unit of a kind. -/
def Needs (kind : α → Bool) (pattern : Pattern α) : Prop :=
  ∀ place, (∀ u ∈ place.left, kind u = false) → pattern.ends place = []

variable {kind : α → Bool} {first second : Pattern α}

theorem needsUnit {accepts : α → Bool} (only : ∀ u, accepts u → kind u) : Needs kind (.unit accepts) := by
  intro place none_
  obtain ⟨read,left⟩ := place
  cases left with
  | nil => rfl
  | cons u rest =>
    have absent : kind u = false := none_ u List.mem_cons_self
    simp only [ends]
    rw [if_neg fun accepted => by simp [only u accepted] at absent]

theorem needsFirst (needs : Needs kind first) : Needs kind (.seq first second) := by
  intro place none_
  simp only [ends,needs place none_,List.flatMap_nil]

theorem needsSecond (needs : Needs kind second) : Needs kind (.seq first second) := by
  intro place none_
  refine List.flatMap_eq_nil_iff.mpr fun next member => needs next fun u inside => none_ u ?_
  obtain ⟨taken,same⟩ := endsReadOn first place next member
  exact same ▸ List.mem_append_right _ inside

theorem needsEither (one : Needs kind first) (two : Needs kind second) : Needs kind (.either first second) := by
  intro place none_
  simp only [ends,one place none_,two place none_,List.append_nil]

theorem searchNone (needs : Needs kind first) (n : Nat) (place : Place α)
    (none_ : ∀ u ∈ place.left, kind u = false) : first.searchFrom n place = [] := by
  induction n generalizing place with
  | zero => rfl
  | succ n ih =>
    unfold searchFrom matchAt
    rw [needs place none_]
    obtain ⟨read,left⟩ := place
    cases left with
    | nil => rfl
    | cons u rest => exact ih ⟨u :: read,rest⟩ fun v inside => none_ v (List.mem_cons_of_mem _ inside)

theorem matchNone (needs : Needs kind first) {text : List α} (none_ : ∀ u ∈ text, kind u = false) :
    first.matchAll text = [] :=
  searchNone needs _ ⟨[],text⟩ none_

/- As many units other than a delimiter as there are, then the delimiter. -/
section Delimited
variable [DecidableEq α] {delimiter : α}

def upToDelimiter (delimiter : α) : Pattern α :=
  .seq (.many (.unit (· != delimiter))) (.unit (· == delimiter))

theorem delimited (inner : List α) (apart : delimiter ∉ inner) (read after : List α) :
    (upToDelimiter delimiter).ends ⟨read,inner ++ delimiter :: after⟩ =
      [⟨delimiter :: (inner.reverse ++ read),after⟩] := by
  change (rounds (ends (.unit (· != delimiter))) (inner ++ delimiter :: after).length ⟨read,inner ++ delimiter :: after⟩).flatMap
    (ends (.unit (· == delimiter))) = _
  induction inner generalizing read with
  | nil =>
    have stops : (ends (.unit (· != delimiter)) ⟨read,delimiter :: after⟩) = [] := if_neg (by simp)
    simp only [List.nil_append,List.length_cons,rounds,stops,List.filter_nil,List.flatMap_nil,List.flatMap_cons,
      List.append_nil,List.reverse_nil]
    exact if_pos (beq_self_eq_true delimiter)
  | cons u rest ih =>
    obtain ⟨other,later⟩ := not_or.mp fun member => apart (List.mem_cons.mpr member)
    have differs : u ≠ delimiter := fun same => other same.symm
    have goes : (ends (.unit (· != delimiter)) ⟨read,u :: (rest ++ delimiter :: after)⟩) =
        [⟨u :: read,rest ++ delimiter :: after⟩] := if_pos (by simpa using differs)
    have last : (ends (.unit (· == delimiter)) ⟨read,u :: (rest ++ delimiter :: after)⟩) = [] :=
      if_neg (by simpa using differs)
    simp only [List.cons_append,List.length_cons,rounds,goes]
    rw [List.filter_cons_of_pos (by simp),List.filter_nil,List.flatMap_cons,List.flatMap_nil,List.append_nil,
      List.flatMap_append,ih later,List.flatMap_cons,last]
    simp

theorem undelimited (left : List α) (absent : delimiter ∉ left) (read : List α) :
    (upToDelimiter delimiter).ends ⟨read,left⟩ = [] := by
  refine @needsSecond _ (· == delimiter) _ _ (needsUnit fun _ => id) ⟨read,left⟩ fun u inside => ?_
  exact beq_false_of_ne fun same => absent (same ▸ inside)

end Delimited

end Pattern
end Northstar
