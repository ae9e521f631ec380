import Mathlib

/-! A tree of directories read with a stack of those still to read: what is read of one is acted on as it comes,
and the directories met are put on the stack. -/
namespace Northstar.Visiting

/- What a directory lists, in the order it is listed. -/
inductive Listing (Name Leaf : Type) where
  | done
  | leaf (name : Name) (value : Leaf) (rest : Listing Name Leaf)
  | dir (name : Name) (inner : Listing Name Leaf) (rest : Listing Name Leaf)

variable {Name Leaf Path S E : Type}

def Listing.dirs : Listing Name Leaf → Nat
  | .done => 0
  | .leaf _ _ rest => rest.dirs
  | .dir _ inner rest => inner.dirs + 1 + rest.dirs

section Walk
variable (under : Path → Name → Path) (skipped : Path → Bool) (act : S → Path × Leaf → Except E S)

/- The entries of one directory: a leaf is acted on, a directory is stacked. -/
def readEntries (path : Path) : Listing Name Leaf → List (Path × Listing Name Leaf) → S →
    Except E (List (Path × Listing Name Leaf) × S)
  | .done, stack, s => .ok (stack,s)
  | .leaf name value rest, stack, s =>
      if skipped (under path name) then readEntries path rest stack s
      else do
        let s ← act s (under path name,value)
        readEntries path rest stack s
  | .dir name inner rest, stack, s =>
      if skipped (under path name) then readEntries path rest stack s
      else readEntries path rest ((under path name,inner) :: stack) s

def walkStack : Nat → List (Path × Listing Name Leaf) → S → Except E S
  | 0, _, s => .ok s
  | _ + 1, [], s => .ok s
  | fuel + 1, (path,listing) :: stack, s => do
      let (stack,s) ← readEntries under skipped act path listing stack s
      walkStack fuel stack s

/- One turn for every directory there is. -/
def walk (path : Path) (listing : Listing Name Leaf) (s : S) : Except E S :=
  walkStack under skipped act (listing.dirs + 1) [(path,listing)] s

/- Every leaf below a directory that is not skipped, nor anything above it. -/
def leaves (path : Path) : Listing Name Leaf → List (Path × Leaf)
  | .done => []
  | .leaf name value rest =>
      if skipped (under path name) then leaves path rest else (under path name,value) :: leaves path rest
  | .dir name inner rest =>
      if skipped (under path name) then leaves path rest else leaves (under path name) inner ++ leaves path rest

def own (path : Path) : Listing Name Leaf → List (Path × Leaf)
  | .done => []
  | .leaf name value rest => if skipped (under path name) then own path rest else (under path name,value) :: own path rest
  | .dir _ _ rest => own path rest

def met (path : Path) : Listing Name Leaf → List (Path × Listing Name Leaf)
  | .done => []
  | .leaf _ _ rest => met path rest
  | .dir name inner rest => if skipped (under path name) then met path rest else (under path name,inner) :: met path rest

/- The leaves in the order in which the stack has them acted on. -/
def visit : Nat → List (Path × Listing Name Leaf) → List (Path × Leaf)
  | 0, _ => []
  | _ + 1, [] => []
  | fuel + 1, (path,listing) :: stack =>
      own under skipped path listing ++ visit fuel ((met under skipped path listing).reverse ++ stack)

variable {under skipped act}

theorem readOwn (path : Path) (listing : Listing Name Leaf) (stack : List (Path × Listing Name Leaf)) (s : S) :
    readEntries under skipped act path listing stack s =
      ((own under skipped path listing).foldlM act s).map fun s => ((met under skipped path listing).reverse ++ stack,s) := by
  induction listing generalizing stack s with
  | done => rfl
  | leaf name value rest ih =>
    rw [readEntries,own,met]
    split
    · exact ih stack s
    · rw [List.foldlM_cons]
      cases act s (under path name,value) with
      | error e => rfl
      | ok s => exact ih stack s
  | dir name inner rest _ ih =>
    rw [readEntries,own,met]
    split
    · exact ih stack s
    · rw [ih,List.reverse_cons,List.append_assoc,List.singleton_append]

theorem walkVisits (fuel : Nat) (stack : List (Path × Listing Name Leaf)) (s : S) :
    walkStack under skipped act fuel stack s = (visit under skipped fuel stack).foldlM act s := by
  induction fuel generalizing stack s with
  | zero => rfl
  | succ fuel ih => cases stack with
    | nil => rfl
    | cons first stack =>
      obtain ⟨path,listing⟩ := first
      rw [walkStack,visit,readOwn,List.foldlM_append]
      cases (own under skipped path listing).foldlM act s with
      | error e => rfl
      | ok s => exact ih _ s

def pending (stack : List (Path × Listing Name Leaf)) : Nat := (stack.map fun one => one.2.dirs + 1).sum

theorem pendingMet (path : Path) (listing : Listing Name Leaf) : pending (met under skipped path listing) ≤ listing.dirs := by
  induction listing with
  | done => exact Nat.le_refl 0
  | leaf name value rest ih => exact ih
  | dir name inner rest _ ih =>
    rw [met]
    split
    · exact Nat.le_trans ih (Nat.le_add_left ..)
    · simp only [pending,List.map_cons,List.sum_cons,Listing.dirs] at ih ⊢
      omega

theorem ownMet (path : Path) (listing : Listing Name Leaf) : (leaves under skipped path listing).Perm
    (own under skipped path listing ++ (met under skipped path listing).flatMap fun one => leaves under skipped one.1 one.2) := by
  induction listing with
  | done => exact .refl _
  | leaf name value rest ih =>
    rw [leaves,own,met]
    split
    · exact ih
    · exact ih.cons _
  | dir name inner rest _ ih =>
    rw [leaves,own,met]
    split
    · exact ih
    · rw [List.flatMap_cons]
      exact (ih.append_left _).trans (List.perm_append_comm_assoc ..)

theorem pendingNext {fuel : Nat} {path : Path} {listing : Listing Name Leaf} {stack : List (Path × Listing Name Leaf)}
    (enough : pending ((path,listing) :: stack) ≤ fuel + 1) :
    pending ((met under skipped path listing).reverse ++ stack) ≤ fuel := by
  have fewer : pending (met under skipped path listing) ≤ listing.dirs := pendingMet path listing
  simp only [pending,List.map_cons,List.sum_cons,List.map_append,List.sum_append,List.map_reverse,List.sum_reverse] at enough fewer ⊢
  omega

/- More turns than are pending change nothing: the walk ends as it does without a bound. -/
theorem walkSettled (fuel more : Nat) (stack : List (Path × Listing Name Leaf)) (enough : pending stack ≤ fuel) (s : S) :
    walkStack under skipped act (fuel + more) stack s = walkStack under skipped act fuel stack s := by
  induction fuel generalizing stack s with
  | zero => cases stack with
    | nil => cases more <;> rfl
    | cons first stack => simp [pending] at enough
  | succ fuel ih => cases stack with
    | nil => rw [Nat.add_right_comm]; rfl
    | cons first stack =>
      obtain ⟨path,listing⟩ := first
      rw [Nat.add_right_comm,walkStack,walkStack,readOwn]
      cases (own under skipped path listing).foldlM act s with
      | error e => rfl
      | ok s => exact ih _ (pendingNext enough) s

/- Enough turns: the stack empties, and every leaf is acted on once. -/
theorem visitAll (fuel : Nat) (stack : List (Path × Listing Name Leaf)) (enough : pending stack ≤ fuel) :
    (visit under skipped fuel stack).Perm (stack.flatMap fun one => leaves under skipped one.1 one.2) := by
  induction fuel generalizing stack with
  | zero => cases stack with
    | nil => exact .refl _
    | cons first stack => simp [pending] at enough
  | succ fuel ih => cases stack with
    | nil => exact .refl _
    | cons first stack =>
      obtain ⟨path,listing⟩ := first
      have later := ih ((met under skipped path listing).reverse ++ stack) (pendingNext enough)
      rw [visit,List.flatMap_cons]
      have turned : ((met under skipped path listing).reverse ++ stack).flatMap (fun one => leaves under skipped one.1 one.2) |>.Perm
          ((met under skipped path listing).flatMap (fun one => leaves under skipped one.1 one.2) ++
            stack.flatMap fun one => leaves under skipped one.1 one.2) := by
        rw [List.flatMap_append]
        exact ((List.reverse_perm _).flatMap_right _).append_right _
      refine ((later.trans turned).append_left _).trans ?_
      rw [← List.append_assoc]
      exact (ownMet path listing).symm.append_right _

/- A walk acts on every leaf once, in an order of its own. -/
theorem walkOnce (path : Path) (listing : Listing Name Leaf) : ∃ order : List (Path × Leaf), order.Perm (leaves under skipped path listing) ∧
    ∀ s : S, walk under skipped act path listing s = order.foldlM act s := by
  refine ⟨visit under skipped (listing.dirs + 1) [(path,listing)],?_,fun s => walkVisits ..⟩
  have all : (visit under skipped (listing.dirs + 1) [(path,listing)]).Perm _ := visitAll _ _ (by simp [pending])
  simpa using all

end Walk

end Northstar.Visiting
