import Mathlib.Data.List.Basic

/-! A text read from left to right by a recogniser that sees what stands before a place and what
stands from it: what it recognises is left out, everything else is kept. -/
namespace Northstar.Rewriting

inductive Piece (α : Type) where
  | kept (u : α)
  | omitted (segment : List α)
  deriving DecidableEq

variable {α : Type}

/- The text before a place is given backwards; a recogniser says how long the segment is. -/
abbrev Recogniser (α : Type) := List α → List α → Option Nat

def Piece.source : Piece α → List α
  | .kept u => [u]
  | .omitted segment => segment

def keptText (parts : List (Piece α)) : List α := parts.filterMap fun
  | .kept u => some u
  | .omitted _ => none

def omittedTexts (parts : List (Piece α)) : List (List α) := parts.filterMap fun
  | .kept _ => none
  | .omitted segment => some segment

/- The first argument counts what is left of the last segment. -/
def readParts (recognise : Recogniser α) : Nat → List α → List α → List (Piece α)
  | _,_,[] => []
  | skip+1,before,u :: rest => readParts recognise skip (u :: before) rest
  | 0,before,u :: rest => match recognise before (u :: rest) with
    | none => .kept u :: readParts recognise 0 (u :: before) rest
    | some n => .omitted ((u :: rest).take n) :: readParts recognise (n - 1) (u :: before) rest

/- A run of the reader, segment by segment. -/
inductive Reading (recognise : Recogniser α) : List α → List α → List (Piece α) → Prop
  | done {before} : Reading recognise before [] []
  | keep {before u rest parts} (free : recognise before (u :: rest) = none)
      (tail : Reading recognise (u :: before) rest parts) : Reading recognise before (u :: rest) (.kept u :: parts)
  | leave {before segment rest parts} (some_ : segment ≠ []) (found : recognise before (segment ++ rest) = some segment.length)
      (tail : Reading recognise (segment.reverse ++ before) rest parts) :
      Reading recognise before (segment ++ rest) (.omitted segment :: parts)

/- What is recognised is there. -/
def Within (recognise : Recogniser α) : Prop := ∀ before rest n, recognise before rest = some n → 0 < n ∧ n ≤ rest.length

variable {recognise : Recogniser α}

theorem readSkip (n : Nat) (before rest : List α) :
    readParts recognise n before rest = readParts recognise 0 ((rest.take n).reverse ++ before) (rest.drop n) := by
  induction n generalizing before rest with
  | zero => rfl
  | succ n ih =>
    cases rest with
    | nil => rfl
    | cons u rest =>
      rw [readParts,ih,List.take_succ_cons,List.reverse_cons,List.append_assoc]
      rfl

theorem readTaken (within : Within recognise) {before rest : List α} {parts : List (Piece α)} {n : Nat}
    (found : recognise before rest = some n) (tail : Reading recognise ((rest.take n).reverse ++ before) (rest.drop n) parts) :
    Reading recognise before rest (.omitted (rest.take n) :: parts) := by
  obtain ⟨positive,bound⟩ := within _ _ _ found
  have whole := List.take_append_drop n rest
  have size : (rest.take n).length = n := by rw [List.length_take,Nat.min_eq_left bound]
  have step : Reading recognise before (rest.take n ++ rest.drop n) (.omitted (rest.take n) :: parts) := by
    refine .leave (fun empty => ?_) ?_ tail
    · rw [empty] at size
      exact absurd size (Nat.ne_of_lt positive)
    · rw [whole,size,found]
  rwa [whole] at step

theorem readReading (within : Within recognise) (before rest : List α) :
    Reading recognise before rest (readParts recognise 0 before rest) := by
  induction size : rest.length using Nat.strongRecOn generalizing before rest with
  | ind size ih =>
    cases rest with
    | nil => exact .done
    | cons u rest =>
      rw [readParts]
      cases found : recognise before (u :: rest) with
      | none => exact .keep found (ih rest.length (size ▸ Nat.lt_succ_self _) _ _ rfl)
      | some n =>
        obtain ⟨positive,bound⟩ := within _ _ _ found
        obtain ⟨m,rfl⟩ := Nat.exists_eq_succ_of_ne_zero (Nat.ne_of_gt positive)
        refine readTaken within found ?_
        have tail : readParts recognise m (u :: before) rest =
            readParts recognise 0 (((u :: rest).take (m + 1)).reverse ++ before) ((u :: rest).drop (m + 1)) :=
          readSkip (m + 1) before (u :: rest)
        rw [Nat.succ_sub_one,tail]
        refine ih _ ?_ _ _ rfl
        rw [← size,List.length_drop,List.length_cons]
        omega

theorem readingParts {before rest : List α} {parts : List (Piece α)} (reading : Reading recognise before rest parts) :
    readParts recognise 0 before rest = parts := by
  induction reading with
  | done => rfl
  | keep free _ ih => rw [readParts,free,ih]
  | @leave before segment rest parts some_ found _ ih =>
    obtain ⟨u,more,rfl⟩ := List.exists_cons_of_ne_nil some_
    rw [List.cons_append] at found ⊢
    rw [readParts,found]
    simp only [List.length_cons,Nat.add_sub_cancel]
    rw [readSkip,← List.cons_append,← List.length_cons (a := u),List.take_left,List.take_left,List.drop_left,← ih,List.reverse_cons,
      List.append_assoc]
    rfl

theorem readSource {before rest : List α} {parts : List (Piece α)} (reading : Reading recognise before rest parts) :
    parts.flatMap Piece.source = rest := by
  induction reading with
  | done => rfl
  | keep _ _ ih => rw [List.flatMap_cons,ih]; rfl
  | leave _ _ _ ih => rw [List.flatMap_cons,ih]; rfl

/- Units that the recogniser passes over are kept. -/
theorem readOver (over_ : List α) {before rest : List α} {parts : List (Piece α)}
    (free : ∀ near u far, over_ = near ++ u :: far → recognise (near.reverse ++ before) (u :: far ++ rest) = none)
    (tail : Reading recognise (over_.reverse ++ before) rest parts) :
    Reading recognise before (over_ ++ rest) (over_.map .kept ++ parts) := by
  induction over_ generalizing before with
  | nil => exact tail
  | cons u far ih =>
    refine .keep (free [] u far rfl) (ih (fun near v more same => ?_) ?_)
    · have here := free (u :: near) v more (by rw [same]; rfl)
      rwa [List.reverse_cons,List.append_assoc] at here
    · rwa [List.reverse_cons,List.append_assoc] at tail

/- Nothing is recognised anywhere. -/
def Clear (recognise : Recogniser α) (before rest : List α) : Prop :=
  ∀ pre post, rest = pre ++ post → recognise (pre.reverse ++ before) post = none

theorem clearStep {before rest : List α} {u : α} :
    Clear recognise before (u :: rest) ↔ recognise before (u :: rest) = none ∧ Clear recognise (u :: before) rest := by
  constructor
  · intro clear
    refine ⟨clear [] _ rfl,fun pre post same => ?_⟩
    have here := clear (u :: pre) post (by rw [same]; rfl)
    rwa [List.reverse_cons,List.append_assoc] at here
  · rintro ⟨first,others⟩ pre post same
    cases pre with
    | nil =>
      obtain rfl : u :: rest = post := same
      exact first
    | cons v pre =>
      obtain ⟨rfl,tail⟩ := List.cons.inj same
      rw [List.reverse_cons,List.append_assoc]
      exact others pre post tail

theorem clearReading {before rest : List α} {parts : List (Piece α)} (reading : Reading recognise before rest parts)
    (within : Within recognise) : Clear recognise before rest ↔ omittedTexts parts = [] := by
  induction reading with
  | done =>
    refine ⟨fun _ => rfl,fun _ pre post same => ?_⟩
    obtain ⟨rfl,rfl⟩ := List.append_eq_nil_iff.mp same.symm
    cases found : recognise _ [] with
    | none => rfl
    | some n =>
      obtain ⟨positive,bound⟩ := within _ _ _ found
      exact absurd (Nat.lt_of_lt_of_le positive bound) (Nat.lt_irrefl 0)
  | @keep before u rest parts free _ ih =>
    rw [clearStep,ih]
    exact and_iff_right free
  | leave some_ found _ _ =>
    refine ⟨fun clear => ?_,fun none_ => absurd none_ (List.cons_ne_nil _ _)⟩
    cases found.symm.trans (clear [] _ rfl)

/- A text with segments of a kind replaced by markers, in order. -/
inductive Spliced (cut : List α → Prop) : List α → List α → List (List α) → Prop
  | done : Spliced cut [] [] []
  | keep {text out markers} (u : α) (tail : Spliced cut text out markers) : Spliced cut (u :: text) (u :: out) markers
  | replace {text out markers segment} (marker : List α) (kind : cut segment) (tail : Spliced cut text out markers) :
      Spliced cut (segment ++ text) (marker ++ out) (marker :: markers)

/- The parts with the n-th segment marked as the n-th. -/
def rendered (mark : Nat → List α → List α) : Nat → List (Piece α) → List α
  | _,[] => []
  | n,.kept u :: parts => u :: rendered mark n parts
  | n,.omitted segment :: parts => mark n segment ++ rendered mark (n + 1) parts

/- Something for each segment, from its number and its text. -/
def numbered {β : Type} (give : Nat → List α → β) : Nat → List (Piece α) → List β
  | _,[] => []
  | n,.kept _ :: parts => numbered give n parts
  | n,.omitted segment :: parts => give n segment :: numbered give (n + 1) parts

theorem renderedKept {mark : Nat → List α → List α} {n : Nat} (units : List α) (parts : List (Piece α)) :
    rendered mark n (units.map .kept ++ parts) = units ++ rendered mark n parts := by
  induction units with
  | nil => rfl
  | cons u units ih => exact congrArg (u :: ·) ih

theorem numberedKept {β : Type} {give : Nat → List α → β} {n : Nat} (units : List α) (parts : List (Piece α)) :
    numbered give n (units.map .kept ++ parts) = numbered give n parts := by
  induction units with
  | nil => rfl
  | cons u units ih => exact ih

theorem numberedMap {β γ : Type} (give : Nat → List α → β) (f : β → γ) (n : Nat) (parts : List (Piece α)) :
    (numbered give n parts).map f = numbered (fun k segment => f (give k segment)) n parts := by
  induction parts generalizing n with
  | nil => rfl
  | cons part parts ih =>
    cases part with
    | kept u => exact ih n
    | omitted segment => exact congrArg (f (give n segment) :: ·) (ih (n + 1))

theorem numberedOrder (n : Nat) (parts : List (Piece α)) :
    numbered (fun k _ => k) n parts = List.range' n (omittedTexts parts).length := by
  induction parts generalizing n with
  | nil => rfl
  | cons part parts ih =>
    cases part with
    | kept u => exact ih n
    | omitted segment => exact congrArg (n :: ·) (ih (n + 1))

theorem numberedNone {β : Type} {give : Nat → List α → β} {n : Nat} {parts : List (Piece α)} :
    numbered give n parts = [] ↔ omittedTexts parts = [] := by
  induction parts with
  | nil => exact iff_of_true rfl rfl
  | cons part parts ih =>
    cases part with
    | kept u => exact ih
    | omitted segment => exact iff_of_false (List.cons_ne_nil _ _) (List.cons_ne_nil _ _)

theorem renderedNone {mark : Nat → List α → List α} {n : Nat} {parts : List (Piece α)} (none_ : omittedTexts parts = []) :
    rendered mark n parts = parts.flatMap Piece.source := by
  induction parts with
  | nil => rfl
  | cons part parts ih =>
    cases part with
    | kept u => exact congrArg (u :: ·) (ih none_)
    | omitted segment => exact absurd none_ (List.cons_ne_nil _ _)

theorem readSpliced {cut : List α → Prop} {mark : Nat → List α → List α} {before rest : List α} {parts : List (Piece α)}
    (reading : Reading recognise before rest parts)
    (kind : ∀ before segment rest, recognise before (segment ++ rest) = some segment.length → cut segment) (n : Nat) :
    Spliced cut rest (rendered mark n parts) (numbered mark n parts) := by
  induction reading generalizing n with
  | done => exact .done
  | keep _ _ ih => exact .keep _ (ih n)
  | leave _ found _ ih => exact .replace _ (kind _ _ _ found) (ih (n + 1))

end Northstar.Rewriting
