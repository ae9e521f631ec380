import Mathlib

/-! Fields joined by a separator that they may hold themselves: what the joined text tells of them. -/
namespace Northstar.Separated
variable {α : Type} {c : α}

theorem firstSeparator {a a' : List α} (first : c ∉ a) (second : c ∉ a') {b b' : List α} (same : a ++ c :: b = a' ++ c :: b') :
    a = a' ∧ b = b' := by
  induction a generalizing a' with
  | nil => cases a' with
    | nil => exact ⟨rfl,(List.cons.inj same).2⟩
    | cons d rest => exact absurd ((List.cons.inj same).1 ▸ List.mem_cons_self) second
  | cons d rest ih => cases a' with
    | nil => exact absurd ((List.cons.inj same).1 ▸ List.mem_cons_self) first
    | cons d' rest' =>
      obtain ⟨rfl,later⟩ := List.cons.inj same
      obtain ⟨rfl,after⟩ := ih (fun member => first (List.mem_cons_of_mem _ member)) (fun member => second (List.mem_cons_of_mem _ member)) later
      exact ⟨rfl,after⟩

/- The last separator splits a row whose end holds none. -/
theorem lastSeparator {a b a' b' : List α} (first : c ∉ b) (second : c ∉ b') (same : a ++ c :: b = a' ++ c :: b') :
    a = a' ∧ b = b' := by
  have turned : b.reverse ++ c :: a.reverse = b'.reverse ++ c :: a'.reverse := by
    simpa using congrArg List.reverse same
  obtain ⟨ends,starts⟩ := firstSeparator (by simpa using first) (by simpa using second) turned
  exact ⟨List.reverse_inj.mp starts,List.reverse_inj.mp ends⟩

/- Two rows read the same where they are split alike, or one is split at a later separator of the other. -/
theorem laterSeparator {a b a' b' : List α} : a ++ c :: b = a' ++ c :: b' ↔ (a = a' ∧ b = b') ∨
    (∃ m, a' = a ++ c :: m ∧ b = m ++ c :: b') ∨ ∃ m, a = a' ++ c :: m ∧ b' = m ++ c :: b := by
  rw [List.append_eq_append_iff]
  constructor
  · rintro (⟨m,more,rest⟩ | ⟨m,more,rest⟩)
    · cases m with
      | nil => exact .inl ⟨by simpa using more.symm,(List.cons.inj rest).2⟩
      | cons d m =>
        obtain ⟨rfl,after⟩ := List.cons.inj rest
        exact .inr (.inl ⟨m,more,after⟩)
    · cases m with
      | nil => exact .inl ⟨by simpa using more,(List.cons.inj rest).2.symm⟩
      | cons d m =>
        obtain ⟨rfl,after⟩ := List.cons.inj rest
        exact .inr (.inr ⟨m,more,after⟩)
  · rintro (⟨rfl,rfl⟩ | ⟨m,more,rest⟩ | ⟨m,more,rest⟩)
    · exact .inl ⟨[],(List.append_nil _).symm,rfl⟩
    · exact .inl ⟨c :: m,more,congrArg (c :: ·) rest⟩
    · exact .inr ⟨c :: m,more,congrArg (c :: ·) rest⟩

/- Fields left out of a joined row make it shorter. -/
theorem joinedSize (separator : List α) {fields : List (List α)} (some_ : fields ≠ []) :
    (separator.intercalate fields).length + separator.length = (fields.map fun f => f.length + separator.length).sum := by
  induction fields with
  | nil => exact absurd rfl some_
  | cons field rest ih => cases rest with
    | nil => simp
    | cons next more =>
      have later := ih (List.cons_ne_nil _ _)
      rw [List.intercalate_cons_cons,List.map_cons,List.sum_cons,← later]
      simp only [List.length_append]
      omega

theorem sublistSum {β : Type} {f : β → Nat} (positive : ∀ x, 0 < f x) {few many : List β} (within : few.Sublist many)
    (same : (few.map f).sum = (many.map f).sum) : few = many := by
  have less {a b : List β} (kept : a.Sublist b) : (a.map f).sum ≤ (b.map f).sum := by
    induction kept with
    | slnil => exact Nat.le_refl _
    | cons x kept ih => simp only [List.map_cons,List.sum_cons]; omega
    | cons_cons x kept ih => simp only [List.map_cons,List.sum_cons]; omega
  induction within with
  | slnil => rfl
  | cons x kept ih =>
    have smaller := less kept
    have more := positive x
    rw [List.map_cons,List.sum_cons] at same
    omega
  | cons_cons x kept ih =>
    rw [List.map_cons,List.map_cons,List.sum_cons,List.sum_cons] at same
    rw [ih (by omega)]

variable [DecidableEq α]

/- The parts between separators, over all fields in their order. -/
def pieces (c : α) (fields : List (List α)) : List (List α) := fields.flatMap (List.splitOn c)

theorem splitJoined (c : α) {fields : List (List α)} (some_ : fields ≠ []) :
    ([c].intercalate fields).splitOn c = pieces c fields := by
  induction fields with
  | nil => exact absurd rfl some_
  | cons field rest ih => cases rest with
    | nil => simp [pieces]
    | cons next more =>
      rw [List.intercalate_cons_cons,List.append_assoc,List.singleton_append,List.splitOn_append_cons_self,ih (List.cons_ne_nil _ _)]
      rfl

/- Fields are joined to one text just when they hold the same pieces. -/
theorem joinedSame {a b : List (List α)} (first : a ≠ []) (second : b ≠ []) :
    [c].intercalate a = [c].intercalate b ↔ pieces c a = pieces c b := by
  constructor
  · intro same
    rw [← splitJoined c first,← splitJoined c second,same]
  · intro same
    have back (text : List α) : [c].intercalate (text.splitOn c) = text := List.intercalate_splitOn c
    rw [← back ([c].intercalate a),← back ([c].intercalate b),splitJoined c first,splitJoined c second,same]

theorem piecesPlain {fields : List (List α)} (plain : ∀ field ∈ fields, c ∉ field) : pieces c fields = fields := by
  induction fields with
  | nil => rfl
  | cons field rest ih =>
    have later := ih fun f member => plain f (List.mem_cons_of_mem _ member)
    change field.splitOn c ++ pieces c rest = field :: rest
    rw [List.splitOn_eq_singleton (plain field List.mem_cons_self),later]
    rfl

theorem splitSingle {field : List α} (one : (field.splitOn c).length = 1) : c ∉ field := by
  intro member
  obtain ⟨before,after,rfl⟩ := List.append_of_mem member
  rw [List.splitOn_append_cons_self,List.length_append] at one
  have first := List.length_pos_iff.mpr (List.splitOn_ne_nil c before)
  have second := List.length_pos_iff.mpr (List.splitOn_ne_nil c after)
  omega

theorem piecesLength (c : α) (fields : List (List α)) : fields.length ≤ (pieces c fields).length := by
  induction fields with
  | nil => exact Nat.le_refl 0
  | cons field rest ih =>
    have first := List.length_pos_iff.mpr (List.splitOn_ne_nil c field)
    change rest.length + 1 ≤ (field.splitOn c ++ pieces c rest).length
    rw [List.length_append]
    omega

/- As many pieces as fields: no field holds a separator. -/
theorem piecesFew {fields : List (List α)} (few : (pieces c fields).length = fields.length) : ∀ field ∈ fields, c ∉ field := by
  induction fields with
  | nil => exact fun _ member => absurd member List.not_mem_nil
  | cons field rest ih =>
    have first := List.length_pos_iff.mpr (List.splitOn_ne_nil c field)
    have later := piecesLength c rest
    change (field.splitOn c ++ pieces c rest).length = rest.length + 1 at few
    rw [List.length_append] at few
    intro f member
    rcases List.mem_cons.mp member with rfl | after
    · exact splitSingle (by omega)
    · exact ih (by omega) f after

/- Plain fields are told apart from every other row of as many fields. -/
theorem plainApart {a b : List (List α)} (plain : ∀ field ∈ a, c ∉ field) (size : a.length = b.length)
    (same : pieces c a = pieces c b) : a = b := by
  rw [piecesPlain plain] at same
  rw [same,piecesPlain (piecesFew (same ▸ size))]

section
variable {d : α}

/- The two signs of a separator, found from the left. -/
def splitPair (c d : α) : List α → List (List α)
  | [] => [[]]
  | [x] => [[x]]
  | x :: y :: rest =>
      if x = c ∧ y = d then [] :: splitPair c d rest
      else match splitPair c d (y :: rest) with
        | [] => [[x]]
        | first :: others => (x :: first) :: others

theorem splitPairPast {field rest : List α} (apart : c ≠ d) (plain : ¬ [c,d] <:+: field) :
    splitPair c d (field ++ c :: d :: rest) = field :: splitPair c d rest := by
  induction field with
  | nil => simp [splitPair]
  | cons x field ih => cases field with
    | nil =>
      have other : ¬ (x = c ∧ c = d) := fun both => apart both.2
      simp [splitPair,other]
    | cons y field =>
      have later := ih fun within => plain (within.trans (List.suffix_cons x (y :: field)).isInfix)
      have other : ¬ (x = c ∧ y = d) := fun both => plain ⟨[],field,by simp [both]⟩
      rw [List.cons_append] at later
      simp [splitPair,later,other]

theorem splitPairPlain {field : List α} (plain : ¬ [c,d] <:+: field) : splitPair c d field = [field] := by
  induction field with
  | nil => rfl
  | cons x field ih =>
    have later := ih fun within => plain (within.trans (List.suffix_cons x field).isInfix)
    cases field with
    | nil => rfl
    | cons y field =>
      have other : ¬ (x = c ∧ y = d) := fun both => plain ⟨[],field,by simp [both]⟩
      simp [splitPair,later,other]

theorem splitPairJoined {fields : List (List α)} (apart : c ≠ d) (some_ : fields ≠ [])
    (plain : ∀ field ∈ fields, ¬ [c,d] <:+: field) : splitPair c d ([c,d].intercalate fields) = fields := by
  induction fields with
  | nil => exact absurd rfl some_
  | cons field rest ih => cases rest with
    | nil => simpa using splitPairPlain (plain field List.mem_cons_self)
    | cons next more =>
      have later := ih (List.cons_ne_nil _ _) fun f member => plain f (List.mem_cons_of_mem _ member)
      rw [List.intercalate_cons_cons,List.append_assoc]
      change splitPair c d (field ++ c :: d :: [c,d].intercalate (next :: more)) = _
      rw [splitPairPast apart (plain field List.mem_cons_self),later]

theorem splitPairSome (text : List α) : splitPair c d text ≠ [] := by
  unfold splitPair
  split
  · exact List.cons_ne_nil _ _
  · exact List.cons_ne_nil _ _
  · split
    · exact List.cons_ne_nil _ _
    · split <;> exact List.cons_ne_nil _ _

theorem joinSplitPair (text : List α) : [c,d].intercalate (splitPair c d text) = text := by
  induction text using splitPair.induct c d with
  | case1 => rfl
  | case2 x => simp [splitPair]
  | case3 x y rest both ih =>
    obtain ⟨first,others,split_⟩ := List.exists_cons_of_ne_nil (splitPairSome (c := c) (d := d) rest)
    rw [splitPair,if_pos both,split_,List.intercalate_cons_cons,← split_,ih]
    simp [both]
  | case4 x y rest other none_ ih =>
    rw [none_] at ih
    exact absurd ih (by simp)
  | case5 x y rest other first others split_ ih =>
    rw [splitPair,if_neg other,split_]
    rw [split_] at ih
    cases others with
    | nil => simpa using congrArg (x :: ·) ih
    | cons next more =>
      rw [List.intercalate_cons_cons] at ih ⊢
      simpa using congrArg (x :: ·) ih

end

end Northstar.Separated
