import Mathlib.Data.List.Perm.Basic
import Mathlib.Data.List.Nodup
import Mathlib.Data.List.Dedup

/-! Lists up to the order of their elements: a sort whose ties are equal forgets the order it
was given, and so do the distinct elements of a list, as far as they are counted. -/
namespace Northstar

variable {α β : Type}

/- An order given as a comparison that is fit for a sort. -/
structure SortOrder (le : α → α → Bool) : Prop where
  trans : ∀ a b c, le a b → le b c → le a c
  total : ∀ a b, le a b || le b a

theorem sortPermuted {le : α → α → Bool} (order : SortOrder le) {items others : List α} (perm : items.Perm others)
    (ties : ∀ a ∈ items, ∀ b ∈ items, le a b → le b a → a = b) : items.mergeSort le = others.mergeSort le := by
  refine @List.Perm.eq_of_pairwise α (fun a b => le a b = true) _ _ ?_ (List.pairwise_mergeSort order.trans order.total items)
    (List.pairwise_mergeSort order.trans order.total others) ?_
  · intro a b first second
    exact ties a (List.mem_mergeSort.mp first) b (perm.mem_iff.mpr (List.mem_mergeSort.mp second))
  · exact (List.mergeSort_perm items le).trans (perm.trans (List.mergeSort_perm others le).symm)

/- Two keys one after the other, the second where the first is the same. -/
theorem lexicographic {first : α → α → Bool} {second : α → α → Bool} (one : SortOrder first) (two : SortOrder second) :
    SortOrder fun a b => !first b a || (first a b && second a b) := by
  constructor
  · intro a b c ab bc
    simp only [Bool.or_eq_true,Bool.and_eq_true,Bool.not_eq_true'] at ab bc ⊢
    have forward (x y : α) (not_ : first y x = false) : first x y = true := by
      simpa [not_] using one.total x y
    rcases ab with ab | ⟨ab,ab'⟩ <;> rcases bc with bc | ⟨bc,bc'⟩
    · refine .inl (Bool.eq_false_iff.mpr fun ca => ?_)
      exact Bool.eq_false_iff.mp ab (one.trans _ _ _ (forward b c bc) ca)
    · refine .inl (Bool.eq_false_iff.mpr fun ca => ?_)
      exact Bool.eq_false_iff.mp ab (one.trans _ _ _ bc ca)
    · refine .inl (Bool.eq_false_iff.mpr fun ca => ?_)
      exact Bool.eq_false_iff.mp bc (one.trans _ _ _ ca ab)
    · exact .inr ⟨one.trans _ _ _ ab bc,two.trans _ _ _ ab' bc'⟩
  · intro a b
    have one := one.total a b
    have two := two.total a b
    cases h1 : first a b <;> cases h2 : first b a <;> simp_all

/- Lists of ordered elements, by the first place at which they differ. -/
section Lists
variable [DecidableEq α] [LT α] [DecidableLT α] [LE α] [Std.IsLinearOrder α] [Std.LawfulOrderLT α]

theorem listSort : SortOrder fun a b : List α => !decide (b < a) := by
  constructor
  · intro a b c ab bc
    simp only [Bool.not_eq_true',decide_eq_false_iff_not] at ab bc ⊢
    exact List.le_trans (show a ≤ b from ab) (show b ≤ c from bc)
  · intro a b
    simp only [Bool.or_eq_true,Bool.not_eq_true',decide_eq_false_iff_not]
    exact List.le_total a b

theorem listTie {a b : List α} (ab : ¬ b < a) (ba : ¬ a < b) : a = b :=
  List.le_antisymm (show a ≤ b from ab) (show b ≤ a from ba)

end Lists

theorem keptOnce [BEq α] [LawfulBEq α] (items : List α) : items.eraseDups ≠ [] ↔ items ≠ [] := by
  cases items with
  | nil => simp
  | cons first rest => simp [List.eraseDups_cons]

theorem distinctOnce [BEq α] [LawfulBEq α] : ∀ items : List α, items.eraseDups.Nodup
  | [] => List.nodup_nil
  | first :: rest => by
    have later := distinctOnce (rest.filter fun item => !item == first)
    rw [List.eraseDups_cons,List.nodup_cons]
    exact ⟨by simp [List.mem_eraseDups],later⟩
termination_by items => items.length
decreasing_by exact Nat.lt_succ_of_le (List.length_filter_le ..)

theorem foundByKey [DecidableEq β] {items : List α} {key : α → β}
    (distinct : (items.map key).Nodup) {item : α} (member : item ∈ items) :
    items.find? (fun other => key other = key item) = some item := by
  have some_ : (items.find? fun other => key other = key item).isSome :=
    List.find?_isSome.mpr ⟨item,member,by simp⟩
  obtain ⟨other,found⟩ := Option.isSome_iff_exists.mp some_
  have alike : key other = key item := by simpa using List.find?_some found
  rw [found,List.inj_on_of_nodup_map distinct (List.mem_of_find?_eq_some found) member alike]

theorem sameDistinct [BEq α] [LawfulBEq α] {items others : List α} (perm : items.Perm others) :
    items.eraseDups.Perm others.eraseDups := by
  refine (List.perm_ext_iff_of_nodup (distinctOnce items) (distinctOnce others)).mpr fun a => ?_
  rw [List.mem_eraseDups,List.mem_eraseDups,perm.mem_iff]

end Northstar
