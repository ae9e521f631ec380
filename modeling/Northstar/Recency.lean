import Mathlib.Data.List.Nodup

/-! Lists in order of use, looked up by key: renewing an item moves it to the end, and the
items at the front are the ones let go of when the list gets too long. -/
namespace Northstar.Recency

variable {α κ : Type} [BEq κ] (key : α → κ)

def lookup (items : List α) (k : κ) : Option α := items.find? fun x => key x == k

def renew (items : List α) (x : α) : List α := (items.filter fun y => key y != key x) ++ [x]

theorem keysWithout (key : α → κ) (items : List α) (k : κ) :
    (items.filter fun x => key x != k).map key = (items.map key).filter (· != k) := by
  rw [List.filter_map]
  rfl

variable [LawfulBEq κ] {key} {items : List α}

theorem lookupMember {k : κ} {x : α} (found : lookup key items k = some x) : x ∈ items ∧ key x = k :=
  ⟨List.mem_of_find?_eq_some found,by simpa using List.find?_some found⟩

theorem lookupUnique (distinct : (items.map key).Nodup) {x : α} (member : x ∈ items) :
    lookup key items (key x) = some x := by
  cases found : lookup key items (key x) with
  | none =>
    have absent := List.find?_eq_none.mp found x member
    exact absurd (beq_self_eq_true (key x)) absent
  | some y =>
    obtain ⟨there,same⟩ := lookupMember found
    rw [List.inj_on_of_nodup_map distinct there member same]

theorem lookupFilter (distinct : (items.map key).Nodup) (keep : α → Bool) (k : κ) :
    lookup key (items.filter keep) k = (lookup key items k).filter keep := by
  have kept : ((items.filter keep).map key).Nodup := distinct.sublist (List.filter_sublist.map key)
  cases found : lookup key items k with
  | none =>
    refine List.find?_eq_none.mpr fun x member => ?_
    exact List.find?_eq_none.mp found x (List.mem_filter.mp member).1
  | some x =>
    obtain ⟨there,rfl⟩ := lookupMember found
    rw [Option.filter_some]
    split
    · rename_i held
      exact lookupUnique kept (List.mem_filter.mpr ⟨there,held⟩)
    · rename_i lost
      refine List.find?_eq_none.mpr fun y member same => ?_
      obtain ⟨other,held⟩ := List.mem_filter.mp member
      have one := List.inj_on_of_nodup_map distinct other there (beq_iff_eq.mp same)
      exact lost (one ▸ held)

theorem lookupRenew (items : List α) (x : α) (k : κ) :
    lookup key (renew key items x) k = if key x == k then some x else lookup key items k := by
  rw [lookup,renew,List.find?_append,List.find?_filter]
  by_cases same : key x = k
  · have absent : items.find? (fun y => decide ((key y != key x) = true ∧ (key y == k) = true)) = none := by
      refine List.find?_eq_none.mpr fun y _ => ?_
      rw [same]
      by_cases equal : key y = k <;> simp [equal]
    have own : (key x == k) = true := beq_iff_eq.mpr same
    rw [absent,List.find?_singleton,if_pos own,if_pos own]
    rfl
  · have others : (fun y => decide ((key y != key x) = true ∧ (key y == k) = true)) = fun y => key y == k := by
      funext y
      by_cases equal : key y = k
      · simp [equal,Ne.symm same]
      · simp [equal]
    have apart : ¬(key x == k) = true := by simpa using same
    rw [others,List.find?_singleton,if_neg apart,if_neg apart,Option.or_none]
    rfl

theorem renewDistinct (distinct : (items.map key).Nodup) (x : α) : ((renew key items x).map key).Nodup := by
  rw [renew,List.map_append]
  refine (distinct.sublist (List.filter_sublist.map key)).append (List.nodup_singleton _) ?_
  intro k left right
  obtain ⟨y,member,rfl⟩ := List.mem_map.mp left
  have apart := (List.mem_filter.mp member).2
  have same : key y = key x := List.mem_singleton.mp right
  rw [same,bne_self_eq_false] at apart
  contradiction

theorem memRenew {x y : α} (there : x ∈ items) (distinct : (items.map key).Nodup) :
    y ∈ renew key items x ↔ y ∈ items := by
  rw [renew,List.mem_append,List.mem_singleton,List.mem_filter,bne_iff_ne]
  constructor
  · rintro (⟨member,_⟩ | rfl)
    · exact member
    · exact there
  · intro member
    by_cases same : key y = key x
    · exact .inr (List.inj_on_of_nodup_map distinct member there same)
    · exact .inl ⟨member,same⟩

/- What is dropped at the front is gone, the rest is still there. -/
theorem lookupDrop (distinct : (items.map key).Nodup) (n : Nat) (k : κ) :
    lookup key (items.drop n) k = if k ∈ (items.take n).map key then none else lookup key items k := by
  have split_ : items.take n ++ items.drop n = items := List.take_append_drop n items
  have apart : ((items.take n).map key).Disjoint ((items.drop n).map key) := by
    rw [← split_,List.map_append] at distinct
    exact List.disjoint_of_nodup_append distinct
  split
  · rename_i early
    refine List.find?_eq_none.mpr fun x member same => ?_
    exact apart early (List.mem_map.mpr ⟨x,member,beq_iff_eq.mp same⟩)
  · rename_i late
    have none : (items.take n).find? (fun x => key x == k) = none := by
      refine List.find?_eq_none.mpr fun x member same => ?_
      exact late (List.mem_map.mpr ⟨x,member,beq_iff_eq.mp same⟩)
    rw [lookup,lookup,← split_,List.find?_append,none,split_]
    rfl

end Northstar.Recency
