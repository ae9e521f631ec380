import Mathlib.Data.List.Induction
import Mathlib.Data.List.Perm.Subperm
import Northstar.Arrangement

/-! Rows grouped by a key, as a Map in the order of its first rows: what a group is made of is told by
the rows of its key alone. -/
namespace Northstar.Grouping

variable {α G K : Type} [DecidableEq K]

def enter (key : α → K) (first : α → G) (add : G → α → G) (row : α) : List (K × G) → List (K × G)
  | [] => [(key row,first row)]
  | group :: rest => if group.1 = key row then (group.1,add group.2 row) :: rest else group :: enter key first add row rest

def grouped (key : α → K) (first : α → G) (add : G → α → G) (rows : List α) : List (K × G) :=
  rows.foldl (fun groups row => enter key first add row groups) []

/- What the rows of one key are made into. -/
def built (first : α → G) (add : G → α → G) : List α → Option G
  | [] => none
  | row :: rest => some (rest.foldl add (first row))

variable {key : α → K} {first : α → G} {add : G → α → G}

theorem builtLast (rows : List α) (row : α) :
    built first add (rows ++ [row]) = some (((built first add rows).map fun group => add group row).getD (first row)) := by
  cases rows with
  | nil => rfl
  | cons r rest =>
    rw [List.cons_append,built,built,Option.map_some,Option.getD_some,List.foldl_concat]

theorem enterKeys (row : α) (groups : List (K × G)) : (enter key first add row groups).map Prod.fst =
    if key row ∈ groups.map Prod.fst then groups.map Prod.fst else groups.map Prod.fst ++ [key row] := by
  induction groups with
  | nil => rfl
  | cons group rest ih =>
    unfold enter
    by_cases same : group.1 = key row
    · rw [if_pos same,if_pos (by simp [same])]
      rfl
    · rw [if_neg same,List.map_cons,ih,List.map_cons]
      have apart : key row ≠ group.1 := fun h => same h.symm
      by_cases there : key row ∈ rest.map Prod.fst
      · rw [if_pos there,if_pos (List.mem_cons_of_mem _ there)]
      · rw [if_neg there,if_neg (by simpa [apart] using there)]
        rfl

theorem enterEach (row : α) {groups : List (K × G)} (distinct : (groups.map Prod.fst).Nodup) {group : K × G}
    (member : group ∈ enter key first add row groups) :
    (group ∈ groups ∧ group.1 ≠ key row) ∨ (∃ old, (key row,old) ∈ groups ∧ group = (key row,add old row)) ∨
      key row ∉ groups.map Prod.fst ∧ group = (key row,first row) := by
  induction groups with
  | nil => exact .inr (.inr ⟨List.not_mem_nil,List.mem_singleton.mp member⟩)
  | cons g rest ih =>
    obtain ⟨apart,distinct⟩ := List.nodup_cons.mp distinct
    unfold enter at member
    by_cases same : g.1 = key row
    · rw [if_pos same] at member
      rcases List.mem_cons.mp member with rfl | later
      · refine .inr (.inl ⟨g.2,?_,by rw [same]⟩)
        rw [← same]
        exact List.mem_cons_self
      · exact .inl ⟨List.mem_cons_of_mem _ later,fun eq => apart (List.mem_map.mpr ⟨group,later,eq.trans same.symm⟩)⟩
    · rw [if_neg same] at member
      rcases List.mem_cons.mp member with rfl | later
      · exact .inl ⟨List.mem_cons_self,same⟩
      · rcases ih distinct later with ⟨inside,other⟩ | ⟨old,inside,eq⟩ | ⟨fresh,eq⟩
        · exact .inl ⟨List.mem_cons_of_mem _ inside,other⟩
        · exact .inr (.inl ⟨old,List.mem_cons_of_mem _ inside,eq⟩)
        · refine .inr (.inr ⟨fun known => ?_,eq⟩)
          rcases List.mem_cons.mp known with here | there
          · exact same here.symm
          · exact fresh there

theorem groupedLast (rows : List α) (row : α) :
    grouped key first add (rows ++ [row]) = enter key first add row (grouped key first add rows) := List.foldl_concat _ _ _ _

theorem groupedKeys (rows : List α) : (grouped key first add rows).map Prod.fst = (rows.map key).eraseDups := by
  induction rows using List.reverseRecOn with
  | nil => rfl
  | append_singleton rows row ih =>
    rw [groupedLast,enterKeys,ih,List.map_append,List.eraseDups_append]
    by_cases known : key row ∈ rows.map key
    · rw [if_pos (List.mem_eraseDups.mpr known),List.map_singleton,List.removeAll,List.filter_cons_of_neg (by simpa using known),List.filter_nil]
      exact (List.append_nil _).symm
    · rw [if_neg fun inside => known (List.mem_eraseDups.mp inside),List.map_singleton,List.removeAll,List.filter_cons_of_pos (by simpa using known),List.filter_nil]
      rfl

theorem groupedOnce (rows : List α) : ((grouped key first add rows).map Prod.fst).Nodup := by
  rw [groupedKeys]
  exact distinctOnce _

/- Each group is what the rows of its key are made into, in their order. -/
theorem groupedMade (rows : List α) : ∀ group ∈ grouped key first add rows,
    built first add (rows.filter fun row => key row = group.1) = some group.2 := by
  induction rows using List.reverseRecOn with
  | nil => exact nofun
  | append_singleton rows row ih =>
    intro group member
    rw [groupedLast] at member
    rw [List.filter_append]
    rcases enterEach row (groupedOnce rows) member with ⟨old,other⟩ | ⟨old,inside,rfl⟩ | ⟨fresh,rfl⟩
    · rw [List.filter_cons_of_neg (by simpa using Ne.symm other),List.filter_nil,List.append_nil]
      exact ih group old
    · have before := ih _ inside
      rw [List.filter_cons_of_pos (by simp),List.filter_nil,builtLast,before]
      rfl
    · have none_ : rows.filter (fun r => key r = key row) = [] := by
        refine List.filter_eq_nil_iff.mpr fun r there same => fresh ?_
        rw [groupedKeys,List.mem_eraseDups]
        exact List.mem_map.mpr ⟨r,there,of_decide_eq_true same⟩
      rw [List.filter_cons_of_pos (by simp),List.filter_nil,none_]
      rfl

/- Every row is in the group of its key. -/
theorem groupOf {rows : List α} {row : α} (member : row ∈ rows) : ∃ group ∈ grouped key first add rows, group.1 = key row := by
  have known : key row ∈ (grouped key first add rows).map Prod.fst := by
    rw [groupedKeys,List.mem_eraseDups]
    exact List.mem_map_of_mem member
  obtain ⟨group,inside,same⟩ := List.mem_map.mp known
  exact ⟨group,inside,same⟩

theorem mapAlong {A B C D : Type} {f : A → C} {g : B → C} {f' : A → D} {g' : B → D} : ∀ {xs : List A} {ys : List B},
    xs.map f = ys.map g → (∀ x ∈ xs, ∀ y ∈ ys, f x = g y → f' x = g' y) → xs.map f' = ys.map g'
  | [],[],_,_ => rfl
  | [],_ :: _,same,_ => absurd same nofun
  | _ :: _,[],same,_ => absurd same nofun
  | x :: xs,y :: ys,same,along => by
    obtain ⟨here,later⟩ := List.cons.inj same
    rw [List.map_cons,List.map_cons,along x List.mem_cons_self y List.mem_cons_self here,
      mapAlong later fun x first y second => along x (List.mem_cons_of_mem _ first) y (List.mem_cons_of_mem _ second)]

/- Under two keys that tell the rows apart alike, the groups have the same first rows. -/
theorem firstRows {K' : Type} [DecidableEq K'] {key' : α → K'} (rows : List α)
    (told : ∀ a ∈ rows, ∀ b ∈ rows, key a = key b ↔ key' a = key' b) : ∃ firsts : List α, (∀ row ∈ firsts, row ∈ rows) ∧
      (rows.map key).eraseDups = firsts.map key ∧ (rows.map key').eraseDups = firsts.map key' := by
  induction rows using List.reverseRecOn with
  | nil => exact ⟨[],nofun,rfl,rfl⟩
  | append_singleton rows row ih =>
    obtain ⟨firsts,inside,keys,keys'⟩ := ih fun a first b second =>
      told a (List.mem_append_left _ first) b (List.mem_append_left _ second)
    have last : row ∈ rows ++ [row] := List.mem_append_right _ (List.mem_singleton.mpr rfl)
    have alike : key row ∈ rows.map key ↔ key' row ∈ rows.map key' := by
      simp only [List.mem_map]
      exact exists_congr fun a => and_congr_right fun member => told a (List.mem_append_left _ member) row last
    rw [List.map_append,List.eraseDups_append,List.map_append,List.eraseDups_append,keys,keys',List.map_singleton,List.map_singleton]
    by_cases known : key row ∈ rows.map key
    · refine ⟨firsts,fun a member => List.mem_append_left _ (inside a member),?_,?_⟩
      · rw [List.removeAll,List.filter_cons_of_neg (by simpa using known),List.filter_nil]
        exact List.append_nil _
      · rw [List.removeAll,List.filter_cons_of_neg (by simpa using alike.mp known),List.filter_nil]
        exact List.append_nil _
    · refine ⟨firsts ++ [row],fun a member => ?_,?_,?_⟩
      · exact (List.mem_append.mp member).elim (fun h => List.mem_append_left _ (inside a h)) (List.mem_append_right _)
      · rw [List.removeAll,List.filter_cons_of_pos (by simpa using known),List.filter_nil,List.map_append]
        rfl
      · rw [List.removeAll,List.filter_cons_of_pos (by simpa using fun h => known (alike.mpr h)),List.filter_nil,List.map_append]
        rfl

/- A coarser key has as many values only where it tells the rows apart as well. -/
theorem asMany {K' : Type} [DecidableEq K'] {key' : α → K'} (coarse : K' → K) (read : ∀ row, key row = coarse (key' row))
    {rows : List α} (many : (rows.map key).eraseDups.length = (rows.map key').eraseDups.length) :
    ∀ a ∈ rows, ∀ b ∈ rows, key a = key b → key' a = key' b := by
  have known : (rows.map key).eraseDups ⊆ (rows.map key').eraseDups.map coarse := by
    intro k member
    obtain ⟨row,inside,rfl⟩ := List.mem_map.mp (List.mem_eraseDups.mp member)
    exact List.mem_map.mpr ⟨key' row,List.mem_eraseDups.mpr (List.mem_map_of_mem inside),(read row).symm⟩
  have same := (List.Nodup.subperm (distinctOnce (rows.map key)) known).perm_of_length_le (Nat.le_of_eq (by rw [List.length_map,many]))
  have apart := same.nodup (distinctOnce _)
  intro a first b second eq
  refine List.inj_on_of_nodup_map apart (List.mem_eraseDups.mpr (List.mem_map_of_mem first))
    (List.mem_eraseDups.mpr (List.mem_map_of_mem second)) ?_
  rw [← read a,← read b]
  exact eq

/- Rows taken key by key are those whose key is taken. -/
theorem splitPerm {keys : List K} (distinct : keys.Nodup) (rows : List α) :
    (keys.flatMap fun k => rows.filter fun row => key row = k).Perm (rows.filter fun row => key row ∈ keys) := by
  induction keys with
  | nil => simp
  | cons k rest ih =>
    obtain ⟨apart,distinct⟩ := List.nodup_cons.mp distinct
    rw [List.flatMap_cons]
    have own : rows.filter (fun row => key row = k) = (rows.filter fun row => key row ∈ k :: rest).filter fun row => key row = k := by
      rw [List.filter_filter]
      refine List.filter_congr fun row _ => ?_
      by_cases same : key row = k <;> simp [same]
    have others : rows.filter (fun row => key row ∈ rest) =
        (rows.filter fun row => key row ∈ k :: rest).filter fun row => !decide (key row = k) := by
      rw [List.filter_filter]
      refine List.filter_congr fun row _ => ?_
      by_cases same : key row = k
      · simp [same,apart]
      · simp [same]
    refine ((ih distinct).append_left _).trans ?_
    rw [own,others]
    exact List.filter_append_perm _ _

theorem splitWhole {keys : List K} (distinct : keys.Nodup) {rows : List α} (known : ∀ row ∈ rows, key row ∈ keys) :
    (keys.flatMap fun k => rows.filter fun row => key row = k).Perm rows :=
  (splitPerm distinct rows).trans (List.Perm.of_eq (List.filter_eq_self.mpr fun row member => decide_eq_true (known row member)))

end Northstar.Grouping
