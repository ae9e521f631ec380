import Mathlib.Data.List.Nodup

/-! Maps and sets that list what they hold in the order of insertion: a key that is there is
replaced in its place, a new one is put at the end. -/
namespace Northstar.Mapping

variable {K V : Type} [DecidableEq K]

def look (m : List (K × V)) (k : K) : Option V := (m.find? fun e => e.1 = k).map (·.2)

def has (m : List (K × V)) (k : K) : Bool := m.any fun e => e.1 = k

def put (m : List (K × V)) (k : K) (v : V) : List (K × V) :=
  if has m k then m.map fun e => if e.1 = k then (k,v) else e else m ++ [(k,v)]

def drop (m : List (K × V)) (k : K) : List (K × V) := m.filter fun e => e.1 ≠ k

def join (s : List K) (k : K) : List K := if k ∈ s then s else s ++ [k]

def leave (s : List K) (k : K) : List K := s.filter fun other => other ≠ k

theorem hasKey {m : List (K × V)} {k : K} : has m k = true ↔ k ∈ m.map (·.1) := by
  simp [has]

theorem lookNone {m : List (K × V)} {k : K} : look m k = none ↔ k ∉ m.map (·.1) := by
  rw [look,Option.map_eq_none_iff,List.find?_eq_none]
  constructor
  · intro none_ member
    obtain ⟨e,inside,same⟩ := List.mem_map.mp member
    exact none_ e inside (by simpa using same)
  · intro absent e inside same
    exact absent (List.mem_map.mpr ⟨e,inside,by simpa using same⟩)

theorem lookCons (e : K × V) (m : List (K × V)) (k : K) : look (e :: m) k = if e.1 = k then some e.2 else look m k := by
  rw [look,List.find?_cons]
  split
  · rename_i same
    rw [if_pos (by simpa using same)]
    rfl
  · rename_i differ
    rw [if_neg (by simpa using differ)]
    rfl

theorem lookReplaced {m : List (K × V)} {k : K} (v : V) (there : k ∈ m.map (·.1)) :
    look (m.map fun e => if e.1 = k then (k,v) else e) k = some v := by
  induction m with
  | nil => contradiction
  | cons e rest ih =>
    rw [List.map_cons,lookCons]
    by_cases here : e.1 = k
    · rw [if_pos here,if_pos rfl]
    · rw [if_neg here,if_neg here]
      exact ih ((List.mem_cons.mp there).resolve_left fun same => here same.symm)

theorem lookBeside (m : List (K × V)) {k other : K} (v : V) (apart : other ≠ k) :
    look (m.map fun e => if e.1 = k then (k,v) else e) other = look m other := by
  induction m with
  | nil => rfl
  | cons e rest ih =>
    rw [List.map_cons,lookCons,lookCons,ih]
    by_cases here : e.1 = k
    · rw [if_pos here,if_neg fun same => apart same.symm,if_neg fun same => apart (same.symm.trans here)]
    · rw [if_neg here]

theorem lookAppend (m : List (K × V)) (k other : K) (v : V) :
    look (m ++ [(k,v)]) other = (look m other).or (if k = other then some v else none) := by
  induction m with
  | nil => rw [List.nil_append,lookCons]; rfl
  | cons e rest ih =>
    rw [List.cons_append,lookCons,lookCons,ih]
    split
    · rfl
    · rfl

theorem lookPut (m : List (K × V)) (k other : K) (v : V) :
    look (put m k v) other = if other = k then some v else look m other := by
  unfold put
  by_cases same : other = k
  · subst other
    rw [if_pos rfl]
    by_cases there : k ∈ m.map (·.1)
    · rw [if_pos (hasKey.mpr there)]
      exact lookReplaced v there
    · rw [if_neg fun h => there (hasKey.mp h),lookAppend,lookNone.mpr there,if_pos rfl]
      rfl
  · rw [if_neg same]
    by_cases there : k ∈ m.map (·.1)
    · rw [if_pos (hasKey.mpr there)]
      exact lookBeside m v same
    · rw [if_neg fun h => there (hasKey.mp h),lookAppend,if_neg fun h => same h.symm,Option.or_none]

theorem lookDrop (m : List (K × V)) (k other : K) : look (drop m k) other = if other = k then none else look m other := by
  unfold look drop
  rw [List.find?_filter]
  by_cases same : other = k
  · rw [if_pos same,Option.map_eq_none_iff,List.find?_eq_none]
    intro e _ both
    simp only [decide_eq_true_eq,ne_eq] at both
    exact both.1 (both.2.trans same)
  · rw [if_neg same]
    congr 2
    funext e
    rw [decide_eq_decide]
    simp only [decide_eq_true_eq,ne_eq]
    exact ⟨And.right,fun is => ⟨fun h => same (is.symm.trans h),is⟩⟩

theorem putKeys (m : List (K × V)) (k : K) (v : V) :
    (put m k v).map (·.1) = if k ∈ m.map (·.1) then m.map (·.1) else m.map (·.1) ++ [k] := by
  unfold put
  by_cases there : k ∈ m.map (·.1)
  · rw [if_pos (hasKey.mpr there),if_pos there,List.map_map]
    refine List.map_congr_left fun e _ => ?_
    simp only [Function.comp]
    split
    · rename_i same
      exact same.symm
    · rfl
  · rw [if_neg fun h => there (hasKey.mp h),if_neg there,List.map_append,List.map_singleton]

theorem putOnce {m : List (K × V)} (once : (m.map (·.1)).Nodup) (k : K) (v : V) : ((put m k v).map (·.1)).Nodup := by
  rw [putKeys]
  split
  · exact once
  · rename_i new
    exact once.append (List.nodup_singleton k) (List.disjoint_singleton.mpr new)

theorem dropOnce {m : List (K × V)} (once : (m.map (·.1)).Nodup) (k : K) : ((drop m k).map (·.1)).Nodup :=
  once.sublist (List.filter_sublist.map _)

theorem putNew {m : List (K × V)} {k : K} (new : k ∉ m.map (·.1)) (v : V) : put m k v = m ++ [(k,v)] :=
  if_neg fun h => new (hasKey.mp h)

theorem joinMember {s : List K} {k other : K} : other ∈ join s k ↔ other ∈ s ∨ other = k := by
  unfold join
  split
  · rename_i there
    exact ⟨.inl,fun h => h.elim id fun same => same ▸ there⟩
  · simp

theorem joinOnce {s : List K} (once : s.Nodup) (k : K) : (join s k).Nodup := by
  unfold join
  split
  · exact once
  · rename_i new
    exact once.append (List.nodup_singleton k) (List.disjoint_singleton.mpr new)

theorem joinRun (ids candidates : List K) : (∀ id, id ∈ ids.foldl join candidates ↔ id ∈ candidates ∨ id ∈ ids) ∧
    (candidates.Nodup → (ids.foldl join candidates).Nodup) := by
  induction ids generalizing candidates with
  | nil => exact ⟨by simp,id⟩
  | cons first rest ih =>
    obtain ⟨members,once⟩ := ih (join candidates first)
    refine ⟨fun id => ?_,fun h => once (joinOnce h first)⟩
    rw [List.foldl_cons,members,joinMember,List.mem_cons,or_assoc]

end Northstar.Mapping
