import Northstar.Arrangement

/-! Values gathered under their keys: an offer of a known key is merged into the value that is
there, an offer of a new one is put at the end. What is gathered depends on the order of the
offers only as far as merging the offers of one key does. -/
namespace Northstar

variable {V K : Type} [DecidableEq K]

def gather (key : V → K) (merge : V → V → V) (offered : V) : List V → List V
  | [] => [offered]
  | value :: rest =>
      if key value = key offered then merge value offered :: rest
      else value :: gather key merge offered rest

variable {key : V → K} {merge : V → V → V}

/- What an offer makes of the value under its key. -/
def merged (merge : V → V → V) (held : Option V) (offered : V) : Option V :=
  some (held.elim offered fun value => merge value offered)

def under (key : V → K) (k : K) (values : List V) : Option V := values.find? fun value => key value = k

theorem gatherKeys (keyed : ∀ value offered, key (merge value offered) = key value) (offered : V) (values : List V) :
    (gather key merge offered values).map key =
      if key offered ∈ values.map key then values.map key else values.map key ++ [key offered] := by
  induction values with
  | nil => rfl
  | cons value rest ih =>
    unfold gather
    by_cases same : key value = key offered
    · rw [if_pos same,if_pos (by simp [same]),List.map_cons,keyed]
      rfl
    · rw [if_neg same,List.map_cons,ih,List.map_cons]
      have apart : key offered ≠ key value := fun h => same h.symm
      by_cases there : key offered ∈ rest.map key
      · rw [if_pos there,if_pos (List.mem_cons_of_mem _ there)]
      · rw [if_neg there,if_neg (by simpa [apart] using there)]
        rfl

theorem gatherEvery {P : V → Prop} {offered : V} {values : List V} (new : P offered)
    (kept : ∀ value, P value → key value = key offered → P (merge value offered)) (held : ∀ value ∈ values, P value) :
    ∀ value ∈ gather key merge offered values, P value := by
  induction values with
  | nil =>
    intro value member
    exact List.mem_singleton.mp member ▸ new
  | cons first rest ih =>
    have old := held first List.mem_cons_self
    have later : ∀ value ∈ rest, P value := fun value member => held value (List.mem_cons_of_mem _ member)
    intro value member
    unfold gather at member
    split at member
    · rename_i same
      rcases List.mem_cons.mp member with rfl | inside
      · exact kept first old same
      · exact later value inside
    · rcases List.mem_cons.mp member with rfl | inside
      · exact old
      · exact ih later value inside

theorem gatherDistinct (keyed : ∀ value offered, key (merge value offered) = key value) {values : List V}
    (h : (values.map key).Nodup) (offered : V) : ((gather key merge offered values).map key).Nodup := by
  rw [gatherKeys keyed]
  split
  · exact h
  · rename_i new
    exact h.append (List.nodup_singleton _) (List.disjoint_singleton.mpr new)

theorem underGather (keyed : ∀ value offered, key (merge value offered) = key value) (offered : V) (values : List V)
    (k : K) : under key k (gather key merge offered values) =
      if key offered = k then merged merge (under key k values) offered else under key k values := by
  induction values with
  | nil =>
    unfold gather under merged
    by_cases same : key offered = k
    · simp [same]
    · simp [same]
  | cons value rest ih =>
    unfold gather
    unfold under at ih ⊢
    by_cases here : key value = key offered
    · rw [if_pos here,List.find?_cons,List.find?_cons,keyed,here]
      by_cases same : key offered = k
      · simp [same,merged]
      · simp [same]
    · rw [if_neg here,List.find?_cons,List.find?_cons,ih]
      by_cases same : key offered = k
      · have other : key value ≠ k := fun h => here (h.trans same.symm)
        simp [same,other]
      · simp [same]

/- A run of offers, seen at one key, is the run of the offers of that key. -/
theorem underRun (keyed : ∀ value offered, key (merge value offered) = key value) (offers values : List V) (k : K) :
    under key k (offers.foldl (fun values offered => gather key merge offered values) values) =
      (offers.filter fun offered => key offered = k).foldl (merged merge) (under key k values) := by
  induction offers generalizing values with
  | nil => rfl
  | cons offered rest ih =>
    rw [List.foldl_cons,ih,underGather keyed]
    by_cases same : key offered = k
    · rw [if_pos same,List.filter_cons_of_pos (by simpa using same),List.foldl_cons]
    · rw [if_neg same,List.filter_cons_of_neg (by simpa using same)]

theorem runDistinct (keyed : ∀ value offered, key (merge value offered) = key value) (offers : List V) {values : List V}
    (h : (values.map key).Nodup) :
    ((offers.foldl (fun values offered => gather key merge offered values) values).map key).Nodup := by
  induction offers generalizing values with
  | nil => exact h
  | cons offered rest ih => exact ih (gatherDistinct keyed h offered)

theorem runKeys [BEq K] [LawfulBEq K] (keyed : ∀ value offered, key (merge value offered) = key value) (offers values : List V) :
    (offers.foldl (fun values offered => gather key merge offered values) values).map key =
      values.map key ++ ((offers.map key).filter fun k => k ∉ values.map key).eraseDups := by
  induction offers generalizing values with
  | nil => simp
  | cons offered rest ih =>
    rw [List.foldl_cons,ih,gatherKeys keyed,List.map_cons]
    split
    · rename_i known
      rw [List.filter_cons_of_neg (by simpa using known)]
    · rename_i new
      rw [List.filter_cons_of_pos (by simpa using new),List.eraseDups_cons,List.append_assoc,List.singleton_append,
        List.filter_filter]
      congr 3
      refine List.filter_congr fun k _ => ?_
      rw [Bool.eq_iff_iff]
      simp only [decide_eq_true_eq,List.mem_append,List.mem_singleton,not_or,Bool.and_eq_true,Bool.not_eq_true',
        beq_eq_false_iff_ne,ne_eq]
      exact And.comm

theorem gatheredKeys [BEq K] [LawfulBEq K] (keyed : ∀ value offered, key (merge value offered) = key value) (offers : List V) :
    (offers.foldl (fun values offered => gather key merge offered values) []).map key = (offers.map key).eraseDups := by
  rw [runKeys keyed]
  simp

theorem runEvery {P : V → Prop} {offers values : List V} (new : ∀ offered ∈ offers, P offered)
    (kept : ∀ value offered, P value → P offered → key value = key offered → P (merge value offered))
    (held : ∀ value ∈ values, P value) :
    ∀ value ∈ offers.foldl (fun values offered => gather key merge offered values) values, P value := by
  induction offers generalizing values with
  | nil => exact held
  | cons offered rest ih =>
    have first := new offered List.mem_cons_self
    exact ih (fun other member => new other (List.mem_cons_of_mem _ member))
      (gatherEvery first (fun value old => kept value offered old first) held)

/- Lists with distinct keys that agree at every key, up to a view that shows the key, are
arrangements of one list of views. -/
theorem agreeingViews {W : Type} {view : V → W} {viewed : W → K} (shows : ∀ value, viewed (view value) = key value)
    {values others : List V} (once : (values.map key).Nodup) (once' : (others.map key).Nodup)
    (agree : ∀ k, (under key k values).map view = (under key k others).map view) :
    (values.map view).Perm (others.map view) := by
  have distinct {list : List V} (h : (list.map key).Nodup) : (list.map view).Nodup := by
    refine List.Nodup.of_map viewed ?_
    rw [List.map_map]
    have same : viewed ∘ view = key := funext shows
    rwa [same]
  have finds {list : List V} (h : (list.map key).Nodup) {value : V} (member : value ∈ list) :
      under key (key value) list = some value := foundByKey h member
  have inside {list list' : List V} (h : (list.map key).Nodup)
      (agree : ∀ k, (under key k list).map view = (under key k list').map view) {w : W} (member : w ∈ list.map view) :
      w ∈ list'.map view := by
    obtain ⟨value,there,rfl⟩ := List.mem_map.mp member
    have found := agree (key value)
    rw [finds h there,Option.map_some] at found
    obtain ⟨other,at_,same⟩ := Option.map_eq_some_iff.mp found.symm
    exact List.mem_map.mpr ⟨other,List.mem_of_find?_eq_some at_,same⟩
  refine (List.perm_ext_iff_of_nodup (distinct once) (distinct once')).mpr fun w => ?_
  exact ⟨inside once agree,inside once' fun k => (agree k).symm⟩

end Northstar
