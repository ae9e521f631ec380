import Northstar.Agent.Synthesis
import Northstar.Arrangement

/-! What the compiled source catalog holds. Each entry is one group of the evidence, under
the key its members share; selection only drops whole groups. -/
namespace Northstar.Agent

structure Grouped (p : Platform) (evidence : List AgentEvidence) (group : SourceGroup) : Prop where
  inhabited : group.items ≠ []
  members : ∀ item ∈ group.items, item ∈ evidence ∧
    (evidenceSourceKey p item).map (·.url) = some group.key.url

theorem groupedMore {p evidence entry group} (h : Grouped p evidence group) :
    Grouped p (evidence ++ [entry]) group :=
  ⟨h.inhabited,fun item member =>
    ⟨List.mem_append_left _ (h.members item member).1,(h.members item member).2⟩⟩

theorem addedGrouped {p evidence entry key} {groups : List SourceGroup}
    (found : evidenceSourceKey p entry = some key) (h : ∀ group ∈ groups, Grouped p evidence group) :
    ∀ group ∈ addToGroup key entry groups, Grouped p (evidence ++ [entry]) group := by
  induction groups with
  | nil =>
    intro group member
    rw [List.mem_singleton.mp member]
    exact ⟨List.cons_ne_nil _ _,by simp [found]⟩
  | cons first rest ih =>
    intro group member
    unfold addToGroup at member
    split at member
    · rename_i same
      cases List.mem_cons.mp member with
      | inl here =>
        have old := h first List.mem_cons_self
        rw [here]
        constructor
        · simp
        · intro item among
          cases List.mem_append.mp among with
          | inl before => exact (groupedMore old).members item before
          | inr last =>
            rw [List.mem_singleton.mp last]
            exact ⟨by simp,by simp [found,same]⟩
      | inr later => exact groupedMore (h group (List.mem_cons_of_mem _ later))
    · cases List.mem_cons.mp member with
      | inl here => exact here ▸ groupedMore (h first List.mem_cons_self)
      | inr later => exact ih (fun g among => h g (List.mem_cons_of_mem _ among)) group later

theorem groupsGrouped (p : Platform) (evidence : List AgentEvidence) :
    ∀ group ∈ (evidence.foldl (groupStep p) ([],[])).1, Grouped p evidence group := by
  induction evidence using List.reverseRecOn with
  | nil => exact fun group member => (List.not_mem_nil member).elim
  | append_singleton before entry ih =>
    rw [List.foldl_append,List.foldl_cons,List.foldl_nil]
    unfold groupStep
    split
    · exact fun group member => groupedMore (ih group member)
    · rename_i key found
      exact addedGrouped found ih

theorem bucketMembers {entry other : Scored} {buckets : List (SourceClass × List Scored)}
    (h : ∃ bucket ∈ addToBucket entry buckets, other ∈ bucket.2) :
    other = entry ∨ ∃ bucket ∈ buckets, other ∈ bucket.2 := by
  induction buckets with
  | nil =>
    obtain ⟨bucket,only,member⟩ := h
    rw [List.mem_singleton.mp only] at member
    exact .inl (List.mem_singleton.mp member)
  | cons first rest ih =>
    obtain ⟨bucket,among,member⟩ := h
    unfold addToBucket at among
    split at among
    · cases List.mem_cons.mp among with
      | inl here =>
        rw [here] at member
        cases List.mem_append.mp member with
        | inl before => exact .inr ⟨first,List.mem_cons_self,before⟩
        | inr last => exact .inl (List.mem_singleton.mp last)
      | inr later => exact .inr ⟨bucket,List.mem_cons_of_mem _ later,member⟩
    · cases List.mem_cons.mp among with
      | inl here => exact .inr ⟨first,List.mem_cons_self,here ▸ member⟩
      | inr later =>
        cases ih ⟨bucket,later,member⟩ with
        | inl same => exact .inl same
        | inr found =>
          obtain ⟨b,inside,has⟩ := found
          exact .inr ⟨b,List.mem_cons_of_mem _ inside,has⟩

theorem bucketsMembers {other : Scored} (scored : List Scored)
    (buckets : List (SourceClass × List Scored))
    (h : ∃ bucket ∈ scored.foldl (fun buckets entry => addToBucket entry buckets) buckets, other ∈ bucket.2) :
    other ∈ scored ∨ ∃ bucket ∈ buckets, other ∈ bucket.2 := by
  induction scored generalizing buckets with
  | nil => exact .inr h
  | cons entry rest ih =>
    cases ih _ h with
    | inl later => exact .inl (List.mem_cons_of_mem _ later)
    | inr found => cases bucketMembers found with
      | inl same => exact .inl (same ▸ List.mem_cons_self)
      | inr before => exact .inr before

theorem selectedGroups {groups : List SourceGroup} {maxSources : Nat} {entry : Scored}
    (member : entry ∈ selectGroups groups maxSources) : ∃ group ∈ groups, entry = scoreGroup group := by
  have ordered := List.mem_of_mem_take member
  obtain ⟨round,_,here⟩ := List.mem_flatMap.mp ordered
  obtain ⟨bucket,among,at_⟩ := List.mem_filterMap.mp here
  have scored := bucketsMembers _ [] ⟨bucket,among,List.mem_of_getElem? at_⟩
  cases scored with
  | inl found =>
    obtain ⟨group,inside,same⟩ := List.mem_map.mp (List.mem_mergeSort.mp found)
    exact ⟨group,inside,same.symm⟩
  | inr none =>
    obtain ⟨_,inside,_⟩ := none
    exact (List.not_mem_nil inside).elim

/- An entry of the catalog and the group it was made from. -/
structure FromGroup (p : Platform) (evidence : List AgentEvidence) (group : SourceGroup)
    (entry : CatalogEntry) : Prop where
  grouped : Grouped p evidence group
  url : entry.canonicalUrl = group.key.url
  ids : ∀ id, id ∈ entry.evidenceIds ↔ id ∈ group.items.map (·.id)

theorem catalogGroup {p maxSources evidence} {entry : CatalogEntry}
    (member : entry ∈ (compileSourceSet p maxSources evidence).sourceCatalog) :
    (∃ group, FromGroup p evidence group entry) ∧
      ∀ id ∈ entry.evidenceIds, id ∈ (compileSourceSet p maxSources evidence).selectedEvidenceIds := by
  obtain ⟨indexed,among,rfl⟩ := List.mem_map.mp member
  have chosen := List.fst_mem_of_mem_zipIdx among
  obtain ⟨group,inside,same⟩ := selectedGroups chosen
  constructor
  · have ids : ∀ id, id ∈ (catalogEntry indexed).evidenceIds ↔ id ∈ group.items.map (·.id) := by
      intro id
      simp only [catalogEntry,same,scoreGroup,List.mem_map,List.mem_mergeSort]
    exact ⟨group,groupsGrouped p evidence group inside,by simp only [catalogEntry,same,scoreGroup],ids⟩
  · intro id has
    exact List.mem_flatMap.mpr ⟨indexed.1,chosen,has⟩

/- The evidence behind an id of a catalog entry. -/
theorem catalogSource {p maxSources evidence} {entry : CatalogEntry} {id : JsString}
    (member : entry ∈ (compileSourceSet p maxSources evidence).sourceCatalog)
    (has : id ∈ entry.evidenceIds) : ∃ item ∈ evidence, item.id = id ∧
      (evidenceSourceKey p item).map (·.url) = some entry.canonicalUrl := by
  obtain ⟨group,made⟩ := (catalogGroup member).1
  obtain ⟨item,inside,same⟩ := List.mem_map.mp ((made.ids id).mp has)
  have source := made.grouped.members item inside
  exact ⟨item,source.1,same,made.url ▸ source.2⟩

theorem sourceFound {catalog : List CatalogEntry} {evidenceId publicId : JsString}
    (h : evidenceToSource catalog evidenceId = some publicId) :
    ∃ entry ∈ catalog, entry.publicId = publicId ∧ evidenceId ∈ entry.evidenceIds := by
  obtain ⟨entry,found,same⟩ := Option.map_eq_some_iff.mp h
  have has : entry.evidenceIds.contains evidenceId := by simpa using List.find?_some found
  exact ⟨entry,List.mem_of_find?_eq_some found,same,List.contains_iff_mem.mp has⟩

theorem indexText {i k : Nat} (same : js "src-" ++ js (toString i) = js "src-" ++ js (toString k)) : i = k := by
  have texts := congrArg readText (List.append_cancel_left same)
  rw [readJs,readJs] at texts
  exact Nat.repr_injective (Option.some.inj texts)

theorem catalogIds (p : Platform) (maxSources : Nat) (evidence : List AgentEvidence) :
    ((compileSourceSet p maxSources evidence).sourceCatalog.map (·.publicId)).Nodup := by
  have numbered (selected : List Scored) : (selected.zipIdx.map catalogEntry).map (·.publicId) =
      (List.range' 0 selected.length).map fun i => js "src-" ++ js (toString i) := by
    rw [← List.zipIdx_map_snd 0 selected,List.map_map,List.map_map]
    rfl
  unfold compileSourceSet
  dsimp only
  rw [numbered]
  exact List.Nodup.map (fun _ _ same => indexText same) List.nodup_range'

end Northstar.Agent
