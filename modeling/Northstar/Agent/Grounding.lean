import Northstar.Agent.Catalog

/-! Grounding by construction: what validation keeps of a proposal resolves to admitted
evidence, rendering drops whole citations only, and the ids a caller chose for its units
leave no trace in the result. -/
namespace Northstar.Agent

/- A unit that validation kept. -/
structure KeptUnit (p : Platform) (admitted : List JsString) (maxClaimBytes : Nat)
    (unit : SynthesisClaimUnit) : Prop where
  short : byteLength unit.text ≤ maxClaimBytes
  text : trim unit.text ≠ []
  cites : unit.evidenceIds ≠ []
  admitted : ∀ id ∈ unit.evidenceIds, id ∈ admitted
  id : unit.id = claimUnitId p unit.text unit.evidenceIds

theorem keptUnit {p admitted maxClaimBytes entry unit}
    (h : readClaimUnit p admitted maxClaimBytes entry = some unit) :
    KeptUnit p admitted maxClaimBytes unit := by
  unfold readClaimUnit at h
  split at h <;> try contradiction
  obtain ⟨raw,_,h⟩ := Option.bind_eq_some_iff.mp h
  split at h <;> try contradiction
  obtain ⟨refs,_,h⟩ := Option.bind_eq_some_iff.mp h
  split at h <;> try contradiction
  rename_i cites
  dsimp only at h
  split at h <;> try contradiction
  rename_i known
  split at h <;> try contradiction
  rename_i text
  cases Option.some.inj h
  constructor
  · exact truncatedBytes raw maxClaimBytes
  · exact text
  · intro none
    have size := congrArg List.length none
    rw [List.length_mergeSort] at size
    exact (keptOnce refs).mpr cites (List.eq_nil_of_length_eq_zero size)
  · intro id member
    simp only [List.any_eq_true,not_exists,not_and] at known
    have found := known id member
    simpa using found
  · rfl

structure UnitsKept (p : Platform) (admitted : List JsString) (maxClaimBytes : Nat) (s : UnitState) :
    Prop where
  units : ∀ unit ∈ s.claimUnits, KeptUnit p admitted maxClaimBytes unit
  distinct : (s.claimUnits.map (·.id)).Nodup
  known : ∀ pair ∈ s.callerToRecomputed, pair.1 ≠ [] ∧ pair.2 ∈ s.claimUnits.map (·.id)

theorem registered {caller : Option JsString} {id : JsString} {known : List (JsString × JsString)}
    {P : JsString × JsString → Prop} (old : ∀ pair ∈ known, P pair)
    (new : ∀ name, caller = some name → P (name,id)) : ∀ pair ∈ register caller id known, P pair := by
  cases caller with
  | none => exact old
  | some name =>
    intro pair member
    simp only [register] at member
    split at member
    · exact old pair member
    · cases List.mem_append.mp member with
      | inl before => exact old pair before
      | inr last => exact List.mem_singleton.mp last ▸ new name rfl

theorem callerNonempty {entry : JsValue} {name : JsString} (h : callerId entry = some name) : name ≠ [] := by
  have kept := Option.filter_eq_some_iff.mp h
  simpa using kept.2

theorem unitsKeptStep {p admitted maxClaimBytes s} (entry : JsValue)
    (h : UnitsKept p admitted maxClaimBytes s) :
    UnitsKept p admitted maxClaimBytes (claimUnitStep p admitted maxClaimBytes s entry) := by
  unfold claimUnitStep
  split
  · exact ⟨h.units,h.distinct,h.known⟩
  split
  · exact ⟨h.units,h.distinct,h.known⟩
  rename_i unit read
  dsimp only
  split
  · rename_i again
    obtain ⟨other,inside,same⟩ := List.any_eq_true.mp again
    have there : unit.id ∈ s.claimUnits.map (·.id) :=
      List.mem_map.mpr ⟨other,inside,of_decide_eq_true same⟩
    exact ⟨h.units,h.distinct,registered h.known fun name given => ⟨callerNonempty given,there⟩⟩
  · rename_i fresh
    have new : unit.id ∉ s.claimUnits.map (·.id) := by
      intro member
      obtain ⟨other,inside,same⟩ := List.mem_map.mp member
      exact fresh (List.any_eq_true.mpr ⟨other,inside,decide_eq_true same⟩)
    constructor
    · intro one member
      cases List.mem_append.mp member with
      | inl before => exact h.units one before
      | inr last => exact List.mem_singleton.mp last ▸ keptUnit read
    · rw [List.map_append,List.map_singleton]
      exact h.distinct.append (List.nodup_singleton _) (List.disjoint_singleton.mpr new)
    · intro pair member
      simp only [List.map_append,List.map_singleton]
      exact registered (P := fun pair => pair.1 ≠ [] ∧ pair.2 ∈ s.claimUnits.map (·.id) ++ [unit.id])
        (fun pair before => ⟨(h.known pair before).1,List.mem_append_left _ (h.known pair before).2⟩)
        (fun name given => ⟨callerNonempty given,List.mem_append_right _ (List.mem_singleton_self _)⟩)
        pair member

theorem unitsKept (p : Platform) (maxClaimBytes : Nat) (evidence : List AgentEvidence)
    (entries : List JsValue) :
    UnitsKept p ((evidence.filter fun entry => entry.status = .admitted).map (·.id)) maxClaimBytes
      (readClaimUnits p maxClaimBytes evidence entries) :=
  runInvariant ⟨by simp,by simp,by simp⟩ (fun _ entry h => unitsKeptStep entry h) entries

/- A block that validation kept cites units by their recomputed ids. -/
structure KeptBlock (known : List (JsString × JsString)) (block : ReportBlock) : Prop where
  cites : block.claimUnitIds ≠ []
  resolved : ∀ id ∈ block.claimUnitIds, id ∈ known.map (·.2)

theorem resolvedRefs {known : List (JsString × JsString)} {resolved refs ids : List JsString}
    (h : resolveRefs known resolved refs = some ids) (start : ∀ id ∈ resolved, id ∈ known.map (·.2)) :
    ∀ id ∈ ids, id ∈ known.map (·.2) := by
  induction refs generalizing resolved with
  | nil => exact Option.some.inj h ▸ start
  | cons ref rest ih =>
    unfold resolveRefs at h
    split at h <;> try contradiction
    rename_i mapped found
    obtain ⟨before,after,split_,_⟩ := List.lookup_eq_some_iff.mp found
    have there : mapped ∈ known.map (·.2) := by simp [split_]
    apply ih h
    split
    · exact start
    · intro id member
      cases List.mem_append.mp member with
      | inl old => exact start id old
      | inr last => exact List.mem_singleton.mp last ▸ there

theorem blockKeptStep {p : Platform} {known : List (JsString × JsString)} {s : BlockState}
    (indexed : JsValue × Nat) (h : ∀ block ∈ s.blocks, KeptBlock known block) :
    ∀ block ∈ (blockStep p known s indexed).blocks, KeptBlock known block := by
  unfold blockStep
  dsimp only
  split
  · exact h
  split
  · exact h
  split
  · exact h
  rename_i resolved units
  split
  · exact h
  intro block member
  cases List.mem_append.mp member with
  | inl before => exact h block before
  | inr last =>
    rw [List.mem_singleton.mp last]
    obtain ⟨names,_,units⟩ := Option.bind_eq_some_iff.mp units
    obtain ⟨ids,refs,units⟩ := Option.bind_eq_some_iff.mp units
    split at units <;> try contradiction
    rename_i cites
    cases Option.some.inj units
    exact ⟨cites,resolvedRefs refs (by simp)⟩

theorem blocksKept (p : Platform) (known : List (JsString × JsString)) (entries : List JsValue) :
    ∀ block ∈ (readBlocks p known entries).blocks, KeptBlock known block :=
  runInvariant (I := fun s : BlockState => ∀ block ∈ s.blocks, KeptBlock known block) (by simp)
    (fun _ indexed h => blockKeptStep indexed h) entries.zipIdx

/- What validateSynthesisOutput accepts. -/
structure Validated (p : Platform) (admitted : List JsString) (value : SynthesisOutput) : Prop where
  units : ∀ unit ∈ value.claimUnits, KeptUnit p admitted agentClaimMaxBytes unit
  distinct : (value.claimUnits.map (·.id)).Nodup
  blocks : ∀ block ∈ value.blocks, block.claimUnitIds ≠ [] ∧
    ∀ id ∈ block.claimUnitIds, id ∈ value.claimUnits.map (·.id)

theorem validated {p evidence raw value dropped}
    (h : validateSynthesisOutput p agentClaimMaxBytes evidence raw = .ok (value,dropped)) :
    Validated p ((evidence.filter fun entry => entry.status = .admitted).map (·.id)) value := by
  unfold validateSynthesisOutput at h
  split at h <;> try contradiction
  dsimp only at h
  split at h <;> try contradiction
  rename_i fields _
  have units := unitsKept p agentClaimMaxBytes evidence
    (itemsOf ((JsValue.object fields).get "claimUnits"))
  have same := (Prod.mk.inj (Except.ok.inj h)).1
  rw [← same]
  constructor
  · exact units.units
  · exact units.distinct
  · intro block member
    have kept := blocksKept p _ _ block member
    constructor
    · exact kept.cites
    · intro id among
      obtain ⟨pair,inside,eq⟩ := List.mem_map.mp (kept.resolved id among)
      exact eq ▸ (units.known pair inside).2

/- Rendering. A unit is orphaned where the catalog misses one of its ids. -/
theorem orphanedUnit (catalog : List CatalogEntry) {units : List SynthesisClaimUnit}
    (distinct : (units.map (·.id)).Nodup) {unit : SynthesisClaimUnit} (member : unit ∈ units) :
    unit.id ∈ orphanedUnits catalog units ↔
      unit.evidenceIds = [] ∨ ∃ id ∈ unit.evidenceIds, evidenceToSource catalog id = none := by
  unfold orphanedUnits
  rw [List.mem_eraseDups,List.mem_map]
  constructor
  · intro found
    obtain ⟨other,kept,same⟩ := found
    have one := List.inj_on_of_nodup_map distinct (List.mem_of_mem_filter kept) member same
    rw [one] at kept
    simpa using (List.mem_filter.mp kept).2
  · intro missing
    exact ⟨unit,List.mem_filter.mpr ⟨member,by simpa using missing⟩,rfl⟩

/- The claim of a unit that is not orphaned. -/
theorem claimMade {p admitted} {value : SynthesisOutput} (catalog : List CatalogEntry)
    (h : Validated p admitted value) {unit : SynthesisClaimUnit} (member : unit ∈ value.claimUnits)
    (kept : unit.id ∉ orphanedUnits catalog value.claimUnits) :
    ∃ ids, claimOf catalog (orphanedUnits catalog value.claimUnits) unit = some ⟨unit.text,ids⟩ ∧
      ids ≠ [] ∧ ∀ id, id ∈ ids ↔ ∃ evidenceId ∈ unit.evidenceIds,
        evidenceToSource catalog evidenceId = some id := by
  have one := h.units unit member
  have resolved := (not_congr (orphanedUnit catalog h.distinct member)).mp kept
  simp only [not_or,not_exists,not_and] at resolved
  have ids : ∀ id, id ∈ (unit.evidenceIds.filterMap (evidenceToSource catalog)).eraseDups ↔
      ∃ evidenceId ∈ unit.evidenceIds, evidenceToSource catalog evidenceId = some id := by
    intro id
    rw [List.mem_eraseDups,List.mem_filterMap]
  have some_ : (unit.evidenceIds.filterMap (evidenceToSource catalog)).eraseDups ≠ [] := by
    obtain ⟨first,inside⟩ := List.exists_mem_of_ne_nil _ resolved.1
    obtain ⟨publicId,found⟩ := Option.ne_none_iff_exists'.mp (resolved.2 first inside)
    exact List.ne_nil_of_mem ((ids publicId).mpr ⟨first,inside,found⟩)
  have text : truncateUtf8Bytes unit.text agentClaimMaxBytes = unit.text := if_pos one.short
  refine ⟨_,?_,some_,ids⟩
  unfold claimOf
  rw [if_neg (by simpa using kept),text,if_neg (not_or.mpr ⟨one.text,some_⟩)]

theorem claimSource {p admitted} {value : SynthesisOutput} {catalog : List CatalogEntry}
    (h : Validated p admitted value) {unit : SynthesisClaimUnit} {claim : AgentClaim}
    (member : unit ∈ value.claimUnits)
    (made : claimOf catalog (orphanedUnits catalog value.claimUnits) unit = some claim) :
    unit.id ∉ orphanedUnits catalog value.claimUnits ∧ claim.text = unit.text ∧ claim.sourceIds ≠ [] ∧
      ∀ id, id ∈ claim.sourceIds ↔ ∃ evidenceId ∈ unit.evidenceIds,
        evidenceToSource catalog evidenceId = some id := by
  have kept : unit.id ∉ orphanedUnits catalog value.claimUnits := by
    intro orphaned
    rw [claimOf,if_pos (List.contains_iff_mem.mpr orphaned)] at made
    contradiction
  obtain ⟨ids,same,rest⟩ := claimMade catalog h member kept
  cases Option.some.inj (same.symm.trans made)
  exact ⟨kept,rfl,rest⟩

/- A citation is verified exactly where its unit has a claim. -/
theorem citationResolved {p admitted} {value : SynthesisOutput} {catalog : List CatalogEntry}
    (h : Validated p admitted value) {claimId : JsString}
    (cited : claimId ∈ value.claimUnits.map (·.id))
    (verified : (citation catalog (orphanedUnits catalog value.claimUnits) value.claimUnits claimId).isSome) :
    ∃ unit ∈ value.claimUnits, unit.id = claimId ∧
      ∃ claim, claimOf catalog (orphanedUnits catalog value.claimUnits) unit = some claim := by
  obtain ⟨unit,member,same⟩ := List.mem_map.mp cited
  have kept : unit.id ∉ orphanedUnits catalog value.claimUnits := by
    intro orphaned
    have found := foundByKey (List.map_reverse ▸ List.nodup_reverse.mpr h.distinct) (List.mem_reverse.mpr member)
    rw [citation,← same,found] at verified
    simp [orphaned] at verified
  obtain ⟨ids,made,_⟩ := claimMade catalog h member kept
  exact ⟨unit,member,same,⟨unit.text,ids⟩,made⟩

/-- Every claim cites a source, each cited source was built from admitted and selected
evidence that the claim's unit named, and every block either has all of its units resolved
to claims or ends with the orphan marker. -/
structure Grounded (p : Platform) (evidence : List AgentEvidence) (result : Synthesized) : Prop where
  claims : ∀ claim ∈ result.rendered.claims, claim.sourceIds ≠ [] ∧
    ∃ unit ∈ result.synthesis.claimUnits, claim.text = unit.text ∧
      ∀ id ∈ claim.sourceIds, ∃ entry ∈ result.compiled.sourceCatalog, entry.publicId = id ∧
        derivedSource entry ∈ result.rendered.sources ∧
        ∃ item ∈ evidence, item.status = .admitted ∧ item.id ∈ unit.evidenceIds ∧
          item.id ∈ entry.evidenceIds ∧ item.id ∈ result.compiled.selectedEvidenceIds ∧
          (evidenceSourceKey p item).map (·.url) = some entry.canonicalUrl
  blocks : List.Forall₂ (fun block text =>
    (block.claimUnitIds ≠ [] ∧ ∀ claimId ∈ block.claimUnitIds,
      ∃ unit ∈ result.synthesis.claimUnits, unit.id = claimId ∧
        ∃ claim ∈ result.rendered.claims, claim.text = unit.text ∧
          ∀ id, id ∈ claim.sourceIds ↔ ∃ evidenceId ∈ unit.evidenceIds,
            evidenceToSource result.compiled.sourceCatalog evidenceId = some id) ∨
    ∃ prose, text = prose ++ [32] ++ orphanedCitationToken)
    result.synthesis.blocks result.rendered.blockTexts

theorem synthesisAdmitted {evidence : List AgentEvidence} {item : AgentEvidence}
    (member : item ∈ synthesisEvidence evidence) : item ∈ evidence ∧ item.status = .admitted := by
  have admitted : item ∈ evidence.filter fun entry => entry.status = .admitted := by
    unfold synthesisEvidence at member
    dsimp only at member
    split at member
    · exact member
    · exact List.mem_of_mem_filter member
  simpa using List.mem_filter.mp admitted

theorem synthesizedParts {p evidence raw result} (h : synthesizeFromIR p evidence raw = some result) :
    validateSynthesisOutput p agentClaimMaxBytes (synthesisEvidence evidence) raw =
        .ok (result.synthesis,result.dropped) ∧
      result.compiled = compileSourceSet p agentMaxSources (synthesisEvidence evidence) ∧
      result.rendered = renderResultFromIR result.synthesis result.compiled ∧
      result.reportText = truncateReportToBlocks result.rendered.blockTexts agentReportMaxBytes := by
  unfold synthesizeFromIR at h
  dsimp only at h
  split at h <;> try contradiction
  split at h <;> try contradiction
  rename_i value dropped accepted
  cases Option.some.inj h
  exact ⟨accepted,rfl,rfl,rfl⟩

theorem synthesizedGrounded {p evidence raw result} (h : synthesizeFromIR p evidence raw = some result) :
    Grounded p evidence result := by
  obtain ⟨accepted,compiled,rendered,_⟩ := synthesizedParts h
  have valid := validated accepted
  rw [compiled] at rendered
  constructor
  · intro claim member
    rw [rendered] at member
    obtain ⟨unit,inside,made⟩ := List.mem_filterMap.mp member
    obtain ⟨_,text,cites,sources⟩ := claimSource valid inside made
    constructor
    · exact cites
    refine ⟨unit,inside,text,?_⟩
    intro id cited
    obtain ⟨evidenceId,named,resolved⟩ := (sources id).mp cited
    obtain ⟨entry,listed,public_,has⟩ := sourceFound resolved
    obtain ⟨item,found,same,key⟩ := catalogSource listed has
    have admitted := synthesisAdmitted found
    rw [compiled,rendered]
    exact ⟨entry,listed,public_,List.mem_map.mpr ⟨entry,listed,rfl⟩,item,admitted.1,admitted.2,same ▸ named,
      same ▸ has,same ▸ (catalogGroup listed).2 evidenceId has,key⟩
  · rw [rendered]
    refine List.forall₂_map_right_iff.mpr (List.forall₂_same.mpr ?_)
    intro block member
    obtain ⟨cites,known⟩ := valid.blocks block member
    by_cases verified : ∀ claimId ∈ block.claimUnitIds,
        (citation result.compiled.sourceCatalog (orphanedUnits result.compiled.sourceCatalog
          result.synthesis.claimUnits) result.synthesis.claimUnits claimId).isSome
    · refine .inl ⟨cites,fun claimId cited => ?_⟩
      obtain ⟨unit,inside,same,claim,made⟩ := citationResolved valid (known claimId cited)
        (verified claimId cited)
      obtain ⟨_,text,_,sources⟩ := claimSource valid inside made
      rw [compiled] at made sources ⊢
      exact ⟨unit,inside,same,claim,List.mem_filterMap.mpr ⟨unit,inside,made⟩,text,sources⟩
    · rw [compiled] at verified
      simp only [not_forall] at verified
      obtain ⟨claimId,cited,missing⟩ := verified
      refine .inr ?_
      unfold blockText
      dsimp only
      rw [if_pos]
      · exact ⟨_,rfl⟩
      · simp only [Bool.or_eq_true,List.any_eq_true]
        exact .inr ⟨_,List.mem_map.mpr ⟨claimId,cited,rfl⟩,by simpa using missing⟩

end Northstar.Agent
