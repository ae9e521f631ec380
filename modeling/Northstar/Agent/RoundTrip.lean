import Northstar.Agent.Renaming

/-! From a claim's public sources back to evidence (agent-core.ts, agent-verifier.ts).
Compilation groups entries by evidenceSourceKey; the way back compares URLs, and the entry
of a structured identity has none. -/
namespace Northstar.Agent

def citedUrls (p : Platform) (claim : AgentClaim) (sources : List AgentSource) : List JsString :=
  claim.sourceIds.filterMap fun sourceId =>
    (sources.find? fun source => source.id = sourceId).map fun source => normalizeUrl p source.url

def claimEvidenceIds (p : Platform) (claim : AgentClaim) (sources : List AgentSource)
    (admitted : List AgentEvidence) : List JsString :=
  let urls := citedUrls p claim sources
  ((admitted.filter fun entry => entry.status = .admitted &&
    urls.contains (normalizeUrl p entry.sourceRef.canonicalUrl)).map (·.id)).eraseDups

inductive StructureCheck where
  | linked (entries : List AgentEvidence)
  | refused (reason : JsString)
  deriving DecidableEq, Repr

def duplicateId (seen : List JsString) : List JsString → Option JsString
  | [] => none
  | id :: rest => if seen.contains id then some id else duplicateId (id :: seen) rest

def verifyClaimStructure (text : JsString) (evidenceIds : List JsString) (evidence : List AgentEvidence) :
    StructureCheck :=
  if trim text = [] then .refused (js "empty claim text")
  else match duplicateId [] evidenceIds with
    | some id => .refused (js "duplicate evidence id: " ++ id)
    | none =>
        let unknown := evidenceIds.filter fun id => !evidence.any fun entry => entry.id = id
        if unknown ≠ [] then .refused (js "unknown evidence ids: " ++ [44].intercalate unknown)
        else
          let linked := evidenceIds.filterMap fun id => evidence.reverse.find? fun entry => entry.id = id
          if linked = [] then .refused (js "claim cites no evidence") else .linked linked

def admittedOnly (evidence : List AgentEvidence) : List AgentEvidence :=
  evidence.filter fun entry => entry.status = .admitted

theorem notDuplicate {seen ids : List JsString} (once : ids.Nodup) (new : ∀ id ∈ ids, id ∉ seen) :
    duplicateId seen ids = none := by
  induction ids generalizing seen with
  | nil => rfl
  | cons id rest ih =>
    obtain ⟨fresh,later⟩ := List.nodup_cons.mp once
    have unseen := new id List.mem_cons_self
    unfold duplicateId
    rw [if_neg (by simpa using unseen)]
    apply ih later
    intro other member
    have apart : other ≠ id := fun same => fresh (same ▸ member)
    simpa [apart] using new other (List.mem_cons_of_mem _ member)

theorem mappedEntry {p claim sources admitted id} :
    id ∈ claimEvidenceIds p claim sources admitted ↔ ∃ entry ∈ admitted, entry.status = .admitted ∧
      normalizeUrl p entry.sourceRef.canonicalUrl ∈ citedUrls p claim sources ∧ entry.id = id := by
  unfold claimEvidenceIds
  rw [List.mem_eraseDups]
  simp [List.mem_filter,and_assoc]

/- Nothing but the absence of a mapped entry makes a claim cite no evidence. -/
theorem structureCites {p claim sources evidence} (text : trim claim.text ≠ [])
    (some_ : claimEvidenceIds p claim sources (admittedOnly evidence) ≠ []) :
    verifyClaimStructure claim.text (claimEvidenceIds p claim sources (admittedOnly evidence))
      (admittedOnly evidence) ≠ .refused (js "claim cites no evidence") := by
  have known : ∀ id ∈ claimEvidenceIds p claim sources (admittedOnly evidence),
      ∃ entry ∈ admittedOnly evidence, entry.id = id := by
    intro id member
    obtain ⟨entry,inside,_,_,same⟩ := mappedEntry.mp member
    exact ⟨entry,inside,same⟩
  have none_ := @notDuplicate [] _ (distinctOnce ((List.filter (fun entry : AgentEvidence =>
    entry.status = .admitted && (citedUrls p claim sources).contains (normalizeUrl p
      entry.sourceRef.canonicalUrl)) (admittedOnly evidence)).map (·.id))) (by simp)
  unfold verifyClaimStructure
  rw [if_neg text]
  have once : duplicateId [] (claimEvidenceIds p claim sources (admittedOnly evidence)) = none := none_
  rw [once]
  dsimp only
  rw [if_neg,if_neg]
  · exact fun h => nomatch h
  · intro empty
    obtain ⟨id,member⟩ := List.exists_mem_of_ne_nil _ some_
    obtain ⟨entry,inside,same⟩ := known id member
    have found : ((admittedOnly evidence).reverse.find? fun entry => entry.id = id).isSome :=
      List.find?_isSome.mpr ⟨entry,List.mem_reverse.mpr inside,by simpa using same⟩
    obtain ⟨other,at_⟩ := Option.isSome_iff_exists.mp found
    have missing := List.filterMap_eq_nil_iff.mp empty id member
    rw [at_] at missing
    contradiction
  · rw [not_not,List.filter_eq_nil_iff]
    intro id member
    obtain ⟨entry,inside,same⟩ := known id member
    have found : ((admittedOnly evidence).any fun entry => entry.id = id) = true :=
      List.any_eq_true.mpr ⟨entry,inside,by simpa using same⟩
    simp [found]

/- Mapping back finds all kept evidence of a unit, and its claim is not judged to cite none. -/
structure MapsBack (p : Platform) (evidence : List AgentEvidence) (result : Synthesized)
    (unit : SynthesisClaimUnit) (claim : AgentClaim) : Prop where
  ids : ∀ id ∈ unit.evidenceIds, id ∈ result.compiled.selectedEvidenceIds →
    id ∈ claimEvidenceIds p claim result.rendered.sources (admittedOnly evidence)
  judged : (∃ id ∈ unit.evidenceIds, id ∈ result.compiled.selectedEvidenceIds) →
    verifyClaimStructure claim.text
      (claimEvidenceIds p claim result.rendered.sources (admittedOnly evidence))
      (admittedOnly evidence) ≠ .refused (js "claim cites no evidence")

def Cited (evidence : List AgentEvidence) (unit : SynthesisClaimUnit) (entry : AgentEvidence) : Prop :=
  entry ∈ evidence ∧ entry.status = .admitted ∧ entry.id ∈ unit.evidenceIds

/- Each cited entry has a cited entry (itself, where normalizing a second time changes
nothing) whose source URL is compared equal to its own URL. -/
def UrlsAgree (p : Platform) (evidence : List AgentEvidence) (unit : SynthesisClaimUnit) : Prop :=
  ∀ entry, Cited evidence unit entry → ∃ other key, Cited evidence unit other ∧
    evidenceSourceKey p other = some key ∧ normalizeUrl p key.url = normalizeUrl p entry.sourceRef.canonicalUrl

theorem sameEntry {evidence : List AgentEvidence} (distinct : (evidence.map (·.id)).Nodup)
    {a b : AgentEvidence} (left : a ∈ evidence) (right : b ∈ evidence) (same : a.id = b.id) : a = b :=
  List.inj_on_of_nodup_map distinct left right same

/- The URLs a claim cites are the keys of its unit's entries. -/
theorem citedUrl {p evidence raw result} (distinct : (evidence.map (·.id)).Nodup)
    (h : synthesizeFromIR p evidence raw = some result) {unit : SynthesisClaimUnit} {claim : AgentClaim}
    (member : unit ∈ result.synthesis.claimUnits)
    (made : claimOf result.compiled.sourceCatalog
      (orphanedUnits result.compiled.sourceCatalog result.synthesis.claimUnits) unit = some claim)
    (url : JsString) : url ∈ citedUrls p claim result.rendered.sources ↔
      ∃ other key, Cited evidence unit other ∧ evidenceSourceKey p other = some key ∧
        normalizeUrl p key.url = url := by
  obtain ⟨accepted,compiled,rendered,_⟩ := synthesizedParts h
  have valid := validated accepted
  obtain ⟨kept,_,_,sources⟩ := claimSource valid member made
  have catalog : (result.compiled.sourceCatalog.map (·.publicId)).Nodup :=
    compiled ▸ catalogIds p agentMaxSources (synthesisEvidence evidence)
  have listed : result.rendered.sources = result.compiled.sourceCatalog.map derivedSource := by
    rw [rendered]
    rfl
  have source {entry : CatalogEntry} (inside : entry ∈ result.compiled.sourceCatalog) :
      result.rendered.sources.find? (fun source => source.id = entry.publicId) = some (derivedSource entry) := by
    have ids : (result.rendered.sources.map (·.id)).Nodup := by
      rw [listed,List.map_map]
      exact catalog
    exact foundByKey ids (listed ▸ List.mem_map.mpr ⟨entry,inside,rfl⟩)
  unfold citedUrls
  rw [List.mem_filterMap]
  constructor
  · intro found
    obtain ⟨publicId,cites,at_⟩ := found
    obtain ⟨evidenceId,named,resolved⟩ := (sources publicId).mp cites
    obtain ⟨entry,inside,rfl,has⟩ := sourceFound resolved
    rw [source inside] at at_
    obtain ⟨item,among,same,key⟩ := catalogSource (compiled ▸ inside) has
    obtain ⟨here,admitted⟩ := synthesisAdmitted among
    obtain ⟨found,keyed,url'⟩ := Option.map_eq_some_iff.mp key
    refine ⟨item,found,⟨here,admitted,same ▸ named⟩,keyed,?_⟩
    rw [url']
    exact Option.some.inj at_
  · intro found
    obtain ⟨other,key,⟨here,admitted,named⟩,keyed,rfl⟩ := found
    have resolved := (not_congr (orphanedUnit result.compiled.sourceCatalog
      valid.distinct member)).mp kept
    simp only [not_or,not_exists,not_and] at resolved
    obtain ⟨publicId,found⟩ := Option.ne_none_iff_exists'.mp (resolved.2 other.id named)
    obtain ⟨entry,inside,rfl,has⟩ := sourceFound found
    obtain ⟨item,among,same,url'⟩ := catalogSource (compiled ▸ inside) has
    have one := sameEntry distinct (synthesisAdmitted among).1 here same
    rw [one,keyed] at url'
    refine ⟨entry.publicId,(sources _).mpr ⟨other.id,named,found⟩,?_⟩
    rw [source inside]
    have alike : key.url = entry.canonicalUrl := Option.some.inj url'
    rw [alike]
    rfl

/-- The way back finds the evidence of a claim exactly where the cited entries' own URLs
agree with the URLs of the cited sources. -/
theorem sourcesMapBack (p : Platform) (evidence : List AgentEvidence) (raw : JsValue)
    (result : Synthesized) (distinct : (evidence.map (·.id)).Nodup)
    (h : synthesizeFromIR p evidence raw = some result) (unit : SynthesisClaimUnit)
    (member : unit ∈ result.synthesis.claimUnits) (claim : AgentClaim)
    (made : claimOf result.compiled.sourceCatalog
      (orphanedUnits result.compiled.sourceCatalog result.synthesis.claimUnits) unit = some claim) :
    MapsBack p evidence result unit claim ↔ UrlsAgree p evidence unit := by
  obtain ⟨accepted,compiled,_,_⟩ := synthesizedParts h
  have valid := validated accepted
  have urls := citedUrl distinct h member made
  obtain ⟨kept,text,_,_⟩ := claimSource valid member made
  have resolved := (not_congr (orphanedUnit result.compiled.sourceCatalog
    valid.distinct member)).mp kept
  simp only [not_or,not_exists,not_and] at resolved
  have selected : ∀ id ∈ unit.evidenceIds, id ∈ result.compiled.selectedEvidenceIds := by
    intro id named
    obtain ⟨publicId,found⟩ := Option.ne_none_iff_exists'.mp (resolved.2 id named)
    obtain ⟨entry,inside,_,has⟩ := sourceFound found
    rw [compiled] at inside ⊢
    exact (catalogGroup inside).2 id has
  constructor
  · intro back entry cited
    obtain ⟨other,inside,_,agrees,same⟩ := mappedEntry.mp (back.ids entry.id cited.2.2 (selected _ cited.2.2))
    have one := sameEntry distinct (List.mem_of_mem_filter inside) cited.1 same
    exact (urls _).mp (one ▸ agrees)
  · intro agree
    have ids : ∀ id ∈ unit.evidenceIds,
        id ∈ claimEvidenceIds p claim result.rendered.sources (admittedOnly evidence) := by
      intro id named
      have admitted := (valid.units unit member).admitted id named
      obtain ⟨entry,among,same⟩ := List.mem_map.mp admitted
      obtain ⟨here,status⟩ := synthesisAdmitted (List.mem_of_mem_filter among)
      have agrees := (urls _).mpr (agree entry ⟨here,status,same ▸ named⟩)
      exact mappedEntry.mpr ⟨entry,List.mem_filter.mpr ⟨here,by simpa using status⟩,status,agrees,same⟩
    constructor
    · exact fun id named _ => ids id named
    · intro cites
      obtain ⟨id,named,_⟩ := cites
      exact structureCites (text ▸ (valid.units unit member).text) (List.ne_nil_of_mem (ids id named))

theorem quartzMapsBack : ∃ result unit claim,
    synthesizeFromIR quartzPlatform quartzEvidence quartzProposal = some result ∧
    (MapsBack quartzPlatform quartzEvidence result unit claim ↔ UrlsAgree quartzPlatform quartzEvidence unit) := by
  have made : (synthesizeFromIR quartzPlatform quartzEvidence quartzProposal).any fun result =>
      result.synthesis.claimUnits.any fun unit => (claimOf result.compiled.sourceCatalog
        (orphanedUnits result.compiled.sourceCatalog result.synthesis.claimUnits) unit).isSome := by
    decide +kernel
  obtain ⟨result,same,units⟩ := (Option.any_eq_true ..).mp made
  obtain ⟨unit,member,some_⟩ := List.any_eq_true.mp units
  obtain ⟨claim,claimed⟩ := Option.isSome_iff_exists.mp some_
  exact ⟨result,unit,claim,same,sourcesMapBack quartzPlatform quartzEvidence quartzProposal result
    (by decide) same unit member claim claimed⟩

/- One release fact of a knowledge graph: its source is the structured identity, which the
URL parser takes for an opaque URL; the entry's own URL is empty, which it refuses. -/
def graphPlatform : Platform where
  sha256hex s :=
    if s = js "Quartz 9 is the current release.\nev-2" then
      js "5e76a3b1b3da360144c4f6fb47cd78ab306f01e29e872b68cdc8dc19d4ef0a48"
    else []
  toLowerCase s := s
  tidyUrl s := if s = js "wikidata:Q-quartz-9/releaseNotes" then some s else none

def graphEvidence : List AgentEvidence :=
  [⟨js "ev-2",⟨[],some ⟨js "wikidata",js "quartz release"⟩,.docs,.kg⟩,
    .kg (js "Q-quartz-9") (js "releaseNotes"),[js "q-1"],.admitted,js "f-2"⟩]

def graphProposal : JsValue := .object
  [(js "claimUnits",.array [.object [(js "id",.string (js "u1")),
      (js "text",.string (js "Quartz 9 is the current release.")),
      (js "evidenceIds",.array [.string (js "ev-2")])]]),
   (js "blocks",.array [])]

theorem graphClaimUncited : ¬ ∀ (p : Platform) (evidence : List AgentEvidence) (raw : JsValue)
    (result : Synthesized), (evidence.map (·.id)).Nodup → synthesizeFromIR p evidence raw = some result →
    ∀ unit ∈ result.synthesis.claimUnits, ∀ claim, claimOf result.compiled.sourceCatalog
      (orphanedUnits result.compiled.sourceCatalog result.synthesis.claimUnits) unit = some claim →
      MapsBack p evidence result unit claim := by
  intro always
  have made : (synthesizeFromIR graphPlatform graphEvidence graphProposal).any fun result =>
      result.synthesis.claimUnits.any fun unit => (claimOf result.compiled.sourceCatalog
        (orphanedUnits result.compiled.sourceCatalog result.synthesis.claimUnits) unit).any fun claim =>
          unit.evidenceIds.any (fun id => result.compiled.selectedEvidenceIds.contains id) &&
          verifyClaimStructure claim.text (claimEvidenceIds graphPlatform claim result.rendered.sources
            (admittedOnly graphEvidence)) (admittedOnly graphEvidence) =
              .refused (js "claim cites no evidence") := by
    decide +kernel
  obtain ⟨result,same,units⟩ := (Option.any_eq_true ..).mp made
  obtain ⟨unit,member,claims⟩ := List.any_eq_true.mp units
  obtain ⟨claim,claimed,judged⟩ := (Option.any_eq_true ..).mp claims
  obtain ⟨kept,refused⟩ := Bool.and_eq_true_iff.mp judged
  obtain ⟨id,named,selected⟩ := List.any_eq_true.mp kept
  have back := always graphPlatform graphEvidence graphProposal result (by decide) same unit member
    claim claimed
  exact back.judged ⟨id,named,List.contains_iff_mem.mp selected⟩ (of_decide_eq_true refused)

end Northstar.Agent
