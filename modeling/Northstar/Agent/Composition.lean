import Northstar.Measure
import Northstar.Agent.Compose
import Northstar.Agent.Catalog
import Northstar.Agent.Promotion
import Northstar.Agent.Support

/-! The evidence-only result over every run of the research loop: the contract accepts it, and
unless a warning of the caller is too long, each excerpt with a source within the cap is a claim. -/
namespace Northstar.Agent.Compose
open State Contract Intents

/- Texts. -/
theorem trimNone {s : JsString} : trim s = [] ↔ ∀ u ∈ s, whiteSpace u := by
  unfold trim
  rw [List.reverse_eq_nil_iff,List.dropWhile_eq_nil_iff]
  constructor
  · intro every u member
    by_contra solid
    have there : s.dropWhile whiteSpace ≠ [] := fun none_ => solid (List.dropWhile_eq_nil_iff.mp none_ u member)
    have head := List.head_dropWhile_not whiteSpace there
    rw [every _ (List.mem_reverse.mpr (List.head_mem there))] at head
    contradiction
  · intro every u member
    exact every u ((List.dropWhile_suffix whiteSpace).subset (List.mem_reverse.mp member))

theorem trimAgain {s : JsString} (some_ : trim s ≠ []) : trim (trim s) ≠ [] := by
  intro none_
  have every := trimNone.mp none_
  have inner : (s.dropWhile whiteSpace).reverse.dropWhile whiteSpace ≠ [] := fun h => some_ (by unfold trim; rw [h]; rfl)
  have head := List.head_dropWhile_not whiteSpace inner
  rw [every _ (List.mem_reverse.mpr (List.head_mem inner))] at head
  contradiction

theorem trimBytes (s : JsString) : byteLength (trim s) ≤ byteLength s := infixBytes (Verifier.trimInfix s)

theorem trimAfter {first : JsString} (solid : ∀ u ∈ first, whiteSpace u = false) (some_ : first ≠ []) (rest : JsString) :
    ∃ more, trim (first ++ rest) = first ++ more := by
  have front (text : JsString) : (first ++ text).dropWhile whiteSpace = first ++ text := by
    cases first with
    | nil => exact absurd rfl some_
    | cons u others =>
      rw [List.cons_append,List.dropWhile_cons,solid u List.mem_cons_self]
      rfl
  have back : first.reverse.dropWhile whiteSpace = first.reverse := by
    cases shape : first.reverse with
    | nil => rfl
    | cons u others =>
      have last : u ∈ first := List.mem_reverse.mp (shape ▸ List.mem_cons_self)
      rw [List.dropWhile_cons,solid u last]
      rfl
  unfold trim
  rw [front,List.reverse_append,List.dropWhile_append,back]
  split
  · exact ⟨[],by rw [List.reverse_reverse,List.append_nil]⟩
  · exact ⟨_,by rw [List.reverse_append,List.reverse_reverse]⟩

theorem joinedWith (texts : List JsString) (text : JsString) (some_ : texts ≠ []) :
    [10,10].intercalate (texts ++ [text]) = [10,10].intercalate texts ++ ([10,10] ++ text) := by
  induction texts with
  | nil => contradiction
  | cons first rest ih =>
    cases rest with
    | nil => simp [List.intercalate]
    | cons second more =>
      have later := ih (List.cons_ne_nil _ _)
      simp only [List.intercalate,List.cons_append,List.intersperse_cons_cons,List.flatten_cons] at later ⊢
      rw [later]
      simp only [List.append_assoc,List.cons_append,List.nil_append]

theorem keptFit {maxBytes : Nat} (blocks kept : List JsString) {used : Nat}
    (size : byteLength ([10,10].intercalate kept) ≤ used) (within : used ≤ maxBytes) :
    byteLength ([10,10].intercalate (keptBlocks maxBytes kept blocks used)) ≤ maxBytes := by
  induction blocks generalizing kept used with
  | nil => exact size.trans within
  | cons text rest ih =>
    rw [keptBlocks]
    generalize between : (if kept = [] then 0 else 2) = gap
    by_cases room : maxBytes < used + gap + byteLength text
    · rw [if_pos room]
      exact size.trans within
    · rw [if_neg room]
      refine ih (kept ++ [text]) ?_ (Nat.le_of_not_lt room)
      by_cases empty : kept = []
      · rw [empty,List.nil_append]
        simp only [List.intercalate,List.intersperse_singleton,List.flatten_cons,List.flatten_nil,List.append_nil]
        exact Nat.le_add_left _ _
      · rw [if_neg empty] at between
        rw [joinedWith kept text empty]
        have two : byteLength [10,10] = 2 := by decide
        have whole := appendBytes ([10,10].intercalate kept) ([10,10] ++ text)
        have part := appendBytes [10,10] text
        omega

theorem reportFits (blocks : List JsString) (maxBytes : Nat) :
    byteLength (truncateReportToBlocks blocks maxBytes) ≤ maxBytes := by
  unfold truncateReportToBlocks
  dsimp only
  split
  · exact truncatedBytes _ _
  · exact keptFit _ [] (Nat.le_refl _) (Nat.zero_le _)

variable {p : Platform}

/- The result is one the contract accepts. -/
theorem composeValid (query : JsString) (asked : trim query ≠ []) (s : AgentState) (warnings : List JsString)
    (stopReason : JsString) : validateAgentResult (composeEvidenceOnlyResult p query s warnings stopReason) := by
  have left : validateAgentResult (degraded (composed p query s warnings stopReason)) := by
    refine bareValid (trimAgain asked) (truncatedBytes _ _) fun warning member => ?_
    rcases List.mem_append.mp member with clipped | summary
    · obtain ⟨_,_,rfl⟩ := List.mem_map.mp clipped
      exact truncatedBytes _ _
    · rw [List.mem_singleton.mp summary]
      exact truncatedBytes _ _
  unfold composeEvidenceOnlyResult
  dsimp only
  split
  · assumption
  · exact left

/- Sources, as the collection numbers them. -/
def numbered : Nat → List JsString → List AgentSourceV1
  | _, [] => []
  | n, url :: rest => sourceAt n url :: numbered (n + 1) rest

theorem numberedUrls (n : Nat) (urls : List JsString) : (numbered n urls).map (·.url) = urls := by
  induction urls generalizing n with
  | nil => rfl
  | cons url rest ih =>
    rw [numbered,List.map_cons,ih]
    rfl

theorem numberedMore (n : Nat) (urls : List JsString) (url : JsString) :
    numbered n (urls ++ [url]) = numbered n urls ++ [sourceAt (n + urls.length) url] := by
  induction urls generalizing n with
  | nil => rfl
  | cons first rest ih =>
    rw [List.cons_append,numbered,numbered,ih,List.length_cons,List.cons_append,Nat.add_assoc,Nat.add_comm 1]

theorem numberedSize (n : Nat) (urls : List JsString) : (numbered n urls).length = urls.length := by
  have whole := congrArg List.length (numberedUrls n urls)
  rwa [List.length_map] at whole

/- The URLs of the sources there are, in the order of the ledger. -/
def sourceUrls (p : Platform) (entries : List Entry) : List JsString := (entries.filterMap (groupedUrl p)).eraseDups

theorem collected (entries : List Entry) {c : Collected} {urls : List JsString} (shape : c.sources = numbered 0 urls) :
    (collectSources p c entries).sources = numbered 0 (urls ++
      ((entries.filterMap (groupedUrl p)).filter fun url => !urls.contains url).eraseDups.take
        (agentMaxSources - urls.length)) := by
  induction entries generalizing c urls with
  | nil => simp [collectSources,shape]
  | cons entry rest ih =>
    unfold collectSources
    rw [List.filterMap_cons]
    cases found : groupedUrl p entry with
    | none =>
      dsimp only
      rw [ih (by exact shape)]
    | some url =>
      dsimp only
      have known : (c.sources.any fun source => source.url = url) = urls.contains url := by
        rw [shape,Bool.eq_iff_iff,List.any_eq_true,List.contains_iff_mem]
        constructor
        · rintro ⟨source,member,same⟩
          have inside := List.mem_map_of_mem (f := AgentSourceV1.url) member
          rw [numberedUrls,of_decide_eq_true same] at inside
          exact inside
        · intro member
          have inside : url ∈ (numbered 0 urls).map (·.url) := (numberedUrls 0 urls).symm ▸ member
          obtain ⟨source,among,same⟩ := List.mem_map.mp inside
          exact ⟨source,among,decide_eq_true same⟩
      rw [known]
      split
      · rename_i seen
        rw [List.filter_cons_of_neg (by simpa using seen)]
        exact ih shape
      · rename_i new
        rw [List.filter_cons_of_pos (by simpa using new),List.eraseDups_cons]
        have size : c.sources.length = urls.length := by rw [shape,numberedSize]
        split
        · rename_i full
          rw [size] at full
          rw [Nat.sub_eq_zero_of_le full,List.take_zero,List.append_nil]
          exact shape
        · rename_i room
          have left : agentMaxSources - urls.length = agentMaxSources - (urls ++ [url]).length + 1 := by
            rw [List.length_append,List.length_singleton]
            omega
          rw [left,List.take_succ_cons]
          have shaped : c.sources ++ [sourceAt c.sources.length url] = numbered 0 (urls ++ [url]) := by
            rw [numberedMore,shape,numberedSize,Nat.zero_add]
          have later := @ih { c with sources := c.sources ++ [sourceAt c.sources.length url] } (urls ++ [url]) shaped
          rw [later]
          congr 1
          rw [List.append_assoc,List.singleton_append]
          congr 3
          rw [List.filter_filter]
          congr 1
          apply List.filter_congr
          intro other _
          simp [Bool.and_comm,Bool.beq_eq_decide_eq]

theorem collectedAll (s : AgentState) : (collectSources p ⟨[],false,0⟩ s.admittedEvidence).sources =
    numbered 0 ((sourceUrls p s.admittedEvidence).take agentMaxSources) := by
  have whole := @collected p s.admittedEvidence ⟨[],false,0⟩ [] rfl
  simpa [sourceUrls] using whole

/- A source's URL. -/
structure KeepsHttp (p : Platform) : Prop where
  tidy : ∀ text tidied, isHttpUrl text → p.tidyUrl text = some tidied → isHttpUrl tidied
  lower : ∀ text, isHttpUrl text → isHttpUrl (p.toLowerCase text)

theorem httpShape {text : JsString} : isHttpUrl text ↔ ∃ scheme ∈ [js "http://",js "https://"], ∃ first rest,
    text = first ++ rest ∧ first.map lowerAscii = scheme := by
  simp only [isHttpUrl,Bool.or_eq_true,List.isPrefixOf_iff_prefix,List.mem_cons,List.not_mem_nil,or_false,
    exists_eq_or_imp,exists_eq_left]
  have each (scheme : JsString) : scheme <+: text.map lowerAscii ↔
      ∃ first rest, text = first ++ rest ∧ first.map lowerAscii = scheme := by
    constructor
    · rintro ⟨rest,whole⟩
      obtain ⟨first,others,parts,lowered,_⟩ := List.map_eq_append_iff.mp whole.symm
      exact ⟨first,others,parts,lowered⟩
    · rintro ⟨first,rest,rfl,lowered⟩
      rw [List.map_append,lowered]
      exact List.prefix_append _ _
  rw [each,each]

theorem blankKept {u : UInt16} (blank : whiteSpace u) : lowerAscii u = u := by
  unfold lowerAscii
  split
  · rename_i letter
    simp only [Bool.and_eq_true,decide_eq_true_eq,UInt16.le_iff_toNat_le] at letter
    simp only [whiteSpace,Bool.or_eq_true,Bool.and_eq_true,decide_eq_true_eq,UInt16.le_iff_toNat_le,
      ← UInt16.toNat_inj] at blank
    simp at letter blank
    omega
  · rfl

theorem schemeSolid : ([js "http://",js "https://"].all fun scheme =>
    scheme ≠ [] && scheme.all fun u => !whiteSpace u) = true := by
  decide

theorem httpTrim {text : JsString} (http : isHttpUrl text) : isHttpUrl (trim text) := by
  obtain ⟨scheme,member,first,rest,rfl,lowered⟩ := httpShape.mp http
  have shape := List.all_eq_true.mp schemeSolid scheme member
  simp only [Bool.and_eq_true,decide_eq_true_eq,List.all_eq_true,Bool.not_eq_true'] at shape
  have solid : ∀ u ∈ first, whiteSpace u = false := by
    intro u inside
    cases blank : whiteSpace u with
    | false => rfl
    | true =>
      have there := List.mem_map_of_mem (f := lowerAscii) inside
      rw [blankKept blank,lowered] at there
      exact absurd (blank.symm.trans (shape.2 u there)) Bool.true_eq_false.mp
  have some_ : first ≠ [] := by
    rintro rfl
    exact shape.1 lowered.symm
  obtain ⟨more,whole⟩ := trimAfter solid some_ rest
  exact httpShape.mpr ⟨scheme,member,first,more,whole,lowered⟩

theorem normalizedHttp (keeps : KeepsHttp p) {text : JsString} (http : isHttpUrl text) : isHttpUrl (normalizeUrl p text) := by
  have trimmed := httpTrim http
  unfold normalizeUrl
  cases tidied : p.tidyUrl (trim text) with
  | none => exact keeps.lower _ trimmed
  | some url => exact keeps.tidy _ url trimmed tidied

theorem formatted {provider nodeId field url : JsString} (made : formatStructuredSourceUrl provider nodeId field = some url) :
    isStructuredSourceUrl url := by
  unfold formatStructuredSourceUrl at made
  dsimp only at made
  split at made
  · rename_i fits
    exact Option.some.inj made ▸ fits
  · contradiction

theorem structuredUrl {entry : AgentEvidence} {key : SourceKey} (keyed : structuredLedgerKey p entry = some key) :
    isStructuredSourceUrl key.url := by
  unfold structuredLedgerKey at keyed
  split at keyed
  · contradiction
  · split at keyed
    · obtain ⟨url,made,rfl⟩ := Option.map_eq_some_iff.mp keyed
      exact formatted made
    · dsimp only at keyed
      split at keyed
      · contradiction
      · obtain ⟨url,made,rfl⟩ := Option.map_eq_some_iff.mp keyed
        exact formatted made

theorem groupedValid (keeps : KeepsHttp p) {entry : Entry} {url : JsString} (sound : entry.source.identity.Sound)
    (grouped : groupedUrl p entry = some url) : isHttpUrl url ∨ isStructuredSourceUrl url := by
  obtain ⟨key,keyed,rfl⟩ := Option.map_eq_some_iff.mp grouped
  unfold evidenceSourceKey at keyed
  split at keyed
  · cases Option.some.inj keyed
    cases source : entry.source.identity with
    | url text =>
      rw [source] at sound
      simp only [Entry.toAgentEvidence,EvidenceSource.canonicalUrl,source]
      exact .inl (normalizedHttp keeps sound)
    | structured source_ =>
      rename_i some_
      exact absurd (by simp only [Entry.toAgentEvidence,EvidenceSource.canonicalUrl,source]) some_
  · exact .inr (structuredUrl keyed)

/- The composed result breaks no rule but, with a long warning of the caller, the one on warnings. -/
theorem numberedMember {n : Nat} {urls : List JsString} {url : JsString} (member : url ∈ urls) :
    ∃ source ∈ numbered n urls, source.url = url := by
  have inside : url ∈ (numbered n urls).map (·.url) := (numberedUrls n urls).symm ▸ member
  exact List.mem_map.mp inside

theorem sourceNamed (n : Nat) (url : JsString) : (sourceAt n url).id ≠ [] :=
  List.append_ne_nil_of_left_ne_nil (by decide) _

theorem numberedId {n : Nat} {urls : List JsString} {source : AgentSourceV1} (member : source ∈ numbered n urls) :
    source.id ≠ [] := by
  induction urls generalizing n with
  | nil => exact (List.not_mem_nil member).elim
  | cons url rest ih =>
    rw [numbered] at member
    rcases List.mem_cons.mp member with rfl | later
    · exact sourceNamed n url
    · exact ih later

theorem numberedIssues {urls : List JsString} (valid : ∀ url ∈ urls, isHttpUrl url ∨ isStructuredSourceUrl url)
    {before : List JsString} {n : Nat} (fresh : ∀ k, n ≤ k → js "src-" ++ js (toString k) ∉ before) (index : Nat) :
    sourcesIssues before index (numbered n urls) = [] := by
  induction urls generalizing before n index with
  | nil => rfl
  | cons url rest ih =>
    have named_ : (sourceAt n url).id = js "src-" ++ js (toString n) := rfl
    have new : before.contains (sourceAt n url).id = false := by
      rw [named_]
      simpa using fresh n (Nat.le_refl n)
    have anchored : (!isHttpUrl (sourceAt n url).url && !isStructuredSourceUrl (sourceAt n url).url) = false := by
      rcases valid url List.mem_cons_self with http | structured
      · simp [sourceAt,http]
      · simp [sourceAt,structured]
    have stays : ∀ k, n + 1 ≤ k → js "src-" ++ js (toString k) ∉ before ++ [(sourceAt n url).id] := by
      intro k above among
      rcases List.mem_append.mp among with old | last
      · exact fresh k (by omega) old
      · have same := indexText ((List.mem_singleton.mp last).trans named_)
        omega
    have later := ih (fun other member => valid other (List.mem_cons_of_mem _ member)) stays (index + 1)
    rw [numbered,sourcesIssues,later,List.append_nil]
    unfold sourceIssues
    rw [if_neg (sourceNamed n url),new,anchored]
    rfl

theorem claimFine {ids : List JsString} {claim : AgentClaim} (some_ : trim claim.text ≠ [])
    (short : byteLength claim.text ≤ agentClaimMaxBytes) {id : JsString} (known : id ∈ ids) (cites : claim.sourceIds = [id])
    (index : Nat) : claimIssues ids (claim,index) = [] := by
  have within : longText claim.text agentClaimMaxBytes = false := by simpa [longText] using short
  unfold claimIssues
  dsimp only
  rw [if_neg some_,within,cites]
  simp [when_,known]

theorem sourceFoundOf {sources : List AgentSourceV1} {entry : Entry} {id : JsString}
    (found : sourceIdOf p sources entry = some id) : ∃ source ∈ sources, source.id = id ∧ groupedUrl p entry = some source.url := by
  obtain ⟨url,grouped,at_⟩ := Option.bind_eq_some_iff.mp found
  obtain ⟨source,first,same⟩ := Option.map_eq_some_iff.mp at_
  have there : source.url = url := by simpa using List.find?_some first
  exact ⟨source,List.mem_of_find?_eq_some first,same,there ▸ grouped⟩

theorem claimSound {sources : List AgentSourceV1} {entry : Entry} {claim : AgentClaim}
    (made : claimOf p sources entry = some claim) : trim claim.text ≠ [] ∧ byteLength claim.text ≤ agentClaimMaxBytes ∧
      ∃ source ∈ sources, claim.sourceIds = [source.id] := by
  obtain ⟨id,found,text⟩ := Option.bind_eq_some_iff.mp made
  obtain ⟨source,member,same,_⟩ := sourceFoundOf found
  dsimp only at text
  split at text
  · contradiction
  · rename_i some_
    cases Option.some.inj text
    exact ⟨some_,truncatedBytes _ _,source,member,by rw [same]⟩

theorem sourceUrlsGrouped {entries : List Entry} {url : JsString} (member : url ∈ sourceUrls p entries) :
    ∃ entry ∈ entries, groupedUrl p entry = some url :=
  List.mem_filterMap.mp (List.mem_eraseDups.mp member)

theorem ownWarnings (warnings : List JsString) (stopReason : JsString) (c : Collected) :
    (∀ warning ∈ allWarnings warnings stopReason c, byteLength warning ≤ agentWarningMaxBytes) ↔
      ∀ warning ∈ warnings, byteLength warning ≤ agentWarningMaxBytes := by
  have own : byteLength (js "evidence-only source cap reached") ≤ agentWarningMaxBytes ∧
      byteLength evidenceOnlyEmptyWarning ≤ agentWarningMaxBytes := by
    decide
  have capped (text : JsString) : byteLength (cappedWarning text) ≤ agentWarningMaxBytes := truncatedBytes _ _
  constructor
  · intro every warning member
    refine every warning ?_
    unfold allWarnings
    simp only [List.append_assoc]
    exact List.mem_append_left _ member
  · intro every warning member
    unfold allWarnings at member
    simp only [List.mem_append,List.mem_singleton,or_assoc] at member
    rcases member with given | stopped | capHit | unclaimed | empty
    · exact every warning given
    · rw [stopped]
      exact capped _
    · split at capHit
      · rw [List.mem_singleton.mp capHit]
        exact own.1
      · exact (List.not_mem_nil capHit).elim
    · split at unclaimed
      · rw [List.mem_singleton.mp unclaimed]
        exact capped _
      · exact (List.not_mem_nil unclaimed).elim
    · split at empty
      · rw [List.mem_singleton.mp empty]
        exact own.2
      · exact (List.not_mem_nil empty).elim

theorem composedValid (keeps : KeepsHttp p) {query : JsString} (asked : trim query ≠ []) {s : AgentState}
    (sound : ∀ entry ∈ s.admittedEvidence, entry.source.identity.Sound) (warnings : List JsString) (stopReason : JsString) :
    validateAgentResult (composed p query s warnings stopReason) ↔
      ∀ warning ∈ warnings, byteLength warning ≤ agentWarningMaxBytes := by
  have sources := collectedAll (p := p) s
  generalize shape : collectSources p ⟨[],false,0⟩ s.admittedEvidence = c at sources
  have few : agentMaxSources < c.sources.length ↔ False := by
    rw [sources,numberedSize,List.length_take]
    exact iff_false_intro (Nat.not_lt.mpr (Nat.min_le_left _ _))
  have anchored : sourcesIssues [] 0 c.sources = [] := by
    rw [sources]
    refine numberedIssues (fun url member => ?_) (fun _ _ => List.not_mem_nil) 0
    obtain ⟨entry,admitted,grouped⟩ := sourceUrlsGrouped (List.mem_of_mem_take member)
    exact groupedValid keeps (sound entry admitted) grouped
  have cited : (((orderedEntries s.questions s.admittedEvidence).filterMap (claimOf p c.sources)).zipIdx.flatMap
      (claimIssues ((c.sources.map (·.id)).filter fun id => id ≠ []))) = [] := by
    refine List.flatMap_eq_nil_iff.mpr fun indexed member => ?_
    obtain ⟨entry,_,made⟩ := List.mem_filterMap.mp (List.fst_mem_of_mem_zipIdx member)
    obtain ⟨some_,short,source,among,cites⟩ := claimSound made
    have named_ := numberedId (sources ▸ among)
    exact claimFine some_ short (List.mem_filter.mpr ⟨List.mem_map_of_mem among,decide_eq_true named_⟩) cites indexed.2
  have issues : resultIssues (composed p query s warnings stopReason) = warningIssues (allWarnings warnings stopReason c) := by
    have report : longText (truncateReportToBlocks (reportBlocks p s.questions c.sources s.admittedEvidence)
        agentReportMaxBytes) agentReportMaxBytes = false := by
      simpa [longText] using reportFits (reportBlocks p s.questions c.sources s.admittedEvidence) agentReportMaxBytes
    unfold resultIssues composed
    dsimp only
    rw [shape,anchored,cited,report]
    simp [when_,trimAgain asked,few]
  unfold validateAgentResult
  rw [issues,List.isEmpty_iff,warningsFit,ownWarnings]

/- Each admitted entry comes up once. -/
theorem claimNextMember {wanted : Entry → Bool} {ordered : List Entry} {entry other : Entry}
    (member : other ∈ claimNext wanted ordered entry) : other ∈ ordered ∨ other = entry := by
  unfold claimNext at member
  split at member
  · rcases List.mem_append.mp member with before | last
    · exact .inl before
    · exact .inr (List.mem_singleton.mp last)
  · exact .inl member

theorem claimNextKeeps {wanted : Entry → Bool} {ordered : List Entry} {entry other : Entry} (member : other ∈ ordered) :
    other ∈ claimNext wanted ordered entry := by
  unfold claimNext
  split
  · exact List.mem_append_left _ member
  · exact member

theorem claimedMember {wanted : Entry → Bool} {admitted ordered : List Entry} {other : Entry}
    (member : other ∈ admitted.foldl (claimNext wanted) ordered) : other ∈ ordered ∨ other ∈ admitted := by
  induction admitted generalizing ordered with
  | nil => exact .inl member
  | cons entry rest ih =>
    rcases ih member with next | later
    · rcases claimNextMember next with before | rfl
      · exact .inl before
      · exact .inr List.mem_cons_self
    · exact .inr (List.mem_cons_of_mem _ later)

theorem claimedKeeps {wanted : Entry → Bool} {admitted ordered : List Entry} {other : Entry} (member : other ∈ ordered) :
    other ∈ admitted.foldl (claimNext wanted) ordered := by
  induction admitted generalizing ordered with
  | nil => exact member
  | cons entry rest ih => exact ih (claimNextKeeps member)

theorem claimedAll {admitted ordered : List Entry} {entry : Entry} (member : entry ∈ admitted) :
    ∃ other ∈ admitted.foldl (claimNext fun _ => true) ordered, other.id = entry.id := by
  induction admitted generalizing ordered with
  | nil => exact (List.not_mem_nil member).elim
  | cons first rest ih =>
    rcases List.mem_cons.mp member with rfl | later
    · have there : ∃ other ∈ claimNext (fun _ => true) ordered entry, other.id = entry.id := by
        unfold claimNext
        split
        · exact ⟨entry,List.mem_append_right _ List.mem_cons_self,rfl⟩
        · rename_i known
          simpa using known
      obtain ⟨other,inside,same⟩ := there
      have kept : other ∈ rest.foldl (claimNext fun _ => true) (claimNext (fun _ => true) ordered entry) := claimedKeeps inside
      exact ⟨other,kept,same⟩
    · exact ih later

theorem linkedMember {questions : List AgentQuestion} {admitted ordered : List Entry}
    (held : ∀ other ∈ ordered, other ∈ admitted) {entry : Entry}
    (member : entry ∈ questions.foldl (fun ordered question =>
      admitted.foldl (claimNext fun entry => entry.questionIds.contains question.id) ordered) ordered) :
    entry ∈ admitted := by
  induction questions generalizing ordered with
  | nil => exact held entry member
  | cons question rest ih => exact ih (fun other inside => (claimedMember inside).elim (held other) id) member

theorem orderedMember {questions : List AgentQuestion} {admitted : List Entry} {entry : Entry}
    (member : entry ∈ orderedEntries questions admitted) : entry ∈ admitted :=
  (claimedMember member).elim (linkedMember fun _ none_ => (List.not_mem_nil none_).elim) id

theorem orderedAll (questions : List AgentQuestion) {admitted : List Entry} (once : (admitted.map (·.id)).Nodup)
    {entry : Entry} (member : entry ∈ admitted) : entry ∈ orderedEntries questions admitted := by
  obtain ⟨other,inside,same⟩ : ∃ other ∈ orderedEntries questions admitted, other.id = entry.id := claimedAll member
  exact List.inj_on_of_nodup_map once (orderedMember inside) member same ▸ inside

/- What the checks let in. -/
structure Admissible (entry : Entry) : Prop where
  identity : entry.source.identity.Sound
  text : trim entry.excerpt ≠ []
  short : byteLength entry.excerpt ≤ agentEvidenceExcerptMaxBytes

theorem checkedAdmissible {t : Tables} {input : AgentEvidenceInput} {entry : Entry} (ok : checkEvidence t input = .ok entry) :
    Admissible entry := by
  have sound := (checkedEntry ok).identity
  unfold checkEvidence at ok
  simp only [bind,Except.bind,pure,Except.pure,throw,throwThe,MonadExceptOf.throw] at ok
  split at ok; contradiction
  rename_i some_
  split at ok; contradiction
  rename_i fits
  split at ok; contradiction
  split at ok; contradiction
  split at ok
  · split at ok; contradiction
    split at ok; contradiction
    split at ok; contradiction
    split at ok; contradiction
    cases ok
    exact ⟨sound,some_,Nat.le_of_not_lt fits⟩
  · contradiction

variable {w : Web}

theorem stepAdmissible {s : AgentState} (sane : Evaluation.Sane s) (held : ∀ entry ∈ s.admittedEvidence, Admissible entry)
    (e : Evaluation.Event) : ∀ entry ∈ (Evaluation.step w s e).admittedEvidence, Admissible entry := by
  cases e with
  | question input =>
    rcases Evaluation.stepQuestion (w := w) s input with same | ⟨_,_,_,is⟩
    · rw [same]
      exact held
    · rw [is]
      exact held
  | query input =>
    rw [show (Evaluation.step w s (.query input)).admittedEvidence = s.admittedEvidence from
      (Evaluation.queryKept w.toTables s input).2]
    exact held
  | evidence input =>
    change ∀ entry ∈ (addEvidence w.toTables s input).1.admittedEvidence, Admissible entry
    unfold addEvidence
    split
    · exact held
    · rename_i entry ok
      have grown : ∀ other ∈ State.admitEntry s.admittedEvidence entry, Admissible other :=
        gatherEvery (checkedAdmissible ok) (fun _ old _ => ⟨old.identity,old.text,old.short⟩) held
      split
      · exact grown
      · split
        · exact held
        · exact grown
  | evaluation researchSources raw =>
    rw [Evaluation.stepEvaluation]
    cases Evaluation.validateEvaluation w s researchSources raw with
    | none => exact held
    | some value =>
      change ∀ entry ∈ (Evaluation.applyEvaluation s value).admittedEvidence, Admissible entry
      rw [Evaluation.evaluationEvidence sane value]
      exact held

theorem runAdmissible (goal : JsString) (events : List Evaluation.Event) :
    ∀ entry ∈ (events.foldl (Evaluation.step w) (createAgentState goal)).admittedEvidence, Admissible entry :=
  (runInvariant (I := fun s => Evaluation.Sane s ∧ ∀ entry ∈ s.admittedEvidence, Admissible entry)
    ⟨Evaluation.createdSane goal,fun _ member => (List.not_mem_nil member).elim⟩
    (fun _ e held => ⟨Evaluation.stepSane held.1 e,stepAdmissible held.1 held.2 e⟩) events).2

/- An excerpt that is a claim of a result, with the source of its entry. -/
def Cited (result : AgentResultV1) (excerpt url : JsString) : Prop :=
  ∃ source ∈ result.sources, source.url = url ∧ ⟨trim excerpt,[source.id]⟩ ∈ result.claims

theorem composedCites {s : AgentState} {query : JsString} {warnings : List JsString} {stopReason : JsString} {entry : Entry}
    (admitted : entry ∈ s.admittedEvidence) (admissible : Admissible entry) {url : JsString}
    (grouped : groupedUrl p entry = some url) (within : url ∈ (sourceUrls p s.admittedEvidence).take agentMaxSources) :
    Cited (composed p query s warnings stopReason) entry.excerpt url := by
  have sources := collectedAll (p := p) s
  obtain ⟨other,member,same⟩ := numberedMember (n := 0) within
  have some_ : (numbered 0 ((sourceUrls p s.admittedEvidence).take agentMaxSources)).find?
      (fun source => source.url = url) ≠ none := fun none_ =>
    absurd (decide_eq_true same) (List.find?_eq_none.mp none_ other member)
  obtain ⟨source,found⟩ := Option.ne_none_iff_exists'.mp some_
  have there : source.url = url := by simpa using List.find?_some found
  have among : source ∈ (composed p query s warnings stopReason).sources := by
    change source ∈ (collectSources p ⟨[],false,0⟩ s.admittedEvidence).sources
    rw [sources]
    exact List.mem_of_find?_eq_some found
  refine ⟨source,among,there,?_⟩
  refine List.mem_filterMap.mpr ⟨entry,orderedAll s.questions s.distinct admitted,?_⟩
  have id : sourceIdOf p (collectSources p ⟨[],false,0⟩ s.admittedEvidence).sources entry = some source.id := by
    unfold sourceIdOf
    rw [sources,grouped,Option.bind_some,found]
    rfl
  have whole : truncateUtf8Bytes (trim entry.excerpt) agentClaimMaxBytes = trim entry.excerpt :=
    if_pos (((trimBytes entry.excerpt).trans admissible.short).trans (by decide))
  unfold claimOf
  rw [id,Option.bind_some]
  dsimp only
  rw [whole,if_neg (trimAgain admissible.text)]

theorem refusedBare {s : AgentState} {query : JsString} {warnings : List JsString} {stopReason : JsString}
    (refused : ¬validateAgentResult (composed p query s warnings stopReason)) :
    (composeEvidenceOnlyResult p query s warnings stopReason).claims = [] ∧
      (composeEvidenceOnlyResult p query s warnings stopReason).sources = [] := by
  unfold composeEvidenceOnlyResult
  dsimp only
  rw [if_neg refused]
  split
  · exact ⟨rfl,rfl⟩
  · exact ⟨rfl,rfl⟩

/-- Over every run of the loop the evidence-only result is one the contract accepts. With warnings
within their bound each excerpt whose source is within the cap is a claim; with a longer one the
result has neither claims nor sources. -/
theorem evidenceOnlyResult (w : Web) (keeps : KeepsHttp w.toPlatform) (goal : JsString) (events : List Evaluation.Event)
    (query : JsString) (asked : trim query ≠ []) (warnings : List JsString) (stopReason : JsString) :
    let s := events.foldl (Evaluation.step w) (createAgentState goal)
    let result := composeEvidenceOnlyResult w.toPlatform query s warnings stopReason
    validateAgentResult result ∧
      ((∀ warning ∈ warnings, byteLength warning ≤ agentWarningMaxBytes) → ∀ entry ∈ s.admittedEvidence,
        ∀ url ∈ (sourceUrls w.toPlatform s.admittedEvidence).take agentMaxSources,
          groupedUrl w.toPlatform entry = some url → Cited result entry.excerpt url) ∧
      ((∃ warning ∈ warnings, agentWarningMaxBytes < byteLength warning) → result.claims = [] ∧ result.sources = []) := by
  intro s result
  have admissible := runAdmissible (w := w) goal events
  have valid := composedValid keeps asked (fun entry member => (admissible entry member).identity) warnings stopReason
  refine ⟨composeValid query asked s warnings stopReason,fun short entry member url within grouped => ?_,?_⟩
  · have same : result = composed w.toPlatform query s warnings stopReason := if_pos (valid.mpr short)
    rw [same]
    exact composedCites member (admissible entry member) grouped within
  · rintro ⟨warning,member,long⟩
    exact refusedBare fun accepted => Nat.not_lt.mpr (valid.mp accepted warning member) long

/- One page is fetched. -/
def fetchedOnce : List Evaluation.Event := [.evidence (sampledOffer 0 [])]

theorem sampledKeeps : KeepsHttp Evaluation.sampledWeb.toPlatform :=
  ⟨fun _ _ http same => Option.some.inj same ▸ http,fun _ http => http⟩

theorem sampledFetched : (fetchedOnce.foldl (Evaluation.step Evaluation.sampledWeb) (createAgentState [])).admittedEvidence =
    [sampledEntry 0 []] := by
  rfl

theorem sampledUrl : groupedUrl Evaluation.sampledWeb.toPlatform (sampledEntry 0 []) = some (js "https://a.org/p") := by
  decide

theorem sampledWithin : js "https://a.org/p" ∈ (sourceUrls Evaluation.sampledWeb.toPlatform (fetchedOnce.foldl
    (Evaluation.step Evaluation.sampledWeb) (createAgentState [])).admittedEvidence).take agentMaxSources := by
  rw [sampledFetched]
  decide

theorem sampledCited : Cited (composeEvidenceOnlyResult Evaluation.sampledWeb.toPlatform (js "q") (fetchedOnce.foldl
    (Evaluation.step Evaluation.sampledWeb) (createAgentState [])) [] (js "deadline")) (js "x") (js "https://a.org/p") :=
  (evidenceOnlyResult Evaluation.sampledWeb sampledKeeps [] fetchedOnce (js "q") (by decide) [] (js "deadline")).2.1
    (fun _ none_ => (List.not_mem_nil none_).elim) (sampledEntry 0 []) (by rw [sampledFetched]; exact List.mem_cons_self)
    (js "https://a.org/p") sampledWithin sampledUrl

/- A warning of the caller that is one byte too long takes the claim away. -/
set_option maxRecDepth 16384 in
theorem claimLost : sampledEntry 0 [] ∈ (fetchedOnce.foldl (Evaluation.step Evaluation.sampledWeb)
      (createAgentState [])).admittedEvidence ∧
    groupedUrl Evaluation.sampledWeb.toPlatform (sampledEntry 0 []) = some (js "https://a.org/p") ∧
    js "https://a.org/p" ∈ (sourceUrls Evaluation.sampledWeb.toPlatform (fetchedOnce.foldl
      (Evaluation.step Evaluation.sampledWeb) (createAgentState [])).admittedEvidence).take agentMaxSources ∧
    (composeEvidenceOnlyResult Evaluation.sampledWeb.toPlatform (js "q") (fetchedOnce.foldl
      (Evaluation.step Evaluation.sampledWeb) (createAgentState [])) [List.replicate 2001 97] (js "deadline")).claims = [] := by
  refine ⟨by rw [sampledFetched]; exact List.mem_cons_self,sampledUrl,sampledWithin,(refusedBare fun accepted => ?_).1⟩
  have sound := fun entry member => (runAdmissible (w := Evaluation.sampledWeb) [] fetchedOnce entry member).identity
  have fits := (composedValid sampledKeeps (by decide) sound _ _).mp accepted _ List.mem_cons_self
  revert fits
  decide

end Northstar.Agent.Compose
