import Northstar.Agent.Evidence

/-! Evidence-only synthesis (agent-synthesizer.ts): the model's proposal is validated into
blocks and claim units, admitted evidence is grouped into a capped source catalog, and the
result's claims, sources and block texts are compiled from the two. -/
namespace Northstar.Agent

def maxSynthesisBlocks : Nat := 16
def maxSynthesisClaimUnits : Nat := 64
def maxBlockProseBytes : Nat := 4000
def maxSectionIdBytes : Nat := 120
def maxGapBytes : Nat := 512
def maxGaps : Nat := 8
def agentMaxSources : Nat := 20
def agentClaimMaxBytes : Nat := 5000
def agentReportMaxBytes : Nat := 50000
def orphanedCitationToken : JsString := js "[unverified citation omitted]"

structure SynthesisClaimUnit where
  id : JsString
  text : JsString
  evidenceIds : List JsString
  deriving DecidableEq, Repr

structure ReportBlock where
  id : JsString
  sectionId : JsString
  prose : JsString
  claimUnitIds : List JsString
  deriving DecidableEq, Repr

structure SynthesisOutput where
  blocks : List ReportBlock
  claimUnits : List SynthesisClaimUnit
  unresolvedGaps : List JsString
  deriving DecidableEq, Repr

structure Dropped where
  claimUnits : Nat
  blocks : Nat
  orphanedBlockIds : List JsString
  deriving DecidableEq, Repr

/- The order of two texts by code unit, as a stable sort is given it. -/
def textOrder (a b : JsString) : Bool := !decide (b < a)

def asStrings : JsValue → Option (List JsString)
  | .array items => items.mapM JsValue.asString
  | _ => none

/- Claim units. recomputedToClaim has the ids of the units kept so far as its keys. -/
structure UnitState where
  claimUnits : List SynthesisClaimUnit
  callerToRecomputed : List (JsString × JsString)
  dropped : Nat
  deriving DecidableEq, Repr

def claimUnitId (p : Platform) (text : JsString) (sorted : List JsString) : JsString :=
  js "cu-" ++ (p.sha256hex (text ++ [10] ++ [10].intercalate sorted)).take 16

def readClaimUnit (p : Platform) (admitted : List JsString) (maxClaimBytes : Nat) :
    JsValue → Option SynthesisClaimUnit
  | .object fields => do
      let raw ← ((JsValue.object fields).get "text").asString
      if trim raw = [] then none
      else
        let refs ← asStrings ((JsValue.object fields).get "evidenceIds")
        if refs = [] then none
        else
          let sorted := refs.eraseDups.mergeSort textOrder
          if sorted.any fun id => !admitted.contains id then none
          else
            let text := truncateUtf8Bytes raw maxClaimBytes
            if trim text = [] then none else some ⟨claimUnitId p text sorted,text,sorted⟩
  | _ => none

def callerId (entry : JsValue) : Option JsString :=
  (entry.get "id").asString.filter fun id => id ≠ []

/- First writer wins. -/
def register (caller : Option JsString) (id : JsString) (known : List (JsString × JsString)) :
    List (JsString × JsString) := match caller with
  | none => known
  | some name => if (known.lookup name).isSome then known else known ++ [(name,id)]

def claimUnitStep (p : Platform) (admitted : List JsString) (maxClaimBytes : Nat) (s : UnitState)
    (entry : JsValue) : UnitState :=
  if s.claimUnits.length ≥ maxSynthesisClaimUnits then { s with dropped := s.dropped + 1 }
  else match readClaimUnit p admitted maxClaimBytes entry with
    | none => { s with dropped := s.dropped + 1 }
    | some unit =>
        let known := register (callerId entry) unit.id s.callerToRecomputed
        if s.claimUnits.any fun other => other.id = unit.id then
          ⟨s.claimUnits,known,s.dropped + 1⟩
        else ⟨s.claimUnits ++ [unit],known,s.dropped⟩

/- Report blocks. -/
structure BlockState where
  blocks : List ReportBlock
  dropped : Nat
  orphaned : List (JsString × JsString)
  deriving DecidableEq, Repr

def resolveRefs (known : List (JsString × JsString)) :
    List JsString → List JsString → Option (List JsString)
  | resolved, [] => some resolved
  | resolved, ref :: rest => match known.lookup ref with
      | none => none
      | some mapped =>
          resolveRefs known (if resolved.contains mapped then resolved else resolved ++ [mapped]) rest

/- A dangling reference and a block without one end alike. -/
def blockUnits (known : List (JsString × JsString)) (refs : JsValue) : Option (List JsString) := do
  let names ← asStrings refs
  let resolved ← resolveRefs known [] names
  if resolved = [] then none else some resolved

def sectionOf (entry : JsValue) : JsString := match (entry.get "sectionId").asString with
  | none => js "report"
  | some raw =>
      if trim raw = [] then js "report"
      else
        let kept := trim (truncateUtf8Bytes raw maxSectionIdBytes)
        if kept = [] then js "report" else kept

def blockId (p : Platform) (sectionId prose : JsString) : JsString :=
  js "rb-" ++ (p.sha256hex (sectionId ++ [10] ++ prose)).take 12

def readProse : JsValue → Option JsString
  | .object fields => ((JsValue.object fields).get "prose").asString.filter fun prose =>
      trim prose ≠ [] && byteLength prose ≤ maxBlockProseBytes
  | _ => none

def blockStep (p : Platform) (known : List (JsString × JsString)) (s : BlockState)
    (indexed : JsValue × Nat) : BlockState :=
  let entry := indexed.1
  if s.blocks.length ≥ maxSynthesisBlocks then { s with dropped := s.dropped + 1 }
  else match readProse entry with
    | none => { s with dropped := s.dropped + 1 }
    | some prose => match blockUnits known (entry.get "claimUnitIds") with
        | none =>
            let rawId := (callerId entry).getD (js "block-" ++ js (toString indexed.2))
            ⟨s.blocks,s.dropped + 1,s.orphaned ++ [(rawId,p.sha256hex prose)]⟩
        | some resolved =>
            let sectionId := sectionOf entry
            let id := blockId p sectionId prose
            if s.blocks.any fun other => other.id = id then { s with dropped := s.dropped + 1 }
            else { s with blocks := s.blocks ++ [⟨id,sectionId,prose,resolved⟩] }

def readGap (gap : JsValue) : Option JsString :=
  (gap.asString.filter fun text => trim text ≠ []).map fun text => truncateUtf8Bytes text maxGapBytes

def orphanOrder (a b : JsString × JsString) : Bool :=
  decide (a.2 < b.2) || (!decide (b.2 < a.2) && textOrder a.1 b.1)

def asItems : JsValue → Option (List JsValue)
  | .array items => some items
  | _ => none

def synthesisIssues (raw : JsValue) : List String :=
  (if (asItems (raw.get "blocks")).isNone then ["blocks must be an array"] else []) ++
  (if (asItems (raw.get "claimUnits")).isNone then ["claimUnits must be an array"] else []) ++
  (match raw.get "unresolvedGaps" with
    | .undefined => []
    | gaps => if (asItems gaps).isNone then ["unresolvedGaps must be an array"] else [])

def readClaimUnits (p : Platform) (maxClaimBytes : Nat) (evidence : List AgentEvidence)
    (entries : List JsValue) : UnitState :=
  let admitted := (evidence.filter fun entry => entry.status = .admitted).map (·.id)
  entries.foldl (claimUnitStep p admitted maxClaimBytes) ⟨[],[],0⟩

def readBlocks (p : Platform) (known : List (JsString × JsString)) (entries : List JsValue) :
    BlockState :=
  entries.zipIdx.foldl (blockStep p known) ⟨[],0,[]⟩

def itemsOf (value : JsValue) : List JsValue := (asItems value).getD []

def validateSynthesisOutput (p : Platform) (maxClaimBytes : Nat) (evidence : List AgentEvidence)
    (raw : JsValue) : Except (List String) (SynthesisOutput × Dropped) := match raw with
  | .object fields =>
      let raw := JsValue.object fields
      if synthesisIssues raw ≠ [] then .error (synthesisIssues raw)
      else
        let units := readClaimUnits p maxClaimBytes evidence (itemsOf (raw.get "claimUnits"))
        let blocks := readBlocks p units.callerToRecomputed (itemsOf (raw.get "blocks"))
        let gaps := ((itemsOf (raw.get "unresolvedGaps")).filterMap readGap).take maxGaps
        .ok (⟨blocks.blocks,units.claimUnits,gaps⟩,
          ⟨units.dropped,blocks.dropped,(blocks.orphaned.mergeSort orphanOrder).map (·.1)⟩)
  | _ => .error ["synthesis must be an object"]

/- Source selection. -/
structure CatalogEntry where
  publicId : JsString
  canonicalUrl : JsString
  locator : Option (JsString × JsString)
  evidenceIds : List JsString
  deriving DecidableEq, Repr

structure CompiledSourceSet where
  selectedEvidenceIds : List JsString
  sourceCatalog : List CatalogEntry
  droppedEvidenceIds : List JsString
  deriving DecidableEq, Repr

structure SourceGroup where
  key : SourceKey
  items : List AgentEvidence
  deriving DecidableEq, Repr

def addToGroup (key : SourceKey) (entry : AgentEvidence) : List SourceGroup → List SourceGroup
  | [] => [⟨key,[entry]⟩]
  | group :: rest =>
      if group.key.url = key.url then { group with items := group.items ++ [entry] } :: rest
      else group :: addToGroup key entry rest

def groupStep (p : Platform) (s : List SourceGroup × List JsString) (entry : AgentEvidence) :
    List SourceGroup × List JsString := match evidenceSourceKey p entry with
  | none => (s.1,s.2 ++ [entry.id])
  | some key => (addToGroup key entry s.1,s.2)

def directSourceClass : SourceClass → Bool
  | .official | .docs | .repo | .academic => true
  | _ => false

structure Scored where
  url : JsString
  items : List AgentEvidence
  score : Nat
  leadClass : SourceClass
  locator : Option (JsString × JsString)
  deriving DecidableEq, Repr

def memberOrder (a b : AgentEvidence) : Bool :=
  decide (a.id < b.id) ||
    (!decide (b.id < a.id) && textOrder a.sourceRef.canonicalUrl b.sourceRef.canonicalUrl)

def scoreGroup (group : SourceGroup) : Scored :=
  let sortedItems := group.items.mergeSort memberOrder
  let questions := (group.items.flatMap (·.questionIds)).eraseDups
  let direct := if group.items.any fun entry => directSourceClass entry.sourceRef.sourceClass then 1 else 0
  let independent := (group.items.map (·.corroboratingFingerprint)).eraseDups
  ⟨group.key.url,sortedItems,questions.length * 3 + direct + independent.length,
    (sortedItems.head?.map (·.sourceRef.sourceClass)).getD .unknown,group.key.locator⟩

def scoreOrder (a b : Scored) : Bool := b.score < a.score || (a.score = b.score && textOrder a.url b.url)

def addToBucket (entry : Scored) : List (SourceClass × List Scored) → List (SourceClass × List Scored)
  | [] => [(entry.leadClass,[entry])]
  | bucket :: rest =>
      if bucket.1 = entry.leadClass then (bucket.1,bucket.2 ++ [entry]) :: rest
      else bucket :: addToBucket entry rest

/- The rounds end with the first one that no bucket reaches. -/
def roundRobin (buckets : List (SourceClass × List Scored)) : List Scored :=
  (List.range (buckets.foldl (fun n bucket => max n bucket.2.length) 0)).flatMap fun round =>
    buckets.filterMap fun bucket => bucket.2[round]?

def catalogEntry (indexed : Scored × Nat) : CatalogEntry :=
  ⟨js "src-" ++ js (toString indexed.2),indexed.1.url,indexed.1.locator,indexed.1.items.map (·.id)⟩

def selectGroups (groups : List SourceGroup) (maxSources : Nat) : List Scored :=
  let scored := (groups.map scoreGroup).mergeSort scoreOrder
  (roundRobin (scored.foldl (fun buckets entry => addToBucket entry buckets) [])).take maxSources

def compileSourceSet (p : Platform) (maxSources : Nat) (evidence : List AgentEvidence) : CompiledSourceSet :=
  let grouped := evidence.foldl (groupStep p) ([],[])
  let selected := selectGroups grouped.1 maxSources
  ⟨selected.flatMap fun group => group.items.map (·.id),selected.zipIdx.map catalogEntry,grouped.2⟩

/- Rendering. -/
structure AgentClaim where
  text : JsString
  sourceIds : List JsString
  deriving DecidableEq, Repr

inductive SourceLocator where
  | node (nodeId field : JsString)
  | location (location : JsString)
  deriving DecidableEq, Repr

structure AgentSource where
  id : JsString
  url : JsString
  title : JsString
  locator : SourceLocator
  warnings : List String
  deriving DecidableEq, Repr

structure Rendered where
  claims : List AgentClaim
  sources : List AgentSource
  orphanedClaimUnitIds : List JsString
  blockTexts : List JsString
  deriving DecidableEq, Repr

def evidenceToSource (catalog : List CatalogEntry) (evidenceId : JsString) : Option JsString :=
  (catalog.find? fun entry => entry.evidenceIds.contains evidenceId).map (·.publicId)

def orphanedUnits (catalog : List CatalogEntry) (units : List SynthesisClaimUnit) : List JsString :=
  ((units.filter fun unit => unit.evidenceIds = [] ||
    unit.evidenceIds.any fun id => (evidenceToSource catalog id).isNone).map (·.id)).eraseDups

def claimOf (catalog : List CatalogEntry) (orphaned : List JsString) (unit : SynthesisClaimUnit) :
    Option AgentClaim :=
  if orphaned.contains unit.id then none
  else
    let text := truncateUtf8Bytes unit.text agentClaimMaxBytes
    let sourceIds := (unit.evidenceIds.filterMap (evidenceToSource catalog)).eraseDups
    if trim text = [] ∨ sourceIds = [] then none else some ⟨text,sourceIds⟩

/- The marker of one cited unit; `none` where the citation is unverified. A repeated id
keeps the last unit that has it. -/
def citation (catalog : List CatalogEntry) (orphaned : List JsString)
    (units : List SynthesisClaimUnit) (claimId : JsString) : Option JsString := do
  let unit ← units.reverse.find? fun unit => unit.id = claimId
  if orphaned.contains unit.id then none
  else
    let publicId ← (unit.evidenceIds.filterMap (evidenceToSource catalog)).head?
    some ([91] ++ publicId ++ [93])

def blockText (catalog : List CatalogEntry) (orphaned : List JsString)
    (units : List SynthesisClaimUnit) (block : ReportBlock) : JsString :=
  let cited := block.claimUnitIds.map (citation catalog orphaned units)
  let markers := (cited.filterMap id).eraseDups
  let prose := if markers = [] then block.prose else block.prose ++ [32] ++ [32].intercalate markers
  if block.claimUnitIds = [] || cited.any (·.isNone) then prose ++ [32] ++ orphanedCitationToken else prose

def derivedSource (entry : CatalogEntry) : AgentSource :=
  let locator := match entry.locator with
    | some (nodeId,field) => .node nodeId field
    | none => .location entry.canonicalUrl
  ⟨entry.publicId,entry.canonicalUrl,entry.canonicalUrl,locator,["derived from admitted evidence"]⟩

def renderResultFromIR (synthesis : SynthesisOutput) (compiled : CompiledSourceSet) : Rendered :=
  let orphaned := orphanedUnits compiled.sourceCatalog synthesis.claimUnits
  ⟨synthesis.claimUnits.filterMap (claimOf compiled.sourceCatalog orphaned),
    compiled.sourceCatalog.map derivedSource,orphaned.mergeSort textOrder,
    synthesis.blocks.map (blockText compiled.sourceCatalog orphaned synthesis.claimUnits)⟩

/- Whole blocks up to the report's bound; a first block above it is cut. -/
def keptBlocks (maxBytes : Nat) : List JsString → List JsString → Nat → List JsString
  | kept, [], _ => kept
  | kept, text :: rest, used =>
      let separator := if kept = [] then 0 else 2
      if used + separator + byteLength text > maxBytes then kept
      else keptBlocks maxBytes (kept ++ [text]) rest (used + separator + byteLength text)

def truncateReportToBlocks (blockTexts : List JsString) (maxBytes : Nat) : JsString :=
  let kept := keptBlocks maxBytes [] blockTexts 0
  match kept, blockTexts with
  | [], first :: _ => truncateUtf8Bytes first maxBytes
  | _, _ => [10,10].intercalate kept

/- The part of trySynthesizeFromIR (agent-core.ts) that makes a result of the model's
proposal; `none` where the caller falls back to another composition. -/
structure Synthesized where
  synthesis : SynthesisOutput
  dropped : Dropped
  compiled : CompiledSourceSet
  rendered : Rendered
  reportText : JsString
  deriving DecidableEq, Repr

def synthesisEvidence (evidence : List AgentEvidence) : List AgentEvidence :=
  let admitted := evidence.filter fun entry => entry.status = .admitted
  let linked := admitted.filter fun entry => entry.questionIds ≠ []
  if linked = [] then admitted else linked

def synthesizeFromIR (p : Platform) (evidence : List AgentEvidence) (raw : JsValue) : Option Synthesized :=
  let synthEvidence := synthesisEvidence evidence
  if synthEvidence = [] then none
  else
    let compiled := compileSourceSet p agentMaxSources synthEvidence
    match validateSynthesisOutput p agentClaimMaxBytes synthEvidence raw with
    | .error _ => none
    | .ok (value,dropped) =>
        let rendered := renderResultFromIR value compiled
        some ⟨value,dropped,compiled,rendered,truncateReportToBlocks rendered.blockTexts agentReportMaxBytes⟩

end Northstar.Agent
