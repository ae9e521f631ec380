import Northstar.Agent.Grounding

/-! A caller names its units by nonempty strings. Validation keeps no such name: a proposal
with its names changed, each to another and none to two, is read to the same value. -/
namespace Northstar.Agent

structure Renaming where
  of : JsString → JsString
  injective : Function.Injective of
  empty : of [] = []

def mapField (key : String) (f : JsValue → JsValue) : JsValue → JsValue
  | .object fields => .object (fields.map fun field =>
      if field.1 = js key then (field.1,f field.2) else field)
  | value => value

def mapItems (f : JsValue → JsValue) : JsValue → JsValue
  | .array items => .array (items.map f)
  | value => value

namespace Renaming
variable (ρ : Renaming)

def text : JsValue → JsValue
  | .string id => .string (ρ.of id)
  | value => value

def unit : JsValue → JsValue := mapField "id" ρ.text
def block : JsValue → JsValue := mapField "claimUnitIds" (mapItems ρ.text)

/- The ids of the units and the blocks' references to them, nothing else. -/
def output (raw : JsValue) : JsValue :=
  mapField "claimUnits" (mapItems ρ.unit) (mapField "blocks" (mapItems ρ.block) raw)

def known (pairs : List (JsString × JsString)) : List (JsString × JsString) :=
  pairs.map fun pair => (ρ.of pair.1,pair.2)

def state (s : UnitState) : UnitState := { s with callerToRecomputed := ρ.known s.callerToRecomputed }

end Renaming

theorem fieldChanged {key : String} {f : JsValue → JsValue} (absent : f .undefined = .undefined)
    (value : JsValue) : (mapField key f value).get key = f (value.get key) := by
  cases value with
  | object fields =>
    simp only [mapField,JsValue.get]
    induction fields with
    | nil => simp [absent]
    | cons field rest ih =>
      obtain ⟨name,held⟩ := field
      by_cases same : name = js key
      · simp [same]
      · have other : (js key == name) = false := by simpa using Ne.symm same
        simpa [List.lookup_cons,same,other] using ih
  | _ => exact absent.symm

theorem fieldKept {key other : String} {f : JsValue → JsValue} (apart : js other ≠ js key)
    (value : JsValue) : (mapField key f value).get other = value.get other := by
  cases value with
  | object fields =>
    simp only [mapField,JsValue.get]
    congr 1
    induction fields with
    | nil => rfl
    | cons field rest ih =>
      obtain ⟨name,held⟩ := field
      by_cases same : name = js key
      · have skip : (js other == js key) = false := beq_false_of_ne apart
        simp only [List.map_cons,same,if_true,List.lookup_cons,skip]
        exact ih
      · simp only [List.map_cons,if_neg same,List.lookup_cons]
        split
        · rfl
        · exact ih
  | _ => rfl

theorem itemsChanged (f : JsValue → JsValue) (value : JsValue) :
    asItems (mapItems f value) = (asItems value).map (List.map f) := by
  cases value <;> rfl

section
variable (ρ : Renaming)

theorem textChanged (value : JsValue) : (ρ.text value).asString = value.asString.map ρ.of := by
  cases value <;> rfl

theorem stringsChanged (value : JsValue) :
    asStrings (mapItems ρ.text value) = (asStrings value).map (List.map ρ.of) := by
  cases value with
  | array items =>
    simp only [mapItems,asStrings]
    induction items with
    | nil => rfl
    | cons item rest ih =>
      simp only [List.map_cons,List.mapM_cons,textChanged,ih]
      cases item.asString with
      | none => rfl
      | some id => cases rest.mapM JsValue.asString <;> rfl
  | _ => rfl

theorem callerChanged (entry : JsValue) : callerId (ρ.unit entry) = (callerId entry).map ρ.of := by
  unfold callerId Renaming.unit
  rw [fieldChanged rfl,textChanged]
  cases (entry.get "id").asString with
  | none => rfl
  | some id =>
    have same : ρ.of id = [] ↔ id = [] :=
      ⟨fun h => ρ.injective (h.trans ρ.empty.symm),fun h => h ▸ ρ.empty⟩
    by_cases empty : id = []
    · simp [Option.filter,empty,ρ.empty]
    · simp [Option.filter,empty,same]

theorem unitRead (p : Platform) (admitted : List JsString) (maxClaimBytes : Nat) (entry : JsValue) :
    readClaimUnit p admitted maxClaimBytes (ρ.unit entry) = readClaimUnit p admitted maxClaimBytes entry := by
  have text := @fieldKept "id" "text" ρ.text (by decide) entry
  have refs := @fieldKept "id" "evidenceIds" ρ.text (by decide) entry
  cases entry with
  | object fields =>
    unfold Renaming.unit
    simp only [mapField] at text refs ⊢
    simp only [readClaimUnit,text,refs]
  | _ => rfl

theorem knownLookup (pairs : List (JsString × JsString)) (name : JsString) :
    (ρ.known pairs).lookup (ρ.of name) = pairs.lookup name := by
  induction pairs with
  | nil => rfl
  | cons pair rest ih =>
    obtain ⟨other,id⟩ := pair
    have same : (ρ.of name == ρ.of other) = (name == other) := by
      by_cases eq : name = other
      · simp [eq]
      · have apart : ρ.of name ≠ ρ.of other := fun h => eq (ρ.injective h)
        rw [beq_false_of_ne eq,beq_false_of_ne apart]
    simp only [Renaming.known,List.map_cons,List.lookup_cons,same]
    split
    · rfl
    · exact ih

theorem registerChanged (caller : Option JsString) (id : JsString) (pairs : List (JsString × JsString)) :
    register (caller.map ρ.of) id (ρ.known pairs) = ρ.known (register caller id pairs) := by
  cases caller with
  | none => rfl
  | some name =>
    simp only [Option.map_some,register,knownLookup]
    split
    · rfl
    · simp only [Renaming.known,List.map_append,List.map_cons,List.map_nil]

theorem unitStepChanged (p : Platform) (admitted : List JsString) (maxClaimBytes : Nat) (s : UnitState)
    (entry : JsValue) : claimUnitStep p admitted maxClaimBytes (ρ.state s) (ρ.unit entry) =
      ρ.state (claimUnitStep p admitted maxClaimBytes s entry) := by
  simp only [claimUnitStep,unitRead,callerChanged,Renaming.state,registerChanged]
  split
  · rfl
  split
  · rfl
  split <;> rfl

theorem unitsChanged (p : Platform) (maxClaimBytes : Nat) (evidence : List AgentEvidence)
    (entries : List JsValue) : readClaimUnits p maxClaimBytes evidence (entries.map ρ.unit) =
      ρ.state (readClaimUnits p maxClaimBytes evidence entries) := by
  have fold (admitted : List JsString) (s : UnitState) :
      entries.foldl (fun s entry => claimUnitStep p admitted maxClaimBytes s (ρ.unit entry)) (ρ.state s) =
        ρ.state (entries.foldl (claimUnitStep p admitted maxClaimBytes) s) :=
    List.foldl_hom ρ.state fun s entry => unitStepChanged ρ p admitted maxClaimBytes s entry
  unfold readClaimUnits
  dsimp only
  rw [List.foldl_map]
  exact fold _ ⟨[],[],0⟩

theorem refsChanged (pairs : List (JsString × JsString)) (resolved refs : List JsString) :
    resolveRefs (ρ.known pairs) resolved (refs.map ρ.of) = resolveRefs pairs resolved refs := by
  induction refs generalizing resolved with
  | nil => rfl
  | cons ref rest ih =>
    simp only [List.map_cons,resolveRefs,knownLookup,ih]

theorem blockUnitsChanged (pairs : List (JsString × JsString)) (refs : JsValue) :
    blockUnits (ρ.known pairs) (mapItems ρ.text refs) = blockUnits pairs refs := by
  unfold blockUnits
  rw [stringsChanged]
  cases asStrings refs with
  | none => rfl
  | some names => simp only [Option.map_some,Option.bind_eq_bind,Option.bind_some,refsChanged]

theorem blockStepChanged (p : Platform) (pairs : List (JsString × JsString)) (s : BlockState)
    (entry : JsValue) (index : Nat) :
    blockStep p (ρ.known pairs) s (ρ.block entry,index) = blockStep p pairs s (entry,index) := by
  have prose : readProse (ρ.block entry) = readProse entry := by
    have same := @fieldKept "claimUnitIds" "prose" (mapItems ρ.text) (by decide) entry
    cases entry with
    | object fields =>
      unfold Renaming.block
      simp only [mapField] at same ⊢
      simp only [readProse,same]
    | _ => rfl
  have caller : callerId (ρ.block entry) = callerId entry := by
    unfold callerId Renaming.block
    rw [fieldKept (by decide)]
  have section_ : sectionOf (ρ.block entry) = sectionOf entry := by
    unfold sectionOf Renaming.block
    rw [fieldKept (by decide)]
  have refs : (ρ.block entry).get "claimUnitIds" = mapItems ρ.text (entry.get "claimUnitIds") :=
    fieldChanged rfl entry
  simp only [blockStep,prose,caller,section_,refs,blockUnitsChanged]

theorem blocksChanged (p : Platform) (pairs : List (JsString × JsString)) (entries : List JsValue) :
    readBlocks p (ρ.known pairs) (entries.map ρ.block) = readBlocks p pairs entries := by
  unfold readBlocks
  rw [List.zipIdx_map,List.foldl_map]
  congr 1
  funext s indexed
  exact blockStepChanged ρ p pairs s indexed.1 indexed.2

theorem validationRenamed (p : Platform) (maxClaimBytes : Nat) (evidence : List AgentEvidence)
    (raw : JsValue) : validateSynthesisOutput p maxClaimBytes evidence (ρ.output raw) =
      validateSynthesisOutput p maxClaimBytes evidence raw := by
  have units : (ρ.output raw).get "claimUnits" = mapItems ρ.unit (raw.get "claimUnits") := by
    unfold Renaming.output
    rw [fieldChanged rfl,fieldKept (by decide)]
  have blocks : (ρ.output raw).get "blocks" = mapItems ρ.block (raw.get "blocks") := by
    unfold Renaming.output
    rw [fieldKept (by decide),fieldChanged rfl]
  have gaps : (ρ.output raw).get "unresolvedGaps" = raw.get "unresolvedGaps" := by
    unfold Renaming.output
    rw [fieldKept (by decide),fieldKept (by decide)]
  have issues : synthesisIssues (ρ.output raw) = synthesisIssues raw := by
    simp only [synthesisIssues,units,blocks,gaps,itemsChanged,Option.isNone_map]
  have items (f : JsValue → JsValue) (value : JsValue) : itemsOf (mapItems f value) = (itemsOf value).map f := by
    unfold itemsOf
    rw [itemsChanged]
    cases asItems value <;> rfl
  cases raw with
  | object fields =>
    unfold Renaming.output at units blocks gaps issues ⊢
    simp only [mapField] at units blocks gaps issues ⊢
    simp only [validateSynthesisOutput,units,blocks,gaps,issues,items,unitsChanged,Renaming.state,
      blocksChanged]
  | _ => rfl

end

/-- Grounding by construction, and no trace of the ids a caller chose: a renaming of them
gives the same result. -/
theorem groundedByConstruction (p : Platform) (evidence : List AgentEvidence) (raw : JsValue) :
    (∀ result, synthesizeFromIR p evidence raw = some result → Grounded p evidence result) ∧
    ∀ ρ : Renaming, synthesizeFromIR p evidence (ρ.output raw) = synthesizeFromIR p evidence raw := by
  constructor
  · intro result made
    exact synthesizedGrounded made
  · intro ρ
    simp only [synthesizeFromIR,validationRenamed]

def quartzPlatform : Platform where
  sha256hex s :=
    if s = js "Quartz 9 ships a new scheduler.\nev-1" then
      js "fe97fccc45257dac19b44b601b33c061707946e439ce4df798b2b2bbf2e3fb9c"
    else if s = js "report\nThe release replaces the scheduler." then
      js "e021a229c07afdac38ff04434ad26624274d3c4587a0dc2732141c418ad14d3b"
    else []
  toLowerCase s := s
  tidyUrl s := if s = js "https://quartz.example/notes" then some s else none

def quartzEvidence : List AgentEvidence :=
  [⟨js "ev-1",⟨js "https://quartz.example/notes",none,.official,.fetch⟩,.other,[js "q-1"],.admitted,js "f-1"⟩]

def quartzProposal : JsValue := .object
  [(js "claimUnits",.array [.object [(js "id",.string (js "u1")),
      (js "text",.string (js "Quartz 9 ships a new scheduler.")),
      (js "evidenceIds",.array [.string (js "ev-1")])]]),
   (js "blocks",.array [.object [(js "prose",.string (js "The release replaces the scheduler.")),
      (js "claimUnitIds",.array [.string (js "u1")])]])]

theorem quartzGrounded : ∃ result, synthesizeFromIR quartzPlatform quartzEvidence quartzProposal = some result ∧
    result.rendered.claims = [⟨js "Quartz 9 ships a new scheduler.",[js "src-0"]⟩] ∧
    Grounded quartzPlatform quartzEvidence result := by
  have made : (synthesizeFromIR quartzPlatform quartzEvidence quartzProposal).any fun result =>
      result.rendered.claims = [⟨js "Quartz 9 ships a new scheduler.",[js "src-0"]⟩] := by
    decide +kernel
  obtain ⟨result,same,claims⟩ := (Option.any_eq_true ..).mp made
  exact ⟨result,same,of_decide_eq_true claims,
    (groundedByConstruction quartzPlatform quartzEvidence quartzProposal).1 result same⟩

end Northstar.Agent
