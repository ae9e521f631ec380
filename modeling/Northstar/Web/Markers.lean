import Northstar.Web.SourceCheck

/-! How a claim is weighed against passages (web-access-source-check.ts, assessWebAccessClaim): which marker
counts for which passage, and what the assessment says of the passages. -/
namespace Northstar.Web.SourceCheck

section Markers
variable {value : JsString} {pattern : List JsString}

theorem phraseInside {place : Nat} (here : phraseAt pattern value place = true) : place ≤ value.length := by
  by_contra beyond
  have none_ : value[place - 1]? = none := List.getElem?_eq_none (by omega)
  have away : place ≠ 0 := by omega
  simp [phraseAt,none_,away] at here

theorem execFirst {place : Nat} : exec pattern value = some place ↔
    phraseAt pattern value place = true ∧ ∀ earlier < place, phraseAt pattern value earlier = false := by
  unfold exec
  rw [List.find?_range_eq_some]
  constructor
  · rintro ⟨here,_,first⟩
    exact ⟨here,fun earlier less => by simpa using first earlier less⟩
  · rintro ⟨here,first⟩
    exact ⟨here,List.mem_range.mpr (Nat.lt_succ_of_le (phraseInside here)),fun earlier less => by simpa using first earlier less⟩

theorem execSome {place : Nat} (here : phraseAt pattern value place = true) : ∃ first, exec pattern value = some first := by
  refine Option.isSome_iff_exists.mp ?_
  unfold exec
  exact List.find?_isSome.mpr ⟨place,List.mem_range.mpr (Nat.lt_succ_of_le (phraseInside here)),here⟩

theorem countedFirst : hasCompiledMarker value [pattern] = true ↔
    ∃ place, exec pattern value = some place ∧ endsNegated (value.take place) = false := by
  unfold hasCompiledMarker markerIsNegated
  cases found : exec pattern value <;> simp [found]

/- Some occurrence has no negation in front of it. -/
def Stated (value : JsString) (pattern : List JsString) : Prop :=
  ∃ place, phraseAt pattern value place = true ∧ endsNegated (value.take place) = false

/- Where the first occurrence is negated, so are all. -/
def FirstTells (value : JsString) (pattern : List JsString) : Prop :=
  ∀ first, phraseAt pattern value first = true → (∀ earlier < first, phraseAt pattern value earlier = false) →
    endsNegated (value.take first) = true → ∀ later, phraseAt pattern value later = true → endsNegated (value.take later) = true

theorem countedStated : (hasCompiledMarker value [pattern] = true ↔ Stated value pattern) ↔ FirstTells value pattern := by
  constructor
  · intro same first here earlier negated later there
    by_contra free
    obtain ⟨place,found,plain⟩ := countedFirst.mp (same.mpr ⟨later,there,Bool.eq_false_iff.mpr free⟩)
    rw [execFirst.mpr ⟨here,earlier⟩] at found
    cases found
    exact absurd (negated.symm.trans plain) nofun
  · intro tells
    constructor
    · intro counted
      obtain ⟨place,found,plain⟩ := countedFirst.mp counted
      exact ⟨place,(execFirst.mp found).1,plain⟩
    · rintro ⟨place,here,plain⟩
      obtain ⟨first,found⟩ := execSome here
      refine countedFirst.mpr ⟨first,found,Bool.eq_false_iff.mpr fun negated => ?_⟩
      obtain ⟨there,earlier⟩ := execFirst.mp found
      exact absurd (plain.symm.trans (tells first there earlier negated place here)) nofun

end Markers

section Claims
variable {toLowerCase : JsString → JsString} {claim : JsString}

/- The passage shares enough terms with the claim to be looked at. -/
def examined (toLowerCase : JsString → JsString) (claim : JsString) (passage : WebAccessCheckPassage) : Bool :=
  requiredOverlap (tokenize toLowerCase claim) ≤ overlapOf toLowerCase claim passage.text

def counts (toLowerCase : JsString → JsString) (passage : WebAccessCheckPassage) (marker : JsString) : Bool :=
  hasCompiledMarker (toLowerCase passage.text) (compileMarkers toLowerCase [marker])

def supported (toLowerCase : JsString → JsString) (passage : WebAccessCheckPassage) : Bool :=
  supportMarkers.any (counts toLowerCase passage)

def contradicted (toLowerCase : JsString → JsString) (passage : WebAccessCheckPassage) : Bool :=
  contradictionMarkers.any (counts toLowerCase passage)

theorem countsAny (passage : WebAccessCheckPassage) (markers : List JsString) :
    hasCompiledMarker (toLowerCase passage.text) (compileMarkers toLowerCase markers) = markers.any (counts toLowerCase passage) := by
  unfold counts hasCompiledMarker compileMarkers
  rw [List.any_map]
  simp [Function.comp_def]

def supporting (toLowerCase : JsString → JsString) (claim : JsString) (passages : List WebAccessCheckPassage) : List WebAccessCheckPassage :=
  passages.filter fun p => examined toLowerCase claim p && supported toLowerCase p && !contradicted toLowerCase p

def contradicting (toLowerCase : JsString → JsString) (claim : JsString) (passages : List WebAccessCheckPassage) :
    List WebAccessCheckPassage :=
  passages.filter fun p => examined toLowerCase claim p && contradicted toLowerCase p && !supported toLowerCase p

theorem weighedAll (passages : List WebAccessCheckPassage) : passages.foldl (weigh toLowerCase claim) {} =
    ⟨(supporting toLowerCase claim passages).map (·.passageId),(contradicting toLowerCase claim passages).map (·.passageId)⟩ := by
  induction passages using List.reverseRecOn with
  | nil => rfl
  | append_singleton passages passage ih =>
    have one : supporting toLowerCase claim (passages ++ [passage]) = supporting toLowerCase claim passages ++
        supporting toLowerCase claim [passage] := List.filter_append ..
    have other : contradicting toLowerCase claim (passages ++ [passage]) = contradicting toLowerCase claim passages ++
        contradicting toLowerCase claim [passage] := List.filter_append ..
    rw [List.foldl_concat,ih,weigh,one,other,List.map_append,List.map_append]
    by_cases low : overlapOf toLowerCase claim passage.text < requiredOverlap (tokenize toLowerCase claim)
    · have skipped : examined toLowerCase claim passage = false := decide_eq_false (Nat.not_le.mpr low)
      rw [if_pos low]
      simp [supporting,contradicting,skipped]
    · have seen : examined toLowerCase claim passage = true := decide_eq_true (Nat.not_lt.mp low)
      rw [if_neg low]
      simp only [countsAny]
      change (if contradicted toLowerCase passage && !supported toLowerCase passage then _ else
        if supported toLowerCase passage && !contradicted toLowerCase passage then _ else _) = _
      cases contra : contradicted toLowerCase passage <;> cases support : supported toLowerCase passage <;>
        simp [supporting,contradicting,seen,contra,support]

/- What the assessment says of the two lists. -/
def statusOf {α : Type} : List α → List α → WebAccessClaimStatus
  | [],_ :: _ => .contradicted
  | _ :: _,[] => .supported
  | _,_ => .unclear

structure Weighs (toLowerCase : JsString → JsString) (claim : JsString) (passages : List WebAccessCheckPassage)
    (assessment : WebAccessClaimAssessment) : Prop where
  markers : ∀ passage ∈ passages, examined toLowerCase claim passage = true → ∀ marker ∈ contradictionMarkers ++ supportMarkers,
    (counts toLowerCase passage marker = true ↔ Stated (toLowerCase passage.text) (compilePhrasePattern toLowerCase marker))
  supports : tokenize toLowerCase claim ≠ [] → assessment.supportingPassages = (supporting toLowerCase claim passages).map (·.passageId)
  contradicts : tokenize toLowerCase claim ≠ [] →
    assessment.contradictingPassages = (contradicting toLowerCase claim passages).map (·.passageId)
  apart : ∀ passage ∈ supporting toLowerCase claim passages, passage ∉ contradicting toLowerCase claim passages
  missing : tokenize toLowerCase claim = [] ∨ passages = [] →
    assessment.status = .missingEvidence ∧ assessment.supportingPassages = [] ∧ assessment.contradictingPassages = []
  status : tokenize toLowerCase claim ≠ [] → passages ≠ [] →
    assessment.status = statusOf (supporting toLowerCase claim passages) (contradicting toLowerCase claim passages)

theorem listsApart {passages : List WebAccessCheckPassage} : ∀ passage ∈ supporting toLowerCase claim passages,
    passage ∉ contradicting toLowerCase claim passages := by
  intro passage first second
  have one := (List.mem_filter.mp first).2
  have other := (List.mem_filter.mp second).2
  cases contra : contradicted toLowerCase passage
  · simp [contra] at other
  · simp [contra] at one

theorem assessed {passages : List WebAccessCheckPassage} (terms : tokenize toLowerCase claim ≠ []) (some_ : passages ≠ []) :
    let assessment := assessWebAccessClaim toLowerCase claim passages
    assessment.supportingPassages = (supporting toLowerCase claim passages).map (·.passageId) ∧
      assessment.contradictingPassages = (contradicting toLowerCase claim passages).map (·.passageId) ∧
      assessment.status = statusOf (supporting toLowerCase claim passages) (contradicting toLowerCase claim passages) := by
  have go : ¬ ((tokenize toLowerCase claim).length = 0 ∨ passages.length = 0) := by simp [terms,some_]
  unfold assessWebAccessClaim
  rw [if_neg go,weighedAll]
  cases supporting toLowerCase claim passages <;> cases contradicting toLowerCase claim passages <;> simp [statusOf]

/-- Each marker is judged by all its occurrences just when a passage that is looked at negates all of them where it negates the first. -/
theorem weighsExactly (toLowerCase : JsString → JsString) (claim : JsString) (passages : List WebAccessCheckPassage) :
    Weighs toLowerCase claim passages (assessWebAccessClaim toLowerCase claim passages) ↔
      ∀ passage ∈ passages, examined toLowerCase claim passage = true → ∀ marker ∈ contradictionMarkers ++ supportMarkers,
        FirstTells (toLowerCase passage.text) (compilePhrasePattern toLowerCase marker) := by
  constructor
  · intro weighs passage member seen marker known
    exact countedStated.mp (weighs.markers passage member seen marker known)
  · intro tells
    refine ⟨fun passage member seen marker known => countedStated.mpr (tells passage member seen marker known),fun terms => ?_,
      fun terms => ?_,listsApart,fun none_ => ?_,fun terms some_ => (assessed terms some_).2.2⟩
    · by_cases some_ : passages = []
      · subst some_
        simp [assessWebAccessClaim,supporting]
      · exact (assessed terms some_).1
    · by_cases some_ : passages = []
      · subst some_
        simp [assessWebAccessClaim,contradicting]
      · exact (assessed terms some_).2.1
    · have stop : (tokenize toLowerCase claim).length = 0 ∨ passages.length = 0 :=
        none_.imp (fun h => by simp [h]) fun h => by simp [h]
      unfold assessWebAccessClaim
      rw [if_pos stop]
      exact ⟨rfl,rfl,rfl⟩

/- The first "true" is negated, the second is not. -/
def disputed : List WebAccessCheckPassage :=
  [⟨js "p-1-1",js "u",.int 1,js "it was not true that fusion power, but it is true now",none,none⟩]

theorem laterStated : ¬ Weighs id (js "fusion power") disputed (assessWebAccessClaim id (js "fusion power") disputed) := by
  intro weighs
  have counted := (weighs.markers _ List.mem_cons_self (by decide) (js "true") (by decide)).mpr ⟨45,by decide,by decide⟩
  exact absurd counted (by decide)

end Claims

end Northstar.Web.SourceCheck
