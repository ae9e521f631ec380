import Northstar.Web.Markers
import Northstar.Separated

/-! The passages of a source check (web-access-source-check.ts, buildWebAccessSourceCheck): their ids, where
they stand in their pages, and that assessments cite them. -/
namespace Northstar.Web.SourceCheck
open Scanning (indexOf indexFirst Stands)

def slice (text : JsString) (start end_ : Nat) : JsString := (text.take end_).drop start

/- Behind nothing but blanks, or behind a terminator and then blanks. -/
def SentenceStart (content : JsString) (start : Nat) : Prop := ∃ before blanks, content.take start = before ++ blanks ∧
  (∀ u ∈ blanks, whiteSpace u = true) ∧ (before = [] ∨ before.getLast?.any terminator = true ∧ blanks ≠ [])

def behindTerminator (content : JsString) (start : Nat) : Bool := (content.take start).getLast?.any terminator

theorem terminatorSolid {u : UInt16} (ends : terminator u = true) : whiteSpace u = false := by
  simp only [terminator,Bool.or_eq_true,decide_eq_true_eq] at ends
  rcases ends with (rfl | rfl) | rfl <;> decide

/- A sentence is cut from the page, and blanks alone stand between it and the terminator before it. -/
structure Found (content : JsString) (span : Span) : Prop where
  text : span.text = slice content span.start span.end_
  bounded : span.text.length ≤ 400
  behind : ∃ before blanks, content.take span.start = before ++ blanks ∧ (∀ u ∈ blanks, whiteSpace u = true) ∧
    (before = [] ∨ before.getLast?.any terminator = true)

theorem blankLast {before blanks : JsString} (blank : ∀ u ∈ blanks, whiteSpace u = true) (some_ : blanks ≠ []) :
    (before ++ blanks).getLast?.any terminator = false := by
  rw [List.getLast?_append_of_ne_nil _ some_,List.getLast?_eq_getLast_of_ne_nil some_]
  refine Bool.eq_false_iff.mpr fun ends => ?_
  exact absurd ((blank _ (List.getLast_mem some_)).symm.trans (terminatorSolid ends)) nofun

theorem startExactly {content : JsString} {span : Span} (found : Found content span) :
    SentenceStart content span.start ↔ behindTerminator content span.start = false := by
  unfold SentenceStart behindTerminator
  constructor
  · rintro ⟨before,blanks,split,blank,start⟩
    rw [split]
    by_cases some_ : blanks = []
    · rcases start with rfl | ⟨_,away⟩
      · rw [some_]
        rfl
      · exact absurd some_ away
    · exact blankLast blank some_
  · intro apart
    obtain ⟨before,blanks,split,blank,first | last⟩ := found.behind
    · exact ⟨before,blanks,split,blank,.inl first⟩
    · refine ⟨before,blanks,split,blank,.inr ⟨last,fun none_ => ?_⟩⟩
      rw [split,none_,List.append_nil,last] at apart
      cases apart

theorem trimSplit (raw : JsString) : ∃ tail, raw.dropWhile whiteSpace = trim raw ++ tail := by
  have front : trim raw <+: raw.dropWhile whiteSpace := by
    have ends := List.reverse_prefix.mpr (List.dropWhile_suffix whiteSpace (l := (raw.dropWhile whiteSpace).reverse))
    rwa [List.reverse_reverse] at ends
  obtain ⟨tail,whole⟩ := front
  exact ⟨tail,whole.symm⟩

theorem trimPlace {raw : JsString} (some_ : trim raw ≠ []) : indexOf (trim raw) raw = some (raw.takeWhile whiteSpace).length := by
  obtain ⟨tail,behind⟩ := trimSplit raw
  have whole : raw.takeWhile whiteSpace ++ (trim raw ++ tail) = raw := by rw [← behind,List.takeWhile_append_dropWhile]
  refine (indexFirst some_ raw _).mpr ⟨Nat.zero_le _,⟨tail,?_⟩,fun earlier _ less stands => ?_⟩
  · have dropped := congrArg (List.drop (raw.takeWhile whiteSpace).length) whole
    rwa [List.drop_left] at dropped
  · obtain ⟨u,rest,head⟩ := List.exists_cons_of_ne_nil some_
    have solid : whiteSpace u = false := by
      have away : raw.dropWhile whiteSpace ≠ [] := by simp [behind,head]
      have first := List.head_dropWhile_not whiteSpace away
      simpa [behind,head] using first
    have here : raw[earlier]? = some u := by
      obtain ⟨more,same⟩ := stands
      rw [head] at same
      have at_ := congrArg (·[0]?) same
      simpa [List.getElem?_drop] using at_.symm
    have blank : (raw.takeWhile whiteSpace)[earlier]? = some u := by
      rw [← whole,List.getElem?_append_left less] at here
      exact here
    have known := List.mem_takeWhile_imp (List.mem_of_getElem? blank)
    exact absurd (known.symm.trans solid) nofun

/- What is left behind a run and its terminators is left because there was a terminator. -/
theorem endsSome {behind : JsString} (first : behind.head?.all terminator = true) (left : behind.dropWhile terminator ≠ []) :
    behind.takeWhile terminator ≠ [] := by
  cases behind with
  | nil => exact absurd rfl left
  | cons u rest =>
    rw [List.takeWhile_cons_of_pos (by simpa using first)]
    exact List.cons_ne_nil _ _

theorem behindRun (text : JsString) : (text.dropWhile fun u => !terminator u).head?.all terminator = true := by
  cases behind : text.dropWhile fun u => !terminator u with
  | nil => rfl
  | cons u rest =>
    have away : (text.dropWhile fun u => !terminator u) ≠ [] := by simp [behind]
    have first := List.head_dropWhile_not _ away
    simpa [behind] using first

/- Every match is a sentence of the page as it stands there, at its start or behind a terminator. -/
theorem matchFound {rounds index : Nat} {content text : JsString} (here : content.drop index = text)
    (start : index = 0 ∨ (content.take index).getLast?.any terminator = true) {found : Nat × JsString}
    (member : found ∈ sentenceMatches rounds index text) : found.2 <+: content.drop found.1 ∧
      (found.1 = 0 ∨ (content.take found.1).getLast?.any terminator = true) := by
  induction rounds generalizing index text with
  | zero => cases member
  | succ rounds ih =>
    have first := behindRun text
    have whole : (text.takeWhile fun u => !terminator u) ++ (text.dropWhile fun u => !terminator u) = text :=
      List.takeWhile_append_dropWhile
    unfold sentenceMatches at member
    dsimp only at member
    generalize (text.takeWhile fun u => !terminator u) = run at whole member
    generalize (text.dropWhile fun u => !terminator u) = behind at first whole member
    have split : behind.takeWhile terminator ++ behind.dropWhile terminator = behind := List.takeWhile_append_dropWhile
    have some_ := endsSome first
    have ends_ : ∀ u ∈ behind.takeWhile terminator, terminator u = true := fun u inside => List.mem_takeWhile_imp inside
    generalize behind.takeWhile terminator = ends at member split some_ ends_
    generalize behind.dropWhile terminator = left at member split some_
    have parts : text = (run ++ ends) ++ left := by rw [← whole,← split,List.append_assoc]
    have later (inside : found ∈ if left = [] then [] else sentenceMatches rounds (index + (run ++ ends).length) left) :
        found.2 <+: content.drop found.1 ∧ (found.1 = 0 ∨ (content.take found.1).getLast?.any terminator = true) := by
      split at inside
      · cases inside
      · rename_i away
        refine ih ?_ (.inr ?_) inside
        · rw [← List.drop_drop,here,parts,List.drop_left]
        · rw [List.take_add,here,parts,List.take_left,← List.append_assoc,List.getLast?_append_of_ne_nil _ (some_ away),
            List.getLast?_eq_getLast_of_ne_nil (some_ away)]
          exact ends_ _ (List.getLast_mem _)
    split at member
    · rcases List.mem_cons.mp member with rfl | inside
      · exact ⟨⟨left,by rw [here,parts]⟩,start⟩
      · exact later inside
    · exact later member

theorem sentenceFound {content : JsString} {span : Span} (member : span ∈ sentencesOf content) : Found content span := by
  obtain ⟨⟨index,raw⟩,inside,made⟩ := List.mem_filterMap.mp member
  obtain ⟨⟨left,whole⟩,start⟩ := matchFound rfl (.inl rfl) inside
  unfold sentenceSpan at made
  dsimp only at made
  split at made
  · rename_i size
    have away : trim raw ≠ [] := List.length_pos_iff.mp size.1
    rw [trimPlace away] at made
    cases made
    obtain ⟨tail,behind⟩ := trimSplit raw
    have parts : content.drop index = raw.takeWhile whiteSpace ++ (trim raw ++ (tail ++ left)) := by
      rw [← whole,← List.append_assoc (trim raw),← behind,← List.append_assoc,List.takeWhile_append_dropWhile]
    refine ⟨?_,size.2,content.take index,raw.takeWhile whiteSpace,?_,fun u inside => List.mem_takeWhile_imp inside,?_⟩
    · change trim raw = (content.take (index + (raw.takeWhile whiteSpace).length + (trim raw).length)).drop
        (index + (raw.takeWhile whiteSpace).length)
      rw [List.drop_take,Nat.add_sub_cancel_left,← List.drop_drop,parts,List.drop_left,List.take_left]
    · change content.take (index + (raw.takeWhile whiteSpace).length) = _
      rw [List.take_add,parts,List.take_left]
    · rcases start with first | last
      · left
        change index = 0 at first
        rw [first,List.take_zero]
      · exact .inr last
  · cases made

section Artifact
variable {toLowerCase : JsString → JsString} {classify : JsString → WebAccessSourceQuality} {hash : JsString → JsString}
  {input : WebAccessSourceCheckInput}

theorem extractedFound {content hint : JsString} {span : Span} (member : span ∈ extractSpans toLowerCase content hint) :
    span ∈ sentencesOf content := by
  unfold extractSpans at member
  dsimp only at member
  split at member
  · cases member
  · obtain ⟨item,inside,rfl⟩ := List.mem_map.mp member
    have sorted := List.mem_mergeSort.mp (List.mem_of_mem_take inside)
    obtain ⟨place,less,rfl⟩ := List.mem_mapIdx.mp (List.mem_filter.mp sorted).1
    exact List.getElem_mem less

theorem extractedFew (content hint : JsString) : (extractSpans toLowerCase content hint).length ≤ 3 := by
  unfold extractSpans
  dsimp only
  split
  · exact Nat.zero_le _
  · rw [List.length_map]
    exact List.length_take_le _ _

theorem spansFew (source : WebAccessCheckSource) : (spansOf toLowerCase input source).length ≤ 3 := by
  unfold spansOf
  split
  · split
    · exact extractedFew _ _
    · exact Nat.zero_le _
  · exact Nat.zero_le _

theorem spanFound {source : WebAccessCheckSource} {span : Span} (member : span ∈ spansOf toLowerCase input source) :
    ∃ page, pageOf input source.url = some page ∧ Found page.content span := by
  unfold spansOf at member
  split at member
  · rename_i page known
    split at member
    · exact ⟨page,known,sentenceFound (extractedFound member)⟩
    · cases member
  · cases member

/- The numbers behind the ranks in the ids of a source's passages. -/
def numbers (toLowerCase : JsString → JsString) (input : WebAccessSourceCheckInput) (source : WebAccessCheckSource) : List Nat :=
  (if filled source.snippet then [0] else []) ++ (List.range (spansOf toLowerCase input source).length).map (· + 1)

theorem idsNumbered (source : WebAccessCheckSource) : (passagesOf toLowerCase hash input source).map (·.passageId) =
    (numbers toLowerCase input source).map (passageId source.rank) := by
  unfold passagesOf numbers
  rw [List.map_append,List.map_append]
  refine congrArg₂ _ ?_ ?_
  · cases source.snippet with
    | none => rfl
    | some snippet => by_cases some_ : snippet = [] <;> simp [filled,some_,snippetPassage]
  · refine List.ext_getElem (by simp) fun place _ _ => ?_
    simp [spanPassage]

theorem numberSmall {source : WebAccessCheckSource} {n : Nat} (member : n ∈ numbers toLowerCase input source) : n < 4 := by
  have few : (spansOf toLowerCase input source).length ≤ 3 := spansFew source
  rcases List.mem_append.mp member with zero | later
  · split at zero
    · rw [List.mem_singleton.mp zero]
      exact Nat.zero_lt_succ _
    · cases zero
  · obtain ⟨place,less,rfl⟩ := List.mem_map.mp later
    have := List.mem_range.mp less
    omega

theorem numbersOnce (source : WebAccessCheckSource) : (numbers toLowerCase input source).Nodup := by
  refine List.Nodup.append ?_ ((List.nodup_map_iff fun a b same => Nat.succ.inj same).mpr List.nodup_range) fun n zero later => ?_
  · split
    · exact List.nodup_singleton _
    · exact List.nodup_nil
  · obtain ⟨place,_,rfl⟩ := List.mem_map.mp later
    split at zero
    · exact absurd (List.mem_singleton.mp zero) (Nat.succ_ne_zero _)
    · cases zero

theorem idTold {rank rank' : Number} {n m : Nat} (one : n < 4) (other : m < 4) :
    passageId rank n = passageId rank' m ↔ rank.script = rank'.script ∧ n = m := by
  have dashless (k : Nat) (small : k < 4) : 45 ∉ written k := by
    interval_cases k <;> decide
  have told : written n = written m → n = m := by
    interval_cases n <;> interval_cases m <;> decide
  constructor
  · intro same
    obtain ⟨ranks,places⟩ := Separated.lastSeparator (dashless n one) (dashless m other) same
    exact ⟨List.append_cancel_left ranks,told places⟩
  · rintro ⟨ranks,rfl⟩
    unfold passageId
    rw [ranks]

theorem numbersApart {a b : WebAccessCheckSource} :
    (numbers toLowerCase input a).Disjoint (numbers toLowerCase input b) ↔
      ¬ (filled a.snippet = true ∧ filled b.snippet = true) ∧
        ¬ (spansOf toLowerCase input a ≠ [] ∧ spansOf toLowerCase input b ≠ []) := by
  have zero (source : WebAccessCheckSource) : 0 ∈ numbers toLowerCase input source ↔ filled source.snippet = true := by
    unfold numbers
    cases filled source.snippet <;> simp
  have later (source : WebAccessCheckSource) (n : Nat) : n + 1 ∈ numbers toLowerCase input source ↔
      n < (spansOf toLowerCase input source).length := by
    unfold numbers
    cases filled source.snippet <;> simp
  constructor
  · intro apart
    refine ⟨fun both => apart ((zero a).mpr both.1) ((zero b).mpr both.2),fun both => ?_⟩
    exact apart ((later a 0).mpr (List.length_pos_iff.mpr both.1)) ((later b 0).mpr (List.length_pos_iff.mpr both.2))
  · rintro ⟨snippets,spans⟩ n first second
    cases n with
    | zero => exact snippets ⟨(zero a).mp first,(zero b).mp second⟩
    | succ n =>
      have some_ := (later a n).mp first
      have some_' := (later b n).mp second
      exact spans ⟨List.length_pos_iff.mp (Nat.zero_lt_of_lt some_),List.length_pos_iff.mp (Nat.zero_lt_of_lt some_')⟩

structure WellFormed (input : WebAccessSourceCheckInput) (artifact : WebAccessSourceCheckArtifact) : Prop where
  ids : (artifact.passages.map (·.passageId)).Nodup
  pages : ∀ passage ∈ artifact.passages, ∀ start end_, passage.extractionSpan = some (start,end_) →
    ∃ page, pageOf input passage.sourceUrl = some page ∧ passage.text = slice page.content start end_ ∧ passage.text.length ≤ 400 ∧
      SentenceStart page.content start
  cited : ∀ assessments, artifact.claims = some assessments → ∀ assessment ∈ assessments,
    ∀ id ∈ assessment.supportingPassages ++ assessment.contradictingPassages, ∃ passage ∈ artifact.passages, passage.passageId = id

/- Of two sources with one rank at most one has a snippet, and at most one has passages from its page. -/
def RanksApart (toLowerCase : JsString → JsString) (input : WebAccessSourceCheckInput) (sources : List WebAccessCheckSource) : Prop :=
  sources.Pairwise fun a b => a.rank.script = b.rank.script → ¬ (filled a.snippet = true ∧ filled b.snippet = true) ∧
    ¬ (spansOf toLowerCase input a ≠ [] ∧ spansOf toLowerCase input b ≠ [])

/- No passage from a page stands directly behind a terminator. -/
def SentencesWhole (toLowerCase : JsString → JsString) (input : WebAccessSourceCheckInput) (sources : List WebAccessCheckSource) : Prop :=
  ∀ source ∈ sources, ∀ page, pageOf input source.url = some page → ∀ span ∈ spansOf toLowerCase input source,
    behindTerminator page.content span.start = false

theorem idsApart {a b : WebAccessCheckSource} :
    ((numbers toLowerCase input a).map (passageId a.rank)).Disjoint ((numbers toLowerCase input b).map (passageId b.rank)) ↔
      (a.rank.script = b.rank.script → ¬ (filled a.snippet = true ∧ filled b.snippet = true) ∧
        ¬ (spansOf toLowerCase input a ≠ [] ∧ spansOf toLowerCase input b ≠ [])) := by
  constructor
  · intro apart same
    refine numbersApart.mp fun n first second => apart (List.mem_map_of_mem first) ?_
    rw [(idTold (numberSmall first) (numberSmall first)).mpr ⟨same,rfl⟩]
    exact List.mem_map_of_mem second
  · intro apart id first second
    obtain ⟨n,one,rfl⟩ := List.mem_map.mp first
    obtain ⟨m,other,same⟩ := List.mem_map.mp second
    obtain ⟨ranks,rfl⟩ := (idTold (numberSmall other) (numberSmall one)).mp same
    exact numbersApart.mpr (apart ranks.symm) one other

theorem idsOnce {sources : List WebAccessCheckSource} :
    ((sources.flatMap (passagesOf toLowerCase hash input)).map (·.passageId)).Nodup ↔ RanksApart toLowerCase input sources := by
  have whole : (sources.flatMap (passagesOf toLowerCase hash input)).map (·.passageId) =
      sources.flatMap fun source => (numbers toLowerCase input source).map (passageId source.rank) := by
    rw [List.map_flatMap]
    exact List.flatMap_congr fun source _ => idsNumbered source
  rw [whole,List.nodup_flatMap]
  have each : ∀ source ∈ sources, ((numbers toLowerCase input source).map (passageId source.rank)).Nodup := fun source _ =>
    (numbersOnce source).map_on fun n one m other same => ((idTold (numberSmall one) (numberSmall other)).mp same).2
  exact (and_iff_right each).trans ⟨List.Pairwise.imp idsApart.mp,List.Pairwise.imp idsApart.mpr⟩

theorem assessedCites {claim : JsString} {passages : List WebAccessCheckPassage} {id : JsString}
    (cited : id ∈ (assessWebAccessClaim toLowerCase claim passages).supportingPassages ++
      (assessWebAccessClaim toLowerCase claim passages).contradictingPassages) : ∃ passage ∈ passages, passage.passageId = id := by
  by_cases stop : tokenize toLowerCase claim = [] ∨ passages = []
  · have halt : (tokenize toLowerCase claim).length = 0 ∨ passages.length = 0 :=
      stop.imp (fun h => by simp [h]) fun h => by simp [h]
    unfold assessWebAccessClaim at cited
    rw [if_pos halt] at cited
    cases cited
  · obtain ⟨terms,some_⟩ := not_or.mp stop
    obtain ⟨supports,contradicts,_⟩ := assessed terms some_
    rw [supports,contradicts] at cited
    rcases List.mem_append.mp cited with one | other
    · obtain ⟨passage,member,same⟩ := List.mem_map.mp one
      exact ⟨passage,(List.mem_filter.mp member).1,same⟩
    · obtain ⟨passage,member,same⟩ := List.mem_map.mp other
      exact ⟨passage,(List.mem_filter.mp member).1,same⟩

/-- A source check is well formed just when ranks that repeat do not number two passages alike and no sentence taken from a page
follows directly on a terminator. -/
theorem wellFormedExactly (toLowerCase : JsString → JsString) (classify : JsString → WebAccessSourceQuality) (hash : JsString → JsString)
    (id : JsString) (input : WebAccessSourceCheckInput) : WellFormed input (buildWebAccessSourceCheck toLowerCase classify hash id input) ↔
      RanksApart toLowerCase input (checkSources classify hash input [] 0 input.results) ∧
        SentencesWhole toLowerCase input (checkSources classify hash input [] 0 input.results) := by
  constructor
  · intro formed
    refine ⟨idsOnce.mp formed.ids,fun source member page known span inside => ?_⟩
    obtain ⟨place,less,here⟩ := List.getElem_of_mem inside
    have there : spanPassage hash source place span ∈ (buildWebAccessSourceCheck toLowerCase classify hash id input).passages := by
      refine List.mem_flatMap.mpr ⟨source,member,List.mem_append_right _ (List.mem_mapIdx.mpr ⟨place,less,?_⟩)⟩
      rw [here]
    obtain ⟨page',known',_,_,start⟩ := formed.pages _ there _ _ rfl
    obtain ⟨page'',known'',found⟩ := spanFound inside
    obtain rfl : page'' = page := Option.some.inj (known''.symm.trans known)
    obtain rfl : page' = page'' := Option.some.inj (known'.symm.trans known)
    exact (startExactly found).mp start
  · rintro ⟨apart,whole⟩
    refine ⟨idsOnce.mpr apart,fun passage member start end_ spanned => ?_,fun assessments listed assessment member cited there => ?_⟩
    · obtain ⟨source,inside,made⟩ := List.mem_flatMap.mp member
      rcases List.mem_append.mp made with snippet | span
      · obtain ⟨text,_,rfl⟩ := Option.map_eq_some_iff.mp (Option.mem_toList.mp snippet)
        cases spanned
      · obtain ⟨place,less,rfl⟩ := List.mem_mapIdx.mp span
        cases spanned
        obtain ⟨page,known,found⟩ := spanFound (List.getElem_mem less)
        exact ⟨page,known,found.text,found.bounded,(startExactly found).mpr (whole source inside page known _ (List.getElem_mem less))⟩
    · obtain ⟨claims,_,rfl⟩ := Option.map_eq_some_iff.mp listed
      obtain ⟨claim,_,rfl⟩ := List.mem_map.mp member
      exact assessedCites there

theorem ranksRepeat : ¬ WellFormed
    { query := js "q", results := [⟨js "t",js "https://a.example",some (js "one"),some (.int 1)⟩,
      ⟨js "t",js "https://b.example",some (js "two"),some (.int 1)⟩] }
    (buildWebAccessSourceCheck (fun text => text) (fun _ => .unknown) (fun text => text) (js "id")
      { query := js "q", results := [⟨js "t",js "https://a.example",some (js "one"),some (.int 1)⟩,
        ⟨js "t",js "https://b.example",some (js "two"),some (.int 1)⟩] }) := by
  intro formed
  exact absurd formed.ids (by decide)

end Artifact
end Northstar.Web.SourceCheck
