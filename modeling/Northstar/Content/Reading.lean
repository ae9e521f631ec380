import Northstar.Content.DataUri
import Northstar.Rewriting

/-! The sanitiser's loop as one reading of the text from left to right: which segments it takes for inline
data URIs and what it keeps. -/
namespace Northstar.Content
open Rewriting

/- The segment that the scan takes at a place. -/
def inlineAt : Recogniser UInt16 := fun before rest =>
  if matchesDataScheme rest && isSchemeBoundary before then
    let candidate := scanDataUriCandidate before rest
    if candidate.bareLabel then none else some (5 + candidate.body.length)
  else none

theorem schemeUnits {rest : JsString} (h : matchesDataScheme rest) :
    ∃ d a t last tail, rest = d :: a :: t :: last :: 58 :: tail ∧ asciiLowerCode d = 100 ∧ asciiLowerCode a = 97 ∧
      asciiLowerCode t = 116 ∧ asciiLowerCode last = 97 := by
  unfold matchesDataScheme at h
  split at h
  · rename_i d a t last colon tail
    simp only [Bool.and_eq_true,decide_eq_true_eq] at h
    obtain ⟨⟨⟨⟨first,second⟩,third⟩,fourth⟩,rfl⟩ := h
    exact ⟨d,a,t,last,tail,rfl,first,second,third,fourth⟩
  · cases h

theorem schemeHead {u : UInt16} {rest : JsString} (h : asciiLowerCode u ≠ 100) : matchesDataScheme (u :: rest) = false :=
  Bool.eq_false_iff.mpr fun found => by
    obtain ⟨d,a,t,last,tail,same,first,_⟩ := schemeUnits found
    exact h ((List.cons.inj same).1 ▸ first)

def closer : DataUriEnclosure → UInt16
  | .quote close => close
  | .parentheses => 41
  | .angle => 62

theorem enclosedEnds {enclosure : DataUriEnclosure} {depth : Nat} {rest body : JsString}
    (closed : scanEnclosedCandidate enclosure depth rest = some body) : ∃ more, rest = body ++ closer enclosure :: more := by
  induction rest generalizing depth body with
  | nil => cases closed
  | cons ch rest ih =>
    have further {more : Nat} (h : (scanEnclosedCandidate enclosure more rest).map (ch :: ·) = some body) :
        ∃ more, ch :: rest = body ++ closer enclosure :: more := by
      obtain ⟨inner,found,rfl⟩ := Option.map_eq_some_iff.mp h
      obtain ⟨after,same⟩ := ih found
      exact ⟨after,congrArg (ch :: ·) same⟩
    have here (h : some [] = some body) (same : ch = closer enclosure) : ∃ more, ch :: rest = body ++ closer enclosure :: more :=
      ⟨rest,by rw [← Option.some.inj h,← same]; rfl⟩
    unfold scanEnclosedCandidate at closed
    cases enclosure with
    | quote close =>
      dsimp only at closed
      split at closed
      · exact here closed ‹_›
      · exact further closed
    | parentheses =>
      dsimp only at closed
      split at closed
      · exact further closed
      · split at closed
        · split at closed
          · exact here closed ‹_›
          · exact further closed
        · exact further closed
    | angle =>
      dsimp only at closed
      split at closed
      · exact here closed ‹_›
      · exact further closed

theorem quoteKind {before : JsString} {close : UInt16} (h : dataUriEnclosure before = some (.quote close)) : quoteUnit close := by
  unfold dataUriEnclosure at h
  split at h
  · cases h
  · split at h
    · rename_i opening
      cases h
      exact (Bool.and_eq_true_iff.mp opening).1
    · unfold openerEnclosure at h
      split at h <;> cases h

theorem closerEnds {before : JsString} {enclosure : DataUriEnclosure} (h : dataUriEnclosure before = some enclosure) :
    asciiLowerCode (closer enclosure) ≠ 100 := by
  cases enclosure with
  | quote close =>
    have quote := quoteKind h
    simp only [quoteUnit,Bool.or_eq_true,decide_eq_true_eq] at quote
    rcases quote with (rfl | rfl) | rfl <;> decide
  | parentheses => decide
  | angle => decide

theorem terminatorEnds {u : UInt16} (h : isBareDataUriTerminator u) : asciiLowerCode u ≠ 100 := by
  intro lower
  unfold asciiLowerCode at lower
  simp only [isBareDataUriTerminator,Bool.or_eq_true,decide_eq_true_eq,UInt16.le_iff_toNat_le,← UInt16.toNat_inj,
    UInt16.reduceToNat] at h
  split at lower
  · rename_i capital
    simp only [UInt16.le_iff_toNat_le,UInt16.reduceToNat] at capital
    have value : (u + 32).toNat = 100 := congrArg UInt16.toNat lower
    rw [UInt16.toNat_add] at value
    simp at value
    omega
  · have value : u.toNat = 100 := congrArg UInt16.toNat lower
    omega

/- What stands after a segment, if anything, begins no scheme. -/
def Ended (rest : JsString) : Prop := ∀ u more, rest = u :: more → asciiLowerCode u ≠ 100

theorem scanEnds (before rest : JsString) : ∃ more, rest.drop 5 = (scanDataUriCandidate before rest).body ++ more ∧ Ended more := by
  have bare : ∃ more, rest.drop 5 = scanBareCandidate (rest.drop 5) ++ more ∧ Ended more := by
    refine ⟨_,List.takeWhile_append_dropWhile.symm,fun u more same => ?_⟩
    have stops := List.head?_dropWhile_not (fun ch => !isBareDataUriTerminator ch) (rest.drop 5)
    rw [same] at stops
    exact terminatorEnds (by simpa using stops)
  unfold scanDataUriCandidate
  dsimp only
  split
  · rename_i enclosure opened
    split
    · rename_i closed
      obtain ⟨more,same⟩ := enclosedEnds closed
      exact ⟨_,same,fun u more same => (List.cons.inj same).1 ▸ closerEnds opened⟩
    · exact bare
  · exact bare

theorem scanPrefix (before rest : JsString) : (scanDataUriCandidate before rest).body <+: rest.drop 5 := by
  obtain ⟨more,same,_⟩ := scanEnds before rest
  exact ⟨more,same.symm⟩

theorem inlineFound {before rest : JsString} {n : Nat} (h : inlineAt before rest = some n) :
    matchesDataScheme rest ∧ isSchemeBoundary before ∧ ¬(scanDataUriCandidate before rest).bareLabel ∧
      n = 5 + (scanDataUriCandidate before rest).body.length := by
  unfold inlineAt at h
  split at h
  · rename_i scheme
    obtain ⟨found,bound⟩ := Bool.and_eq_true_iff.mp scheme
    dsimp only at h
    split at h
    · cases h
    · rename_i some_
      exact ⟨found,bound,some_,(Option.some.inj h).symm⟩
  · cases h

theorem inlineWithin : Within inlineAt := by
  intro before rest n h
  obtain ⟨scheme,_,_,rfl⟩ := inlineFound h
  obtain ⟨d,a,t,last,tail,rfl,_⟩ := schemeUnits scheme
  have inside := (scanPrefix before (d :: a :: t :: last :: 58 :: tail)).length_le
  simp only [List.length_drop,List.length_cons] at inside ⊢
  omega

theorem findNone {before rest : JsString} (h : findNextDataScheme before rest = none) {near far : JsString} {u : UInt16}
    (split : rest = near ++ u :: far) : (matchesDataScheme (u :: far) && isSchemeBoundary (near.reverse ++ before)) = false := by
  induction near generalizing before rest with
  | nil =>
    obtain rfl : rest = u :: far := split
    unfold findNextDataScheme at h
    split at h
    · cases h
    · rename_i unmatched
      exact Bool.eq_false_iff.mpr unmatched
  | cons v near ih =>
    subst split
    rw [List.cons_append] at h
    unfold findNextDataScheme at h
    split at h
    · cases h
    · rw [List.reverse_cons,List.append_assoc]
      exact ih (Option.map_eq_none_iff.mp h) rfl

theorem findSome {before rest : JsString} {start : Nat} (h : findNextDataScheme before rest = some start) :
    ∃ skipped from_, rest = skipped ++ from_ ∧ skipped.length = start ∧ matchesDataScheme from_ ∧
      isSchemeBoundary (skipped.reverse ++ before) ∧ ∀ near u far, skipped = near ++ u :: far →
        (matchesDataScheme (u :: far ++ from_) && isSchemeBoundary (near.reverse ++ before)) = false := by
  induction rest generalizing before start with
  | nil => cases h
  | cons v rest ih =>
    unfold findNextDataScheme at h
    split at h
    · rename_i scheme
      obtain ⟨found,bound⟩ := Bool.and_eq_true_iff.mp scheme
      exact ⟨[],v :: rest,rfl,Option.some.inj h,found,bound,fun near u far same => absurd same (by simp)⟩
    · rename_i unmatched
      obtain ⟨k,found,rfl⟩ := Option.map_eq_some_iff.mp h
      obtain ⟨skipped,from_,rfl,rfl,scheme,bound,none_⟩ := ih found
      refine ⟨v :: skipped,from_,rfl,rfl,scheme,?_,fun near u far same => ?_⟩
      · rwa [List.reverse_cons,List.append_assoc]
      · cases near with
        | nil =>
          obtain ⟨rfl,rfl⟩ := List.cons.inj same
          exact Bool.eq_false_iff.mpr unmatched
        | cons w near =>
          obtain ⟨rfl,rfl⟩ := List.cons.inj same
          rw [List.reverse_cons,List.append_assoc]
          exact none_ near u far rfl

theorem inlineNone {before rest : JsString} (h : (matchesDataScheme rest && isSchemeBoundary before) = false) :
    inlineAt before rest = none := by
  rw [inlineAt,h]
  rfl

/- The units of a scheme after its first begin none. -/
theorem labelFree {before : JsString} {d a t last : UInt16} {tail : JsString} (scheme : matchesDataScheme (d :: a :: t :: last :: 58 :: tail))
    (label : inlineAt before (d :: a :: t :: last :: 58 :: tail) = none) {near far : JsString} {u : UInt16}
    (within : [d,a,t,last,58] = near ++ u :: far) : inlineAt (near.reverse ++ before) (u :: far ++ tail) = none := by
  obtain ⟨_,_,_,_,_,same,_,second,third,fourth⟩ := schemeUnits scheme
  simp only [List.cons.injEq] at same
  obtain ⟨rfl,rfl,rfl,rfl,_⟩ := same
  have free (v : UInt16) (rest : JsString) (other : asciiLowerCode v ≠ 100) (b : JsString) : inlineAt b (v :: rest) = none :=
    inlineNone (by rw [schemeHead other]; rfl)
  rcases near with _ | ⟨n1,_ | ⟨n2,_ | ⟨n3,_ | ⟨n4,_ | ⟨n5,more⟩⟩⟩⟩⟩ <;>
    simp only [List.nil_append,List.cons_append,List.cons.injEq,List.nil_eq,reduceCtorEq,and_false,
      List.append_eq_nil_iff] at within
  · obtain ⟨rfl,rfl⟩ := within
    exact label
  · obtain ⟨rfl,rfl,rfl⟩ := within
    exact free _ _ (second ▸ by decide) _
  · obtain ⟨rfl,rfl,rfl,rfl⟩ := within
    exact free _ _ (third ▸ by decide) _
  · obtain ⟨rfl,rfl,rfl,rfl,rfl⟩ := within
    exact free _ _ (fourth ▸ by decide) _
  · obtain ⟨rfl,rfl,rfl,rfl,rfl,rfl⟩ := within
    exact free _ _ (by decide) _

section Refining

variable (sha256 : Bytes → Bytes) (sourcePath : JsString)

/- The omission of the n-th segment, and its marker. -/
def omissionAt (n : Nat) (segment : JsString) : DataUriOmission := omissionOf sha256 sourcePath n (segment.drop 5)

def markerAt (n : Nat) (segment : JsString) : JsString := buildDataUriMarker (omissionAt sha256 sourcePath n segment)

variable {sha256 sourcePath}

/- What one turn of the loop reads: up to the next scheme, and that as a label or as a segment. -/
theorem readTurn {before rest : JsString} {start : Nat} (h : findNextDataScheme before rest = some start) :
    ∃ skipped from_ candidate, rest = skipped ++ from_ ∧ skipped.length = start ∧
      candidate = scanDataUriCandidate (skipped.reverse ++ before) from_ ∧ 5 + candidate.body.length ≤ from_.length ∧
      (candidate.bareLabel → Reading inlineAt before rest ((skipped ++ from_.take 5).map .kept ++
        readParts inlineAt 0 ((skipped ++ from_.take 5).reverse ++ before) (from_.drop 5))) ∧
      (¬candidate.bareLabel → candidate.body = (from_.take (5 + candidate.body.length)).drop 5 ∧
        Reading inlineAt before rest (skipped.map .kept ++ .omitted (from_.take (5 + candidate.body.length)) ::
          readParts inlineAt 0 ((skipped ++ from_.take (5 + candidate.body.length)).reverse ++ before)
            (from_.drop (5 + candidate.body.length)))) := by
  obtain ⟨skipped,from_,rfl,size,scheme,bound,none_⟩ := findSome h
  have over_ (near : JsString) (u : UInt16) (far : JsString) (same : skipped = near ++ u :: far) :
      inlineAt (near.reverse ++ before) (u :: far ++ from_) = none := inlineNone (none_ near u far same)
  have body := scanPrefix (skipped.reverse ++ before) from_
  obtain ⟨d,a,t,last,tail,rfl,_⟩ := schemeUnits scheme
  refine ⟨skipped,_,_,rfl,size,rfl,?_,fun bare => ?_,fun inline => ?_⟩
  · have inside := body.length_le
    simp only [List.length_drop,List.length_cons] at inside ⊢
    omega
  · have label : inlineAt (skipped.reverse ++ before) (d :: a :: t :: last :: 58 :: tail) = none := by
      rw [inlineAt,if_pos (Bool.and_eq_true_iff.mpr ⟨scheme,bound⟩)]
      exact if_pos bare
    rw [List.map_append,List.append_assoc]
    refine readOver _ over_ ?_
    refine readOver [d,a,t,last,58] (fun near u far same => labelFree scheme label same) ?_
    rw [← List.append_assoc,← List.reverse_append]
    exact readReading inlineWithin _ _
  · have found : inlineAt (skipped.reverse ++ before) (d :: a :: t :: last :: 58 :: tail) =
        some (5 + (scanDataUriCandidate (skipped.reverse ++ before) (d :: a :: t :: last :: 58 :: tail)).body.length) := by
      rw [inlineAt,if_pos (Bool.and_eq_true_iff.mpr ⟨scheme,bound⟩)]
      exact if_neg inline
    refine ⟨?_,readOver _ over_ ?_⟩
    · rw [List.drop_take,Nat.add_sub_cancel_left]
      exact List.prefix_iff_eq_take.mp body
    · have step := readTaken inlineWithin found (readReading inlineWithin _ _)
      rwa [← List.append_assoc,← List.reverse_append] at step

theorem stepsRead {fuel : Nat} {before retained rest : JsString} {state : SanitizationState} (enough : rest.length < fuel) :
    sanitizeSteps sha256 sourcePath fuel before retained rest state =
      ⟨state.pieces ++ (retained ++ rendered (markerAt sha256 sourcePath) (state.omissions.length + 1) (readParts inlineAt 0 before rest)),
        state.omissions ++ numbered (omissionAt sha256 sourcePath) (state.omissions.length + 1) (readParts inlineAt 0 before rest)⟩ := by
  induction fuel generalizing before retained rest state with
  | zero => exact absurd enough (Nat.not_lt_zero _)
  | succ fuel ih =>
    unfold sanitizeSteps
    cases next : findNextDataScheme before rest with
    | none =>
      have clear : Clear inlineAt before rest := by
        intro pre post same
        cases post with
        | nil => exact inlineNone rfl
        | cons u far => exact inlineNone (findNone next same)
      have reading := readReading inlineWithin before rest
      have none_ := (clearReading reading inlineWithin).mp clear
      rw [renderedNone none_,numberedNone.mpr none_,readSource reading,List.append_nil]
    | some start =>
      obtain ⟨skipped,from_,candidate,rfl,rfl,scanned,fits,label,inline⟩ := readTurn next
      have taken (n : Nat) : (skipped ++ from_).take (skipped.length + n) = skipped ++ from_.take n := List.take_length_add_append n
      have dropped (n : Nat) : (skipped ++ from_).drop (skipped.length + n) = from_.drop n := List.drop_length_add_append n
      simp only [List.take_left,List.drop_left,← scanned,taken,dropped]
      rw [List.length_append] at enough
      split
      · rename_i bare
        rw [ih (by rw [List.length_drop]; omega),readingParts (label bare),renderedKept,numberedKept,List.append_assoc]
      · rename_i some_
        obtain ⟨body,reading⟩ := inline some_
        rw [ih (by rw [List.length_drop]; omega),readingParts reading,renderedKept,numberedKept]
        simp only [rendered,numbered,markerAt,omissionAt,← body,List.length_append,List.length_singleton,List.append_assoc,
          List.nil_append,List.singleton_append]

end Refining

theorem sanitizeRead (sha256 : Bytes → Bytes) (text sourcePath : JsString) : sanitizeInlineDataUris sha256 text sourcePath =
    ⟨rendered (markerAt sha256 sourcePath) 1 (readParts inlineAt 0 [] text),
      numbered (omissionAt sha256 sourcePath) 1 (readParts inlineAt 0 [] text)⟩ := by
  rw [sanitizeInlineDataUris,stepsRead (Nat.lt_succ_self _)]
  rfl

end Northstar.Content
