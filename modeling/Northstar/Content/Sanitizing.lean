import Northstar.Content.Markers

/-! What sanitising leaves of a text: every inline data URI is a marker, the rest is as it was. -/
namespace Northstar.Content
open Rewriting

/- What stands before a place in a text and in its output: the same units back to the last segment, whose
marker ends with a bracket. -/
inductive Facing : JsString → JsString → JsString → JsString → Prop
  | first (near rest) : Facing near near near rest
  | after (near far out : JsString) {rest : JsString} (ended : near = [] → Ended rest) : Facing near (near ++ far) (near ++ 93 :: out) rest

theorem facingKeep {near before before' rest : JsString} {u : UInt16} (h : Facing near before before' (u :: rest)) :
    Facing (u :: near) (u :: before) (u :: before') rest := by
  cases h with
  | first => exact .first _ _
  | after far out => exact .after (u :: near) far out fun empty => absurd empty (List.cons_ne_nil _ _)

theorem facingLeave (sha256 : Bytes → Bytes) (sourcePath : JsString) (n : Nat) (before' : JsString) {before segment rest : JsString}
    (found : inlineAt before (segment ++ rest) = some segment.length) :
    Facing [] (segment.reverse ++ before) ((markerAt sha256 sourcePath n segment).reverse ++ before') rest := by
  obtain ⟨inner,brackets⟩ := markerBrackets (omissionAt sha256 sourcePath n segment)
  rw [markerAt,brackets,List.reverse_cons,List.reverse_append,List.reverse_singleton,List.append_assoc,List.append_assoc,
    List.singleton_append]
  refine .after [] _ _ fun _ => ?_
  obtain ⟨_,_,_,size⟩ := inlineFound found
  obtain ⟨more,same,ended⟩ := scanEnds before (segment ++ rest)
  have tail : (segment ++ rest).drop segment.length = more := by
    rw [size,← List.drop_drop,same,List.drop_left]
  rw [List.drop_left] at tail
  exact tail ▸ ended

/- The units kept since the last segment, backwards. -/
def nearAfter (near : JsString) (parts : List (Piece UInt16)) : JsString := parts.foldl (fun near part => match part with
  | .kept u => u :: near
  | .omitted _ => []) near

/- A scheme in the output stands where a kept unit does. -/
theorem schemePlaces {sha256 : Bytes → Bytes} {sourcePath : JsString} {n : Nat} {before rest : JsString} {parts : List (Piece UInt16)}
    (reading : Reading inlineAt before rest parts) {near before' : JsString} (facing : Facing near before before' rest)
    {pre post : JsString} (split : rendered (markerAt sha256 sourcePath) n parts = pre ++ post) (scheme : matchesDataScheme post) :
    ∃ done left k earlier from_, parts = done ++ left ∧ post = rendered (markerAt sha256 sourcePath) k left ∧
      Reading inlineAt earlier from_ left ∧ Facing (nearAfter near done) earlier (pre.reverse ++ before') from_ := by
  induction reading generalizing n near before' pre with
  | done =>
    obtain ⟨rfl,rfl⟩ := List.append_eq_nil_iff.mp split.symm
    cases scheme
  | @keep before u rest parts free tail ih =>
    cases pre with
    | nil => exact ⟨[],_,n,_,_,rfl,split.symm,.keep free tail,facing⟩
    | cons v pre =>
      obtain ⟨rfl,others⟩ := List.cons.inj split
      obtain ⟨done,left,k,earlier,from_,rfl,same,reading,facing⟩ := ih (facingKeep facing) others
      refine ⟨.kept u :: done,left,k,earlier,from_,rfl,same,reading,?_⟩
      rwa [List.reverse_cons,List.append_assoc]
  | @leave before segment rest parts some_ found tail ih =>
    have quiet := omissionQuiet sha256 sourcePath n (segment.drop 5)
    rw [rendered] at split
    have beyond (more : JsString) (same : pre = markerAt sha256 sourcePath n segment ++ more)
        (others : rendered (markerAt sha256 sourcePath) (n + 1) parts = more ++ post) :
        ∃ done left k earlier from_, .omitted segment :: parts = done ++ left ∧ post = rendered (markerAt sha256 sourcePath) k left ∧
          Reading inlineAt earlier from_ left ∧ Facing (nearAfter near done) earlier (pre.reverse ++ before') from_ := by
      obtain ⟨done,left,k,earlier,from_,rfl,there,reading,facing⟩ := ih (facingLeave sha256 sourcePath n before' found) others
      refine ⟨.omitted segment :: done,left,k,earlier,from_,rfl,there,reading,?_⟩
      rwa [same,List.reverse_append,List.append_assoc]
    rcases List.append_eq_append_iff.mp split with ⟨more,same,others⟩ | ⟨s,within,others⟩
    · exact beyond more same others
    · cases s with
      | nil =>
        exact beyond [] (by rw [within,List.append_nil,List.append_nil]) (by rw [others]; rfl)
      | cons u s =>
        rw [others,markerFree quiet within (List.cons_ne_nil _ _)] at scheme
        cases scheme

/- A unit of the output that opens no marker is a kept one. -/
theorem keptHead {sha256 : Bytes → Bytes} {sourcePath : JsString} {k : Nat} {before rest more : JsString} {parts : List (Piece UInt16)}
    {v : UInt16} (reading : Reading inlineAt before rest parts) (head : rendered (markerAt sha256 sourcePath) k parts = v :: more)
    (other : v ≠ 91) : ∃ tail rest', parts = .kept v :: tail ∧ rest = v :: rest' ∧ more = rendered (markerAt sha256 sourcePath) k tail ∧
      inlineAt before rest = none ∧ Reading inlineAt (v :: before) rest' tail := by
  cases reading with
  | done => cases head
  | keep free tail =>
    obtain ⟨rfl,rfl⟩ := List.cons.inj head
    exact ⟨_,_,rfl,rfl,rfl,free,tail⟩
  | @leave _ segment =>
    obtain ⟨inner,brackets⟩ := markerBrackets (omissionAt sha256 sourcePath k segment)
    rw [rendered,markerAt,brackets] at head
    exact absurd (List.cons.inj head).1.symm other

/- A kept label: nothing follows its scheme, and what it is in does not close. -/
structure KeptLabel (earlier label rest : JsString) : Prop where
  size : label.length = 5
  scheme : matchesDataScheme label
  bare : ∀ u more, rest = u :: more → isBareDataUriTerminator u
  unclosed : ∀ enclosure, dataUriEnclosure earlier = some enclosure → scanEnclosedCandidate enclosure (startDepth enclosure) rest = none

theorem labelRead {earlier label rest : JsString} (size : label.length = 5) (scheme : matchesDataScheme label)
    (boundary : isSchemeBoundary earlier) (free : inlineAt earlier (label ++ rest) = none)
    (long : matchesDataScheme (label ++ rest)) : KeptLabel earlier label rest := by
  have bareLabel : (scanDataUriCandidate earlier (label ++ rest)).bareLabel := by
    by_contra some_
    rw [inlineAt,if_pos (Bool.and_eq_true_iff.mpr ⟨long,boundary⟩)] at free
    dsimp only at free
    rw [if_neg some_] at free
    cases free
  obtain ⟨_,empty,none_⟩ := bareLabel
  have tail : (label ++ rest).drop 5 = rest := List.drop_left' size
  have bare (h : scanBareCandidate rest = []) (u : UInt16) (more : JsString) (same : rest = u :: more) : isBareDataUriTerminator u := by
    rw [same,scanBareCandidate,List.takeWhile_cons] at h
    split at h
    · cases h
    · rename_i stops
      simpa using stops
  unfold scanDataUriCandidate at empty none_
  rw [tail] at empty none_
  dsimp only at empty none_
  split at empty
  · rename_i enclosure opened
    rw [opened] at none_
    dsimp only at none_
    split at empty
    · rename_i closed
      rw [closed] at none_
      cases none_
    · rename_i unclosed
      exact ⟨size,scheme,bare empty,fun other same => Option.some.inj (opened.symm.trans same) ▸ unclosed⟩
  · rename_i unopened
    exact ⟨size,scheme,bare empty,fun other same => by cases unopened.symm.trans same⟩

theorem boundaryFacing {near earlier before' rest : JsString} {u : UInt16} {more : JsString} (facing : Facing near earlier before' rest)
    (starts : rest = u :: more) (lower : asciiLowerCode u = 100) : isSchemeBoundary before' = isSchemeBoundary earlier := by
  cases facing with
  | first => rfl
  | after far out ended =>
    cases near with
    | nil => exact absurd lower (ended rfl u more starts)
    | cons v near => rfl

theorem placeLabel {sha256 : Bytes → Bytes} {sourcePath : JsString} {k : Nat} {near earlier before' rest : JsString}
    {parts : List (Piece UInt16)} (reading : Reading inlineAt earlier rest parts) (facing : Facing near earlier before' rest)
    (scheme : matchesDataScheme (rendered (markerAt sha256 sourcePath) k parts)) (boundary : isSchemeBoundary before') :
    ∃ label tail rest', parts = label.map .kept ++ tail ∧ rest = label ++ rest' ∧ KeptLabel earlier label rest' ∧
      rendered (markerAt sha256 sourcePath) k parts = label ++ rendered (markerAt sha256 sourcePath) k tail ∧
      Reading inlineAt (label.reverse ++ earlier) rest' tail := by
  obtain ⟨d,a,t,l,after,same,first,second,third,fourth⟩ := schemeUnits scheme
  have other {v : UInt16} (h : asciiLowerCode v ≠ 91) : v ≠ 91 := fun bracket => h (by rw [bracket]; decide)
  obtain ⟨parts,rest,rfl,rfl,same',free,reading⟩ := keptHead reading same (other (first ▸ by decide))
  obtain ⟨parts,rest,rfl,rfl,same',_,reading⟩ := keptHead reading same'.symm (other (second ▸ by decide))
  obtain ⟨parts,rest,rfl,rfl,same',_,reading⟩ := keptHead reading same'.symm (other (third ▸ by decide))
  obtain ⟨parts,rest,rfl,rfl,same',_,reading⟩ := keptHead reading same'.symm (other (fourth ▸ by decide))
  obtain ⟨parts,rest,rfl,rfl,same',_,reading⟩ := keptHead reading same'.symm (by decide)
  have label (more : JsString) : matchesDataScheme (d :: a :: t :: l :: 58 :: more) := by
    rw [matchesDataScheme,first,second,third,fourth]
    rfl
  rw [boundaryFacing facing rfl first] at boundary
  refine ⟨[d,a,t,l,58],parts,rest,rfl,rfl,labelRead rfl (label []) boundary free (label rest),?_,reading⟩
  rw [same,same']
  rfl

theorem labelFollowed {sha256 : Bytes → Bytes} {sourcePath : JsString} {k : Nat} {before rest : JsString} {parts : List (Piece UInt16)}
    (reading : Reading inlineAt before rest parts) (bare : ∀ u more, rest = u :: more → isBareDataUriTerminator u) {u : UInt16}
    {more : JsString} (head : rendered (markerAt sha256 sourcePath) k parts = u :: more) : isBareDataUriTerminator u := by
  cases reading with
  | done => cases head
  | keep =>
    obtain ⟨rfl,_⟩ := List.cons.inj head
    exact bare _ _ rfl
  | leave _ found =>
    obtain ⟨scheme,_⟩ := inlineFound found
    obtain ⟨d,a,t,l,tail,same,first,_⟩ := schemeUnits scheme
    exact absurd first (terminatorEnds (bare d _ same))

theorem schemeFront {segment rest : JsString} (h : matchesDataScheme (segment ++ rest)) (long : 5 ≤ segment.length) :
    matchesDataScheme segment := by
  obtain ⟨d,a,t,l,tail,same,first,second,third,fourth⟩ := schemeUnits h
  have front := congrArg (List.take 5) same
  rw [List.take_append_of_le_length long] at front
  have whole := (List.take_append_drop 5 segment).symm.trans (congrArg (· ++ segment.drop 5) front)
  rw [whole]
  change matchesDataScheme (d :: a :: t :: l :: 58 :: _) = true
  rw [matchesDataScheme,first,second,third,fourth]
  rfl

theorem ordinalOf (sha256 : Bytes → Bytes) (sourcePath : JsString) (n : Nat) (body : JsString) :
    (omissionOf sha256 sourcePath n body).ordinal = n := by
  unfold omissionOf
  dsimp only
  split
  · rfl
  split
  · rfl
  split <;> rfl

/- The scheme stands alone: a terminator follows it, or nothing. -/
def BareScheme (rest : JsString) : Prop := ∀ u more, rest.drop 5 = u :: more → isBareDataUriTerminator u

/-- Sanitising replaces segments that begin with the scheme by markers, numbered in order, keeps everything
else, and leaves the scheme only as a bare label. -/
theorem inlineRemoved (sha256 : Bytes → Bytes) (text sourcePath : JsString) :
    Spliced (fun segment => matchesDataScheme segment = true) text (sanitizeInlineDataUris sha256 text sourcePath).pieces
      ((sanitizeInlineDataUris sha256 text sourcePath).omissions.map buildDataUriMarker) ∧
    (sanitizeInlineDataUris sha256 text sourcePath).omissions.map DataUriOmission.ordinal =
      List.range' 1 (sanitizeInlineDataUris sha256 text sourcePath).omissions.length ∧
    ∀ before rest, (sanitizeInlineDataUris sha256 text sourcePath).pieces = before ++ rest → matchesDataScheme rest →
      isSchemeBoundary before.reverse → BareScheme rest := by
  have reading := readReading inlineWithin [] text
  rw [sanitizeRead]
  refine ⟨?_,?_,fun before rest split scheme boundary u more follows => ?_⟩
  · rw [numberedMap]
    refine readSpliced reading (fun before segment rest found => ?_) 1
    obtain ⟨scheme,_,_,size⟩ := inlineFound found
    exact schemeFront scheme (size ▸ Nat.le_add_right 5 _)
  · have orders := numberedMap (omissionAt sha256 sourcePath) DataUriOmission.ordinal 1 (readParts inlineAt 0 [] text)
    simp only [omissionAt,ordinalOf] at orders
    rw [numberedOrder] at orders
    have count := congrArg List.length orders
    rw [List.length_map,List.length_range'] at count
    exact orders.trans (by rw [count])
  · obtain ⟨done,left,k,earlier,from_,_,rfl,reading,facing⟩ := schemePlaces reading (.first [] text) split scheme
    rw [List.append_nil] at facing
    obtain ⟨label,tail,rest',rfl,rfl,kept,same,reading⟩ := placeLabel reading facing scheme boundary
    rw [same,List.drop_left' kept.size] at follows
    exact labelFollowed reading kept.bare follows

end Northstar.Content
