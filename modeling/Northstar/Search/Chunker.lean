import Mathlib.Data.List.Basic
import Northstar.Script

/-! Splitting a text into chunks (chunker.ts): at sentences, at paragraphs where there is at most
one sentence, into slices of fixed size where there is no paragraph either. Positions are
counted in UTF-16 units; a slice does not end inside a pair. -/
namespace Northstar.Chunker

structure TextChunk where
  text : JsString
  first : Nat
  last : Nat
  deriving DecidableEq, Repr

structure ChunkOptions where
  maxChars : Nat := 2048
  overlap : Nat := 512
  minChars : Nat := 100
  deriving DecidableEq, Repr

structure Span where
  first : Nat
  last : Nat
  deriving DecidableEq, Repr

def slice (text : JsString) (first last : Nat) : JsString := (text.take last).drop first

/- The matches of a pattern from left to right, each with its index and length; the pattern is
the length it matches behind a unit, zero where it does not. -/
def matchesFrom (width : Option UInt16 → JsString → Nat) : Nat → Nat → Option UInt16 → JsString → List (Nat × Nat)
  | _, _, _, [] => []
  | skip + 1, i, _, u :: rest => matchesFrom width skip (i + 1) (some u) rest
  | 0, i, before, u :: rest => match width before (u :: rest) with
      | 0 => matchesFrom width 0 (i + 1) (some u) rest
      | n + 1 => (i,n + 1) :: matchesFrom width n (i + 1) (some u) rest

/- `(?<=[.!?])\s+(?=\p{L})`: a blank is no letter, so all the blanks are matched. -/
def sentenceBreak (letter : JsString → Bool) (before : Option UInt16) (rest : JsString) : Nat :=
  let blanks := (rest.takeWhile whiteSpace).length
  let ended := before.any fun u => u = 46 || u = 33 || u = 63
  if ended && (points ((rest.drop blanks).take 2)).head?.any letter then blanks else 0

/- `\n\n+` -/
def paragraphBreak (_ : Option UInt16) (rest : JsString) : Nat :=
  let newlines := (rest.takeWhile (· == 10)).length
  if 2 ≤ newlines then newlines else 0

def spansFrom (length : Nat) : Nat → List (Nat × Nat) → List Span
  | lastEnd, [] => if lastEnd < length then [⟨lastEnd,length⟩] else []
  | lastEnd, found :: rest => ⟨lastEnd,found.1⟩ :: spansFrom length (found.1 + found.2) rest

def getSpans (text : JsString) (width : Option UInt16 → JsString → Nat) : List Span :=
  spansFrom text.length 0 (matchesFrom width 0 0 none text)

def unitAt (text : JsString) (i : Nat) (kind : UInt16 → Bool) : Bool := text[i]?.any kind

def safeSliceEnd (text : JsString) (pos maxLen : Nat) : Nat :=
  let capped := min (pos + maxLen) text.length
  let inside := capped < text.length && 0 < capped && unitAt text (capped - 1) highSurrogate && unitAt text capped lowSurrogate
  let last := if inside then capped - 1 else capped
  if 0 < pos && pos < text.length && unitAt text pos lowSurrogate then pos
  else if last ≤ pos then
    if unitAt text pos highSurrogate then min (pos + 2) text.length else min (pos + 1) text.length
  else last

/- A slice that is long enough to keep. -/
def keep (o : ChunkOptions) (text : JsString) (first last : Nat) : List TextChunk :=
  if o.minChars ≤ (slice text first last).length then [⟨slice text first last,first,last⟩] else []

def oversized (o : ChunkOptions) (text : JsString) (spanEnd subPos : Nat) : List TextChunk :=
  if subPos < spanEnd then
    let subEnd := min (safeSliceEnd text subPos o.maxChars) spanEnd
    if spanEnd ≤ subEnd then keep o text subPos subEnd
    else keep o text subPos subEnd ++ oversized o text spanEnd (max (subEnd - o.overlap) (subPos + 1))
  else []
termination_by spanEnd - subPos

/- How many spans one chunk takes, separators counted; the first is taken whatever its size. -/
def accumulate (maxChars : Nat) : Nat → Nat → List Span → Nat
  | _, taken, [] => taken
  | charLen, taken, span :: rest =>
      let longer := charLen + (if 0 < taken then 1 else 0) + (span.last - span.first)
      if maxChars < longer && 0 < taken then taken else accumulate maxChars longer (taken + 1) rest

/- How many of the last spans of a chunk, given from its end, overlap with the next. -/
def overlapping (overlap : Nat) : Nat → Nat → List Span → Nat
  | _, taken, [] => taken
  | overlapLen, taken, span :: rest =>
      let longer := overlapLen + (if 0 < taken then 1 else 0) + (span.last - span.first)
      if overlap < longer then taken else overlapping overlap longer (taken + 1) rest

def spanChunk (o : ChunkOptions) (text : JsString) (first last : Nat) : List TextChunk :=
  if o.maxChars < (slice text first last).length then oversized o text last first else keep o text first last

def chunkSpansFrom (o : ChunkOptions) (text : JsString) (spans : List Span) (i : Nat) : List TextChunk :=
  if inside : i < spans.length then
    let taken := (spans.drop i).take (accumulate o.maxChars 0 0 (spans.drop i))
    let j := i + taken.length
    let chunk := spanChunk o text spans[i].first ((taken.getLast?.getD spans[i]).last)
    let next := max (j - overlapping o.overlap 0 0 taken.reverse) (i + 1)
    if next < j && spans.length ≤ j then chunk else chunk ++ chunkSpansFrom o text spans next
  else []
termination_by spans.length - i

def chunkSpans (o : ChunkOptions) (text : JsString) (spans : List Span) : List TextChunk :=
  if spans.length ≤ 1 then [] else chunkSpansFrom o text spans 0

def fixedSlices (o : ChunkOptions) (text : JsString) (pos : Nat) : List TextChunk :=
  if pos < text.length then
    let last := safeSliceEnd text pos o.maxChars
    keep o text pos last ++ fixedSlices o text (max (last - o.overlap) (pos + 1))
  else []
termination_by text.length - pos

def splitText (letter : JsString → Bool) (o : ChunkOptions) (text : JsString) : List TextChunk :=
  let sentences := chunkSpans o text (getSpans text (sentenceBreak letter))
  let paragraphs := chunkSpans o text (getSpans text paragraphBreak)
  if text = [] then []
  else if text.length ≤ o.maxChars then if o.minChars ≤ text.length then [⟨text,0,text.length⟩] else []
  else if sentences ≠ [] then sentences
  else if paragraphs ≠ [] then paragraphs
  else fixedSlices o text 0

def chunkText (letter : JsString → Bool) (text : JsString) (o : ChunkOptions := {}) : Except String (List TextChunk) :=
  if o.maxChars = 0 then .error "maxChars must be positive"
  else if o.maxChars ≤ o.overlap then .error "overlap must be >= 0 and < maxChars"
  else .ok (splitText letter o text)

/- A chunk is the text between its ends, and no longer than it may be. -/
structure Cut (o : ChunkOptions) (text : JsString) (chunk : TextChunk) : Prop where
  part : chunk.text = slice text chunk.first chunk.last
  ends : chunk.first + chunk.text.length = chunk.last
  inside : chunk.last ≤ text.length
  least : o.minChars ≤ chunk.text.length
  most : chunk.text.length ≤ max o.maxChars 2

variable {o : ChunkOptions} {text : JsString}

theorem sliceLength (text : JsString) (first last : Nat) : (slice text first last).length = min last text.length - first := by
  rw [slice,List.length_drop,List.length_take]

theorem keptCut (positive : 1 ≤ o.minChars) {first last : Nat} (inside : last ≤ text.length)
    (short : (slice text first last).length ≤ max o.maxChars 2) : ∀ chunk ∈ keep o text first last, Cut o text chunk := by
  intro chunk member
  unfold keep at member
  split at member
  · rename_i long
    rw [List.mem_singleton.mp member]
    have size := sliceLength text first last
    rw [Nat.min_eq_left inside] at size
    exact ⟨rfl,by dsimp only; omega,inside,long,short⟩
  · exact (List.not_mem_nil member).elim

theorem sliceEndWithin {pos : Nat} (maxLen : Nat) (inside : pos ≤ text.length) :
    safeSliceEnd text pos maxLen ≤ text.length ∧ safeSliceEnd text pos maxLen ≤ pos + max maxLen 2 := by
  unfold safeSliceEnd
  dsimp only
  split_ifs <;> omega

theorem oversizedCut (positive : 1 ≤ o.minChars) {spanEnd : Nat} (inside : spanEnd ≤ text.length) (subPos : Nat) :
    ∀ chunk ∈ oversized o text spanEnd subPos, Cut o text chunk := by
  induction subPos using oversized.induct o text spanEnd with
  | case1 subPos more subEnd done =>
    unfold oversized
    rw [if_pos more,if_pos done]
    have bound := sliceEndWithin o.maxChars (show subPos ≤ text.length by omega)
    refine keptCut positive (by omega) ?_
    rw [sliceLength]
    omega
  | case2 subPos more subEnd unfinished ih =>
    unfold oversized
    rw [if_pos more,if_neg unfinished]
    have bound := sliceEndWithin o.maxChars (show subPos ≤ text.length by omega)
    intro chunk member
    rcases List.mem_append.mp member with here | later
    · refine keptCut positive (by omega) ?_ chunk here
      rw [sliceLength]
      omega
    · exact ih chunk later
  | case3 subPos done =>
    unfold oversized
    rw [if_neg done]
    exact fun chunk member => (List.not_mem_nil member).elim

theorem spanCut (positive : 1 ≤ o.minChars) {first last : Nat} (inside : last ≤ text.length) :
    ∀ chunk ∈ spanChunk o text first last, Cut o text chunk := by
  unfold spanChunk
  split
  · exact oversizedCut positive inside first
  · exact keptCut positive inside (by omega)

theorem matchesInside {width : Option UInt16 → JsString → Nat} (rest : JsString) (skip i : Nat) (before : Option UInt16) :
    ∀ found ∈ matchesFrom width skip i before rest, found.1 ≤ i + rest.length := by
  induction rest generalizing skip i before with
  | nil =>
    intro found member
    cases skip <;> exact (List.not_mem_nil member).elim
  | cons u rest ih =>
    intro found member
    rw [List.length_cons]
    cases skip with
    | succ skip =>
      have := ih skip (i + 1) (some u) found member
      omega
    | zero =>
      unfold matchesFrom at member
      split at member
      · have := ih _ _ _ found member
        omega
      · rcases List.mem_cons.mp member with rfl | later
        · dsimp only
          omega
        · have := ih _ _ _ found later
          omega

theorem spansInside {length lastEnd : Nat} {found : List (Nat × Nat)} (inside : ∀ m ∈ found, m.1 ≤ length) :
    ∀ span ∈ spansFrom length lastEnd found, span.last ≤ length := by
  induction found generalizing lastEnd with
  | nil =>
    intro span member
    unfold spansFrom at member
    split at member
    · rw [List.mem_singleton.mp member]
    · exact (List.not_mem_nil member).elim
  | cons first rest ih =>
    intro span member
    rcases List.mem_cons.mp member with rfl | later
    · exact inside first List.mem_cons_self
    · exact ih (fun m among => inside m (List.mem_cons_of_mem _ among)) span later

theorem gotSpans (text : JsString) (width : Option UInt16 → JsString → Nat) :
    ∀ span ∈ getSpans text width, span.last ≤ text.length :=
  spansInside fun found member => by
    have := matchesInside text 0 0 none found member
    omega

theorem spansCut (positive : 1 ≤ o.minChars) {spans : List Span} (inside : ∀ span ∈ spans, span.last ≤ text.length) (i : Nat) :
    ∀ chunk ∈ chunkSpansFrom o text spans i, Cut o text chunk := by
  have lastInside (i : Nat) (there : i < spans.length) (n : Nat) :
      ((((spans.drop i).take n).getLast?).getD spans[i]).last ≤ text.length := by
    cases at_ : ((spans.drop i).take n).getLast? with
    | none => exact inside _ (List.getElem_mem there)
    | some span =>
      exact inside span (List.mem_of_mem_drop (List.mem_of_mem_take (List.mem_of_getLast? at_)))
  induction i using chunkSpansFrom.induct o text spans with
  | case1 i there taken j next done =>
    unfold chunkSpansFrom
    rw [dif_pos there]
    dsimp only
    rw [if_pos done]
    exact spanCut positive (lastInside i there _)
  | case2 i there taken j next more ih =>
    unfold chunkSpansFrom
    rw [dif_pos there]
    dsimp only
    rw [if_neg more]
    intro chunk member
    rcases List.mem_append.mp member with here | later
    · exact spanCut positive (lastInside i there _) chunk here
    · exact ih chunk later
  | case3 i done =>
    unfold chunkSpansFrom
    rw [dif_neg done]
    exact fun chunk member => (List.not_mem_nil member).elim

theorem fixedCut (positive : 1 ≤ o.minChars) (pos : Nat) : ∀ chunk ∈ fixedSlices o text pos, Cut o text chunk := by
  induction pos using fixedSlices.induct o text with
  | case1 pos more last ih =>
    unfold fixedSlices
    rw [if_pos more]
    have bound := sliceEndWithin o.maxChars (show pos ≤ text.length by omega)
    intro chunk member
    rcases List.mem_append.mp member with here | later
    · refine keptCut positive bound.1 ?_ chunk here
      rw [sliceLength]
      omega
    · exact ih chunk later
  | case2 pos done =>
    unfold fixedSlices
    rw [if_neg done]
    exact fun chunk member => (List.not_mem_nil member).elim

/-- Whatever the level it was split at, a chunk is a part of the text within the bounds. -/
theorem chunksCut (letter : JsString → Bool) (positive : 1 ≤ o.minChars) (text : JsString) :
    ∀ chunk ∈ splitText letter o text, Cut o text chunk := by
  have level (width : Option UInt16 → JsString → Nat) :
      ∀ chunk ∈ chunkSpans o text (getSpans text width), Cut o text chunk := by
    unfold chunkSpans
    split
    · exact fun chunk member => (List.not_mem_nil member).elim
    · exact spansCut positive (gotSpans text width) 0
  unfold splitText
  dsimp only
  split
  · exact fun chunk member => (List.not_mem_nil member).elim
  · split
    · rename_i fits
      split
      · rename_i long
        intro chunk member
        rw [List.mem_singleton.mp member]
        exact ⟨by simp [slice],by dsimp only; omega,le_refl _,long,by dsimp only; omega⟩
      · exact fun chunk member => (List.not_mem_nil member).elim
    · split
      · exact level _
      · split
        · exact level _
        · exact fixedCut positive 0

end Northstar.Chunker
