import Mathlib.Algebra.Order.Field.Rat
import Northstar.Json
import Northstar.Scanning
import Northstar.Search.Bm25
import Northstar.Search.Chunker
import Northstar.Search.Fusion

/-! The coverage gate before a background search (page-query.ts): the page is enough where its best chunks
hold enough of the prompt's terms. Tokenizer, Unicode tables and the arithmetic of scores are parameters. -/
namespace Northstar.Web.PageQuery
open Chunker (TextChunk ChunkOptions chunkText)
open Search

inductive ProbeRankingMethod where
  | bm25
  | fused
  deriving DecidableEq, Repr

structure ProbeCoverage where
  sufficient : Bool
  method : ProbeRankingMethod
  topScore : ℚ
  termCoverage : ℚ
  chunkIds : List JsString

def probeQueryStopwords : List JsString :=
  ["about","and","are","been","being","can","could","describe","detail","details","did","does","explain","for","from","give","has","have",
    "how","information","into","its","mean","meaning","means","please","show","tell","that","the","these","this","those","was","were",
    "what","when","where","which","who","why","will","with","would","you","your"].map js

/- `[a-z0-9]` -/
def termUnit (u : UInt16) : Bool := (97 ≤ u && u ≤ 122) || (48 ≤ u && u ≤ 57)

structure ProbeCoverageOptions where
  threshold : Option ℚ := none
  topChunks : Option Nat := none
  chunkVectors : Option (List (List ℚ)) := none
  promptVector : Option (List ℚ) := none

structure Platform where
  toLowerCase : JsString → JsString
  letter : JsString → Bool
  letterOrDigit : JsString → Bool
  tokenize : JsString → List JsString
  log : ℚ → ℚ
  sqrt : ℚ → ℚ

section
variable (p : Platform)

def probeContentTerms (text : JsString) : List JsString :=
  (((p.toLowerCase text).splitOnP fun u => !termUnit u).filter fun token =>
    3 ≤ token.length && !probeQueryStopwords.contains token).eraseDups

def cosineSimilarity (a b : List ℚ) : ℚ :=
  let length := min a.length b.length
  let dot := ((a.zip b).map fun pair => pair.1 * pair.2).sum
  let normA := ((a.take length).map fun x => x * x).sum
  let normB := ((b.take length).map fun x => x * x).sum
  if normA ≤ 0 ∨ normB ≤ 0 then 0 else dot / (p.sqrt normA * p.sqrt normB)

def chunksOf (extract : JsString) : List TextChunk :=
  ((chunkText p.letter extract { maxChars := 2048, overlap := 512, minChars := 1 }).toOption).getD []

def chunkId (position : Nat) : JsString := js (toString position)

def indexOf (chunks : List TextChunk) : Bm25.BM25Index ℚ :=
  Bm25.addBatch p.tokenize (chunks.mapIdx fun position chunk => (chunkId position,chunk.text)) (Bm25.create (3 / 2) (3 / 4))

def byId : Fusion.Options (JsString × ℚ) := ⟨60,Prod.fst,none,none⟩

/- The ids in rank order, the method and the best score. -/
def rank (chunks : List TextChunk) (prompt : JsString) (options : ProbeCoverageOptions) : List JsString × ProbeRankingMethod × ℚ :=
  let topN := options.topChunks.getD 3
  let bm25Results := Bm25.search p.tokenize p.log (indexOf p chunks) prompt (some (max (topN * 2) topN : Nat))
  match options.chunkVectors,options.promptVector with
  | some chunkVectors,some promptVector =>
      let vecRanked := ((List.range chunks.length).map fun position =>
        (chunkId position,cosineSimilarity p promptVector (chunkVectors.getD position []))).mergeSort fun a b => b.2 ≤ a.2
      let fused := Fusion.rrfMerge byId [bm25Results,vecRanked]
      (fused.map fun entry => entry.item.1,.fused,(fused.head?.map (·.rrfScore)).getD 0)
  | _,_ => (bm25Results.map (·.1),.bm25,(bm25Results.head?.map (·.2)).getD 0)

def topText (chunks : List TextChunk) (topIds : List JsString) : JsString :=
  p.toLowerCase ([10].intercalate (topIds.map fun id => (chunks[Json.decimal id]?.map (·.text)).getD []))

def includes (text part : JsString) : Bool := (Scanning.indexOf part text).isSome

def checkProbeCoverage (extract prompt : JsString) (options : ProbeCoverageOptions) : ProbeCoverage :=
  let threshold := options.threshold.getD (1 / 2)
  let topN := options.topChunks.getD 3
  let chunks := chunksOf p extract
  if chunks.length = 0 then ⟨false,.bm25,0,0,[]⟩
  else
    let ⟨rankedIds,method,topScore⟩ := rank p chunks prompt options
    let topIds := rankedIds.take topN
    let terms := probeContentTerms p prompt
    if terms.length = 0 then ⟨true,method,topScore,1,topIds⟩
    else
      let covered := (terms.filter fun term => includes (topText p chunks topIds) term).length
      let termCoverage : ℚ := covered / terms.length
      ⟨threshold ≤ termCoverage,method,topScore,termCoverage,topIds⟩

/- The words of a text in any script: its runs of letters and digits. -/
def wordsOf (text : JsString) : List (List JsString) := (points (p.toLowerCase text)).splitOnP fun point => !p.letterOrDigit point

/- The distinct words of a prompt that ask for something. -/
def askedWords (prompt : JsString) : List JsString :=
  (((wordsOf p prompt).filter fun word => 3 ≤ word.length).map List.flatten).eraseDups.filter fun word => !probeQueryStopwords.contains word

def standsWhole (extract word : JsString) : Bool := ((wordsOf p extract).map List.flatten).contains word

def wholeWords (extract prompt : JsString) : Nat := ((askedWords p prompt).filter (standsWhole p extract)).length

/- The terms of the prompt that stand anywhere in the best chunks. -/
def foundTerms (extract prompt : JsString) (options : ProbeCoverageOptions) : Nat :=
  ((probeContentTerms p prompt).filter fun term => includes (topText p (chunksOf p extract)
    ((rank p (chunksOf p extract) prompt options).1.take (options.topChunks.getD 3))) term).length

end

/- Whatever the threshold, the gate opens only over whole words. -/
def Sound (p : Platform) (extract prompt : JsString) (options : ProbeCoverageOptions) : Prop := ∀ threshold : ℚ, 0 < threshold → threshold ≤ 1 →
  (checkProbeCoverage p extract prompt { options with threshold := some threshold }).sufficient = true →
    threshold ≤ wholeWords p extract prompt / (askedWords p prompt).length

/- The share of the prompt's terms found anywhere in the best chunks, all of none, is no larger than that of its words that stand whole
in the page. -/
def TermsTell (p : Platform) (extract prompt : JsString) (options : ProbeCoverageOptions) : Prop :=
  if probeContentTerms p prompt = [] then wholeWords p extract prompt = (askedWords p prompt).length
  else foundTerms p extract prompt options * (askedWords p prompt).length ≤ wholeWords p extract prompt * (probeContentTerms p prompt).length

variable {p : Platform} {extract prompt : JsString} {options : ProbeCoverageOptions}

theorem thresholdsTell {c s : ℚ} (most : c ≤ 1) (least : 0 ≤ s) : (∀ threshold : ℚ, 0 < threshold → threshold ≤ 1 → threshold ≤ c → threshold ≤ s) ↔ c ≤ s := by
  constructor
  · intro every
    by_cases positive : 0 < c
    · exact every c positive most (le_refl c)
    · exact (not_lt.mp positive).trans least
  · exact fun less threshold _ _ within => within.trans less

theorem sufficientOver (some_ : chunksOf p extract ≠ []) (threshold : ℚ) :
    (checkProbeCoverage p extract prompt { options with threshold := some threshold }).sufficient = true ↔
      probeContentTerms p prompt = [] ∨ threshold ≤ foundTerms p extract prompt options / (probeContentTerms p prompt).length := by
  have away : (chunksOf p extract).length ≠ 0 := fun none_ => some_ (List.length_eq_zero_iff.mp none_)
  unfold checkProbeCoverage
  dsimp only
  rw [if_neg away]
  by_cases none_ : probeContentTerms p prompt = []
  · simp [none_]
  · have terms : (probeContentTerms p prompt).length ≠ 0 := fun zero => none_ (List.length_eq_zero_iff.mp zero)
    rw [if_neg terms,decide_eq_true_iff]
    exact ⟨.inr,fun either => either.resolve_left none_⟩

/- Letters of two scripts. -/
def twoScripts : Platform where
  toLowerCase := id
  letter point := point.all fun u => termUnit u || 0x3040 ≤ u
  letterOrDigit point := point.all fun u => termUnit u || 0x3040 ≤ u
  tokenize text := text.splitOnP fun u => !termUnit u
  log x := x
  sqrt x := x

end Northstar.Web.PageQuery
