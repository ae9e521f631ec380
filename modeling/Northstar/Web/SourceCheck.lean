import Northstar.Scanning
import Northstar.Script

/-! What fetched pages say about claims (web-access-source-check.ts): passages cut from pages by sentences,
and claims weighed by phrases that support or contradict them. -/
namespace Northstar.Web.SourceCheck
open Scanning (indexOf)

inductive WebAccessSourceQuality where
  | officialDocs | vendorDocs | repoIssue | blog | forum | news | unknown
  deriving DecidableEq, Repr

inductive WebAccessClaimStatus where
  | supported | contradicted | unclear | missingEvidence
  deriving DecidableEq, Repr

structure WebAccessCheckSource where
  rank : Number
  url : JsString
  title : JsString
  snippet : Option JsString := none
  quality : WebAccessSourceQuality
  fetched : Bool
  fetchError : Option JsString := none
  contentHash : Option JsString := none
  deriving DecidableEq, Repr

structure Span where
  text : JsString
  start : Nat
  end_ : Nat
  deriving DecidableEq, Repr

structure WebAccessCheckPassage where
  passageId : JsString
  sourceUrl : JsString
  sourceRank : Number
  text : JsString
  extractionSpan : Option (Nat × Nat) := none
  contentHash : Option JsString := none
  deriving DecidableEq, Repr

/- The confidence is in hundredths. -/
structure WebAccessClaimAssessment where
  claim : JsString
  status : WebAccessClaimStatus
  supportingPassages : List JsString
  contradictingPassages : List JsString
  rationale : JsString
  confidence : Nat
  deriving DecidableEq, Repr

structure WebAccessSourceCheckArtifact where
  id : JsString
  query : JsString
  sources : List WebAccessCheckSource
  passages : List WebAccessCheckPassage
  claims : Option (List WebAccessClaimAssessment) := none
  provider : Option JsString := none
  deriving DecidableEq, Repr

structure CheckResult where
  title : JsString
  url : JsString
  snippet : Option JsString := none
  rank : Option Number := none

structure FetchedPage where
  url : JsString
  title : JsString
  content : JsString
  error : Option JsString := none

structure WebAccessSourceCheckInput where
  query : JsString
  results : List CheckResult
  fetched : Option (List FetchedPage) := none
  claims : Option (List JsString) := none
  provider : Option JsString := none

def contradictionMarkers : List JsString :=
  [js "not true",js "false",js "incorrect",js "debunked",js "retracted",js "no longer",js "never",js "denied",js "contrary",js "misleading"]

def supportMarkers : List JsString :=
  [js "yes",js "true",js "correct",js "confirmed",js "according to",js "shows that",js "demonstrates",js "reported",js "verified",
    js "established"]

def negations : List JsString := [js "not",js "no",js "never",js "without"]

def alphanumeric (u : UInt16) : Bool := (97 ≤ u && u ≤ 122) || (48 ≤ u && u ≤ 57)

/- A unit under the flag i. -/
def caseless (u : UInt16) : UInt16 := if 65 ≤ u && u ≤ 90 then u + 32 else u

/- `[a-z0-9]` under the flag i. -/
def inWord (u : UInt16) : Bool := alphanumeric (caseless u)

def terminator (u : UInt16) : Bool := u = 46 || u = 33 || u = 63

/- What a phrase leaves of a text it begins, its words apart by blanks. The blanks are read greedily: no word begins with one. -/
def phraseRest : List JsString → JsString → Option JsString
  | [],text => some text
  | word :: words,text =>
      if (text.take word.length).map caseless = word.map caseless then
        let rest := text.drop word.length
        if words = [] then some rest
        else if (rest.head?.any whiteSpace) then phraseRest words (rest.dropWhile whiteSpace) else none
      else none

/- The phrase of a pattern stands at a place, between the ends of the text or units outside [a-z0-9]. -/
def phraseAt (words : List JsString) (value : JsString) (place : Nat) : Bool :=
  (place = 0 || value[place - 1]?.any fun u => !inWord u) &&
    (phraseRest words (value.drop place)).any fun rest => rest.head?.all fun u => !inWord u

/- Where the phrase of the pattern's first match stands, behind the unit that the match may begin with. -/
def exec (words : List JsString) (value : JsString) : Option Nat := (List.range (value.length + 1)).find? (phraseAt words value)

/- `(?:^|[^a-z0-9])(?:not|no|never|without)\s+$` -/
def endsNegated (before : JsString) : Bool :=
  let read := before.reverse
  let left := (read.dropWhile whiteSpace).map caseless
  read.head?.any whiteSpace && negations.any fun word =>
    word.reverse.isPrefixOf left && (left.drop word.length).head?.all fun u => !inWord u

def markerIsNegated (value : JsString) (pattern : List JsString) : Bool := match exec pattern value with
  | none => false
  | some place => endsNegated (value.take place)

def hasCompiledMarker (value : JsString) (compiled : List (List JsString)) : Bool :=
  compiled.any fun pattern => (exec pattern value).isSome && !markerIsNegated value pattern

section
variable (toLowerCase : JsString → JsString)

def tokenize (value : JsString) : List JsString :=
  (((toLowerCase value).splitOnP fun u => !alphanumeric u).filter fun term => term.length > 3).eraseDups

/- The words of the phrase: what escapeRegExp puts before a unit only makes it stand for itself. -/
def compilePhrasePattern (phrase : JsString) : List JsString :=
  ((toLowerCase (trim phrase)).splitOnP whiteSpace).filter (· ≠ [])

def compileMarkers (markers : List JsString) : List (List JsString) := markers.map (compilePhrasePattern toLowerCase)

/- The matches of `[^.!?]+(?:[.!?]+(?=\s|$)|$)`: where the terminators behind a run are followed by another unit, no place inside the
run matches either. -/
def sentenceMatches : Nat → Nat → JsString → List (Nat × JsString)
  | 0,_,_ => []
  | rounds+1,index,text =>
      let run := text.takeWhile fun u => !terminator u
      let behind := text.dropWhile fun u => !terminator u
      let ends := behind.takeWhile terminator
      let left := behind.dropWhile terminator
      let later := if left = [] then [] else sentenceMatches rounds (index + (run ++ ends).length) left
      if run ≠ [] ∧ left.head?.all whiteSpace then (index,run ++ ends) :: later else later

def sentenceSpan (found : Nat × JsString) : Option Span :=
  let text := trim found.2
  if text.length > 0 ∧ text.length ≤ 400 then
    let start := found.1 + (indexOf text found.2).getD 0
    some ⟨text,start,start + text.length⟩
  else none

def sentencesOf (content : JsString) : List Span := (sentenceMatches content.length 0 content).filterMap sentenceSpan

structure Scored where
  sentence : Span
  index : Nat
  score : Nat

def scored (terms : List JsString) (sentence : Span) (index : Nat) : Scored :=
  ⟨sentence,index,(terms.filter fun term => (indexOf term (toLowerCase sentence.text)).isSome).length⟩

def extractSpans (content hint : JsString) : List Span :=
  let terms := tokenize toLowerCase hint
  if terms.length = 0 then []
  else
    let items := ((sentencesOf content).mapIdx fun index sentence => scored toLowerCase terms sentence index).filter (·.score > 0)
    ((items.mergeSort fun a b => b.score < a.score || (a.score = b.score && a.index ≤ b.index)).take 3).map (·.sentence)

def overlapOf (claim : JsString) (text : JsString) : Nat :=
  (((tokenize toLowerCase claim).map (compilePhrasePattern toLowerCase)).filter fun pattern => (exec pattern (toLowerCase text)).isSome).length

def requiredOverlap (terms : List JsString) : Nat := min terms.length (max 2 ((terms.length + 1) / 2))

structure Weighed where
  supporting : List JsString := []
  contradicting : List JsString := []

def weigh (claim : JsString) (sofar : Weighed) (passage : WebAccessCheckPassage) : Weighed :=
  if overlapOf toLowerCase claim passage.text < requiredOverlap (tokenize toLowerCase claim) then sofar
  else
    let lower := toLowerCase passage.text
    let contra := hasCompiledMarker lower (compileMarkers toLowerCase contradictionMarkers)
    let support := hasCompiledMarker lower (compileMarkers toLowerCase supportMarkers)
    if contra && !support then { sofar with contradicting := sofar.contradicting ++ [passage.passageId] }
    else if support && !contra then { sofar with supporting := sofar.supporting ++ [passage.passageId] }
    else sofar

def written (n : Nat) : JsString := js (toString n)

def assessWebAccessClaim (claim : JsString) (passages : List WebAccessCheckPassage) : WebAccessClaimAssessment :=
  if (tokenize toLowerCase claim).length = 0 ∨ passages.length = 0 then
    ⟨claim,.missingEvidence,[],[],js "No passages available that discuss the claim terms (heuristic assessment).",20⟩
  else
    let ⟨supporting,contradicting⟩ := passages.foldl (weigh toLowerCase claim) {}
    if contradicting.length > 0 ∧ supporting.length = 0 then
      ⟨claim,.contradicted,[],contradicting,
        written contradicting.length ++ js " passage(s) contradict the claim; none support it (heuristic assessment).",
        min 85 (50 + contradicting.length * 10)⟩
    else if supporting.length > 0 ∧ contradicting.length = 0 then
      ⟨claim,.supported,supporting,[],
        written supporting.length ++ js " passage(s) support the claim; none contradict it (heuristic assessment).",
        min 85 (50 + supporting.length * 10)⟩
    else if supporting.length > 0 ∨ contradicting.length > 0 then
      ⟨claim,.unclear,supporting,contradicting,
        written supporting.length ++ js " supporting and " ++ written contradicting.length ++
          js " contradicting passage(s); evidence is mixed (heuristic assessment).",40⟩
    else ⟨claim,.unclear,[],[],
      js "Passages mention the claim terms but contain no clear support or contradiction markers (heuristic assessment).",30⟩

variable (classify : JsString → WebAccessSourceQuality) (hash : JsString → JsString)

def pageOf (input : WebAccessSourceCheckInput) (url : JsString) : Option FetchedPage :=
  (input.fetched.getD []).reverse.find? fun page => page.url = url

def filled (text : Option JsString) : Bool := text.any (· ≠ [])

def readable (page : FetchedPage) : Bool := !filled page.error && page.content ≠ []

def checkSource (input : WebAccessSourceCheckInput) (result : CheckResult) (index : Nat) : WebAccessCheckSource :=
  let page := pageOf input result.url
  { rank := result.rank.getD (.int (index + 1))
    url := result.url
    title := result.title
    snippet := result.snippet
    quality := classify result.url
    fetched := page.any readable
    fetchError := page.bind fun page => page.error.filter (· ≠ [])
    contentHash := page.bind fun page => if readable page then some (hash page.content) else none }

def checkSources (input : WebAccessSourceCheckInput) : List JsString → Nat → List CheckResult → List WebAccessCheckSource
  | _,_,[] => []
  | seen,index,result :: rest =>
      if seen.contains result.url then checkSources input seen (index + 1) rest
      else checkSource classify hash input result index :: checkSources input (result.url :: seen) (index + 1) rest

def passageId (rank : Number) (n : Nat) : JsString := js "p-" ++ rank.script ++ 45 :: written n

def snippetPassage (source : WebAccessCheckSource) (snippet : JsString) : WebAccessCheckPassage :=
  ⟨passageId source.rank 0,source.url,source.rank,snippet,none,some (hash snippet)⟩

def spanPassage (source : WebAccessCheckSource) (index : Nat) (span : Span) : WebAccessCheckPassage :=
  ⟨passageId source.rank (index + 1),source.url,source.rank,span.text,some (span.start,span.end_),some (hash span.text)⟩

def hintOf (input : WebAccessSourceCheckInput) (source : WebAccessCheckSource) : JsString :=
  ((source.snippet.map trim).filter (· ≠ [])).getD input.query

def spansOf (input : WebAccessSourceCheckInput) (source : WebAccessCheckSource) : List Span := match pageOf input source.url with
  | some page => if readable page then extractSpans toLowerCase page.content (hintOf input source) else []
  | none => []

def passagesOf (input : WebAccessSourceCheckInput) (source : WebAccessCheckSource) : List WebAccessCheckPassage :=
  ((source.snippet.filter (· ≠ [])).map (snippetPassage hash source)).toList ++
    (spansOf toLowerCase input source).mapIdx (spanPassage hash source)

def buildWebAccessSourceCheck (id : JsString) (input : WebAccessSourceCheckInput) : WebAccessSourceCheckArtifact :=
  let sources := checkSources classify hash input [] 0 input.results
  let passages := sources.flatMap (passagesOf toLowerCase hash input)
  { id := id
    query := input.query
    sources := sources
    passages := passages
    claims := input.claims.map (List.map fun claim => assessWebAccessClaim toLowerCase claim passages)
    provider := input.provider }

end
end Northstar.Web.SourceCheck
