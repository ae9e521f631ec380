import Northstar.Research.Adapters

/-! The arXiv adapter: the entries of an Atom feed, taken out of its text by searches for tags. -/
namespace Northstar.Research.Arxiv
open Network (digit decimal)

def adapter : OffsetAdapter where
  source := "arxiv"
  backend := "arxiv-api"
  service := "arXiv API search"
  unsupported := [.author,.doi,.venue]
  key := "offset"
  cap := 99000

/- What is before and behind the first occurrence. -/
def cut (needle : JsString) : JsString → Option (JsString × JsString)
  | [] => if needle = [] then some ([],[]) else none
  | u :: rest =>
      if needle.isPrefixOf (u :: rest) then some ([],(u :: rest).drop needle.length)
      else (cut needle rest).map fun parts => (u :: parts.1,parts.2)

/- `open([\s\S]*?)close`, and what follows it. -/
def between (opening closing : JsString) (text : JsString) : Option (JsString × JsString) := do
  let (_,inside) ← cut opening text
  cut closing inside

/- Each match takes at least one unit. -/
def allBetween (opening closing : JsString) : Nat → JsString → List JsString
  | 0, _ => []
  | n + 1, text => match between opening closing text with
      | some (block,rest) => block :: allBetween opening closing n rest
      | none => []

def replaceAll (needle by_ : JsString) : Nat → JsString → JsString
  | 0, text => text
  | n + 1, text => match cut needle text with
      | some (before,rest) => before ++ by_ ++ replaceAll needle by_ n rest
      | none => text

/- `<[^>]+>` becomes a space. -/
def stripTags : Nat → JsString → JsString
  | 0, text => text
  | _, [] => []
  | n + 1, u :: rest =>
      if u = 60 then match rest.dropWhile (· ≠ 62) with
        | _ :: after => if (rest.takeWhile (· ≠ 62)).length > 0 then 32 :: stripTags n after else u :: stripTags n rest
        | [] => u :: stripTags n rest
      else u :: stripTags n rest

/- `\s+` becomes a space. -/
def collapse : Nat → JsString → JsString
  | 0, text => text
  | _, [] => []
  | n + 1, u :: rest =>
      if whiteSpace u then 32 :: collapse n (rest.dropWhile whiteSpace) else u :: collapse n rest

def cleanXml (text : Option JsString) : JsString :=
  let text := text.getD []
  let n := text.length + 1
  let text := stripTags n text
  let text := replaceAll (js "&lt;") (js "<") n text
  let text := replaceAll (js "&gt;") (js ">") n text
  let text := replaceAll (js "&amp;") (js "&") n text
  let text := replaceAll (js "&quot;") (js "\"") n text
  trim (collapse n text)

structure ArxivEntry where
  title : JsString
  id : JsString
  summary : JsString
  authors : List JsString
  published : Option JsString
  deriving DecidableEq, Repr

def element (name : String) (block : JsString) : Option JsString :=
  (between (js ("<" ++ name ++ ">")) (js ("</" ++ name ++ ">")) block).map (·.1)

def readEntry (block : JsString) : ArxivEntry where
  title := cleanXml (element "title" block)
  id := cleanXml (element "id" block)
  summary := cleanXml (element "summary" block)
  authors := ((allBetween (js "<name>") (js "</name>") (block.length + 1) block).map fun name => cleanXml (some name)).filter (· ≠ [])
  published := (some (cleanXml (element "published" block))).filter (· ≠ [])

def entryBlocks (xml : JsString) : List JsString := allBetween (js "<entry>") (js "</entry>") (xml.length + 1) xml

/- `opensearch:totalResults[^>]*>(\d+)<` at the front. -/
def totalHere (text : JsString) : Option Nat :=
  let name := js "opensearch:totalResults"
  if name.isPrefixOf text then match (text.drop name.length).dropWhile (· ≠ 62) with
    | _ :: after => match after.dropWhile digit with
        | 60 :: _ => if (after.takeWhile digit).length > 0 then some (decimal (after.takeWhile digit)) else none
        | _ => none
    | [] => none
  else none

def totalResults : JsString → Option Nat
  | [] => none
  | u :: rest => (totalHere (u :: rest)).or (totalResults rest)

/- `<feed[\s>]` somewhere. -/
def isFeed : JsString → Bool
  | [] => false
  | u :: rest => (match (js "<feed").isPrefixOf (u :: rest),(u :: rest).drop 5 with
      | true, v :: _ => whiteSpace v || v = 62
      | _, _ => false) || isFeed rest

structure Entries where
  entries : List ArxivEntry
  total : Option Nat
  dropped : Nat

def parseEntries (xml : JsString) : Entries :=
  let read := (entryBlocks xml).map readEntry
  ⟨read.filter (·.id ≠ []),totalResults xml,read.countP (·.id = [])⟩

def rowOf (entry : ArxivEntry) : JsValue :=
  .object [(js "id",.string entry.id),
    (js "title",.string entry.title),
    (js "url",.string entry.id),
    (js "snippet",.string entry.summary),
    (js "abstract",if entry.summary = [] then .undefined else .string entry.summary),
    (js "authors",.array (entry.authors.map fun name => .object [(js "name",.string name)])),
    (js "year",optionally (.number ∘ .int) (entry.published.bind Pubmed.yearOf)),
    (js "publishedAt",text entry.published)]

structure Params where
  searchQuery : JsString
  start : Nat
  maxResults : Nat

def params (input : NormalizedResearchInput) (offset : Nat) : Params where
  searchQuery := js "all:" ++ input.query ++ ((input.yearFrom.map fun year =>
    js " AND submittedDate:[" ++ js (toString year) ++ js "01010000 TO 999912312359]").getD [])
  start := offset
  maxResults := input.limit

def ask (fetch : Params → Except ResearchHttpError JsString) (input : NormalizedResearchInput) (offset : Nat) : Except JsString Answer :=
  .ok <| match fetch (params input offset) with
    | .error error => .failed (httpOutcomeError error)
    | .ok xml =>
        let parsed := parseEntries xml
        match isFeed xml,parsed.total with
        | true, some total =>
            let rows := parseAdapterRows (js adapter.source) .work (parsed.entries.map rowOf)
            let hasMore := parsed.entries.length > 0 ∧ offset + parsed.entries.length < total
            { rows := { rows with invalid := rows.invalid + parsed.dropped }
              next := if hasMore then some (offset + parsed.entries.length) else none }
        | _, _ => .failed (invalidResponse "arXiv response is not a valid Atom feed.")

def searchArxiv (codec : Codec) (fetch : Params → Except ResearchHttpError JsString) (context : ResearchAdapterContext)
    (request : ResearchAdapterRequest) : Page :=
  adapter.search codec (ask fetch) context request

end Northstar.Research.Arxiv
