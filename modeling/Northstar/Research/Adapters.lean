import Northstar.Network.Url
import Northstar.Research.Shared

/-! The adapters that page by an offset and read JSON: Crossref, PubMed and Semantic Scholar. What
a provider answers to a request is a parameter; credentials in the request are left out. -/
namespace Northstar.Research
open Network (digit decimal)

/- A field that may be missing. -/
def optionally {α : Type} (wrap : α → JsValue) : Option α → JsValue
  | some value => wrap value
  | none => .undefined

def text : Option JsString → JsValue := optionally .string

def firstItem : JsValue → JsValue
  | .array (item :: _) => item
  | _ => .undefined

namespace Crossref

def adapter : OffsetAdapter where
  source := "crossref"
  backend := "crossref-api"
  service := "Crossref works search"
  unsupported := [.doi,.venue]
  key := "offset"
  cap := 9999

def firstString (value : JsValue) : Option JsString := (firstItem value).asString

def mapAuthor (entry : JsValue) : Option JsValue :=
  let name := trim ([32].intercalate ([entry.get "given",entry.get "family"].filterMap (·.asString)))
  if name = [] then none else some (.object [(js "name",.string name)])

def mapAuthors : JsValue → Option (List JsValue)
  | .array entries => some (entries.filterMap mapAuthor)
  | _ => none

def mapCrossrefRow (row : JsValue) : JsValue :=
  let doi := researchString (row.get "DOI")
  let url := (researchString (row.get "URL")).or (doi.map (js "https://doi.org/" ++ ·))
  let year := researchInt (firstItem (firstItem ((row.get "issued").get "date-parts")))
  .object [(js "id",text (doi.or (researchString (row.get "URL")))),
    (js "title",.string ((firstString (row.get "title")).getD [])),
    (js "url",text url),
    (js "snippet",text (researchString (row.get "abstract"))),
    (js "abstract",text (researchString (row.get "abstract"))),
    (js "authors",optionally .array ((mapAuthors (row.get "author")).filter (·.length > 0))),
    (js "year",optionally (.number ∘ .int) year),
    (js "venue",text (firstString (row.get "container-title"))),
    (js "doi",text doi),
    (js "citations",optionally (.number ∘ .int) (researchInt (row.get "is-referenced-by-count")))]

def mapRow (row : JsValue) : JsValue := mapCrossrefRow ((researchRecord row).getD (.object []))

structure Params where
  query : JsString
  rows : Nat
  offset : Nat
  select : JsString := js "DOI,URL,title,author,issued,container-title,is-referenced-by-count,abstract"
  filter : Option JsString
  author : Option JsString

def params (input : NormalizedResearchInput) (offset : Nat) : Params where
  query := input.query
  rows := input.limit
  offset := offset
  filter := input.yearFrom.map fun year => js "from-pub-date:" ++ js (toString year) ++ js "-01-01"
  author := input.author

def ask (fetch : Params → Except ResearchHttpError JsValue) (input : NormalizedResearchInput) (offset : Nat) : Except JsString Answer :=
  .ok <| match fetch (params input offset) with
    | .error error => .failed (httpOutcomeError error)
    | .ok payload => match (payload.get "message").get "items" with
      | .array items =>
          let rows := parseAdapterRows (js adapter.source) .work (items.map mapRow)
          let hasMore := rows.entities.length = input.limit ∧ offset + input.limit ≤ adapter.cap
          { rows, next := if hasMore then some (offset + input.limit) else none }
      | _ => .failed (invalidResponse "Crossref response missing message.items array.")

def searchCrossref (codec : Codec) (fetch : Params → Except ResearchHttpError JsValue) (context : ResearchAdapterContext)
    (request : ResearchAdapterRequest) : Page :=
  adapter.search codec (ask fetch) context request

end Crossref

namespace Pubmed

def adapter : OffsetAdapter where
  source := "pubmed"
  backend := "pubmed-eutils"
  service := ""
  unsupported := []
  key := "retstart"
  cap := 9999

def buildTerm (input : NormalizedResearchInput) : JsString :=
  (js " AND ").intercalate (input.query :: ((input.author.map (· ++ js "[Author]")).toList ++
    (input.doi.map (· ++ js "[doi]")).toList ++ (input.venue.map (· ++ js "[Journal]")).toList))

def doiFromArticleIds (articleIds : JsValue) : Option JsString := match articleIds with
  | .array entries => entries.findSome? fun entry =>
      if (entry.get "idtype").asString = some (js "doi") then researchString (entry.get "value") else none
  | _ => none

def yearOf (pubdate : JsString) : Option Int :=
  let year := pubdate.take 4
  if year.length = 4 ∧ year.all digit then some (decimal year) else none

def mapDocSum (uid : JsString) (doc : JsValue) : JsValue :=
  let pubdate := researchString (doc.get "pubdate")
  .object [(js "id",.string uid),
    (js "url",.string (js "https://pubmed.ncbi.nlm.nih.gov/" ++ uid ++ js "/")),
    (js "title",.string ((doc.get "title").asString.getD [])),
    (js "authors",match doc.get "authors" with | .array authors => .array authors | _ => .undefined),
    (js "venue",text (researchString (doc.get "source"))),
    (js "year",optionally (.number ∘ .int) (pubdate.bind yearOf)),
    (js "publishedAt",text pubdate),
    (js "doi",text (doiFromArticleIds (doc.get "articleids")))]

structure EsearchParams where
  term : JsString
  retstart : Nat
  retmax : Nat
  mindate : Option Int

/- The count is a text in JSON mode. -/
def countOf : JsValue → Int
  | .number (.int count) => count
  | .string count => if count.length > 0 ∧ count.all digit then decimal count else 0
  | _ => 0

def docRow (summary : JsValue) (uid : JsValue) : Option JsValue :=
  (researchRecord (field summary (textOf uid))).map (mapDocSum (textOf uid))

/- The identifiers stand joined by commas in the second request. -/
def ask (esearch : EsearchParams → Except ResearchHttpError JsValue) (esummary : List JsString → Except ResearchHttpError JsValue)
    (input : NormalizedResearchInput) (retstart : Nat) : Except JsString Answer :=
  .ok <| match esearch ⟨buildTerm input,retstart,input.limit,input.yearFrom⟩ with
    | .error error => .failed (httpOutcomeError error)
    | .ok found => match (found.get "esearchresult").get "idlist" with
      | .array idlist =>
          if (researchString ((found.get "esearchresult").get "error")).isSome then
            .failed { code := .rateLimited, message := js "PubMed rate limit exceeded.", retryable := true }
          else
            let hasMore := retstart + idlist.length < countOf ((found.get "esearchresult").get "count")
            if idlist.length = 0 then { rows := ⟨[],0⟩ }
            else match esummary (idlist.map textOf) with
              | .error error => .failed (httpOutcomeError error)
              | .ok summary => match (summary.get "result").get "uids" with
                | .array uids =>
                    let docs := uids.map (docRow (summary.get "result"))
                    let rows := parseAdapterRows (js adapter.source) .work (docs.filterMap id)
                    { rows := ⟨rows.entities,docs.countP (·.isNone) + rows.invalid⟩
                      next := if hasMore then some (retstart + idlist.length) else none }
                | _ => .failed (invalidResponse "PubMed esummary response missing result.uids array.")
      | _ => .failed (invalidResponse "PubMed esearch response missing esearchresult.idlist array.")

def searchPubmed (codec : Codec) (esearch : EsearchParams → Except ResearchHttpError JsValue)
    (esummary : List JsString → Except ResearchHttpError JsValue) (context : ResearchAdapterContext)
    (request : ResearchAdapterRequest) : Page :=
  adapter.search codec (ask esearch esummary) context request

end Pubmed

namespace SemanticScholar

def adapter : OffsetAdapter where
  source := "semantic_scholar"
  backend := "semantic-scholar-api"
  service := "Semantic Scholar relevance search"
  unsupported := [.author,.doi,.venue]
  key := "offset"
  cap := 9999

/- A property of null is asked for before anything else. -/
def mapSemanticScholarRow : JsValue → Except JsString JsValue
  | .null => .error (js "Cannot read properties of null (reading 'externalIds')")
  | row =>
      let doi := researchString ((row.get "externalIds").get "DOI")
      let paperId := researchString (row.get "paperId")
      let url := match doi with
        | some doi => some (js "https://doi.org/" ++ doi)
        | none => (researchString (row.get "url")).or (paperId.map (js "https://www.semanticscholar.org/paper/" ++ ·))
      .ok (.object [(js "id",text (paperId.or doi)),
        (js "title",.string ((row.get "title").asString.getD [])),
        (js "url",text url),
        (js "snippet",text (researchString (row.get "abstract"))),
        (js "abstract",text (researchString (row.get "abstract"))),
        (js "authors",match row.get "authors" with | .array authors => .array authors | _ => .undefined),
        (js "year",row.get "year"),
        (js "venue",text (researchString (row.get "venue"))),
        (js "doi",text doi),
        (js "citations",optionally .number (optionalNumber (row.get "citationCount")))])

structure Params where
  query : JsString
  offset : Nat
  limit : Nat
  fields : JsString := js "paperId,title,abstract,year,venue,authors,externalIds,citationCount"
  year : Option JsString

def params (input : NormalizedResearchInput) (offset : Nat) : Params where
  query := input.query
  offset := offset
  limit := input.limit
  year := input.yearFrom.map fun year => js (toString year) ++ js "-"

def ask (fetch : Params → Except ResearchHttpError JsValue) (input : NormalizedResearchInput) (offset : Nat) : Except JsString Answer :=
  match fetch (params input offset) with
  | .error error => .ok (.failed (httpOutcomeError error))
  | .ok payload => match payload.get "data" with
    | .array items => (items.mapM mapSemanticScholarRow).map fun mapped =>
        { rows := parseAdapterRows (js adapter.source) .work mapped
          next := ((researchInt (payload.get "next")).filter (· > 0)).map (·.toNat) }
    | _ => .ok (.failed (invalidResponse "Semantic Scholar response missing data array."))

def searchSemanticScholar (codec : Codec) (fetch : Params → Except ResearchHttpError JsValue) (context : ResearchAdapterContext)
    (request : ResearchAdapterRequest) : Page :=
  adapter.search codec (ask fetch) context request

end SemanticScholar
end Northstar.Research
