import Northstar.Research.Arxiv
import Northstar.Research.Cursors

/-! The sources whose results go on behind a cursor: what each turns away, what it sends to its
provider, and what its cursors are bound to. What is made of a provider's answer is a parameter. -/
namespace Northstar.Research

def cursorToken (state : CursorState) (key : JsString) (maxLength : Nat) : Except JsString JsString :=
  match state.lookup key with
  | some (.string raw) =>
      if raw.length = 0 ∨ raw.length > maxLength then .error (js "cursor state." ++ key ++ js " is invalid") else .ok raw
  | _ => .error (js "cursor state." ++ key ++ js " is invalid")

/- The rows of a page, and where the next one starts. -/
structure Reply (State : Type) where
  rows : ParsedRows := ⟨[],0⟩
  error : Option NorthstarError := none
  next : Option State := none
  notes : List JsString := []

structure CursorAdapter (State : Type) where
  source : String
  backend : String
  refusal : NormalizedResearchInput → Option JsString
  /- The year is among what a cursor is bound to. -/
  dated : Bool := true
  first : State
  read : CursorState → Except JsString State
  write : State → CursorState
  one : js source ≠ js "all"
  undated : dated = false → ∀ input, refusal input = none → input.yearFrom = none

/- What was asked of the provider and the envelope, or the message of what was thrown. -/
structure Visit (State : Type) where
  asked : Option State
  result : Except JsString NorthstarResult

namespace CursorAdapter
variable {State : Type} (codec : Codec) (a : CursorAdapter State)

def accepted (request : ResearchAdapterRequest) : Except JsString NormalizedResearchInput := do
  let input ← normalizeResearchInput request
  match a.refusal input with
  | some message => .error message
  | none => .ok input

def bound (input : NormalizedResearchInput) : CursorBinding :=
  ⟨js a.source,input.query,if a.dated then input.yearFrom else none⟩

def cursorFor (input : NormalizedResearchInput) (state : State) : JsString :=
  encodeResultCursor codec (a.bound input) (a.write state)

/- Where a cursor goes on, or the envelope that turns it away. -/
def resume (req : NorthstarRequest) (input : NormalizedResearchInput) (cursor : JsString) : Except NorthstarResult State :=
  match decodeCursorState codec cursor (a.bound input) with
  | .error error => .error (cursorErrorEnvelope req (js a.source) (js a.backend) input.limit error)
  | .ok state => match a.read state with
    | .error message => .error (rejectedInputEnvelope req (js a.source) (js a.backend) message input.limit)
    | .ok state => .ok state

def stateOf (req : NorthstarRequest) (input : NormalizedResearchInput) : Option JsString → Except NorthstarResult State
  | none => .ok a.first
  | some cursor => a.resume codec req input cursor

def answered (req : NorthstarRequest) (input : NormalizedResearchInput) (reply : Reply State) : NorthstarResult :=
  let outcome : NorthstarSourceOutcome := {
    source := js a.source
    backend := js a.backend
    entities := reply.rows.entities
    invalid := reply.rows.invalid
    error := reply.error }
  buildNorthstarResult req [outcome] true input.limit reply.next.isSome (reply.next.map (a.cursorFor codec input)) reply.notes

/- `aborted` is the message of what an aborted request throws. -/
def search {Prepared : Type} (prepare : NormalizedResearchInput → Except (Reply State) Prepared)
    (ask : NormalizedResearchInput → Prepared → State → Except JsString (Reply State)) (aborted : JsString)
    (context : ResearchAdapterContext) (request : ResearchAdapterRequest) : Visit State :=
  let req := researchRequestV1 (js a.source) context
  match normalizeResearchInput request with
  | .error message => ⟨none,.ok (rejectedInputEnvelope req (js a.source) (js a.backend) message 10)⟩
  | .ok input => match a.refusal input with
    | some message => ⟨none,.ok (rejectedInputEnvelope req (js a.source) (js a.backend) message input.limit)⟩
    | none => match prepare input with
      | .error reply => ⟨none,.ok (a.answered codec req input reply)⟩
      | .ok prepared => match a.stateOf codec req input request.cursor with
        | .error result => ⟨none,.ok result⟩
        | .ok state =>
            if request.aborted then ⟨none,.error aborted⟩
            else ⟨some state,(ask input prepared state).map (a.answered codec req input)⟩

end CursorAdapter

def refusedFilter (service : String) (fields : List FilterField) (input : NormalizedResearchInput) : Option JsString :=
  (fields.find? fun field => (input.filter field).isSome).map fun field =>
    js service ++ js " does not support the \"" ++ js field.name ++ js "\" filter."

def everyFilter : List FilterField := [.author,.doi,.venue]

/- Jan 1 UTC of a year in epoch seconds. -/
def yearEpoch (year : Int) : Int :=
  (365 * (year - 1970) + (year - 1969) / 4 - (year - 1901) / 100 + (year - 1601) / 400) * 86400

namespace OffsetAdapter

def numbered (a : OffsetAdapter) (one : js a.source ≠ js "all") : CursorAdapter Nat where
  source := a.source
  backend := a.backend
  refusal := refusedFilter a.service a.unsupported
  first := 0
  read state := cursorNumber state (js a.key) 0 a.cap
  write offset := [(js a.key,.number (.int offset))]
  one := one
  undated := fun same => absurd same (by decide)

theorem offsetNumbered (codec : Codec) (a : OffsetAdapter) (one : js a.source ≠ js "all") (req : NorthstarRequest)
    (input : NormalizedResearchInput) (cursor : Option JsString) :
    (a.numbered one).stateOf codec req input cursor = a.offsetOf codec req input cursor ∧
    (a.numbered one).cursorFor codec input = a.cursorFor codec input := by
  refine ⟨?_,rfl⟩
  cases cursor with
  | none => rfl
  | some cursor =>
    change (a.numbered one).resume codec req input cursor = _
    have same : (a.numbered one).bound input = a.bound input := rfl
    have read (state : CursorState) : (a.numbered one).read state = cursorNumber state (js a.key) 0 a.cap := rfl
    unfold CursorAdapter.resume offsetOf
    rw [same]
    dsimp only
    cases decodeCursorState codec cursor (a.bound input) with
    | error error => rfl
    | ok state =>
      dsimp only
      rw [read]
      cases cursorNumber state (js a.key) 0 a.cap <;> rfl

end OffsetAdapter

namespace StackExchange

def maxPage : Nat := 25

def adapter : CursorAdapter Nat where
  source := "stackoverflow"
  backend := "stackexchange-api"
  refusal := refusedFilter "Stack Exchange excerpt search" everyFilter
  first := 1
  read state := cursorNumber state (js "page") 1 maxPage
  write page := [(js "page",.number (.int page))]
  one := by decide
  undated := fun same => absurd same (by decide)

structure Params where
  site : JsString := js "stackoverflow"
  q : JsString
  pagesize : Nat
  page : Nat
  fromdate : Option Int

def params (input : NormalizedResearchInput) (page : Nat) : Params where
  q := input.query
  pagesize := input.limit
  page := page
  fromdate := input.yearFrom.map yearEpoch

def searchStackExchange (codec : Codec) (answer : Params → Except JsString (Reply Nat)) (reason : JsString) :
    ResearchAdapterContext → ResearchAdapterRequest → Visit Nat :=
  adapter.search codec (fun _ => .ok ()) (fun input _ page => answer (params input page)) reason

end StackExchange

namespace OpenAlex

def adapter : CursorAdapter JsString where
  source := "openalex"
  backend := "openalex-api"
  refusal _ := none
  first := js "*"
  read state := cursorToken state (js "cursor") 512
  write cursor := [(js "cursor",.string cursor)]
  one := by decide
  undated := fun same => absurd same (by decide)

/- The id of the first author or source under a name. -/
abbrev ResolveOpenAlexId := JsString → JsString → Except ResearchHttpError (Option JsString)

def resolved (find : ResolveOpenAlexId) (resource filter key : String) : Option JsString → Except (Reply JsString) (List JsString)
  | none => .ok []
  | some name => match find (js resource) name with
    | .error error => .error { error := some (httpOutcomeError error) }
    | .ok none => .error { notes := [js "OpenAlex \"" ++ js resource ++ js "\" search returned no match for the requested " ++
        js filter ++ js " filter; returning empty result."] }
    | .ok (some id) => .ok [js key ++ js ":" ++ id]

def filters (find : ResolveOpenAlexId) (input : NormalizedResearchInput) : Except (Reply JsString) (List JsString) := do
  let author ← resolved find "authors" "author" "authorships.author.id" input.author
  let venue ← resolved find "sources" "venue" "primary_location.source.id" input.venue
  .ok ((input.yearFrom.map fun year => js "from_publication_date:" ++ js (toString year) ++ js "-01-01").toList ++
    (input.doi.map (js "doi:" ++ ·)).toList ++ author ++ venue)

structure Params where
  search : JsString
  perPage : Nat
  cursor : JsString
  filter : Option JsString

def params (input : NormalizedResearchInput) (filters : List JsString) (cursor : JsString) : Params where
  search := input.query
  perPage := input.limit
  cursor := cursor
  filter := if filters = [] then none else some ((js ",").intercalate filters)

def searchOpenAlex (codec : Codec) (find : ResolveOpenAlexId) (answer : Params → Except JsString (Reply JsString)) :
    ResearchAdapterContext → ResearchAdapterRequest → Visit JsString :=
  adapter.search codec (filters find) (fun input filters cursor => answer (params input filters cursor)) (js "aborted")

end OpenAlex

namespace Datacite

def adapter : CursorAdapter JsString where
  source := "datacite"
  backend := "datacite-api"
  refusal := refusedFilter "DataCite search" [.venue]
  first := js "1"
  read state := cursorToken state (js "cursor") 512
  write cursor := [(js "cursor",.string cursor)]
  one := by decide
  undated := fun same => absurd same (by decide)

def quoteField (value : JsString) : JsString := value.filter (· ≠ 34)

def buildQuery (input : NormalizedResearchInput) : JsString :=
  (js " AND ").intercalate (input.query ::
    ((input.yearFrom.map fun year => js "publicationYear:[" ++ js (toString year) ++ js " TO *]").toList ++
    (input.author.map fun author => js "creators.name:\"" ++ quoteField author ++ js "\"").toList ++
    (input.doi.map fun doi => js "doi:\"" ++ quoteField doi ++ js "\"").toList))

structure Params where
  query : JsString
  pageSize : Nat
  pageCursor : JsString

def params (input : NormalizedResearchInput) (cursor : JsString) : Params := ⟨buildQuery input,input.limit,cursor⟩

def searchDatacite (codec : Codec) (answer : Params → Except JsString (Reply JsString)) :
    ResearchAdapterContext → ResearchAdapterRequest → Visit JsString :=
  adapter.search codec (fun _ => .ok ()) (fun input _ cursor => answer (params input cursor)) (js "aborted")

end Datacite

namespace Ror

def pageSize : Nat := 20
def maxPage : Nat := 500

def refusal (input : NormalizedResearchInput) : Option JsString :=
  if input.yearFrom.isSome then some (js "ROR does not support date filtering; omit yearFrom.") else refusedFilter "ROR" everyFilter input

def adapter : CursorAdapter (Nat × Nat) where
  source := "ror"
  backend := "ror-api"
  refusal := refusal
  dated := false
  first := (1,0)
  read state := do
    let page ← cursorNumber state (js "page") 1 maxPage
    let offset ← cursorNumber state (js "offset") 0 (pageSize - 1)
    .ok (page,offset)
  write := fun (page,offset) => [(js "page",.number (.int page)),(js "offset",.number (.int offset))]
  one := by decide
  undated := by
    intro _ input passed
    unfold refusal at passed
    cases year : input.yearFrom with
    | none => rfl
    | some year_ => simp [year] at passed

structure Params where
  query : JsString
  page : Nat

def params (input : NormalizedResearchInput) (state : Nat × Nat) : Params := ⟨input.query,state.1⟩

def searchRor (codec : Codec) (answer : Params → Nat → Except JsString (Reply (Nat × Nat))) (reason : JsString) :
    ResearchAdapterContext → ResearchAdapterRequest → Visit (Nat × Nat) :=
  adapter.search codec (fun _ => .ok ()) (fun input _ state => answer (params input state) state.2) reason

end Ror

namespace Wikidata

def maxContinue : Nat := 50000

def refusal (input : NormalizedResearchInput) : Option JsString :=
  if input.yearFrom.isSome then some (js "Wikidata entity search does not support the \"yearFrom\" filter.")
  else refusedFilter "Wikidata entity search" everyFilter input

def adapter : CursorAdapter Nat where
  source := "wikidata"
  backend := "wikidata-api"
  refusal := refusal
  dated := false
  first := 0
  read state := cursorNumber state (js "continue") 0 maxContinue
  write position := [(js "continue",.number (.int position))]
  one := by decide
  undated := by
    intro _ input passed
    unfold refusal at passed
    cases year : input.yearFrom with
    | none => rfl
    | some year_ => simp [year] at passed

structure Params where
  limit : Nat
  continue_ : Nat
  search : JsString

def params (input : NormalizedResearchInput) (position : Nat) : Params := ⟨input.limit,position,input.query⟩

def searchWikidata (codec : Codec) (answer : Params → Except JsString (Reply Nat)) :
    ResearchAdapterContext → ResearchAdapterRequest → Visit Nat :=
  adapter.search codec (fun _ => .ok ()) (fun input _ position => answer (params input position)) (js "aborted")

end Wikidata

namespace HackerNews

def maxPage : Nat := 100

def adapter : CursorAdapter Nat where
  source := "hackernews"
  backend := "hn-algolia"
  refusal := refusedFilter "Hacker News search" everyFilter
  first := 0
  read state := cursorNumber state (js "page") 0 maxPage
  write page := [(js "page",.number (.int page))]
  one := by decide
  undated := fun same => absurd same (by decide)

structure Params where
  query : JsString
  tags : JsString := js "story"
  hitsPerPage : Nat
  page : Nat
  numericFilters : Option JsString

def params (input : NormalizedResearchInput) (page : Nat) : Params where
  query := input.query
  hitsPerPage := input.limit
  page := page
  numericFilters := input.yearFrom.map fun year => js "created_at_i>=" ++ js (toString (yearEpoch year))

def searchHackerNews (codec : Codec) (answer : Params → Except JsString (Reply Nat)) :
    ResearchAdapterContext → ResearchAdapterRequest → Visit Nat :=
  adapter.search codec (fun _ => .ok ()) (fun input _ page => answer (params input page)) (js "aborted")

end HackerNews

/- The sources that issue cursors. -/
inductive CursorSource where
  | semanticScholar
  | openalex
  | pubmed
  | stackoverflow
  | datacite
  | ror
  | wikidata
  | arxiv
  | crossref
  | hackernews
  deriving DecidableEq, Repr

def CursorSource.State : CursorSource → Type
  | openalex => JsString
  | datacite => JsString
  | ror => Nat × Nat
  | _ => Nat

def CursorSource.adapter : (source : CursorSource) → CursorAdapter source.State
  | semanticScholar => SemanticScholar.adapter.numbered (by decide)
  | openalex => OpenAlex.adapter
  | pubmed => Pubmed.adapter.numbered (by decide)
  | stackoverflow => StackExchange.adapter
  | datacite => Datacite.adapter
  | ror => Ror.adapter
  | wikidata => Wikidata.adapter
  | arxiv => Arxiv.adapter.numbered (by decide)
  | crossref => Crossref.adapter.numbered (by decide)
  | hackernews => HackerNews.adapter

/- What a request asks a provider for. -/
def NormalizedResearchInput.asks (input : NormalizedResearchInput) :
    JsString × Option Int × Option JsString × Option JsString × Option JsString :=
  (input.query,input.yearFrom,input.author,input.doi,input.venue)

namespace CursorAdapter
variable {State : Type} {a : CursorAdapter State}

def TurnsAway (a : CursorAdapter State) (codec : Codec) (input : NormalizedResearchInput) (cursor : JsString) : Prop :=
  ∀ req, ∃ result, a.resume codec req input cursor = .error result

/- A state whose cursor the adapter would go on from. -/
def Readable (a : CursorAdapter State) (state : State) : Prop :=
  jsonSize (.string (js a.source)) + jsonSize (.object (a.write state)) ≤ 2967 ∧ ∃ there, a.read (a.write state) = .ok there

theorem acceptedParts {request : ResearchAdapterRequest} {input : NormalizedResearchInput} (ok : a.accepted request = .ok input) :
    normalizeResearchInput request = .ok input ∧ a.refusal input = none := by
  unfold accepted at ok
  cases normal : normalizeResearchInput request with
  | error message => rw [normal] at ok; cases ok
  | ok read =>
    rw [normal] at ok
    change (match a.refusal read with | some message => Except.error message | none => .ok read) = .ok input at ok
    split at ok
    · cases ok
    · rename_i passed
      cases ok
      exact ⟨rfl,passed⟩

/- A request that turns a cursor away asks its provider for nothing. -/
theorem turnedSilent {codec : Codec} {request : ResearchAdapterRequest} {input : NormalizedResearchInput} {cursor : JsString}
    (ok : a.accepted request = .ok input) (here : request.cursor = some cursor) (turned : a.TurnsAway codec input cursor)
    {Prepared : Type} (prepare : NormalizedResearchInput → Except (Reply State) Prepared)
    (ask : NormalizedResearchInput → Prepared → State → Except JsString (Reply State)) (aborted : JsString)
    (context : ResearchAdapterContext) : (a.search codec prepare ask aborted context request).asked = none := by
  obtain ⟨normal,passed⟩ := acceptedParts ok
  obtain ⟨result,refused⟩ := turned (researchRequestV1 (js a.source) context)
  unfold search
  simp only [normal,passed,here,stateOf,refused]
  split <;> rfl

theorem boundYear {request : ResearchAdapterRequest} {input : NormalizedResearchInput} (ok : a.accepted request = .ok input) :
    (a.bound input).yearFrom = input.yearFrom := by
  change (if a.dated then input.yearFrom else none) = input.yearFrom
  cases dated : a.dated with
  | true => exact if_pos rfl
  | false => exact (a.undated dated input (acceptedParts ok).2).symm

theorem stateTaken {codec : Codec} {req : NorthstarRequest} {input : NormalizedResearchInput} {cursor : JsString} {there : CursorState}
    (decoded : decodeResultCursor codec cursor (a.bound input) = .ok there) :
    (∃ result, a.resume codec req input cursor = .error result) ↔ ¬ ∃ state, a.read there = .ok state := by
  unfold resume decodeCursorState
  rw [decoded]
  dsimp only
  cases a.read there with
  | error message => exact iff_of_true ⟨_,rfl⟩ nofun
  | ok state => exact iff_of_false nofun fun none_ => none_ ⟨state,rfl⟩

theorem stateLost {codec : Codec} {req : NorthstarRequest} {input : NormalizedResearchInput} {cursor : JsString}
    {error : ResultContractError} (decoded : decodeResultCursor codec cursor (a.bound input) = .error error) :
    ∃ result, a.resume codec req input cursor = .error result := by
  unfold resume decodeCursorState
  rw [decoded]
  exact ⟨_,rfl⟩

/- What becomes of a cursor of one request under another one. -/
theorem presented {sha256hex : Bytes → JsString} {numerals : Json.Numerals} {x y : ResearchAdapterRequest}
    {i j : NormalizedResearchInput} (first : a.accepted x = .ok i) (second : a.accepted y = .ok j) {state : State}
    (valid : ScalarState numerals (a.write state)) (digest : hexDigest (sha256hex (boundBytes (a.bound i))))
    (collisionFree : sha256hex (boundBytes (a.bound i)) = sha256hex (boundBytes (a.bound j)) →
      boundBytes (a.bound i) = boundBytes (a.bound j)) :
    a.TurnsAway (nodeCodec sha256hex numerals) j (a.cursorFor (nodeCodec sha256hex numerals) i state) ↔
      utf8 i.query ≠ utf8 j.query ∨ i.yearFrom ≠ j.yearFrom ∨ ¬ a.Readable state := by
  have read := issuedRead sha256hex (a.bound i) valid digest (a.bound j)
  have apart := boundApart (a := a.bound i) (b := a.bound j) rfl
  rw [boundYear first,boundYear second] at apart
  have taken (there : CursorState) : decodeResultCursor (nodeCodec sha256hex numerals)
      (a.cursorFor (nodeCodec sha256hex numerals) i state) (a.bound j) = .ok there ↔
      jsonSize (.string (js a.source)) + jsonSize (.object (a.write state)) ≤ 2967 ∧
        (utf8 i.query = utf8 j.query ∧ i.yearFrom = j.yearFrom) ∧ there = a.write state := by
    refine (read there).trans ⟨fun ⟨short,_,_,hashed,same⟩ => ⟨short,apart.mp (collisionFree hashed),same⟩,
      fun ⟨short,same,there_⟩ => ⟨short,a.one,rfl,?_,there_⟩⟩
    exact congrArg sha256hex (apart.mpr same)
  constructor
  · intro turned
    by_contra other
    obtain ⟨query,rest⟩ := not_or.mp other
    obtain ⟨year,readable⟩ := not_or.mp rest
    obtain ⟨short,there,back⟩ := not_not.mp readable
    have decoded := (taken (a.write state)).mpr ⟨short,⟨not_not.mp query,not_not.mp year⟩,rfl⟩
    exact (stateTaken decoded).mp (turned (researchRequestV1 [] {})) ⟨there,back⟩
  · intro cause req
    cases decoded : decodeResultCursor (nodeCodec sha256hex numerals) (a.cursorFor (nodeCodec sha256hex numerals) i state) (a.bound j) with
    | error error => exact stateLost decoded
    | ok there =>
      obtain ⟨short,⟨query,year⟩,rfl⟩ := (taken there).mp decoded
      refine (stateTaken decoded).mpr fun read => ?_
      rcases cause with apart | apart | unread
      · exact apart query
      · exact apart year
      · exact unread ⟨short,read⟩

end CursorAdapter
/-- Of two requests that a source accepts and that ask for different things, the cursor of one is refused under the other exactly
when their queries or years differ, or nobody could go on from it. -/
theorem continuesOwn {sha256hex : Bytes → JsString} {numerals : Json.Numerals} (source : CursorSource)
    {x y : ResearchAdapterRequest} {i j : NormalizedResearchInput} (first : source.adapter.accepted x = .ok i)
    (second : source.adapter.accepted y = .ok j) {state : source.State} (valid : ScalarState numerals (source.adapter.write state))
    (digest : hexDigest (sha256hex (boundBytes (source.adapter.bound i))))
    (collisionFree : sha256hex (boundBytes (source.adapter.bound i)) = sha256hex (boundBytes (source.adapter.bound j)) →
      boundBytes (source.adapter.bound i) = boundBytes (source.adapter.bound j)) :
    (i.asks ≠ j.asks → source.adapter.TurnsAway (nodeCodec sha256hex numerals) j
        (source.adapter.cursorFor (nodeCodec sha256hex numerals) i state)) ↔
      i.asks = j.asks ∨ utf8 i.query ≠ utf8 j.query ∨ i.yearFrom ≠ j.yearFrom ∨ ¬ source.adapter.Readable state := by
  have here := CursorAdapter.presented first second valid digest collisionFree
  rw [here]
  by_cases same : i.asks = j.asks
  · exact iff_of_true (fun apart => absurd same apart) (.inl same)
  · exact ⟨fun turned => .inr (turned same),fun cause _ => cause.resolve_left same⟩

def zeroDigest (_ : Bytes) : JsString := List.replicate 64 48

theorem zeroHex (bytes : Bytes) : hexDigest (zeroDigest bytes) :=
  ⟨rfl,fun u member => by rw [List.eq_of_mem_replicate member]; exact .inl (by decide)⟩

def byAuthor (author : String) : ResearchAdapterRequest := { query := js "x", author := some (js author) }

def askedAuthor (author : String) : NormalizedResearchInput := ⟨js "x",10,none,none,some (js author),none,none⟩

theorem pageTwo : ScalarState Json.wholeNumerals (OpenAlex.adapter.write (js "p2")) where
  listed := by decide
  scalars := by decide
  finite := fun field member n same => by
    cases List.mem_singleton.mp member
    cases same

theorem authorsApart : ((askedAuthor "Curie").asks ≠ (askedAuthor "Noether").asks →
      OpenAlex.adapter.TurnsAway (nodeCodec zeroDigest Json.wholeNumerals) (askedAuthor "Noether")
        (OpenAlex.adapter.cursorFor (nodeCodec zeroDigest Json.wholeNumerals) (askedAuthor "Curie") (js "p2"))) ↔
    (askedAuthor "Curie").asks = (askedAuthor "Noether").asks ∨
      utf8 (askedAuthor "Curie").query ≠ utf8 (askedAuthor "Noether").query ∨
      (askedAuthor "Curie").yearFrom ≠ (askedAuthor "Noether").yearFrom ∨ ¬ OpenAlex.adapter.Readable (js "p2") :=
  continuesOwn (x := byAuthor "Curie") (y := byAuthor "Noether") .openalex (by decide) (by decide) pageTwo (zeroHex _)
    fun _ => rfl

theorem authorIgnored : OpenAlex.adapter.accepted (byAuthor "Curie") = .ok (askedAuthor "Curie") ∧
    OpenAlex.adapter.accepted (byAuthor "Noether") = .ok (askedAuthor "Noether") ∧
    (askedAuthor "Curie").asks ≠ (askedAuthor "Noether").asks ∧
    ¬ OpenAlex.adapter.TurnsAway (nodeCodec zeroDigest Json.wholeNumerals) (askedAuthor "Noether")
      (OpenAlex.adapter.cursorFor (nodeCodec zeroDigest Json.wholeNumerals) (askedAuthor "Curie") (js "p2")) := by
  have first : OpenAlex.adapter.accepted (byAuthor "Curie") = .ok (askedAuthor "Curie") := by decide
  have second : OpenAlex.adapter.accepted (byAuthor "Noether") = .ok (askedAuthor "Noether") := by decide
  have readable : OpenAlex.adapter.Readable (js "p2") := ⟨by decide,js "p2",by decide⟩
  refine ⟨first,second,by decide,fun turned => ?_⟩
  rcases (CursorAdapter.presented first second pageTwo (zeroHex _) fun _ => rfl).mp turned with apart | apart | unread
  · exact apart rfl
  · exact apart rfl
  · exact unread readable

end Northstar.Research
