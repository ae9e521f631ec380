import Mathlib.Data.List.Basic
import Northstar.Encoding
import Northstar.Paging
import Northstar.Research.Shared

/-! Following the cursors of an offset adapter. A cursor it issues is read back as the offset it
was issued for, so the pages of a request are the visits of a walk by offsets. -/
namespace Northstar.Research
open Paging

theorem escapeLength (u : UInt16) : (escapeUnit u).length ≤ 6 := by
  unfold escapeUnit
  repeat' split
  all_goals simp [escapeHex]

theorem quoteLength (s : JsString) : (quote s).length ≤ 6 * s.length + 2 := by
  have body : ((points s).flatMap escapePoint).length ≤ 6 * s.length := by
    induction s using points.induct with
    | case1 => exact Nat.le_refl 0
    | case2 u =>
      have one := escapeLength u
      simpa [points,escapePoint] using one
    | case3 u v rest pair ih =>
      simp only [points,if_pos pair,List.flatMap_cons,List.length_append,List.length_cons,List.length_nil,escapePoint]
      omega
    | case4 u v rest single ih =>
      have one := escapeLength u
      simp only [points,if_neg single,List.flatMap_cons,List.length_append,List.length_cons,escapePoint] at ih ⊢
      omega
  simp only [quote,List.length_append,List.length_singleton]
  omega

theorem byteBound (s : JsString) : (utf8 s).length ≤ 4 * s.length := by
  have each (point : JsString) : (utf8Units point).length ≤ 4 := by
    rw [utf8Units,String.length_utf8EncodeChar]
    exact Char.utf8Size_le_four _
  have parts : ((points s).map List.length).sum = s.length := by
    rw [← List.length_flatten,pointsFlatten]
  have some_ : ∀ point ∈ points s, 1 ≤ point.length := by
    intro point member
    cases pointShape member with
    | inl one =>
      obtain ⟨u,rfl⟩ := one
      exact Nat.le_refl 1
    | inr two =>
      obtain ⟨u,v,rfl,_⟩ := two
      exact Nat.le_succ 1
  rw [utf8,List.length_flatMap,← parts,← List.sum_map_mul_left]
  refine List.sum_le_sum fun point member => ?_
  have one := some_ point member
  have four := each point
  omega

theorem digitsLength {n k : Nat} (some_ : 0 < k) (small : n < 10^k) : (js (toString (n : Int))).length ≤ 2 * k := by
  have units (c : Char) : (utf16Char c).length ≤ 2 := by
    unfold utf16Char
    split
    · exact Nat.le_succ 1
    · exact Nat.le_refl 2
  have every (text : List Char) : (text.flatMap utf16Char).length ≤ 2 * text.length := by
    induction text with
    | nil => exact Nat.le_refl 0
    | cons c rest ih =>
      have two := units c
      rw [List.flatMap_cons,List.length_append,List.length_cons]
      omega
  have digits : (toString (n : Int)).toList = Nat.toDigits 10 n := Nat.toList_repr
  have most := every (Nat.toDigits 10 n)
  have few := (Nat.length_toDigits_le_iff (by decide : 1 < 10) some_).mpr small
  rw [js,digits]
  omega

/- Only the digest and the digits vary in what a cursor says. -/
theorem payloadLength {source hash key : JsString} {n : Nat} (short : source.length ≤ 16) (digest : hash.length = 64)
    (named : key.length ≤ 8) (small : n < 10^16) :
    (stringify (cursorPayload source hash [(key,.number (.int n))])).length ≤ 620 := by
  have digits := digitsLength (by decide) small
  have sourceText := quoteLength source
  have hashText := quoteLength hash
  have keyText := quoteLength key
  have one : (js (toString (1 : Int))).length = 1 := by decide
  have v : (quote (js "v")).length = 3 := by decide
  have source_ : (quote (js "source")).length = 8 := by decide
  have queryHash : (quote (js "queryHash")).length = 11 := by decide
  have state : (quote (js "state")).length = 7 := by decide
  simp only [cursorPayload,stringify,stringifyFields,Number.script,List.intercalate_cons_cons,List.intercalate_singleton,
    List.length_append,List.length_cons,List.length_nil,one,v,source_,queryHash,state]
  omega

/- What a codec promises of the texts a request's cursors are made of. -/
structure Lawful (codec : Codec) (bound : CursorBinding) (key : JsString) : Prop where
  digest : (queryFingerprint codec bound).length = 64
  reads : ∀ n : Nat, n < 10^16 → codec.parse (utf8 (stringify (cursorPayload bound.source (queryFingerprint codec bound)
    [(key,.number (.int n))]))) = some (cursorPayload bound.source (queryFingerprint codec bound) [(key,.number (.int n))])

/- A cursor is short enough and says what it was made of. -/
theorem issuedDecoded {codec : Codec} {bound : CursorBinding} {key : JsString} (lawful : Lawful codec bound key)
    (short : bound.source.length ≤ 16) (one : bound.source ≠ js "all") (named : key.length ≤ 8) {n : Nat} (small : n < 10^16) :
    decodeResultCursor codec (encodeResultCursor codec bound [(key,.number (.int n))]) bound = .ok [(key,.number (.int n))] := by
  have long := payloadLength short lawful.digest named small
  have bytes := byteBound (stringify (cursorPayload bound.source (queryFingerprint codec bound) [(key,.number (.int n))]))
  have letters := base64Length (utf8 (stringify (cursorPayload bound.source (queryFingerprint codec bound) [(key,.number (.int n))])))
  have units := lengthBytes (stringify (cursorPayload bound.source (queryFingerprint codec bound) [(key,.number (.int n))]))
  have first : 0 < (stringify (cursorPayload bound.source (queryFingerprint codec bound) [(key,.number (.int n))])).length := by
    simp [cursorPayload,stringify]
  have read := lawful.reads n small
  unfold byteLength at units
  have there : (encodeResultCursor codec bound [(key,.number (.int n))]).length ≠ 0 := by
    intro none
    have empty := (base64Some _).mp (List.length_eq_zero_iff.mp none)
    rw [empty,List.length_nil] at units
    omega
  have within : ¬(encodeResultCursor codec bound [(key,.number (.int n))]).length > maxCursorLength := by
    unfold encodeResultCursor maxCursorLength
    omega
  unfold decodeResultCursor
  rw [if_neg there,if_neg within,if_neg one,encodeResultCursor,base64Read,read]
  have v : (cursorPayload bound.source (queryFingerprint codec bound) [(key,.number (.int n))]).get "v" = .number (.int 1) := rfl
  have source : (cursorPayload bound.source (queryFingerprint codec bound) [(key,.number (.int n))]).get "source" = .string bound.source := rfl
  have hash : (cursorPayload bound.source (queryFingerprint codec bound) [(key,.number (.int n))]).get "queryHash" =
      .string (queryFingerprint codec bound) := rfl
  have state : (cursorPayload bound.source (queryFingerprint codec bound) [(key,.number (.int n))]).get "state" =
      .object [(key,.number (.int n))] := rfl
  simp only [v,source,hash,state,JsValue.asString]
  rw [if_neg (not_not.mpr rfl),if_neg (not_not.mpr rfl)]
  rfl

theorem normalizedLimit {request : ResearchAdapterRequest} {input : NormalizedResearchInput}
    (fine : normalizeResearchInput request = .ok input) : 0 < input.limit ∧ input.limit ≤ maxResearchLimit := by
  have limits : ∀ limit n, normalizeLimit limit = .ok n → 0 < n ∧ n ≤ maxResearchLimit := by
    intro limit n here
    unfold normalizeLimit at here
    split at here
    · cases here
      decide
    · cases here
      unfold maxResearchLimit
      omega
    · contradiction
  unfold normalizeResearchInput at fine
  simp only [bind,Except.bind] at fine
  split at fine
  · contradiction
  split at fine
  · contradiction
  rename_i limit here
  repeat' split at fine
  all_goals first | contradiction | skip
  all_goals
    cases fine
    exact limits _ _ here

namespace Page

def nextCursor (page : Page) : Option JsString := match page.result with
  | .ok result => result.pagination.nextCursor
  | .error _ => none

/- The request, its cursor with it, was turned away. -/
def rejected (page : Page) : Bool := match page.result with
  | .ok result => result.errors.any fun error => error.code = .invalidInput || error.code = .paginationNotSupported
  | .error _ => false

/- What is shown are the rows of the window asked for that have an entity. -/
def shows {ρ : Type} (rows : List ρ) (limit : Nat) (entityOf : ρ → Option NorthstarEntity) (page : Page) : Prop :=
  ∀ result, page.result = .ok result → ∃ offset, page.asked = some offset ∧
    result.entities = (window rows limit offset).filterMap entityOf

/- The window asked for has the position. -/
def covers (limit position : Nat) (page : Page) : Bool := match page.asked,page.result with
  | some offset, .ok _ => offset ≤ position && position < offset + limit
  | _, _ => false

end Page

/- The pages of a request, each asked for with the cursor of the one before. -/
def walk (search : ResearchAdapterRequest → Page) (request : ResearchAdapterRequest) : Nat → Option JsString → Option (List Page)
  | 0, _ => none
  | n + 1, cursor =>
      let page := search { request with cursor }
      match page.nextCursor with
      | some next => (walk search request n (some next)).map (page :: ·)
      | none => some [page]

/- The walk ends, none of its cursors is turned away, and its pages show each row that has an
entity and a position within the cap once. -/
def Complete {ρ : Type} (search : ResearchAdapterRequest → Page) (request : ResearchAdapterRequest) (rows : List ρ)
    (cap limit : Nat) (entityOf : ρ → Option NorthstarEntity) : Prop :=
  ∃ n pages, walk search request n none = some pages ∧
    (∀ page ∈ pages, page.rejected = false ∧ page.shows rows limit entityOf) ∧
    ∀ position, wanted rows cap (fun row => (entityOf row).isSome) position → pages.countP (Page.covers limit position) = 1

/- A request the adapter does not turn away for what it asks. -/
structure Taken (a : OffsetAdapter) (request : ResearchAdapterRequest) (input : NormalizedResearchInput) : Prop where
  normalized : normalizeResearchInput request = .ok input
  unrefused : a.refused input = none
  running : request.aborted = false

/- An adapter's answers go the way of a turn. -/
def Answers (ask : Nat → Except JsString Answer) (turn : Nat → Turn) (entities : Nat → List NorthstarEntity) (offset : Nat) : Prop :=
  match turn offset with
  | .failed => ∃ thrown, ask offset = .error thrown
  | .last => ∃ invalid, ask offset = .ok { rows := ⟨entities offset,invalid⟩ }
  | .more next => next ≤ offset + maxResearchLimit ∧ ∃ invalid, ask offset = .ok { rows := ⟨entities offset,invalid⟩, next := some next }

section
variable {codec : Codec} {a : OffsetAdapter} {ask : NormalizedResearchInput → Nat → Except JsString Answer}
  {context : ResearchAdapterContext} {request : ResearchAdapterRequest} {input : NormalizedResearchInput}

theorem searchFirst (taken : Taken a request input) : a.search codec ask context { request with cursor := none } =
    ⟨some 0,(ask input 0).map (a.answered codec (researchRequestV1 (js a.source) context) input)⟩ := by
  have normalized : normalizeResearchInput { request with cursor := none } = .ok input := taken.normalized
  unfold OffsetAdapter.search
  simp only [normalized,taken.unrefused]
  simp only [OffsetAdapter.offsetOf,taken.running]
  rfl

theorem searchOn (taken : Taken a request input) (lawful : Lawful codec (a.bound input) (js a.key))
    (short : (js a.source).length ≤ 16) (one : js a.source ≠ js "all") (named : (js a.key).length ≤ 8) {n : Nat} (small : n < 10^16)
    (within : n ≤ a.cap) : a.search codec ask context { request with cursor := some (a.cursorFor codec input n) } =
      ⟨some n,(ask input n).map (a.answered codec (researchRequestV1 (js a.source) context) input)⟩ := by
  have normalized : normalizeResearchInput { request with cursor := some (a.cursorFor codec input n) } = .ok input := taken.normalized
  have decoded := issuedDecoded lawful short one named small
  have number : cursorNumber [(js a.key,.number (.int n))] (js a.key) 0 a.cap = .ok n := by
    simp [cursorNumber,within]
  have offset : a.offsetOf codec (researchRequestV1 (js a.source) context) input (some (a.cursorFor codec input n)) = .ok n := by
    unfold OffsetAdapter.offsetOf OffsetAdapter.cursorFor decodeCursorState
    simp only [decoded,number]
  unfold OffsetAdapter.search
  simp only [normalized,taken.unrefused,offset]
  simp only [taken.running]
  rfl

theorem searchBeyond (taken : Taken a request input) (lawful : Lawful codec (a.bound input) (js a.key))
    (short : (js a.source).length ≤ 16) (one : js a.source ≠ js "all") (named : (js a.key).length ≤ 8) {n : Nat} (small : n < 10^16)
    (beyond : a.cap < n) :
    (a.search codec ask context { request with cursor := some (a.cursorFor codec input n) }).nextCursor = none ∧
    (a.search codec ask context { request with cursor := some (a.cursorFor codec input n) }).rejected = true := by
  have normalized : normalizeResearchInput { request with cursor := some (a.cursorFor codec input n) } = .ok input := taken.normalized
  have decoded := issuedDecoded lawful short one named small
  obtain ⟨message,number⟩ : ∃ message, cursorNumber [(js a.key,.number (.int n))] (js a.key) 0 a.cap = .error message := by
    simp [cursorNumber,beyond]
  have offset : a.offsetOf codec (researchRequestV1 (js a.source) context) input (some (a.cursorFor codec input n)) =
      .error (rejectedInputEnvelope (researchRequestV1 (js a.source) context) (js a.source) (js a.backend) message input.limit) := by
    unfold OffsetAdapter.offsetOf OffsetAdapter.cursorFor decodeCursorState
    simp only [decoded,number]
  unfold OffsetAdapter.search
  simp only [normalized,taken.unrefused,offset]
  exact ⟨rfl,rfl⟩

theorem answeredEntities (req : NorthstarRequest) (answer : Answer) : (a.answered codec req input answer).entities = answer.rows.entities :=
  List.append_nil _

theorem answeredNext (req : NorthstarRequest) (answer : Answer) :
    (a.answered codec req input answer).pagination.nextCursor = answer.next.map (a.cursorFor codec input) := rfl

/- Rows that were dropped are no reason to turn a cursor away. -/
theorem answeredFine (req : NorthstarRequest) {answer : Answer} (fine : answer.error = none) :
    ((a.answered codec req input answer).errors.any fun error =>
      error.code = .invalidInput || error.code = .paginationNotSupported) = false := by
  rw [List.any_eq_false]
  intro error member
  have there : error ∈ NorthstarSourceOutcome.errors { source := js a.source, backend := js a.backend, entities := answer.rows.entities, invalid := answer.rows.invalid, error := answer.error } := by
    obtain ⟨outcome,same,inside⟩ := List.mem_flatMap.mp member
    rwa [← List.mem_singleton.mp same]
  unfold NorthstarSourceOutcome.errors at there
  rw [fine] at there
  cases List.mem_append.mp there with
  | inl none => contradiction
  | inr dropped =>
    dsimp only at dropped
    split at dropped
    · rw [List.mem_singleton.mp dropped]
      exact Bool.false_ne_true
    · contradiction

variable {ρ : Type} {rows : List ρ} {entityOf : ρ → Option NorthstarEntity} {turn : Nat → Turn}

theorem answeredShows (req : NorthstarRequest) {offset : Nat} {answer : Answer} (fine : answer.error = none)
    (window_ : answer.rows.entities = (window rows input.limit offset).filterMap entityOf) :
    Page.rejected ⟨some offset,.ok (a.answered codec req input answer)⟩ = false ∧
    Page.shows rows input.limit entityOf ⟨some offset,.ok (a.answered codec req input answer)⟩ := by
  refine ⟨answeredFine req fine,?_⟩
  intro result same
  cases same
  exact ⟨offset,rfl,(answeredEntities req answer).trans window_⟩

theorem countsOn (limit offset : Nat) (result : NorthstarResult) (pages : List Page) :
    (fun position => (⟨some offset,.ok result⟩ :: pages : List Page).countP (Page.covers limit position)) =
      fun position => pages.countP (Page.covers limit position) + if offset ≤ position ∧ position < offset + limit then 1 else 0 := by
  funext position
  rw [List.countP_cons]
  simp only [Page.covers,Bool.and_eq_true,decide_eq_true_eq]

/- The pages of a request are the visits of the walk by offsets. -/
theorem walked (taken : Taken a request input) (lawful : Lawful codec (a.bound input) (js a.key))
    (short : (js a.source).length ≤ 16) (one : js a.source ≠ js "all") (named : (js a.key).length ≤ 8) (capped : a.cap ≤ 10^15)
    (spec : ∀ offset, Answers (ask input) turn (fun offset => (window rows input.limit offset).filterMap entityOf) offset)
    (n : Nat) {offset : Nat} {cursor : Option JsString} (inside : offset ≤ a.cap)
    (here : a.search codec ask context { request with cursor } =
      ⟨some offset,(ask input offset).map (a.answered codec (researchRequestV1 (js a.source) context) input)⟩)
    (Q : (Nat → Nat) → Prop) :
    (∃ offsets, visits turn a.cap n offset = some offsets ∧ Q (shown input.limit offsets)) ↔
    ∃ pages, walk (a.search codec ask context) request n cursor = some pages ∧
      (∀ page ∈ pages, page.rejected = false ∧ page.shows rows input.limit entityOf) ∧
      Q fun position => pages.countP (Page.covers input.limit position) := by
  induction n generalizing offset cursor Q with
  | zero => exact iff_of_false (fun there => by cases there.choose_spec.1) (fun there => by cases there.choose_spec.1)
  | succ n ih =>
    have answers := spec offset
    have none_ (position : Nat) : shown input.limit [] position = 0 := rfl
    unfold Answers at answers
    unfold visits walk
    dsimp only
    cases turned : turn offset with
    | failed =>
      rw [turned] at answers
      obtain ⟨thrown,threw⟩ := answers
      rw [threw] at here
      rw [here]
      constructor
      · intro there
        obtain ⟨offsets,same,held⟩ := there
        cases same
        refine ⟨_,rfl,?_,held⟩
        intro page member
        rw [List.mem_singleton.mp member]
        exact ⟨rfl,by rintro _ ⟨⟩⟩
      · intro there
        obtain ⟨pages,same,_,held⟩ := there
        cases same
        exact ⟨[],rfl,held⟩
    | last =>
      rw [turned] at answers
      obtain ⟨invalid,answered⟩ := answers
      rw [answered] at here
      simp only [Except.map] at here
      rw [here]
      have counts : shown input.limit [offset] = _ := funext (shownCons offset [])
      constructor
      · intro there
        obtain ⟨offsets,same,held⟩ := there
        cases same
        refine ⟨_,rfl,?_,?_⟩
        · intro page member
          rw [List.mem_singleton.mp member]
          exact answeredShows _ rfl rfl
        · rw [counts] at held
          rw [countsOn]
          exact held
      · intro there
        obtain ⟨pages,same,_,held⟩ := there
        cases same
        refine ⟨[offset],rfl,?_⟩
        rw [countsOn] at held
        rw [counts]
        exact held
    | more next =>
      rw [turned] at answers
      obtain ⟨near,invalid,answered⟩ := answers
      rw [answered] at here
      simp only [Except.map] at here
      rw [here]
      have small : next < 10^16 := by
        unfold maxResearchLimit at near
        omega
      have fine (result : NorthstarResult) (same : result = a.answered codec (researchRequestV1 (js a.source) context) input
          { rows := ⟨(window rows input.limit offset).filterMap entityOf,invalid⟩, next := some next }) :
          Page.rejected ⟨some offset,.ok result⟩ = false ∧ Page.shows rows input.limit entityOf ⟨some offset,.ok result⟩ :=
        same ▸ answeredShows _ rfl rfl
      change (∃ offsets, _) ↔ ∃ pages, (walk (a.search codec ask context) request n (some (a.cursorFor codec input next))).map _ = _ ∧ _
      dsimp only
      by_cases allowed : next ≤ a.cap
      · rw [if_pos allowed]
        have later := ih allowed (searchOn taken lawful short one named small allowed)
          fun count => Q fun position => count position + if offset ≤ position ∧ position < offset + input.limit then 1 else 0
        constructor
        · intro there
          obtain ⟨offsets,same,held⟩ := there
          obtain ⟨rest,walk_,rfl⟩ := Option.map_eq_some_iff.mp same
          have counts : shown input.limit (offset :: rest) = _ := funext (shownCons offset rest)
          rw [counts] at held
          obtain ⟨pages,went,every,held'⟩ := later.mp ⟨rest,walk_,held⟩
          refine ⟨_,by rw [went]; rfl,List.forall_mem_cons.mpr ⟨fine _ rfl,every⟩,?_⟩
          rw [countsOn]
          exact held'
        · intro there
          obtain ⟨pages,same,every,held⟩ := there
          obtain ⟨rest,walk_,rfl⟩ := Option.map_eq_some_iff.mp same
          rw [countsOn] at held
          obtain ⟨offsets,went,held'⟩ := later.mpr ⟨rest,walk_,(List.forall_mem_cons.mp every).2,held⟩
          refine ⟨offset :: offsets,by rw [went]; rfl,?_⟩
          have counts : shown input.limit (offset :: offsets) = _ := funext (shownCons offset offsets)
          rw [counts]
          exact held'
      · rw [if_neg allowed]
        refine iff_of_false (fun there => by cases there.choose_spec.1) ?_
        intro there
        obtain ⟨pages,same,every,_⟩ := there
        obtain ⟨rest,walk_,rfl⟩ := Option.map_eq_some_iff.mp same
        obtain ⟨ends,turnedAway⟩ : (a.search codec ask context { request with cursor := some (a.cursorFor codec input next) }).nextCursor = none ∧ _ :=
          searchBeyond taken lawful short one named small (Nat.lt_of_not_le allowed)
        cases n with
        | zero => contradiction
        | succ n =>
          unfold walk at walk_
          dsimp only at walk_
          rw [ends] at walk_
          cases walk_
          have good := (List.forall_mem_cons.mp every).2 _ List.mem_cons_self
          rw [turnedAway] at good
          exact Bool.noConfusion good.1

/- Following the cursors is sound just when the walk by offsets is. -/
theorem completeIff (taken : Taken a request input) (lawful : Lawful codec (a.bound input) (js a.key))
    (short : (js a.source).length ≤ 16) (one : js a.source ≠ js "all") (named : (js a.key).length ≤ 8) (capped : a.cap ≤ 10^15)
    (spec : ∀ offset, Answers (ask input) turn (fun offset => (window rows input.limit offset).filterMap entityOf) offset) :
    Complete (a.search codec ask context) request rows a.cap input.limit entityOf ↔
      Sound turn a.cap input.limit (wanted rows a.cap fun row => (entityOf row).isSome) 0 := by
  have first : a.search codec ask context { request with cursor := none } = _ := searchFirst taken
  have each (n : Nat) := walked taken lawful short one named capped spec n (Nat.zero_le _) first
    fun count => ∀ position, wanted rows a.cap (fun row => (entityOf row).isSome) position → count position = 1
  unfold Complete Sound
  refine exists_congr fun n => (each n).symm.trans ?_
  refine exists_congr fun offsets => and_congr_right fun _ => forall_congr' fun position => ?_
  exact ⟨fun once _ => once,fun once => once (Nat.zero_le _)⟩

end
end Northstar.Research
