import Northstar.Interchange
import Northstar.Research.Arxiv
import Northstar.Research.Walks

/-! When following the cursors of Crossref, PubMed, Semantic Scholar or arXiv shows every row once.
Each goes on by a rule of its own: Crossref behind pages full of rows it can read, and only within
the cap; PubMed and Semantic Scholar by pages, whatever the cap; arXiv by the entries that have an
identifier, though the provider counts the others too. -/
namespace Northstar.Research
open Paging

section
variable {source : JsString} {kind : NorthstarEntityKind}

theorem parsedEntities (rows : List JsValue) : (parseAdapterRows source kind rows).entities = rows.filterMap (adapterRow source kind) := by
  induction rows with
  | nil => rfl
  | cons row rest ih =>
    unfold parseAdapterRows
    cases read : adapterRow source kind row with
    | none =>
      rw [List.filterMap_cons,read]
      exact ih
    | some entity =>
      rw [List.filterMap_cons,read]
      exact congrArg (entity :: ·) ih

end

/- The codec's promises for the cursors of a request. -/
abbrev CodecFor (codec : Codec) (a : OffsetAdapter) (input : NormalizedResearchInput) : Prop := Lawful codec (a.bound input) (js a.key)

section
variable {codec : Codec} {context : ResearchAdapterContext} {request : ResearchAdapterRequest} {input : NormalizedResearchInput}

namespace Crossref

def entityOf (row : JsValue) : Option NorthstarEntity := adapterRow (js adapter.source) .work (mapRow row)

/- The provider answers with the rows of the window. -/
def Serves (fetch : Params → Except ResearchHttpError JsValue) (rows : List JsValue) : Prop :=
  ∀ p, ∃ payload, fetch p = .ok payload ∧ (payload.get "message").get "items" = .array (window rows p.rows p.offset)

theorem answers {fetch : Params → Except ResearchHttpError JsValue} {rows : List JsValue} (serves : Serves fetch rows)
    {input : NormalizedResearchInput} (few : input.limit ≤ maxResearchLimit) (offset : Nat) :
    Answers (ask fetch input) (fullTurn rows adapter.cap input.limit fun row => (entityOf row).isSome)
      (fun offset => (window rows input.limit offset).filterMap entityOf) offset := by
  obtain ⟨payload,fetched,items⟩ := serves (params input offset)
  have items' : (payload.get "message").get "items" = .array (window rows input.limit offset) := items
  have entities : (parseAdapterRows (js adapter.source) .work ((window rows input.limit offset).map mapRow)).entities =
      (window rows input.limit offset).filterMap entityOf := by
    rw [parsedEntities,List.filterMap_map]
    rfl
  have count : ((window rows input.limit offset).filterMap entityOf).length =
      (window rows input.limit offset).countP fun row => (entityOf row).isSome := List.length_filterMap_eq_countP
  have shown : ask fetch input offset = .ok {
      rows := ⟨(window rows input.limit offset).filterMap entityOf,
        (parseAdapterRows (js adapter.source) .work ((window rows input.limit offset).map mapRow)).invalid⟩
      next := if (window rows input.limit offset).countP (fun row => (entityOf row).isSome) = input.limit ∧
        offset + input.limit ≤ adapter.cap then some (offset + input.limit) else none } := by
    unfold ask
    rw [fetched]
    dsimp only
    rw [items']
    dsimp only
    rw [entities,count,← entities]
  unfold Answers fullTurn
  rw [shown]
  by_cases full : (window rows input.limit offset).countP (fun row => (entityOf row).isSome) = input.limit ∧
      offset + input.limit ≤ adapter.cap
  · rw [if_pos full,if_pos full]
    exact ⟨Nat.add_le_add_left few offset,_,rfl⟩
  · rw [if_neg full,if_neg full]
    exact ⟨_,rfl⟩

theorem complete {fetch : Params → Except ResearchHttpError JsValue} {rows : List JsValue} (taken : Taken adapter request input)
    (lawful : CodecFor codec adapter input) (serves : Serves fetch rows) :
    Complete (searchCrossref codec fetch context) request rows 9999 input.limit entityOf ↔
      FullFits rows 9999 input.limit fun row => (entityOf row).isSome := by
  obtain ⟨some_,few⟩ := normalizedLimit taken.normalized
  exact (completeIff taken lawful (by decide) (by decide) (by decide) (by decide) (answers serves few)).trans (fullSound some_)

end Crossref

namespace SemanticScholar

def entityOf (row : JsValue) : Option NorthstarEntity := match mapSemanticScholarRow row with
  | .ok mapped => adapterRow (js adapter.source) .work mapped
  | .error _ => none

def isNull : JsValue → Bool
  | .null => true
  | _ => false

/- The provider answers with the rows of the window and the next offset, if there are more. -/
def Serves (fetch : Params → Except ResearchHttpError JsValue) (rows : List JsValue) : Prop :=
  ∀ p, ∃ payload, fetch p = .ok payload ∧ payload.get "data" = .array (window rows p.limit p.offset) ∧
    payload.get "next" = if p.offset + p.limit < rows.length then .number (.int (p.offset + p.limit : Nat)) else .undefined

theorem mappedRows (rows : List JsValue) :
    (rows.any isNull = true → ∃ thrown, rows.mapM mapSemanticScholarRow = .error thrown) ∧
    (rows.any isNull = false → ∃ mapped, rows.mapM mapSemanticScholarRow = .ok mapped ∧
      mapped.filterMap (adapterRow (js adapter.source) .work) = rows.filterMap entityOf) := by
  induction rows with
  | nil => exact ⟨nofun,fun _ => ⟨[],rfl,rfl⟩⟩
  | cons row rest ih =>
    rw [List.any_cons]
    cases plain : isNull row with
    | true =>
      cases row with
      | null => exact ⟨fun _ => ⟨_,by rw [List.mapM_cons]; rfl⟩,nofun⟩
      | _ => contradiction
    | false =>
      obtain ⟨mapped,read⟩ : ∃ mapped, mapSemanticScholarRow row = .ok mapped := by
        cases row with
        | null => contradiction
        | _ => exact ⟨_,rfl⟩
      rw [Bool.false_or,List.mapM_cons,read]
      constructor
      · intro bad
        obtain ⟨thrown,threw⟩ := ih.1 bad
        exact ⟨thrown,by rw [threw]; rfl⟩
      · intro fine
        obtain ⟨later,went,entities⟩ := ih.2 fine
        refine ⟨mapped :: later,by rw [went]; rfl,?_⟩
        have one : entityOf row = adapterRow (js adapter.source) .work mapped := by
          unfold entityOf
          rw [read]
        rw [List.filterMap_cons,List.filterMap_cons,one,entities]

theorem answers {fetch : Params → Except ResearchHttpError JsValue} {rows : List JsValue} (serves : Serves fetch rows)
    {input : NormalizedResearchInput} (some_ : 0 < input.limit) (few : input.limit ≤ maxResearchLimit) (offset : Nat) :
    Answers (ask fetch input) (strideTurn rows input.limit isNull)
      (fun offset => (window rows input.limit offset).filterMap entityOf) offset := by
  obtain ⟨payload,fetched,data,next⟩ := serves (params input offset)
  have data' : payload.get "data" = .array (window rows input.limit offset) := data
  have next' : payload.get "next" = if offset + input.limit < rows.length then .number (.int (offset + input.limit : Nat)) else .undefined := next
  have asked : ask fetch input offset = ((window rows input.limit offset).mapM mapSemanticScholarRow).map fun mapped =>
      { rows := parseAdapterRows (js adapter.source) .work mapped
        next := if offset + input.limit < rows.length then some (offset + input.limit) else none } := by
    unfold ask
    rw [fetched]
    dsimp only
    rw [data']
    dsimp only
    rw [next']
    by_cases more : offset + input.limit < rows.length
    · rw [if_pos more,if_pos more]
      have positive : decide ((0 : Int) < (offset + input.limit : Nat)) = true := decide_eq_true (by omega)
      simp only [researchInt,optionalInt,Option.filter_some,gt_iff_lt,positive,if_true,Option.map_some,Int.toNat_natCast]
    · rw [if_neg more,if_neg more]
      rfl
  obtain ⟨throws,reads⟩ := mappedRows (window rows input.limit offset)
  unfold Answers strideTurn
  rw [asked]
  cases bad : (window rows input.limit offset).any isNull with
  | true =>
    obtain ⟨thrown,threw⟩ := throws bad
    rw [if_pos rfl,threw]
    exact ⟨thrown,rfl⟩
  | false =>
    obtain ⟨mapped,went,entities⟩ := reads bad
    have same : parseAdapterRows (js adapter.source) .work mapped = ⟨(window rows input.limit offset).filterMap entityOf,
        (parseAdapterRows (js adapter.source) .work mapped).invalid⟩ := by
      rw [← entities,← parsedEntities]
    rw [if_neg Bool.false_ne_true,went]
    by_cases more : offset + input.limit < rows.length
    · rw [if_pos more,if_pos more]
      exact ⟨Nat.add_le_add_left few offset,_,congrArg (fun rows => (.ok { rows, next := some (offset + input.limit) } : Except JsString Answer)) same⟩
    · rw [if_neg more,if_neg more]
      exact ⟨_,congrArg (fun rows => (.ok { rows } : Except JsString Answer)) same⟩

theorem complete {fetch : Params → Except ResearchHttpError JsValue} {rows : List JsValue} (taken : Taken adapter request input)
    (lawful : CodecFor codec adapter input) (serves : Serves fetch rows) :
    Complete (searchSemanticScholar codec fetch context) request rows 9999 input.limit entityOf ↔
      StrideFits rows 9999 input.limit (fun row => (entityOf row).isSome) isNull := by
  obtain ⟨some_,few⟩ := normalizedLimit taken.normalized
  exact (completeIff taken lawful (by decide) (by decide) (by decide) (by decide) (answers serves some_ few)).trans
    (strideSound some_)

end SemanticScholar

namespace Pubmed

/- An identifier and its summary. -/
structure Row where
  uid : JsString
  doc : JsValue

def entityOf (row : Row) : Option NorthstarEntity :=
  ((researchRecord row.doc).map (mapDocSum row.uid)).bind (adapterRow (js adapter.source) .work)

/- The provider finds the identifiers of the window, counts all of them, and has their summaries. -/
structure Serves (esearch : EsearchParams → Except ResearchHttpError JsValue) (esummary : List JsString → Except ResearchHttpError JsValue)
    (rows : List Row) : Prop where
  finds : ∀ p, ∃ found, esearch p = .ok found ∧
    (found.get "esearchresult").get "idlist" = .array ((window rows p.retmax p.retstart).map fun row => .string row.uid) ∧
    countOf ((found.get "esearchresult").get "count") = rows.length ∧
    researchString ((found.get "esearchresult").get "error") = none
  summarises : ∀ offset limit, ∃ summary, esummary ((window rows limit offset).map (·.uid)) = .ok summary ∧
    (summary.get "result").get "uids" = .array ((window rows limit offset).map fun row => .string row.uid) ∧
    ∀ row ∈ window rows limit offset, field (summary.get "result") row.uid = row.doc

theorem answers {esearch : EsearchParams → Except ResearchHttpError JsValue} {esummary : List JsString → Except ResearchHttpError JsValue}
    {rows : List Row} (serves : Serves esearch esummary rows) {input : NormalizedResearchInput} (some_ : 0 < input.limit)
    (few : input.limit ≤ maxResearchLimit) (offset : Nat) :
    Answers (ask esearch esummary input) (strideTurn rows input.limit fun _ => false)
      (fun offset => (window rows input.limit offset).filterMap entityOf) offset := by
  obtain ⟨found,searched,idlist,count,fine⟩ := serves.finds ⟨buildTerm input,offset,input.limit,input.yearFrom⟩
  have idlist' : (found.get "esearchresult").get "idlist" =
      .array ((window rows input.limit offset).map fun row => .string row.uid) := idlist
  obtain ⟨summary,summarised,uids,docs⟩ := serves.summarises offset input.limit
  have long : (window rows input.limit offset).length = _ := windowLength offset
  have read (row : Row) (member : row ∈ window rows input.limit offset) :
      docRow (summary.get "result") (.string row.uid) = (researchRecord row.doc).map (mapDocSum row.uid) := by
    have name : textOf (.string row.uid) = row.uid := by rw [textOf]
    unfold docRow
    rw [name,docs row member]
  have read' : ((window rows input.limit offset).map fun row => .string row.uid).map (docRow (summary.get "result")) =
      (window rows input.limit offset).map fun row => (researchRecord row.doc).map (mapDocSum row.uid) := by
    rw [List.map_map]
    exact List.map_congr_left read
  have entities : (parseAdapterRows (js adapter.source) .work (((window rows input.limit offset).map fun row =>
      (researchRecord row.doc).map (mapDocSum row.uid)).filterMap id)).entities = (window rows input.limit offset).filterMap entityOf := by
    rw [parsedEntities,List.filterMap_map,List.filterMap_filterMap]
    rfl
  have names : (((window rows input.limit offset).map fun row => JsValue.string row.uid).map textOf) =
      (window rows input.limit offset).map (·.uid) := by
    rw [List.map_map]
    refine List.map_congr_left fun row _ => ?_
    rw [Function.comp_apply,textOf]
  have shown : ∃ invalid, ask esearch esummary input offset = .ok {
      rows := ⟨(window rows input.limit offset).filterMap entityOf,invalid⟩
      next := if offset + input.limit < rows.length then some (offset + input.limit) else none } := by
    unfold ask
    rw [searched]
    dsimp only
    rw [idlist']
    dsimp only
    rw [fine,count,List.length_map,names,if_neg (by decide : ¬Option.isSome (none : Option JsString) = true)]
    by_cases empty : (window rows input.limit offset).length = 0
    · rw [if_pos empty,if_neg (by omega),List.length_eq_zero_iff.mp empty]
      exact ⟨0,rfl⟩
    · rw [if_neg empty,summarised]
      dsimp only
      rw [uids]
      dsimp only
      rw [read',entities]
      by_cases more : offset + input.limit < rows.length
      · have whole : (window rows input.limit offset).length = input.limit := by omega
        rw [if_pos more,whole,if_pos (by omega)]
        exact ⟨_,rfl⟩
      · rw [if_neg more,if_neg (by omega)]
        exact ⟨_,rfl⟩
  obtain ⟨invalid,shown⟩ := shown
  have unbroken : ¬(window rows input.limit offset).any (fun _ => false) = true := by simp
  unfold Answers strideTurn
  rw [if_neg unbroken,shown]
  by_cases more : offset + input.limit < rows.length
  · rw [if_pos more,if_pos more]
    exact ⟨Nat.add_le_add_left few offset,invalid,rfl⟩
  · rw [if_neg more,if_neg more]
    exact ⟨invalid,rfl⟩

theorem complete {esearch : EsearchParams → Except ResearchHttpError JsValue} {esummary : List JsString → Except ResearchHttpError JsValue}
    {rows : List Row} (taken : Taken adapter request input) (lawful : CodecFor codec adapter input)
    (serves : Serves esearch esummary rows) :
    Complete (searchPubmed codec esearch esummary context) request rows 9999 input.limit entityOf ↔
      rows.length ≤ (9999 / input.limit + 1) * input.limit := by
  obtain ⟨some_,few⟩ := normalizedLimit taken.normalized
  have sound : Complete (searchPubmed codec esearch esummary context) request rows 9999 input.limit entityOf ↔ _ :=
    completeIff taken lawful (by decide) (by decide) (by decide) (by decide) (answers serves some_ few)
  refine (sound.trans (strideSound some_)).trans ?_
  constructor
  · intro fits
    cases fits with
    | inl clean => exact clean.2
    | inr broken =>
      obtain ⟨_,⟨_,_,bad⟩,_⟩ := broken
      contradiction
  · intro short
    exact .inl ⟨fun _ there => absurd there.choose_spec.2 Bool.false_ne_true,short⟩

end Pubmed

namespace Arxiv

/- The entry of a block, if it has an identifier. -/
def entityOf (block : JsString) : Option NorthstarEntity :=
  if (readEntry block).id = [] then none else adapterRow (js adapter.source) .work (rowOf (readEntry block))

/- The provider answers with a feed that counts all rows and has the entries of the window. -/
def Serves (fetch : Params → Except ResearchHttpError JsString) (rows : List JsString) : Prop :=
  ∀ p, ∃ xml, fetch p = .ok xml ∧ isFeed xml = true ∧ totalResults xml = some rows.length ∧
    entryBlocks xml = window rows p.maxResults p.start

theorem trimHead {s rest : JsString} {u : UInt16} (same : trim s = u :: rest) : whiteSpace u = false := by
  have prefix_ : trim s <+: s.dropWhile whiteSpace := by
    have suffix := List.dropWhile_suffix whiteSpace (l := (s.dropWhile whiteSpace).reverse)
    have front := List.reverse_prefix.mpr suffix
    rwa [List.reverse_reverse] at front
  rw [same] at prefix_
  obtain ⟨more,whole⟩ := prefix_
  have some_ : s.dropWhile whiteSpace ≠ [] := by
    rw [← whole]
    exact List.cons_ne_nil _ _
  have head := List.head_dropWhile_not whiteSpace some_
  simpa [← whole] using head

theorem nonEmptyHead {u : UInt16} (printed : whiteSpace u = false) (rest : JsString) : nonEmptyString (u :: rest) = true := by
  have there : trim (u :: rest) ≠ [] := by
    unfold trim
    rw [List.dropWhile_cons_of_neg (by rw [printed]; exact Bool.false_ne_true)]
    intro empty
    have every := List.dropWhile_eq_nil_iff.mp (List.reverse_eq_nil_iff.mp empty) u (by simp)
    rw [printed] at every
    contradiction
  exact decide_eq_true (List.length_pos_iff.mpr there)

theorem trimmedPrinted {s : JsString} (some_ : trim s ≠ []) (n : Nat) : nonEmptyString ((trim s).take (n + 1)) = true := by
  obtain ⟨u,rest,same⟩ := List.exists_cons_of_ne_nil some_
  rw [same,List.take_succ_cons]
  exact nonEmptyHead (trimHead same) _

theorem readId {row : JsValue} {id : JsString} (record : isRecord row = true) (named : row.get "id" = .string id)
    (linked : row.get "url" = .string id) (some_ : nonEmptyString id = true) :
    (adapterRow (js adapter.source) .work row).isSome = true := by
  have trimmed : trim id ≠ [] := List.length_pos_iff.mp (of_decide_eq_true some_)
  have read : optionalString (.string id) = some (trim id) := if_pos some_
  have home : nonEmptyString (js adapter.source) = true := by decide
  obtain ⟨entity,parsed,fine⟩ : ∃ entity, parseEntity row (js adapter.source) .work = .ok entity ∧ validateNorthstarEntity entity = [] := by
    unfold parseEntity
    rw [record,named,linked,read]
    refine ⟨_,rfl,?_⟩
    unfold validateNorthstarEntity
    rw [if_pos (trimmedPrinted trimmed 511),if_pos (trimmedPrinted trimmed 2047),if_pos home]
    rfl
  unfold adapterRow
  rw [parsed]
  dsimp only
  rw [if_neg (not_not.mpr fine)]
  split
  · split
    · rfl
    · rfl
  · rfl

theorem identified (block : JsString) : (entityOf block).isSome = decide ((readEntry block).id ≠ []) := by
  unfold entityOf
  split
  · rename_i none
    rw [none]
    rfl
  · rename_i named
    obtain ⟨u,rest,same⟩ := List.exists_cons_of_ne_nil named
    have printed : nonEmptyString (readEntry block).id = true := by
      rw [same]
      exact nonEmptyHead (trimHead same) rest
    rw [readId rfl rfl rfl printed,decide_eq_true named]

theorem answers {fetch : Params → Except ResearchHttpError JsString} {rows : List JsString} (serves : Serves fetch rows)
    {input : NormalizedResearchInput} (few : input.limit ≤ maxResearchLimit) (offset : Nat) :
    Answers (ask fetch input) (goodTurn rows input.limit fun block => (entityOf block).isSome)
      (fun offset => (window rows input.limit offset).filterMap entityOf) offset := by
  obtain ⟨xml,fetched,feed,total,blocks⟩ := serves (params input offset)
  have blocks' : entryBlocks xml = window rows input.limit offset := blocks
  have named : (parseEntries xml).entries = ((window rows input.limit offset).map readEntry).filter (·.id ≠ []) := by
    unfold parseEntries
    rw [blocks']
  have count : (parseEntries xml).entries.length = (window rows input.limit offset).countP fun block => (entityOf block).isSome := by
    rw [named,← List.countP_eq_length_filter,List.countP_map]
    refine List.countP_congr fun block _ => ?_
    rw [identified]
    rfl
  have entities : (parseAdapterRows (js adapter.source) .work ((parseEntries xml).entries.map rowOf)).entities =
      (window rows input.limit offset).filterMap entityOf := by
    rw [parsedEntities,named,List.filterMap_map,List.filterMap_filter,List.filterMap_map]
    refine List.filterMap_congr fun block _ => ?_
    unfold entityOf
    by_cases none : (readEntry block).id = []
    · simp [none]
    · simp [none]
  have shown : ∃ invalid, ask fetch input offset = .ok {
      rows := ⟨(window rows input.limit offset).filterMap entityOf,invalid⟩
      next := if 0 < (window rows input.limit offset).countP (fun block => (entityOf block).isSome) ∧
          offset + (window rows input.limit offset).countP (fun block => (entityOf block).isSome) < rows.length then
        some (offset + (window rows input.limit offset).countP fun block => (entityOf block).isSome) else none } := by
    unfold ask
    rw [fetched]
    dsimp only
    rw [feed,show (parseEntries xml).total = some rows.length from total]
    dsimp only
    rw [count,entities]
    exact ⟨_,rfl⟩
  obtain ⟨invalid,shown⟩ := shown
  have most : (window rows input.limit offset).countP (fun block => (entityOf block).isSome) ≤ input.limit := by
    have part := List.countP_le_length (l := window rows input.limit offset) (p := fun block => (entityOf block).isSome)
    have long : (window rows input.limit offset).length = _ := windowLength offset
    omega
  unfold Answers goodTurn
  dsimp only
  rw [shown]
  split
  · rename_i next more
    split at more
    · contradiction
    · contradiction
  · rename_i more
    split at more
    · contradiction
    · rename_i ends
      rw [if_neg ends]
      exact ⟨invalid,rfl⟩
  · rename_i next more
    split at more
    · rename_i on
      cases more
      rw [if_pos on]
      exact ⟨Nat.add_le_add_left (Nat.le_trans most few) offset,invalid,rfl⟩
    · contradiction

theorem complete {fetch : Params → Except ResearchHttpError JsString} {rows : List JsString} (taken : Taken adapter request input)
    (lawful : CodecFor codec adapter input) (serves : Serves fetch rows) :
    Complete (searchArxiv codec fetch context) request rows 99000 input.limit entityOf ↔
      GoodFits rows 99000 input.limit fun block => (entityOf block).isSome := by
  obtain ⟨some_,few⟩ := normalizedLimit taken.normalized
  exact (completeIff taken lawful (by decide) (by decide) (by decide) (by decide) (answers serves few)).trans (goodSound some_)

end Arxiv

end

/- A codec with SHA-256 of the texts below, reading the cursors of one request. -/
def digestOf : String → JsString
  | "crossref" => js "64c496332c6a8bd1f89dc939ad7c04028908a1665fad3c22f9283a4c49984491"
  | "pubmed" => js "69e14606877a5c5c478da764d51611e218cbed57ed0a6a7c474bb6cbbc9787a3"
  | "semantic_scholar" => js "269cfac620477797038bac27f178d5b26150d54520e914b6df0bb3126d2f603b"
  | _ => js "a7469ed0c3fed53d3f5765b78626cab5f79b9366e0d7951f98c6488b2d6c7ce9"

def cursorOf (a : OffsetAdapter) (n : Nat) : JsValue :=
  cursorPayload (js a.source) (digestOf a.source) [(js a.key,.number (.int n))]

@[irreducible] def largest : Nat := 10^16

def readCursor (a : OffsetAdapter) (bytes : Bytes) : Option JsValue :=
  ((List.range largest).find? fun n => utf8 (stringify (cursorOf a n)) = bytes).map (cursorOf a)

def codecOf (a : OffsetAdapter) : Codec where
  sha256hex _ := digestOf a.source
  parse := readCursor a

theorem digitsApart {pre post : JsString} (left : clean pre) {m n : Nat}
    (same : utf8 (pre ++ (js (toString (m : Int)) ++ post)) = utf8 (pre ++ (js (toString (n : Int)) ++ post))) : m = n := by
  rw [utf8Append left,utf8Append left,utf8Append (cleanText _),utf8Append (cleanText _)] at same
  have texts := List.append_cancel_right (List.append_cancel_left same)
  rw [utf8Js,utf8Js] at texts
  have words : toString (m : Int) = toString (n : Int) :=
    String.toByteArray_inj.mp (ByteArray.ext (Array.toList_inj.mp texts))
  exact Nat.repr_injective words

theorem payloadShape (source hash key : JsString) : ∃ front : JsString, ∀ n : Nat,
    stringify (cursorPayload source hash [(key,.number (.int n))]) = (front ++ [58]) ++ (js (toString (n : Int)) ++ [125,125]) := by
  refine ⟨[123] ++ (quote (js "v") ++ [58] ++ js (toString (1 : Int)) ++ [44] ++ (quote (js "source") ++ [58] ++ quote source) ++ [44] ++
    (quote (js "queryHash") ++ [58] ++ quote hash) ++ [44] ++ (quote (js "state") ++ [58]) ++ [123] ++ quote key),?_⟩
  intro n
  simp only [cursorPayload,stringify,stringifyFields,Number.script,List.intercalate_cons_cons,List.intercalate_singleton,
    List.append_assoc,List.cons_append,List.nil_append]

theorem cursorApart (a : OffsetAdapter) {m n : Nat} (same : utf8 (stringify (cursorOf a m)) = utf8 (stringify (cursorOf a n))) : m = n := by
  obtain ⟨front,shape⟩ := payloadShape (js a.source) (digestOf a.source) (js a.key)
  rw [cursorOf,cursorOf,shape,shape] at same
  exact digitsApart (cleanEnd front rfl) same

theorem cursorRead (a : OffsetAdapter) {n : Nat} (small : n < largest) :
    readCursor a (utf8 (stringify (cursorOf a n))) = some (cursorOf a n) := by
  unfold readCursor
  cases found : (List.range largest).find? fun m => utf8 (stringify (cursorOf a m)) = utf8 (stringify (cursorOf a n)) with
  | none =>
    have absent := List.find?_eq_none.mp found n (List.mem_range.mpr small)
    exact absurd (decide_eq_true rfl) absent
  | some m =>
    have hit := List.find?_some found
    rw [cursorApart a (of_decide_eq_true hit)]
    rfl

theorem codecLawful (a : OffsetAdapter) (input : NormalizedResearchInput) (digest : (digestOf a.source).length = 64) :
    CodecFor (codecOf a) a input := by
  refine ⟨digest,fun n small => cursorRead a ?_⟩
  unfold largest
  exact small

def graphsRequest : ResearchAdapterRequest := { query := js "graphs", limit := some (.int 1) }

def graphsInput : NormalizedResearchInput := ⟨js "graphs",1,none,none,none,none,none⟩

/- A row with nothing in it before one with a DOI. -/
def itemsFound : List JsValue := [.object [],.object [(js "DOI",.string (js "10.1000/182")),(js "title",.array [.string (js "Graphs")])]]

def itemsServed (rows : List JsValue) (p : Crossref.Params) : Except ResearchHttpError JsValue :=
  .ok (.object [(js "status",.string (js "ok")),(js "message",.object [(js "items",.array (window rows p.rows p.offset))])])

theorem itemsServes (rows : List JsValue) : Crossref.Serves (itemsServed rows) rows := fun _ => ⟨_,rfl,rfl⟩

theorem graphsTaken : Taken Crossref.adapter graphsRequest graphsInput := ⟨rfl,rfl,rfl⟩

def paper : JsValue := .object [(js "paperId",.string (js "649def34f8be52c8b66281af98ae884c09aef38b")),(js "title",.string (js "Graphs"))]

def papersServed (rows : List JsValue) (p : SemanticScholar.Params) : Except ResearchHttpError JsValue :=
  .ok (.object [(js "total",.number (.int rows.length)),(js "data",.array (window rows p.limit p.offset)),
    (js "next",if p.offset + p.limit < rows.length then .number (.int (p.offset + p.limit : Nat)) else .undefined)])

def article : Pubmed.Row := ⟨js "31452104",.object [(js "uid",.string (js "31452104")),(js "title",.string (js "Graphs"))]⟩

def articleFound (p : Pubmed.EsearchParams) : Except ResearchHttpError JsValue :=
  .ok (.object [(js "esearchresult",.object [(js "count",.string (js "1")),
    (js "idlist",.array ((window [article] p.retmax p.retstart).map fun row => .string row.uid))])])

def articleSummary (ids : List JsString) : Except ResearchHttpError JsValue :=
  .ok (.object [(js "result",.object [(js "uids",.array (ids.map .string)),(article.uid,article.doc)])])

def entry : JsString := js "<id>http://arxiv.org/abs/2401.00001v1</id><title>Graphs</title>"

def feedServed (p : Arxiv.Params) : Except ResearchHttpError JsString :=
  .ok (js "<feed xmlns=\"http://www.w3.org/2005/Atom\"><opensearch:totalResults>1</opensearch:totalResults>" ++
    (window [entry] p.maxResults p.start).flatMap (fun block => js "<entry>" ++ block ++ js "</entry>") ++ js "</feed>")

theorem oneWindow {ρ : Type} (row : ρ) (limit offset : Nat) : window [row] limit offset = [] ∨ window [row] limit offset = [row] := by
  cases offset with
  | zero =>
    cases limit with
    | zero => exact .inl rfl
    | succ limit => exact .inr (by simp [window])
  | succ offset => exact .inl (by simp [window])

end Northstar.Research
