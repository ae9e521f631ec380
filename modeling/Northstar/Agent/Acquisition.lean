import Northstar.Search.Chunker
import Northstar.Agent.Admission

/-! From a fetched body to the ledger (agent-acquisition.ts). The chunker bounds a chunk in UTF-16
units, the ledger bounds an excerpt in bytes, and a chunk is offered as it is. -/
namespace Northstar.Agent.State
open Chunker (TextChunk ChunkOptions chunkText Cut chunksCut splitText slice)

variable {p : Tables}

def maxFetchContentBytes : Nat := 262144

structure ChunkedAdmission where
  canonicalUrl : JsString
  responseId : Option JsString
  sourceClass : SourceClass
  acquisitionRoute : AcquisitionRoute
  content : JsString
  questionIds : List JsString
  round : Nat

structure AgentFetchAdmission where
  evidence : List Entry
  truncated : Bool
  rejectedCount : Nat
  rejectionReasons : List String
  mergedCount : Nat

/- The content a document is hashed and chunked as. -/
def ChunkedAdmission.kept (admission : ChunkedAdmission) : JsString :=
  if maxFetchContentBytes < byteLength admission.content then truncateUtf8Bytes admission.content maxFetchContentBytes
  else admission.content

def routeName (route : AcquisitionRoute) : String :=
  ((agentAcquisitionRoutes.find? fun known => known.2 = route).map (·.1)).getD ""

def rangeLocator (first last : Nat) : JsValue :=
  .object [(js "start",.number (.int first)),(js "end",.number (.int last))]

def chunkOffer (p : Tables) (admission : ChunkedAdmission) (chunk : TextChunk) : AgentEvidenceInput where
  sourceRef := some ⟨.string admission.canonicalUrl,.undefined,admission.responseId,admission.sourceClass,
    .string (js (routeName admission.acquisitionRoute))⟩
  documentHash := p.sha256hex admission.kept
  locator := rangeLocator chunk.first chunk.last
  contentLength := some admission.kept.length
  excerpt := chunk.text
  questionIds := .array (admission.questionIds.map .string)
  round := admission.round
  status := js "admitted"

/- Whether a code point is a letter is the platform's table. -/
def chunksOf (letter : JsString → Bool) (admission : ChunkedAdmission) : List TextChunk := match chunkText letter admission.kept with
  | .ok chunks => chunks
  | .error _ => []

def countAdmission (out : AgentFetchAdmission) : Admission → AgentFetchAdmission
  | .rejected reason => { out with rejectedCount := out.rejectedCount + 1, rejectionReasons := out.rejectionReasons ++ [reason] }
  | .stored _ (some _) => { out with mergedCount := out.mergedCount + 1 }
  | .stored entry none => { out with evidence := out.evidence ++ [entry] }

def admitChunk (p : Tables) (admission : ChunkedAdmission) (s : AgentState × AgentFetchAdmission) (chunk : TextChunk) :
    AgentState × AgentFetchAdmission :=
  let offered := addEvidence p s.1 (chunkOffer p admission chunk)
  (offered.1,countAdmission s.2 offered.2)

def admitChunked (p : Tables) (letter : JsString → Bool) (s : AgentState) (admission : ChunkedAdmission) :
    AgentState × AgentFetchAdmission :=
  let truncated := decide (maxFetchContentBytes < byteLength admission.content)
  let out := (chunksOf letter admission).foldl (admitChunk p admission) (s,⟨[],truncated,0,[],0⟩)
  (out.1,{ out.2 with rejectionReasons := out.2.rejectionReasons.eraseDups.take 3 })

/- The page was fetched from an http(s) URL, and its hash is not blank. -/
structure Fetched (p : Tables) (admission : ChunkedAdmission) : Prop where
  url : trim admission.canonicalUrl ≠ []
  http : isHttpUrl (normalizeUrl p.toPlatform admission.canonicalUrl)
  hashed : trim (p.sha256hex admission.kept) ≠ []

theorem routeKnown (route : AcquisitionRoute) : routeOf (.string (js (routeName route))) = some route := by
  cases route <;> decide

theorem rangeChecked {first last : Nat} {excerpt : JsString} {length : Nat} (ends : first + excerpt.length = last)
    (some_ : excerpt ≠ []) (inside : last ≤ length) :
    checkLocator (rangeLocator first last) excerpt (some length) = .ok (.range first last) := by
  have apart : (js "end" == js "start") = false := by decide
  have positive := List.length_pos_iff.mpr some_
  have start : natural ((rangeLocator first last).get "start") = some first := by
    simp [rangeLocator,JsValue.get,List.lookup,natural]
  have stop : natural ((rangeLocator first last).get "end") = some last := by
    simp [rangeLocator,JsValue.get,List.lookup,apart,natural]
  have range : checkRange (rangeLocator first last) excerpt (some length) = .ok (.range first last) := by
    unfold checkRange
    rw [start,stop]
    dsimp only
    rw [if_neg (by simp; omega),if_neg (by omega)]
  rw [← range]
  simp [checkLocator,rangeLocator]

theorem sourceChecked {admission : ChunkedAdmission} (fetched : Fetched p admission) (chunk : TextChunk) :
    checkSourceIdentity p (chunkOffer p admission chunk).sourceRef =
      .ok (.url (normalizeUrl p.toPlatform admission.canonicalUrl)) := by
  have text : textOf (.string admission.canonicalUrl) ≠ [] := fetched.url
  simp [checkSourceIdentity,chunkOffer,text,JsValue.asString,fetched.http]

theorem chunkCut {letter : JsString → Bool} {admission : ChunkedAdmission} {chunk : TextChunk}
    (member : chunk ∈ chunksOf letter admission) : Cut {} admission.kept chunk := chunksCut letter (by decide) _ chunk member

theorem shortChunk {letter : JsString → Bool} {admission : ChunkedAdmission} (short : admission.kept.length ≤ 2048)
    (long : 100 ≤ admission.kept.length) :
    chunksOf letter admission = [⟨admission.kept,0,admission.kept.length⟩] := by
  have filled : admission.kept ≠ [] := List.ne_nil_of_length_pos (by omega)
  unfold chunksOf chunkText splitText
  dsimp only
  rw [if_neg (by decide),if_neg (by decide),if_neg filled,if_pos short,if_pos long]

/- A chunk that is not blank passes every check but the one of its size. -/
theorem chunkChecked {letter : JsString → Bool} {admission : ChunkedAdmission} (fetched : Fetched p admission)
    {chunk : TextChunk} (member : chunk ∈ chunksOf letter admission) (some_ : trim chunk.text ≠ []) :
    (∃ entry, checkEvidence p (chunkOffer p admission chunk) = .ok entry) ↔
      byteLength chunk.text ≤ agentEvidenceExcerptMaxBytes := by
  have cut := chunkCut member
  have filled : chunk.text ≠ [] := fun none_ => some_ (by rw [none_]; rfl)
  have locator : checkLocator (chunkOffer p admission chunk).locator (chunkOffer p admission chunk).excerpt
      (chunkOffer p admission chunk).contentLength = .ok (.range chunk.first chunk.last) :=
    rangeChecked cut.ends filled cut.inside
  have route : ((chunkOffer p admission chunk).sourceRef.bind fun ref => routeOf ref.acquisitionRoute) =
      some admission.acquisitionRoute := routeKnown _
  have source := sourceChecked fetched chunk
  have hashed : trim (chunkOffer p admission chunk).documentHash ≠ [] := fetched.hashed
  have filled' : trim (chunkOffer p admission chunk).excerpt ≠ [] := some_
  have known : (["admitted","rejected","superseded"].map js).contains (js "admitted") = true := by decide
  by_cases long : agentEvidenceExcerptMaxBytes < byteLength chunk.text
  · have long' : agentEvidenceExcerptMaxBytes < byteLength (chunkOffer p admission chunk).excerpt := long
    constructor
    · intro ⟨entry,ok⟩
      unfold checkEvidence at ok
      rw [if_neg filled',if_pos long'] at ok
      cases ok
    · intro short
      omega
  · have short : ¬agentEvidenceExcerptMaxBytes < byteLength (chunkOffer p admission chunk).excerpt := long
    refine ⟨fun _ => Nat.le_of_not_lt long,fun _ => ?_⟩
    unfold checkEvidence
    rw [if_neg filled',if_neg short,if_neg hashed,source,route,locator]
    simp only [pure,Except.pure,bind,Except.bind,chunkOffer,AgentLocator.isRange,known,Bool.not_true,Bool.and_false,
      Bool.false_eq_true,if_false,ne_eq,not_true_eq_false]
    exact ⟨_,rfl⟩

theorem admittedChecked {s : AgentState} (room : s.admittedEvidence.length < maxEvidence) {input : AgentEvidenceInput} :
    (∃ entry more, (addEvidence p s input).2 = .stored entry more) ↔ ∃ entry, checkEvidence p input = .ok entry := by
  unfold addEvidence
  cases ok : checkEvidence p input with
  | error reason => simp
  | ok entry =>
    dsimp only
    split
    · simp
    · rw [if_neg (by omega)]
      simp

/- Every chunk that is not blank is taken. -/
def Complete (p : Tables) (letter : JsString → Bool) (s : AgentState) (admission : ChunkedAdmission) : Prop :=
  ∀ chunk ∈ chunksOf letter admission, trim chunk.text ≠ [] →
    ∃ entry more, (addEvidence p s (chunkOffer p admission chunk)).2 = .stored entry more

def ChunksFit (letter : JsString → Bool) (admission : ChunkedAdmission) : Prop :=
  ∀ chunk ∈ chunksOf letter admission, trim chunk.text ≠ [] → byteLength chunk.text ≤ agentEvidenceExcerptMaxBytes

/- No 2048 units in a row take more bytes than an excerpt may have. -/
def WindowsFit (text : JsString) : Prop :=
  ∀ first last, last ≤ first + 2048 → byteLength (slice text first last) ≤ agentEvidenceExcerptMaxBytes

theorem windowsSuffice {letter : JsString → Bool} {admission : ChunkedAdmission} (fit : WindowsFit admission.kept) :
    ChunksFit letter admission := by
  intro chunk member _
  have cut := chunkCut member
  have most : chunk.text.length ≤ 2048 := cut.most
  have ends := cut.ends
  rw [cut.part]
  exact fit chunk.first chunk.last (by omega)

theorem narrowUnit {u : UInt16} (narrow : u < 0x800) : byteLength [u] ≤ 2 := by
  have plain : surrogate u = false := by
    simp only [surrogate,Bool.and_eq_false_iff,decide_eq_false_iff_not,UInt16.not_le]
    exact .inl (UInt16.lt_trans narrow (by decide))
  have small : u.toNat < 0x800 := UInt16.lt_iff_toNat_lt.mp narrow
  have char : (Char.ofNat u.toNat).toNat = u.toNat := scalarToNat (by unfold Nat.isValidChar; omega)
  have size : (Char.ofNat u.toNat).utf8Size ≤ 2 := by
    have val : (Char.ofNat u.toNat).val.toNat ≤ 0x7FF := by
      change (Char.ofNat u.toNat).toNat ≤ 0x7FF
      omega
    unfold Char.utf8Size
    dsimp only
    split
    · omega
    · rw [if_pos (UInt32.le_iff_toNat_le.mpr val)]
  simpa [byteLength,utf8,points,utf8Units,pointChar,plain] using size

theorem narrowBytes {text : JsString} (narrow : ∀ u ∈ text, u < 0x800) : byteLength text ≤ 2 * text.length := by
  induction text with
  | nil => exact Nat.zero_le _
  | cons u rest ih =>
    have small := narrow u List.mem_cons_self
    have plain : highSurrogate u = false := by
      simp only [highSurrogate,Bool.and_eq_false_iff,decide_eq_false_iff_not,UInt16.not_le]
      exact .inl (UInt16.lt_trans small (by decide))
    have later := ih fun v member => narrow v (List.mem_cons_of_mem _ member)
    have one := narrowUnit small
    have both := byteAppend (cleanEnd [] plain) rest
    rw [List.nil_append,List.singleton_append] at both
    rw [both,List.length_cons]
    omega

theorem narrowFits {text : JsString} (narrow : ∀ u ∈ text, u < 0x800) : WindowsFit text := by
  intro first last within
  have part : ∀ u ∈ slice text first last, u < 0x800 := fun u member =>
    narrow u (List.mem_of_mem_take (List.mem_of_mem_drop member))
  have bytes := narrowBytes part
  have size := Chunker.sliceLength text first last
  unfold agentEvidenceExcerptMaxBytes
  omega

theorem completeExactly {letter : JsString → Bool} {admission : ChunkedAdmission} (fetched : Fetched p admission)
    {s : AgentState} (room : s.admittedEvidence.length < maxEvidence) :
    Complete p letter s admission ↔ ChunksFit letter admission := by
  unfold Complete ChunksFit
  constructor
  · intro taken chunk member some_
    exact (chunkChecked fetched member some_).mp ((admittedChecked room).mp (taken chunk member some_))
  · intro fit chunk member some_
    exact (admittedChecked room).mpr ((chunkChecked fetched member some_).mpr (fit chunk member some_))

/- A chunk that is refused below the cap. -/
def refused (chunk : TextChunk) : Bool := trim chunk.text = [] || agentEvidenceExcerptMaxBytes < byteLength chunk.text

theorem refusedChunk {letter : JsString → Bool} {admission : ChunkedAdmission} (fetched : Fetched p admission)
    {s : AgentState} (room : s.admittedEvidence.length < maxEvidence) {chunk : TextChunk}
    (member : chunk ∈ chunksOf letter admission) :
    (∃ reason, (addEvidence p s (chunkOffer p admission chunk)).2 = .rejected reason) ↔ refused chunk := by
  have blank : trim chunk.text = [] → ¬∃ entry, checkEvidence p (chunkOffer p admission chunk) = .ok entry := by
    intro none_ ⟨entry,ok⟩
    have none' : trim (chunkOffer p admission chunk).excerpt = [] := none_
    unfold checkEvidence at ok
    rw [if_pos none'] at ok
    cases ok
  have outcome : (∃ reason, (addEvidence p s (chunkOffer p admission chunk)).2 = .rejected reason) ↔
      ¬∃ entry more, (addEvidence p s (chunkOffer p admission chunk)).2 = .stored entry more := by
    cases (addEvidence p s (chunkOffer p admission chunk)).2 with
    | stored entry more => simp
    | rejected reason => simp
  rw [outcome,admittedChecked room]
  unfold refused
  rw [Bool.or_eq_true,decide_eq_true_eq,decide_eq_true_eq]
  by_cases none_ : trim chunk.text = []
  · exact ⟨fun _ => .inl none_,fun _ => blank none_⟩
  · rw [chunkChecked fetched member none_,Nat.not_le]
    simp [none_]

theorem offeredLength (p : Tables) (s : AgentState) (input : AgentEvidenceInput) :
    (addEvidence p s input).1.admittedEvidence.length ≤ s.admittedEvidence.length + 1 := by
  have gathered (entry : Entry) : (State.admitEntry s.admittedEvidence entry).length ≤ s.admittedEvidence.length + 1 := by
    have keys := congrArg List.length (gatherKeys mergedId entry s.admittedEvidence)
    rw [List.length_map] at keys
    unfold State.admitEntry
    rw [keys]
    split <;> simp
  unfold addEvidence
  split
  · exact Nat.le_succ _
  · split
    · exact gathered _
    · split
      · exact Nat.le_succ _
      · exact gathered _

theorem rejectedFrom {letter : JsString → Bool} {admission : ChunkedAdmission} (fetched : Fetched p admission)
    (chunks : List TextChunk) (inside : ∀ chunk ∈ chunks, chunk ∈ chunksOf letter admission) (s : AgentState)
    (out : AgentFetchAdmission) (room : s.admittedEvidence.length + chunks.length ≤ maxEvidence) :
    (chunks.foldl (admitChunk p admission) (s,out)).2.rejectedCount = out.rejectedCount + chunks.countP refused := by
  induction chunks generalizing s out with
  | nil => rfl
  | cons chunk rest ih =>
    rw [List.length_cons] at room
    have step := refusedChunk fetched (s := s) (by omega) (inside chunk List.mem_cons_self)
    have longer := offeredLength p s (chunkOffer p admission chunk)
    have later := ih (fun c among => inside c (List.mem_cons_of_mem _ among))
      (addEvidence p s (chunkOffer p admission chunk)).1
      (countAdmission out (addEvidence p s (chunkOffer p admission chunk)).2) (by omega)
    rw [List.foldl_cons,List.countP_cons]
    refine later.trans ?_
    cases outcome : (addEvidence p s (chunkOffer p admission chunk)).2 with
    | rejected reason =>
      rw [if_pos (step.mp ⟨reason,outcome⟩)]
      simp only [countAdmission]
      omega
    | stored entry more =>
      have taken : ¬refused chunk := fun bad => by
        obtain ⟨reason,is⟩ := step.mpr bad
        rw [outcome] at is
        contradiction
      rw [if_neg taken]
      cases more <;> rfl

/-- No chunk of a body is lost exactly where none of them is longer in bytes than an excerpt may be. -/
theorem admissionComplete (p : Tables) (letter : JsString → Bool) (admission : ChunkedAdmission)
    (fetched : Fetched p admission) (s : AgentState) (room : s.admittedEvidence.length < maxEvidence) :
    (Complete p letter s admission ↔ ChunksFit letter admission) ∧
    (WindowsFit admission.kept → Complete p letter s admission) ∧
    ((∀ u ∈ admission.kept, u < 0x800) → Complete p letter s admission) ∧
    (s.admittedEvidence.length + (chunksOf letter admission).length ≤ maxEvidence →
      (admitChunked p letter s admission).2.rejectedCount = (chunksOf letter admission).countP refused) := by
  have exactly : Complete p letter s admission ↔ ChunksFit letter admission := completeExactly fetched room
  refine ⟨exactly,fun windows => exactly.mpr (windowsSuffice windows),fun narrow => ?_,fun all => ?_⟩
  · exact exactly.mpr (windowsSuffice (narrowFits narrow))
  · have counted := rejectedFrom fetched (chunksOf letter admission) (fun _ member => member) s
      ⟨[],decide (maxFetchContentBytes < byteLength admission.content),0,[],0⟩ all
    exact counted.trans (Nat.zero_add _)

def pageOf (content : JsString) : ChunkedAdmission := ⟨js "https://a.org/p",none,.unknown,.fetch,content,[],0⟩

/- The platform on a page of a hundred letters. -/
def lettersTables : Tables := ⟨⟨fun text =>
  if text = List.replicate 100 120 then js "09ecb6ebc8bcefc733f6f2ec44f791abeed6a99edf0cc31519637898aebd52d8"
  else js "32f9a2523ee1b572cbb86836215e4f6b39b253998c6a5781b38080683a45b782",id,some⟩,
  id,fun point => point.all letterUnit⟩

theorem lettersComplete : Complete lettersTables (fun point => point.all letterUnit) (createAgentState [])
    (pageOf (List.replicate 100 120)) := by
  refine (admissionComplete lettersTables _ _ ⟨by decide,by decide,by decide⟩ _ (by decide)).2.2.1 ?_
  have page : (pageOf (List.replicate 100 120)).kept = List.replicate 100 120 := by decide
  intro u member
  rw [page] at member
  rw [List.eq_of_mem_replicate member]
  decide

/- The platform on a page of 1400 Han characters. -/
def hanTables : Tables :=
  ⟨⟨fun _ => js "c11c44346c0872d4b18074b1cb85cfa02820e27c01d28915961de9138a02b721",id,some⟩,id,fun point => point.all letterUnit⟩

theorem replicateBytes (n : Nat) {u : UInt16} (plain : highSurrogate u = false) :
    byteLength (List.replicate n u) = n * byteLength [u] := by
  induction n with
  | zero => exact (Nat.zero_mul _).symm
  | succ n ih =>
    have both := byteAppend (cleanEnd [] plain) (List.replicate n u)
    rw [List.nil_append,List.singleton_append,ih] at both
    rw [List.replicate_succ,both,Nat.succ_mul,Nat.add_comm]

theorem trimSolid {u : UInt16} (solid : whiteSpace u = false) (n : Nat) : trim (List.replicate (n + 1) u) ≠ [] := by
  have front : (List.replicate (n + 1) u).dropWhile whiteSpace = List.replicate (n + 1) u := by
    rw [List.replicate_succ,List.dropWhile_cons_of_neg (by simp [solid])]
  unfold trim
  rw [front,List.reverse_replicate,front,List.reverse_replicate]
  exact List.cons_ne_nil _ _

/- One chunk of 1400 units and 4200 bytes. -/
theorem hanLost : ¬Complete hanTables (fun point => point.all letterUnit) (createAgentState [])
    (pageOf (List.replicate 1400 0x4E2D)) := by
  have bytes := replicateBytes 1400 (u := 0x4E2D) (by decide)
  have three : byteLength [0x4E2D] = 3 := by decide
  rw [three] at bytes
  have kept : (pageOf (List.replicate 1400 0x4E2D)).kept = List.replicate 1400 0x4E2D :=
    if_neg (by change ¬maxFetchContentBytes < byteLength (List.replicate 1400 0x4E2D); rw [bytes]; decide)
  have whole : (⟨List.replicate 1400 0x4E2D,0,1400⟩ : TextChunk) ∈
      chunksOf (fun point => point.all letterUnit) (pageOf (List.replicate 1400 0x4E2D)) := by
    have length : (List.replicate 1400 (0x4E2D : UInt16)).length = 1400 := List.length_replicate
    rw [shortChunk (by rw [kept,length]; decide) (by rw [kept,length]; decide),kept,length]
    exact List.mem_singleton_self _
  intro complete
  have fit := (completeExactly ⟨by decide,by decide,by decide⟩ (by decide)).mp complete _ whole (trimSolid (by decide) 1399)
  rw [bytes] at fit
  exact absurd fit (by decide)

end Northstar.Agent.State
