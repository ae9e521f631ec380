import Northstar.RunLength
import Northstar.Measure
import Northstar.Agent.State

/-! Untrusted text in prompts (untrusted-content.ts, agent-evaluator.ts, agent-candidates.ts): an
excerpt between its markers and a candidate on its line, with what could be read as a marker
spaced out three characters at a time. -/
namespace Northstar.Agent.Fences
open RunLength State

/- FORMATTING_RE. -/
def formattingUnit (u : UInt16) : Bool :=
  u = 0xAD || u = 0x115F || u = 0x1160 || u = 0x17B4 || u = 0x17B5 || (0x200B ≤ u && u ≤ 0x200F) ||
    (0x202A ≤ u && u ≤ 0x202E) || u = 0x2028 || u = 0x2029 || (0x2060 ≤ u && u ≤ 0x2069) || u = 0x3164 ||
    u = 0xFEFF || u = 0xFFA0 || u = 0x034F

def retained (u : UInt16) : Bool := u = 9 || u = 10 || u = 13 || !(u < 0x20 || u = 0x7F || formattingUnit u)

/- The units of a surrogate pair are in none of the classes, so a point is kept by its units. -/
def cleanUntrustedText (text : JsString) : JsString := text.filter retained

def newline (u : UInt16) : Bool := u = 10 || u = 13

/- A run of newlines is one space, written where it ends. -/
def singleLine : JsString → JsString
  | [] => []
  | u :: rest =>
      if newline u then (if rest.head?.any newline then singleLine rest else 32 :: singleLine rest)
      else u :: singleLine rest

/- Three of a character in a row, from the left, get spaces between them. -/
def spaceTriples (c : UInt16) : JsString → JsString
  | a :: b :: d :: rest =>
      if a = c ∧ b = c ∧ d = c then c :: 32 :: c :: 32 :: c :: spaceTriples c rest
      else a :: spaceTriples c (b :: d :: rest)
  | short => short

def defanged (text : JsString) : JsString := spaceTriples 62 (spaceTriples 60 text)

def evidenceFenceOpen (id : JsString) : JsString := js "<<<EVIDENCE_" ++ id ++ js ">>>"

def evidenceFenceClose (id : JsString) : JsString := js "<<<END_EVIDENCE_" ++ id ++ js ">>>"

/- What stands between the markers. -/
def fencedBody (excerpt : JsString) : JsString :=
  [32] ++ defanged (singleLine (cleanUntrustedText (excerpt.take 200))) ++ [32]

def fenceEvidenceExcerpt (id excerpt : JsString) : JsString :=
  evidenceFenceOpen id ++ fencedBody excerpt ++ evidenceFenceClose id

def candidateLineMaxBytes : Nat := 240

inductive EntityType where
  | person | organization
  deriving DecidableEq, Repr

def EntityType.name : EntityType → JsString
  | .person => js "Person"
  | .organization => js "Organization"

inductive AgentCandidate where
  | githubCode (owner repo path : JsString) (ref : Option JsString) (url : JsString) (title : Option JsString)
  | githubRepo (owner repo url : JsString) (description : Option JsString)
  | githubIssue (owner repo : JsString) (number : Number) (url title : JsString)
  | researchSource (source title url : JsString)
  | kgEntity (entityType : EntityType) (id : JsString) (name url : Option JsString)
  | generic (route : AcquisitionRoute) (title url snippet : Option JsString)

def safeLine (value : JsString) : JsString := defanged (singleLine (cleanUntrustedText value))

def takeBytes (max : Nat) : JsString → List JsString → JsString
  | out, [] => out
  | out, ch :: rest => if max < byteLength (out ++ ch) then out else takeBytes max (out ++ ch) rest

def truncBytes (s : JsString) (max : Nat) : JsString :=
  if byteLength s ≤ max then s else takeBytes max [] (points s)

def routeName (route : AcquisitionRoute) : JsString :=
  js (((agentAcquisitionRoutes.find? fun known => known.2 = route).map (·.1)).getD "")

def given (wrap : JsString → JsString) (value : Option JsString) : JsString := (value.map wrap).getD []

/- The line of a candidate before it is made safe. -/
def candidateText : AgentCandidate → JsString
  | .githubCode owner repo path ref url title =>
      js "- [github-code] " ++ owner ++ js "/" ++ repo ++ js " " ++ path ++ given (fun ref => js " @" ++ ref) ref ++
        js " " ++ url ++ given (fun title => js " \"" ++ title ++ js "\"") title
  | .githubRepo owner repo url description =>
      js "- [github-repo] " ++ owner ++ js "/" ++ repo ++ js " " ++ url ++ given (fun desc => js " — " ++ desc) description
  | .githubIssue owner repo number url title =>
      js "- [github-issue] " ++ owner ++ js "/" ++ repo ++ js "#" ++ number.script ++ js " \"" ++ title ++ js "\" " ++ url
  | .researchSource source title url =>
      js "- [research-source] (" ++ source ++ js ") \"" ++ title ++ js "\" " ++ url
  | .kgEntity entityType id name url =>
      js "- [kg-entity] " ++ entityType.name ++ js ": " ++ ((name.map fun name => name ++ js " (" ++ id ++ js ")").getD id) ++
        given (fun url => js " " ++ url) url
  | .generic route title url snippet =>
      js "- [" ++ routeName route ++ js "] " ++
        (js " · ").intercalate (([title,url,snippet].filterMap id).filter fun part => part ≠ [])

def formatCandidate (candidate : AgentCandidate) : JsString :=
  truncBytes (safeLine (candidateText candidate)) candidateLineMaxBytes

/- The line terminators of the language. -/
def lineBreak (u : UInt16) : Bool := newline u || u = 0x2028 || u = 0x2029

def marker (u : UInt16) : Bool := u = 60 || u = 62

structure Unbroken (text : JsString) : Prop where
  line : ∀ u ∈ text, lineBreak u = false
  opening : ¬ [60,60,60] <:+: text
  closing : ¬ [62,62,62] <:+: text

/- The runs that three at a time leave two of: the last of a triple and these are a triple again. -/
def LeavesTriple (run : UInt16 × Nat) : Prop := marker run.1 ∧ 5 ≤ run.2 ∧ run.2 % 3 = 2
instance (run) : Decidable (LeavesTriple run) := by unfold LeavesTriple; infer_instance

def triples (rs : List (UInt16 × Nat)) : Nat := (rs.map fun run => if marker run.1 then run.2 / 3 else 0).sum

/- Such a run ends within the bytes that are kept, two spaces counted for each triple up to there. -/
def LeavesWithin (max : Nat) (text : JsString) : Prop :=
  ∃ i run, (runs text)[i]? = some run ∧ LeavesTriple run ∧
    byteLength (expand ((runs text).take (i + 1))) + 2 * triples ((runs text).take (i + 1)) ≤ max

/- A run of so many, spaced out. -/
def broken (c : UInt16) : Nat → JsString
  | n + 3 => c :: 32 :: c :: 32 :: c :: broken c n
  | n => List.replicate n c

def piece (run : UInt16 × Nat) : JsString := if marker run.1 then broken run.1 run.2 else List.replicate run.2 run.1

theorem spaceSkip {c u : UInt16} {rest : JsString} (not_ : ¬ (u = c ∧ rest.head? = some c)) :
    spaceTriples c (u :: rest) = u :: spaceTriples c rest := by
  rcases rest with _ | ⟨v,_ | ⟨w,more⟩⟩
  · rfl
  · rfl
  · rw [spaceTriples,if_neg]
    rintro ⟨rfl,rfl,_⟩
    exact not_ ⟨rfl,rfl⟩

theorem spaceAppend {c : UInt16} (a b : JsString) (apart : ¬ (a.getLast? = some c ∧ b.head? = some c)) :
    spaceTriples c (a ++ b) = spaceTriples c a ++ spaceTriples c b := by
  induction a using spaceTriples.induct c with
  | case1 x y z rest same ih =>
    obtain ⟨rfl,rfl,rfl⟩ := same
    have later : ¬ (rest.getLast? = some z ∧ b.head? = some z) := by
      rintro ⟨last,first⟩
      cases rest with
      | nil => contradiction
      | cons u more => exact apart ⟨by simpa using last,first⟩
    simp only [List.cons_append,spaceTriples,and_self,if_true,ih later]
  | case2 x y z rest differ ih =>
    have later : ¬ ((y :: z :: rest).getLast? = some c ∧ b.head? = some c) := by simpa using apart
    simp only [List.cons_append,spaceTriples,if_neg differ] at ih ⊢
    rw [ih later]
  | case3 short not_ =>
    rcases short with _ | ⟨x,_ | ⟨y,_ | ⟨z,more⟩⟩⟩
    · rfl
    · exact spaceSkip (by simpa using apart)
    · have second : spaceTriples c (y :: b) = y :: spaceTriples c b := spaceSkip (by simpa using apart)
      by_cases both : x = c ∧ y = c
      · obtain ⟨rfl,rfl⟩ := both
        have differ : b.head? ≠ some y := fun first => apart ⟨rfl,first⟩
        change spaceTriples y (y :: y :: b) = y :: y :: spaceTriples y b
        rcases b with _ | ⟨w,more⟩
        · rfl
        · rw [spaceTriples,if_neg (by simpa using differ),second]
      · have first : spaceTriples c (x :: y :: b) = x :: spaceTriples c (y :: b) := spaceSkip (by simpa using both)
        exact first.trans (congrArg (x :: ·) second)
    · exact absurd rfl (not_ x y z more)

theorem spaceAbsent {c : UInt16} {text : JsString} (absent : c ∉ text) : spaceTriples c text = text := by
  induction text with
  | nil => rfl
  | cons u rest ih =>
    have other : u ≠ c := fun same => absent (same ▸ List.mem_cons_self)
    rw [spaceSkip fun both => other both.1,ih fun inside => absent (List.mem_cons_of_mem _ inside)]

theorem spaceRun (c : UInt16) (n : Nat) : spaceTriples c (List.replicate n c) = broken c n := by
  induction n using broken.induct with
  | case1 n ih =>
    rw [List.replicate_succ,List.replicate_succ,List.replicate_succ,spaceTriples,if_pos ⟨rfl,rfl,rfl⟩,ih,broken]
  | case2 n small =>
    rcases n with _ | _ | _ | n
    · rfl
    · rfl
    · rfl
    · exact absurd rfl (small n)

theorem brokenMember {c u : UInt16} {n : Nat} (inside : u ∈ broken c n) : u = c ∨ u = 32 := by
  induction n using broken.induct with
  | case1 n ih =>
    simp only [broken,List.mem_cons] at inside
    rcases inside with is | is | is | is | is | inside
    · exact .inl is
    · exact .inr is
    · exact .inl is
    · exact .inr is
    · exact .inl is
    · exact ih inside
  | case2 n small =>
    rw [broken] at inside
    · exact .inl (List.eq_of_mem_replicate inside)
    · exact small

theorem brokenEnds (c : UInt16) {n : Nat} (some_ : 0 < n) : Ends c (broken c n) := by
  induction n using broken.induct with
  | case1 n ih =>
    refine ⟨rfl,?_⟩
    rcases Nat.eq_zero_or_pos n with rfl | more
    · rfl
    · have later := (ih more).2
      cases shape : broken c n with
      | nil => simp [shape] at later
      | cons u rest => simpa [broken,shape] using later
  | case2 n small =>
    rw [broken]
    · exact endsReplicate c some_
    · exact small

theorem pieceEnds {run : UInt16 × Nat} (some_ : 0 < run.2) : Ends run.1 (piece run) := by
  unfold piece
  split
  · exact brokenEnds run.1 some_
  · exact endsReplicate run.1 some_

/- A pass over pieces is a pass over each. -/
theorem spacePieces {c : UInt16} {f : UInt16 × Nat → JsString} {rs : List (UInt16 × Nat)} (apart : Apart rs)
    (ends : ∀ r ∈ rs, Ends r.1 (f r)) : spaceTriples c (rs.flatMap f) = rs.flatMap fun r => spaceTriples c (f r) := by
  induction rs with
  | nil => rfl
  | cons r rest ih =>
    have ends' : ∀ r ∈ rest, Ends r.1 (f r) := fun r member => ends r (List.mem_cons_of_mem _ member)
    rw [List.flatMap_cons,List.flatMap_cons,spaceAppend,ih (apartTail apart) ends']
    rintro ⟨last,first⟩
    rw [(ends r List.mem_cons_self).2] at last
    exact nextApart apart ends' c first (Option.some.inj last)

theorem defangedPieces (text : JsString) : defanged text = (runs text).flatMap piece := by
  have apart := runsApart text
  have plain : ∀ r ∈ runs text, Ends r.1 (List.replicate r.2 r.1) := fun r member => endsReplicate r.1 (apart.2 r member)
  have once (r : UInt16 × Nat) : spaceTriples 60 (List.replicate r.2 r.1) =
      if r.1 = 60 then broken 60 r.2 else List.replicate r.2 r.1 := by
    split
    · rename_i same
      rw [same,spaceRun]
    · rename_i differ
      exact spaceAbsent fun inside => differ (List.eq_of_mem_replicate inside).symm
  have between : ∀ r ∈ runs text, Ends r.1 (if r.1 = 60 then broken 60 r.2 else List.replicate r.2 r.1) := by
    intro r member
    split
    · rename_i same
      exact same ▸ brokenEnds r.1 (apart.2 r member)
    · exact plain r member
  have twice (r : UInt16 × Nat) : spaceTriples 62 (if r.1 = 60 then broken 60 r.2 else List.replicate r.2 r.1) = piece r := by
    unfold piece marker
    by_cases left : r.1 = 60
    · rw [if_pos left,if_pos (by simp [left]),left]
      refine spaceAbsent fun inside => ?_
      rcases brokenMember inside with is | is
      · exact absurd is (by decide)
      · exact absurd is (by decide)
    · rw [if_neg left]
      by_cases right : r.1 = 62
      · rw [if_pos (by simp [right]),right,spaceRun]
      · rw [if_neg (by simp [left,right])]
        exact spaceAbsent fun inside => right (List.eq_of_mem_replicate inside).symm
  unfold defanged
  have first : spaceTriples 60 text = (runs text).flatMap fun r => if r.1 = 60 then broken 60 r.2 else List.replicate r.2 r.1 := by
    rw [← funext once,← spacePieces apart plain]
    exact congrArg (spaceTriples 60) (expandRuns text).symm
  rw [first,spacePieces apart between,funext twice]

theorem brokenDouble {c : UInt16} (solid : c ≠ 32) {n : Nat} {part : JsString} (start : part <+: broken c n) :
    [c,c] <+: part ↔ n = 2 ∧ part = broken c n := by
  constructor
  · intro double
    have whole := double.trans start
    rcases n with _ | _ | _ | n
    · exact absurd whole (by simp [broken])
    · exact absurd whole (by simp [broken])
    · exact ⟨rfl,(start.eq_of_length_le double.length_le)⟩
    · rw [broken] at whole
      simp only [List.cons_prefix_cons] at whole
      exact absurd whole.2.1 solid
  · rintro ⟨rfl,rfl⟩
    exact List.prefix_rfl

/- Where three of a marker stand in the first part of a run that is spaced out. -/
theorem brokenPart {c : UInt16} (solid : c ≠ 32) {n : Nat} {part : JsString} (start : part <+: broken c n) :
    [c,c,c] <:+: part ↔ (5 ≤ n ∧ n % 3 = 2) ∧ part = broken c n := by
  induction n using broken.induct generalizing part with
  | case1 n ih =>
    have spaced : ¬ [c,c,c] <:+: [c,32,c,32] := by simp [List.infix_cons_iff,solid]
    change part <+: [c,32,c,32] ++ c :: broken c n at start
    rcases List.prefix_or_prefix_of_prefix start (List.prefix_append _ _) with within | ⟨more,rfl⟩
    · constructor
      · exact fun inside => absurd (inside.trans within.isInfix) spaced
      · rintro ⟨_,rfl⟩
        exact absurd within.length_le (by simp [broken])
    · have later := (List.prefix_append_right_inj [c,32,c,32]).mp start
      rw [infixParts (by
        intro u last v first same
        cases Option.some.inj last
        cases more with
        | nil => contradiction
        | cons w tail =>
          cases Option.some.inj first
          exact solid ((List.cons_prefix_cons.mp later).1.symm.trans same.symm))]
      cases more with
      | nil => simp [spaced,broken]
      | cons w tail =>
        obtain ⟨rfl,rest⟩ := List.cons_prefix_cons.mp later
        have last : [w,w,w] <:+: w :: tail ↔ (n = 2 ∧ tail = broken w n) ∨ (5 ≤ n ∧ n % 3 = 2) ∧ tail = broken w n := by
          rw [List.infix_cons_iff,List.cons_prefix_cons,brokenDouble solid rest,ih rest]
          simp
        rw [or_iff_right spaced,last]
        simp only [true_and,broken,List.cons_append,List.nil_append,List.cons.injEq]
        constructor
        · rintro (⟨rfl,same⟩ | ⟨⟨least,rest⟩,same⟩)
          · exact ⟨by omega,same⟩
          · exact ⟨by omega,same⟩
        · rintro ⟨⟨_,rest⟩,same⟩
          rcases Nat.lt_or_ge n 5 with less | least
          · exact .inl ⟨by omega,same⟩
          · exact .inr ⟨⟨least,by omega⟩,same⟩
  | case2 n small =>
    have few : n < 3 := by
      rcases n with _ | _ | _ | n
      · omega
      · omega
      · omega
      · exact absurd rfl (small n)
    constructor
    · intro inside
      have size := (inside.length_le).trans start.length_le
      rw [broken,List.length_replicate] at size
      · exact absurd size (by simpa using few)
      · exact small
    · rintro ⟨⟨least,_⟩,_⟩
      omega

theorem piecePart {c : UInt16} (mark : marker c) {run : UInt16 × Nat} {part : JsString} (start : part <+: piece run) :
    [c,c,c] <:+: part ↔ (LeavesTriple run ∧ run.1 = c) ∧ part = piece run := by
  have solid : c ≠ 32 := by
    rintro rfl
    exact absurd mark (by decide)
  by_cases same : run.1 = c
  · subst same
    unfold piece at start ⊢
    rw [if_pos mark] at start ⊢
    rw [brokenPart solid start]
    simp [LeavesTriple,mark]
  · constructor
    · intro inside
      have there : c ∈ piece run := start.subset (inside.subset List.mem_cons_self)
      unfold piece at there
      split at there
      · rcases brokenMember there with is | is
        · exact absurd is.symm same
        · exact absurd is solid
      · exact absurd (List.eq_of_mem_replicate there).symm same
    · rintro ⟨⟨_,is⟩,_⟩
      exact absurd is same

/- What a first part of defanged text says of the text. -/
theorem defangedPart {c : UInt16} (mark : marker c) {text part : JsString} (start : part <+: defanged text) :
    [c,c,c] <:+: part ↔ ∃ i run, (runs text)[i]? = some run ∧ (LeavesTriple run ∧ run.1 = c) ∧
      ((runs text).take (i + 1)).flatMap piece <+: part := by
  have apart := runsApart text
  rw [defangedPieces] at start
  exact infixPieces apart (fun r member => pieceEnds (apart.2 r member)) (fun r _ part start => piecePart mark start) start

theorem markers {P : UInt16 → Prop} : (¬ P 60 ∧ ¬ P 62) ↔ ¬ ∃ c, marker c ∧ P c := by
  constructor
  · rintro ⟨left,right⟩ ⟨c,mark,is⟩
    simp only [marker,Bool.or_eq_true,decide_eq_true_eq] at mark
    rcases mark with rfl | rfl
    · exact left is
    · exact right is
  · exact fun none_ => ⟨fun is => none_ ⟨60,rfl,is⟩,fun is => none_ ⟨62,rfl,is⟩⟩

theorem partUnbroken {text part : JsString} (start : part <+: defanged text) :
    (¬ [60,60,60] <:+: part ∧ ¬ [62,62,62] <:+: part) ↔ ¬ ∃ i run, (runs text)[i]? = some run ∧ LeavesTriple run ∧
      ((runs text).take (i + 1)).flatMap piece <+: part := by
  rw [@markers fun c => [c,c,c] <:+: part,not_iff_not]
  constructor
  · rintro ⟨c,mark,inside⟩
    obtain ⟨i,run,at_,⟨leaves,_⟩,whole⟩ := (defangedPart mark start).mp inside
    exact ⟨i,run,at_,leaves,whole⟩
  · rintro ⟨i,run,at_,leaves,whole⟩
    exact ⟨run.1,leaves.1,(defangedPart leaves.1 start).mpr ⟨i,run,at_,⟨leaves,rfl⟩,whole⟩⟩

theorem spaceMember {c u : UInt16} {text : JsString} (inside : u ∈ spaceTriples c text) : u ∈ text ∨ u = 32 := by
  induction text using spaceTriples.induct c with
  | case1 x y z rest same ih =>
    obtain ⟨rfl,rfl,rfl⟩ := same
    simp only [spaceTriples,and_self,if_true,List.mem_cons] at inside
    have kept := fun h => (ih h).imp_left fun there => List.mem_cons_of_mem z (List.mem_cons_of_mem z (List.mem_cons_of_mem z there))
    rcases inside with is | is | is | is | is | inside
    · exact .inl (is ▸ List.mem_cons_self)
    · exact .inr is
    · exact .inl (is ▸ List.mem_cons_self)
    · exact .inr is
    · exact .inl (is ▸ List.mem_cons_self)
    · exact kept inside
  | case2 x y z rest differ ih =>
    simp only [spaceTriples,if_neg differ] at inside
    rcases List.mem_cons.mp inside with is | inside
    · exact .inl (is ▸ List.mem_cons_self)
    · exact (ih inside).imp_left (List.mem_cons_of_mem x)
  | case3 short not_ =>
    rw [spaceTriples] at inside
    · exact .inl inside
    · exact not_

theorem singleMember {u : UInt16} {text : JsString} (inside : u ∈ singleLine text) :
    (u ∈ text ∧ newline u = false) ∨ u = 32 := by
  induction text with
  | nil => contradiction
  | cons v rest ih =>
    have later := fun h => (ih h).imp_left fun there => And.intro (List.mem_cons_of_mem v there.1) there.2
    unfold singleLine at inside
    split at inside
    · split at inside
      · exact later inside
      · rcases List.mem_cons.mp inside with is | inside
        · exact .inr is
        · exact later inside
    · rename_i kept
      rcases List.mem_cons.mp inside with rfl | inside
      · exact .inl ⟨List.mem_cons_self,by simpa using kept⟩
      · exact later inside

theorem safeUnits {u : UInt16} {text : JsString} (inside : u ∈ safeLine text) : lineBreak u = false := by
  have space : lineBreak 32 = false := rfl
  rcases spaceMember inside with inside | rfl
  · rcases spaceMember inside with inside | rfl
    · rcases singleMember inside with ⟨inside,line⟩ | rfl
      · have kept : retained u := (List.mem_filter.mp inside).2
        unfold lineBreak
        rw [line,Bool.false_or,Bool.or_eq_false_iff,decide_eq_false_iff_not,decide_eq_false_iff_not]
        constructor
        · rintro rfl
          exact absurd kept (by decide)
        · rintro rfl
          exact absurd kept (by decide)
      · exact space
    · exact space
  · exact space

/- What a unit adds in bytes is read off the unit after it. -/
theorem headBytes (u : UInt16) {a b : JsString} (same : a.head? = b.head?) :
    byteLength (u :: a) + byteLength b = byteLength (u :: b) + byteLength a := by
  rcases a with _ | ⟨v,a⟩ <;> rcases b with _ | ⟨w,b⟩
  · rfl
  · contradiction
  · contradiction
  · cases Option.some.inj same
    unfold byteLength utf8
    by_cases pair : (highSurrogate u && lowSurrogate v) = true
    · have low := (Bool.and_eq_true_iff.mp pair).2
      rw [points,points,if_pos pair,if_pos pair,lowPoint low,lowPoint low]
      simp only [List.flatMap_cons,List.length_append]
      omega
    · rw [points,points,if_neg pair,if_neg pair]
      simp only [List.flatMap_cons,List.length_append]
      omega

theorem repeatBytes (u : UInt16) (n : Nat) {a b : JsString} (same : a.head? = b.head?) :
    byteLength (List.replicate n u ++ a) + byteLength b = byteLength (List.replicate n u ++ b) + byteLength a := by
  induction n with
  | zero => exact Nat.add_comm _ _
  | succ n ih =>
    have heads : (List.replicate n u ++ a).head? = (List.replicate n u ++ b).head? := by
      cases n with
      | zero => exact same
      | succ n => rfl
    have step := headBytes u heads
    rw [List.replicate_succ,List.cons_append,List.cons_append]
    omega

theorem markerByte {c : UInt16} (mark : marker c) (rest : JsString) : byteLength (c :: rest) = 1 + byteLength rest := by
  have one : clean [c] ∧ byteLength [c] = 1 := by
    simp only [marker,Bool.or_eq_true,decide_eq_true_eq] at mark
    rcases mark with rfl | rfl
    · decide
    · decide
  rw [← one.2,← byteAppend one.1]
  rfl

theorem spaceByte (rest : JsString) : byteLength (32 :: rest) = 1 + byteLength rest := by
  rw [← show byteLength [32] = 1 by decide,← byteAppend (by decide : clean [32])]
  rfl

theorem markersBytes {c : UInt16} (mark : marker c) (n : Nat) (rest : JsString) :
    byteLength (List.replicate n c ++ rest) = n + byteLength rest := by
  induction n with
  | zero => exact (Nat.zero_add _).symm
  | succ n ih =>
    rw [List.replicate_succ,List.cons_append,markerByte mark,ih]
    omega

theorem brokenBytes {c : UInt16} (mark : marker c) (n : Nat) (rest : JsString) :
    byteLength (broken c n ++ rest) = n + 2 * (n / 3) + byteLength rest := by
  induction n using broken.induct with
  | case1 n ih =>
    simp only [broken,List.cons_append,markerByte mark,spaceByte,ih]
    omega
  | case2 n small =>
    have few : n / 3 = 0 := by
      rcases n with _ | _ | _ | n
      · rfl
      · rfl
      · rfl
      · exact absurd rfl (small n)
    rw [broken,markersBytes mark,few]
    · rfl
    · exact small

theorem piecesBytes {rs : List (UInt16 × Nat)} (apart : Apart rs) :
    byteLength (rs.flatMap piece) = byteLength (expand rs) + 2 * triples rs := by
  induction rs with
  | nil => rfl
  | cons r rest ih =>
    have later := ih (apartTail apart)
    have heads : (rest.flatMap piece).head? = (expand rest).head? := by
      unfold expand
      rw [piecesHead fun r member => pieceEnds ((apartTail apart).2 r member),
        piecesHead fun r member => endsReplicate r.1 ((apartTail apart).2 r member)]
    unfold expand triples at later ⊢
    simp only [List.flatMap_cons,List.map_cons,List.sum_cons]
    unfold piece
    split
    · rename_i mark
      rw [brokenBytes mark,markersBytes mark]
      unfold piece at later
      omega
    · have same := repeatBytes r.1 r.2 heads
      unfold expand piece at same
      unfold piece at later
      omega

theorem takenPrefix (max : Nat) (out : JsString) (units : List JsString) : takeBytes max out units <+: out ++ units.flatten := by
  induction units generalizing out with
  | nil => simp [takeBytes]
  | cons ch rest ih =>
    unfold takeBytes
    split
    · exact List.prefix_append _ _
    · rw [List.flatten_cons,← List.append_assoc]
      exact ih (out ++ ch)

theorem takenGrows (max : Nat) (out : JsString) (units : List JsString) : out <+: takeBytes max out units := by
  induction units generalizing out with
  | nil => exact List.prefix_rfl
  | cons ch rest ih =>
    unfold takeBytes
    split
    · exact List.prefix_rfl
    · exact (List.prefix_append out ch).trans (ih (out ++ ch))

theorem takenBytes {max : Nat} {out : JsString} (units : List JsString) (within : byteLength out ≤ max) :
    byteLength (takeBytes max out units) ≤ max := by
  induction units generalizing out with
  | nil => exact within
  | cons ch rest ih =>
    unfold takeBytes
    split
    · exact within
    · rename_i fits
      exact ih (Nat.le_of_not_lt fits)

theorem takenThrough {max : Nat} {out : JsString} (first rest : List JsString)
    (within : byteLength (out ++ first.flatten) ≤ max) : out ++ first.flatten <+: takeBytes max out (first ++ rest) := by
  induction first generalizing out with
  | nil =>
    rw [List.flatten_nil,List.append_nil]
    exact takenGrows max out _
  | cons ch more ih =>
    rw [List.flatten_cons,← List.append_assoc] at within ⊢
    have fits : byteLength (out ++ ch) ≤ max := (prefixBytes _ _).trans within
    rw [List.cons_append,takeBytes,if_neg (Nat.not_lt.mpr fits)]
    exact ih within

theorem truncated (s : JsString) (max : Nat) : truncBytes s max <+: s ∧ byteLength (truncBytes s max) ≤ max := by
  unfold truncBytes
  split
  · rename_i fits
    exact ⟨List.prefix_rfl,fits⟩
  · have start := takenPrefix max [] (points s)
    rw [pointsFlatten] at start
    exact ⟨start,takenBytes (points s) (Nat.zero_le max)⟩

/- The text that is kept holds what ends with a whole character within the bytes. -/
theorem truncatedHolds {s head : JsString} (max : Nat) (start : head <+: s) (whole : clean head) :
    head <+: truncBytes s max ↔ byteLength head ≤ max := by
  constructor
  · rintro ⟨rest,same⟩
    exact (prefixBytes head rest).trans (same ▸ (truncated s max).2)
  · intro fits
    unfold truncBytes
    split
    · exact start
    · obtain ⟨rest,rfl⟩ := start
      rw [pointsAppend whole]
      have through := @takenThrough max [] (points head) (points rest) (by rwa [pointsFlatten])
      rwa [pointsFlatten] at through

theorem headClean {text : JsString} {i : Nat} {run : UInt16 × Nat} (at_ : (runs text)[i]? = some run) (mark : marker run.1) :
    clean (((runs text).take (i + 1)).flatMap piece) := by
  have ends := pieceEnds ((runsApart text).2 run (List.mem_of_getElem? at_))
  have last : (((runs text).take (i + 1)).flatMap piece).getLast? = some run.1 := by
    rw [List.take_add_one,at_,List.flatMap_append]
    simp [List.getLast?_append,ends.2]
  rw [clean,last]
  simp only [marker,Bool.or_eq_true,decide_eq_true_eq] at mark
  rcases mark with is | is
  · rw [is]
    rfl
  · rw [is]
    rfl

theorem apartTake {rs : List (UInt16 × Nat)} (apart : Apart rs) (i : Nat) : Apart (rs.take i) :=
  ⟨apart.1.take i,fun r member => apart.2 r (List.mem_of_mem_take member)⟩

/- A safe line cut short is unbroken exactly where no run that leaves a triple ends within the cut. -/
theorem cutUnbroken (value : JsString) (max : Nat) : Unbroken (truncBytes (safeLine value) max) ↔
    ¬ LeavesWithin max (singleLine (cleanUntrustedText value)) := by
  have start := (truncated (safeLine value) max).1
  have lines : ∀ u ∈ truncBytes (safeLine value) max, lineBreak u = false := fun u inside => safeUnits (start.subset inside)
  have triples_ := partUnbroken start
  have ends : (∃ i run, (runs (singleLine (cleanUntrustedText value)))[i]? = some run ∧ LeavesTriple run ∧
      ((runs (singleLine (cleanUntrustedText value))).take (i + 1)).flatMap piece <+: truncBytes (safeLine value) max) ↔
      LeavesWithin max (singleLine (cleanUntrustedText value)) := by
    refine exists_congr fun i => exists_congr fun run => and_congr_right fun at_ => and_congr_right fun leaves => ?_
    have within : ((runs (singleLine (cleanUntrustedText value))).take (i + 1)).flatMap piece <+: safeLine value := by
      unfold safeLine
      rw [defangedPieces]
      exact (List.take_prefix _ _).flatMap piece
    rw [truncatedHolds max within (headClean at_ leaves.1),piecesBytes (apartTake (runsApart _) (i + 1))]
  rw [← ends,← triples_]
  exact ⟨fun h => ⟨h.opening,h.closing⟩,fun h => ⟨lines,h.1,h.2⟩⟩

theorem bodyUnbroken (excerpt : JsString) : Unbroken (fencedBody excerpt) ↔
    ∀ run ∈ runs (singleLine (cleanUntrustedText (excerpt.take 200))), ¬ LeavesTriple run := by
  have parts := @partUnbroken (singleLine (cleanUntrustedText (excerpt.take 200))) _ List.prefix_rfl
  have padded (c : UInt16) (mark : marker c) : [c,c,c] <:+: fencedBody excerpt ↔
      [c,c,c] <:+: defanged (singleLine (cleanUntrustedText (excerpt.take 200))) := by
    have solid : c ≠ 32 := by
      rintro rfl
      exact absurd mark (by decide)
    have edge (text : JsString) : ¬ [c,c,c] <:+ text ++ [32] := by
      rintro ⟨before,whole⟩
      have last := congrArg List.getLast? whole
      simp only [List.getLast?_append,List.getLast?_cons_cons,List.getLast?_singleton,Option.some_or,Option.some.injEq] at last
      exact solid last
    unfold fencedBody
    rw [List.infix_concat_iff,or_iff_right (edge _),List.singleton_append,List.infix_cons_iff,List.cons_prefix_cons,
      or_iff_right fun first => solid first.1]
  have lines : ∀ u ∈ fencedBody excerpt, lineBreak u = false := by
    intro u inside
    simp only [fencedBody,List.mem_append,List.mem_singleton] at inside
    rcases inside with (rfl | inside) | rfl
    · rfl
    · exact safeUnits inside
    · rfl
  have every : (∀ run ∈ runs (singleLine (cleanUntrustedText (excerpt.take 200))), ¬ LeavesTriple run) ↔
      ¬ ∃ i run, (runs (singleLine (cleanUntrustedText (excerpt.take 200))))[i]? = some run ∧ LeavesTriple run ∧
        ((runs (singleLine (cleanUntrustedText (excerpt.take 200)))).take (i + 1)).flatMap piece <+:
          defanged (singleLine (cleanUntrustedText (excerpt.take 200))) := by
    constructor
    · rintro none_ ⟨i,run,at_,leaves,_⟩
      exact none_ run (List.mem_of_getElem? at_) leaves
    · intro none_ run member leaves
      obtain ⟨i,at_⟩ := List.mem_iff_getElem?.mp member
      refine none_ ⟨i,run,at_,leaves,?_⟩
      rw [defangedPieces]
      exact (List.take_prefix _ _).flatMap piece
  rw [every,← parts,← padded 60 rfl,← padded 62 rfl]
  exact ⟨fun h => ⟨h.opening,h.closing⟩,fun h => ⟨lines,h.1,h.2⟩⟩

/-- Nothing can be read as a marker exactly where no run of either bracket leaves a triple: in the
excerpt that is fenced, and in as much of a candidate's line as is kept. -/
theorem fencesExactly (excerpt : JsString) (candidate : AgentCandidate) : (Unbroken (fencedBody excerpt) ↔
      ∀ run ∈ runs (singleLine (cleanUntrustedText (excerpt.take 200))), ¬ LeavesTriple run) ∧
    (Unbroken (formatCandidate candidate) ↔
      ¬ LeavesWithin candidateLineMaxBytes (singleLine (cleanUntrustedText (candidateText candidate)))) :=
  ⟨bodyUnbroken excerpt,cutUnbroken (candidateText candidate) candidateLineMaxBytes⟩

def bracketed : AgentCandidate := .generic .search (some (js "<<<<<")) none none

theorem fiveBrackets :
    (fencedBody (js "<<<<<") = js " < < <<< " ∧ ¬ Unbroken (fencedBody (js "<<<<<"))) ∧
    formatCandidate bracketed = js "- [search] < < <<<" ∧ ¬ Unbroken (formatCandidate bracketed) := by
  have body : fencedBody (js "<<<<<") = js " < < <<< " := by decide
  have line : formatCandidate bracketed = js "- [search] < < <<<" := by decide
  refine ⟨⟨body,fun h => h.opening ?_⟩,line,fun h => h.opening ?_⟩
  · rw [body]
    exact ⟨js " < < ",js " ",by decide⟩
  · rw [line]
    exact ⟨js "- [search] < < ",[],by decide⟩

end Northstar.Agent.Fences
