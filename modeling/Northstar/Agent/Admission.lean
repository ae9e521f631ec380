import Mathlib.Data.Finset.Card
import Northstar.Agent.Selection
import Northstar.Agent.State

/-! The order of admission: what a list of offers leaves in the research state, and what an
evidence id says about the offer it was given. -/
namespace Northstar.Agent.State

variable {p : Tables}

theorem ascendingPerm (ids : List JsString) : (ascending ids).Perm ids := List.mergeSort_perm ids _

theorem ascendingPermuted {ids others : List JsString} (perm : ids.Perm others) : ascending ids = ascending others :=
  sortPermuted textSort perm fun _ _ _ _ ab ba => textTie ab ba

theorem ascendingNil {ids : List JsString} : ascending ids = [] ↔ ids = [] := by
  rw [← List.length_eq_zero_iff,(ascendingPerm ids).length_eq,List.length_eq_zero_iff]

/- What a list of ids has come to after the ids offered to it: as it was, or sorted with the new ones. -/
structure Grown (held offered result : List JsString) (fresh : List JsString) : Prop where
  once : fresh.Nodup
  new : ∀ id, id ∈ fresh ↔ id ∈ offered ∧ id ∉ held
  same : fresh = [] → result = held
  sorted : fresh ≠ [] → result = ascending (held ++ fresh)

theorem grownPerm {held offered result fresh : List JsString} (h : Grown held offered result fresh) :
    result.Perm (held ++ fresh) := by
  by_cases none_ : fresh = []
  · rw [h.same none_,none_,List.append_nil]
  · rw [h.sorted none_]
    exact ascendingPerm _

theorem grownMember {held offered result fresh : List JsString} (h : Grown held offered result fresh) (id : JsString) :
    id ∈ result ↔ id ∈ held ∨ id ∈ offered := by
  rw [(grownPerm h).mem_iff,List.mem_append,h.new]
  by_cases inside : id ∈ held <;> simp [inside]

/- The ids that are offered and not held fit in the room that is left. -/
def Room (held offered : List JsString) : Prop :=
  held.length + (offered.filter fun id => !held.contains id).toFinset.card ≤ maxQuestions

theorem roomFresh {held offered fresh : List JsString} (room : Room held offered) (once : fresh.Nodup)
    (new : ∀ id ∈ fresh, id ∈ offered ∧ id ∉ held) : held.length + fresh.length ≤ maxQuestions := by
  have inside : fresh.toFinset ⊆ (offered.filter fun id => !held.contains id).toFinset := by
    intro id member
    have := new id (List.mem_toFinset.mp member)
    simp [this.1,this.2]
  have fewer := Finset.card_le_card inside
  rw [List.toFinset_card_of_nodup once] at fewer
  unfold Room at room
  omega

theorem grownStep {held offered result fresh more : List JsString} (h : Grown held offered result fresh)
    (once : more.Nodup) (room : Room held (offered ++ more)) :
    ∃ fresh', Grown held (offered ++ more) (unionIds result more) fresh' := by
  have new : ∀ id, id ∈ fresh ++ more.filter (fun id => !result.contains id) ↔ id ∈ offered ++ more ∧ id ∉ held := by
    intro id
    rw [List.mem_append,List.mem_filter,List.mem_append,h.new]
    have known := grownMember h id
    by_cases old : id ∈ held <;> by_cases before : id ∈ offered <;> simp [known,old,before]
  have both : (fresh ++ more.filter fun id => !result.contains id).Nodup := by
    refine h.once.append (once.filter _) fun id first second => ?_
    have there := (grownMember h id).mpr (.inr ((h.new id).mp first).1)
    simp [there] at second
  have fits := roomFresh room both fun id member => (new id).mp member
  refine ⟨_,both,new,?_,?_⟩
  all_goals
    generalize additions : more.filter (fun id => !result.contains id) = extra at *
    have long := (grownPerm h).length_eq
    rw [List.length_append] at long fits
    have gains : gained result more = ascending extra := by
      unfold gained
      rw [additions]
      refine List.take_of_length_le ?_
      rw [(ascendingPerm extra).length_eq]
      omega
  · intro none_
    obtain ⟨no_,nothing⟩ := List.append_eq_nil_iff.mp none_
    unfold unionIds
    rw [gains,if_pos (ascendingNil.mpr nothing)]
    exact h.same no_
  · intro some_
    unfold unionIds
    rw [gains]
    by_cases nothing : extra = []
    · rw [if_pos (ascendingNil.mpr nothing),nothing,List.append_nil]
      rw [nothing,List.append_nil] at some_
      exact h.sorted some_
    · rw [if_neg fun none_ => nothing (ascendingNil.mp none_)]
      refine ascendingPermuted ?_
      rw [← List.append_assoc]
      exact (grownPerm h).append (ascendingPerm extra)

theorem grownRun {held : List JsString} (offers : List (List JsString)) (once : ∀ ids ∈ offers, ids.Nodup)
    (room : Room held offers.flatten) : ∃ fresh, Grown held offers.flatten (offers.foldl unionIds held) fresh := by
  induction offers using List.reverseRecOn with
  | nil => exact ⟨[],List.nodup_nil,by simp,fun _ => rfl,fun h => absurd rfl h⟩
  | append_singleton before last ih =>
    have smaller : Room held before.flatten := by
      unfold Room at room ⊢
      refine le_trans (Nat.add_le_add_left (Finset.card_le_card ?_) _) room
      intro id member
      simp only [List.mem_toFinset,List.mem_filter,List.flatten_append,List.mem_append] at member ⊢
      exact ⟨.inl member.1,member.2⟩
    obtain ⟨fresh,grown⟩ := ih (fun ids member => once ids (List.mem_append_left _ member)) smaller
    rw [List.flatten_append,List.flatten_cons,List.flatten_nil,List.append_nil,List.foldl_append] at *
    exact grownStep grown (once last (by simp)) room

/- What the claims read of an entry. -/
structure StoredView where
  id : JsString
  excerpt : JsString
  identity : CheckedIdentity
  questionIds : List JsString
  deriving DecidableEq, Repr

def stored (entry : Entry) : StoredView := ⟨entry.id,entry.excerpt,entry.source.identity,entry.questionIds⟩

/- The same with the ids in one order. -/
def listed (entry : Entry) : StoredView := ⟨entry.id,entry.excerpt,entry.source.identity,ascending entry.questionIds⟩

def Entry.content (entry : Entry) : JsString × JsString × CheckedIdentity := (entry.id,entry.excerpt,entry.source.identity)

theorem mergeRun (offers : List Entry) (held : Entry) :
    offers.foldl (merged mergeEntry) (some held) = some (offers.foldl mergeEntry held) := by
  induction offers generalizing held with
  | nil => rfl
  | cons offered rest ih => exact ih (mergeEntry held offered)

theorem mergedContent (offers : List Entry) (held : Entry) : (offers.foldl mergeEntry held).content = held.content := by
  induction offers generalizing held with
  | nil => rfl
  | cons offered rest ih => exact ih (mergeEntry held offered)

theorem mergedIds (offers : List Entry) (held : Entry) :
    (offers.foldl mergeEntry held).questionIds = (offers.map (·.questionIds)).foldl unionIds held.questionIds := by
  induction offers generalizing held with
  | nil => rfl
  | cons offered rest ih => exact ih (mergeEntry held offered)

/- Merging into an entry that is there forgets the order of the offers. -/
theorem mergedSame {held : Entry} {offers others : List Entry} (perm : offers.Perm others)
    (once : ∀ entry ∈ offers, entry.questionIds.Nodup) (room : Room held.questionIds (offers.flatMap (·.questionIds))) :
    stored (offers.foldl mergeEntry held) = stored (others.foldl mergeEntry held) := by
  have grown {list : List Entry} (same : list.Perm offers) :
      ∃ fresh, Grown held.questionIds (list.flatMap (·.questionIds)) (list.foldl mergeEntry held).questionIds fresh := by
    rw [mergedIds,List.flatMap_def]
    refine grownRun _ ?_ ?_
    · intro ids member
      obtain ⟨entry,inside,rfl⟩ := List.mem_map.mp member
      exact once entry (same.mem_iff.mp inside)
    · rw [← List.flatMap_def]
      unfold Room at room ⊢
      have alike := List.toFinset_eq_of_perm _ _ ((same.flatMap_right (·.questionIds)).filter
        fun id => !held.questionIds.contains id)
      rw [alike]
      exact room
  obtain ⟨fresh,one⟩ := grown (List.Perm.refl _)
  obtain ⟨fresh',two⟩ := grown perm.symm
  have alike : fresh.Perm fresh' := (List.perm_ext_iff_of_nodup one.once two.once).mpr fun id => by
    rw [one.new,two.new,(perm.flatMap_right (·.questionIds)).mem_iff]
  have ids : (offers.foldl mergeEntry held).questionIds = (others.foldl mergeEntry held).questionIds := by
    by_cases none_ : fresh = []
    · rw [one.same none_,two.same (List.nil_perm.mp (none_ ▸ alike))]
    · rw [one.sorted none_,two.sorted fun h => none_ (List.perm_nil.mp (h ▸ alike))]
      exact ascendingPermuted (alike.append_left _)
  have one_ := mergedContent offers held
  have two_ := mergedContent others held
  unfold Entry.content at one_ two_
  simp only [Prod.mk.injEq] at one_ two_
  simp only [stored,ids,one_,two_]

/- What the offers of one id leave where there was no entry. -/
structure Gathered (offers : List Entry) (result : Entry) : Prop where
  content : ∃ entry ∈ offers, result.content = entry.content
  once : result.questionIds.Nodup
  members : ∀ id, id ∈ result.questionIds ↔ ∃ entry ∈ offers, id ∈ entry.questionIds
  sorted : (∀ entry ∈ offers, ascending entry.questionIds = entry.questionIds) → ascending result.questionIds = result.questionIds

theorem gatheredRun {first : Entry} {rest : List Entry} (once : ∀ entry ∈ first :: rest, entry.questionIds.Nodup)
    (room : Room [] ((first :: rest).flatMap (·.questionIds))) :
    Gathered (first :: rest) (rest.foldl mergeEntry first) := by
  have smaller : Room first.questionIds (rest.flatMap (·.questionIds)) := by
    have own := once first List.mem_cons_self
    unfold Room at room ⊢
    rw [List.flatMap_cons] at room
    have apart : Disjoint first.questionIds.toFinset
        ((rest.flatMap (·.questionIds)).filter fun id => !first.questionIds.contains id).toFinset := by
      rw [Finset.disjoint_left]
      intro id inside further
      simp at inside further
      exact further.2 inside
    have union : first.questionIds.toFinset ∪
        ((rest.flatMap (·.questionIds)).filter fun id => !first.questionIds.contains id).toFinset ⊆
        ((first.questionIds ++ rest.flatMap (·.questionIds)).filter fun id => !([] : List JsString).contains id).toFinset := by
      intro id member
      simp at member ⊢
      tauto
    have card := Finset.card_le_card union
    rw [Finset.card_union_of_disjoint apart,List.toFinset_card_of_nodup own] at card
    simp only [List.length_nil,Nat.zero_add] at room
    omega
  rw [List.flatMap_def] at smaller
  obtain ⟨fresh,grown⟩ := grownRun (rest.map (·.questionIds)) (by
    intro ids member
    obtain ⟨entry,inside,rfl⟩ := List.mem_map.mp member
    exact once entry (List.mem_cons_of_mem _ inside)) smaller
  rw [← mergedIds,← List.flatMap_def] at grown
  constructor
  · exact ⟨first,List.mem_cons_self,mergedContent rest first⟩
  · refine (grownPerm grown).nodup_iff.mpr ((once first List.mem_cons_self).append grown.once ?_)
    exact fun id inside new => ((grown.new id).mp new).2 inside
  · intro id
    rw [grownMember grown]
    simp
  · intro each
    by_cases none_ : fresh = []
    · rw [grown.same none_]
      exact each first List.mem_cons_self
    · rw [grown.sorted none_]
      exact ascendingPermuted (ascendingPerm _)

theorem gatheredListed {offers others : List Entry} (perm : offers.Perm others) {result other : Entry}
    (h : Gathered offers result) (h' : Gathered others other)
    (alike : ∀ a ∈ offers, ∀ b ∈ offers, a.content = b.content) :
    listed result = listed other ∧
      ((∀ entry ∈ offers, ascending entry.questionIds = entry.questionIds) → stored result = stored other) := by
  obtain ⟨a,first,content⟩ := h.content
  obtain ⟨b,second,content'⟩ := h'.content
  have same : result.content = other.content :=
    content.trans ((alike a first b (perm.mem_iff.mpr second)).trans content'.symm)
  have ids : result.questionIds.Perm other.questionIds := (List.perm_ext_iff_of_nodup h.once h'.once).mpr fun id => by
    rw [h.members,h'.members]
    simp only [perm.mem_iff]
  simp only [Entry.content,Prod.mk.injEq] at same
  constructor
  · simp only [listed,same,ascendingPermuted ids]
  · intro each
    have sorted := h.sorted each
    have sorted' := h'.sorted fun entry member => each entry (perm.mem_iff.mpr member)
    have lists : result.questionIds = other.questionIds := by rw [← sorted,← sorted',ascendingPermuted ids]
    simp only [stored,same,lists]

/- A source identity as the checks leave it. -/
def CheckedIdentity.Sound : CheckedIdentity → Prop
  | .url text => isHttpUrl text
  | .structured source => source.nodeId ≠ some []

structure Checked (p : Tables) (entry : Entry) : Prop where
  id : entry.id = evidenceId p entry.source.identity entry.locator entry.excerpt
  identity : entry.source.identity.Sound
  once : entry.questionIds.Nodup

theorem sanitizedOnce (ids : JsValue) : (sanitizeQuestionIds ids).Nodup := by
  unfold sanitizeQuestionIds
  split
  · exact (distinctOnce _).sublist (List.take_sublist _ _)
  · exact List.nodup_nil

theorem structuredSound {raw : JsValue} {identity : CheckedIdentity} (ok : checkStructured raw = .ok identity) :
    identity.Sound := by
  unfold checkStructured at ok
  dsimp only at ok
  split at ok; contradiction
  split at ok; contradiction
  split at ok; contradiction
  split at ok
  · cases ok
    exact fun h => nomatch h
  · split at ok
    · contradiction
    · rename_i fits
      cases ok
      intro empty
      rw [Option.some.inj empty] at fits
      simp [withinBytes] at fits

theorem identitySound {sourceRef : Option SourceRefInput} {identity : CheckedIdentity}
    (ok : checkSourceIdentity p sourceRef = .ok identity) : identity.Sound := by
  unfold checkSourceIdentity at ok
  split at ok
  · contradiction
  · split at ok
    · split at ok
      · contradiction
      · dsimp only at ok
        split at ok
        · contradiction
        · rename_i http
          cases ok
          change isHttpUrl _ = true
          simpa using http
    · split at ok
      · contradiction
      · exact structuredSound ok

theorem checkedEntry {input : AgentEvidenceInput} {entry : Entry} (ok : checkEvidence p input = .ok entry) :
    Checked p entry := by
  unfold checkEvidence at ok
  simp only [bind,Except.bind,pure,Except.pure,throw,throwThe,MonadExceptOf.throw] at ok
  split at ok; contradiction
  split at ok; contradiction
  split at ok; contradiction
  split at ok; contradiction
  rename_i identity found
  split at ok
  · split at ok; contradiction
    split at ok; contradiction
    split at ok; contradiction
    split at ok; contradiction
    cases ok
    exact ⟨rfl,identitySound found,sanitizedOnce _⟩
  · contradiction

/- Locators that print alike; the id does not tell one range from another. -/
def AgentLocator.agrees (l m : AgentLocator) : Prop := match l, m with
  | .range _ _, .range _ _ => True
  | .timestamp a, .timestamp b => a.script = b.script
  | l, m => l = m

theorem decimalText {i k : Nat} (same : js (toString i) = js (toString k)) : i = k := by
  have texts := congrArg readText same
  rw [readJs,readJs] at texts
  exact Nat.repr_injective (Option.some.inj texts)

theorem fieldsAgree {l m : AgentLocator} (same : locatorFields l = locatorFields m) : l.agrees m := by
  have kinds : js "page" ≠ js "line" ∧ js "page" ≠ js "timestamp" ∧ js "page" ≠ js "ref" ∧ js "line" ≠ js "timestamp" ∧
      js "line" ≠ js "ref" ∧ js "timestamp" ≠ js "ref" := by decide
  obtain ⟨pl,pt,pr,lt,lr,tr⟩ := kinds
  cases l <;> cases m <;> simp only [locatorFields,List.cons.injEq,reduceCtorEq,and_false,true_and,and_true,
    List.nil_eq,pl,pl.symm,pt,pt.symm,pr,pr.symm,lt,lt.symm,lr,lr.symm,tr,tr.symm,false_and] at same
  · trivial
  · exact congrArg AgentLocator.page (decimalText same)
  · exact congrArg AgentLocator.line (decimalText same)
  · exact same
  · exact congrArg AgentLocator.ref same
  · rw [same.1,same.2]
    rfl

theorem notHttp : isHttpUrl (js "structured-identity") = false := by decide

theorem identityAgree {i j : CheckedIdentity} (sound : i.Sound) (sound' : j.Sound) {l m : AgentLocator}
    (same : identityFields i ++ locatorFields l = identityFields j ++ locatorFields m) :
    i = j ∧ locatorFields l = locatorFields m := by
  cases i with
  | url url => cases j with
    | url other =>
      simp only [identityFields,List.cons_append,List.nil_append,List.cons.injEq] at same
      exact ⟨congrArg CheckedIdentity.url same.1,same.2⟩
    | structured source =>
      simp only [identityFields,List.cons_append,List.nil_append,List.cons.injEq] at same
      rw [CheckedIdentity.Sound,same.1,notHttp] at sound
      contradiction
  | structured source => cases j with
    | url other =>
      simp only [identityFields,List.cons_append,List.nil_append,List.cons.injEq] at same
      rw [CheckedIdentity.Sound,← same.1,notHttp] at sound'
      contradiction
    | structured other =>
      simp only [identityFields,List.cons_append,List.nil_append,List.cons.injEq,true_and] at same
      obtain ⟨provider,query,node,rest⟩ := same
      refine ⟨?_,rest⟩
      obtain ⟨a,b,c⟩ := source
      obtain ⟨a',b',c'⟩ := other
      cases provider
      cases query
      have nodes : c = c' := by
        cases c with
        | none => cases c' with
          | none => rfl
          | some n => exact absurd (congrArg some node.symm) sound'
        | some n => cases c' with
          | none => exact absurd (congrArg some node) sound
          | some n' => exact congrArg some node
      rw [nodes]

/- No field of the identity or the locator of an entry has a NUL. -/
def PlainFields (entry : Entry) : Prop :=
  ∀ field ∈ identityFields entry.source.identity ++ locatorFields entry.locator, 0 ∉ field

/- The texts hashed for the id of an entry. -/
def hashedTexts (p : Tables) (entry : Entry) : List JsString :=
  [entry.excerpt,identityPart entry.source.identity entry.locator ++ p.sha256hex entry.excerpt]

/- SHA-256 on the texts of some entries: 64 digits, and no two texts with the same ones. -/
structure Digests (p : Tables) (entries : List Entry) : Prop where
  long : ∀ text ∈ entries.flatMap (hashedTexts p), (p.sha256hex text).length = 64
  apart : ∀ a ∈ entries.flatMap (hashedTexts p), ∀ b ∈ entries.flatMap (hashedTexts p),
    p.sha256hex a = p.sha256hex b → a = b

theorem idContent {entries : List Entry} (digests : Digests p entries) {a b : Entry} (first : a ∈ entries)
    (second : b ∈ entries) (checked : Checked p a) (checked' : Checked p b) (plain : PlainFields a)
    (plain' : PlainFields b) (same : a.id = b.id) :
    a.source.identity = b.source.identity ∧ a.excerpt = b.excerpt ∧ a.locator.agrees b.locator := by
  have texts {entry : Entry} (member : entry ∈ entries) {text : JsString} (inside : text ∈ hashedTexts p entry) :
      text ∈ entries.flatMap (hashedTexts p) := List.mem_flatMap.mpr ⟨entry,member,inside⟩
  have excerptA := @texts _ first a.excerpt (by simp [hashedTexts])
  have excerptB := @texts _ second b.excerpt (by simp [hashedTexts])
  rw [checked.id,checked'.id] at same
  have whole := digests.apart _ (texts first (by simp [hashedTexts])) _ (texts second (by simp [hashedTexts]))
    (List.append_cancel_left same)
  obtain ⟨parts,hashes⟩ := List.append_inj' whole ((digests.long _ excerptA).trans (digests.long _ excerptB).symm)
  have excerpts := digests.apart _ excerptA _ excerptB hashes
  have filled (entry : Entry) : identityFields entry.source.identity ++ locatorFields entry.locator ≠ [] := by
    cases entry.source.identity <;> exact List.cons_ne_nil _ _
  have fields : identityFields a.source.identity ++ locatorFields a.locator =
      identityFields b.source.identity ++ locatorFields b.locator := by
    rw [← List.splitOn_intercalate 0 plain (filled a),← List.splitOn_intercalate 0 plain' (filled b)]
    exact congrArg (List.splitOn 0) parts
  obtain ⟨identity,locators⟩ := identityAgree checked.identity checked'.identity fields
  exact ⟨identity,excerpts,fieldsAgree locators⟩

/- The entries that the offers which pass the content checks make. -/
def accepted (p : Tables) (offers : List AgentEvidenceInput) : List Entry :=
  offers.filterMap fun input => (checkEvidence p input).toOption

def offerAll (p : Tables) (s : AgentState) (offers : List AgentEvidenceInput) : AgentState :=
  offers.foldl (fun s input => (addEvidence p s input).1) s

/- The entries there are and those that are offered stay within the cap together. -/
def WithinCap (p : Tables) (s : AgentState) (offers : List AgentEvidenceInput) : Prop :=
  (s.admittedEvidence.map (·.id) ++ (accepted p offers).map (·.id)).toFinset.card ≤ maxEvidence

instance (s : AgentState) (offers : List AgentEvidenceInput) : Decidable (WithinCap p s offers) :=
  inferInstanceAs (Decidable (_ ≤ _))

instance (entry : Entry) : Decidable (PlainFields entry) := inferInstanceAs (Decidable (∀ _ ∈ _, _))

theorem acceptedMember {offers : List AgentEvidenceInput} {entry : Entry} (member : entry ∈ accepted p offers) :
    ∃ input ∈ offers, checkEvidence p input = .ok entry := by
  obtain ⟨input,inside,some_⟩ := List.mem_filterMap.mp member
  refine ⟨input,inside,?_⟩
  cases ok : checkEvidence p input with
  | error reason => rw [ok] at some_; contradiction
  | ok made => rw [ok] at some_; cases some_; rfl

theorem acceptedChecked {offers : List AgentEvidenceInput} {entry : Entry} (member : entry ∈ accepted p offers) :
    Checked p entry := by
  obtain ⟨input,_,ok⟩ := acceptedMember member
  exact checkedEntry ok

/- Below the cap an offer that passes is gathered, and one that does not changes nothing. -/
theorem offered {s : AgentState} {input : AgentEvidenceInput} {rest : List AgentEvidenceInput}
    (within : WithinCap p s (input :: rest)) : (addEvidence p s input).1.admittedEvidence =
      (accepted p [input]).foldl (fun entries entry => admitEntry entries entry) s.admittedEvidence := by
  unfold addEvidence
  cases ok : checkEvidence p input with
  | error reason => simp [accepted,ok,Except.toOption]
  | ok entry =>
    have only : accepted p [input] = [entry] := by simp [accepted,ok,Except.toOption]
    rw [only]
    dsimp only
    split
    · rfl
    · rename_i new
      split
      · rename_i full
        have fresh : entry.id ∉ s.admittedEvidence.map (·.id) := by
          intro there
          obtain ⟨other,inside,same⟩ := List.mem_map.mp there
          exact absurd same (by simpa using List.find?_eq_none.mp new other inside)
        have ids : (entry.id :: s.admittedEvidence.map (·.id)).toFinset ⊆
            (s.admittedEvidence.map (·.id) ++ (accepted p (input :: rest)).map (·.id)).toFinset := by
          intro id member
          have first : entry ∈ accepted p (input :: rest) :=
            List.mem_filterMap.mpr ⟨input,List.mem_cons_self,by rw [ok]; rfl⟩
          rcases List.mem_cons.mp (List.mem_toFinset.mp member) with rfl | old
          · exact List.mem_toFinset.mpr (List.mem_append_right _ (List.mem_map_of_mem first))
          · exact List.mem_toFinset.mpr (List.mem_append_left _ old)
        have card := Finset.card_le_card ids
        rw [List.toFinset_card_of_nodup (List.nodup_cons.mpr ⟨fresh,s.distinct⟩),List.length_cons,List.length_map] at card
        unfold WithinCap at within
        omega
      · rfl

theorem withinRest {s : AgentState} {input : AgentEvidenceInput} {rest : List AgentEvidenceInput}
    (within : WithinCap p s (input :: rest)) : WithinCap p (addEvidence p s input).1 rest := by
  have step := offered within
  have split_ : accepted p (input :: rest) = accepted p [input] ++ accepted p rest :=
    List.filterMap_append (l := [input])
  unfold WithinCap at within ⊢
  refine le_trans (Finset.card_le_card ?_) within
  rw [step,split_]
  intro id member
  rcases List.mem_append.mp (List.mem_toFinset.mp member) with before | later
  · refine List.mem_toFinset.mpr ?_
    cases one : accepted p [input] with
    | nil => rw [one] at before; exact List.mem_append_left _ before
    | cons entry more =>
      have single : more = [] := by
        have := List.length_filterMap_le (fun input => (checkEvidence p input).toOption) [input]
        change (accepted p [input]).length ≤ 1 at this
        rw [one,List.length_cons] at this
        exact List.length_eq_zero_iff.mp (by omega)
      rw [one,single,List.foldl_cons,List.foldl_nil,admitEntry,gatherKeys mergedId] at before
      split at before
      · exact List.mem_append_left _ before
      · rcases List.mem_append.mp before with old | new
        · exact List.mem_append_left _ old
        · rw [List.mem_singleton.mp new]
          simp
  · refine List.mem_toFinset.mpr (List.mem_append_right _ ?_)
    rw [List.map_append]
    exact List.mem_append_right _ later

theorem offeredRun {s : AgentState} (offers : List AgentEvidenceInput) (within : WithinCap p s offers) :
    (offerAll p s offers).admittedEvidence =
      (accepted p offers).foldl (fun entries entry => gather Entry.id mergeEntry entry entries) s.admittedEvidence := by
  induction offers generalizing s with
  | nil => rfl
  | cons input rest ih =>
    have split_ : accepted p (input :: rest) = accepted p [input] ++ accepted p rest :=
      List.filterMap_append (l := [input])
    have later := ih (withinRest within)
    rw [offered within] at later
    rw [split_,List.foldl_append]
    exact later

def ofId (id : JsString) (entries : List Entry) : List Entry := entries.filter fun entry => entry.id = id

/- The question ids an entry holds, and those offered to it, fit in the list it keeps. -/
def WithinQuestions (p : Tables) (s : AgentState) (offers : List AgentEvidenceInput) : Prop :=
  ∀ id, Room (((under Entry.id id s.admittedEvidence).map (·.questionIds)).getD [])
    ((ofId id (accepted p offers)).flatMap (·.questionIds))

/- The two orders, seen at one id. -/
theorem agreeAt {s : AgentState} {offers others : List AgentEvidenceInput} (perm : offers.Perm others)
    (questions : WithinQuestions p s offers) (digests : Digests p (accepted p offers))
    (plain : ∀ entry ∈ accepted p offers, PlainFields entry) (id : JsString) :
    ((ofId id (accepted p offers)).foldl (merged mergeEntry) (under Entry.id id s.admittedEvidence)).map listed =
      ((ofId id (accepted p others)).foldl (merged mergeEntry) (under Entry.id id s.admittedEvidence)).map listed ∧
    ((∀ entry ∈ accepted p offers, ascending entry.questionIds = entry.questionIds) →
      ((ofId id (accepted p offers)).foldl (merged mergeEntry) (under Entry.id id s.admittedEvidence)).map stored =
        ((ofId id (accepted p others)).foldl (merged mergeEntry) (under Entry.id id s.admittedEvidence)).map stored) := by
  have entries : (ofId id (accepted p offers)).Perm (ofId id (accepted p others)) := (perm.filterMap _).filter _
  have room := questions id
  have own : ∀ entry ∈ ofId id (accepted p offers), entry ∈ accepted p offers ∧ entry.id = id := by
    intro entry member
    simpa using List.mem_filter.mp member
  have once : ∀ entry ∈ ofId id (accepted p offers), entry.questionIds.Nodup := fun entry member =>
    (acceptedChecked (own entry member).1).once
  have alike : ∀ a ∈ ofId id (accepted p offers), ∀ b ∈ ofId id (accepted p offers), a.content = b.content := by
    intro a first b second
    obtain ⟨inside,same⟩ := own a first
    obtain ⟨inside',same'⟩ := own b second
    have content := idContent digests inside inside' (acceptedChecked inside) (acceptedChecked inside')
      (plain a inside) (plain b inside') (same.trans same'.symm)
    simp only [Entry.content,content.1,content.2.1,same,same']
  have inOrder (each : ∀ entry ∈ accepted p offers, ascending entry.questionIds = entry.questionIds) :
      ∀ entry ∈ ofId id (accepted p offers), ascending entry.questionIds = entry.questionIds :=
    fun entry member => each entry (own entry member).1
  generalize ofId id (accepted p offers) = mine at entries room once alike inOrder ⊢
  generalize ofId id (accepted p others) = theirs at entries ⊢
  cases there : under Entry.id id s.admittedEvidence with
  | some held =>
    rw [there] at room
    have same := mergedSame entries once room
    rw [mergeRun,mergeRun,Option.map_some,Option.map_some,Option.map_some,Option.map_some,same]
    have shown := congrArg (fun view : StoredView => { view with questionIds := ascending view.questionIds }) same
    exact ⟨congrArg some shown,fun _ => rfl⟩
  | none =>
    rw [there] at room
    cases mine with
    | nil =>
      rw [List.nil_perm.mp entries]
      exact ⟨rfl,fun _ => rfl⟩
    | cons first rest => cases theirs with
      | nil => exact absurd (List.perm_nil.mp entries) (List.cons_ne_nil _ _)
      | cons first' rest' =>
        have one := gatheredRun once room
        have two : Gathered (first' :: rest') (rest'.foldl mergeEntry first') := by
          refine gatheredRun (fun entry member => once entry (entries.mem_iff.mpr member)) ?_
          unfold Room at room ⊢
          rw [List.toFinset_eq_of_perm _ _ ((entries.symm.flatMap_right (·.questionIds)).filter _)]
          exact room
        have result := gatheredListed entries one two alike
        have start (a : Entry) : merged mergeEntry none a = some a := rfl
        rw [List.foldl_cons,List.foldl_cons,start,start,mergeRun,mergeRun]
        exact ⟨congrArg some result.1,fun each => congrArg some (result.2 (inOrder each))⟩

/-- Below the caps the order of the offers is not stored, and an id is given to one content only. -/
theorem orderOfAdmission (p : Tables) (s : AgentState) {offers others : List AgentEvidenceInput} (perm : offers.Perm others)
    (cap : WithinCap p s offers) (questions : WithinQuestions p s offers) (digests : Digests p (accepted p offers))
    (plain : ∀ entry ∈ accepted p offers, PlainFields entry) :
    ((offerAll p s offers).admittedEvidence.map listed).Perm ((offerAll p s others).admittedEvidence.map listed) ∧
    ((∀ entry ∈ accepted p offers, ascending entry.questionIds = entry.questionIds) →
      ((offerAll p s offers).admittedEvidence.map stored).Perm ((offerAll p s others).admittedEvidence.map stored)) ∧
    ∀ a ∈ accepted p offers, ∀ b ∈ accepted p offers, a.id = b.id →
      a.source.identity = b.source.identity ∧ a.excerpt = b.excerpt ∧ a.locator.agrees b.locator := by
  have entries : (accepted p offers).Perm (accepted p others) := perm.filterMap _
  have cap' : WithinCap p s others := by
    unfold WithinCap at cap ⊢
    rw [List.toFinset_eq_of_perm _ _ ((entries.symm.map (·.id)).append_left _)]
    exact cap
  have one := offeredRun offers cap
  have two := offeredRun others cap'
  have at_ := agreeAt perm questions digests plain
  have once := (offerAll p s offers).distinct
  have once' := (offerAll p s others).distinct
  have seen (offers : List AgentEvidenceInput) (values : List Entry) (id : JsString) := @underRun Entry JsString _
    Entry.id mergeEntry mergedId (accepted p offers) values id
  refine ⟨?_,fun each => ?_,?_⟩
  · refine @agreeingViews Entry JsString _ Entry.id StoredView listed StoredView.id (fun _ => rfl) _ _ once once' fun id => ?_
    rw [one,two,seen,seen]
    exact (at_ id).1
  · refine @agreeingViews Entry JsString _ Entry.id StoredView stored StoredView.id (fun _ => rfl) _ _ once once' fun id => ?_
    rw [one,two,seen,seen]
    exact (at_ id).2 each
  · intro a first b second same
    exact idContent digests first second (acceptedChecked first) (acceptedChecked second) (plain a first)
      (plain b second) same

/- The platform as it is on an excerpt "x" of https://a.org/p. -/
def sampledDigest (text : JsString) : JsString :=
  if text = js "x" then js "2d711642b726b04401627ca9fbac32f5c8530fb1903cc4db02258717921a4881"
  else js "35752cf8f7a3b1e3cfed588cc1ee6c646a76b9c62abc5290857b400eadcd4ded"

def sampledTables : Tables := ⟨⟨sampledDigest,id,some⟩,id,fun point => point.all letterUnit⟩

def sampledOffer (first : Int) (ids : List Nat) : AgentEvidenceInput where
  sourceRef := some ⟨.string (js "https://a.org/p"),.undefined,none,.unknown,.string (js "fetch")⟩
  documentHash := js "d"
  locator := .object [(js "start",.number (.int first)),(js "end",.number (.int (first + 1)))]
  contentLength := none
  excerpt := js "x"
  questionIds := .array (ids.map fun n => .string (js "q-" ++ js (toString n)))
  round := 0
  status := js "admitted"

theorem twoOffers :
    ((offerAll sampledTables (createAgentState []) [sampledOffer 0 [2],sampledOffer 5 [1]]).admittedEvidence.map listed).Perm
      ((offerAll sampledTables (createAgentState []) [sampledOffer 5 [1],sampledOffer 0 [2]]).admittedEvidence.map listed) := by
  refine (orderOfAdmission sampledTables (createAgentState []) (List.Perm.swap _ _ _) (by decide) ?_ ?_
    (by decide)).1
  · intro id
    have few : ((accepted sampledTables [sampledOffer 0 [2],sampledOffer 5 [1]]).flatMap (·.questionIds)).toFinset.card ≤
        maxQuestions := by decide
    refine le_trans (le_of_eq (Nat.zero_add _)) (le_trans (Finset.card_le_card ?_) few)
    intro question member
    obtain ⟨entry,inside,has⟩ := List.mem_flatMap.mp (List.mem_filter.mp (List.mem_toFinset.mp member)).1
    exact List.mem_toFinset.mpr (List.mem_flatMap.mpr ⟨entry,List.mem_of_mem_filter inside,has⟩)
  · exact ⟨by decide,by decide⟩

def sampledEntry (first : Nat) (ids : List JsString) : Entry where
  id := evidenceId sampledTables (.url (js "https://a.org/p")) (.range first (first + 1)) (js "x")
  source := ⟨.url (js "https://a.org/p"),none,.unknown,.fetch⟩
  documentHash := js "d"
  locator := .range first (first + 1)
  excerpt := js "x"
  excerptHash := sampledDigest (js "x")
  questionIds := ids
  round := 0
  corroboratingFingerprint := corroboratingFingerprint sampledTables (js "x")

theorem sampledChecks (ids : List Nat) : checkEvidence sampledTables (sampledOffer 0 ids) =
    .ok (sampledEntry 0 (sanitizeQuestionIds (sampledOffer 0 ids).questionIds)) := by
  rfl

theorem heldFirst {held offered : List JsString} {id : JsString} (member : id ∈ held) : id ∈ unionIds held offered := by
  unfold unionIds
  split
  · exact member
  · exact (ascendingPerm _).mem_iff.mpr (List.mem_append_left _ member)

theorem fullHeld {held offered : List JsString} (full : maxQuestions ≤ held.length) : unionIds held offered = held := by
  unfold unionIds gained
  rw [Nat.sub_eq_zero_of_le full,List.take_zero,if_pos rfl]

/- Two offers of one content: the second is merged into the first. -/
theorem sampledRun (ids more : List Nat) :
    ((offerAll sampledTables (createAgentState []) [sampledOffer 0 ids,sampledOffer 0 more]).admittedEvidence.map listed) =
      [listed (mergeEntry (sampledEntry 0 (sanitizeQuestionIds (sampledOffer 0 ids).questionIds))
        (sampledEntry 0 (sanitizeQuestionIds (sampledOffer 0 more).questionIds)))] := by
  have both : accepted sampledTables [sampledOffer 0 ids,sampledOffer 0 more] =
      [sampledEntry 0 (sanitizeQuestionIds (sampledOffer 0 ids).questionIds),
        sampledEntry 0 (sanitizeQuestionIds (sampledOffer 0 more).questionIds)] := by
    simp only [accepted,List.filterMap_cons,List.filterMap_nil,sampledChecks,Except.toOption]
  have cap : WithinCap sampledTables (createAgentState []) [sampledOffer 0 ids,sampledOffer 0 more] := by
    unfold WithinCap
    rw [both]
    refine le_trans (List.toFinset_card_le _) ?_
    exact (by decide : 2 ≤ maxEvidence)
  rw [offeredRun _ cap,both]
  rfl

/- An id does not tell ranges apart, and past 64 question ids the later offer loses. -/
theorem rangesAndOverflow :
    ((checkEvidence sampledTables (sampledOffer 0 [])).toOption.map (·.id) =
        (checkEvidence sampledTables (sampledOffer 5 [])).toOption.map (·.id) ∧
      (checkEvidence sampledTables (sampledOffer 0 [])).toOption.map (·.locator) ≠
        (checkEvidence sampledTables (sampledOffer 5 [])).toOption.map (·.locator)) ∧
    ¬((offerAll sampledTables (createAgentState []) [sampledOffer 0 (List.range 64),sampledOffer 0 [64]]).admittedEvidence.map
        listed).Perm
      ((offerAll sampledTables (createAgentState []) [sampledOffer 0 [64],sampledOffer 0 (List.range 64)]).admittedEvidence.map
        listed) := by
  have many : (sanitizeQuestionIds (sampledOffer 0 (List.range 64)).questionIds).length = 64 := by decide
  have without : js "q-64" ∉ sanitizeQuestionIds (sampledOffer 0 (List.range 64)).questionIds := by decide
  have own : js "q-64" ∈ sanitizeQuestionIds (sampledOffer 0 [64]).questionIds := by decide
  refine ⟨by decide,fun perm => ?_⟩
  rw [sampledRun,sampledRun,List.singleton_perm] at perm
  have lost : js "q-64" ∉ ascending (unionIds (sanitizeQuestionIds (sampledOffer 0 (List.range 64)).questionIds)
      (sanitizeQuestionIds (sampledOffer 0 [64]).questionIds)) := by
    rw [(ascendingPerm _).mem_iff,fullHeld (le_of_eq many.symm)]
    exact without
  have kept : js "q-64" ∈ ascending (unionIds (sanitizeQuestionIds (sampledOffer 0 [64]).questionIds)
      (sanitizeQuestionIds (sampledOffer 0 (List.range 64)).questionIds)) :=
    (ascendingPerm _).mem_iff.mpr (heldFirst own)
  have same := congrArg StoredView.questionIds (List.cons.inj perm).1
  exact lost (same.symm.subst kept)

end Northstar.Agent.State
