import Northstar.Agent.Admission
import Northstar.Agent.Evaluation

/-! Grounded questions over a run of the research loop. A question is followed by its id; the
evidence that grounds it is never taken back, so an answer of a grounded question grounds it again. -/
namespace Northstar.Agent.Evaluation
open State Intents

def AgentState.question (s : AgentState) (id : JsString) : Option AgentQuestion := s.questions.find? fun q => q.id = id

theorem foundOnFirst {f : AgentQuestion → AgentQuestion} (keeps : ∀ q, (f q).id = q.id) (id k : JsString)
    (questions : List AgentQuestion) : ((onFirst id f questions).find? fun q => q.id = k) =
      if id = k then (questions.find? fun q => q.id = k).map f else questions.find? fun q => q.id = k := by
  induction questions with
  | nil => simp [onFirst]
  | cons first rest ih =>
    unfold onFirst
    by_cases here : first.id = id
    · rw [if_pos here,List.find?_cons,List.find?_cons,keeps,here]
      by_cases same : id = k
      · simp [same]
      · simp [same]
    · rw [if_neg here,List.find?_cons,List.find?_cons,ih]
      by_cases same : id = k
      · have other : first.id ≠ k := fun h => here (h.trans same.symm)
        simp [same,other]
      · simp [same]

theorem onFirstIds {f : AgentQuestion → AgentQuestion} (keeps : ∀ q, (f q).id = q.id) (id : JsString)
    (questions : List AgentQuestion) : (onFirst id f questions).map (·.id) = questions.map (·.id) := by
  induction questions with
  | nil => rfl
  | cons first rest ih =>
    unfold onFirst
    split
    · rw [List.map_cons,List.map_cons,keeps]
    · rw [List.map_cons,List.map_cons,ih]

theorem onFirstEvery {P : AgentQuestion → Prop} {f : AgentQuestion → AgentQuestion} {id : JsString}
    {questions : List AgentQuestion} (held : ∀ q ∈ questions, P q) (made : ∀ q ∈ questions, q.id = id → P (f q)) :
    ∀ q ∈ onFirst id f questions, P q := by
  induction questions with
  | nil => exact fun q member => (List.not_mem_nil member).elim
  | cons first rest ih =>
    have later := ih (fun q member => held q (List.mem_cons_of_mem _ member))
      fun q member => made q (List.mem_cons_of_mem _ member)
    intro q member
    unfold onFirst at member
    split at member
    · rename_i here
      rcases List.mem_cons.mp member with rfl | inside
      · exact made first List.mem_cons_self here
      · exact held q (List.mem_cons_of_mem _ inside)
    · rcases List.mem_cons.mp member with rfl | inside
      · exact held q List.mem_cons_self
      · exact later q inside

def ground (ids : List JsString) (q : AgentQuestion) : AgentQuestion :=
  { q with status := .grounded, groundedBy := some ids }

theorem groundId (ids : List JsString) (q : AgentQuestion) : (ground ids q).id = q.id := rfl

def leave (status : QuestionStatus) (q : AgentQuestion) : AgentQuestion := { q with status := status }

theorem leaveId (status : QuestionStatus) (q : AgentQuestion) : (leave status q).id = q.id := rfl

theorem applied (s : AgentState) (update : AgentQuestionUpdate) : (applyUpdate s update).questions =
    onFirst update.questionId (leave update.status.toQuestion) s.questions := rfl

/- With distinct ids a question is found under its id. -/
theorem foundMember {questions : List AgentQuestion} (once : (questions.map (·.id)).Nodup) {q : AgentQuestion}
    (member : q ∈ questions) : (questions.find? fun other => other.id = q.id) = some q := by
  induction questions with
  | nil => exact (List.not_mem_nil member).elim
  | cons first rest ih =>
    rw [List.map_cons,List.nodup_cons] at once
    rcases List.mem_cons.mp member with rfl | inside
    · simp
    · have other : first.id ≠ q.id := fun same => once.1 (same ▸ List.mem_map_of_mem inside)
      rw [List.find?_cons,decide_eq_false other]
      exact ih once.2 inside

def AgentLocator.filled : AgentLocator → Prop
  | .range first last => first < last
  | _ => True

/- What every state of a run is like. -/
structure Sane (s : AgentState) : Prop where
  once : (s.questions.map (·.id)).Nodup
  filled : ∀ entry ∈ s.admittedEvidence, AgentLocator.filled entry.locator
  needed : ∀ q ∈ s.questions, q.status = .grounded → q.required

variable {w : Web} {s : AgentState}

theorem groundedFound (once : (s.questions.map (·.id)).Nodup) (id : JsString) :
    Grounded s id ↔ ∃ q, AgentState.question s id = some q ∧ q.status = .grounded := by
  constructor
  · rintro ⟨q,member,rfl,grounded⟩
    exact ⟨q,foundMember once member,grounded⟩
  · rintro ⟨q,found,grounded⟩
    exact ⟨q,List.mem_of_find?_eq_some found,by simpa using List.find?_some found,grounded⟩

/- Evidence. Only the first branch of the locator check makes a range. -/
theorem readFilled {α : Type} {read : α → AgentLocator} (apart : ∀ a, AgentLocator.filled (read a)) {exact_ : Bool}
    {value : Option α} {found : AgentLocator} {reason : String}
    (ok : (match if exact_ then value.map read else none with
      | some locator => Except.ok locator
      | none => Except.error reason) = Except.ok found) : AgentLocator.filled found := by
  cases exact_ with
  | false => exact nomatch ok
  | true => cases value with
    | none => exact nomatch ok
    | some a =>
      cases ok
      exact apart a

theorem rangeFilled {locator : JsValue} {excerpt : JsString} {contentLength : Option Nat} {found : AgentLocator}
    (ok : checkRange locator excerpt contentLength = .ok found) : AgentLocator.filled found := by
  unfold checkRange at ok
  split at ok
  · split at ok
    · contradiction
    · rename_i fits
      split at ok
      · contradiction
      · cases ok
        simp only [Bool.or_eq_true,decide_eq_true_eq,not_or,not_le] at fits
        exact fits.1
  · contradiction

theorem locatorFilled {locator : JsValue} {excerpt : JsString} {contentLength : Option Nat} {found : AgentLocator}
    (ok : checkLocator locator excerpt contentLength = .ok found) : AgentLocator.filled found := by
  unfold checkLocator at ok
  split at ok
  · dsimp only at ok
    split at ok
    · split at ok
      · exact rangeFilled ok
      · contradiction
    · split at ok
      · exact readFilled (by exact fun _ => trivial) ok
      · split at ok
        · exact readFilled (by exact fun _ => trivial) ok
        · split at ok
          · exact readFilled (by exact fun _ => trivial) ok
          · split at ok
            · exact readFilled (by exact fun _ => trivial) ok
            · split at ok
              · split at ok
                · rename_i made
                  cases ok
                  split at made
                  · obtain ⟨nodeId,_,later⟩ := Option.bind_eq_some_iff.mp made
                    obtain ⟨field,_,is⟩ := Option.bind_eq_some_iff.mp later
                    exact Option.some.inj is ▸ trivial
                  · contradiction
                · contradiction
              · contradiction
  · contradiction

theorem checkedFilled {input : AgentEvidenceInput} {entry : Entry} {p : Tables} (ok : checkEvidence p input = .ok entry) :
    AgentLocator.filled entry.locator := by
  unfold checkEvidence at ok
  simp only [bind,Except.bind,pure,Except.pure,throw,throwThe,MonadExceptOf.throw] at ok
  split at ok; contradiction
  split at ok; contradiction
  split at ok; contradiction
  split at ok; contradiction
  split at ok
  · split at ok; contradiction
    rename_i located
    split at ok; contradiction
    split at ok; contradiction
    split at ok; contradiction
    cases ok
    exact locatorFilled located
  · contradiction

theorem evidenceKept (p : Tables) (s : AgentState) (input : AgentEvidenceInput) :
    (addEvidence p s input).1.questions = s.questions := by
  unfold addEvidence
  split
  · rfl
  · split
    · rfl
    · split <;> rfl

theorem admittedFilled {p : Tables} (held : ∀ entry ∈ s.admittedEvidence, AgentLocator.filled entry.locator)
    (input : AgentEvidenceInput) :
    ∀ entry ∈ (addEvidence p s input).1.admittedEvidence, AgentLocator.filled entry.locator := by
  unfold addEvidence
  split
  · exact held
  · rename_i entry ok
    have grown : ∀ other ∈ State.admitEntry s.admittedEvidence entry, AgentLocator.filled other.locator :=
      gatherEvery (checkedFilled ok) (fun _ old _ => old) held
    split
    · exact grown
    · split
      · exact held
      · exact grown

theorem goodMember (sane : Sane s) {entry : Entry} (member : entry ∈ s.admittedEvidence) : goodEvidence s entry.id := by
  unfold goodEvidence
  cases found : s.admittedEvidence.find? fun other => other.id = entry.id with
  | none => exact absurd (decide_eq_true rfl) (List.find?_eq_none.mp found entry member)
  | some other =>
    have filled := sane.filled other (List.mem_of_find?_eq_some found)
    rw [Option.any_some]
    cases shape : other.locator with
    | range first last =>
      rw [shape] at filled
      exact decide_eq_true filled
    | _ => rfl

/- Promotion. -/
def Eligible (s : AgentState) (q : AgentQuestion) : Prop :=
  q.required ∧ q.status = .answered ∧ ∃ entry ∈ s.admittedEvidence, entry.questionIds.contains q.id

theorem promotes (sane : Sane s) {q : AgentQuestion} {index : Nat} (at_ : s.questions[index]? = some q)
    (eligible : Eligible s q) : ∃ ids, promoteAnswered s index =
      { s with questions := onFirst q.id (ground ids) s.questions } := by
  obtain ⟨required,answered,entry,inside,links⟩ := eligible
  refine ⟨(s.admittedEvidence.filter fun entry => entry.questionIds.contains q.id).map (·.id),?_⟩
  have member := List.mem_of_getElem? at_
  have some_ : entry ∈ s.admittedEvidence.filter fun entry => entry.questionIds.contains q.id :=
    List.mem_filter.mpr ⟨inside,links⟩
  have filled : (s.admittedEvidence.filter fun entry => entry.questionIds.contains q.id) ≠ [] := List.ne_nil_of_mem some_
  have known : (s.questions.any fun other => other.id = q.id) = true :=
    List.any_eq_true.mpr ⟨q,member,decide_eq_true rfl⟩
  have good : ((s.admittedEvidence.filter fun entry => entry.questionIds.contains q.id).map (·.id)).all (goodEvidence s) = true := by
    refine List.all_eq_true.mpr fun id listed => ?_
    obtain ⟨other,among,same⟩ := List.mem_map.mp listed
    exact same ▸ goodMember sane (List.mem_of_mem_filter among)
  unfold promoteAnswered
  rw [at_]
  dsimp only
  rw [if_pos (by rw [required,answered]; simpa using filled)]
  unfold promoteToGrounded
  rw [if_neg (by simp [known]),if_neg (by simpa using filled),if_neg (by simp only [good]; decide)]
  rfl

theorem staysPut {index : Nat} (none_ : ∀ q, s.questions[index]? = some q → ¬Eligible s q) :
    promoteAnswered s index = s := by
  unfold promoteAnswered
  split
  · rfl
  · rename_i q at_
    dsimp only
    split
    · rename_i guards
      simp only [Bool.and_eq_true,decide_eq_true_eq] at guards
      obtain ⟨⟨required,answered⟩,filled⟩ := guards
      obtain ⟨entry,among⟩ := List.exists_mem_of_ne_nil _ filled
      exact absurd ⟨required,answered,entry,List.mem_of_mem_filter among,(List.mem_filter.mp among).2⟩ (none_ q at_)
    · rfl

theorem promotion (sane : Sane s) (index : Nat) : promoteAnswered s index = s ∨
    ∃ q ids, q ∈ s.questions ∧ Eligible s q ∧ promoteAnswered s index =
      { s with questions := onFirst q.id (ground ids) s.questions } := by
  by_cases some_ : ∃ q, s.questions[index]? = some q ∧ Eligible s q
  · obtain ⟨q,at_,eligible⟩ := some_
    obtain ⟨ids,is⟩ := promotes sane at_ eligible
    exact .inr ⟨q,ids,List.mem_of_getElem? at_,eligible,is⟩
  · exact .inl (staysPut fun q at_ eligible => some_ ⟨q,at_,eligible⟩)

theorem promotionEvidence (sane : Sane s) (index : Nat) :
    (promoteAnswered s index).admittedEvidence = s.admittedEvidence := by
  rcases promotion sane index with same | ⟨q,ids,_,_,is⟩
  · rw [same]
  · rw [is]

theorem promotionIds (sane : Sane s) (index : Nat) :
    (promoteAnswered s index).questions.map (·.id) = s.questions.map (·.id) := by
  rcases promotion sane index with same | ⟨q,ids,_,_,is⟩
  · rw [same]
  · rw [is]
    exact onFirstIds (groundId ids) q.id s.questions

theorem promotionSane (sane : Sane s) (index : Nat) : Sane (promoteAnswered s index) := by
  refine ⟨promotionIds sane index ▸ sane.once,promotionEvidence sane index ▸ sane.filled,?_⟩
  rcases promotion sane index with same | ⟨q,ids,member,eligible,is⟩
  · rw [same]
    exact sane.needed
  · rw [is]
    refine onFirstEvery sane.needed fun other inside same _ => ?_
    have one := foundMember sane.once inside
    rw [same,foundMember sane.once member] at one
    exact Option.some.inj one ▸ eligible.1

/- What a promotion makes of a question: itself, or itself grounded. -/
theorem promotionAt (sane : Sane s) (index : Nat) {id : JsString} {q : AgentQuestion}
    (found : AgentState.question s id = some q) : AgentState.question (promoteAnswered s index) id = some q ∨
      Eligible s q ∧ ∃ ids, AgentState.question (promoteAnswered s index) id =
        some (ground ids q) := by
  rcases promotion sane index with same | ⟨other,ids,member,eligible,is⟩
  · rw [same]
    exact .inl found
  · rw [is]
    unfold AgentState.question at found ⊢
    dsimp only
    rw [foundOnFirst (groundId ids)]
    by_cases same : other.id = id
    · have one := foundMember sane.once member
      rw [same,found] at one
      rw [if_pos same,found]
      exact .inr ⟨Option.some.inj one ▸ eligible,ids,rfl⟩
    · rw [if_neg same]
      exact .inl found

theorem promotionsKeep (sane : Sane s) (indices : List Nat) {id : JsString} {q : AgentQuestion}
    (found : AgentState.question s id = some q) (done : ¬Eligible s q) :
    AgentState.question (indices.foldl promoteAnswered s) id = some q := by
  induction indices generalizing s with
  | nil => exact found
  | cons index rest ih =>
    rcases promotionAt sane index found with same | ⟨eligible,_⟩
    · refine ih (promotionSane sane index) same ?_
      unfold Eligible
      rw [promotionEvidence sane index]
      exact done
    · exact absurd eligible done

theorem promotionsReach (sane : Sane s) {indices : List Nat} {index : Nat} (member : index ∈ indices) {id : JsString}
    (at_ : (s.questions.map (·.id))[index]? = some id) {q : AgentQuestion} (found : AgentState.question s id = some q)
    (eligible : Eligible s q) :
    ∃ q', AgentState.question (indices.foldl promoteAnswered s) id = some q' ∧ q'.status = .grounded := by
  induction indices generalizing s with
  | nil => exact (List.not_mem_nil member).elim
  | cons first rest ih =>
    have grounded {ids : List JsString} (made : AgentState.question (promoteAnswered s first) id =
        some (ground ids q)) :
        ∃ q', AgentState.question (rest.foldl promoteAnswered (promoteAnswered s first)) id = some q' ∧
          q'.status = .grounded :=
      ⟨_,promotionsKeep (promotionSane sane first) rest made fun again => QuestionStatus.noConfusion again.2.1,rfl⟩
    rcases promotionAt sane first found with same | ⟨_,_,made⟩
    · have still : Eligible (promoteAnswered s first) q := by
        unfold Eligible
        rw [promotionEvidence sane first]
        exact eligible
      rcases List.mem_cons.mp member with rfl | later
      · -- its own turn: the question at the index is the one of the id
        obtain ⟨own,there,named_⟩ := List.getElem?_map .. ▸ at_ |> Option.map_eq_some_iff.mp
        have one := foundMember sane.once (List.mem_of_getElem? there)
        rw [named_,show (s.questions.find? fun other => other.id = id) = some q from found] at one
        cases Option.some.inj one
        obtain ⟨ids,is⟩ := promotes sane there eligible
        refine @grounded ids ?_
        rw [is]
        unfold AgentState.question at found ⊢
        dsimp only
        rw [foundOnFirst (groundId ids),if_pos named_,found]
        rfl
      · exact ih (promotionSane sane first) later (promotionIds sane first ▸ at_) same still
    · exact grounded made

/- Updates. -/
theorem lastUpdateAppend (updates : List AgentQuestionUpdate) (update : AgentQuestionUpdate) (id : JsString) :
    lastUpdate (updates ++ [update]) id =
      if update.questionId = id then some update.status else lastUpdate updates id := by
  unfold lastUpdate
  rw [List.filter_append]
  by_cases same : update.questionId = id
  · simp [same]
  · simp [same]

theorem lastUpdateMember {updates : List AgentQuestionUpdate} {id : JsString} {status : UpdateStatus}
    (last : lastUpdate updates id = some status) :
    ∃ update ∈ updates, update.questionId = id ∧ update.status = status := by
  obtain ⟨update,found,same⟩ := Option.map_eq_some_iff.mp last
  have member := List.mem_filter.mp (List.mem_of_getLast? found)
  exact ⟨update,member.1,by simpa using member.2,same⟩

theorem updatesEvidence (updates : List AgentQuestionUpdate) :
    (updates.foldl applyUpdate s).admittedEvidence = s.admittedEvidence := by
  induction updates generalizing s with
  | nil => rfl
  | cons update rest ih => exact ih

theorem updateSane (sane : Sane s) (update : AgentQuestionUpdate) : Sane (applyUpdate s update) where
  once := by
    rw [applied,onFirstIds (leaveId _)]
    exact sane.once
  filled := sane.filled
  needed := by
    rw [applied]
    refine onFirstEvery sane.needed fun q _ _ grounded => ?_
    unfold leave at grounded
    cases status : update.status with
    | _ => rw [status] at grounded; contradiction

theorem updatesSane (sane : Sane s) (updates : List AgentQuestionUpdate) : Sane (updates.foldl applyUpdate s) := by
  induction updates generalizing s with
  | nil => exact sane
  | cons update rest ih => exact ih (updateSane sane update)

theorem updatesAt (s : AgentState) (updates : List AgentQuestionUpdate) (id : JsString) :
    AgentState.question (updates.foldl applyUpdate s) id = (AgentState.question s id).map fun q =>
      { q with status := ((lastUpdate updates id).map UpdateStatus.toQuestion).getD q.status } := by
  induction updates using List.reverseRecOn with
  | nil => simp [lastUpdate]
  | append_singleton before update ih =>
    rw [List.foldl_append,List.foldl_cons,List.foldl_nil,lastUpdateAppend]
    unfold AgentState.question at ih ⊢
    rw [applied,foundOnFirst (leaveId _)]
    by_cases same : update.questionId = id
    · rw [if_pos same,if_pos same]
      rw [ih]
      rw [Option.map_map]
      rfl
    · rw [if_neg same,if_neg same]
      exact ih

/- An answer that is kept names evidence of its question. -/
theorem keptLinked {entry : JsValue} {update : AgentQuestionUpdate} (kept : keptUpdate s entry = some update)
    (answered : update.status = .answered) :
    ∃ held ∈ s.admittedEvidence, held.questionIds.contains update.questionId := by
  unfold keptUpdate at kept
  simp only [bind,pure,Option.bind_eq_some_iff,Option.guard_eq_some'] at kept
  obtain ⟨id,_,_,_,status,_,kept⟩ := kept
  split at kept
  · split at kept
    · contradiction
    · rename_i other
      cases kept
      exact absurd answered other
  · simp only [Option.bind_eq_some_iff,Option.guard_eq_some'] at kept
    obtain ⟨ids,_,_,named_,_,links,is⟩ := kept
    cases is
    dsimp only at answered ⊢
    cases ids with
    | nil => simp [answered] at named_
    | cons first rest =>
      have has := List.all_eq_true.mp links first List.mem_cons_self
      unfold linked at has
      cases found : s.admittedEvidence.find? fun entry => entry.id = first with
      | none => rw [found] at has; contradiction
      | some held =>
        rw [found] at has
        exact ⟨held,List.mem_of_find?_eq_some found,has⟩
  · contradiction

theorem validatedKept {researchSources : List JsString} {raw : JsValue} {value : AgentEvaluation}
    (valid : validateEvaluation w s researchSources raw = some value) :
    ∀ update ∈ value.questionUpdates, ∃ entry, keptUpdate s entry = some update := by
  unfold validateEvaluation at valid
  split at valid
  · cases valid
    intro update member
    obtain ⟨entry,_,kept⟩ := List.mem_filterMap.mp member
    exact ⟨entry,kept⟩
  · contradiction

theorem evaluationSane (sane : Sane s) (value : AgentEvaluation) : Sane (applyEvaluation s value) := by
  unfold applyEvaluation
  dsimp only
  generalize List.range _ = indices
  have updated := updatesSane sane value.questionUpdates
  generalize value.questionUpdates.foldl applyUpdate s = t at updated ⊢
  induction indices generalizing t with
  | nil => exact updated
  | cons index rest ih => exact ih _ (promotionSane updated index)

theorem evaluationEvidence (sane : Sane s) (value : AgentEvaluation) :
    (applyEvaluation s value).admittedEvidence = s.admittedEvidence := by
  unfold applyEvaluation
  dsimp only
  generalize List.range _ = indices
  have updated := updatesSane sane value.questionUpdates
  have same : (value.questionUpdates.foldl applyUpdate s).admittedEvidence = s.admittedEvidence :=
    updatesEvidence value.questionUpdates
  generalize value.questionUpdates.foldl applyUpdate s = t at updated same ⊢
  induction indices generalizing t with
  | nil => exact same
  | cons index rest ih => exact ih _ (promotionSane updated index) ((promotionEvidence updated index).trans same)

/- A round keeps a grounded question grounded exactly if its last update is an answer or none. -/
theorem evaluationKeeps (sane : Sane s) {researchSources : List JsString} {raw : JsValue} {value : AgentEvaluation}
    (valid : validateEvaluation w s researchSources raw = some value) {id : JsString} (grounded : Grounded s id) :
    Grounded (applyEvaluation s value) id ↔ lastUpdate value.questionUpdates id = none ∨
      lastUpdate value.questionUpdates id = some .answered := by
  obtain ⟨q,found,status⟩ := (groundedFound sane.once id).mp grounded
  have updated := updatesSane sane value.questionUpdates
  have at_ := updatesAt s value.questionUpdates id
  rw [found,Option.map_some,status] at at_
  rw [groundedFound (evaluationSane sane value).once id]
  unfold applyEvaluation
  dsimp only
  cases last : lastUpdate value.questionUpdates id with
  | none =>
    rw [last] at at_
    have kept := promotionsKeep updated (List.range (value.questionUpdates.foldl applyUpdate s).questions.length) at_
      fun eligible => QuestionStatus.noConfusion eligible.2.1
    exact ⟨fun _ => .inl rfl,fun _ => ⟨_,kept,rfl⟩⟩
  | some status_ => cases status_ with
    | answered =>
      rw [last] at at_
      obtain ⟨update,member,named_,answered⟩ := lastUpdateMember last
      obtain ⟨entry,kept⟩ := validatedKept valid update member
      obtain ⟨held,inside,links⟩ := keptLinked kept answered
      have inQuestions := List.mem_of_find?_eq_some at_
      have same : (q.id = id) := by simpa using List.find?_some found
      obtain ⟨index,there⟩ := List.getElem?_of_mem inQuestions
      have reached := promotionsReach updated (List.mem_range.mpr (List.getElem?_eq_some_iff.mp there).1)
        (by rw [List.getElem?_map,there]; exact congrArg some same) at_
        ⟨sane.needed q (List.mem_of_find?_eq_some found) status,rfl,held,
          by rw [updatesEvidence value.questionUpdates]; exact inside,by rw [named_,← same] at links; exact links⟩
      exact ⟨fun _ => .inr rfl,fun _ => reached⟩
    | blocked =>
      rw [last] at at_
      have kept := promotionsKeep updated (List.range (value.questionUpdates.foldl applyUpdate s).questions.length) at_
        fun eligible => QuestionStatus.noConfusion eligible.2.1
      constructor
      · rintro ⟨other,there,again⟩
        rw [kept] at there
        cases there
        contradiction
      · rintro (none_ | answer)
        · contradiction
        · contradiction
    | abandoned =>
      rw [last] at at_
      have kept := promotionsKeep updated (List.range (value.questionUpdates.foldl applyUpdate s).questions.length) at_
        fun eligible => QuestionStatus.noConfusion eligible.2.1
      constructor
      · rintro ⟨other,there,again⟩
        rw [kept] at there
        cases there
        contradiction
      · rintro (none_ | answer)
        · contradiction
        · contradiction

/- The other steps. -/
theorem stepEvaluation (s : AgentState) (researchSources : List JsString) (raw : JsValue) :
    step w s (.evaluation researchSources raw) =
      ((validateEvaluation w s researchSources raw).map (applyEvaluation s)).getD s := by
  simp only [step]
  cases validateEvaluation w s researchSources raw <;> rfl

theorem stepQuestion (s : AgentState) (input : QuestionInput) : step w s (.question input) = s ∨
    ∃ q : AgentQuestion, (∀ other ∈ s.questions, other.id ≠ q.id) ∧ q.status = .open ∧
      step w s (.question input) = { s with questions := s.questions ++ [q] } := by
  change (addQuestion w.toTables s input).1 = s ∨ ∃ q : AgentQuestion, _ ∧ _ ∧ (addQuestion w.toTables s input).1 = _
  unfold addQuestion
  dsimp only
  split; exact .inl rfl
  split; exact .inl rfl
  split; exact .inl rfl
  split; exact .inl rfl
  rename_i fresh
  refine .inr ⟨_,fun other member same => fresh ?_,rfl,rfl⟩
  exact List.any_eq_true.mpr ⟨other,member,decide_eq_true same⟩

theorem queryKept (p : Tables) (s : AgentState) (input : QueryInput) :
    (recordQuery p s input).1.questions = s.questions ∧
      (recordQuery p s input).1.admittedEvidence = s.admittedEvidence := by
  unfold recordQuery
  dsimp only
  split; exact ⟨rfl,rfl⟩
  split; exact ⟨rfl,rfl⟩
  split; exact ⟨rfl,rfl⟩
  split <;> exact ⟨rfl,rfl⟩

theorem stepSane (sane : Sane s) (e : Event) : Sane (step w s e) := by
  cases e with
  | question input =>
    rcases stepQuestion (w := w) s input with same | ⟨q,fresh,opened,is⟩
    · rw [same]
      exact sane
    · rw [is]
      refine ⟨?_,sane.filled,fun other member grounded => ?_⟩
      · rw [List.map_append]
        refine sane.once.append (List.nodup_singleton _) (List.disjoint_singleton.mpr fun there => ?_)
        obtain ⟨other,member,same⟩ := List.mem_map.mp there
        exact fresh other member same
      · rcases List.mem_append.mp member with old | new
        · exact sane.needed other old grounded
        · rw [List.mem_singleton.mp new,opened] at grounded
          contradiction
  | evidence input =>
    have same : (step w s (.evidence input)).questions = s.questions := evidenceKept w.toTables s input
    exact ⟨same ▸ sane.once,admittedFilled sane.filled input,same ▸ sane.needed⟩
  | query input =>
    obtain ⟨questions,entries⟩ := queryKept w.toTables s input
    exact ⟨show ((recordQuery w.toTables s input).1.questions.map (·.id)).Nodup from questions ▸ sane.once,
      show ∀ entry ∈ (recordQuery w.toTables s input).1.admittedEvidence, _ from entries ▸ sane.filled,
      show ∀ q ∈ (recordQuery w.toTables s input).1.questions, _ from questions ▸ sane.needed⟩
  | evaluation researchSources raw =>
    rw [stepEvaluation]
    cases validateEvaluation w s researchSources raw with
    | none => exact sane
    | some value => exact evaluationSane sane value

theorem stepKeeps (sane : Sane s) (e : Event) :
    (∀ id, Grounded s id → Grounded (step w s e) id) ↔ Upheld w s e := by
  cases e with
  | question input =>
    refine ⟨fun _ => trivial,fun _ id grounded => ?_⟩
    rcases stepQuestion (w := w) s input with same | ⟨q,_,_,is⟩
    · rw [same]
      exact grounded
    · rw [is]
      obtain ⟨other,member,named_⟩ := grounded
      exact ⟨other,List.mem_append_left _ member,named_⟩
  | evidence input =>
    refine ⟨fun _ => trivial,fun _ id grounded => ?_⟩
    unfold Grounded
    rw [show (step w s (.evidence input)).questions = s.questions from evidenceKept w.toTables s input]
    exact grounded
  | query input =>
    refine ⟨fun _ => trivial,fun _ id grounded => ?_⟩
    unfold Grounded
    rw [show (step w s (.query input)).questions = s.questions from (queryKept w.toTables s input).1]
    exact grounded
  | evaluation researchSources raw =>
    rw [stepEvaluation]
    cases valid : validateEvaluation w s researchSources raw with
    | none => exact ⟨fun _ value some_ => (nomatch valid.symm.trans some_),fun _ _ grounded => grounded⟩
    | some value =>
      constructor
      · intro keeps other is id grounded
        cases Option.some.inj (valid.symm.trans is)
        exact (evaluationKeeps sane valid grounded).mp (keeps id grounded)
      · exact fun upheld id grounded => (evaluationKeeps sane valid grounded).mpr (upheld value valid id grounded)

theorem createdSane (goal : JsString) : Sane (createAgentState goal) :=
  ⟨List.nodup_nil,fun _ member => (List.not_mem_nil member).elim,fun _ member => (List.not_mem_nil member).elim⟩

/-- Over every run of the loop a grounded question stays grounded exactly if no evaluation leaves
one with blocked or abandoned as its last update. -/
theorem groundedRuns (w : Web) (goal : JsString) (events : List Event) :
    Meets (Upheld w) (step w) (createAgentState goal) events ↔
      ∀ n m, n ≤ m → ∀ id, Grounded ((events.take n).foldl (step w) (createAgentState goal)) id →
        Grounded ((events.take m).foldl (step w) (createAgentState goal)) id :=
  runRelated (R := fun s t => ∀ id, Grounded s id → Grounded t id) (fun _ _ grounded => grounded)
    (fun _ _ _ first later id grounded => later id (first id grounded)) (createdSane goal)
    (fun _ e sane => stepSane sane e) (fun _ e sane => stepKeeps sane e) events

def sampledWeb : Web := ⟨sampledTables,fun _ => true⟩

def sampledUpdate (status : String) (evidenceIds : List JsString) : JsValue := .object [
  (js "questionUpdates",.array [.object [(js "questionId",.string (js "q-2d711642b726")),
    (js "status",.string (js status)),(js "evidenceIds",.array (evidenceIds.map .string))]]),
  (js "nextActions",.array []),(js "shouldContinue",.bool true)]

/- The question is asked, gets its evidence, is answered and, a round later, given up. -/
def givenUp : List Event := [.question ⟨js "x",none,none⟩,
  .evidence { sampledOffer 0 [] with questionIds := .array [.string (js "q-2d711642b726")] },
  .evaluation [] (sampledUpdate "answered" [js "ev-35752cf8f7a3b1e3cfed588cc1ee6c646a76b9c62abc5290857b400eadcd4ded"]),
  .evaluation [] (sampledUpdate "abandoned" [])]

theorem groundedLost :
    (((givenUp.take 3).foldl (step sampledWeb) (createAgentState [])).questions.map fun q => (q.id,q.status)) =
        [(js "q-2d711642b726",.grounded)] ∧
      (((givenUp.take 4).foldl (step sampledWeb) (createAgentState [])).questions.map fun q => (q.id,q.status)) =
        [(js "q-2d711642b726",.abandoned)] := by
  decide

end Northstar.Agent.Evaluation
