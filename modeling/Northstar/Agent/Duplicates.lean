import Northstar.Program
import Northstar.Agent.Compiling
import Northstar.Agent.Remaining

/-! Which actions a run of the research loop takes for exact repeats (agent-core.ts, agent-gather.ts):
the ledger knows an action by its text, its route and its question. -/
namespace Northstar.Agent.Recording
open State Intents Evaluation

/- A ledger entry with the action it was recorded for; the root query has none. -/
structure Logged where
  input : QueryInput
  action : Option AgentNextAction
  deriving DecidableEq

structure Loop where
  state : AgentState
  legs : List PlannedAction
  log : List Logged

inductive Step where
  | root (query : JsString)
  | round
  | execute (ctx : Context) (action : AgentNextAction)
  | leg (room : Nat) (action : AgentNextAction)
  | weigh (action : AgentNextAction)
  /- What else a round does, the ledger aside. -/
  | elsewhere (state : AgentState)

variable (w : Web)

/- The action a step brings to the ledger, and what it is looked up as. -/
def lookedUp (t : Loop) : Step → Option (AgentNextAction × QueryInput)
  | .execute ctx action => match planAction w ctx action with
      | none => none
      | some planned =>
          if !withinBudgets ctx t.legs planned then none else some (⟨planned.questionId,planned.intent⟩,planned.input)
  | .leg room action => if room = 0 then none else (legInput action).map fun input => (action,input)
  | .weigh action => some (action,rawInput action)
  | _ => none

/- A query offered to the ledger. -/
def noteQuery (t : Loop) (input : QueryInput) (action : Option AgentNextAction) : Loop × Verdict :=
  let recorded := recordQuery w.toTables t.state input
  let verdict := verdictOf recorded.2
  ({ t with state := recorded.1, log := if verdict = .recorded then t.log ++ [⟨input,action⟩] else t.log },verdict)

/- A planned action that the budgets let through is offered to the ledger. -/
def executePlanned (t : Loop) (ctx : Context) (planned : PlannedAction) : Loop × Verdict :=
  if !withinBudgets ctx t.legs planned then (t,.held)
  else
    let noted := noteQuery w t planned.input (some ⟨planned.questionId,planned.intent⟩)
    ({ noted.1 with legs := if noted.2 = .recorded then t.legs ++ [planned] else t.legs },noted.2)

def takeLeg (t : Loop) (room : Nat) (action : AgentNextAction) : Loop × Verdict := match legInput action with
  | none => (t,.dropped)
  | some input => if room = 0 then (t,.held) else noteQuery w t input (some action)

def takeStep (t : Loop) : Step → Loop × Verdict
  | .root query => noteQuery w t ⟨query,none,js "root"⟩ none
  | .round => ({ t with legs := [] },.dropped)
  | .execute ctx action => match planAction w ctx action with
      | none => (t,.dropped)
      | some planned => executePlanned w t ctx planned
  | .leg room action => takeLeg w t room action
  | .weigh action => (t,if remaining w t.state action then .recorded else .rejected "exact duplicate query")
  | .elsewhere state => ({ t with state := { state with queries := t.state.queries } },.dropped)

def next (t : Loop) (step : Step) : Loop := (takeStep w t step).1

def Suppressed (t : Loop) (step : Step) : Prop :=
  (lookedUp w t step).isSome ∧ (takeStep w t step).2 = .rejected "exact duplicate query"

/- An action recorded before, of the same question, route and compiled arguments. -/
def Repeats (t : Loop) (step : Step) : Prop := ∃ action input earlier entry, lookedUp w t step = some (action,input) ∧ entry ∈ t.log ∧
  entry.action = some earlier ∧ earlier.questionId = action.questionId ∧ entry.input.route = input.route ∧
  compileIntentArgs earlier.intent = compileIntentArgs action.intent

/- The fields of an intent beside its text. -/
def untold : GatherIntent → GatherIntent
  | .webSearch _ limit => .webSearch [] limit
  | .researchSearch _ source yearFrom yearTo limit => .researchSearch [] source yearFrom yearTo limit
  | .githubRepo _ => .githubRepo []
  | .githubCode _ repoHint => .githubCode [] repoHint
  | .githubIssues _ state labels number => .githubIssues [] state labels number
  | .githubFiles _ repoHint => .githubFiles [] repoHint
  | .socialSearch platform _ sort => .socialSearch platform [] sort
  | .videoTranscript _ => .videoTranscript []
  | .kgLookup entityType name url id limit => .kgLookup entityType name url id limit
  | .webFetch _ => .webFetch []

/- Whatever the ledger holds under the key of this step was recorded for an action of the same question, route and text, and of the
same fields beside the text. -/
def Told (t : Loop) (step : Step) : Prop := ∀ action input, lookedUp w t step = some (action,input) →
  ∀ entry ∈ t.log, identity w.toTables entry.input = identity w.toTables input → ∃ earlier, entry.action = some earlier ∧
    earlier.questionId = action.questionId ∧ entry.input.route = input.route ∧
    actionSearchText earlier.intent = actionSearchText action.intent ∧ untold earlier.intent = untold action.intent

theorem wholeIntent {a b : GatherIntent} (text : actionSearchText a = actionSearchText b) (rest : untold a = untold b) : a = b := by
  cases a with
  | webSearch query limit => cases b with
    | webSearch query' limit' => exact congrArg₂ _ text (GatherIntent.webSearch.inj rest).2
    | _ => simp [untold] at rest
  | researchSearch query source yearFrom yearTo limit => cases b with
    | researchSearch query' source' yearFrom' yearTo' limit' =>
      obtain ⟨_,rfl,rfl,rfl,rfl⟩ := GatherIntent.researchSearch.inj rest
      exact congrArg (GatherIntent.researchSearch · source yearFrom yearTo limit) text
    | _ => simp [untold] at rest
  | githubRepo query => cases b with
    | githubRepo query' => exact congrArg _ text
    | _ => simp [untold] at rest
  | githubCode query repoHint => cases b with
    | githubCode query' repoHint' => exact congrArg₂ _ text (GatherIntent.githubCode.inj rest).2
    | _ => simp [untold] at rest
  | githubIssues repoHint state labels number => cases b with
    | githubIssues repoHint' state' labels' number' =>
      obtain ⟨_,rfl,rfl,rfl⟩ := GatherIntent.githubIssues.inj rest
      refine congrArg (GatherIntent.githubIssues · state labels number) ?_
      cases number with
      | none => exact text
      | some n => exact List.append_cancel_right (List.append_cancel_right text)
    | _ => simp [untold] at rest
  | githubFiles query repoHint => cases b with
    | githubFiles query' repoHint' => exact congrArg₂ _ text (GatherIntent.githubFiles.inj rest).2
    | _ => simp [untold] at rest
  | socialSearch platform query sort => cases b with
    | socialSearch platform' query' sort' =>
      obtain ⟨rfl,_,rfl⟩ := GatherIntent.socialSearch.inj rest
      exact congrArg (GatherIntent.socialSearch platform · sort) text
    | _ => simp [untold] at rest
  | videoTranscript hint => cases b with
    | videoTranscript hint' => exact congrArg _ text
    | _ => simp [untold] at rest
  | kgLookup entityType name url id limit => cases b with
    | kgLookup entityType' name' url' id' limit' => exact rest
    | _ => simp [untold] at rest
  | webFetch url => cases b with
    | webFetch url' => exact congrArg _ text
    | _ => simp [untold] at rest

def verdicts (t : Loop) : List Step → List Verdict
  | [] => []
  | step :: rest => (takeStep w t step).2 :: verdicts (next w t step) rest

/- The executor's pass is these steps, one for each action. -/
theorem executedRound (ctx : Context) (actions : List AgentNextAction) (t : Loop) :
    recordActions w ctx t.state t.legs actions =
      (((actions.map (Step.execute ctx)).foldl (next w) t).state,verdicts w t (actions.map (Step.execute ctx))) := by
  induction actions generalizing t with
  | nil => rfl
  | cons action rest ih =>
    have taken : takeStep w t (.execute ctx action) = match planAction w ctx action with
      | none => (t,.dropped)
      | some planned => executePlanned w t ctx planned := rfl
    rw [List.map_cons,List.foldl_cons,verdicts,next,taken]
    unfold recordActions
    cases planAction w ctx action with
    | none => simp only [ih]
    | some planned =>
      unfold executePlanned
      by_cases within : !withinBudgets ctx t.legs planned
      · simp only [if_pos within,ih]
      · simp only [if_neg within]
        have later := ih { (noteQuery w t planned.input (some ⟨planned.questionId,planned.intent⟩)).1 with
          legs := if (noteQuery w t planned.input (some ⟨planned.questionId,planned.intent⟩)).2 = .recorded then t.legs ++ [planned]
            else t.legs }
        have state := congrArg Prod.fst later
        have told := congrArg Prod.snd later
        exact Prod.ext state (congrArg (List.cons _) told)

/- The legs of a round without an executor, with the searches left at each. -/
def legSteps (t : Loop) (room : Nat) : List AgentNextAction → List Step
  | [] => []
  | action :: rest =>
      let taken := takeStep w t (.leg room action)
      .leg room action :: legSteps taken.1 (if taken.2 = .recorded then room - 1 else room) rest

theorem leggedRound (actions : List AgentNextAction) (t : Loop) (room : Nat) :
    recordLegs w t.state room (actions.map legInput) =
      (((legSteps w t room actions).foldl (next w) t).state,verdicts w t (legSteps w t room actions)) := by
  induction actions generalizing t room with
  | nil => rfl
  | cons action rest ih =>
    have taken : takeStep w t (.leg room action) = takeLeg w t room action := rfl
    rw [List.map_cons,legSteps,List.foldl_cons,verdicts,next,taken]
    unfold takeLeg recordLegs
    cases legInput action with
    | none =>
      have later := ih t room
      have state := congrArg Prod.fst later
      have told := congrArg Prod.snd later
      exact Prod.ext state (congrArg (List.cons _) told)
    | some input =>
      by_cases full : room = 0
      · have later := ih t room
        simp only [if_pos full]
        have state := congrArg Prod.fst later
        have told := congrArg Prod.snd later
        exact Prod.ext state (congrArg (List.cons _) told)
      · simp only [if_neg full]
        have later := ih (noteQuery w t input (some action)).1
          (if (noteQuery w t input (some action)).2 = .recorded then room - 1 else room)
        have state := congrArg Prod.fst later
        have told := congrArg Prod.snd later
        exact Prod.ext state (congrArg (List.cons _) told)

variable {w}

/- The ledger is what the log says. -/
def Kept (t : Loop) : Prop := ledger t.state = t.log.map fun entry => identity w.toTables entry.input

theorem noteKept {t : Loop} (kept : @Kept w t) (input : QueryInput) (action : Option AgentNextAction) :
    @Kept w (noteQuery w t input action).1 := by
  unfold Kept at kept ⊢
  unfold noteQuery
  rcases recordCases w.toTables t.state input with ⟨_,⟨entry,accepted⟩,grown,_⟩ | ⟨_,⟨reason,rejected⟩,same⟩
  · simp [accepted,verdictOf,grown,kept]
  · simp [rejected,verdictOf,same,kept]

theorem nextKept (t : Loop) (step : Step) (kept : @Kept w t) : @Kept w (next w t step) := by
  unfold next
  cases step with
  | root query => exact noteKept kept _ _
  | round => exact kept
  | execute ctx action =>
    unfold takeStep
    dsimp only
    split
    · exact kept
    · unfold executePlanned
      split
      · exact kept
      · exact noteKept kept _ _
  | leg room action =>
    change @Kept w (takeLeg w t room action).1
    unfold takeLeg
    split
    · exact kept
    · split
      · exact kept
      · exact noteKept kept _ _
  | weigh action => exact kept
  | elsewhere state => exact kept

theorem duplicateHeld {p : Tables} {s : AgentState} {input : QueryInput}
    (rejected : (recordQuery p s input).2 = .rejected "exact duplicate query") : identity p input ∈ ledger s := by
  unfold recordQuery at rejected
  dsimp only at rejected
  split at rejected
  · exact absurd rejected (by simp)
  · split at rejected
    · exact absurd rejected (by simp)
    · split at rejected
      · exact absurd rejected (by simp)
      · split at rejected
        · rename_i again
          obtain ⟨entry,member,same⟩ := List.any_eq_true.mp again
          exact List.mem_map.mpr ⟨entry,member,by simpa using same⟩
        · exact absurd rejected (by simp)

theorem suppressedHeld {t : Loop} {step : Step} (suppressed : Suppressed w t step) : ∃ action input,
    lookedUp w t step = some (action,input) ∧ identity w.toTables input ∈ ledger t.state := by
  have held {input : QueryInput} {action : Option AgentNextAction}
      (rejected : (noteQuery w t input action).2 = .rejected "exact duplicate query") : identity w.toTables input ∈ ledger t.state := by
    refine duplicateHeld ?_
    unfold noteQuery verdictOf at rejected
    dsimp only at rejected
    split at rejected
    · cases rejected
    · rename_i reason made
      rw [made,Verdict.rejected.inj rejected]
  obtain ⟨some_,rejected⟩ := suppressed
  obtain ⟨⟨action,input⟩,looked⟩ := Option.isSome_iff_exists.mp some_
  refine ⟨action,input,looked,?_⟩
  cases step with
  | root query => cases looked
  | round => cases looked
  | execute ctx offered =>
    unfold lookedUp at looked
    unfold takeStep at rejected
    dsimp only at looked rejected
    split at looked
    · cases looked
    · rename_i planned plan
      rw [plan] at rejected
      dsimp only at rejected
      split at looked
      · cases looked
      · rename_i within
        cases looked
        rw [executePlanned,if_neg within] at rejected
        exact @held _ (some ⟨planned.questionId,planned.intent⟩) rejected
  | leg room offered =>
    unfold lookedUp at looked
    change (takeLeg w t room offered).2 = _ at rejected
    unfold takeLeg at rejected
    dsimp only at looked
    split at looked
    · cases looked
    · rename_i left
      obtain ⟨found,made,same⟩ := Option.map_eq_some_iff.mp looked
      cases same
      rw [made] at rejected
      dsimp only at rejected
      rw [if_neg left] at rejected
      exact held rejected
  | weigh offered =>
    cases looked
    change (if remaining w t.state action then Verdict.recorded else _) = _ at rejected
    unfold remaining hasExactDuplicate at rejected
    split at rejected
    · cases rejected
    · rename_i found
      rw [Bool.not_eq_true,Bool.not_eq_false'] at found
      obtain ⟨entry,member,same⟩ := List.any_eq_true.mp found
      exact List.mem_map.mpr ⟨entry,member,by simpa using same⟩
  | elsewhere state => cases looked

/-- In a run where the ledger tells every action it is asked for from those it holds, only true repeats are taken for repeats; and
compiled arguments tell every two intents apart. -/
theorem onlyRepeats (w : Web) (goal : JsString) (steps : List Step)
    (told : Meets (Told w) (next w) ⟨createAgentState goal,[],[]⟩ steps) :
    Meets (fun t step => Suppressed w t step → Repeats w t step) (next w) ⟨createAgentState goal,[],[]⟩ steps ∧
    ∀ a b, compileIntentArgs a = compileIntentArgs b → a = b := by
  refine ⟨?_,fun a b => compiledApart⟩
  have initial : @Kept w ⟨createAgentState goal,[],[]⟩ := rfl
  refine meetsUnder initial nextKept (fun t step kept told suppressed => ?_) steps told
  obtain ⟨action,input,looked,held⟩ := suppressedHeld suppressed
  rw [kept] at held
  obtain ⟨entry,member,same⟩ := List.mem_map.mp held
  obtain ⟨earlier,recorded,question,route,text,rest⟩ := told action input looked entry member same
  exact ⟨action,input,earlier,entry,looked,member,recorded,question,route,congrArg compileIntentArgs (wholeIntent text rest)⟩

def toolContext : Context :=
  ⟨some ⟨false,false,[],false⟩,fun _ => true,⟨0,0,0,fun _ => 0⟩,⟨4,12,6,fun _ => 6⟩⟩

def sourced (source : String) : AgentNextAction := ⟨js "q",.researchSearch (js "ab cd ef") (some (js source)) none none none⟩

def sampledWeb : Web := ⟨sampledTables,fun _ => true⟩

def afterFirst : Loop := next sampledWeb ⟨createAgentState [],[],[]⟩ (.execute toolContext (sourced "arxiv"))

theorem askedAgain : Meets (fun t step => Suppressed sampledWeb t step → Repeats sampledWeb t step) (next sampledWeb)
    ⟨createAgentState [],[],[]⟩ [.execute toolContext (sourced "arxiv"),.execute toolContext (sourced "arxiv")] := by
  refine (onlyRepeats sampledWeb [] [.execute toolContext (sourced "arxiv"),.execute toolContext (sourced "arxiv")]
    ⟨fun _ _ _ entry member => absurd member List.not_mem_nil,?_,trivial⟩).1
  change Told sampledWeb afterFirst _
  have looked : lookedUp sampledWeb afterFirst (.execute toolContext (sourced "arxiv")) =
      some (sourced "arxiv",⟨js "ab cd ef",some (js "q"),js "research"⟩) := by decide
  have log : afterFirst.log = [⟨⟨js "ab cd ef",some (js "q"),js "research"⟩,some (sourced "arxiv")⟩] := by decide
  intro action input found entry member _
  rw [looked] at found
  cases found
  rw [log,List.mem_singleton] at member
  cases member
  exact ⟨sourced "arxiv",rfl,rfl,rfl,rfl,rfl⟩

/- The same words are asked of another source, and taken for a repeat. -/
theorem sourceSkipped : Suppressed sampledWeb afterFirst (.execute toolContext (sourced "pubmed")) ∧
    ¬ Repeats sampledWeb afterFirst (.execute toolContext (sourced "pubmed")) := by
  have looked : lookedUp sampledWeb afterFirst (.execute toolContext (sourced "pubmed")) =
      some (sourced "pubmed",⟨js "ab cd ef",some (js "q"),js "research"⟩) := by decide
  have log : afterFirst.log = [⟨⟨js "ab cd ef",some (js "q"),js "research"⟩,some (sourced "arxiv")⟩] := by decide
  refine ⟨⟨by rw [looked]; rfl,by decide⟩,?_⟩
  rintro ⟨action,input,earlier,entry,found,member,recorded,_,_,same⟩
  rw [looked] at found
  cases found
  rw [log,List.mem_singleton] at member
  rw [member] at recorded
  cases recorded
  exact absurd (compiledApart same) (by decide)

end Northstar.Agent.Recording
