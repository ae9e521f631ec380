import Northstar.Agent.Admission
import Northstar.Agent.Recording

/-! The stop policy's remaining actions against what the next round records. The policy looks up
the raw text under the intended route in the ledger of before the round; the recorder looks up
what it records in the ledger as the round has filled it so far. -/
namespace Northstar.Agent.Recording
open State Intents Evaluation

variable {w : Web} {r : Recorder} {s : AgentState}

def ledger (s : AgentState) : List JsString := s.queries.map (·.identityKey)

/- One offer to the recorder, and a list of them. -/
def offer (p : Tables) (s : AgentState) : Option QueryInput → AgentState × Verdict
  | none => (s,.dropped)
  | some input => ((recordQuery p s input).1,verdictOf (recordQuery p s input).2)

def offers (p : Tables) (s : AgentState) : List (Option QueryInput) → List Verdict
  | [] => []
  | input :: rest => (offer p s input).2 :: offers p (offer p s input).1 rest

def afterOffers (p : Tables) (s : AgentState) (inputs : List (Option QueryInput)) : AgentState :=
  inputs.foldl (fun s input => (offer p s input).1) s

def recordable (input : QueryInput) : Bool :=
  trim input.query ≠ [] && trim input.route ≠ [] && byteLength input.query ≤ maxQueryBytes

/- The keys a list of offers may bring into the ledger. -/
def noted (p : Tables) (inputs : List (Option QueryInput)) : List JsString :=
  (inputs.filterMap fun input => input.filter recordable).map (identity p)

/- An offer is recorded where it can be, its key is new, and the ledger has room for it. -/
structure Fresh (p : Tables) (s : AgentState) (before : List (Option QueryInput)) (input : QueryInput) : Prop where
  recordable : recordable input
  unheld : identity p input ∉ ledger s
  unnoted : identity p input ∉ noted p before
  room : s.queries.length + ((noted p before).toFinset \ (ledger s).toFinset).card < maxQueries

/- What recordQuery can do. -/
theorem recordCases (p : Tables) (s : AgentState) (input : QueryInput) :
    Fresh p s [] input ∧ (∃ entry, (recordQuery p s input).2 = .accepted entry) ∧
        ledger (recordQuery p s input).1 = ledger s ++ [identity p input] ∧
        (recordQuery p s input).1.queries.length = s.queries.length + 1 ∨
      ¬Fresh p s [] input ∧ (∃ reason, (recordQuery p s input).2 = .rejected reason) ∧ (recordQuery p s input).1 = s := by
  unfold recordQuery
  dsimp only
  split
  · rename_i blank
    refine .inr ⟨fun fresh => ?_,⟨_,rfl⟩,rfl⟩
    have fits := fresh.recordable
    simp only [recordable,Bool.and_eq_true,decide_eq_true_eq] at fits
    exact blank.elim fits.1.1 fits.1.2
  · rename_i filled
    split
    · rename_i long
      refine .inr ⟨fun fresh => ?_,⟨_,rfl⟩,rfl⟩
      have fits := fresh.recordable
      simp only [recordable,Bool.and_eq_true,decide_eq_true_eq] at fits
      exact Nat.not_lt.mpr fits.2 long
    · rename_i short
      split
      · rename_i full
        exact .inr ⟨fun fresh => Nat.not_lt.mpr full (Nat.lt_of_le_of_lt (Nat.le_add_right _ _) fresh.room),⟨_,rfl⟩,rfl⟩
      · rename_i room
        split
        · rename_i again
          refine .inr ⟨fun fresh => fresh.unheld ?_,⟨_,rfl⟩,rfl⟩
          obtain ⟨entry,member,same⟩ := List.any_eq_true.mp again
          exact List.mem_map.mpr ⟨entry,member,by simpa using same⟩
        · rename_i new
          refine .inl ⟨⟨?_,?_,List.not_mem_nil,?_⟩,⟨_,rfl⟩,?_,?_⟩
          · simp only [not_or] at filled
            simp only [recordable,Bool.and_eq_true,decide_eq_true_eq]
            exact ⟨⟨filled.1,filled.2⟩,Nat.not_lt.mp short⟩
          · intro there
            obtain ⟨entry,member,same⟩ := List.mem_map.mp there
            exact new (List.any_eq_true.mpr ⟨entry,member,decide_eq_true same⟩)
          · simpa [noted] using room
          · simp [ledger]
          · simp

/- The offers before one count as if they were in the ledger. -/
theorem freshLater (p : Tables) (s : AgentState) (first : Option QueryInput) (before : List (Option QueryInput))
    (input : QueryInput) : Fresh p (offer p s first).1 before input ↔ Fresh p s (first :: before) input := by
  cases first with
  | none => exact ⟨fun h => ⟨h.recordable,h.unheld,h.unnoted,h.room⟩,fun h => ⟨h.recordable,h.unheld,h.unnoted,h.room⟩⟩
  | some one =>
    have keys : noted p (some one :: before) = if recordable one then identity p one :: noted p before else noted p before := by
      unfold noted
      rw [List.filterMap_cons]
      by_cases fits : recordable one <;> simp [Option.filter,fits]
    rcases recordCases p s one with ⟨fresh,_,grown,size⟩ | ⟨stale,_,same⟩
    · have fits := fresh.recordable
      rw [if_pos fits] at keys
      have counted : ((identity p one :: noted p before).toFinset \ (ledger s).toFinset).card =
          ((noted p before).toFinset \ (ledger s ++ [identity p one]).toFinset).card + 1 := by
        have split_ : (identity p one :: noted p before).toFinset \ (ledger s).toFinset =
            insert (identity p one) ((noted p before).toFinset \ (ledger s ++ [identity p one]).toFinset) := by
          ext key
          simp only [List.toFinset_cons,Finset.mem_sdiff,Finset.mem_insert,List.mem_toFinset,List.mem_append,
            List.mem_singleton,not_or]
          have unheld := fresh.unheld
          constructor
          · rintro ⟨rfl | listed,out⟩
            · exact .inl rfl
            · by_cases same : key = identity p one
              · exact .inl same
              · exact .inr ⟨listed,out,same⟩
          · rintro (rfl | ⟨listed,out,_⟩)
            · exact ⟨.inl rfl,unheld⟩
            · exact ⟨.inr listed,out⟩
        rw [split_,Finset.card_insert_of_notMem (by simp)]
      have state : (offer p s (some one)).1 = (recordQuery p s one).1 := rfl
      rw [state]
      constructor
      · intro h
        have unheld := h.unheld
        rw [grown,List.mem_append,List.mem_singleton,not_or] at unheld
        have room := h.room
        rw [grown,size] at room
        refine ⟨h.recordable,unheld.1,?_,?_⟩
        · rw [keys,List.mem_cons,not_or]
          exact ⟨unheld.2,h.unnoted⟩
        · rw [keys,counted]
          omega
      · intro h
        have unnoted := h.unnoted
        rw [keys,List.mem_cons,not_or] at unnoted
        have room := h.room
        rw [keys,counted] at room
        refine ⟨h.recordable,?_,unnoted.2,?_⟩
        · rw [grown,List.mem_append,List.mem_singleton,not_or]
          exact ⟨h.unheld,unnoted.1⟩
        · rw [grown,size]
          omega
    · have state : (offer p s (some one)).1 = s := same
      rw [state]
      by_cases fits : recordable one
      · rw [if_pos fits] at keys
        -- refused for its key or for want of room
        by_cases held : identity p one ∈ ledger s
        · have sets : (identity p one :: noted p before).toFinset \ (ledger s).toFinset =
              (noted p before).toFinset \ (ledger s).toFinset := by
            ext key
            simp only [List.toFinset_cons,Finset.mem_sdiff,Finset.mem_insert,List.mem_toFinset]
            constructor
            · rintro ⟨rfl | listed,out⟩
              · exact absurd held out
              · exact ⟨listed,out⟩
            · exact fun ⟨listed,out⟩ => ⟨.inr listed,out⟩
          constructor
          · intro h
            refine ⟨h.recordable,h.unheld,?_,by rw [keys,sets]; exact h.room⟩
            rw [keys,List.mem_cons,not_or]
            exact ⟨fun same => h.unheld (same ▸ held),h.unnoted⟩
          · intro h
            have unnoted := h.unnoted
            have room := h.room
            rw [keys,List.mem_cons,not_or] at unnoted
            rw [keys,sets] at room
            exact ⟨h.recordable,h.unheld,unnoted.2,room⟩
        · have full : maxQueries ≤ s.queries.length := by
            by_contra room
            exact stale ⟨fits,held,List.not_mem_nil,by simpa [noted] using room⟩
          constructor
          · intro h
            have room := h.room
            omega
          · intro h
            have room := h.room
            omega
      · rw [if_neg fits] at keys
        constructor
        · exact fun h => ⟨h.recordable,h.unheld,keys ▸ h.unnoted,keys ▸ h.room⟩
        · exact fun h => ⟨h.recordable,h.unheld,keys ▸ h.unnoted,keys ▸ h.room⟩

theorem freshAfter (p : Tables) (s : AgentState) (earlier : List (Option QueryInput)) (input : QueryInput) :
    Fresh p (afterOffers p s earlier) [] input ↔ Fresh p s earlier input := by
  induction earlier generalizing s with
  | nil => exact Iff.rfl
  | cons first rest ih => exact (ih _).trans (freshLater p s first rest input)

theorem offerVerdict (p : Tables) (s : AgentState) (input : Option QueryInput) :
    (offer p s input).2 = .recorded ↔ ∃ given, input = some given ∧ Fresh p s [] given := by
  cases input with
  | none => exact ⟨fun h => (nomatch h),fun ⟨_,none_,_⟩ => (nomatch none_)⟩
  | some given =>
    have verdict : (offer p s (some given)).2 = verdictOf (recordQuery p s given).2 := rfl
    rw [verdict]
    rcases recordCases p s given with ⟨fresh,⟨entry,accepted⟩,_⟩ | ⟨stale,⟨reason,rejected⟩,_⟩
    · rw [accepted]
      exact ⟨fun _ => ⟨given,rfl,fresh⟩,fun _ => rfl⟩
    · rw [rejected]
      exact ⟨fun h => (nomatch h),fun ⟨_,is,fresh⟩ => absurd (Option.some.inj is ▸ fresh) stale⟩

/- The actions the budgets let through to the ledger, with their verdicts. -/
def letThrough (w : Web) (r : Recorder) (s : AgentState) (actions : List AgentNextAction) :
    List (AgentNextAction × Verdict) :=
  (actions.zip (r.record w s actions)).filter fun pair => pair.2 ≠ .held

/- Their verdicts are those of offering them one after the other. -/
theorem executorOffers (ctx : Context) (actions : List AgentNextAction) (legs : List PlannedAction) :
    let through := (actions.zip (recordActions w ctx s legs actions).2).filter fun pair => pair.2 ≠ .held
    through.map Prod.snd = offers w.toTables s (through.map fun pair => (Recorder.executor ctx).input w pair.1) := by
  induction actions generalizing s legs with
  | nil => rfl
  | cons action rest ih =>
    unfold recordActions
    have given : (Recorder.executor ctx).input w action = (planAction w ctx action).map PlannedAction.input := rfl
    cases plan : planAction w ctx action with
    | none =>
      rw [plan] at given
      dsimp only
      rw [List.zip_cons_cons,List.filter_cons_of_pos (by simp),List.map_cons,List.map_cons,offers,given]
      exact congrArg (List.cons Verdict.dropped) (ih legs)
    | some planned =>
      rw [plan] at given
      dsimp only
      split
      · rw [List.zip_cons_cons,List.filter_cons_of_neg (by simp)]
        exact ih legs
      · have open_ : verdictOf (recordQuery w.toTables s planned.input).2 ≠ .held := by
          cases (recordQuery w.toTables s planned.input).2 with
          | _ => exact fun h => nomatch h
        rw [List.zip_cons_cons,List.filter_cons_of_pos (by simpa using open_),List.map_cons,List.map_cons,offers,given]
        exact congrArg (List.cons _) (ih _)

theorem legOffers (input : AgentNextAction → Option QueryInput) (room : Nat) (actions : List AgentNextAction) :
    let through := (actions.zip (recordLegs w s room (actions.map input)).2).filter fun pair => pair.2 ≠ .held
    through.map Prod.snd = offers w.toTables s (through.map fun pair => input pair.1) := by
  induction actions generalizing s room with
  | nil => rfl
  | cons action rest ih =>
    rw [List.map_cons]
    cases given : input action with
    | none =>
      unfold recordLegs
      dsimp only
      rw [List.zip_cons_cons,List.filter_cons_of_pos (by simp),List.map_cons,List.map_cons,offers,given]
      exact congrArg (List.cons Verdict.dropped) (ih room)
    | some one =>
      unfold recordLegs
      dsimp only
      split
      · rw [List.zip_cons_cons,List.filter_cons_of_neg (by simp)]
        exact ih room
      · have open_ : verdictOf (recordQuery w.toTables s one).2 ≠ .held := by
          cases (recordQuery w.toTables s one).2 with
          | _ => exact fun h => nomatch h
        rw [List.zip_cons_cons,List.filter_cons_of_pos (by simpa using open_),List.map_cons,List.map_cons,offers,given]
        exact congrArg (List.cons _) (ih _)

theorem throughOffers (r : Recorder) (actions : List AgentNextAction) : (letThrough w r s actions).map Prod.snd =
    offers w.toTables s ((letThrough w r s actions).map fun pair => r.input w pair.1) := by
  cases r with
  | legs room => exact legOffers legInput room actions
  | executor ctx => exact executorOffers ctx actions []

theorem verdictAt {p : Tables} {before after : List (AgentNextAction × Verdict)} {pair : AgentNextAction × Verdict}
    {input : AgentNextAction → Option QueryInput}
    (is : ((before ++ pair :: after).map Prod.snd) = offers p s ((before ++ pair :: after).map fun pair => input pair.1)) :
    pair.2 = (offer p (afterOffers p s (before.map fun pair => input pair.1)) (input pair.1)).2 := by
  induction before generalizing s with
  | nil => exact (List.cons.inj is).1
  | cons first rest ih => exact ih (List.cons.inj is).2

/-- Of the actions that are let through to the ledger, the remaining ones are the recorded ones
exactly when each one's raw key is unknown to the ledger just where what it is recorded as is
recordable, unknown to the ledger and to the earlier ones, and has room. -/
theorem remainingRecorded (w : Web) (r : Recorder) (s : AgentState) (actions : List AgentNextAction) :
    (∀ pair ∈ letThrough w r s actions, remaining w s pair.1 = true ↔ pair.2 = .recorded) ↔
      ∀ before action after, (letThrough w r s actions).map Prod.fst = before ++ action :: after →
        (identity w.toTables (rawInput action) ∉ ledger s ↔
          ∃ input, r.input w action = some input ∧ Fresh w.toTables s (before.map (r.input w)) input) := by
  have known (action : AgentNextAction) :
      remaining w s action = true ↔ identity w.toTables (rawInput action) ∉ ledger s := by
    unfold remaining hasExactDuplicate ledger
    simp
  have each {before after : List (AgentNextAction × Verdict)} {pair : AgentNextAction × Verdict}
      (is : letThrough w r s actions = before ++ pair :: after) : pair.2 = .recorded ↔
        ∃ input, r.input w pair.1 = some input ∧
          Fresh w.toTables s ((before.map Prod.fst).map (r.input w)) input := by
    have through := throughOffers (w := w) (s := s) r actions
    rw [is] at through
    rw [verdictAt through,offerVerdict,List.map_map]
    simp only [freshAfter]
    exact Iff.rfl
  constructor
  · intro agree before action after is
    obtain ⟨front,back,split_,rfl,rest⟩ := List.map_eq_append_iff.mp is
    obtain ⟨pair,later,rfl,rfl,rfl⟩ := List.map_eq_cons_iff.mp rest
    have member : pair ∈ letThrough w r s actions := by rw [split_]; simp
    rw [← known,agree pair member]
    exact each split_
  · intro expected pair member
    obtain ⟨before,after,split_⟩ := List.append_of_mem member
    rw [known,expected (before.map Prod.fst) pair.1 (after.map Prod.fst) (by rw [split_]; simp)]
    exact (each split_).symm

/- A page is read in one round and proposed again: the read stands under a route of its own. -/
def pageRead : AgentState :=
  (recordQuery sampledTables (createAgentState []) ⟨js "http://a",some (js "q"),js "web_fetch"⟩).1

def sampledContext : Context :=
  ⟨none,fun _ => false,⟨0,0,0,fun _ => 0⟩,⟨4,12,6,fun _ => 6⟩⟩

theorem readAgain :
    remaining ⟨sampledTables,fun _ => true⟩ pageRead ⟨js "q",.webFetch (js "http://a")⟩ = true ∧
      (Recorder.executor sampledContext).record ⟨sampledTables,fun _ => true⟩ pageRead
        [⟨js "q",.webFetch (js "http://a")⟩] = [.rejected "exact duplicate query"] := by
  decide

end Northstar.Agent.Recording
