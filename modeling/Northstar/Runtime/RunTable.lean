import Northstar.Runtime.Leaf

/-! The run table over whole runs: how many runs are running, and that a run which has
reached a final state keeps it with its output. -/
namespace Northstar.Runtime
namespace LeafRuntime

/- Entries name objects; an object that awaits its provider is running or cancelled. -/
structure Sound (s : LeafRuntime) : Prop where
  present : ∀ entry ∈ s.runs, entry.2 < s.objects.length
  live : ∀ run ∈ s.objects, run.settled = false → run.state = .running ∨ run.state = .cancelled
  room : s.running + s.waiting.length ≤ maxParallelRuns

theorem countMapSet {K V : Type} [DecidableEq K] (p : K × V → Bool) (table : List (K × V))
    (key : K) (value : V) : (mapSet table key value).countP p ≤ table.countP p + 1 := by
  induction table with
  | nil =>
    simp only [mapSet,List.countP_cons,List.countP_nil]
    split <;> omega
  | cons entry rest ih =>
    obtain ⟨k,v⟩ := entry
    simp only [mapSet]
    split
    · simp only [List.countP_cons]
      split <;> omega
    · simp only [List.countP_cons]
      omega

theorem memMapSet {K V : Type} [DecidableEq K] {table : List (K × V)} {key : K} {value : V}
    {entry : K × V} (member : entry ∈ mapSet table key value) :
    entry ∈ table ∨ entry = (key,value) := by
  induction table with
  | nil => exact .inr (List.mem_singleton.mp member)
  | cons head rest ih =>
    simp only [mapSet] at member
    split at member
    · rcases List.mem_cons.mp member with new | old
      · exact .inr new
      · exact .inl (List.mem_cons_of_mem _ old)
    · rcases List.mem_cons.mp member with first | later
      · exact .inl (first ▸ List.mem_cons_self)
      · rcases ih later with old | new
        · exact .inl (List.mem_cons_of_mem _ old)
        · exact .inr new

theorem evictSublist (s : LeafRuntime) (maxRuns size : Nat) (entries : List (JsString × Nat)) :
    (s.evict maxRuns size entries).Sublist entries := by
  induction entries generalizing size with
  | nil => exact .refl _
  | cons entry rest ih =>
    simp only [evict]
    split
    · exact .refl _
    · split
      · exact (ih size).cons_cons entry
      · exact (ih (size - 1)).cons entry

/- Dropping entries or starts leaves room. -/
theorem Sound.fewer {s : LeafRuntime} (h : Sound s) {runs : List (JsString × Nat)}
    {waiting : List WaitingStart} (entries : runs.Sublist s.runs)
    (starts : waiting.length ≤ s.waiting.length) :
    Sound { s with runs := runs, waiting := waiting } where
  present entry member := h.present entry (entries.subset member)
  live := h.live
  room := Nat.le_trans (Nat.add_le_add (entries.countP_le) starts) h.room

theorem soundPrune (config : LeafConfig) {s : LeafRuntime} (h : Sound s) (now : Int) :
    Sound (s.prune config now) :=
  h.fewer List.filter_sublist (Nat.le_refl _)

/- Objects that keep their place, and that no step sets running again. -/
theorem Sound.objects {s : LeafRuntime} (h : Sound s) {objects : List LocalRun}
    (length : objects.length = s.objects.length)
    (live : ∀ run ∈ objects, run.settled = false → run.state = .running ∨ run.state = .cancelled)
    (stopped : ∀ (i : Nat) (run : LocalRun), objects[i]? = some run → run.state = .running →
      ∃ old, s.objects[i]? = some old ∧ old.state = .running) :
    Sound { s with objects := objects } where
  present entry member := length ▸ h.present entry member
  live := live
  room := by
    refine Nat.le_trans (Nat.add_le_add_right (List.countP_mono_left fun entry _ running => ?_) _) h.room
    simp only [isRunning,object,Option.any_eq_true,beq_iff_eq] at running ⊢
    obtain ⟨run,found,state⟩ := running
    exact stopped entry.2 run found state

def outcome (run : LocalRun) : RunState × Option JsString × Option Number × Option JsString :=
  (run.state,run.output,run.outputTokens,run.error)

/- Every object stays in its place, and a final one keeps what it reached. -/
def Keeps (s s' : LeafRuntime) : Prop := ∀ (i : Nat) (run : LocalRun), s.objects[i]? = some run →
  ∃ run', s'.objects[i]? = some run' ∧ (run.state ≠ .running → outcome run' = outcome run)

theorem Keeps.refl (s : LeafRuntime) : Keeps s s := fun _ run found => ⟨run,found,fun _ => rfl⟩

theorem Keeps.trans {s t u : LeafRuntime} (first : Keeps s t) (second : Keeps t u) : Keeps s u := by
  intro i run found
  obtain ⟨run',found',kept⟩ := first i run found
  obtain ⟨run'',found'',kept'⟩ := second i run' found'
  refine ⟨run'',found'',fun final => ?_⟩
  have same := kept final
  have final' : run'.state ≠ .running := by
    rw [show run'.state = run.state from congrArg Prod.fst same]
    exact final
  exact (kept' final').trans same

theorem fulfilStops {run : LocalRun} {stopError : Bool} {errorMessage : Option JsString}
    {texts : List JsString} {usageOutput : Option Number} {now : Int} :
    (run.fulfil stopError errorMessage texts usageOutput now).state ≠ .running := by
  unfold LocalRun.fulfil
  split
  · rename_i cancelled
    simp [cancelled]
  · split
    · simp
    · dsimp only
      split <;> simp

theorem rejectStops {run : LocalRun} {error : Option JsString} {now : Int} :
    (run.reject error now).state ≠ .running := by
  unfold LocalRun.reject
  split
  · rename_i cancelled
    simp [cancelled]
  · dsimp only
    split <;> simp

theorem settleStops (run : LocalRun) (now : Int) (completion : Completion) :
    (run.settle now completion).state ≠ .running := by
  cases completion with
  | message stopError errorMessage texts usageOutput => exact fulfilStops
  | rejected error => exact rejectStops

theorem settleCancelled {run : LocalRun} (cancelled : run.state = .cancelled) (now : Int)
    (completion : Completion) : outcome (run.settle now completion) = outcome run := by
  cases completion with
  | message stopError errorMessage texts usageOutput =>
    simp only [LocalRun.settle,LocalRun.fulfil,if_pos cancelled,outcome]
  | rejected error => simp only [LocalRun.settle,LocalRun.reject,if_pos cancelled,outcome]

theorem settleSettled (run : LocalRun) (now : Int) (completion : Completion) :
    (run.settle now completion).settled = true := by
  cases completion <;> rfl

theorem cancelFinal {run : LocalRun} (final : run.state ≠ .running) (now : Int) :
    run.cancel now = run := if_neg final

theorem cancelStops (run : LocalRun) (now : Int) : (run.cancel now).state ≠ .running := by
  unfold LocalRun.cancel
  split
  · simp
  · assumption

theorem modifyKeeps {s : LeafRuntime} {i : Nat} {f : LocalRun → LocalRun}
    (final : ∀ run, s.objects[i]? = some run → run.state ≠ .running → outcome (f run) = outcome run) :
    Keeps s { s with objects := s.objects.modify i f } := by
  intro j run found
  by_cases same : i = j
  · subst same
    refine ⟨f run,?_,final run found⟩
    simp [found]
  · refine ⟨run,?_,fun _ => rfl⟩
    simp [same,found]

theorem soundModify {s : LeafRuntime} (h : Sound s) {i : Nat} {f : LocalRun → LocalRun}
    (stops : ∀ run, (f run).state ≠ .running)
    (live : ∀ run, s.objects[i]? = some run → (f run).settled = false → (f run).state = .cancelled) :
    Sound { s with objects := s.objects.modify i f } := by
  have found : ∀ (j : Nat) (run : LocalRun), (s.objects.modify i f)[j]? = some run →
      s.objects[j]? = some run ∨ (∃ old, s.objects[i]? = some old ∧ run = f old) := by
    intro j run at'
    rw [List.getElem?_modify] at at'
    obtain ⟨old,before,after⟩ := Option.map_eq_some_iff.mp at'
    split at after
    · rename_i same
      exact .inr ⟨old,same ▸ before,after.symm⟩
    · exact .inl (after ▸ before)
  refine h.objects (List.length_modify ..) (fun run member settled => ?_) fun j run at' state => ?_
  · obtain ⟨j,at'⟩ := List.mem_iff_getElem?.mp member
    rcases found j run at' with old | ⟨old,before,rfl⟩
    · exact h.live run (List.mem_of_getElem? old) settled
    · exact .inr (live old before settled)
  · rcases found j run at' with old | ⟨old,_,rfl⟩
    · exact ⟨run,old,state⟩
    · exact absurd state (stops old)

theorem soundCancelAll {s : LeafRuntime} (h : Sound s) (now : Int) (selected : List Nat) :
    Sound { s with objects := cancelEach now s.objects selected } ∧
      Keeps s { s with objects := cancelEach now s.objects selected } := by
  induction selected generalizing s with
  | nil => exact ⟨h,.refl s⟩
  | cons i rest ih =>
    have stopped : Sound { s with objects := s.objects.modify i (·.cancel now) } := by
      refine soundModify h (cancelStops · now) fun run found settled => ?_
      unfold LocalRun.cancel at settled ⊢
      split
      · rfl
      · rename_i final
        rw [if_neg final] at settled
        rcases h.live run (List.mem_of_getElem? found) settled with running | cancelled
        · exact absurd running final
        · exact cancelled
    have kept : Keeps s { s with objects := s.objects.modify i (·.cancel now) } :=
      modifyKeeps fun run _ final => by rw [cancelFinal final]
    have later := ih stopped
    exact ⟨later.1,kept.trans later.2⟩

theorem soundInsert {config : LeafConfig} {s : LeafRuntime} (h : Sound s)
    (room : s.running + s.waiting.length < maxParallelRuns) (runId : JsString) (now : Int) :
    Sound (s.insert config runId now) := by
  have inserted : Sound { s with
      objects := s.objects ++ [⟨runId,.running,now,now,none,none,none,false,false⟩]
      runs := mapSet s.runs runId s.objects.length } := {
    present := fun entry member => by
      rw [List.length_append,List.length_singleton]
      rcases memMapSet member with old | new
      · exact Nat.lt_succ_of_lt (h.present entry old)
      · rw [new]
        exact Nat.lt_succ_self _
    live := fun run member settled => by
      rcases List.mem_append.mp member with old | new
      · exact h.live run old settled
      · rw [List.mem_singleton.mp new]
        exact .inl rfl
    room := by
      have same : s.runs.countP (isRunning { s with
          objects := s.objects ++ [⟨runId,.running,now,now,none,none,none,false,false⟩]
          runs := mapSet s.runs runId s.objects.length }) = s.running := by
        refine List.countP_congr fun entry member => ?_
        simp only [isRunning,object,List.getElem?_append_left (h.present entry member)]
      have most := countMapSet (isRunning { s with
          objects := s.objects ++ [⟨runId,.running,now,now,none,none,none,false,false⟩]
          runs := mapSet s.runs runId s.objects.length }) s.runs runId s.objects.length
      simp only [running] at same room ⊢
      omega }
  exact inserted.fewer (evictSublist _ _ _ _) (Nat.le_refl _)

theorem insertKeeps (config : LeafConfig) {s : LeafRuntime} (runId : JsString) (now : Int) :
    Keeps s (s.insert config runId now) := by
  intro i run found
  refine ⟨run,?_,fun _ => rfl⟩
  exact (List.getElem?_append_left (List.getElem?_eq_some_iff.mp found).1).trans found

theorem startWaiting {config : LeafConfig} {s s' : LeafRuntime} {params : StartParams}
    (started : s.start config params = .ok s') :
    ∃ start, s' = { s with waiting := s.waiting ++ [start] } := by
  unfold LeafRuntime.start at started
  split at started
  · contradiction
  · dsimp only at started
    split at started
    · contradiction
    · generalize (if trim params.modelId = [] then config.defaultModelId.getD []
        else trim params.modelId) = modelId at started
      split at started
      · contradiction
      · cases started
        exact ⟨_,rfl⟩

theorem leafStepSound {config : LeafConfig} {s : LeafRuntime} {e : LeafEvent} (h : Sound s)
    (proper : overcommits config s e = false) :
    Sound (leafStep config s e) ∧ Keeps s (leafStep config s e) := by
  cases e with
  | start params now =>
    have pruned := soundPrune config h now
    simp only [leafStep]
    cases started : (s.prune config now).start config params with
    | error e => exact ⟨pruned,fun _ run found => ⟨run,found,fun _ => rfl⟩⟩
    | ok s' =>
      obtain ⟨waiting,rfl⟩ := startWaiting started
      simp only [overcommits,started,Bool.true_and,decide_eq_false_iff_not] at proper
      refine ⟨⟨pruned.present,pruned.live,?_⟩,fun _ run found => ⟨run,found,fun _ => rfl⟩⟩
      have same : running { s.prune config now with
          waiting := (s.prune config now).waiting ++ [waiting] } = (s.prune config now).running := rfl
      rw [same,List.length_append,List.length_singleton]
      omega
  | resolve waiting found runId now =>
    simp only [leafStep]
    split
    · rename_i below
      have fewer : (s.waiting.eraseIdx waiting).length + 1 = s.waiting.length := by
        rw [List.length_eraseIdx_of_lt below]
        omega
      have left : Sound { s with waiting := s.waiting.eraseIdx waiting } :=
        h.fewer (.refl _) (by omega)
      cases found with
      | false => exact ⟨left,fun _ run found => ⟨run,found,fun _ => rfl⟩⟩
      | true =>
        have room := h.room
        have same : running { s with waiting := s.waiting.eraseIdx waiting } = s.running := rfl
        exact ⟨soundInsert left (by rw [same]; dsimp only; omega) runId now,
          insertKeeps config runId now⟩
    · exact ⟨h,.refl s⟩
  | settle object completion now =>
    simp only [leafStep]
    split
    · exact ⟨h,.refl s⟩
    · rename_i run found
      split
      · exact ⟨h,.refl s⟩
      · rename_i unsettled
        refine ⟨soundPrune config (soundModify h (settleStops · now completion) fun run _ settled => ?_) now,?_⟩
        · rw [settleSettled] at settled
          contradiction
        · refine modifyKeeps (i := object) fun run' found' final => ?_
          cases found.symm.trans found'
          rcases h.live run (List.mem_of_getElem? found) (by simpa using unsettled) with running | cancelled
          · exact absurd running final
          · exact settleCancelled cancelled now completion
  | cancelAndSettle runIds now => exact soundCancelAll (soundPrune config h now) now _
  | read now => exact ⟨soundPrune config h now,fun _ run found => ⟨run,found,fun _ => rfl⟩⟩

theorem soundEmpty : Sound .empty where
  present entry member := by contradiction
  live run member := by contradiction
  room := by decide

end LeafRuntime

open LeafRuntime

/-- In every run where no start passes its capacity check while the running runs and the
starts still resolving their model fill the limit, at most that many runs are running in
every state reached, and a final run keeps its state and output. -/
theorem runTableBounded (config : LeafConfig) (events later : List LeafEvent)
    (proper : Meets (fun s e => overcommits config s e = false) (leafStep config) .empty
      (events ++ later)) :
    (events.foldl (leafStep config) .empty).running ≤ maxParallelRuns ∧
      Keeps (events.foldl (leafStep config) .empty) ((events ++ later).foldl (leafStep config) .empty) := by
  obtain ⟨first,rest⟩ := meetsAppend.mp proper
  have sound := runUnder soundEmpty (fun _ _ h meets => (leafStepSound h meets).1) events first
  have kept := runUnder (I := fun s => Sound s ∧ Keeps (events.foldl (leafStep config) .empty) s)
    ⟨sound,.refl _⟩ (fun s e h meets => ⟨(leafStepSound h.1 meets).1,
      h.2.trans (leafStepSound h.1 meets).2⟩) later rest
  rw [List.foldl_append]
  exact ⟨Nat.le_trans (Nat.le_add_right _ _) sound.room,kept.2⟩

def defaults : LeafConfig := ⟨600000,512,none⟩

def startEvent : LeafEvent := .start ⟨js "local/leaf",js "hi",.int 16,.int 1000,false⟩ 0

def resolveEvent (n : Nat) : LeafEvent := .resolve 0 true (js ("runtime_" ++ toString n)) 0

theorem oneRunBounded :
    ([startEvent,resolveEvent 0,startEvent].foldl (leafStep defaults) .empty).running ≤ maxParallelRuns ∧
      Keeps ([startEvent,resolveEvent 0,startEvent].foldl (leafStep defaults) .empty)
        (([startEvent,resolveEvent 0,startEvent] ++
          [.settle 0 (.message false none [js "done"] none) 5,resolveEvent 1]).foldl
            (leafStep defaults) .empty) :=
  runTableBounded defaults _ _ (by decide)

/- Five starts pass the check while none has its model, and all five then insert a run. -/
theorem fifthRunAdmitted : ¬(((List.replicate 5 startEvent ++ (List.range 5).map resolveEvent).foldl
    (leafStep defaults) .empty).running ≤ maxParallelRuns) := by decide

end Northstar.Runtime
