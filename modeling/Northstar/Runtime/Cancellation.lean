import Northstar.Runtime.LeafClient

/-! What the leaf client cancels. The known runs are those of calls that have not returned
their text, and they are cancelled together whenever a request or a call runs out of time. -/
namespace Northstar.Runtime
namespace LeafRuntimeClient

def liveIds (calls : List LeafCall) : List JsString :=
  calls.filterMap fun call => if call.returned then none else call.runId

/- A call that goes on has no outcome, and no run before it is started. -/
structure Steady (call : LeafCall) : Prop where
  going : call.point ≠ .over → call.outcome = none
  unstarted : call.point = .negotiating ∨ call.point = .starting → call.runId = none

structure Sound (s : LeafRuntimeClient) : Prop where
  owned : List.Subperm s.startedRunIds (liveIds s.calls)
  few : s.startedRunIds.length ≤ maxCancelRunIds
  steady : ∀ call ∈ s.calls, Steady call

/- A stretch that cancels nothing and leaves the known runs as they are. -/
structure Calm (s t : LeafRuntimeClient) : Prop where
  known : t.startedRunIds = s.startedRunIds
  disposed : t.disposed = s.disposed
  emitted : ∃ new, t.emitted = s.emitted ++ new ∧ ∀ runIds, Emission.cancel runIds ∉ new

theorem calmSame {s t : LeafRuntimeClient} (known : t.startedRunIds = s.startedRunIds)
    (disposed : t.disposed = s.disposed) (emitted : t.emitted = s.emitted) : Calm s t :=
  ⟨known,disposed,[],by rw [emitted,List.append_nil],fun _ => List.not_mem_nil⟩

theorem calmTrans {s t u : LeafRuntimeClient} (first : Calm s t) (second : Calm t u) : Calm s u := by
  obtain ⟨one,early,quiet⟩ := first.emitted
  obtain ⟨two,late,calm⟩ := second.emitted
  refine ⟨second.known.trans first.known,second.disposed.trans first.disposed,one ++ two,?_,?_⟩
  · rw [late,early,List.append_assoc]
  · intro runIds member
    cases List.mem_append.mp member with
    | inl there => exact quiet runIds there
    | inr there => exact calm runIds there

/- One call of the list. -/
theorem splitAt {calls : List LeafCall} {c : Nat} {call : LeafCall} (there : calls[c]? = some call) :
    ∃ before after, calls = before ++ call :: after ∧
      ∀ update, calls.modify c update = before ++ update call :: after := by
  obtain ⟨less,same⟩ := List.getElem?_eq_some_iff.mp there
  refine ⟨calls.take c,calls.drop (c + 1),?_,fun update => ?_⟩
  · rw [← same,List.cons_getElem_drop_succ,List.take_append_drop]
  · rw [List.modify_eq_take_cons_drop less,same]

theorem liveSplit (before after : List LeafCall) (call : LeafCall) : liveIds (before ++ call :: after) =
    liveIds before ++ ((if call.returned then none else call.runId).toList ++ liveIds after) := by
  rw [liveIds,List.filterMap_append,List.filterMap_cons]
  split <;> rename_i one <;> rw [one] <;> rfl

theorem soundChange {s : LeafRuntimeClient} (h : Sound s) {c : Nat} {update : LeafCall → LeafCall}
    (each : ∀ call, s.calls[c]? = some call → (update call).runId = call.runId ∧
      ((update call).returned → call.returned) ∧ Steady (update call)) : Sound (s.change c update) := by
  cases there : s.calls[c]? with
  | none =>
    have same : s.calls.modify c update = s.calls := by
      rw [List.modify_eq_self]
      exact List.getElem?_eq_none_iff.mp there
    exact ⟨by simp only [change,same]; exact h.owned,h.few,by simp only [change,same]; exact h.steady⟩
  | some call =>
    obtain ⟨runId,returned,steady⟩ := each call there
    obtain ⟨before,after,same,changed⟩ := splitAt there
    constructor
    · refine h.owned.trans (List.Sublist.subperm ?_)
      simp only [change,changed]
      rw [same,liveSplit,liveSplit]
      refine (List.Sublist.refl _).append (List.Sublist.append ?_ (.refl _))
      rw [runId]
      by_cases old : call.returned
      · rw [if_pos old]
        exact List.nil_sublist _
      · rw [if_neg old,if_neg fun now => old (returned now)]
    · exact h.few
    · intro other member
      simp only [change,changed] at member
      cases List.mem_append.mp member with
      | inl early => exact h.steady other (by rw [same]; exact List.mem_append_left _ early)
      | inr rest =>
        cases List.mem_cons.mp rest with
        | inl here => exact here ▸ steady
        | inr late => exact h.steady other (by rw [same]; simp [late])

theorem soundFail {s : LeafRuntimeClient} (h : Sound s) (c : Nat) (error : LeafRuntimeError) :
    Sound (s.finish c (.error error)) := by
  refine soundChange h fun call _ => ⟨rfl,fun wrong => absurd wrong (by simp [LeafCall.returned]),?_⟩
  exact ⟨fun going => absurd rfl going,fun early => by rcases early with wrong | wrong <;> exact absurd wrong nofun⟩

theorem soundMove {s : LeafRuntimeClient} (h : Sound s) {c : Nat} {call : LeafCall}
    (there : s.calls[c]? = some call) (going : call.outcome = none) {next : LeafPoint}
    (early : next = .negotiating ∨ next = .starting → call.runId = none) :
    Sound (s.change c fun call => { call with point := next }) := by
  refine soundChange h fun other at_ => ?_
  cases Option.some.inj (there.symm.trans at_)
  exact ⟨rfl,id,fun _ => going,early⟩

section
variable (settings : LeafSettings) (ids : Nat → JsString) (regExp : JsString → Bool)

theorem requestCalm (asker : Asker) (method : RuntimeRpcMethod) (params : JsValue) (timeoutMs : Option Number)
    (s : LeafRuntimeClient) : Calm s (s.request settings ids asker method params timeoutMs).2 ∧
      (s.request settings ids asker method params timeoutMs).2.calls = s.calls := by
  unfold request
  split
  · exact ⟨calmSame rfl rfl rfl,rfl⟩
  split
  · exact ⟨calmSame rfl rfl rfl,rfl⟩
  dsimp only
  split
  · exact ⟨calmSame rfl rfl rfl,rfl⟩
  split
  · exact ⟨calmSame rfl rfl rfl,rfl⟩
  split
  · exact ⟨⟨rfl,rfl,[_],rfl,fun _ member => by simp at member⟩,rfl⟩
  · exact ⟨⟨rfl,rfl,[_],rfl,fun _ member => by simp at member⟩,rfl⟩

theorem soundCalls {s t : LeafRuntimeClient} (h : Sound s) (known : t.startedRunIds = s.startedRunIds)
    (calls : t.calls = s.calls) : Sound t :=
  ⟨by rw [known,calls]; exact h.owned,by rw [known]; exact h.few,by rw [calls]; exact h.steady⟩

theorem askSound {s : LeafRuntimeClient} (h : Sound s) {c : Nat} {call : LeafCall}
    (there : s.calls[c]? = some call) (going : call.outcome = none) (method : RuntimeRpcMethod)
    (params : JsValue) (timeoutMs : Int) (next : LeafPoint)
    (early : next = .negotiating ∨ next = .starting → call.runId = none) :
    Sound (s.ask settings ids c method params timeoutMs next) ∧
      Calm s (s.ask settings ids c method params timeoutMs next) := by
  obtain ⟨calm,calls⟩ := requestCalm settings ids (.leaf c) method params (some (.int timeoutMs)) s
  unfold ask
  generalize request settings ids (.leaf c) method params (some (.int timeoutMs)) s = r at calm calls
  obtain ⟨error,t⟩ := r
  have sound := soundCalls h calm.known calls
  cases error with
  | some error => exact ⟨soundFail sound c error,calmTrans calm (calmSame rfl rfl rfl)⟩
  | none => exact ⟨soundMove sound (calls ▸ there) going early,calmTrans calm (calmSame rfl rfl rfl)⟩

/- What a step may send out: a cancellation only of all known runs, by a client that is not
disposed, when something has run out of time. -/
structure Sends (s t : LeafRuntimeClient) (expired : Prop) : Prop where
  sound : Sound t
  emitted : ∃ new, t.emitted = s.emitted ++ new ∧ ∀ runIds, Emission.cancel runIds ∈ new →
    expired ∧ s.disposed = false ∧ runIds = t.startedRunIds

theorem sendsCalm {s t : LeafRuntimeClient} {expired : Prop} (sound : Sound t) (calm : Calm s t) :
    Sends s t expired := by
  obtain ⟨new,emitted,quiet⟩ := calm.emitted
  exact ⟨sound,new,emitted,fun runIds member => absurd member (quiet runIds)⟩

/- A calm stretch before what is sent, and one after it. -/
theorem sendsAfter {s t u : LeafRuntimeClient} {expired : Prop} (emitted : t.emitted = s.emitted)
    (disposed : t.disposed = s.disposed) (h : Sends t u expired) : Sends s u expired := by
  obtain ⟨new,there,each⟩ := h.emitted
  exact ⟨h.sound,new,by rw [there,emitted],fun runIds member => by rw [← disposed]; exact each runIds member⟩

theorem sendsBefore {s t u : LeafRuntimeClient} {expired : Prop} (h : Sends s t expired) (sound : Sound u)
    (calm : Calm t u) : Sends s u expired := by
  obtain ⟨new,there,each⟩ := h.emitted
  obtain ⟨more,later,quiet⟩ := calm.emitted
  refine ⟨sound,new ++ more,by rw [later,there,List.append_assoc],fun runIds member => ?_⟩
  cases List.mem_append.mp member with
  | inl here => rw [calm.known]; exact each runIds here
  | inr wrong => exact absurd wrong (quiet runIds)

theorem cancelSends {s : LeafRuntimeClient} (h : Sound s) {expired : Prop} (out : expired) :
    Sends s (s.cancelKnownRuns ids) expired := by
  unfold cancelKnownRuns
  split
  · exact sendsCalm h (calmSame rfl rfl rfl)
  rename_i open_
  simp only [Bool.or_eq_true,not_or,Bool.not_eq_true] at open_
  dsimp only
  split
  · exact sendsCalm (soundCalls h rfl rfl) (calmSame rfl rfl rfl)
  · refine ⟨soundCalls h rfl rfl,[_],rfl,fun runIds member => ?_⟩
    cases List.mem_singleton.mp member
    exact ⟨out,open_.1,List.take_of_length_le h.few⟩

theorem cancelCalls (s : LeafRuntimeClient) : (s.cancelKnownRuns ids).calls = s.calls := by
  unfold cancelKnownRuns
  split
  · rfl
  dsimp only
  split <;> rfl

theorem expireSends {s : LeafRuntimeClient} (h : Sound s) (c : Nat) {expired : Prop} (out : expired) :
    Sends s (s.expire ids c) expired := by
  have sent := cancelSends ids h out
  exact sendsBefore sent (soundFail sent.sound c localTimeout) (calmSame rfl rfl rfl)

theorem loopSends {s : LeafRuntimeClient} (h : Sound s) {c : Nat} (call : LeafCall) {old : LeafCall}
    (there : s.calls[c]? = some old) (going : old.outcome = none) {expired : Prop}
    (out : call.deadline ≤ s.clock → expired) : Sends s (s.loop ids c call) expired := by
  unfold loop
  split
  · rename_i late
    exact expireSends ids h c (out late)
  · exact sendsCalm (soundMove h there going (by rintro (wrong | wrong) <;> exact absurd wrong nofun))
      (calmSame rfl rfl rfl)

theorem startSends {s : LeafRuntimeClient} (h : Sound s) {c : Nat} {call : LeafCall}
    (there : s.calls[c]? = some call) (going : call.outcome = none) (unstarted : call.runId = none) :
    Sound (s.start settings ids c call) ∧ Calm s (s.start settings ids c call) := by
  unfold start
  dsimp only
  have composed : Sound (s.composeCorrelation ids call.opts).2 := soundCalls h rfl rfl
  obtain ⟨sound,calm⟩ := askSound settings ids composed there going .start _ _ .starting
    fun _ => unstarted
  exact ⟨sound,calmTrans (t := (s.composeCorrelation ids call.opts).2) (calmSame rfl rfl rfl) calm⟩

/- A started run is known, the oldest one being let go of when there are too many. -/
theorem soundTrack {s : LeafRuntimeClient} (h : Sound s) {c : Nat} {call : LeafCall}
    (there : s.calls[c]? = some call) (going : call.outcome = none) (unstarted : call.runId = none)
    (runId : JsString) : Sound ((s.trackRunId runId).change c fun call =>
      { call with point := .sleeping, runId := some runId }) := by
  obtain ⟨before,after,same,changed⟩ := splitAt there
  have live : liveIds s.calls = liveIds before ++ liveIds after := by
    rw [same,liveSplit,unstarted]
    simp
  have notReturned : call.returned = false := by
    rw [LeafCall.returned,going]
  have new : liveIds (s.calls.modify c fun call => { call with point := .sleeping, runId := some runId }) =
      liveIds before ++ runId :: liveIds after := by
    rw [changed,liveSplit]
    have still : LeafCall.returned { call with point := .sleeping, runId := some runId } = false := notReturned
    rw [still]
    rfl
  constructor
  · simp only [change,trackRunId,new]
    have kept : (if maxCancelRunIds ≤ s.startedRunIds.length then s.startedRunIds.tail
        else s.startedRunIds).Sublist s.startedRunIds := by
      split
      · exact List.tail_sublist _
      · exact .refl _
    have grown : List.Subperm (runId :: (if maxCancelRunIds ≤ s.startedRunIds.length then s.startedRunIds.tail
        else s.startedRunIds)) (runId :: (liveIds before ++ liveIds after)) := by
      rw [← live]
      exact (List.subperm_cons runId).mpr (kept.subperm.trans h.owned)
    exact ((List.perm_append_singleton _ _).subperm_right.mpr grown).trans
      (List.perm_middle.symm.subperm)
  · simp only [change,trackRunId,List.length_append,List.length_singleton]
    have few := h.few
    split
    · rw [List.length_tail]
      unfold maxCancelRunIds at *
      omega
    · omega
  · intro other member
    simp only [change,trackRunId,changed] at member
    cases List.mem_append.mp member with
    | inl early => exact h.steady other (by rw [same]; exact List.mem_append_left _ early)
    | inr rest =>
      cases List.mem_cons.mp rest with
      | inl here =>
        rw [here]
        exact ⟨fun _ => going,fun wrong => by rcases wrong with wrong | wrong <;> exact absurd wrong nofun⟩
      | inr late => exact h.steady other (by rw [same]; simp [late])

/- A call that returns its text is forgotten. -/
theorem soundForget {s : LeafRuntimeClient} (h : Sound s) {c : Nat} {call : LeafCall}
    (there : s.calls[c]? = some call) (going : call.outcome = none) {runId : JsString}
    (mine : call.runId = some runId) (text : JsString) : Sound ((s.forgetRunId runId).finish c (.ok text)) := by
  obtain ⟨before,after,same,changed⟩ := splitAt there
  have notReturned : call.returned = false := by
    rw [LeafCall.returned,going]
  have live : liveIds s.calls = liveIds before ++ runId :: liveIds after := by
    rw [same,liveSplit,notReturned,mine]
    rfl
  have new : liveIds (s.calls.modify c fun call => { call with point := .over, outcome := some (.ok text) }) =
      liveIds before ++ liveIds after := by
    rw [changed,liveSplit]
    rfl
  constructor
  · simp only [finish,change,forgetRunId,new]
    have erased := h.owned.erase runId
    rw [live] at erased
    have gone : ((liveIds before ++ runId :: liveIds after).erase runId).Perm _ := List.perm_middle.erase runId
    rw [List.erase_cons_head] at gone
    exact erased.trans gone.subperm
  · exact Nat.le_trans List.length_erase_le h.few
  · intro other member
    simp only [finish,change,forgetRunId,changed] at member
    cases List.mem_append.mp member with
    | inl early => exact h.steady other (by rw [same]; exact List.mem_append_left _ early)
    | inr rest =>
      cases List.mem_cons.mp rest with
      | inl here =>
        rw [here]
        exact ⟨fun wrong => absurd rfl wrong,fun wrong => by rcases wrong with wrong | wrong <;> exact absurd wrong nofun⟩
      | inr late => exact h.steady other (by rw [same]; simp [late])

theorem adoptCalm (data : JsValue) (s : LeafRuntimeClient) :
    Calm s (s.adoptNegotiateData settings regExp data).2 ∧
      (s.adoptNegotiateData settings regExp data).2.calls = s.calls := by
  unfold adoptNegotiateData
  dsimp only
  split_ifs <;> exact ⟨calmSame rfl rfl rfl,rfl⟩

/- A call goes on from what it awaited; only a started or polled one can be late here. -/
theorem resumeSends {s : LeafRuntimeClient} (h : Sound s) {c : Nat} {call : LeafCall}
    (there : s.calls[c]? = some call) (result : Except LeafRuntimeError JsValue) {expired : Prop}
    (out : call.outcome = none → call.deadline ≤ s.clock → expired) : Sends s (s.resume settings ids regExp c call result) expired := by
  have steady := h.steady call (List.mem_of_getElem? there)
  have failed (error : LeafRuntimeError) : Sends s (s.finish c (.error error)) expired :=
    sendsCalm (soundFail h c error) (calmSame rfl rfl rfl)
  unfold resume
  split
  · exact failed _
  · rename_i data point
    have going := steady.going (by rw [point]; exact nofun)
    have unstarted := steady.unstarted (.inl point)
    obtain ⟨calm,calls⟩ := adoptCalm settings regExp data s
    split
    · rename_i t adopted
      rw [adopted] at calm calls
      obtain ⟨sound,quiet⟩ := startSends settings ids (soundCalls h calm.known calls) (calls ▸ there) going unstarted
      exact sendsCalm sound (calmTrans calm quiet)
    · rename_i t adopted
      rw [adopted] at calm calls
      exact sendsCalm (soundFail (soundCalls h calm.known calls) c _) (calmTrans calm (calmSame rfl rfl rfl))
  · rename_i data point
    have going := steady.going (by rw [point]; exact nofun)
    unfold started
    split
    · exact failed _
    · rename_i runId _
      have tracked := soundTrack h there going (steady.unstarted (.inr point)) runId
      have now : ((s.trackRunId runId).change c fun call =>
          { call with point := .sleeping, runId := some runId }).calls[c]? =
            some { call with point := .sleeping, runId := some runId } := by
        have stays : (s.trackRunId runId).calls[c]? = some call := there
        simp only [change,List.getElem?_modify,stays]
        rfl
      have looped := loopSends ids tracked call now going (out going)
      refine sendsAfter ?_ ?_ looped <;> rfl
  · rename_i data point
    have going := steady.going (by rw [point]; exact nofun)
    unfold polled
    split
    · exact failed _
    split
    · exact loopSends ids h call there going (out going)
    split
    · obtain ⟨sound,calm⟩ := askSound settings ids h there going .result
        (.object [(js "runId",.string (call.runId.getD []))]) (s.remaining call) .fetching
        (by rintro (wrong | wrong) <;> exact absurd wrong nofun)
      exact sendsCalm sound calm
    split
    · exact failed _
    split <;> exact failed _
  · rename_i data point
    have going := steady.going (by rw [point]; exact nofun)
    unfold fetched
    split
    · rename_i text runId _ mine
      split
      · exact failed _
      · have sound := soundForget h there going mine text
        exact ⟨sound,[],(List.append_nil _).symm,nofun⟩
    · exact failed _
  · exact failed _
  · exact failed _
  · exact failed _
  · exact sendsCalm h (calmSame rfl rfl rfl)

theorem deliverSends {s : LeafRuntimeClient} (h : Sound s) (asker : Asker)
    (result : Except LeafRuntimeError JsValue) {expired : Prop}
    (out : ∀ call ∈ s.calls, call.outcome = none → call.deadline ≤ s.clock → expired) :
    Sends s (s.deliver settings ids regExp asker result) expired := by
  unfold deliver
  split
  · exact sendsCalm h (calmSame rfl rfl rfl)
  · split
    · rename_i data
      obtain ⟨calm,calls⟩ := adoptCalm settings regExp data s
      exact sendsCalm (soundCalls h calm.known calls) calm
    · exact sendsCalm (soundCalls h rfl rfl) (calmSame rfl rfl rfl)
  · split
    · exact sendsCalm h (calmSame rfl rfl rfl)
    · rename_i call there
      exact resumeSends settings ids regExp h there result (out call (List.mem_of_getElem? there))

theorem emptySound : Sound {} where
  owned := List.nil_subperm
  few := Nat.zero_le _
  steady _ member := absurd member List.not_mem_nil

/- A call that joins has no run yet. -/
theorem soundJoin {s : LeafRuntimeClient} (h : Sound s) {call : LeafCall} (steady : Steady call)
    (unstarted : call.runId = none) : Sound { s with calls := s.calls ++ [call] } := by
  have live : liveIds (s.calls ++ [call]) = liveIds s.calls := by
    have := liveSplit s.calls [] call
    rw [unstarted] at this
    rw [this]
    simp [liveIds]
  constructor
  · rw [live]
    exact h.owned
  · exact h.few
  · intro other member
    cases List.mem_append.mp member with
    | inl early => exact h.steady other early
    | inr here => exact List.mem_singleton.mp here ▸ steady

theorem runLeafSends {s : LeafRuntimeClient} (h : Sound s) (prompt : JsString) (opts : LeafRunOptions)
    {expired : Prop} : Sends s (s.runLeaf settings ids prompt opts) expired := by
  have refused (error : LeafRuntimeError) : Sends s
      { s with calls := s.calls ++ [⟨prompt,opts,0,s.clock,.over,none,some (.error error)⟩] } expired := by
    refine sendsCalm (soundJoin h ⟨fun wrong => absurd rfl wrong,fun _ => rfl⟩ rfl) (calmSame rfl rfl rfl)
  unfold runLeaf
  dsimp only
  split
  · exact refused _
  split
  · exact refused _
  split
  · exact refused _
  split
  · exact refused _
  split
  · exact refused _
  · rename_i timeoutMs _ _ tokens _
    let call : LeafCall := ⟨prompt,opts,tokens,s.clock + timeoutMs,.negotiating,none,none⟩
    let entered : LeafRuntimeClient := { s with calls := s.calls ++ [call] }
    have sound : Sound entered := soundJoin h ⟨fun _ => rfl,fun _ => rfl⟩ rfl
    obtain ⟨calm,calls⟩ := requestCalm settings ids (.leaf s.calls.length) .negotiate
      (.object [(js "modelId",.string settings.modelId)])
      (some (.int (min (entered.remaining call) refreshTimeoutMs))) entered
    have quiet : Calm s (request settings ids (.leaf s.calls.length) .negotiate
        (.object [(js "modelId",.string settings.modelId)])
        (some (.int (min (entered.remaining call) refreshTimeoutMs))) entered).2 :=
      calmTrans (t := entered) (calmSame rfl rfl rfl) calm
    split
    · rename_i error t asked
      rw [asked] at quiet calm calls
      exact sendsCalm (soundFail (soundCalls sound calm.known calls) _ _)
        (calmTrans quiet (calmSame rfl rfl rfl))
    · rename_i t asked
      rw [asked] at quiet calm calls
      exact sendsCalm (soundCalls sound calm.known calls) quiet

/- An error ends the call that awaits, whatever it awaits. -/
theorem refuseSound {s : LeafRuntimeClient} (h : Sound s) (asker : Asker) (error : LeafRuntimeError) :
    Sound (s.deliver settings ids regExp asker (.error error)) ∧
      Calm s (s.deliver settings ids regExp asker (.error error)) := by
  have failed (c : Nat) (error : LeafRuntimeError) : Sound (s.finish c (.error error)) ∧
      Calm s (s.finish c (.error error)) := ⟨soundFail h c error,calmSame rfl rfl rfl⟩
  cases asker with
  | outside => exact ⟨h,calmSame rfl rfl rfl⟩
  | refresh => exact ⟨soundCalls h rfl rfl,calmSame rfl rfl rfl⟩
  | leaf c =>
    unfold deliver
    dsimp only
    split
    · exact ⟨h,calmSame rfl rfl rfl⟩
    · rename_i call _
      unfold resume
      generalize call.point = point
      cases point <;> first | exact failed c _ | exact ⟨h,calmSame rfl rfl rfl⟩

theorem refuseAll (pending : List PendingRequest) (error : LeafRuntimeError) {s : LeafRuntimeClient} (h : Sound s) :
    Sound (pending.foldl (fun t p => t.deliver settings ids regExp p.asker (.error error)) s) ∧
      Calm s (pending.foldl (fun t p => t.deliver settings ids regExp p.asker (.error error)) s) := by
  induction pending generalizing s with
  | nil => exact ⟨h,calmSame rfl rfl rfl⟩
  | cons p rest ih =>
    obtain ⟨sound,calm⟩ := refuseSound settings ids regExp h p.asker error
    obtain ⟨still,quiet⟩ := ih sound
    exact ⟨still,calmTrans calm quiet⟩

theorem disposeSends {s : LeafRuntimeClient} (h : Sound s) : Sends s (s.dispose settings ids regExp) False := by
  unfold dispose
  split
  · exact sendsCalm h (calmSame rfl rfl rfl)
  · have cleared : Sound { s with disposed := true, pending := [], startedRunIds := [] } :=
      ⟨List.nil_subperm,Nat.zero_le _,h.steady⟩
    obtain ⟨sound,calm⟩ := refuseAll settings ids regExp s.pending disposedError cleared
    obtain ⟨new,emitted,quiet⟩ := calm.emitted
    exact ⟨sound,new,emitted,fun runIds member => absurd member (quiet runIds)⟩

/- The timer of a request fires, or a call that goes on is past its deadline. -/
def Expired (s : LeafRuntimeClient) (event : LeafClientEvent) : Prop :=
  (∃ p ∈ s.pending, event = .timeout p.number) ∨
    ∃ call ∈ s.calls, call.outcome = none ∧ call.deadline ≤ s.clock

theorem timeoutSends {s : LeafRuntimeClient} (h : Sound s) (number : Nat) :
    Sends s (s.timeout settings ids regExp number) (Expired s (.timeout number)) := by
  unfold timeout
  split
  · exact sendsCalm h (calmSame rfl rfl rfl)
  · rename_i p found
    have expired : Expired s (.timeout number) := by
      have same := List.find?_some found
      exact .inl ⟨p,List.mem_of_find?_eq_some found,by rw [of_decide_eq_true same]⟩
    let rest := { s with pending := s.pending.filter fun p => p.number ≠ number }
    have sent : Sends rest (rest.cancelKnownRuns ids) (Expired s (.timeout number)) :=
      cancelSends ids (s := rest) (soundCalls h rfl rfl) expired
    obtain ⟨sound,calm⟩ := refuseSound settings ids regExp sent.sound p.asker localTimeout
    exact sendsAfter (t := rest) rfl rfl (sendsBefore sent sound calm)

theorem replySends {s : LeafRuntimeClient} (h : Sound s) (number : Nat) (raw : JsValue) :
    Sends s (s.reply settings ids regExp number raw) (Expired s (.reply number raw)) := by
  unfold reply
  split
  · exact sendsCalm h (calmSame rfl rfl rfl)
  · rename_i p found
    let rest := { s with pending := s.pending.filter fun p => p.number ≠ number }
    have sound : Sound rest := soundCalls h rfl rfl
    refine sendsAfter (t := rest) rfl rfl (deliverSends settings ids regExp sound p.asker _ ?_)
    intro call member going late
    exact .inr ⟨call,member,going,late⟩

theorem wakeSends {s : LeafRuntimeClient} (h : Sound s) (c : Nat) :
    Sends s (s.wake settings ids c) (Expired s (.wake c)) := by
  unfold wake
  split
  · exact sendsCalm h (calmSame rfl rfl rfl)
  · rename_i call there
    split
    · exact sendsCalm h (calmSame rfl rfl rfl)
    rename_i sleeping
    have asleep : call.point = .sleeping := not_not.mp sleeping
    have member := List.mem_of_getElem? there
    have going := (h.steady call member).going (by rw [asleep]; exact nofun)
    split
    · rename_i late
      exact expireSends ids h c (.inr ⟨call,member,going,late⟩)
    · obtain ⟨sound,calm⟩ := askSound settings ids h there going .status
        (.object [(js "runId",.string (call.runId.getD []))]) (s.remaining call) .polling
        (by rintro (wrong | wrong) <;> exact absurd wrong nofun)
      exact sendsCalm sound calm

theorem stepSends {s : LeafRuntimeClient} (h : Sound s) (event : LeafClientEvent) :
    Sends s (step settings ids regExp s event) (event ≠ .dispose ∧ Expired s event) := by
  have other {t : LeafRuntimeClient} (different : event ≠ .dispose) (sent : Sends s t (Expired s event)) :
      Sends s t (event ≠ .dispose ∧ Expired s event) := by
    obtain ⟨new,emitted,each⟩ := sent.emitted
    refine ⟨sent.sound,new,emitted,fun runIds member => ?_⟩
    obtain ⟨expired,open_,known⟩ := each runIds member
    exact ⟨⟨different,expired⟩,open_,known⟩
  cases event with
  | runLeaf prompt opts => exact runLeafSends settings ids h prompt opts
  | refreshReady =>
    unfold step
    dsimp only
    split
    · exact sendsCalm h (calmSame rfl rfl rfl)
    obtain ⟨calm,calls⟩ := requestCalm settings ids .refresh .negotiate
      (.object [(js "modelId",.string settings.modelId)]) (some (.int refreshTimeoutMs)) s
    split
    · rename_i error t asked
      rw [asked] at calm calls
      obtain ⟨sound,quiet⟩ := refuseSound settings ids regExp (soundCalls h calm.known calls) .refresh error
      exact sendsCalm sound (calmTrans calm quiet)
    · rename_i t asked
      rw [asked] at calm calls
      exact sendsCalm (soundCalls h calm.known calls) calm
  | request method params timeoutMs =>
    obtain ⟨calm,calls⟩ := requestCalm settings ids .outside method params timeoutMs s
    exact sendsCalm (soundCalls h calm.known calls) calm
  | reply number raw => exact other nofun (replySends settings ids regExp h number raw)
  | timeout number => exact other nofun (timeoutSends settings ids regExp h number)
  | wake c => exact other nofun (wakeSends settings ids h c)
  | dispose =>
    have sent := disposeSends settings ids regExp h
    obtain ⟨new,emitted,each⟩ := sent.emitted
    exact ⟨sent.sound,new,emitted,fun runIds member => absurd (each runIds member).1 not_false⟩
  | bus fails => exact sendsCalm (soundCalls h rfl rfl) (calmSame rfl rfl rfl)
  | pass ms => exact sendsCalm (soundCalls h rfl rfl) (calmSame rfl rfl rfl)

theorem runSound (events : List LeafClientEvent) : Sound (run settings ids regExp events) := by
  have each : ∀ s, Sound s → Sound (events.foldl (step settings ids regExp) s) := by
    induction events with
    | nil => exact fun s sound => sound
    | cons event rest ih => exact fun s sound => ih _ (stepSends settings ids regExp sound event).sound
  exact each {} emptySound

/-- Only when something runs out of time does a client cancel, never a disposed one nor one that
is being disposed. It then names all known runs, each of a call that has started it and has not
returned its text. -/
theorem cancelsUnreturned (events : List LeafClientEvent) (event : LeafClientEvent) :
    ∃ new, (step settings ids regExp (run settings ids regExp events) event).emitted =
        (run settings ids regExp events).emitted ++ new ∧
      ∀ runIds, Emission.cancel runIds ∈ new →
        (event ≠ .dispose ∧ Expired (run settings ids regExp events) event) ∧
        (run settings ids regExp events).disposed = false ∧
        runIds = (step settings ids regExp (run settings ids regExp events) event).startedRunIds ∧
        runIds.length ≤ maxCancelRunIds ∧
        ∀ runId ∈ runIds, ∃ call ∈ (step settings ids regExp (run settings ids regExp events) event).calls,
          call.runId = some runId ∧ call.returned = false := by
  have sent := stepSends settings ids regExp (runSound settings ids regExp events) event
  obtain ⟨new,emitted,each⟩ := sent.emitted
  refine ⟨new,emitted,fun runIds member => ?_⟩
  obtain ⟨expired,open_,known⟩ := each runIds member
  refine ⟨expired,open_,known,known ▸ sent.sound.few,fun runId named => ?_⟩
  have live := sent.sound.owned.subset (known ▸ named)
  obtain ⟨call,there,mine⟩ := List.mem_filterMap.mp live
  split at mine
  · exact absurd mine nofun
  · rename_i unreturned
    exact ⟨call,there,mine,Bool.eq_false_iff.mpr unreturned⟩

end

/- Two calls that are started; the status request of the first one is not answered. -/
def siblingSettings : LeafSettings := ⟨js "provider/model",60000⟩

def siblingIds (n : Nat) : JsString := js s!"request-{n}"

def answer (number : Nat) (method : RuntimeRpcMethod) (data : List (JsString × JsValue)) : LeafClientEvent :=
  .reply number (successEnvelope (.string (siblingIds number)) (.string (js method.wire)) (.object data))

def siblingStarts : List LeafClientEvent :=
  [.runLeaf (js "first") {},.runLeaf (js "second") {},
   answer 0 .negotiate [(js "compatible",.bool true)],answer 1 .negotiate [(js "compatible",.bool true)],
   answer 3 .start [(js "runId",.string (js "runtime_first"))],
   answer 5 .start [(js "runId",.string (js "runtime_second"))]]

def siblingRun (events : List LeafClientEvent) : LeafRuntimeClient :=
  run siblingSettings siblingIds (fun _ => true) (siblingStarts ++ events)

def cancelled (s : LeafRuntimeClient) : List (List JsString) := s.emitted.filterMap fun
  | .cancel runIds => some runIds
  | .request _ => none

def standing (s : LeafRuntimeClient) : List (Option JsString × Bool) :=
  s.calls.map fun call => (call.runId,call.outcome.isNone)

/- The second run is cancelled while its call goes on, and a disposed client cancels neither. -/
set_option maxRecDepth 16384 in
theorem siblingCancelled :
    (standing (siblingRun [.wake 0,.timeout 6]) =
        [(some (js "runtime_first"),false),(some (js "runtime_second"),true)] ∧
      cancelled (siblingRun [.wake 0,.timeout 6]) = [[js "runtime_first",js "runtime_second"]]) ∧
    (standing (siblingRun []) = [(some (js "runtime_first"),true),(some (js "runtime_second"),true)] ∧
      cancelled (siblingRun [.dispose]) = []) := by
  decide

end LeafRuntimeClient
end Northstar.Runtime
