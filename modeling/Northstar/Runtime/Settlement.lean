import Northstar.Runtime.Client

/-! Every promise of the broker client settles. The maps hold the open promises of one
connection; each of them is settled by a reply or by the end of the reader, unless it was
opened after that end. -/
namespace Northstar.Runtime
namespace BrokerClient

structure Core (s : BrokerClient) : Prop where
  same : s.rejectPending = s.pending
  below : ∀ entry ∈ s.pending, entry.1 ≤ s.sequence ∧ entry.2 < s.calls
  sequences : (s.pending.map (·.1)).Nodup
  promises : (s.pending.map (·.2)).Nodup
  opened : ∀ entry ∈ s.pending, entry.2 ∉ s.settled.map (·.1)
  made : ∀ entry ∈ s.settled, entry.1 < s.calls
  once : (s.settled.map (·.1)).Nodup
  every : ∀ p, p < s.calls → p ∈ s.settled.map (·.1) ∨ p ∈ s.pending.map (·.2)
  wrote : ∀ w ∈ s.written, w.promise < s.calls
  mutating : ∀ w ∈ s.written, w.mutation → ∀ entry ∈ s.pending, entry.2 = w.promise →
    entry.1 ∈ s.mutationSequences
  mutation : ∀ w ∈ s.written, w.mutation → ∀ error, (w.promise,.rejected error) ∈ s.settled →
    error.retryable = some false

def ended (s : BrokerClient) : Bool := s.readerClosed || !s.socket

structure Sound (s : BrokerClient) : Prop where
  core : Core s
  closed : s.ended → s.pending = []

/- Once the reader has ended or the client is closed, nothing is left open. -/
structure AllSettled (s : BrokerClient) : Prop where
  once : (s.settled.map (·.1)).Nodup
  nothingOpen : s.ended → s.pending = [] ∧ s.rejectPending = []
  everyPromise : s.ended → ∀ p, p < s.calls → p ∈ s.settled.map (·.1)
  mutation : ∀ w ∈ s.written, w.mutation → ∀ error, (w.promise,.rejected error) ∈ s.settled →
    error.retryable = some false

theorem Sound.allSettled {s : BrokerClient} (h : Sound s) : AllSettled s where
  once := h.core.once
  nothingOpen ended := ⟨h.closed ended,h.core.same.trans (h.closed ended)⟩
  everyPromise ended p below := by
    rcases h.core.every p below with settled | opened
    · exact settled
    · simp [h.closed ended] at opened
  mutation := h.core.mutation

theorem Core.flags {s : BrokerClient} (h : Core s) (socket : Bool) (welcome : Option Welcome)
    (handshakeError : Option BrokerErrorCode) (readerClosed destroyed : Bool) :
    Core { s with
      socket := socket, welcome := welcome, handshakeError := handshakeError,
      readerClosed := readerClosed, destroyed := destroyed } :=
  ⟨h.same,h.below,h.sequences,h.promises,h.opened,h.made,h.once,h.every,h.wrote,h.mutating,h.mutation⟩

theorem coreFail {s : BrokerClient} (h : Core s) (error : ClientError) : Core (s.fail error) := by
  have verdicts : (s.fail error).settled.map (·.1) = s.settled.map (·.1) ++ s.pending.map (·.2) := by
    simp [fail,h.same]
  exact {
    same := rfl
    below := fun entry member => by contradiction
    sequences := List.nodup_nil
    promises := List.nodup_nil
    opened := fun entry member => by contradiction
    made := fun entry member => by
      rcases List.mem_append.mp member with old | new
      · exact h.made entry old
      · obtain ⟨opened,held,rfl⟩ := List.mem_map.mp new
        exact (h.below opened (h.same ▸ held)).2
    once := by
      rw [verdicts,List.nodup_append]
      refine ⟨h.once,h.promises,fun p settled q opened same => ?_⟩
      obtain ⟨entry,held,rfl⟩ := List.mem_map.mp opened
      exact h.opened entry held (same ▸ settled)
    every := fun p below => by
      rw [verdicts]
      exact .inl (List.mem_append.mpr (h.every p below))
    wrote := h.wrote
    mutating := fun w member mutation entry held => by contradiction
    mutation := fun w member mutation reason rejected => by
      rcases List.mem_append.mp rejected with old | new
      · exact h.mutation w member mutation reason old
      · obtain ⟨entry,held,same⟩ := List.mem_map.mp new
        have promise : entry.2 = w.promise := congrArg Prod.fst same
        have known := h.mutating w member mutation entry (h.same ▸ held) promise
        have verdict : Verdict.rejected (s.rejection error entry.1) = .rejected reason :=
          congrArg Prod.snd same
        cases verdict
        simp [rejection,known,ClientError.retryable] }

theorem coreReply {s : BrokerClient} (h : Core s) (sequence : Nat) (value : JsValue)
    {mutations : List Nat} (kept : ∀ n ∈ s.mutationSequences, n ≠ sequence → n ∈ mutations) :
    Core (s.reply sequence value mutations) := by
  unfold reply
  split
  · exact h
  · rename_i promise found
    have held : (sequence,promise) ∈ s.pending := by
      obtain ⟨before,after,same,_⟩ := List.lookup_eq_some_iff.mp found
      simp [same]
    have left : ∀ entry ∈ s.pending.filter (·.1 != sequence),
        entry ∈ s.pending ∧ entry.1 ≠ sequence := by
      intro entry member
      have both := List.mem_filter.mp member
      exact ⟨both.1,by simpa using both.2⟩
    have other : ∀ entry ∈ s.pending, entry.1 ≠ sequence → entry.2 ≠ promise := by
      intro entry member different same
      exact different (congrArg Prod.fst (List.inj_on_of_nodup_map h.promises member held same))
    exact {
      same := by simp [settle,h.same]
      below := fun entry member => h.below entry (left entry member).1
      sequences := h.sequences.sublist (List.filter_sublist.map _)
      promises := h.promises.sublist (List.filter_sublist.map _)
      opened := fun entry member => by
        have both := left entry member
        simp only [settle,List.map_append,List.mem_append,List.map_cons,List.map_nil,
          List.mem_singleton,not_or]
        exact ⟨h.opened entry both.1,other entry both.1 both.2⟩
      made := fun entry member => by
        rcases List.mem_append.mp member with old | new
        · exact h.made entry old
        · rw [List.mem_singleton.mp new]
          exact (h.below _ held).2
      once := by
        simp only [settle,List.map_append,List.map_cons,List.map_nil]
        rw [List.nodup_append]
        refine ⟨h.once,by simp,fun p settled q new same => ?_⟩
        rw [List.mem_singleton.mp new] at same
        exact h.opened _ held (same ▸ settled)
      every := fun p below => by
        simp only [settle,List.map_append,List.mem_append,List.map_cons,List.map_nil,
          List.mem_singleton]
        rcases h.every p below with settled | opened
        · exact .inl (.inl settled)
        · obtain ⟨entry,member,rfl⟩ := List.mem_map.mp opened
          by_cases answered : entry.1 = sequence
          · have equal := List.inj_on_of_nodup_map h.sequences member held answered
            exact .inl (.inr (congrArg Prod.snd equal))
          · exact .inr (List.mem_map_of_mem (List.mem_filter.mpr ⟨member,by simpa using answered⟩))
      wrote := h.wrote
      mutating := fun w member mutation entry held' same => by
        have both := left entry held'
        exact kept _ (h.mutating w member mutation entry both.1 same) both.2
      mutation := fun w member mutation error rejected => by
        rcases List.mem_append.mp rejected with old | new
        · exact h.mutation w member mutation error old
        · cases List.mem_singleton.mp new }

/- A call whose promise settles at once. -/
theorem coreRefused {s : BrokerClient} (h : Core s) {sequence : Nat} (later : s.sequence ≤ sequence)
    (error : ClientError) :
    Core (settle { s with calls := s.calls + 1, sequence := sequence } s.calls (.rejected error)) := by
  have fresh : s.calls ∉ s.settled.map (·.1) := by
    intro member
    obtain ⟨entry,settled,same⟩ := List.mem_map.mp member
    have below := h.made entry settled
    omega
  exact {
    same := h.same
    below := fun entry member => by
      have old := h.below entry member
      exact ⟨Nat.le_trans old.1 later,Nat.lt_succ_of_lt old.2⟩
    sequences := h.sequences
    promises := h.promises
    opened := fun entry member => by
      simp only [settle,List.map_append,List.mem_append,List.map_cons,List.map_nil,List.mem_singleton,
        not_or]
      exact ⟨h.opened entry member,Nat.ne_of_lt (h.below entry member).2⟩
    made := fun entry member => by
      rcases List.mem_append.mp member with old | new
      · exact Nat.lt_succ_of_lt (h.made entry old)
      · rw [List.mem_singleton.mp new]
        exact Nat.lt_succ_self _
    once := by
      simp only [settle,List.map_append,List.map_cons,List.map_nil]
      rw [List.nodup_append]
      refine ⟨h.once,by simp,fun p settled q new same => ?_⟩
      rw [List.mem_singleton.mp new] at same
      exact fresh (same ▸ settled)
    every := fun p below => by
      simp only [settle,List.map_append,List.mem_append,List.map_cons,List.map_nil,List.mem_singleton]
      by_cases same : p = s.calls
      · exact .inl (.inr same)
      · have old : p < s.calls := Nat.lt_of_le_of_ne (Nat.le_of_lt_succ below) same
        rcases h.every p old with settled | opened
        · exact .inl (.inl settled)
        · exact .inr opened
    wrote := fun w member => Nat.lt_succ_of_lt (h.wrote w member)
    mutating := h.mutating
    mutation := fun w member mutation reason rejected => by
      rcases List.mem_append.mp rejected with old | new
      · exact h.mutation w member mutation reason old
      · have same : w.promise = s.calls := congrArg Prod.fst (List.mem_singleton.mp new)
        have below := h.wrote w member
        omega }

/- A call whose frame is written opens an entry under the next sequence number. -/
theorem coreSent {s : BrokerClient} (h : Core s) (mutation : Bool) (frame : Bytes) :
    Core { s with
      calls := s.calls + 1
      sequence := s.sequence + 1
      pending := s.pending ++ [(s.sequence + 1,s.calls)]
      rejectPending := s.rejectPending ++ [(s.sequence + 1,s.calls)]
      mutationSequences :=
        if mutation then s.mutationSequences ++ [s.sequence + 1] else s.mutationSequences
      written := s.written ++ [⟨s.calls,s.sequence + 1,mutation,frame⟩] } where
  same := by rw [h.same]
  below entry member := by
    rcases List.mem_append.mp member with old | new
    · have low := h.below entry old
      exact ⟨Nat.le_succ_of_le low.1,Nat.lt_succ_of_lt low.2⟩
    · rw [List.mem_singleton.mp new]
      exact ⟨Nat.le_refl _,Nat.lt_succ_self _⟩
  sequences := by
    rw [List.map_append,List.nodup_append]
    refine ⟨h.sequences,by simp,fun n old m new same => ?_⟩
    obtain ⟨entry,member,rfl⟩ := List.mem_map.mp old
    have low := (h.below entry member).1
    simp only [List.map_cons,List.map_nil,List.mem_singleton] at new
    omega
  promises := by
    rw [List.map_append,List.nodup_append]
    refine ⟨h.promises,by simp,fun n old m new same => ?_⟩
    obtain ⟨entry,member,rfl⟩ := List.mem_map.mp old
    have low := (h.below entry member).2
    simp only [List.map_cons,List.map_nil,List.mem_singleton] at new
    omega
  opened entry member := by
    rcases List.mem_append.mp member with old | new
    · exact h.opened entry old
    · rw [List.mem_singleton.mp new]
      intro settled
      obtain ⟨verdict,held,same⟩ := List.mem_map.mp settled
      have low := h.made verdict held
      dsimp only at same
      omega
  made entry member := Nat.lt_succ_of_lt (h.made entry member)
  once := h.once
  every p below := by
    rw [List.map_append,List.mem_append]
    by_cases same : p = s.calls
    · exact .inr (.inr (by simp [same]))
    · rcases h.every p (Nat.lt_of_le_of_ne (Nat.le_of_lt_succ below) same) with settled | opened
      · exact .inl settled
      · exact .inr (.inl opened)
  wrote w member := by
    rcases List.mem_append.mp member with old | new
    · exact Nat.lt_succ_of_lt (h.wrote w old)
    · rw [List.mem_singleton.mp new]
      exact Nat.lt_succ_self _
  mutating w member mutates entry held same := by
    rcases List.mem_append.mp member with old | new
    · rcases List.mem_append.mp held with earlier | added
      · have known := h.mutating w old mutates entry earlier same
        split
        · exact List.mem_append_left _ known
        · exact known
      · have low := h.wrote w old
        rw [List.mem_singleton.mp added] at same
        dsimp only at same
        omega
    · rw [List.mem_singleton.mp new] at mutates same
      rcases List.mem_append.mp held with earlier | added
      · have low := (h.below entry earlier).2
        dsimp only at same
        omega
      · rw [List.mem_singleton.mp added]
        simp [show mutation = true from mutates]
  mutation w member mutates error rejected := by
    rcases List.mem_append.mp member with old | new
    · exact h.mutation w old mutates error rejected
    · rw [List.mem_singleton.mp new] at rejected
      have low := h.made _ rejected
      exact absurd low (Nat.lt_irrefl _)

/- A call that passes its local checks and fits its frame, after the reader has ended. -/
def strands (options : ClientOptions) (s : BrokerClient) : ClientEvent → Bool
  | .call c => s.readerClosed && s.socket && s.welcome.any fun welcome =>
      match admission options welcome c with
      | .error _ => false
      | .ok outgoing => match encodeBrokerFrame (outgoing.message (s.sequence + 1)) with
          | .error _ => false
          | .ok _ => true
  | _ => false

theorem soundCall {options : ClientOptions} {s : BrokerClient} (h : Sound s) {c : Call}
    (proper : strands options s (.call c) = false) : Sound (s.call options c) := by
  unfold BrokerClient.call
  dsimp only
  split
  · rename_i welcome socket welcomed
    split
    · exact ⟨coreRefused h.core (Nat.le_refl _) _,h.closed⟩
    · rename_i outgoing admitted
      unfold send
      dsimp only
      split
      · exact ⟨coreRefused h.core (Nat.le_succ _) _,h.closed⟩
      · rename_i frame encoded
        have socket : s.socket = true := socket
        have welcomed : s.welcome = some welcome := welcomed
        simp only [strands,socket,welcomed,Option.any_some,admitted,encoded,Bool.and_true] at proper
        refine ⟨coreSent h.core outgoing.mutation frame,fun closed => ?_⟩
        simp [ended,proper,socket] at closed
  · exact ⟨coreRefused h.core (Nat.le_refl _) _,h.closed⟩

theorem soundFail {s : BrokerClient} (h : Core s) (error : ClientError) : Sound (s.fail error) :=
  ⟨coreFail h error,fun _ => rfl⟩

theorem soundReply {s : BrokerClient} (h : Sound s) (sequence : Nat) (value : JsValue)
    {mutations : List Nat} (kept : ∀ n ∈ s.mutationSequences, n ≠ sequence → n ∈ mutations) :
    Sound (s.reply sequence value mutations) := by
  refine ⟨coreReply h.core sequence value kept,?_⟩
  unfold reply
  split
  · exact h.closed
  · intro ended
    have none := h.closed ended
    simp [settle,none]

theorem soundMessage {options : ClientOptions} {s : BrokerClient} (h : Sound s) (now : Int)
    (m : Incoming) : Sound (s.onMessage options now m) := by
  have refused : ∀ code, Sound (s.refuse code) := fun code =>
    ⟨coreFail (h.core.flags s.socket s.welcome (some code) s.readerClosed s.destroyed) _ |>.flags
      _ _ _ _ true,fun _ => rfl⟩
  unfold onMessage
  split
  · cases m with
    | error code => exact refused code
    | welcome message =>
      dsimp only
      split
      · exact refused _
      · split
        · exact refused _
        · exact ⟨h.core.flags _ _ _ _ _,h.closed⟩
    | response sequence reply => exact refused _
    | queryResponse sequence receipt => exact refused _
    | other => exact refused _
  · cases m with
    | error code => exact ⟨(coreFail h.core _).flags _ _ _ _ true,fun _ => rfl⟩
    | response sequence reply =>
      exact soundReply h sequence reply fun n member other =>
        List.mem_filter.mpr ⟨member,by simpa using other⟩
    | queryResponse sequence receipt => exact soundReply h sequence receipt fun n member _ => member
    | welcome message => exact h
    | other => exact h

theorem soundReaderFail {s : BrokerClient} (h : Sound s) (code : BrokerErrorCode) :
    Sound (s.readerFail code) := by
  unfold readerFail
  split
  · exact h
  · exact soundFail (h.core.flags _ _ _ _ _) _

theorem soundFrames {options : ClientOptions} {s : BrokerClient} (h : Sound s) (now : Int)
    (frames : List (Except BrokerErrorCode Incoming)) : Sound (s.onFrames options now frames) := by
  induction frames generalizing s with
  | nil => exact h
  | cons frame rest ih =>
    cases frame with
    | error code => exact soundReaderFail h code
    | ok message => exact ih (soundMessage h now message)

theorem soundStep {options : ClientOptions} {s : BrokerClient} {e : ClientEvent} (h : Sound s)
    (proper : strands options s e = false) : Sound (clientStep options s e) := by
  cases e with
  | call c => exact soundCall h proper
  | close => exact soundFail (h.core.flags _ _ _ _ _) _
  | data frames now =>
    simp only [clientStep]
    split
    · exact h
    · exact soundFrames h now frames
  | socketEnd => exact soundReaderFail h _

theorem soundConnected : Sound .connected where
  core := {
    same := rfl
    below := fun entry member => by contradiction
    sequences := List.nodup_nil
    promises := List.nodup_nil
    opened := fun entry member => by contradiction
    made := fun entry member => by contradiction
    once := List.nodup_nil
    every := fun p below => by contradiction
    wrote := fun w member => by contradiction
    mutating := fun w member => by contradiction
    mutation := fun w member => by contradiction }
  closed _ := rfl

end BrokerClient

open BrokerClient

/-- In every run where no call that passes its local checks is made after the reader has
ended and before the client is closed, every promise settles exactly once by then. -/
theorem promisesSettle (options : ClientOptions) (events : List ClientEvent)
    (proper : Meets (fun s e => strands options s e = false) (clientStep options) .connected events) :
    AllSettled (events.foldl (clientStep options) .connected) :=
  (runUnder soundConnected (fun _ _ h meets => BrokerClient.soundStep h meets) events proper).allSettled

def cliOptions : ClientOptions := ⟨js "project",js "northstar-cli",[.start,.status]⟩

def cliWelcome : Welcome :=
  ⟨js "epoch",js "northstar-cli",js "session",js "token",60000,[.start,.status],js "project"⟩

def answered : List ClientEvent :=
  [.data [.ok (.welcome cliWelcome)] 0,.call (.querySubmission (js "a")),
    .call (.querySubmission (js "b")),.data [.ok (.queryResponse 1 .null)] 1,.socketEnd,.close]

set_option maxRecDepth 16384 in
theorem answeredThenClosed : AllSettled (answered.foldl (clientStep cliOptions) .connected) :=
  promisesSettle cliOptions answered (by decide)

/- A malformed frame ends the reader; the socket and the welcome stay, and a later call
opens an entry that nothing answers. -/
def lateCall : List ClientEvent :=
  [.data [.ok (.welcome cliWelcome),.error .invalidFrame] 0,.call (.querySubmission (js "a")),.socketEnd]

set_option maxRecDepth 16384 in
theorem lateCallHangs : ¬AllSettled (lateCall.foldl (clientStep cliOptions) .connected) := by
  intro h
  have ended : (lateCall.foldl (clientStep cliOptions) .connected).ended = true ∧
      (lateCall.foldl (clientStep cliOptions) .connected).pending = [(1,0)] := by decide
  have none := (h.nothingOpen ended.1).1
  exact absurd (ended.2.symm.trans none) (List.cons_ne_nil _ _)

end Northstar.Runtime
