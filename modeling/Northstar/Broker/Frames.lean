import Northstar.Broker.Protocol

/-! The frames of a connection's byte stream as the broker reads them (read_one_frame in
main.rs, decode_frame in frame.rs). The size guard after a read is on all bytes held, not on
the frame they begin, so bytes pipelined behind a large frame can trip it. -/
namespace Northstar.Broker

def readU32 : Bytes → Option Nat
  | a :: b :: c :: d :: _ =>
      some (a.toNat * 2^24 + b.toNat * 2^16 + c.toNat * 2^8 + d.toNat)
  | _ => none

inductive Buffered where
  | tooLarge
  | incomplete
  | frame (frame rest : Bytes)

/- What stands at the head of the bytes held. -/
@[irreducible] def buffered (buf : Bytes) : Buffered := match readU32 buf with
  | none => .incomplete
  | some size =>
      if size > brokerMaxFrameBytes then .tooLarge
      else if buf.length ≥ 4 + size then .frame (buf.take (4 + size)) (buf.drop (4 + size))
      else .incomplete

@[irreducible] def decodeFrame (parse : Bytes → Except FrameError Value) (frame : Bytes) :
    Except FrameError BrokerMessage := match readU32 frame with
  | none => .error .invalidFrame
  | some size =>
      if size > brokerMaxFrameBytes then .error .tooLarge
      else if frame.length ≠ size + 4 then .error .invalidFrame
      else (parse (frame.drop 4)).bind decodeMessage

inductive Reading where
  | data (bytes : Bytes)
  | interrupted
  | failed (error : String)

abbrev FrameResult := Except String (Option BrokerMessage)

/- The guard on the bytes held after a read. -/
def overfull (buf : Bytes) : Bool := decide (buf.length > brokerMaxFrameBytes + 4)

def frameResult : Except FrameError BrokerMessage → FrameResult
  | .ok message => .ok (some message)
  | .error _ => .error "invalid_frame"

/- The frame at the head of the buffer, if it is complete or too large. -/
def headFrame (parse : Bytes → Except FrameError Value) (buf : Bytes) : Option (FrameResult × Bytes) :=
  match buffered buf with
  | .tooLarge => some (.error "frame_too_large",buf)
  | .incomplete => none
  | .frame frame rest => some (frameResult (decodeFrame parse frame),rest)

/- The end of the stream is clean between frames only. -/
def ended (buf : Bytes) : FrameResult := if buf.isEmpty then .ok none else .error "invalid_frame"

/- What one reading makes of the buffer, and the result it ends the call with, if any. A
reading of no bytes is the end of the stream. -/
def receive (buf : Bytes) : Reading → Option FrameResult × Bytes
  | .data [] => (some (ended buf),buf)
  | .data bytes =>
      (if overfull (buf ++ bytes) then some (.error "frame_too_large") else none,buf ++ bytes)
  | .interrupted => (none,buf)
  | .failed error => (some (.error error),buf)

/- One call: its result, the bytes it leaves in the buffer and the readings still to come. -/
def readOneFrame (parse : Bytes → Except FrameError Value) (buf : Bytes) :
    List Reading → FrameResult × Bytes × List Reading
  | [] => match headFrame parse buf with
      | some (result,rest) => (result,rest,[])
      | none => (ended buf,buf,[])
  | reading :: later => match headFrame parse buf with
      | some (result,rest) => (result,rest,reading :: later)
      | none => match receive buf reading with
          | (some result,buf) => (result,buf,later)
          | (none,buf) => readOneFrame parse buf later

/- Repeated calls on one connection; the first that gives no message is the last. -/
def readFrames (parse : Bytes → Except FrameError Value) :
    Nat → Bytes → List Reading → List FrameResult
  | 0, _, _ => []
  | calls + 1, buf, readings =>
      let (result,buf,readings) := readOneFrame parse buf readings
      result :: match result with
        | .ok (some _) => readFrames parse calls buf readings
        | _ => []

/- A payload as encode_frame lays it out. -/
def framed (payload : Bytes) : Bytes := be32 payload.length ++ payload

def streamed (payloads : List Bytes) : Bytes := payloads.flatMap framed

/- The bytes of the frame that is unfinished at a position of the stream. -/
def unfinished : List Bytes → Nat → Nat
  | [], position => position
  | payload :: rest, position =>
      if position < payload.length + 4 then position
      else unfinished rest (position - (payload.length + 4))

theorem readBe32 {n : Nat} (small : n ≤ brokerMaxFrameBytes) (rest : Bytes) :
    readU32 (be32 n ++ rest) = some n := by
  have bound : n ≤ 262144 := small
  simp only [be32,List.cons_append,List.nil_append,readU32,UInt8.toNat_ofNat',Option.some.injEq]
  omega

@[simp] theorem framedLength (payload : Bytes) : (framed payload).length = payload.length + 4 := by
  simp [framed,be32]

theorem bufferedFrame {payload : Bytes} (small : payload.length ≤ brokerMaxFrameBytes) (rest : Bytes) :
    buffered (framed payload ++ rest) = .frame (framed payload) rest := by
  have size : readU32 (framed payload ++ rest) = some payload.length := by
    rw [framed,List.append_assoc]
    exact readBe32 small _
  have length : 4 + payload.length = (framed payload).length := by rw [framedLength,Nat.add_comm]
  simp only [buffered,size,if_neg (Nat.not_lt.mpr small),length,List.length_append]
  rw [if_pos (Nat.le_add_right _ _),List.take_left,List.drop_left]

/- A proper part of a frame holds no frame. -/
theorem bufferedPart {payload buf later : Bytes} (small : payload.length ≤ brokerMaxFrameBytes)
    (part : buf ++ later = framed payload) (short : buf.length < payload.length + 4) :
    buffered buf = .incomplete := by
  unfold buffered
  cases size : readU32 buf with
  | none => rfl
  | some n =>
    have same : n = payload.length := by
      have whole : readU32 (buf ++ later) = some n := by
        unfold readU32 at size
        split at size <;> try contradiction
        rw [← size]
        rfl
      rw [part,framed,readBe32 small] at whole
      exact (Option.some.inj whole).symm
    subst same
    dsimp only
    rw [if_neg (Nat.not_lt.mpr small),if_neg (by omega)]

theorem decodeFramed {parse : Bytes → Except FrameError Value} {payload : Bytes}
    (small : payload.length ≤ brokerMaxFrameBytes) :
    decodeFrame parse (framed payload) = (parse payload).bind decodeMessage := by
  have size : readU32 (framed payload) = some payload.length := readBe32 small payload
  have body : (framed payload).drop 4 = payload := by simp [framed,be32]
  simp only [decodeFrame,size,if_neg (Nat.not_lt.mpr small),framedLength,ne_eq,not_true,if_false,body]

def Decoded (parse : Bytes → Except FrameError Value) (payload : Bytes) (message : BrokerMessage) :
    Prop := (parse payload).bind decodeMessage = .ok message

theorem partOf {payload buf later stream : Bytes} (same : buf ++ later = framed payload ++ stream)
    (short : buf.length < payload.length + 4) : ∃ tail, buf ++ tail = framed payload := by
  rcases List.append_eq_append_iff.mp same with ⟨tail,whole,_⟩ | ⟨tail,whole,_⟩
  · exact ⟨tail,whole.symm⟩
  · rw [whole,List.length_append,framedLength] at short
    omega

theorem wholeOf {payload buf later stream : Bytes} (same : buf ++ later = framed payload ++ stream)
    (long : payload.length + 4 ≤ buf.length) :
    ∃ tail, buf = framed payload ++ tail ∧ tail ++ later = stream := by
  rcases List.append_eq_append_iff.mp same with ⟨tail,whole,rest⟩ | ⟨tail,whole,rest⟩
  · have none : tail = [] := by
      have length := congrArg List.length whole
      rw [framedLength,List.length_append] at length
      exact List.eq_nil_of_length_eq_zero (by omega)
    subst none
    exact ⟨[],by simpa using whole.symm,rest⟩
  · exact ⟨tail,whole,rest.symm⟩

/- Every reading, with the unfinished frame it adds to, stays within one full frame. -/
def WithinBuffer (payloads : List Bytes) (held : Nat) (chunks : List Bytes) : Prop :=
  ∀ earlier chunk later, chunks = earlier ++ chunk :: later →
    unfinished payloads (held + earlier.flatten.length) + chunk.length ≤ brokerMaxFrameBytes + 4

theorem withinCons {payloads : List Bytes} {held : Nat} {chunk : Bytes} {chunks : List Bytes} :
    WithinBuffer payloads held (chunk :: chunks) ↔
      unfinished payloads held + chunk.length ≤ brokerMaxFrameBytes + 4 ∧
        WithinBuffer payloads (held + chunk.length) chunks := by
  constructor
  · intro h
    refine ⟨h [] chunk chunks rfl,fun earlier next later same => ?_⟩
    have step := h (chunk :: earlier) next later (congrArg _ same)
    rwa [List.flatten_cons,List.length_append,← Nat.add_assoc] at step
  · intro ⟨first,rest⟩ earlier next later same
    cases earlier with
    | nil =>
      obtain ⟨rfl,_⟩ := List.cons.inj same
      exact first
    | cons head tail =>
      obtain ⟨rfl,same'⟩ := List.cons.inj same
      have step := rest tail next later same'
      rwa [List.flatten_cons,List.length_append,← Nat.add_assoc]

theorem headWhole {parse : Bytes → Except FrameError Value} {payload : Bytes}
    {message : BrokerMessage} (decoded : Decoded parse payload message)
    (small : payload.length ≤ brokerMaxFrameBytes) (rest : Bytes) :
    headFrame parse (framed payload ++ rest) = some (.ok (some message),rest) := by
  have decoded' : decodeFrame parse (framed payload) = .ok message := (decodeFramed small).trans decoded
  rw [headFrame,bufferedFrame small]
  exact congrArg (fun decoded => some (frameResult decoded,rest)) decoded'

theorem readHead {parse : Bytes → Except FrameError Value} {buf rest : Bytes} {result : FrameResult}
    (head : headFrame parse buf = some (result,rest)) (readings : List Reading) :
    readOneFrame parse buf readings = (result,rest,readings) := by
  cases readings <;> simp only [readOneFrame,head]

/- A call over a whole frame gives its message, and the rest of the stream is left. -/
theorem readFramesWhole {parse : Bytes → Except FrameError Value} {payload : Bytes}
    {message : BrokerMessage} (decoded : Decoded parse payload message)
    (small : payload.length ≤ brokerMaxFrameBytes) (calls : Nat) (rest : Bytes)
    (readings : List Reading) :
    readFrames parse (calls + 1) (framed payload ++ rest) readings =
      .ok (some message) :: readFrames parse calls rest readings := by
  rw [readFrames,readHead (headWhole decoded small rest)]

/- A reading into part of a frame either ends the call or is waited through. -/
theorem readFramesPart {parse : Bytes → Except FrameError Value} {buf chunk : Bytes}
    (part : headFrame parse buf = none) (some' : chunk ≠ []) (calls : Nat) (later : List Reading) :
    readFrames parse (calls + 1) buf (.data chunk :: later) =
      if overfull (buf ++ chunk) then [.error "frame_too_large"]
      else readFrames parse (calls + 1) (buf ++ chunk) later := by
  cases chunk with
  | nil => exact absurd rfl some'
  | cons byte bytes =>
    have received : receive buf (.data (byte :: bytes)) =
        (if overfull (buf ++ byte :: bytes) then some (.error "frame_too_large") else none,
          buf ++ byte :: bytes) := rfl
    cases full : overfull (buf ++ byte :: bytes) <;>
      simp [readFrames,readOneFrame,part,received,full]

theorem headPart {parse : Bytes → Except FrameError Value} {buf : Bytes}
    (part : buffered buf = .incomplete) : headFrame parse buf = none := by
  rw [headFrame,part]

theorem readFramesEnded {parse : Bytes → Except FrameError Value} {payloads : List Bytes}
    {messages : List BrokerMessage} (decoded : List.Forall₂ (Decoded parse) payloads messages)
    (small : ∀ payload ∈ payloads, payload.length ≤ brokerMaxFrameBytes) :
    readFrames parse (payloads.length + 1) (streamed payloads) [] =
      messages.map (fun message => .ok (some message)) ++ [.ok none] := by
  induction decoded with
  | nil =>
    have empty : buffered [] = .incomplete := by
      unfold buffered
      rfl
    simp only [streamed,List.flatMap_nil,readFrames,readOneFrame,headPart empty]
    rfl
  | @cons payload message payloads messages first rest ih =>
    have later := ih fun payload member => small payload (List.mem_cons_of_mem _ member)
    rw [List.length_cons,streamed,List.flatMap_cons,readFramesWhole first (small payload List.mem_cons_self)]
    exact congrArg _ later

theorem unfinishedPart {payload : Bytes} {payloads : List Bytes} {held : Nat}
    (short : held < payload.length + 4) : unfinished (payload :: payloads) held = held :=
  if_pos short

theorem unfinishedWhole (payload : Bytes) (payloads : List Bytes) (position : Nat) :
    unfinished (payload :: payloads) (payload.length + 4 + position) = unfinished payloads position := by
  rw [unfinished,if_neg (by omega),Nat.add_sub_cancel_left]

theorem withinWhole (payload : Bytes) (payloads : List Bytes) (held : Nat) (chunks : List Bytes) :
    WithinBuffer (payload :: payloads) (payload.length + 4 + held) chunks ↔
      WithinBuffer payloads held chunks := by
  simp only [WithinBuffer,Nat.add_assoc (payload.length + 4),unfinishedWhole]

theorem readFramesExact {parse : Bytes → Except FrameError Value} {payloads : List Bytes}
    {messages : List BrokerMessage} (decoded : List.Forall₂ (Decoded parse) payloads messages)
    (small : ∀ payload ∈ payloads, payload.length ≤ brokerMaxFrameBytes) (chunks : List Bytes)
    (nonempty : ∀ chunk ∈ chunks, chunk ≠ []) (buf : Bytes)
    (stream : buf ++ chunks.flatten = streamed payloads) :
    readFrames parse (payloads.length + 1) buf (chunks.map .data) =
        messages.map (fun message => .ok (some message)) ++ [.ok none] ↔
      WithinBuffer payloads buf.length chunks := by
  induction chunks generalizing payloads messages buf with
  | nil =>
    have whole : buf = streamed payloads := by simpa using stream
    subst whole
    refine ⟨fun _ earlier chunk later same => ?_,fun _ => readFramesEnded decoded small⟩
    exact absurd same.symm (by simp)
  | cons chunk chunks later =>
    have some' : chunk ≠ [] := nonempty chunk List.mem_cons_self
    induction decoded generalizing buf with
    | nil =>
      rw [streamed,List.flatMap_nil,List.flatten_cons] at stream
      exact absurd (List.append_eq_nil_iff.mp (List.append_eq_nil_iff.mp stream).2).1 some'
    | @cons payload message payloads messages first rest ih =>
      have small' : payload.length ≤ brokerMaxFrameBytes := small payload List.mem_cons_self
      by_cases short : buf.length < payload.length + 4
      · obtain ⟨tail,part⟩ := partOf stream short
        rw [List.map_cons,readFramesPart (headPart (bufferedPart small' part short)) some',
          withinCons,unfinishedPart short]
        have held : (buf ++ chunk).length = buf.length + chunk.length := List.length_append
        by_cases full : buf.length + chunk.length ≤ brokerMaxFrameBytes + 4
        · have room : overfull (buf ++ chunk) = false := by
            rw [overfull,held]
            exact decide_eq_false (Nat.not_lt.mpr full)
          have next := later (.cons first rest) small
            (fun chunk member => nonempty chunk (List.mem_cons_of_mem _ member)) (buf ++ chunk)
            (by rw [List.append_assoc]; exact stream)
          rw [room,if_neg Bool.false_ne_true,and_iff_right full,← held]
          exact next
        · have spilt : overfull (buf ++ chunk) = true := by
            rw [overfull,held]
            exact decide_eq_true (Nat.not_le.mp full)
          rw [spilt,if_pos rfl,List.map_cons,List.cons_append,List.cons.injEq]
          exact ⟨fun same => by simp at same,fun within => absurd within.1 full⟩
      · obtain ⟨tail,whole,stream'⟩ := wholeOf stream (Nat.not_lt.mp short)
        subst whole
        have next := ih (fun payload member => small payload (List.mem_cons_of_mem _ member)) tail stream'
        rw [List.length_cons,readFramesWhole first small',List.map_cons (l := messages),List.cons_append,
          List.cons.injEq,List.length_append,framedLength,withinWhole]
        exact (and_iff_right rfl).trans next

end Northstar.Broker
