import Northstar.Broker.Frames
import Northstar.Runtime.Protocol

/-! Frames of one stream read on both sides: readBrokerFrames (broker-transport.ts) against
read_one_frame. A body's meaning is its own decoder's; what is compared is which bodies are
cut from the stream, however its bytes arrive. -/
namespace Northstar.Runtime
open Broker (readU32 buffered framed streamed unfinished readFrames Decoded)

def decodeBrokerFrame {M : Type} (accept : Bytes → Option M) (frame : Bytes) :
    Except BrokerErrorCode M := match readU32 frame with
  | none => .error .invalidFrame
  | some size =>
      if size > brokerMaxFrameBytes then .error .frameTooLarge
      else if frame.length ≠ size + 4 then .error .invalidFrame
      else match accept (frame.drop 4) with
        | none => .error .invalidFrame
        | some message => .ok message

structure FrameReader (M : Type) where
  buffer : Bytes
  closed : Bool
  messages : List M
  errors : List BrokerErrorCode

namespace FrameReader
variable {M : Type}

def opened : FrameReader M := ⟨[],false,[],[]⟩

def fail (r : FrameReader M) (code : BrokerErrorCode) : FrameReader M :=
  if r.closed then r else { r with closed := true, errors := r.errors ++ [code] }

def deliver (r : FrameReader M) (rest : Bytes) : Except BrokerErrorCode M → FrameReader M
  | .ok message => { r with buffer := rest, messages := r.messages ++ [message] }
  | .error code => { r with buffer := rest }.fail code

/- The loop over the buffered frames; each turn takes at least the bytes of a size. -/
def drain (accept : Bytes → Option M) : Nat → FrameReader M → FrameReader M
  | 0, r => r
  | turns + 1, r => match buffered r.buffer with
      | .incomplete => r
      | .tooLarge => r.fail .frameTooLarge
      | .frame frame rest =>
          let next := r.deliver rest (decodeBrokerFrame accept frame)
          if next.closed then next else drain accept turns next

def onData (accept : Bytes → Option M) (r : FrameReader M) (chunk : Bytes) : FrameReader M :=
  if r.closed then r
  else drain accept (r.buffer ++ chunk).length { r with buffer := r.buffer ++ chunk }

/- A reader in the middle of a stream: what it holds and what is to come are the payloads
whose messages it has not delivered, and it holds no whole frame of them. -/
structure Awaits (accept : Bytes → Option M) (all : List M) (later : Bytes) (r : FrameReader M)
    (payloads : List Bytes) (messages : List M) : Prop where
  accepted : List.Forall₂ (fun payload message => accept payload = some message) payloads messages
  small : ∀ payload ∈ payloads, payload.length ≤ brokerMaxFrameBytes
  stream : r.buffer ++ later = streamed payloads
  delivered : r.messages ++ messages = all
  running : r.closed = false
  quiet : r.errors = []

theorem decodeWhole {accept : Bytes → Option M} {payload : Bytes} {message : M}
    (accepted : accept payload = some message) (small : payload.length ≤ brokerMaxFrameBytes) :
    decodeBrokerFrame accept (framed payload) = .ok message := by
  have size : readU32 (framed payload) = some payload.length := Broker.readBe32 small payload
  have body : (framed payload).drop 4 = payload := by simp [framed,Broker.be32]
  simp only [decodeBrokerFrame,size,if_neg (Nat.not_lt.mpr small),Broker.framedLength,ne_eq,not_true,
    if_false,body,accepted]

theorem drainAwaits {accept : Bytes → Option M} {all : List M} {later : Bytes} {payloads : List Bytes}
    {messages : List M} (turns : Nat) {r : FrameReader M}
    (h : Awaits accept all later r payloads messages) (enough : r.buffer.length ≤ turns) :
    ∃ payloads messages, Awaits accept all later (drain accept turns r) payloads messages ∧
      ∀ payload ∈ payloads.head?, (drain accept turns r).buffer.length < payload.length + 4 := by
  obtain ⟨accepted,small,stream,delivered,running,quiet⟩ := h
  induction accepted generalizing turns r with
  | nil =>
    have empty : r.buffer = [] := (List.append_eq_nil_iff.mp stream).1
    have incomplete : buffered r.buffer = .incomplete := by
      rw [empty]
      unfold buffered
      rfl
    have still : drain accept turns r = r := by
      cases turns with
      | zero => rfl
      | succ turns => rw [drain,incomplete]
    rw [still]
    exact ⟨[],[],⟨.nil,small,stream,delivered,running,quiet⟩,fun _ none => by contradiction⟩
  | @cons payload message payloads messages first rest ih =>
    have small' : payload.length ≤ brokerMaxFrameBytes := small payload List.mem_cons_self
    rw [streamed,List.flatMap_cons] at stream
    by_cases short : r.buffer.length < payload.length + 4
    · obtain ⟨tail,part⟩ := Broker.partOf stream short
      have still : drain accept turns r = r := by
        cases turns with
        | zero => rfl
        | succ turns => rw [drain,Broker.bufferedPart small' part short]
      rw [still]
      refine ⟨_,_,⟨.cons first rest,small,stream,delivered,running,quiet⟩,fun head same => ?_⟩
      cases same
      exact short
    · obtain ⟨tail,whole,stream'⟩ := Broker.wholeOf stream (Nat.not_lt.mp short)
      cases turns with
      | zero => omega
      | succ turns =>
        have step : drain accept (turns + 1) r =
            drain accept turns { r with buffer := tail, messages := r.messages ++ [message] } := by
          rw [drain,whole,Broker.bufferedFrame small']
          dsimp only
          rw [decodeWhole first small']
          exact if_neg (ne_true_of_eq_false running)
        rw [step]
        have fewer : tail.length ≤ turns := by
          rw [whole,List.length_append,Broker.framedLength] at enough
          omega
        have delivered' : (r.messages ++ [message]) ++ messages = all := by
          rw [List.append_assoc]
          exact delivered
        exact ih turns (r := { r with buffer := tail, messages := r.messages ++ [message] }) fewer
          (fun payload member => small payload (List.mem_cons_of_mem _ member)) stream' delivered'
          running quiet

theorem onDataAwaits {accept : Bytes → Option M} {all : List M} (chunks : List Bytes) {r : FrameReader M}
    {payloads : List Bytes} {messages : List M}
    (h : Awaits accept all chunks.flatten r payloads messages)
    (short : ∀ payload ∈ payloads.head?, r.buffer.length < payload.length + 4) :
    ∃ payloads messages, Awaits accept all [] (chunks.foldl (onData accept) r) payloads messages ∧
      ∀ payload ∈ payloads.head?,
        (chunks.foldl (onData accept) r).buffer.length < payload.length + 4 := by
  induction chunks generalizing r payloads messages with
  | nil => exact ⟨payloads,messages,h,short⟩
  | cons chunk chunks ih =>
    have stream : (r.buffer ++ chunk) ++ chunks.flatten = streamed payloads := by
      rw [List.append_assoc]
      exact h.stream
    obtain ⟨payloads',messages',awaits,short'⟩ := drainAwaits (r.buffer ++ chunk).length
      (r := { r with buffer := r.buffer ++ chunk })
      ⟨h.accepted,h.small,stream,h.delivered,h.running,h.quiet⟩ (Nat.le_refl _)
    have step : onData accept r chunk =
        drain accept (r.buffer ++ chunk).length { r with buffer := r.buffer ++ chunk } := by
      rw [onData,h.running,if_neg Bool.false_ne_true]
    rw [List.foldl_cons,step]
    exact ih awaits short'

theorem deliversAll {accept : Bytes → Option M} {payloads : List Bytes} {messages : List M}
    (accepted : List.Forall₂ (fun payload message => accept payload = some message) payloads messages)
    (small : ∀ payload ∈ payloads, payload.length ≤ brokerMaxFrameBytes) {chunks : List Bytes}
    (stream : chunks.flatten = streamed payloads) :
    (chunks.foldl (onData accept) opened).messages = messages ∧
      (chunks.foldl (onData accept) opened).errors = [] := by
  obtain ⟨left,undelivered,awaits,short⟩ := onDataAwaits (r := opened) chunks
    ⟨accepted,small,stream,List.nil_append _,rfl,rfl⟩ fun payload _ => Nat.succ_pos _
  obtain ⟨accepted',_,rest,delivered,_,quiet⟩ := awaits
  cases accepted' with
  | nil => exact ⟨by simpa using delivered,quiet⟩
  | @cons payload message payloads messages first later =>
    have below := short payload rfl
    have length := congrArg List.length rest
    rw [List.append_nil,streamed,List.flatMap_cons,List.length_append,Broker.framedLength] at length
    omega

end FrameReader

/-- The broker's reader gives exactly the payloads of a stream if and only if no reading,
together with the unfinished frame it continues, is longer than one full frame. The
executor's reader gives them for every way of cutting the stream. -/
theorem framingIndependence {M : Type} {parse : Bytes → Except Broker.FrameError Value}
    {accept : Bytes → Option M} {payloads : List Bytes} {messages : List Broker.BrokerMessage}
    {delivered : List M} (decoded : List.Forall₂ (Decoded parse) payloads messages)
    (accepted : List.Forall₂ (fun payload message => accept payload = some message) payloads delivered)
    (small : ∀ payload ∈ payloads, payload.length ≤ brokerMaxFrameBytes) {chunks : List Bytes}
    (nonempty : ∀ chunk ∈ chunks, chunk ≠ []) (stream : chunks.flatten = streamed payloads) :
    (readFrames parse (payloads.length + 1) [] (chunks.map .data) =
        messages.map (fun message => .ok (some message)) ++ [.ok none] ↔
      ∀ earlier chunk later, chunks = earlier ++ chunk :: later →
        unfinished payloads earlier.flatten.length + chunk.length ≤ Broker.brokerMaxFrameBytes + 4) ∧
      (chunks.foldl (FrameReader.onData accept) FrameReader.opened).messages = delivered ∧
      (chunks.foldl (FrameReader.onData accept) FrameReader.opened).errors = [] := by
  have exact' := Broker.readFramesExact decoded small chunks nonempty [] stream
  simp only [Broker.WithinBuffer,List.length_nil,Nat.zero_add] at exact'
  exact ⟨exact',FrameReader.deliversAll accepted small stream⟩

def queryFrame : Broker.BrokerMessage :=
  .query ⟨2,"query","token","epoch","session",1,"project",⟨"submissionReceipt","a"⟩⟩

def queryText : Bytes := queryFrame.toValue.render

/- JSON allows white space after the value. -/
def spaced (spaces : Nat) : Bytes := queryText ++ List.replicate spaces 32

def parseQuery (body : Bytes) : Except Broker.FrameError Value :=
  if (body.reverse.dropWhile (· = 32)).reverse = queryText then .ok queryFrame.toValue
  else .error .invalidFrame

def acceptQuery (body : Bytes) : Option Broker.BrokerMessage :=
  ((parseQuery body).bind Broker.decodeMessage).toOption

set_option maxRecDepth 16384 in
theorem spacedDecoded (spaces : Nat) : Decoded parseQuery (spaced spaces) queryFrame := by
  have ends : queryText.reverse.dropWhile (· = 32) = queryText.reverse := by decide
  have stripped : ((spaced spaces).reverse.dropWhile (· = 32)).reverse = queryText := by
    rw [spaced,List.reverse_append,List.reverse_replicate,List.dropWhile_append_of_pos,ends,
      List.reverse_reverse]
    intro byte member
    exact decide_eq_true (List.eq_of_mem_replicate member)
  unfold Decoded parseQuery
  rw [if_pos stripped]
  rfl

theorem spacedAccepted (spaces : Nat) : acceptQuery (spaced spaces) = some queryFrame := by
  have decoded : (parseQuery (spaced spaces)).bind Broker.decodeMessage = .ok queryFrame :=
    spacedDecoded spaces
  rw [acceptQuery,decoded]
  rfl

set_option maxRecDepth 16384 in
theorem framesFromOneReading :
    (readFrames parseQuery 3 [] ([streamed [spaced 0,spaced 1]].map .data) =
        [queryFrame,queryFrame].map (fun message => .ok (some message)) ++ [.ok none] ↔
      ∀ earlier chunk later, [streamed [spaced 0,spaced 1]] = earlier ++ chunk :: later →
        unfinished [spaced 0,spaced 1] earlier.flatten.length + chunk.length ≤
          Broker.brokerMaxFrameBytes + 4) ∧
      ([streamed [spaced 0,spaced 1]].foldl (FrameReader.onData acceptQuery) FrameReader.opened).messages =
        [queryFrame,queryFrame] ∧
      ([streamed [spaced 0,spaced 1]].foldl (FrameReader.onData acceptQuery) FrameReader.opened).errors =
        [] :=
  framingIndependence (.cons (spacedDecoded 0) (.cons (spacedDecoded 1) .nil))
    (.cons (spacedAccepted 0) (.cons (spacedAccepted 1) .nil)) (by decide) (by decide)
    (List.append_nil _)

/- A full frame read byte by byte to its last byte, which comes with the frame after it. -/
def pipelined : List Bytes := [spaced (brokerMaxFrameBytes - queryText.length),spaced 0]

def pipelinedCut : Nat := brokerMaxFrameBytes + 3

def pipelinedChunks : List Bytes :=
  ((streamed pipelined).take pipelinedCut).map (fun byte => [byte]) ++
    [(streamed pipelined).drop pipelinedCut]

set_option maxRecDepth 16384 in
theorem pipelinedSizes : (spaced (brokerMaxFrameBytes - queryText.length)).length = brokerMaxFrameBytes ∧
    (streamed pipelined).length = pipelinedCut + 1 + (queryText.length + 4) := by
  have text : queryText.length ≤ 200 := by decide
  have limit : 200 ≤ brokerMaxFrameBytes := by decide
  have full : (spaced (brokerMaxFrameBytes - queryText.length)).length = brokerMaxFrameBytes := by
    rw [spaced,List.length_append,List.length_replicate]
    omega
  refine ⟨full,?_⟩
  have plain : (spaced 0).length = queryText.length := by simp [spaced]
  simp only [pipelined,streamed,List.flatMap_cons,List.flatMap_nil,List.append_nil,List.length_append,
    Broker.framedLength,full,plain,pipelinedCut]

set_option maxRecDepth 16384 in
theorem pipelinedRefused :
    readFrames parseQuery 3 [] (pipelinedChunks.map .data) ≠
      [queryFrame,queryFrame].map (fun message => .ok (some message)) ++ [.ok none] := by
  obtain ⟨full,total⟩ := pipelinedSizes
  have small : ∀ payload ∈ pipelined, payload.length ≤ Broker.brokerMaxFrameBytes := by
    intro payload member
    rcases List.mem_cons.mp member with first | second
    · exact first ▸ Nat.le_of_eq full
    · rw [List.mem_singleton.mp second]
      decide
  have last : ((streamed pipelined).drop pipelinedCut).length = 1 + (queryText.length + 4) := by
    rw [List.length_drop,total]
    omega
  have nonempty : ∀ chunk ∈ pipelinedChunks, chunk ≠ [] := by
    intro chunk member
    rcases List.mem_append.mp member with single | rest
    · obtain ⟨byte,_,rfl⟩ := List.mem_map.mp single
      exact List.cons_ne_nil _ _
    · rw [List.mem_singleton.mp rest]
      exact List.ne_nil_of_length_pos (by omega)
  have bytes (part : Bytes) : (part.map fun byte => [byte]).flatten = part := by
    induction part with
    | nil => rfl
    | cons byte part ih => rw [List.map_cons,List.flatten_cons,ih,List.singleton_append]
  have stream : pipelinedChunks.flatten = streamed pipelined := by
    rw [pipelinedChunks,List.flatten_append,bytes,List.flatten_singleton,List.take_append_drop]
  intro given
  have within := (Broker.readFramesExact (.cons (spacedDecoded _) (.cons (spacedDecoded 0) .nil)) small
    pipelinedChunks nonempty [] ((List.nil_append _).trans stream)).mp given _ _ [] rfl
  have before : ((streamed pipelined).take pipelinedCut).length = pipelinedCut :=
    List.length_take_of_le (by omega)
  have cut : pipelinedCut = Broker.brokerMaxFrameBytes + 3 := rfl
  have inFirst : unfinished [spaced (brokerMaxFrameBytes - queryText.length),spaced 0] pipelinedCut =
      pipelinedCut := Broker.unfinishedPart (by rw [full]; exact Nat.lt_succ_self _)
  rw [bytes,List.length_nil,Nat.zero_add,before,last,inFirst] at within
  omega

end Northstar.Runtime
