import Northstar.Json
import Northstar.Pieces

/-! What the agent-browser child writes (agent-browser-process.ts): its output is counted and capped chunk by
chunk, each decoded on its own, and parsed when the child closes. -/
namespace Northstar.Browser
open Utf8 Pieces

inductive OutputStream where
  | stdout
  | stderr
  deriving DecidableEq, Repr

def maxStdoutBytes : Nat := 5000000
def maxStderrBytes : Nat := 1000000
def combinedHardCap : Nat := 5500000

structure OutputTracker where
  stdoutBytes : Nat := 0
  stderrBytes : Nat := 0
  stdout : JsString := []
  stderr : JsString := []
  capped : Bool := false
  deriving DecidableEq, Repr

def OutputTracker.counted (tracker : OutputTracker) : OutputStream → Nat
  | .stdout => tracker.stdoutBytes
  | .stderr => tracker.stderrBytes

def OutputTracker.over (tracker : OutputTracker) (stream : OutputStream) (bytes cap : Nat) : Bool :=
  tracker.counted stream + bytes > cap || tracker.stdoutBytes + tracker.stderrBytes + bytes > combinedHardCap

def OutputTracker.take (tracker : OutputTracker) (text : JsString) (stopped : Bool) : OutputStream → OutputTracker
  | .stdout => { tracker with
      stdout := tracker.stdout ++ text
      stdoutBytes := tracker.stdoutBytes + byteLength text
      capped := tracker.capped || stopped }
  | .stderr => { tracker with
      stderr := tracker.stderr ++ text
      stderrBytes := tracker.stderrBytes + byteLength text
      capped := tracker.capped || stopped }

def append (stream : OutputStream) (chunk : Bytes) (cap : Nat) (tracker : OutputTracker) : OutputTracker :=
  let bytes := chunk.length
  -- A difference below zero allows nothing.
  let allowed := min bytes (min (cap - tracker.counted stream) (combinedHardCap - tracker.stdoutBytes - tracker.stderrBytes))
  tracker.take (decode (chunk.take allowed)) (tracker.over stream bytes cap) stream

abbrev Chunk := OutputStream × Bytes

def capOf : OutputStream → Nat
  | .stdout => maxStdoutBytes
  | .stderr => maxStderrBytes

def onData (tracker : OutputTracker) (chunk : Chunk) : OutputTracker := append chunk.1 chunk.2 (capOf chunk.1) tracker

def trackOutput (chunks : List Chunk) : OutputTracker := chunks.foldl onData {}

def hasKey (value : JsValue) (key : String) : Bool := match value with
  | .object fields => fields.any (·.1 = js key)
  | _ => false

/- A record without data has its result, or the result within it, as data. -/
def withData (record : JsValue) : JsValue := match record with
  | .object fields => match record.get "data" with
      | .undefined =>
          if hasKey record "result" then
            let result := record.get "result"
            let data := if hasKey result "result" then result.get "result" else result
            .object (fields.filter (·.1 ≠ js "result") ++ [(js "data",data)])
          else record
      | _ => record
  | other => other

def isEnvelope (entry : JsValue) : Bool := match entry.get "success" with
  | .bool _ => true
  | _ => false

section
variable (numerals : Json.Numerals)

def parseLine (line : JsString) : Option JsValue :=
  if trim line = [] then none
  else match Json.parse numerals (trim line) with
    | some parsed => if hasKey parsed "success" then some (withData parsed) else none
    | none => none

def parseAgentBrowserOutput (stdout : JsString) : List JsValue :=
  let trimmedOutput := trim stdout
  let lines := (trimmedOutput.splitOn 10).filterMap (parseLine numerals)
  if trimmedOutput.head? = some 91 then
    match Json.parse numerals trimmedOutput with
    | some (.array items) => (items.filter isEnvelope).map withData
    | _ => lines
  else lines

/- What runCommand parses when the child closes; a capped output is not parsed. -/
def parsedOnClose (tracker : OutputTracker) : Option (List JsValue) :=
  if tracker.capped then none
  else if trim tracker.stdout = [] then some []
  else some (parseAgentBrowserOutput numerals tracker.stdout)

theorem parseBlank {stdout : JsString} (blank : trim stdout = []) : parseAgentBrowserOutput numerals stdout = [] := by
  unfold parseAgentBrowserOutput
  rw [blank]
  rfl

end

def received (stream : OutputStream) (chunks : List Chunk) : List Bytes :=
  (chunks.filter (·.1 = stream)).map (·.2)

/- The bytes a stream brought and those counted for what was read from its pieces. -/
def brought (stream : OutputStream) (chunks : List Chunk) : Nat := (received stream chunks).flatten.length

def readBytes (stream : OutputStream) (chunks : List Chunk) : Nat :=
  ((received stream chunks).map fun chunk => byteLength (decode chunk)).sum

theorem receivedLast (stream : OutputStream) (chunks : List Chunk) (chunk : Chunk) : received stream (chunks ++ [chunk]) =
    if chunk.1 = stream then received stream chunks ++ [chunk.2] else received stream chunks := by
  unfold received
  rw [List.filter_append,List.map_append]
  by_cases same : chunk.1 = stream <;> simp [same]

theorem appendFits {stream : OutputStream} {chunk : Bytes} {cap : Nat} {tracker : OutputTracker}
    (fits : tracker.over stream chunk.length cap = false) : append stream chunk cap tracker = tracker.take (decode chunk) false stream := by
  have within := fits
  unfold OutputTracker.over at within
  simp only [Bool.or_eq_false_iff,decide_eq_false_iff_not,Nat.not_lt] at within
  unfold append
  dsimp only
  rw [fits,List.take_of_length_le (by omega)]

theorem takeCapped (tracker : OutputTracker) (text : JsString) (stopped : Bool) (stream : OutputStream) :
    (tracker.take text stopped stream).capped = (tracker.capped || stopped) := by
  cases stream <;> rfl

def readWhole (chunks : List Chunk) : OutputTracker where
  stdoutBytes := readBytes .stdout chunks
  stderrBytes := readBytes .stderr chunks
  stdout := (received .stdout chunks).flatMap decode
  stderr := (received .stderr chunks).flatMap decode

theorem readLast (chunks : List Chunk) (chunk : Chunk) :
    readWhole (chunks ++ [chunk]) = (readWhole chunks).take (decode chunk.2) false chunk.1 := by
  obtain ⟨stream,bytes⟩ := chunk
  cases stream <;> simp [readWhole,readBytes,receivedLast,OutputTracker.take]

/- As long as nothing was capped, every chunk was read whole. -/
theorem uncappedRead {chunks : List Chunk} (free : (trackOutput chunks).capped = false) : trackOutput chunks = readWhole chunks := by
  induction chunks using List.reverseRecOn with
  | nil => rfl
  | append_singleton chunks chunk ih =>
    have last : trackOutput (chunks ++ [chunk]) = onData (trackOutput chunks) chunk := List.foldl_concat _ _ _ _
    rw [last,onData,append,takeCapped,Bool.or_eq_false_iff] at free
    rw [last,onData,appendFits free.2,readLast,ih free.1]

theorem sumTight {α : Type} {f g : α → Nat} {items : List α} (least : ∀ x ∈ items, f x ≤ g x) (same : (items.map g).sum = (items.map f).sum) :
    ∀ x ∈ items, g x = f x := by
  induction items with
  | nil => exact nofun
  | cons x rest ih =>
    have later := fun y (member : y ∈ rest) => least y (List.mem_cons_of_mem _ member)
    have here := least x List.mem_cons_self
    have sums := List.sum_le_sum later
    rw [List.map_cons,List.map_cons,List.sum_cons,List.sum_cons] at same
    intro y member
    rcases List.mem_cons.mp member with rfl | inside
    · omega
    · exact ih later (by omega) y inside

theorem readLeast (stream : OutputStream) (chunks : List Chunk) : brought stream chunks ≤ readBytes stream chunks := by
  unfold brought readBytes
  rw [List.length_flatten]
  exact List.sum_le_sum fun chunk _ => readNoShorter chunk

theorem readExactly {stream : OutputStream} {chunks : List Chunk} : readBytes stream chunks = brought stream chunks ↔
    ∀ chunk ∈ received stream chunks, byteLength (decode chunk) = chunk.length := by
  unfold brought readBytes
  rw [List.length_flatten]
  constructor
  · exact sumTight fun chunk _ => readNoShorter chunk
  · exact fun each => congrArg List.sum (List.map_congr_left each)

theorem broughtLast (stream : OutputStream) (chunks : List Chunk) (chunk : Chunk) : brought stream (chunks ++ [chunk]) =
    brought stream chunks + if chunk.1 = stream then chunk.2.length else 0 := by
  unfold brought
  rw [receivedLast]
  split <;> simp

/- Chunks that are read at their size are not capped while they stay within the caps. -/
theorem uncapped {chunks : List Chunk} (each : ∀ stream, ∀ chunk ∈ received stream chunks, byteLength (decode chunk) = chunk.length)
    (within : ∀ stream, brought stream chunks ≤ capOf stream)
    (combined : brought .stdout chunks + brought .stderr chunks ≤ combinedHardCap) : (trackOutput chunks).capped = false := by
  induction chunks using List.reverseRecOn with
  | nil => rfl
  | append_singleton chunks chunk ih =>
    have before (stream : OutputStream) : ∀ piece ∈ received stream chunks, byteLength (decode piece) = piece.length := by
      intro piece member
      refine each stream piece ?_
      rw [receivedLast]
      split
      · exact List.mem_append_left _ member
      · exact member
    have grown (stream : OutputStream) := broughtLast stream chunks chunk
    have free := ih before (fun stream => by have := within stream; have := grown stream; split at this <;> omega) (by
      have := grown .stdout
      have := grown .stderr
      omega)
    have last : trackOutput (chunks ++ [chunk]) = onData (trackOutput chunks) chunk := List.foldl_concat _ _ _ _
    rw [last,onData,append,takeCapped,free,uncappedRead free,Bool.false_or]
    have counted (stream : OutputStream) : (readWhole chunks).counted stream = brought stream chunks := by
      cases stream <;> exact readExactly.mpr (before _)
    have first : (readWhole chunks).stdoutBytes = brought .stdout chunks := counted .stdout
    have second : (readWhole chunks).stderrBytes = brought .stderr chunks := counted .stderr
    unfold OutputTracker.over
    rw [counted,first,second]
    have own := grown chunk.1
    have most := within chunk.1
    rw [if_pos rfl] at own
    have both : brought .stdout chunks + brought .stderr chunks + chunk.2.length ≤ combinedHardCap := by
      have out := grown .stdout
      have err := grown .stderr
      cases stream : chunk.1 <;> rw [stream] at out err <;> simp only [reduceCtorEq,if_true,if_false] at out err <;> omega
    simp only [Bool.or_eq_false_iff,decide_eq_false_iff_not,Nat.not_lt]
    exact ⟨by omega,both⟩

/- However the output was cut, it is counted and parsed as the whole. -/
structure Unchunked (numerals : Json.Numerals) (chunks : List Chunk) : Prop where
  results : parsedOnClose numerals (trackOutput chunks) = some (parseAgentBrowserOutput numerals (decode (received .stdout chunks).flatten))
  stdoutBytes : (trackOutput chunks).stdoutBytes = brought .stdout chunks
  stderrBytes : (trackOutput chunks).stderrBytes = brought .stderr chunks

/-- A UTF-8 stream within the caps is counted and parsed as a whole just when no chunk begins within a point, and what is read from
each chunk of the other stream takes as many bytes as the chunk. -/
theorem unchunkedExactly (numerals : Json.Numerals) {chunks : List Chunk} {text : List Char}
    (stream : (received .stdout chunks).flatten = encoded text) (within : ∀ stream, brought stream chunks ≤ capOf stream)
    (combined : brought .stdout chunks + brought .stderr chunks ≤ combinedHardCap) : Unchunked numerals chunks ↔
      (∀ chunk ∈ received .stdout chunks, chunk.head?.all fun b => !goingOn b) ∧
        ∀ chunk ∈ received .stderr chunks, byteLength (decode chunk) = chunk.length := by
  constructor
  · intro whole
    have free : (trackOutput chunks).capped = false := by
      have results := whole.results
      unfold parsedOnClose at results
      split at results
      · cases results
      · rename_i free
        exact Bool.eq_false_iff.mpr free
    have read := uncappedRead free
    have first := whole.stdoutBytes
    have second := whole.stderrBytes
    rw [read] at first second
    refine ⟨fun chunk member => ?_,readExactly.mp second⟩
    cases chunk with
    | nil => rfl
    | cons b rest =>
      by_contra going
      have longer := readLonger (b := b) (by simpa using going) rest
      have same := readExactly.mp first _ member
      omega
  · rintro ⟨between,sizes⟩
    obtain ⟨read,exact_⟩ := piecesRead stream.symm between
    have free := @uncapped chunks (fun stream => by cases stream; exacts [exact_,sizes]) within combined
    have whole := uncappedRead free
    refine ⟨?_,?_,?_⟩
    · unfold parsedOnClose
      rw [free,whole]
      change (if trim ((received .stdout chunks).flatMap decode) = [] then some [] else
        some (parseAgentBrowserOutput numerals ((received .stdout chunks).flatMap decode))) = _
      rw [read]
      split
      · rename_i blank
        rw [parseBlank numerals blank]
      · rfl
    · rw [whole]
      exact readExactly.mpr exact_
    · rw [whole]
      exact readExactly.mpr sizes

/- Cut between points. -/
theorem envelopeWhole : Unchunked Json.wholeNumerals [(.stdout,utf8String "\x7b\"success\":true,"),(.stdout,utf8String "\"data\":\"é\"\x7d")] :=
  (@unchunkedExactly Json.wholeNumerals _ "\x7b\"success\":true,\"data\":\"é\"\x7d".toList (by decide)
    (fun stream => by cases stream <;> decide) (by decide)).mpr ⟨by decide,by decide⟩

theorem pointCut : ¬ Unchunked Json.wholeNumerals [(.stdout,[0xC3]),(.stdout,[0xA9])] := by
  intro whole
  exact absurd whole.stdoutBytes (by decide)

end Northstar.Browser
