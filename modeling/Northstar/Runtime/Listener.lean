import Northstar.Reader
import Northstar.Runtime.Protocol

/-! The executor listener (ExecutorListener in broker-host.ts) on the first connection it gets:
the frames of each data event, the token frame and the requests handed to the leaf runtime
client. JSON.parse of a frame body as UTF-8 is a parameter. A destroyed socket has no more data
events; the loop that destroys it inside a frame goes on to the end of what it has buffered. -/
namespace Northstar.Runtime

/- readUInt32BE and the body behind it. -/
def frameHead : Bytes → Head UInt8 Bytes
  | a :: b :: c :: d :: rest =>
      let frameLen := a.toNat * 2^24 + b.toNat * 2^16 + c.toNat * 2^8 + d.toNat
      if brokerMaxFrameBytes < frameLen then .refused
      else if rest.length < frameLen then .incomplete
      else .item (rest.take frameLen) (rest.drop frameLen)
  | _ => .incomplete

def frameReader : Reader UInt8 Bytes where
  head := frameHead
  shorter := by
    intro buf value rest here
    unfold frameHead at here
    split at here
    · rename_i a b c d more
      dsimp only at here
      split at here
      · contradiction
      split at here
      · contradiction
      · cases here
        simp only [List.length_drop,List.length_cons]
        omega
    · contradiction
  keeps := by
    intro buf value rest more here
    unfold frameHead at here
    split at here
    · rename_i a b c d held
      dsimp only at here
      split at here
      · contradiction
      rename_i small
      split at here
      · contradiction
      rename_i whole
      cases here
      have longer : ¬(held ++ more).length < a.toNat * 2^24 + b.toNat * 2^16 + c.toNat * 2^8 + d.toNat := by
        rw [List.length_append]
        omega
      simp only [List.cons_append,frameHead]
      rw [if_neg small,if_neg longer,List.take_append_of_le_length (by omega),List.drop_append_of_le_length (by omega)]
    · contradiction
  refuses := by
    intro buf more here
    unfold frameHead at here
    split at here
    · dsimp only at here
      split at here
      · rename_i large
        simp only [List.cons_append,frameHead]
        rw [if_pos large]
      split at here <;> contradiction
    · contradiction

structure ExecutorListener where
  rxBuf : Bytes := []
  authenticated : Bool := false
  destroyed : Bool := false
  handed : List RuntimeRequest := []

/- An object's token, or the payload itself where it is a string. -/
def presentedToken : JsValue → Option JsString
  | .object fields => ((JsValue.object fields).get "token").asString
  | .string text => some text
  | _ => none

section Connection
variable (token : Bytes) (parse : Bytes → Option JsValue)

def isToken (frameBody : Bytes) : Bool := ((parse frameBody).bind presentedToken).any (utf8 · == token)

def requestOf (frameBody : Bytes) : Option RuntimeRequest :=
  (parse frameBody).bind fun parsed => (validateRequest parsed).toOption

namespace ExecutorListener

def handleFrame (l : ExecutorListener) (frameBody : Bytes) : ExecutorListener :=
  if !l.authenticated then
    match (parse frameBody).bind presentedToken with
    | none => { l with destroyed := true }
    | some presented =>
        if utf8 presented == token then { l with authenticated := true } else { l with destroyed := true }
  else
    match parse frameBody with
    | none => { l with destroyed := true }
    | some parsed => match validateRequest parsed with
        | .error _ => { l with destroyed := true }
        | .ok req => { l with handed := l.handed ++ [req] }

/- The while loop of the data handler; every turn takes four bytes at least. -/
def drain : Nat → ExecutorListener → ExecutorListener
  | 0, l => l
  | n + 1, l => match frameHead l.rxBuf with
      | .incomplete => l
      | .refused => { l with destroyed := true }
      | .item frameBody rest => drain n (({ l with rxBuf := rest }).handleFrame token parse frameBody)

def onData (l : ExecutorListener) (chunk : Bytes) : ExecutorListener :=
  if l.destroyed then l
  else drain token parse ((l.rxBuf ++ chunk).length + 1) { l with rxBuf := l.rxBuf ++ chunk }

/- The first connection after its data events. -/
def receive (chunks : List Bytes) : ExecutorListener := chunks.foldl (onData token parse) {}

end ExecutorListener

/- The requests of the frames up to the first that is none. -/
def admitted : List Bytes → List RuntimeRequest
  | [] => []
  | body :: later => match requestOf parse body with
      | some req => req :: admitted later
      | none => []

/- What the listener is for: nothing before the token frame, then request after request. -/
def gate : List Bytes → List RuntimeRequest
  | [] => []
  | body :: later => if isToken token parse body then admitted parse later else []

/- The bodies of a stream's frames, up to an oversized one. -/
def frameBodies (stream : Bytes) : List Bytes := (frameReader.take stream).items

/- The bodies behind the first rejected one, and whether the token came before it. -/
def behindRejected : Bool → List Bytes → Option (Bool × List Bytes)
  | _, [] => none
  | authenticated, body :: later =>
      if (if authenticated then (requestOf parse body).isSome else isToken token parse body) then behindRejected true later
      else some (authenticated,later)

/- No request among the bodies; before the token, none behind a token frame. -/
def silent (authenticated : Bool) (bodies : List Bytes) : Bool :=
  if authenticated then bodies.all fun body => (requestOf parse body).isNone
  else ((bodies.dropWhile fun body => !isToken token parse body).drop 1).all fun body => (requestOf parse body).isNone

/- The data event that completes the first rejected frame completes no request behind it. -/
def settled : Bool → List (List Bytes) → Bool
  | _, [] => true
  | authenticated, batch :: later => match behindRejected token parse authenticated batch with
      | some (before,rest) => silent token parse before rest
      | none => settled (authenticated || !batch.isEmpty) later

end Connection

namespace ExecutorListener
section
variable {token : Bytes} {parse : Bytes → Option JsValue}

theorem handleUnauthenticated {l : ExecutorListener} (closed : l.authenticated = false) (body : Bytes) :
    l.handleFrame token parse body = if isToken token parse body then { l with authenticated := true }
      else { l with destroyed := true } := by
  unfold handleFrame isToken
  rw [if_pos (by rw [closed]; rfl)]
  cases (parse body).bind presentedToken with
  | none => rfl
  | some presented => rfl

theorem handleAuthenticated {l : ExecutorListener} (open_ : l.authenticated = true) (body : Bytes) :
    l.handleFrame token parse body = match requestOf parse body with
      | some req => { l with handed := l.handed ++ [req] }
      | none => { l with destroyed := true } := by
  unfold handleFrame requestOf
  rw [if_neg (by rw [open_]; exact Bool.false_ne_true)]
  cases parse body with
  | none => rfl
  | some parsed =>
    dsimp only [Option.bind_some]
    cases validateRequest parsed <;> rfl

theorem handleBuffer (l : ExecutorListener) (body rest : Bytes) :
    ({ l with rxBuf := rest }).handleFrame token parse body = { l.handleFrame token parse body with rxBuf := rest } := by
  obtain ⟨rxBuf,authenticated,destroyed,handed⟩ := l
  unfold handleFrame
  cases authenticated with
  | false =>
    dsimp only
    cases (parse body).bind presentedToken with
    | none => rfl
    | some presented =>
      dsimp only
      cases utf8 presented == token <;> rfl
  | true =>
    dsimp only
    cases parse body with
    | none => rfl
    | some parsed =>
      dsimp only
      cases validateRequest parsed <;> rfl

theorem serveBuffer (l : ExecutorListener) (bodies : List Bytes) (rest : Bytes) :
    bodies.foldl (handleFrame token parse) { l with rxBuf := rest } =
      { bodies.foldl (handleFrame token parse) l with rxBuf := rest } := by
  induction bodies generalizing l with
  | nil => rfl
  | cons body later ih =>
    rw [List.foldl_cons,List.foldl_cons,handleBuffer,ih]

/- The loop hands every frame it holds to handleFrame, destroyed or not. -/
theorem drainSpec (n : Nat) (l : ExecutorListener) (enough : l.rxBuf.length < n) :
    drain token parse n l =
      let taken := frameReader.take l.rxBuf
      let served := taken.items.foldl (handleFrame token parse) l
      { served with
        rxBuf := taken.left
        destroyed := served.destroyed || taken.refused } := by
  induction n generalizing l with
  | zero => omega
  | succ n ih =>
    unfold drain
    cases here : frameHead l.rxBuf with
    | incomplete =>
      rw [frameReader.takeIncomplete here]
      simp only [List.foldl_nil,Bool.or_false]
    | refused =>
      rw [frameReader.takeRefused here]
      simp only [List.foldl_nil,Bool.or_true]
    | item body rest =>
      have less := frameReader.shorter here
      dsimp only
      rw [handleBuffer,ih _ (by dsimp only; omega),frameReader.takeItem here]
      dsimp only [List.foldl_cons]
      rw [serveBuffer]

/- The frames that one data event completes are served one after the other. -/
theorem onDataSpec {l : ExecutorListener} (alive : l.destroyed = false) (chunk : Bytes) :
    l.onData token parse chunk =
      let taken := frameReader.take (l.rxBuf ++ chunk)
      let served := taken.items.foldl (handleFrame token parse) l
      { served with
        rxBuf := taken.left
        destroyed := served.destroyed || taken.refused } := by
  have spec : drain token parse ((l.rxBuf ++ chunk).length + 1) { l with rxBuf := l.rxBuf ++ chunk } = _ :=
    drainSpec _ _ (Nat.lt_succ_self _)
  unfold onData
  rw [if_neg (by rw [alive]; exact Bool.false_ne_true),spec]
  dsimp only
  rw [serveBuffer]

theorem destroyedStays {l : ExecutorListener} (gone : l.destroyed = true) (chunks : List Bytes) :
    chunks.foldl (onData token parse) l = l := by
  induction chunks with
  | nil => rfl
  | cons chunk later ih =>
    have still : l.onData token parse chunk = l := by
      unfold onData
      rw [if_pos gone]
    rw [List.foldl_cons,still,ih]

/- What the connection should have handed on once it is through the bodies. -/
def owed (token : Bytes) (parse : Bytes → Option JsValue) (l : ExecutorListener) (bodies : List Bytes) : List RuntimeRequest :=
  l.handed ++ if l.authenticated then admitted parse bodies else gate token parse bodies

/- A batch without a rejected frame leaves what is owed as it is. -/
theorem servedClean {l : ExecutorListener} {bodies : List Bytes}
    (clean : behindRejected token parse l.authenticated bodies = none) (later : List Bytes) :
    let served := bodies.foldl (handleFrame token parse) l
    served.destroyed = l.destroyed ∧ served.authenticated = (l.authenticated || !bodies.isEmpty) ∧
      owed token parse served later = owed token parse l (bodies ++ later) := by
  induction bodies generalizing l with
  | nil => exact ⟨rfl,(Bool.or_false _).symm,rfl⟩
  | cons body rest ih =>
    dsimp only at ih ⊢
    rw [List.foldl_cons]
    unfold behindRejected at clean
    cases open_ : l.authenticated with
    | false =>
      rw [open_,if_neg Bool.false_ne_true] at clean
      split at clean
      · rename_i right
        rw [handleUnauthenticated open_,if_pos right]
        obtain ⟨alive,known,same⟩ := ih (l := { l with authenticated := true }) clean
        refine ⟨alive,known.trans (Bool.true_or _),same.trans ?_⟩
        unfold owed
        dsimp only
        rw [open_,if_pos rfl,if_neg Bool.false_ne_true,List.cons_append,gate,if_pos right]
      · contradiction
    | true =>
      rw [open_,if_pos rfl] at clean
      split at clean
      · rename_i right
        obtain ⟨req,found⟩ := Option.isSome_iff_exists.mp right
        rw [handleAuthenticated open_,found]
        dsimp only
        obtain ⟨alive,known,same⟩ := ih (l := { l with handed := l.handed ++ [req] }) (by dsimp only; rw [open_]; exact clean)
        refine ⟨alive,known.trans (by dsimp only; rw [open_]; rfl),same.trans ?_⟩
        unfold owed
        dsimp only
        rw [open_,if_pos rfl,if_pos rfl,List.cons_append,admitted,found,List.append_assoc]
        rfl
      · contradiction

/- Where a batch has a rejected frame, the rest of it is served by a destroyed connection that
already handed on all it owes. -/
theorem servedBroken {l : ExecutorListener} {bodies rest : List Bytes} {before : Bool}
    (broken : behindRejected token parse l.authenticated bodies = some (before,rest)) (later : List Bytes) :
    ∃ m : ExecutorListener, m.destroyed = true ∧ m.authenticated = before ∧ m.handed = owed token parse l (bodies ++ later) ∧
      bodies.foldl (handleFrame token parse) l = rest.foldl (handleFrame token parse) m := by
  induction bodies generalizing l with
  | nil => cases broken
  | cons body more ih =>
    rw [List.foldl_cons]
    unfold behindRejected at broken
    cases open_ : l.authenticated with
    | false =>
      rw [open_,if_neg Bool.false_ne_true] at broken
      split at broken
      · rename_i right
        obtain ⟨m,gone,known,same,served⟩ := ih (l := { l with authenticated := true }) broken
        refine ⟨m,gone,known,same.trans ?_,?_⟩
        · unfold owed
          dsimp only
          rw [open_,if_pos rfl,if_neg Bool.false_ne_true,List.cons_append,gate,if_pos right]
        · rw [handleUnauthenticated open_,if_pos right,served]
      · rename_i wrong
        cases broken
        refine ⟨{ l with destroyed := true },rfl,open_,?_,by rw [handleUnauthenticated open_,if_neg wrong]⟩
        unfold owed
        rw [open_,if_neg Bool.false_ne_true,List.cons_append,gate,if_neg wrong,List.append_nil]
    | true =>
      rw [open_,if_pos rfl] at broken
      split at broken
      · rename_i right
        obtain ⟨req,found⟩ := Option.isSome_iff_exists.mp right
        obtain ⟨m,gone,known,same,served⟩ := ih (l := { l with handed := l.handed ++ [req] }) (by dsimp only; rw [open_]; exact broken)
        refine ⟨m,gone,known,same.trans ?_,?_⟩
        · unfold owed
          dsimp only
          rw [open_,if_pos rfl,if_pos rfl,List.cons_append,admitted,found,List.append_assoc]
          rfl
        · rw [handleAuthenticated open_,found,served]
      · rename_i wrong
        cases broken
        have none : requestOf parse body = none := by simpa using wrong
        refine ⟨{ l with destroyed := true },rfl,open_,?_,by rw [handleAuthenticated open_,none]⟩
        unfold owed
        rw [open_,if_pos rfl,List.cons_append,admitted,none,List.append_nil]

theorem handedGrows (l : ExecutorListener) (bodies : List Bytes) :
    ∃ extra, (bodies.foldl (handleFrame token parse) l).handed = l.handed ++ extra := by
  induction bodies generalizing l with
  | nil => exact ⟨[],(List.append_nil _).symm⟩
  | cons body later ih =>
    rw [List.foldl_cons]
    have one : ∃ extra, (l.handleFrame token parse body).handed = l.handed ++ extra := by
      cases open_ : l.authenticated with
      | false =>
        rw [handleUnauthenticated open_]
        split <;> exact ⟨[],(List.append_nil _).symm⟩
      | true =>
        rw [handleAuthenticated open_]
        split
        · exact ⟨_,rfl⟩
        · exact ⟨[],(List.append_nil _).symm⟩
    obtain ⟨first,same⟩ := one
    obtain ⟨rest,again⟩ := ih (l.handleFrame token parse body)
    exact ⟨first ++ rest,by rw [again,same,List.append_assoc]⟩

theorem destroyedServes {l : ExecutorListener} (gone : l.destroyed = true) (bodies : List Bytes) :
    (bodies.foldl (handleFrame token parse) l).destroyed = true := by
  induction bodies generalizing l with
  | nil => exact gone
  | cons body later ih =>
    rw [List.foldl_cons]
    apply ih
    cases open_ : l.authenticated with
    | false =>
      rw [handleUnauthenticated open_]
      split
      · exact gone
      · rfl
    | true =>
      rw [handleAuthenticated open_]
      split
      · exact gone
      · rfl

/- The rest of a batch hands nothing on just when it is silent. -/
theorem servedSilent (l : ExecutorListener) (bodies : List Bytes) :
    (bodies.foldl (handleFrame token parse) l).handed = l.handed ↔ silent token parse l.authenticated bodies = true := by
  induction bodies generalizing l with
  | nil =>
    unfold silent
    split <;> exact iff_of_true rfl rfl
  | cons body later ih =>
    rw [List.foldl_cons]
    cases open_ : l.authenticated with
    | false =>
      rw [handleUnauthenticated open_]
      split
      · rename_i right
        rw [ih { l with authenticated := true }]
        unfold silent
        rw [if_pos rfl,if_neg Bool.false_ne_true,List.dropWhile_cons_of_neg (by rw [right]; exact Bool.false_ne_true)]
        rfl
      · rename_i wrong
        rw [ih { l with destroyed := true }]
        unfold silent
        dsimp only
        rw [open_,if_neg Bool.false_ne_true,if_neg Bool.false_ne_true,List.dropWhile_cons_of_pos (by simpa using wrong)]
    | true =>
      rw [handleAuthenticated open_]
      cases found : requestOf parse body with
      | none =>
        dsimp only
        rw [ih { l with destroyed := true }]
        unfold silent
        dsimp only
        rw [open_,if_pos rfl,if_pos rfl,List.all_cons,found]
        rfl
      | some req =>
        dsimp only
        refine iff_of_false ?_ ?_
        · intro same
          obtain ⟨extra,grown⟩ : ∃ extra, (later.foldl (handleFrame token parse) _).handed = _ :=
            handedGrows { l with handed := l.handed ++ [req] } later
          rw [grown,List.append_assoc] at same
          exact List.cons_ne_nil _ _ (List.self_eq_append_right.mp same.symm)
        · unfold silent
          rw [if_pos rfl,List.all_cons,found]
          exact Bool.false_ne_true

/- From a live connection that waits for a frame. -/
theorem receiveSettled (chunks : List Bytes) {l : ExecutorListener} (alive : l.destroyed = false)
    (waits : frameReader.take l.rxBuf = ⟨[],l.rxBuf,false⟩) :
    (chunks.foldl (onData token parse) l).handed = owed token parse l (frameReader.batches l.rxBuf chunks).flatten ↔
      settled token parse l.authenticated (frameReader.batches l.rxBuf chunks) = true := by
  induction chunks generalizing l with
  | nil =>
    refine iff_of_true ?_ rfl
    unfold owed Reader.batches
    cases l.authenticated <;> exact (List.append_nil _).symm
  | cons chunk later ih =>
    rw [List.foldl_cons,onDataSpec alive]
    unfold Reader.batches
    dsimp only
    generalize taken_ : frameReader.take (l.rxBuf ++ chunk) = taken
    rw [List.flatten_cons]
    unfold settled
    cases found : behindRejected token parse l.authenticated taken.items with
    | none =>
      obtain ⟨still,known,same⟩ := servedClean found (if taken.refused then [] else frameReader.batches taken.left later).flatten
      rw [← same]
      dsimp only
      rw [← known]
      generalize taken.items.foldl (handleFrame token parse) l = served at still known same ⊢
      cases over_ : taken.refused with
      | true =>
        rw [destroyedStays (by dsimp only; rw [Bool.or_true])]
        refine iff_of_true ?_ rfl
        unfold owed
        cases served.authenticated <;> exact (List.append_nil _).symm
      | false =>
        have left := frameReader.takeLeft _ _ (Nat.lt_succ_self _) (taken_ ▸ over_)
        rw [taken_] at left
        exact ih (l := { served with
          rxBuf := taken.left
          destroyed := served.destroyed || false }) (by dsimp only; rw [still,alive]; rfl) left
    | some behind =>
      obtain ⟨before,rest⟩ := behind
      obtain ⟨m,gone,known,same,served⟩ := servedBroken found
        (if taken.refused then [] else frameReader.batches taken.left later).flatten
      rw [served,← same,destroyedStays (by dsimp only; rw [destroyedServes gone]; rfl)]
      dsimp only
      rw [servedSilent,known]

end
end ExecutorListener

/-- The requests handed to the leaf are those behind the token frame, up to the first rejected
frame, however the stream was cut, just when the data event that completes that frame completes
no request behind it. -/
theorem gateExact (token : Bytes) (parse : Bytes → Option JsValue) (chunks : List Bytes) :
    (ExecutorListener.receive token parse chunks).handed = gate token parse (frameBodies chunks.flatten) ↔
      settled token parse false (frameReader.batches [] chunks) = true := by
  have waits : frameReader.take [] = ⟨[],[],false⟩ := rfl
  have all := frameReader.batchesFlatten [] chunks waits
  rw [List.nil_append] at all
  unfold frameBodies
  rw [← all]
  have owes : gate token parse (frameReader.batches [] chunks).flatten =
      ExecutorListener.owed token parse {} (frameReader.batches [] chunks).flatten := rfl
  rw [owes]
  exact ExecutorListener.receiveSettled chunks (l := {}) rfl waits

/- Bodies as JSON.stringify writes them, each with its length in front. -/
def framedJson (value : JsValue) : Bytes :=
  bigEndian32 (utf8 (stringify value)).length ++ utf8 (stringify value)

def statusRequest : JsValue :=
  RuntimeRequest.json ⟨js "request1",.status,.object [(js "runId",.string (js "runtime_0123456789abcdef0123456789abcdef"))]⟩

/- A parser that knows these three bodies. -/
def parseKnown (body : Bytes) : Option JsValue :=
  [.string (js "guess"),.string (js "token"),statusRequest].find? fun value => utf8 (stringify value) == body

/- A wrong token, the right one and a request: in one data event the request is executed, in three
it is not. -/
set_option maxRecDepth 16384 in
theorem pipelinedGuess :
    (ExecutorListener.receive (utf8 (js "token")) parseKnown
      [framedJson (.string (js "guess")) ++ framedJson (.string (js "token")) ++ framedJson statusRequest]).handed.length = 1 ∧
    (ExecutorListener.receive (utf8 (js "token")) parseKnown
      [framedJson (.string (js "guess")),framedJson (.string (js "token")),framedJson statusRequest]).handed.length = 0 ∧
    (gate (utf8 (js "token")) parseKnown (frameBodies (framedJson (.string (js "guess")) ++
      framedJson (.string (js "token")) ++ framedJson statusRequest))).length = 0 := by
  decide

end Northstar.Runtime
