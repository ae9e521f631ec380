import Northstar.Broker.Tables
import Northstar.Broker.Auth

/-! What the broker process calls: SQLite, the clock, the random source, the client
socket and the executor socket. The world also keeps the history the statements are
about; no handler reads it. -/
namespace Northstar.Broker

/- Two calls name more than the code passes, for the history only: a welcome names the
claims its token signs, a request written to the executor the client it is for. -/
inductive Op where
  | beginImmediate
  | commit
  | rollback
  | sql (s : Statement)
  | nowMillis
  | nowSecs
  | random
  | peerIdentity
  | send (message : BrokerMessage)
  | sendWelcome (message : BrokerWelcome) (claims : TokenClaims)
  | lockStream
  | storeStream (present : Bool)
  | connect
  | executorPeer
  | socketFileUid
  | readTokenFile
  | writeAuth (frame : Bytes)
  | writeRequest (clientId : String) (request : RuntimeRpcRequest) (frame : Bytes)
  | flush
  | setReadTimeout (millis : Nat)
  | readLength
  | readBody (length : Nat)

abbrev Reply : Op → Type
  | .beginImmediate | .commit | .rollback => Except SqlError Unit
  | .sql s => Except SqlError s.Result
  | .nowMillis => Int
  | .nowSecs => Nat
  | .random => String
  | .peerIdentity => Option Nat
  | .send _ | .sendWelcome _ _ => Bool
  | .lockStream => Option Bool
  | .storeStream _ => Unit
  | .connect | .writeAuth _ | .writeRequest _ _ _ | .flush | .setReadTimeout _ => Except String Unit
  | .executorPeer => Except String Nat
  | .socketFileUid => Option Nat
  | .readTokenFile => Option String
  | .readLength => Except String Nat
  | .readBody _ => Except String Bytes

/- The environment answers everything but the database and the stream slot itself;
there it only chooses whether the call fails. -/
abbrev Choice : Op → Type
  | .beginImmediate | .commit | .rollback | .sql _ => SqlOutcome
  | .lockStream => Bool
  | .storeStream _ => Unit
  | op => Reply op

structure World where
  db : Connection
  stream : Bool
  started : List Key
  granted : List Key
  bound : List String
  writes : Nat
  faults : Nat
  replyBody : Option Bytes
  readings : List Nat
  issued : List TokenClaims

namespace World

def initial : World :=
  ⟨⟨Tables.empty,none⟩,false,[],[],[],0,0,none,[],[]⟩

/-- Claims that became durable with this statement are granted from here on. -/
def withDb (w : World) (db : Connection) (outcome : SqlOutcome) : World :=
  {w with
    db := db
    granted := w.granted ++ db.durable.claimKeys.filter (· ∉ w.db.durable.claimKeys)
    faults := if outcome = .done then w.faults else w.faults + 1}

/-- updateJobId is the one statement that gives a row a run id of the executor's. -/
def noteStatement (w : World) : Statement → World
  | .updateJobId jobId _ _ => {w with bound := w.bound ++ [jobId]}
  | _ => w

def noteWrite (w : World) (clientId : String) (request : RuntimeRpcRequest) : World :=
  {w with
    writes := w.writes + 1
    replyBody := none
    started := if request.method = .start then w.started ++ [⟨clientId,request.requestId⟩]
      else w.started}

def answer (w : World) : (op : Op) → Choice op → Reply op × World
  | .beginImmediate, c => ((w.db.beginImmediate c).1,w.withDb (w.db.beginImmediate c).2 c)
  | .commit, c => ((w.db.commit c).1,w.withDb (w.db.commit c).2 c)
  | .rollback, c => ((w.db.rollback c).1,w.withDb (w.db.rollback c).2 c)
  | .sql s, c => ((w.db.execute s c).1,(w.withDb (w.db.execute s c).2 c).noteStatement s)
  | .nowMillis, c => (c,w)
  | .nowSecs, c => (c,{w with readings := w.readings ++ [c]})
  | .random, c => (c,w)
  | .peerIdentity, c => (c,w)
  | .send _, c => (c,w)
  | .sendWelcome _ claims, c => (c,{w with issued := w.issued ++ [claims]})
  | .lockStream, poisoned => (if poisoned then none else some w.stream,w)
  | .storeStream present, _ => ((),{w with stream := present})
  | .connect, c => (c,w)
  | .executorPeer, c => (c,w)
  | .socketFileUid, c => (c,w)
  | .readTokenFile, c => (c,w)
  | .writeAuth _, c => (c,w)
  | .writeRequest clientId request _, c => (c,w.noteWrite clientId request)
  | .flush, c => (c,w)
  | .setReadTimeout _, c => (c,w)
  | .readLength, c => (c,w)
  | .readBody _, c => (c,match c with
      | .ok body => {w with replyBody := some body}
      | .error _ => w)

/-- The process dies: memory and the open transaction are gone. -/
def crash (w : World) : World := {w with db := w.db.reopen, stream := false}

/-- A fresh process has issued no token. -/
def boot (w : World) : World := {w with issued := []}

end World

def machine : Machine Op Reply Choice World := ⟨World.answer⟩

/-- An environment in which nothing fails: every random draw is the given string and
every executor reply the given body. -/
def smooth (drawn : String) (body : Bytes) : Machine.Oracle Choice
  | .beginImmediate | .commit | .rollback | .sql _ => .done
  | .nowMillis => (0 : Int)
  | .nowSecs => (0 : Nat)
  | .random => drawn
  | .peerIdentity => some 0
  | .send _ | .sendWelcome _ _ => true
  | .lockStream => false
  | .storeStream _ => ()
  | .connect | .writeAuth _ | .writeRequest _ _ _ | .flush | .setReadTimeout _ => .ok ()
  | .executorPeer => .ok 0
  | .socketFileUid => some 0
  | .readTokenFile => some ""
  | .readLength => .ok body.length
  | .readBody _ => .ok body

/-- An environment in which SQLite fails, the executor is not there and, where it was,
its reply does not come. -/
def failing : Machine.Oracle Choice
  | .beginImmediate | .commit | .rollback | .sql _ => .fault false
  | .connect => .error "refused"
  | .readLength => .error "timed out"
  | op => smooth "" [] op

abbrev Handler (α : Type) := Program Op Reply α

def call (op : Op) : Handler (Reply op) := Program.request op

end Northstar.Broker
