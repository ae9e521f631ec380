import Northstar.Broker.Handling

/-! Whole runs: every event, crashes included, is one labelled step of the ledger, and
the ledger's invariant holds in every state reached. -/
namespace Northstar.Broker

/-- Before the socket exists only the schema and the recovery touch the rows. -/
def Booting (cfg : Config) (_ : Op) (w : World) (g : Inflight) (w' : World) (g' : Inflight) : Prop :=
  ∃ label, (label = .quiet ∨ label = .migrate ∨ label = .recover) ∧
    Ledger.Step (provisionalJobId cfg) label (w.ledger g) (w'.ledger g')

def Ready (ready : Bool) (w : World) (g : Inflight) : Prop := ready = true → g = .idle ∧ w.Calm

def PhaseGood (cfg : Config) (w : World) (g : Inflight) : Phase → Prop
  | .stopped => g = .down ∧ w.db.txn = none
  | .starting _ p => machine.Ensures (Booting cfg) p Ready w g
  | .listening _ | .serving _ _ => g = .idle ∧ w.Calm
  | .accepting _ p => g = .idle ∧ w.Calm ∧ p.All Harmless fun _ => True
  | .handling _ session input since p =>
      machine.Ensures (Allowed cfg (contextOf session input since)) p Rested w g

def State.Good (cfg : Config) (s : State) : Prop :=
  ∃ g, Ledger.Sound (provisionalJobId cfg) (s.world.ledger g) ∧ PhaseGood cfg s.world g s.phase

section
variable {cfg : Config} {w : World} {g : Inflight}

/-! ## Start-up -/

theorem bootThen {α : Type} {post : α → World → Inflight → Prop} {s : Statement} {value : s.Result}
    {t : Tables} {h : Inflight} {label : Label} {next : Except SqlError s.Result → Handler α}
    (closed : w.db.txn = none) (ran : s.run w.db.durable = .ok (value,t))
    (plain : ∀ v : World, v.noteStatement s = v)
    (kind : label = .quiet ∨ label = .migrate ∨ label = .recover)
    (moves : Ledger.Step (provisionalJobId cfg) label (w.ledger g)
      ⟨t,w.started,w.bound,w.faults,h⟩)
    (done : ∀ v, v.db = ⟨t,none⟩ → machine.Ensures (Booting cfg) (next (.ok value)) post v h)
    (failed : ∀ v, machine.Ensures (Booting cfg) (next (.error .failure)) post v g) :
    machine.Ensures (Booting cfg) (call (.sql s) >>= next) post w g := by
  have view : w.db.view = w.db.durable := by simp only [Connection.view,closed,Option.getD_none]
  intro c
  cases c with
  | fault rolledBack =>
    refine ⟨g,⟨.quiet,.inl rfl,.quiet ?_ ?_ ?_ ?_ rfl⟩,failed _⟩
    · simp only [machine,World.answer,plain]
      rfl
    · exact (sqlOnly s _).started
    · exact (sqlOnly s _).bound
    · exact (sqlOnly s _).faults
  | done =>
    have executed : w.db.execute s .done = (.ok value,⟨t,none⟩) := by
      simp only [Connection.execute,view,ran,Connection.write,closed]
    have reply : (machine.answer w (.sql s) .done).1 = .ok value := by
      simp only [machine,World.answer,executed]
    have db : (machine.answer w (.sql s) .done).2.db = ⟨t,none⟩ := by
      simp only [machine,World.answer,plain,executed]
      rfl
    have ledger : (machine.answer w (.sql s) .done).2.ledger h =
        ⟨t,w.started,w.bound,w.faults,h⟩ := by
      simp only [World.ledger,machine,World.answer,plain,executed]
      rfl
    refine ⟨h,⟨label,kind,by rw [ledger]; exact moves⟩,?_⟩
    rw [reply]
    exact done _ db

/- What startup does once the schema is there: recovery, then the claims table. -/
def recovery : Handler Bool := do
  match ← recoverIncompleteJobs with
  | .error _ => pure false
  | .ok _ =>
      match ← call (.sql .createTables) with
      | .error _ => pure false
      | .ok _ => pure true

theorem startupEnsures (closed : w.db.txn = none) :
    machine.Ensures (Booting cfg) startup Ready w .down := by
  have unready : ∀ v h, machine.Ensures (Booting cfg) (pure false : Handler Bool) Ready v h :=
    fun v h same => by cases same
  have still : ∀ v : World, Ledger.Step (provisionalJobId cfg) .quiet (v.ledger .down)
      ⟨v.db.durable,v.started,v.bound,v.faults,.down⟩ :=
    fun v => .quiet rfl rfl (fun _ member => member) (Nat.le_refl _) rfl
  have recovered : ∀ v : World, v.db.txn = none → machine.Ensures (Booting cfg) recovery Ready v .down := by
    intro v closed
    unfold recovery recoverIncompleteJobs tryCall
    rw [Program.bindAssoc]
    refine bootThen (h := .idle) closed rfl (fun _ => rfl) (.inr (.inr rfl)) .recover ?_
      (fun u => unready u .down)
    intro u db
    refine bootThen (h := .idle) (by rw [db]) rfl (fun _ => rfl) (.inl rfl)
      (.quiet rfl rfl (fun _ member => member) (Nat.le_refl _) rfl) ?_ (fun u => unready u .idle)
    intro z db' _
    exact ⟨rfl,.inl (by rw [db'])⟩
  unfold startup openDurable tryCall
  rw [Program.bindAssoc]
  refine bootThen closed rfl (fun _ => rfl) (.inl rfl) (still w) ?_ (fun u => unready u .down)
  intro v db
  rw [Program.bindAssoc]
  refine bootThen (by rw [db]) rfl (fun _ => rfl) (.inl rfl) (still v) ?_ (fun u => unready u .down)
  intro u db'
  rw [Program.bindAssoc]
  refine bootThen (by rw [db']) rfl (fun _ => rfl) (.inl rfl) (still u) ?_ (fun u => unready u .down)
  intro z db''
  cases found : u.db.durable.schemaVersion with
  | none =>
    rw [Program.bindAssoc]
    refine bootThen (by rw [db'']) rfl (fun _ => rfl) (.inr (.inl rfl)) .migrate ?_
      (fun u => unready u .down)
    intro y db₃
    exact recovered y (by rw [db₃])
  | some version =>
    dsimp only
    split
    · exact recovered z (by rw [db''])
    · exact unready z .down

theorem acceptHarmless : (acceptClient cfg).All Harmless fun _ => True := by
  have unauthorized : (do sendError "unauthorized"; pure false : Handler Bool).All Harmless
      fun _ => True := Program.allBind (sendErrorHarmless (by decide)) fun _ _ => trivial
  refine Program.allRequest trivial fun peer => ?_
  cases peer with
  | none => exact unauthorized
  | some uid =>
    dsimp only
    split
    · exact unauthorized
    · trivial

/-! ## One event -/

/-- The frame being handled and the call its handler is at. -/
def State.pending (s : State) : Option (Context × Op) :=
  match s.phase with
  | .handling _ session input since (.call op _) => some (contextOf session input since,op)
  | _ => none

/-- Where a step of the ledger comes from: the process's own life, or the call that the
frame being handled is at. -/
def Attributed (cfg : Config) (s : State) (label : Label) : Prop :=
  (label = .quiet ∨ label = .rest ∨ label = .halt) ∨
  (s.pending = none ∧ (label = .migrate ∨ label = .recover)) ∨
  ∃ x op, s.pending = some (x,op) ∧ x.Permits cfg s.world label

theorem transitionGood {s s' : State} (h : Transition cfg s s') (phase : PhaseGood cfg s.world g s.phase) :
    ∃ label g', Ledger.Step (provisionalJobId cfg) label (s.world.ledger g) (s'.world.ledger g') ∧
      PhaseGood cfg s'.world g' s'.phase ∧ Attributed cfg s label := by
  have silent : ∀ (w : World) (h : Inflight), Ledger.Step (provisionalJobId cfg) .quiet (w.ledger h)
      (w.ledger h) := fun w h => .quiet rfl rfl (fun _ member => member) (Nat.le_refl _) rfl
  cases h with
  | ignored => exact ⟨.quiet,g,silent _ g,phase,.inl (.inl rfl)⟩
  | halted => exact ⟨.halt,.down,.halt,⟨rfl,rfl⟩,.inl (.inr (.inr rfl))⟩
  | boot w auth =>
    obtain ⟨rfl,closed⟩ := phase
    exact ⟨.quiet,.down,silent w .down,startupEnsures (w := w.boot) closed,.inl (.inl rfl)⟩
  | ready w auth => exact ⟨.quiet,g,silent w g,phase rfl,.inl (.inl rfl)⟩
  | starting w auth op next c =>
    obtain ⟨g',⟨label,kind,moves⟩,later⟩ := phase c
    refine ⟨label,g',moves,later,?_⟩
    rcases kind with rfl | other
    · exact .inl (.inl rfl)
    · exact .inr (.inl ⟨rfl,other⟩)
  | accept w auth =>
    obtain ⟨rfl,calm⟩ := phase
    exact ⟨.quiet,.idle,silent w .idle,⟨rfl,calm,acceptHarmless⟩,.inl (.inl rfl)⟩
  | admitted w auth =>
    exact ⟨.quiet,g,silent w g,⟨phase.1,phase.2.1⟩,.inl (.inl rfl)⟩
  | turnedAway w auth =>
    exact ⟨.quiet,g,silent w g,⟨phase.1,phase.2.1⟩,.inl (.inl rfl)⟩
  | accepting w auth op next c =>
    obtain ⟨rfl,calm,harmless⟩ := phase
    have steady : w.Steady (machine.answer w op c).2 := harmlessSteady harmless.1 c
    have kept := steady.dbOnly
    exact ⟨.quiet,.idle,.quiet (congrArg Connection.durable steady.db) kept.started kept.bound
      kept.faults rfl,⟨rfl,steady.calm calm,harmless.2 _⟩,.inl (.inl rfl)⟩
  | receive w auth session input =>
    obtain ⟨rfl,calm⟩ := phase
    exact ⟨.quiet,.idle,silent w .idle,handleInputEnsures calm,.inl (.inl rfl)⟩
  | left w auth session input since | stayed w auth session input since session' =>
    obtain ⟨calm,up,left⟩ := phase
    exact ⟨.rest,.idle,.rest up left,⟨rfl,calm⟩,.inl (.inr (.inl rfl))⟩
  | handling w auth session input since op next c =>
    obtain ⟨g',allowed,later⟩ := phase c
    obtain ⟨label,moves,permits⟩ := allowed.ledger
    exact ⟨label,g',moves,later,.inr (.inr ⟨_,op,rfl,permits⟩)⟩

theorem runGood (events : List Event) : (run cfg events).Good cfg := by
  refine runKeeps (I := State.Good cfg) ⟨.down,Ledger.emptySound,rfl,rfl⟩ ?_ events
  rintro s s' moved ⟨g,sound,phase⟩
  obtain ⟨label,g',moves,phase',_⟩ := transitionGood moved phase
  exact ⟨g',Ledger.stepSound moves sound,phase'⟩

end

theorem pendingAllowed {cfg : Config} {s : State} {x : Context} {op : Op} (good : s.Good cfg)
    (pending : s.pending = some (x,op)) :
    x.Confined s.world op ∧ x.Truthful cfg s.world op := by
  obtain ⟨g,_,phase⟩ := good
  unfold State.pending at pending
  split at pending
  · rename_i auth session input since op' next at'
    obtain ⟨rfl,rfl⟩ := Prod.mk.inj (Option.some.inj pending)
    rw [at'] at phase
    obtain ⟨_,allowed,_⟩ := phase (smooth "" [] op')
    exact ⟨allowed.confined,allowed.truthful⟩
  · cases pending

/-! ## Claims of the past -/

/-- Every durable claim was granted at some point of the run. -/
def World.Recorded (w : World) : Prop := ∀ k ∈ w.db.durable.claimKeys, k ∈ w.granted

theorem recordedDb {w : World} (db : Connection) (outcome : SqlOutcome) (h : w.Recorded) :
    (w.withDb db outcome).Recorded := by
  intro k member
  by_cases before : k ∈ w.db.durable.claimKeys
  · exact List.mem_append_left _ (h k before)
  · exact List.mem_append_right _ (List.mem_filter.mpr ⟨member,by simpa using before⟩)

theorem recordedAnswer {w : World} (op : Op) (c : Choice op) (h : w.Recorded) :
    (w.answer op c).2.Recorded := by
  cases op with
  | beginImmediate | commit | rollback => exact recordedDb _ c h
  | sql s => cases s <;> exact recordedDb _ c h
  | readBody length => cases c <;> exact h
  | _ => exact h

theorem runRecorded (cfg : Config) (events : List Event) : (run cfg events).world.Recorded := by
  refine runKeeps (I := fun s : State => s.world.Recorded) (fun _ member => by cases member) ?_ events
  intro s s' moved h
  cases moved with
  | starting w auth op next c | accepting w auth op next c | handling w auth session input since op next c =>
    exact recordedAnswer op c h
  | _ => exact h

/-! ## A small deployment, for runs on fixed inputs

Two clients, one secret; the digests, token bodies and signatures are what SHA-256,
base64 and HMAC-SHA256 give for them. -/

def everyCapability : List BrokerCapability :=
  [.runtimeNegotiate,.runtimeStart,.runtimeStatus,.runtimeResult,.runtimeCancel]

def smallAuth : BrokerAuth := ⟨"AAAAAAAAAAAAAAAAAAAAAA",List.replicate 32 0⟩

def claimsA : TokenClaims :=
  ⟨smallAuth.epoch,"a","AAAAAAAAAAAAAAAAAAAAAQ","p",everyCapability,60,"AAAAAAAAAAAAAAAAAAAAAg"⟩

def claimsB : TokenClaims :=
  ⟨smallAuth.epoch,"a:b","AAAAAAAAAAAAAAAAAAAAAw","p",everyCapability,60,"AAAAAAAAAAAAAAAAAAAABA"⟩

def bodyA : String :=
  "eyJlcG9jaCI6IkFBQUFBQUFBQUFBQUFBQUFBQUFBQUEiLCJjbGllbnRfaWQiOiJhIiwic2Vzc2lvbl9pZCI6IkFB" ++
  "QUFBQUFBQUFBQUFBQUFBQUFBQVEiLCJwcm9qZWN0X2lkIjoicCIsImNhcGFiaWxpdGllcyI6WyJydW50aW1lOm5l" ++
  "Z290aWF0ZSIsInJ1bnRpbWU6c3RhcnQiLCJydW50aW1lOnN0YXR1cyIsInJ1bnRpbWU6cmVzdWx0IiwicnVudGlt" ++
  "ZTpjYW5jZWwiXSwiZXhwaXJlc19hdCI6NjAsIm5vbmNlIjoiQUFBQUFBQUFBQUFBQUFBQUFBQUFBZyJ9"

def sigA : String :=
  "wXGgG57gDgFJH7ZIGMJZUuQcqG9NDSOGLG9nvJOda1A"

def macA : Bytes :=
  [193,113,160,27,158,224,14,1,73,31,182,72,24,194,89,82,
   228,28,168,111,77,13,35,134,44,111,103,188,147,157,107,80]

def bodyB : String :=
  "eyJlcG9jaCI6IkFBQUFBQUFBQUFBQUFBQUFBQUFBQUEiLCJjbGllbnRfaWQiOiJhOmIiLCJzZXNzaW9uX2lkIjoi" ++
  "QUFBQUFBQUFBQUFBQUFBQUFBQUFBdyIsInByb2plY3RfaWQiOiJwIiwiY2FwYWJpbGl0aWVzIjpbInJ1bnRpbWU6" ++
  "bmVnb3RpYXRlIiwicnVudGltZTpzdGFydCIsInJ1bnRpbWU6c3RhdHVzIiwicnVudGltZTpyZXN1bHQiLCJydW50" ++
  "aW1lOmNhbmNlbCJdLCJleHBpcmVzX2F0Ijo2MCwibm9uY2UiOiJBQUFBQUFBQUFBQUFBQUFBQUFBQUJBIn0"

def sigB : String :=
  "rC_d2JRBYJAqEbWbaja3VeUnhxRVyHClos4KRxKHHnY"

def macB : Bytes :=
  [172,47,221,216,148,65,96,144,42,17,181,155,106,54,183,85,
   229,39,135,20,85,200,112,165,162,206,10,71,18,135,30,118]

def smallDigest (material : Bytes) : String :=
  if material = utf8String "a:r" then
    "2cedb8b376ad2ff442f6cbbfa17a960a0e2e0687a14402a3a9d2cf3f890a9112"
  else if material = utf8String "a:b:c" then
    "b0ee04f880c4ff4261479e2e7822b7410aee4c7159f4185ad5b0d88a312b495e"
  else if material =
      utf8String "\x7b\"version\":1,\"requestId\":\"r\",\"method\":\"start\",\"params\":\x7b\x7d\x7d" then
    "72d128eb5f1560b78c8e378211275f5bd9acbc7610e5b6779055eff2dac8429d"
  else if material =
      utf8String "\x7b\"version\":1,\"requestId\":\"b:c\",\"method\":\"start\",\"params\":\x7b\x7d\x7d" then
    "0c72b424dca71a6502236465664252822eb1602d84b1ed80076a40df11514c7b"
  else "1ebbf6b2cf9dd1a5c944dc504bbe1e52802f0f6e90ded7e0d90f930290857073"

/- What the crates compute on the inputs below; replies are the bodies that parse. -/
def smallConfig (executor : Bool) (replies : List Value) : Config where
  projectId := "p"
  euid := 0
  executor := executor
  tokenFile := false
  sha256Hex := smallDigest
  hmacSha256 _ body := if body = utf8String bodyA then macA else macB
  base64Encode b :=
    if b = macA then sigA else if b = macB then sigB
    else if b = claimsA.toValue.render then bodyA else bodyB
  base64Decode b :=
    if b = utf8String sigA then some macA else if b = utf8String sigB then some macB
    else if b = utf8String bodyA then some claimsA.toValue.render
    else some claimsB.toValue.render
  fromSlice b := (.null :: claimsA.toValue :: claimsB.toValue :: replies).find? fun v => v.render == b

def answers (n : Nat) (body : Value) : List Event :=
  List.replicate n (.answer (smooth "" body.render))

/-- The process starts on a file without rows. -/
def booting : List Event := .boot smallAuth :: answers 7 .null

def connecting (claims : TokenClaims) : List Event :=
  [.accept] ++ answers 2 .null ++
  [.receive (.message (.hello ⟨2,"hello",claims.clientId,"p",everyCapability⟩)),
    .answer (smooth claims.sessionId []),.answer (smooth claims.nonce [])] ++ answers 3 .null

def frameOf (claims : TokenClaims) (token : String) (sequence : Int) (method : RpcMethod)
    (requestId : String) (params : Value) : Event :=
  .receive (.message (.request ⟨2,"request",token,claims.epoch,claims.sessionId,sequence,"p",
    ⟨1,requestId,method,params⟩⟩))

def frameA : Int → RpcMethod → String → Value → Event := frameOf claimsA (bodyA ++ "." ++ sigA)
def frameB : Int → RpcMethod → String → Value → Event := frameOf claimsB (bodyB ++ "." ++ sigB)

/-- A reply of the executor's that names its request and its method. -/
def executorReply (method : RpcMethod) (requestId : String) (data : Value) : Value :=
  .object [("data",data),("method",.string method.wire),("requestId",.string requestId),
    ("success",.bool true),("version",natural 1)]

end Northstar.Broker
