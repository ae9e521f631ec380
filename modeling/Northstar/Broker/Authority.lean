import Northstar.Broker.Lifecycle

/-! Who may act. A handler reaches the database or the executor only behind the checks
of its frame, in whatever order a connection sends its frames. -/
namespace Northstar.Broker

/- Every call of the database and of the executor; the rest draws a number, reads the
clock or answers the client. -/
def Acts : Op → Prop
  | .nowSecs | .random | .peerIdentity | .send _ | .sendWelcome _ _ => False
  | _ => True
instance (op : Op) : Decidable (Acts op) := by unfold Acts; split <;> infer_instance

/-- The part of a frame that is checked before it is acted on. -/
structure Demand where
  projectId : String
  epoch : String
  token : String
  sequence : Int
  capability : BrokerCapability

def Input.demand : Input → Option Demand
  | .message (.request r) =>
      some ⟨r.projectId,r.epoch,r.token,r.sequence,capabilityForMethod r.request.method⟩
  | .message (.query q) => some ⟨q.projectId,q.epoch,q.token,q.sequence,.runtimeStatus⟩
  | _ => none

def firstSequences (n : Nat) : List Int := (List.range n).map fun i : Nat => (i : Int) + 1

theorem firstSequencesSucc (n : Nat) :
    firstSequences (n + 1) = firstSequences n ++ [(n : Int) + 1] := by
  simp only [firstSequences,List.range_succ,List.map_append,List.map_cons,List.map_nil]

/-- The welcome came from this process and answered this hello; the numbers let through
since are 1, 2, 3 and so on. -/
structure Welcomed (cfg : Config) (auth : BrokerAuth) (issued : List TokenClaims) (s : Session) :
    Prop where
  project : s.hello.projectId = cfg.projectId
  token : ∃ claims ∈ issued, s.welcome = welcomeFor cfg auth s.hello claims ∧
    claims.epoch = auth.epoch ∧ claims.clientId = s.hello.clientId ∧
    claims.projectId = cfg.projectId ∧
    claims.capabilities = intersectCapabilities s.hello.requestedCapabilities
  accepted : s.accepted = firstSequences s.accepted.length
  next : s.nextSequence = s.accepted.length + 1

/-- What the checks of one frame found, in the source's order. -/
structure Checked (cfg : Config) (auth : BrokerAuth) (s : Session) (d : Demand)
    (claims : TokenClaims) (now : Nat) : Prop where
  project : d.projectId = cfg.projectId
  epoch : d.epoch = auth.epoch
  sequence : d.sequence = s.nextSequence
  token : ∃ body sig, splitToken d.token = some (body,sig) ∧
    verifySignature cfg auth.rootSecret body sig = true ∧ decodeClaims cfg body = some claims
  session : claims.sessionId = s.welcome.sessionId
  unexpired : now < claims.expiresAt
  capability : d.capability ∈ claims.capabilities

/- History only grows. -/
structure World.Extends (u v : World) : Prop where
  issued : u.issued <+: v.issued
  readings : u.readings <+: v.readings

namespace World
variable {u v w : World}

theorem Extends.refl (w : World) : w.Extends w := ⟨List.prefix_refl _,List.prefix_refl _⟩

theorem Extends.trans (first : u.Extends v) (second : v.Extends w) : u.Extends w :=
  ⟨first.issued.trans second.issued,first.readings.trans second.readings⟩

theorem answerExtends (op : Op) (c : Choice op) : w.Extends (machine.answer w op c).2 := by
  cases op with
  | nowSecs => exact ⟨List.prefix_refl _,List.prefix_append _ _⟩
  | sendWelcome _ _ => exact ⟨List.prefix_append _ _,List.prefix_refl _⟩
  | sql s => cases s <;> exact ⟨List.prefix_refl _,List.prefix_refl _⟩
  | readBody _ => cases c <;> exact ⟨List.prefix_refl _,List.prefix_refl _⟩
  | _ => exact ⟨List.prefix_refl _,List.prefix_refl _⟩

end World

theorem welcomedExtends {cfg : Config} {auth : BrokerAuth} {s : Session} {u v : World}
    (h : Welcomed cfg auth u.issued s) (grown : u.Extends v) : Welcomed cfg auth v.issued s := by
  obtain ⟨claims,member,rest⟩ := h.token
  exact ⟨h.project,⟨claims,grown.issued.subset member,rest⟩,h.accepted,h.next⟩

theorem welcomedNext {cfg : Config} {auth : BrokerAuth} {issued : List TokenClaims} {s : Session}
    (h : Welcomed cfg auth issued s) :
    s.accepted ++ [s.nextSequence] = firstSequences (s.accepted.length + 1) := by
  rw [firstSequencesSucc,← h.accepted,h.next]

theorem welcomedAccept {cfg : Config} {auth : BrokerAuth} {issued : List TokenClaims} {s : Session}
    (h : Welcomed cfg auth issued s) : Welcomed cfg auth issued (s.accept s.nextSequence) := by
  refine ⟨h.project,h.token,?_,?_⟩
  · simp only [Session.accept,List.length_append,List.length_singleton]
    exact welcomedNext h
  · have next := h.next
    simp only [Session.nextSequence,Session.accept,Option.elim_some,List.length_append,
      List.length_singleton] at next ⊢
    omega

/-! ## One frame -/

def Guarded (cfg : Config) (auth : BrokerAuth) (session : Option Session) (input : Input)
    (since : World) (op : Op) (w : World) (_ : Unit) (_ : World) (_ : Unit) : Prop :=
  Acts op → ∃ s d claims now, session = some s ∧ input.demand = some d ∧
    Checked cfg auth s d claims now ∧ since.readings ++ [now] <+: w.readings

def Granted (cfg : Config) (auth : BrokerAuth) (out : Option Session) (w : World) (_ : Unit) : Prop :=
  ∀ s, out = some s → Welcomed cfg auth w.issued s

section
variable {cfg : Config} {auth : BrokerAuth} {session : Option Session} {input : Input}
  {since w : World} {s : Session} {d : Demand} {α : Type}

theorem idleEnsures {p : Handler α} {Q : α → Prop} (idle : p.All (¬ Acts ·) Q) :
    machine.Ensures (Guarded cfg auth session input since) p
      (fun value w' _ => w.Extends w' ∧ Q value) w () := by
  have each : ∀ op v c, ¬ Acts op → w.Extends v →
      Guarded cfg auth session input since op v () (machine.answer v op c).2 () ∧
        w.Extends (machine.answer v op c).2 :=
    fun op v c idle grown => ⟨fun acts => absurd acts idle,grown.trans (World.answerExtends op c)⟩
  refine Machine.ensuresMono ?_ (Machine.ensuresOfAll each idle (World.Extends.refl w))
  rintro value w' _ ⟨grown,_,ends⟩
  exact ⟨grown,ends⟩

theorem sendMsgIdle {message : BrokerMessage} : (sendMsg message).All (¬ Acts ·) fun _ => True := by
  unfold sendMsg
  split
  · trivial
  · exact ⟨fun acts => acts,fun _ => trivial⟩

theorem closeIdle {code : String} : (close code).All (¬ Acts ·) fun out => out = none := by
  have told : (sendError code).All (¬ Acts ·) fun _ => True :=
    Program.allBind sendMsgIdle fun _ _ => trivial
  exact Program.allBind told fun _ _ => rfl

theorem issueSessionIdle {clientId projectId : String} {granted : List BrokerCapability} :
    (issueSession auth clientId projectId granted).All (¬ Acts ·) fun claims =>
      claims.epoch = auth.epoch ∧ claims.clientId = clientId ∧ claims.projectId = projectId ∧
      claims.capabilities = granted :=
  Program.allRequest (fun acts => acts) fun _ => Program.allRequest (fun acts => acts) fun _ =>
    Program.allRequest (fun acts => acts) fun _ => ⟨rfl,rfl,rfl,rfl⟩

theorem idleThen {op : Op} {post : α → World → Unit → Prop} {next : Reply op → Handler α}
    (idle : ¬ Acts op) (each : ∀ c, machine.Ensures (Guarded cfg auth session input since)
      (next (machine.answer w op c).1) post (machine.answer w op c).2 ()) :
    machine.Ensures (Guarded cfg auth session input since) (call op >>= next) post w () :=
  fun c => ⟨(),fun acts => absurd acts idle,each c⟩

theorem closeGuarded {code : String} :
    machine.Ensures (Guarded cfg auth session input since) (close code) (Granted cfg auth) w () := by
  refine Machine.ensuresMono ?_ (idleEnsures closeIdle)
  rintro out w' _ ⟨_,rfl⟩ s same
  cases same

theorem handleHelloGuarded {m : BrokerMessage} :
    machine.Ensures (Guarded cfg auth session input since) (handleHello cfg auth m)
      (Granted cfg auth) w () := by
  unfold handleHello
  split
  · rename_i hello
    split
    · exact closeGuarded
    rename_i project
    refine Machine.ensuresThen (idleEnsures issueSessionIdle) ?_
    rintro claims v _ ⟨_,epoch,client,project',granted⟩
    unfold sendWelcome
    split
    · intro s same
      cases same
    · refine idleThen (fun acts => acts) ?_
      intro sent
      cases sent with
      | false =>
        intro s same
        cases same
      | true =>
        intro s same
        cases same
        exact ⟨not_not.mp project,⟨claims,List.mem_append_right _ (List.mem_singleton.mpr rfl),
          rfl,epoch,client,project',granted⟩,rfl,rfl⟩
  · exact closeGuarded

/-- A verified token is this process's for this session, read as unexpired after the
frame came in. -/
theorem verifyTokenGuarded (project : d.projectId = cfg.projectId) (epoch : d.epoch = auth.epoch)
    (sequence : d.sequence = s.nextSequence) :
    machine.Ensures (Guarded cfg auth session input since)
      (verifyToken cfg auth d.token auth.epoch s.welcome.clientId s.welcome.sessionId d.capability)
      (fun reply w' _ => w.Extends w' ∧ (reply = .ok () → ∃ claims now,
        Checked cfg auth s d claims now ∧ w'.readings = w.readings ++ [now])) w () := by
  have stopped : ∀ e : VerifyError, machine.Ensures (Guarded cfg auth session input since)
      (pure (.error e) : Handler (Except VerifyError Unit))
      (fun reply w' _ => w.Extends w' ∧ (reply = .ok () → ∃ claims now,
        Checked cfg auth s d claims now ∧ w'.readings = w.readings ++ [now])) w () :=
    fun e => ⟨World.Extends.refl w,fun same => by cases same⟩
  unfold verifyToken
  split
  · exact stopped _
  rename_i body sig parts
  split
  · exact stopped _
  rename_i signed
  split
  · exact stopped _
  rename_i claims decoded
  split
  · exact stopped _
  split
  · exact stopped _
  rename_i owner
  split
  · exact stopped _
  refine idleThen (fun acts => acts) ?_
  intro now
  have grown : w.Extends (machine.answer w .nowSecs now).2 := World.answerExtends .nowSecs now
  by_cases expired : claims.expiresAt ≤ (machine.answer w .nowSecs now).1
  · rw [if_pos expired]
    exact ⟨grown,fun same => by cases same⟩
  rw [if_neg expired]
  split
  · exact ⟨grown,fun same => by cases same⟩
  rename_i capable
  refine ⟨grown,fun _ => ⟨claims,now,?_,rfl⟩⟩
  exact ⟨project,epoch,sequence,⟨body,sig,parts,by simpa using signed,decoded⟩,
    not_not.mp fun other => owner (.inr other),Nat.lt_of_not_le expired,not_not.mp capable⟩

theorem authorizeGuarded {act : Handler Bool} (welcomed : Welcomed cfg auth since.issued s)
    (asked : input.demand = some d) :
    machine.Ensures (Guarded cfg auth (some s) input since)
      (authorize cfg auth s d.projectId d.epoch d.token d.sequence d.capability act)
      (Granted cfg auth) since () := by
  unfold authorize
  split
  · exact closeGuarded
  rename_i project
  split
  · exact closeGuarded
  rename_i epoch
  split
  · exact closeGuarded
  rename_i sequence
  refine Machine.ensuresThen (verifyTokenGuarded (not_not.mp project) (not_not.mp epoch)
    (not_not.mp sequence)) ?_
  rintro reply w g ⟨grown,verified⟩
  cases reply with
  | error e => exact closeGuarded
  | ok =>
    obtain ⟨claims,now,checked,read⟩ := verified rfl
    -- whatever the handler calls from here on, it calls behind the checks
    have each : ∀ op v c, True → w.Extends v →
        Guarded cfg auth (some s) input since op v () (machine.answer v op c).2 () ∧
          w.Extends (machine.answer v op c).2 :=
      fun op v c _ later => ⟨fun _ => ⟨s,d,claims,now,rfl,asked,checked,read ▸ later.readings⟩,
        later.trans (World.answerExtends op c)⟩
    refine Machine.ensuresThen
      (Machine.ensuresOfAll each (Program.allTrue act) (World.Extends.refl w)) ?_
    rintro continues v _ ⟨later,_,_⟩ s' same
    cases continues with
    | false => cases same
    | true =>
      cases same
      have next := welcomedExtends (welcomedAccept welcomed) (grown.trans later)
      rwa [← checked.sequence] at next

theorem handleInputGuarded (welcomed : ∀ s, session = some s → Welcomed cfg auth since.issued s) :
    machine.Ensures (Guarded cfg auth session input since) (handleInput cfg auth session input)
      (Granted cfg auth) since () := by
  unfold handleInput
  split
  · intro s same
    cases same
  · exact closeGuarded
  · cases session with
    | none => exact handleHelloGuarded
    | some s =>
      dsimp only
      unfold handleMessage
      split
      · exact authorizeGuarded (d := ⟨_,_,_,_,_⟩) (welcomed s rfl) rfl
      · exact authorizeGuarded (d := ⟨_,_,_,_,_⟩) (welcomed s rfl) rfl
      · exact closeGuarded

end

/-! ## Whole runs -/

def Lawful (cfg : Config) (s : State) : Prop :=
  match s.phase with
  | .serving auth session => Granted cfg auth session s.world ()
  | .handling auth session input since p =>
      Granted cfg auth session since () ∧
      machine.Ensures (Guarded cfg auth session input since) p (Granted cfg auth) s.world ()
  | _ => True

theorem runLawful (cfg : Config) (events : List Event) : Lawful cfg (run cfg events) := by
  refine runKeeps (I := Lawful cfg) trivial ?_ events
  intro s s' moved lawful
  cases moved with
  | ignored => exact lawful
  | admitted w auth => exact fun s same => by cases same
  | receive w auth session input => exact ⟨lawful,handleInputGuarded lawful⟩
  | stayed w auth session input since session' => exact lawful.2
  | handling w auth session input since op next c =>
    obtain ⟨_,_,later⟩ := lawful.2 c
    exact ⟨lawful.1,later⟩
  | _ => trivial

/-- A handler at a call of the database or of the executor. -/
structure Acting where
  auth : BrokerAuth
  session : Option Session
  input : Input
  since : World
  world : World

def State.acting (s : State) : Option Acting :=
  match s.phase with
  | .handling auth session input since (.call op _) =>
      if Acts op then some ⟨auth,session,input,since,s.world⟩ else none
  | _ => none

/-- A body whose signature verifies was signed by this process. -/
def Acting.Unforged (cfg : Config) (a : Acting) : Prop :=
  match (a.input.demand.bind fun d => splitToken d.token) with
  | none => True
  | some (body,sig) => verifySignature cfg a.auth.rootSecret body sig = true →
      ∃ claims ∈ a.since.issued, body = utf8String (encodeClaims cfg claims)
instance (cfg : Config) (a : Acting) : Decidable (a.Unforged cfg) := by
  unfold Acting.Unforged; split <;> infer_instance

/-- base64 and serde_json read back what they wrote, and the clock has not run out. -/
def ReadsBack (cfg : Config) (issued : List TokenClaims) : Prop :=
  ∀ claims ∈ issued, claims.expiresAt < 2^64 ∧
    cfg.base64Decode (utf8String (encodeClaims cfg claims)) = some claims.toValue.render ∧
    cfg.fromSlice claims.toValue.render = some claims.toValue

/-- The frame's authority: its session's own welcome and its session's own token. -/
structure Acting.Authority (cfg : Config) (a : Acting) (s : Session) (d : Demand)
    (claims : TokenClaims) : Prop where
  session : a.session = some s
  demand : a.input.demand = some d
  issued : claims ∈ a.since.issued
  welcome : s.welcome = welcomeFor cfg a.auth s.hello claims
  project : s.hello.projectId = cfg.projectId ∧ d.projectId = cfg.projectId ∧
    claims.projectId = cfg.projectId
  epoch : d.epoch = a.auth.epoch ∧ claims.epoch = a.auth.epoch
  client : claims.clientId = s.hello.clientId
  sequence : s.accepted ++ [d.sequence] = firstSequences (s.accepted.length + 1)
  token : ∃ body sig, splitToken d.token = some (body,sig) ∧
    body = utf8String (encodeClaims cfg claims) ∧
    cfg.base64Decode sig = some (cfg.hmacSha256 a.auth.rootSecret body)
  unexpired : ∃ now, a.since.readings ++ [now] <+: a.world.readings ∧ now < claims.expiresAt
  capability : d.capability ∈ claims.capabilities
  granted : claims.capabilities = intersectCapabilities s.hello.requestedCapabilities

theorem readCapabilityList (capabilities : List BrokerCapability) :
    (capabilities.map fun c => Value.string c.wire).mapM
      (fun item => (variantName item).bind readCapability) = some capabilities := by
  induction capabilities with
  | nil => rfl
  | cons c rest ih =>
    have head : (variantName (.string c.wire)).bind readCapability = some c := capabilityRead c
    simp only [List.map_cons,List.mapM_cons,head,ih]
    rfl

theorem readClaimsBack {claims : TokenClaims} (fits : claims.expiresAt < 2^64) :
    readClaims claims.toValue = some claims := by
  have shape : readClaims claims.toValue =
      ((claims.capabilities.map fun c => Value.string c.wire).mapM
        fun item => (variantName item).bind readCapability).bind fun capabilities =>
      (if 0 ≤ (claims.expiresAt : Int) ∧ (claims.expiresAt : Int) < (2^64 : Nat) then
        some (claims.expiresAt : Int).toNat else none).bind fun expiresAt =>
      some ⟨claims.epoch,claims.clientId,claims.sessionId,claims.projectId,capabilities,expiresAt,
        claims.nonce⟩ := rfl
  have bounds : 0 ≤ (claims.expiresAt : Int) ∧ (claims.expiresAt : Int) < (2^64 : Nat) := by omega
  rw [shape,readCapabilityList,if_pos bounds]
  rfl

theorem decodeEncoded {cfg : Config} {issued : List TokenClaims} {claims : TokenClaims}
    (readsBack : ReadsBack cfg issued) (member : claims ∈ issued) :
    decodeClaims cfg (utf8String (encodeClaims cfg claims)) = some claims := by
  obtain ⟨fits,decoded,parsed⟩ := readsBack claims member
  have steps : decodeClaims cfg (utf8String (encodeClaims cfg claims)) =
      ((cfg.base64Decode (utf8String (encodeClaims cfg claims))).bind fun decoded =>
        (cfg.fromSlice decoded).bind readClaims) := rfl
  rw [steps,decoded,Option.bind_some,parsed,Option.bind_some,readClaimsBack fits]

/-- No run reaches the database or the executor for a frame without this authority. The
signature is unforgeable and no session id is drawn twice by one process. -/
theorem mutationsAuthorized {cfg : Config} {events : List Event} {a : Acting}
    (acting : (run cfg events).acting = some a) (unforged : a.Unforged cfg)
    (readsBack : ReadsBack cfg a.since.issued)
    (drawnOnce : (a.since.issued.map (·.sessionId)).Nodup) :
    ∃ s d claims, a.Authority cfg s d claims := by
  have lawful := runLawful cfg events
  generalize run cfg events = state at acting lawful
  unfold State.acting at acting
  split at acting
  case h_2 => cases acting
  rename_i auth session input since op next at'
  split at acting
  case isFalse => cases acting
  rename_i acts
  cases acting
  simp only [Lawful,at'] at lawful
  obtain ⟨welcomed,guarded⟩ := lawful
  obtain ⟨_,checks,_⟩ := guarded (smooth "" [] op)
  obtain ⟨s,d,seen,now,rfl,demand,checked,read⟩ := checks acts
  obtain ⟨project,⟨own,issued,welcome,epoch,client,ofProject,granted⟩,accepted,next'⟩ := welcomed s rfl
  obtain ⟨body,sig,parts,signed,decoded⟩ := checked.token
  -- the verified body was signed for some session of this process, and its id says which
  have signedHere : ∃ claims ∈ since.issued, body = utf8String (encodeClaims cfg claims) := by
    simp only [Acting.Unforged,demand,Option.bind_some,parts] at unforged
    exact unforged signed
  obtain ⟨claims,member,rfl⟩ := signedHere
  rw [decodeEncoded readsBack member] at decoded
  have same : claims = seen := Option.some.inj decoded
  subst same
  have ofSession : claims.sessionId = own.sessionId := by
    rw [checked.session,welcome]
    rfl
  have same : claims = own := List.inj_on_of_nodup_map drawnOnce member issued ofSession
  subst same
  refine ⟨s,d,claims,rfl,demand,issued,welcome,⟨project,checked.project,ofProject⟩,
    ⟨checked.epoch,epoch⟩,client,?_,⟨_,sig,parts,rfl,(verifySignatureExact cfg).mp signed⟩,
    ⟨now,read,checked.unexpired⟩,checked.capability,granted⟩
  rw [checked.sequence]
  exact welcomedNext ⟨project,⟨claims,issued,welcome,epoch,client,ofProject,granted⟩,accepted,next'⟩

theorem startAuthorized :
    let s := run (smallConfig true []) (startingR ++ answers 2 .null)
    ∃ a, s.acting = some a ∧ ∃ session d claims, a.Authority (smallConfig true []) session d claims := by
  intro s
  have facts : ∃ present : s.acting.isSome, (s.acting.get present).Unforged (smallConfig true []) ∧
      (s.acting.get present).since.issued = [claimsA] := by
    decide +kernel
  obtain ⟨present,unforged,issued⟩ := facts
  have readsBack : ReadsBack (smallConfig true []) [claimsA] := by
    intro claims member
    rw [List.mem_singleton.mp member]
    refine ⟨by decide,by decide +kernel,?_⟩
    have other : (Value.null.render == claimsA.toValue.render) = false := by decide
    simp [smallConfig,List.find?_cons,other]
  exact ⟨_,(Option.some_get present).symm,mutationsAuthorized (Option.some_get present).symm unforged
    (by rw [issued]; exact readsBack) (by rw [issued]; exact List.nodup_singleton _)⟩

end Northstar.Broker
