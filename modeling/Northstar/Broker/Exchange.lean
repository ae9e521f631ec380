import Northstar.Broker.Journal

/-! The executor client against the ledger: connecting is invisible to it, and an
error before dispatch means that no request frame was begun. -/
namespace Northstar.Broker

section
variable {cfg : Config} {x : Context} {w : World} {g g' : Inflight} {clientId : String}
  {request : RuntimeRpcRequest} {timeout : Nat}

/-- Connecting only ever fails before dispatch. -/
def BeforeDispatch : Except ExecutorError Unit → Prop
  | .error (.afterDispatch _) => False
  | _ => True

theorem attestHarmless : (attestPeer cfg).All Harmless BeforeDispatch := by
  refine Program.allRequest trivial fun reply => ?_
  cases reply with
  | ok uid => dsimp only; split <;> trivial
  | error e =>
    refine Program.allRequest trivial fun owner => ?_
    cases owner with
    | none => trivial
    | some uid => dsimp only; split <;> trivial

theorem sendTokenHarmless : sendToken.All Harmless BeforeDispatch := by
  refine Program.allRequest trivial fun token => ?_
  cases token with
  | none => trivial
  | some token =>
    dsimp only
    split
    · trivial
    refine Program.allRequest trivial fun written => ?_
    cases written with
    | error e => trivial
    | ok =>
      refine Program.allRequest trivial fun flushed => ?_
      cases flushed <;> trivial

theorem connectHarmless : (connectFresh cfg).All Harmless BeforeDispatch := by
  refine Program.allRequest trivial fun reply => ?_
  cases reply with
  | error e => trivial
  | ok =>
    refine Program.allBind attestHarmless fun attested before => ?_
    cases attested with
    | error e => exact before
    | ok =>
      dsimp only
      split
      · exact sendTokenHarmless
      · trivial

theorem prepareHarmless : (prepare cfg).All Harmless BeforeDispatch := by
  refine Program.allRequest trivial fun slot => ?_
  cases slot with
  | none => trivial
  | some present =>
    cases present with
    | true => trivial
    | false =>
      refine Program.allBind connectHarmless fun connected before => ?_
      cases connected with
      | error e => exact before
      | ok => exact ⟨trivial,fun _ => trivial⟩

/-- The request frame was begun: the rows are as before, one more write is counted. -/
structure Exchanged (w w' : World) : Prop where
  db : w'.db = w.db
  bound : w'.bound = w.bound
  faults : w'.faults = w.faults
  writes : w'.writes = w.writes + 1

def Replied (w : World) (g g' : Inflight) : Except ExecutorError Bytes → World → Inflight → Prop
  | .ok body, w', h => Exchanged w w' ∧ w'.replyBody = some body ∧ h = g'
  | .error (.afterDispatch _), w', h => Exchanged w w' ∧ w'.replyBody = none ∧ h = g'
  | .error (.beforeDispatch _), w', h => w.Steady w' ∧ h = g

/-- What writing this request is to the ledger, from any world with these rows. -/
def Writes (cfg : Config) (x : Context) (w : World) (clientId : String) (request : RuntimeRpcRequest)
    (g g' : Inflight) : Prop :=
  ∀ v frame, w.Steady v → x.Confined v (.writeRequest clientId request frame) ∧
    ∃ label, Ledger.Step (provisionalJobId cfg) label (v.ledger g)
      ((v.noteWrite clientId request).ledger g') ∧ x.Permits cfg v label

theorem Exchanged.steady {u v : World} (first : Exchanged w u) (second : u.Steady v) :
    Exchanged w v :=
  ⟨second.db.trans first.db,second.bound.trans first.bound,second.faults.trans first.faults,
    second.writes.trans first.writes⟩

theorem readReplyEnsures (begun : w.replyBody = none) :
    machine.Ensures (Allowed cfg x) readReply (fun reply v h => h = g ∧ v.db = w.db ∧
      v.bound = w.bound ∧ v.faults = w.faults ∧ v.writes = w.writes ∧
      match reply with
      | .ok body => v.replyBody = some body
      | .error (.afterDispatch _) => v.replyBody = none
      | .error (.beforeDispatch _) => False) w g := by
  refine quietThen trivial ?_
  intro length v steady
  have none' : v.replyBody = none := steady.replyBody.trans begun
  cases length with
  | error e =>
    exact ⟨rfl,steady.db,steady.bound,steady.faults,steady.writes,none'⟩
  | ok length =>
    dsimp only
    split
    · exact ⟨rfl,steady.db,steady.bound,steady.faults,steady.writes,none'⟩
    refine readBodyThen ?_ ?_
    · intro e
      exact ⟨rfl,steady.db,steady.bound,steady.faults,steady.writes,none'⟩
    · intro body
      exact ⟨rfl,steady.db,steady.bound,steady.faults,steady.writes,rfl⟩

theorem executeOnStreamEnsures {json : Bytes} (writes : Writes cfg x w clientId request g g') :
    machine.Ensures (Allowed cfg x) (executeOnStream clientId request json timeout)
      (fun reply w' h => Replied w g g' reply w' h ∧
        ∀ m, reply ≠ .error (.beforeDispatch m)) w g := by
  obtain ⟨confined,moves⟩ := writes w (be32 json.length ++ json) (World.Steady.refl w)
  refine writeRequestThen (h := g') moves confined ?_
  have begun : Exchanged w (w.noteWrite clientId request) := ⟨rfl,rfl,rfl,rfl⟩
  -- the write has begun: whatever fails from here on is after dispatch
  have lost : ∀ v e, (w.noteWrite clientId request).Steady v →
      Replied w g g' (.error (.afterDispatch e)) v g' ∧
        ∀ m, (.error (.afterDispatch e) : Except ExecutorError Bytes) ≠ .error (.beforeDispatch m) :=
    fun v e steady => ⟨⟨begun.steady steady,steady.replyBody,rfl⟩,fun m same => by cases same⟩
  intro written
  cases written with
  | error e => exact lost _ _ (World.Steady.refl _)
  | ok =>
    refine quietThen trivial ?_
    intro flushed v steady
    cases flushed with
    | error e => exact lost v _ steady
    | ok =>
      refine quietThen trivial ?_
      intro set u steady'
      cases set with
      | error e => exact lost u _ (steady.trans steady')
      | ok =>
        have reached := begun.steady (steady.trans steady')
        refine Machine.ensuresMono ?_ (readReplyEnsures (steady.trans steady').replyBody)
        rintro reply z h ⟨rfl,db,bound,faults,counted,body⟩
        have exchanged : Exchanged w z := ⟨db.trans reached.db,bound.trans reached.bound,
          faults.trans reached.faults,counted.trans reached.writes⟩
        cases reply with
        | ok bytes => exact ⟨⟨exchanged,body,rfl⟩,fun m same => by cases same⟩
        | error failure =>
          cases failure with
          | beforeDispatch m => exact body.elim
          | afterDispatch m => exact ⟨⟨exchanged,body,rfl⟩,fun m same => by cases same⟩

theorem executePreparedEnsures (writes : Writes cfg x w clientId request g g') :
    machine.Ensures (Allowed cfg x) (executePrepared clientId request timeout) (Replied w g g') w g := by
  unfold executePrepared
  split
  · exact ⟨World.Steady.refl w,rfl⟩
  refine quietThen trivial ?_
  intro slot v steady
  cases slot with
  | none => exact ⟨steady,rfl⟩
  | some present =>
    cases present with
    | false => exact ⟨steady,rfl⟩
    | true =>
      have writes' : Writes cfg x v clientId request g g' :=
        fun u frame steady' => writes u frame (steady.trans steady')
      have same : ∀ z, Exchanged v z → Exchanged w z := fun z h =>
        ⟨h.db.trans steady.db,h.bound.trans steady.bound,h.faults.trans steady.faults,
          by rw [h.writes,steady.writes]⟩
      refine Machine.ensuresThen (executeOnStreamEnsures writes') ?_
      rintro reply u h ⟨replied,after⟩
      cases reply with
      | ok body => exact ⟨same u replied.1,replied.2.1,replied.2.2⟩
      | error failure =>
        refine quietThen trivial ?_
        intro _ z dropped
        cases failure with
        | beforeDispatch m => exact absurd rfl (after m)
        | afterDispatch m =>
          exact ⟨(same u replied.1).steady dropped,dropped.replyBody.trans replied.2.1,replied.2.2⟩

theorem executeEnsures (writes : Writes cfg x w clientId request g g') :
    machine.Ensures (Allowed cfg x) (execute cfg clientId request timeout) (Replied w g g') w g := by
  refine harmlessThen prepareHarmless ?_
  intro prepared v steady before
  cases prepared with
  | error e =>
    cases e with
    | beforeDispatch m => exact ⟨steady,rfl⟩
    | afterDispatch m => exact before.elim
  | ok =>
    have writes' : Writes cfg x v clientId request g g' :=
      fun u frame steady' => writes u frame (steady.trans steady')
    refine Machine.ensuresMono ?_ (executePreparedEnsures writes')
    intro reply z h replied
    have same : ∀ z, Exchanged v z → Exchanged w z := fun z h =>
      ⟨h.db.trans steady.db,h.bound.trans steady.bound,h.faults.trans steady.faults,
        by rw [h.writes,steady.writes]⟩
    cases reply with
    | ok body => exact ⟨same z replied.1,replied.2.1,replied.2.2⟩
    | error failure =>
      cases failure with
      | beforeDispatch m => exact ⟨steady.trans replied.1,replied.2⟩
      | afterDispatch m => exact ⟨same z replied.1,replied.2.1,replied.2.2⟩

end
end Northstar.Broker
