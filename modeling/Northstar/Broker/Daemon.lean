import Northstar.Broker.Connection

/-! The broker process (main in main.rs): recovery before the socket exists, then one
client at a time. A run is a list of events: the environment starts the process,
connects, hands over a frame, answers the pending call, or kills it between two calls. -/
namespace Northstar.Broker

def startup : Handler Bool := do
  match ← openDurable with
  | .error _ => pure false
  | .ok () =>
      match ← recoverIncompleteJobs with
      | .error _ => pure false
      | .ok _ =>
          match ← call (.sql .createTables) with
          | .error _ => pure false
          | .ok _ => pure true

/- A frame being handled carries the world it arrived in, for the history only. -/
inductive Phase where
  | stopped
  | starting (auth : BrokerAuth) (p : Handler Bool)
  | listening (auth : BrokerAuth)
  | accepting (auth : BrokerAuth) (p : Handler Bool)
  | serving (auth : BrokerAuth) (session : Option Session)
  | handling (auth : BrokerAuth) (session : Option Session) (input : Input) (since : World)
      (p : Handler (Option Session))

structure State where
  world : World
  phase : Phase

inductive Event where
  | boot (auth : BrokerAuth)
  | accept
  | receive (input : Input)
  | answer (oracle : Machine.Oracle Choice)
  | crash

/-- The process is gone; a transaction it left open goes with it. -/
def stop (w : World) : State := ⟨w.crash,.stopped⟩

def resume (oracle : Machine.Oracle Choice) (w : World) : Phase → State
  | .starting auth (.done ready) => if ready then ⟨w,.listening auth⟩ else stop w
  | .starting auth p =>
      let next := machine.advance oracle w p
      ⟨next.1,.starting auth next.2⟩
  | .accepting auth (.done admitted) =>
      if admitted then ⟨w,.serving auth none⟩ else ⟨w,.listening auth⟩
  | .accepting auth p =>
      let next := machine.advance oracle w p
      ⟨next.1,.accepting auth next.2⟩
  | .handling auth _ _ _ (.done none) => ⟨w,.listening auth⟩
  | .handling auth _ _ _ (.done (some session)) => ⟨w,.serving auth (some session)⟩
  | .handling auth session input since p =>
      let next := machine.advance oracle w p
      ⟨next.1,.handling auth session input since next.2⟩
  | phase => ⟨w,phase⟩

/- An event the phase does not wait for changes nothing. -/
def step (cfg : Config) (s : State) : Event → State
  | .crash => stop s.world
  | .answer oracle => resume oracle s.world s.phase
  | .boot auth => match s.phase with
    | .stopped => ⟨s.world.boot,.starting auth startup⟩
    | _ => s
  | .accept => match s.phase with
    | .listening auth => ⟨s.world,.accepting auth (acceptClient cfg)⟩
    | _ => s
  | .receive input => match s.phase with
    | .serving auth session =>
        ⟨s.world,.handling auth session input s.world (handleInput cfg auth session input)⟩
    | _ => s

def run (cfg : Config) (events : List Event) : State :=
  events.foldl (step cfg) ⟨World.initial,.stopped⟩

/-- Everything one event can do, whichever event it is. -/
inductive Transition (cfg : Config) : State → State → Prop where
  | ignored (s) : Transition cfg s s
  | halted (s) : Transition cfg s (stop s.world)
  | boot (w auth) : Transition cfg ⟨w,.stopped⟩ ⟨w.boot,.starting auth startup⟩
  | ready (w auth) : Transition cfg ⟨w,.starting auth (.done true)⟩ ⟨w,.listening auth⟩
  | starting (w auth op next c) : Transition cfg ⟨w,.starting auth (.call op next)⟩
      ⟨(machine.answer w op c).2,.starting auth (next (machine.answer w op c).1)⟩
  | accept (w auth) : Transition cfg ⟨w,.listening auth⟩ ⟨w,.accepting auth (acceptClient cfg)⟩
  | admitted (w auth) : Transition cfg ⟨w,.accepting auth (.done true)⟩ ⟨w,.serving auth none⟩
  | turnedAway (w auth) : Transition cfg ⟨w,.accepting auth (.done false)⟩ ⟨w,.listening auth⟩
  | accepting (w auth op next c) : Transition cfg ⟨w,.accepting auth (.call op next)⟩
      ⟨(machine.answer w op c).2,.accepting auth (next (machine.answer w op c).1)⟩
  | receive (w auth session input) : Transition cfg ⟨w,.serving auth session⟩
      ⟨w,.handling auth session input w (handleInput cfg auth session input)⟩
  | left (w auth session input since) :
      Transition cfg ⟨w,.handling auth session input since (.done none)⟩ ⟨w,.listening auth⟩
  | stayed (w auth session input since session') :
      Transition cfg ⟨w,.handling auth session input since (.done (some session'))⟩
        ⟨w,.serving auth (some session')⟩
  | handling (w auth session input since op next c) :
      Transition cfg ⟨w,.handling auth session input since (.call op next)⟩
        ⟨(machine.answer w op c).2,
          .handling auth session input since (next (machine.answer w op c).1)⟩

theorem stepTransition (cfg : Config) (s : State) (e : Event) : Transition cfg s (step cfg s e) := by
  obtain ⟨w,phase⟩ := s
  cases e with
  | crash => exact .halted ⟨w,phase⟩
  | boot auth =>
    cases phase with
    | stopped => exact .boot w auth
    | _ => exact .ignored _
  | accept =>
    cases phase with
    | listening auth => exact .accept w auth
    | _ => exact .ignored _
  | receive input =>
    cases phase with
    | serving auth session => exact .receive w auth session input
    | _ => exact .ignored _
  | answer oracle =>
    cases phase with
    | stopped | listening _ | serving _ _ => exact .ignored _
    | starting auth p =>
      cases p with
      | done ready =>
        cases ready
        · exact .halted ⟨w,.starting auth (.done false)⟩
        · exact .ready w auth
      | call op next => exact .starting w auth op next (oracle op)
    | accepting auth p =>
      cases p with
      | done admitted =>
        cases admitted
        · exact .turnedAway w auth
        · exact .admitted w auth
      | call op next => exact .accepting w auth op next (oracle op)
    | handling auth session input since p =>
      cases p with
      | done out =>
        cases out
        · exact .left w auth session input since
        · exact .stayed w auth session input since _
      | call op next => exact .handling w auth session input since op next (oracle op)

/-- What every transition keeps, every state of a run has. -/
theorem runKeeps {cfg : Config} {I : State → Prop} (initial : I ⟨World.initial,.stopped⟩)
    (kept : ∀ s s', Transition cfg s s' → I s → I s') (events : List Event) : I (run cfg events) :=
  runInvariant initial (fun s e holds => kept s (step cfg s e) (stepTransition cfg s e) holds) events

end Northstar.Broker
