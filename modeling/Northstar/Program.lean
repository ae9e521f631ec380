import Mathlib

/-! Programs that call an outside world one operation at a time. Every possible
reply is kept in the continuation, so a run can be cut between any two calls.
Nothing here names a repository: operations, replies and worlds are parameters. -/
namespace Northstar

inductive Program (Op : Type) (Reply : Op → Type) (α : Type) where
  | done (value : α)
  | call (op : Op) (next : Reply op → Program Op Reply α)

namespace Program
variable {Op : Type} {Reply : Op → Type} {α β γ : Type}

def bind : Program Op Reply α → (α → Program Op Reply β) → Program Op Reply β
  | .done value, next => next value
  | .call op rest, next => .call op fun reply => (rest reply).bind next

def request (op : Op) : Program Op Reply (Reply op) := .call op .done

instance : Monad (Program Op Reply) where
  pure := .done
  bind := bind

@[simp] theorem pureDone (value : α) : (pure value : Program Op Reply α) = .done value := rfl

@[simp] theorem bindDone (value : α) (next : α → Program Op Reply β) :
    (Program.done value >>= next) = next value := rfl

@[simp] theorem bindCall (op : Op) (rest : Reply op → Program Op Reply α)
    (next : α → Program Op Reply β) :
    (Program.call op rest >>= next) = .call op fun reply => rest reply >>= next := rfl

@[simp] theorem bindRequest (op : Op) (next : Reply op → Program Op Reply β) :
    (request op >>= next) = .call op next := rfl

theorem bindPure (p : Program Op Reply α) : (p >>= pure) = p := by
  induction p with
  | done value => rfl
  | call op rest ih => simp only [bindCall]; congr 1; funext reply; exact ih reply

theorem bindAssoc (p : Program Op Reply α) (f : α → Program Op Reply β)
    (g : β → Program Op Reply γ) : (p >>= f >>= g) = (p >>= fun a => f a >>= g) := by
  induction p with
  | done value => rfl
  | call op rest ih => simp only [bindCall]; congr 1; funext reply; exact ih reply

/-- Every call the program can still make, whatever is replied, is of one kind, and
every value it can end with meets a condition. -/
def All (P : Op → Prop) (Q : α → Prop) : Program Op Reply α → Prop
  | .done value => Q value
  | .call op next => P op ∧ ∀ reply, All P Q (next reply)

theorem allBind {P : Op → Prop} {Q : α → Prop} {R : β → Prop} {p : Program Op Reply α}
    {f : α → Program Op Reply β} (first : p.All P Q) (rest : ∀ value, Q value → (f value).All P R) :
    (p >>= f).All P R := by
  induction p with
  | done value => exact rest value first
  | call op next ih => exact ⟨first.1,fun reply => ih reply (first.2 reply)⟩

theorem allRequest {P : Op → Prop} {R : β → Prop} {op : Op} {next : Reply op → Program Op Reply β}
    (kind : P op) (rest : ∀ reply, (next reply).All P R) : (request op >>= next).All P R :=
  ⟨kind,rest⟩

theorem allTrue (p : Program Op Reply α) : p.All (fun _ => True) (fun _ => True) := by
  induction p with
  | done value => trivial
  | call op next ih => exact ⟨trivial,ih⟩

end Program

/-- A world that answers operations; the environment's part of an answer is a
choice of the operation's own choice type. -/
structure Machine (Op : Type) (Reply Choice : Op → Type) (World : Type) where
  answer : World → (op : Op) → Choice op → Reply op × World

namespace Machine
variable {Op : Type} {Reply Choice : Op → Type} {World Ghost : Type} {α β : Type}
variable (m : Machine Op Reply Choice World)

/-- One function of the pending operation stands for what the environment does next. -/
abbrev Oracle (Choice : Op → Type) := (op : Op) → Choice op

def advance (oracle : Oracle Choice) (w : World) : Program Op Reply α → World × Program Op Reply α
  | .done value => (w,.done value)
  | .call op next =>
      let answered := m.answer w op (oracle op)
      (answered.2,next answered.1)

def drive : List (Oracle Choice) → World → Program Op Reply α → World × Program Op Reply α
  | [], w, p => (w,p)
  | oracle :: rest, w, p =>
      let next := m.advance oracle w p
      drive rest next.1 next.2

/-- Every call keeps the guarantee for some choice of the ghost's next value, and
every completed run meets the postcondition. -/
def Ensures (G : Op → World → Ghost → World → Ghost → Prop) :
    Program Op Reply α → (α → World → Ghost → Prop) → World → Ghost → Prop
  | .done value, post, w, g => post value w g
  | .call op next, post, w, g => ∀ c : Choice op, ∃ g',
      G op w g (m.answer w op c).2 g' ∧
      Ensures G (next (m.answer w op c).1) post (m.answer w op c).2 g'

variable {m} {G : Op → World → Ghost → World → Ghost → Prop}

theorem ensuresBind {p : Program Op Reply α} {f : α → Program Op Reply β}
    {post : β → World → Ghost → Prop} {w : World} {g : Ghost} :
    m.Ensures G (p >>= f) post w g ↔
      m.Ensures G p (fun value w g => m.Ensures G (f value) post w g) w g := by
  induction p generalizing w g with
  | done value => rfl
  | call op rest ih => simp only [Program.bindCall,Ensures,ih]

theorem ensuresMono {p : Program Op Reply α} {post post' : α → World → Ghost → Prop}
    {w : World} {g : Ghost} (weaker : ∀ value w g, post value w g → post' value w g)
    (h : m.Ensures G p post w g) : m.Ensures G p post' w g := by
  induction p generalizing w g with
  | done value => exact weaker value w g h
  | call op rest ih =>
    intro c
    obtain ⟨g',step,later⟩ := h c
    exact ⟨g',step,ih _ later⟩

/-- Sequencing: the continuation is proved from the first part's postcondition. -/
theorem ensuresThen {p : Program Op Reply α} {f : α → Program Op Reply β}
    {mid : α → World → Ghost → Prop} {post : β → World → Ghost → Prop} {w : World} {g : Ghost}
    (first : m.Ensures G p mid w g)
    (rest : ∀ value w g, mid value w g → m.Ensures G (f value) post w g) :
    m.Ensures G (p >>= f) post w g :=
  ensuresBind.mpr (ensuresMono rest first)

/-- A program of calls that each keep a property of the world keeps it. -/
theorem ensuresOfAll {P : Op → Prop} {Q : α → Prop} {p : Program Op Reply α} {w : World} {g : Ghost}
    {K : World → Prop} (each : ∀ op w c, P op → K w →
      G op w g (m.answer w op c).2 g ∧ K (m.answer w op c).2)
    (h : p.All P Q) (start : K w) :
    m.Ensures G p (fun value w' g' => K w' ∧ g' = g ∧ Q value) w g := by
  induction p generalizing w with
  | done value => exact ⟨start,rfl,h⟩
  | call op next ih =>
    intro c
    have step := each op w c h.1 start
    exact ⟨g,step.1,ih _ (h.2 _) step.2⟩

/-- Two related worlds under one program and one environment: where every call answers
both alike and keeps them related, the runs go through the same calls. -/
theorem driveAgree {R : World → World → Prop} {excused : Op → World → Prop} {p : Program Op Reply α}
    {post : α → World → Ghost → Prop} {w v : World} {g : Ghost}
    (each : ∀ op w g w' g' v c, G op w g w' g' → R w v → ¬ excused op w →
      (m.answer v op c).1 = (m.answer w op c).1 ∧ R (m.answer w op c).2 (m.answer v op c).2)
    (h : m.Ensures G p post w g) (related : R w v) (oracles : List (Oracle Choice))
    (unexcused : ∀ n op next, (m.drive (oracles.take n) w p).2 = .call op next →
      ¬ excused op (m.drive (oracles.take n) w p).1) :
    (m.drive oracles v p).2 = (m.drive oracles w p).2 := by
  induction oracles generalizing p w v g with
  | nil => rfl
  | cons oracle rest ih =>
    cases p with
    | done value => exact ih h related fun n => unexcused (n + 1)
    | call op next =>
      obtain ⟨g',allowed,later⟩ := h (oracle op)
      have alike := each op w g _ g' v (oracle op) allowed related (unexcused 0 op next rfl)
      simp only [drive,advance,alike.1]
      exact ih later alike.2 fun n => unexcused (n + 1)

end Machine

/-- What one step preserves, a whole run preserves. -/
theorem runInvariant {State Event : Type} {step : State → Event → State} {I : State → Prop}
    {start : State} (initial : I start) (preserved : ∀ s e, I s → I (step s e))
    (events : List Event) : I (events.foldl step start) := by
  induction events generalizing start with
  | nil => exact initial
  | cons e rest ih => exact ih (preserved start e initial)

/- Runs whose steps all meet a condition on the state they are taken in. -/
section Conditional
variable {State Event : Type} (C : State → Event → Prop) (step : State → Event → State)

def Meets : State → List Event → Prop
  | _, [] => True
  | s, e :: rest => C s e ∧ Meets (step s e) rest

instance decideMeets [each : ∀ s e, Decidable (C s e)] :
    (s : State) → (events : List Event) → Decidable (Meets C step s events)
  | _, [] => .isTrue trivial
  | s, e :: rest =>
      have := decideMeets (step s e) rest
      inferInstanceAs (Decidable (C s e ∧ Meets C step (step s e) rest))

variable {C step}

theorem meetsAppend {s : State} {first rest : List Event} :
    Meets C step s (first ++ rest) ↔ Meets C step s first ∧ Meets C step (first.foldl step s) rest := by
  induction first generalizing s with
  | nil => exact ⟨fun h => ⟨trivial,h⟩,And.right⟩
  | cons e later ih => simp only [List.cons_append,Meets,List.foldl_cons,ih,and_assoc]

theorem runUnder {I : State → Prop} {start : State} (initial : I start)
    (preserved : ∀ s e, I s → C s e → I (step s e)) (events : List Event)
    (meets : Meets C step start events) : I (events.foldl step start) := by
  induction events generalizing start with
  | nil => exact initial
  | cons e rest ih => exact ih (preserved start e initial meets.1) meets.2

/- What each step does under the condition and the invariant, every step of the run does. -/
theorem meetsUnder {I : State → Prop} {D : State → Event → Prop} {start : State} (initial : I start)
    (preserved : ∀ s e, I s → I (step s e)) (each : ∀ s e, I s → C s e → D s e) (events : List Event)
    (meets : Meets C step start events) : Meets D step start events := by
  induction events generalizing start with
  | nil => trivial
  | cons e rest ih => exact ⟨each start e initial meets.1,ih (preserved start e initial) meets.2⟩

/-- Where the steps outside the condition break what the others keep, the condition is exact. -/
theorem runExactly {I S : State → Prop} {start : State} (initial : I start) (sound : ∀ s, I s → S s)
    (preserved : ∀ s e, I s → C s e → I (step s e)) (breaks : ∀ s e, I s → ¬ C s e → ¬ S (step s e))
    (events : List Event) :
    Meets C step start events ↔ ∀ n, S ((events.take n).foldl step start) := by
  induction events generalizing start with
  | nil =>
    constructor
    · intro _ n
      rw [List.take_nil]
      exact sound start initial
    · exact fun _ => trivial
  | cons e rest ih =>
    constructor
    · intro meets n
      cases n with
      | zero => exact sound start initial
      | succ n => exact (ih (preserved start e initial meets.1)).mp meets.2 n
    · intro every
      have first : C start e := by
        by_contra outside
        exact breaks start e initial outside (every 1)
      exact ⟨first,(ih (preserved start e initial first)).mpr fun n => every (n + 1)⟩

/-- Where a step is related to the state it is taken in exactly under the condition, so are all
the states of a run exactly when every step meets it. -/
theorem runRelated {I : State → Prop} {R : State → State → Prop} {start : State} (refl : ∀ s, R s s)
    (trans : ∀ a b c, R a b → R b c → R a c) (initial : I start) (preserved : ∀ s e, I s → I (step s e))
    (exactly : ∀ s e, I s → (R s (step s e) ↔ C s e)) (events : List Event) :
    Meets C step start events ↔
      ∀ n m, n ≤ m → R ((events.take n).foldl step start) ((events.take m).foldl step start) := by
  induction events generalizing start with
  | nil =>
    constructor
    · intro _ n m _
      rw [List.take_nil,List.take_nil]
      exact refl start
    · exact fun _ => trivial
  | cons e rest ih =>
    have later := ih (preserved start e initial)
    constructor
    · intro meets n m upTo
      have first := (exactly start e initial).mpr meets.1
      have all := later.mp meets.2
      cases m with
      | zero =>
        rw [Nat.le_zero.mp upTo]
        exact refl start
      | succ m => cases n with
        | zero => exact trans _ _ _ first (all 0 m (Nat.zero_le m))
        | succ n => exact all n m (Nat.le_of_succ_le_succ upTo)
    · intro every
      exact ⟨(exactly start e initial).mp (every 0 1 (Nat.zero_le 1)),
        later.mpr fun n m upTo => every (n + 1) (m + 1) (Nat.succ_le_succ upTo)⟩

end Conditional

end Northstar
