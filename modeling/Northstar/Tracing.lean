import Northstar.Program

/-! What a program asked for and was answered on its way to a value, and the same of programs that may fail. -/
namespace Northstar.Program
variable {Op : Type} {Reply : Op → Type} {α β E : Type}

abbrev Event (Op : Type) (Reply : Op → Type) := (op : Op) × Reply op

inductive Runs : Program Op Reply α → List (Event Op Reply) → α → Prop where
  | done (value : α) : Runs (.done value) [] value
  | call {op : Op} {next : Reply op → Program Op Reply α} (reply : Reply op) {events : List (Event Op Reply)} {value : α}
      (rest : Runs (next reply) events value) : Runs (.call op next) (⟨op,reply⟩ :: events) value

variable {events : List (Event Op Reply)}

theorem runsDone {value result : α} : Runs (.done value : Program Op Reply α) events result ↔ events = [] ∧ result = value := by
  constructor
  · intro run
    cases run
    exact ⟨rfl,rfl⟩
  · rintro ⟨rfl,rfl⟩
    exact .done result

theorem runsCall {op : Op} {next : Reply op → Program Op Reply α} {result : α} : Runs (.call op next) events result ↔
    ∃ reply rest, events = ⟨op,reply⟩ :: rest ∧ Runs (next reply) rest result := by
  constructor
  · intro run
    cases run with
    | call reply rest => exact ⟨reply,_,rfl,rest⟩
  · rintro ⟨reply,rest,rfl,run⟩
    exact .call reply run

theorem runsBind {p : Program Op Reply α} {f : α → Program Op Reply β} {result : β} : Runs (p >>= f) events result ↔
    ∃ first rest value, events = first ++ rest ∧ Runs p first value ∧ Runs (f value) rest result := by
  induction p generalizing events with
  | done value =>
    constructor
    · intro run
      exact ⟨[],events,value,rfl,.done value,run⟩
    · rintro ⟨first,rest,middle,rfl,ends,run⟩
      obtain ⟨rfl,rfl⟩ := runsDone.mp ends
      exact run
  | call op next ih =>
    constructor
    · intro run
      obtain ⟨reply,later,rfl,after⟩ := runsCall.mp run
      obtain ⟨first,rest,value,rfl,one,two⟩ := (ih reply).mp after
      exact ⟨⟨op,reply⟩ :: first,rest,value,rfl,.call reply one,two⟩
    · rintro ⟨first,rest,value,rfl,one,two⟩
      obtain ⟨reply,later,rfl,after⟩ := runsCall.mp one
      exact .call reply ((ih reply).mpr ⟨later,rest,value,rfl,after,two⟩)

/- The run that one and the same answer to every call makes. -/
def answered (reply : (op : Op) → Reply op) : Program Op Reply α → List (Event Op Reply) × α
  | .done value => ([],value)
  | .call op next =>
      let rest := answered reply (next (reply op))
      (⟨op,reply op⟩ :: rest.1,rest.2)

theorem runsAnswered (reply : (op : Op) → Reply op) (p : Program Op Reply α) : Runs p (p.answered reply).1 (p.answered reply).2 := by
  induction p with
  | done value => exact .done value
  | call op next ih => exact .call (reply op) (ih (reply op))

/- The rest of a program that may fail, where its first part did not. -/
def andThen (p : Program Op Reply (Except E α)) (f : α → Program Op Reply (Except E β)) : Program Op Reply (Except E β) :=
  p >>= fun
    | .ok value => f value
    | .error e => .done (.error e)

theorem runsThen {p : Program Op Reply (Except E α)} {f : α → Program Op Reply (Except E β)} {result : Except E β} :
    Runs (p.andThen f) events result ↔ (∃ e, Runs p events (.error e) ∧ result = .error e) ∨
      ∃ first rest value, events = first ++ rest ∧ Runs p first (.ok value) ∧ Runs (f value) rest result := by
  rw [andThen,runsBind]
  constructor
  · rintro ⟨first,rest,value,rfl,one,two⟩
    cases value with
    | ok value => exact .inr ⟨first,rest,value,rfl,one,two⟩
    | error e =>
      obtain ⟨rfl,rfl⟩ := runsDone.mp two
      exact .inl ⟨e,by rwa [List.append_nil],rfl⟩
  · rintro (⟨e,one,rfl⟩ | ⟨first,rest,value,rfl,one,two⟩)
    · exact ⟨events,[],.error e,(List.append_nil events).symm,one,.done _⟩
    · exact ⟨first,rest,.ok value,rfl,one,two⟩

end Northstar.Program
