import Northstar.Tracing

/-! Triples of programs that may fail, over what was asked for and answered so far: what holds of it before a program
gives what holds of it after, with the program's own part, at a value as at a failure. -/
namespace Northstar.Program
variable {Op : Type} {Reply : Op → Type} {α β E F : Type}

abbrev History (Op : Type) (Reply : Op → Type) := List (Event Op Reply)

def Ended (post : α → History Op Reply → Prop) (fails : E → History Op Reply → Prop) : Except E α → History Op Reply → Prop
  | .ok value, h => post value h
  | .error e, h => fails e h

def Triple (pre : History Op Reply → Prop) (p : Program Op Reply (Except E α)) (post : α → History Op Reply → Prop)
    (fails : E → History Op Reply → Prop) : Prop :=
  ∀ before events result, pre before → Runs p events result → Ended post fails result (before ++ events)

variable {pre : History Op Reply → Prop} {p : Program Op Reply (Except E α)} {post : α → History Op Reply → Prop}
variable {fails : E → History Op Reply → Prop}

theorem tripleDone {result : Except E α} (holds : ∀ h, pre h → Ended post fails result h) :
    Triple pre (.done result) post fails := by
  intro before events last held run
  obtain ⟨rfl,rfl⟩ := runsDone.mp run
  simpa using holds before held

theorem tripleCall {op : Op} {next : Reply op → Program Op Reply (Except E α)}
    (each : ∀ reply, Triple (fun h => ∃ before, h = before ++ [⟨op,reply⟩] ∧ pre before) (next reply) post fails) :
    Triple pre (.call op next) post fails := by
  intro before events result held run
  obtain ⟨reply,rest,rfl,after⟩ := runsCall.mp run
  have later := each reply (before ++ [⟨op,reply⟩]) rest result ⟨before,rfl,held⟩ after
  simpa using later

theorem tripleThen {f : α → Program Op Reply (Except E β)} {mid : α → History Op Reply → Prop} {post : β → History Op Reply → Prop}
    (first : Triple pre p mid fails) (second : ∀ value, Triple (mid value) (f value) post fails) :
    Triple pre (p.andThen f) post fails := by
  intro before events result held run
  rcases runsThen.mp run with ⟨e,one,rfl⟩ | ⟨ahead,rest,value,rfl,one,two⟩
  · exact first before events (.error e) held one
  · have middle := first before ahead (.ok value) held one
    have later := second value (before ++ ahead) rest result middle two
    simpa using later

theorem tripleMono {pre' : History Op Reply → Prop} {post' : α → History Op Reply → Prop} {fails' : E → History Op Reply → Prop}
    (triple : Triple pre p post fails) (stronger : ∀ h, pre' h → pre h) (weaker : ∀ value h, post value h → post' value h)
    (failing : ∀ e h, fails e h → fails' e h) : Triple pre' p post' fails' := by
  intro before events result held run
  have ended := triple before events result (stronger before held) run
  cases result with
  | ok value => exact weaker value _ ended
  | error e => exact failing e _ ended

/- What stays true as more is asked for stays true along a program. -/
theorem tripleFrame {kept : History Op Reply → Prop} (grows : ∀ h more, kept h → kept (h ++ more)) (triple : Triple pre p post fails) :
    Triple (fun h => pre h ∧ kept h) p (fun value h => post value h ∧ kept h) (fun e h => fails e h ∧ kept h) := by
  intro before events result held run
  have ended := triple before events result held.1 run
  have later := grows before events held.2
  cases result with
  | ok value => exact ⟨ended,later⟩
  | error e => exact ⟨ended,later⟩

/- What is thrown is turned into something else. -/
theorem tripleCaught {g : E → F} {fails : F → History Op Reply → Prop}
    (triple : Triple pre p post fun e => fails (g e)) : Triple pre (p >>= fun result => .done (result.mapError g)) post fails := by
  intro before events result held run
  obtain ⟨ahead,rest,inner,rfl,one,two⟩ := runsBind.mp run
  obtain ⟨rfl,rfl⟩ := runsDone.mp two
  have ended := triple before ahead inner held one
  rw [List.append_nil]
  cases inner with
  | ok value => exact ended
  | error e => exact ended

/- From the start. -/
theorem tripleRuns {events : History Op Reply} {result : Except E α} (triple : Triple (· = []) p post fails)
    (run : Runs p events result) : Ended post fails result events := triple [] events result rfl run

end Northstar.Program
