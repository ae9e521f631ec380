import Northstar.Histories
import Northstar.Vision.GeminiWeb

/-! What the Gemini Web route does to the user's Chrome session, whatever its owners answer: nothing without a look at
the bridge, the grant and the companion right before it, only what the code names, and an answer only behind a last look. -/
namespace Northstar.Vision
open Program

abbrev LeaseHistory := History LeaseOp LeaseReply

/- The bridge is ours, the grant stands, and the companion is the one that was bound. -/
def live (target : JsString) : LeaseHistory :=
  [⟨.requireBridgeOwner,.ok ()⟩,⟨.isAuthorized,true⟩,⟨.boundTarget,some target⟩]

def dispatched (event : Event LeaseOp LeaseReply) : Option BrowserAction := match event.1 with
  | .execute action => some action
  | _ => none

def dispatches (h : LeaseHistory) : List BrowserAction := h.filterMap dispatched

structure Watched (target : JsString) (actions : List BrowserAction) (h : LeaseHistory) : Prop where
  began : live target <+: h
  guards : ∀ before action reply after, h = before ++ ⟨.execute action,reply⟩ :: after → live target <:+ before
  sent : dispatches h = actions

def Ready (target : JsString) (actions : List BrowserAction) (h : LeaseHistory) : Prop :=
  Watched target actions h ∧ live target <:+ h

/- Where an ask ends early, what was sent starts what is to be sent. -/
def Cut (target : JsString) (script : List BrowserAction) (h : LeaseHistory) : Prop :=
  ∃ actions, actions <+: script ∧ Watched target actions h

def Unavailable (thrown : Thrown) : Prop := ∃ message, thrown = .unavailable message

def Stopped (target : JsString) (script : List BrowserAction) (thrown : Thrown) (h : LeaseHistory) : Prop :=
  Unavailable thrown ∧ Cut target script h

section Watch
variable {numerals : Json.Numerals} {urlOrigin : JsString → Option JsString}
variable {target : JsString} {actions script : List BrowserAction} {h : LeaseHistory}

theorem watchedOne (event : Event LeaseOp LeaseReply) (watched : Watched target actions h)
    (one : (dispatched event).isSome → live target <:+ h) : Watched target (actions ++ (dispatched event).toList) (h ++ [event]) where
  began := watched.began.trans (List.prefix_append ..)
  guards := by
    intro before action reply after same
    rcases List.eq_nil_or_concat after with rfl | ⟨later,last,rfl⟩
    · obtain ⟨rfl,sent⟩ := List.append_inj' same rfl
      cases sent
      exact one rfl
    · have split_ : h ++ [event] = (before ++ ⟨.execute action,reply⟩ :: later) ++ [last] := by simpa using same
      exact watched.guards before action reply later (List.append_inj' split_ rfl).1
  sent := by
    simp only [dispatches,List.filterMap_append,List.filterMap_cons,List.filterMap_nil]
    rw [← dispatches,watched.sent]
    cases dispatched event <;> rfl

theorem watchedQuiet {event : Event LeaseOp LeaseReply} (watched : Watched target actions h) (quiet : dispatched event = none) :
    Watched target actions (h ++ [event]) := by
  have kept := watchedOne event watched (by simp [quiet])
  simpa [quiet] using kept

theorem watchedLooks {looks : LeaseHistory} (watched : Watched target actions h) (quiet : dispatches looks = []) :
    Watched target actions (h ++ looks) := by
  induction looks generalizing h with
  | nil => rwa [List.append_nil]
  | cons event rest ih =>
    have every := List.filterMap_eq_nil_iff.mp quiet
    rw [List.append_cons]
    exact ih (watchedQuiet watched (every event List.mem_cons_self))
      (List.filterMap_eq_nil_iff.mpr fun later member => every later (List.mem_cons_of_mem _ member))

theorem watchedSent (ready : Ready target actions h) (action : BrowserAction) (reply : LeaseReply (.execute action)) :
    Watched target (actions ++ [action]) (h ++ [⟨.execute action,reply⟩]) :=
  watchedOne ⟨.execute action,reply⟩ ready.1 fun _ => ready.2

theorem stopped (starts : actions <+: script) (watched : Watched target actions h) (message : JsString) :
    Stopped target script (.unavailable message) h := ⟨⟨message,rfl⟩,actions,starts,watched⟩

/- A look at the bridge, the grant and the companion sends nothing, and comes to an end with all three as they were. -/
theorem checkLiveLooked {seen : LeaseHistory → Prop} : Triple seen (checkLive target)
    (fun _ h => ∃ before, h = before ++ live target ∧ seen before)
    (fun thrown h => Unavailable thrown ∧ ∃ before looks, h = before ++ looks ∧ dispatches looks = [] ∧ seen before) := by
  apply tripleCall
  intro owner
  cases owner with
  | error thrown =>
    apply tripleDone
    rintro h ⟨before,rfl,held⟩
    exact ⟨⟨_,rfl⟩,before,[⟨.requireBridgeOwner,.error thrown⟩],rfl,rfl,held⟩
  | ok done =>
    apply tripleCall
    intro authorized
    cases authorized with
    | false =>
      apply tripleDone
      rintro h ⟨_,rfl,before,rfl,held⟩
      exact ⟨⟨_,rfl⟩,before,[⟨.requireBridgeOwner,.ok done⟩,⟨.isAuthorized,false⟩],List.append_assoc ..,rfl,held⟩
    | true =>
      apply tripleCall
      intro (bound : Option JsString)
      split
      · apply tripleDone
        rintro h ⟨_,rfl,_,rfl,before,rfl,held⟩
        exact ⟨⟨_,rfl⟩,before,[⟨.requireBridgeOwner,.ok done⟩,⟨.isAuthorized,true⟩,⟨.boundTarget,bound⟩],by simp,rfl,held⟩
      · rename_i same
        rw [not_not] at same
        subst same
        apply tripleDone
        rintro h ⟨_,rfl,_,rfl,before,rfl,held⟩
        exact ⟨before,by simp [live],held⟩

theorem checkLiveSeen (seen : LeaseHistory → Prop) (starts : actions <+: script) :
    Triple (fun h => Watched target actions h ∧ seen h) (checkLive target)
      (fun _ h => Watched target actions h ∧ ∃ before, h = before ++ live target ∧ seen before) (Stopped target script) := by
  refine tripleMono checkLiveLooked (fun _ held => held) ?_ ?_
  · rintro _ h ⟨before,rfl,watched,held⟩
    exact ⟨watchedLooks watched rfl,before,rfl,held⟩
  · rintro thrown h ⟨unavailable,before,looks,rfl,quiet,watched,_⟩
    exact ⟨unavailable,actions,starts,watchedLooks watched quiet⟩

theorem checkLiveHeld (starts : actions <+: script) :
    Triple (Watched target actions) (checkLive target) (fun _ => Ready target actions) (Stopped target script) := by
  refine tripleMono (checkLiveSeen (fun _ => True) starts) (fun _ held => ⟨held,trivial⟩) ?_ fun _ _ held => held
  rintro _ h ⟨watched,before,rfl,_⟩
  exact ⟨watched,List.suffix_append ..⟩

/- A result is taken only where neither its details nor its text tell of a failure. -/
def Succeeded (numerals : Json.Numerals) (result : OwnerResult) : Prop :=
  chromeError result = none ∧ isLeaseErrorText numerals (leaseResultText result) = false

theorem successCases (numerals : Json.Numerals) (result : OwnerResult) (op : String) :
    (Succeeded numerals result ∧ requireOwnerSuccess numerals result op = .ok (leaseResultText result)) ∨
      (¬Succeeded numerals result ∧ ∃ message, requireOwnerSuccess numerals result op = .error (.unavailable message)) := by
  rw [requireOwnerSuccess]
  cases told : chromeError result with
  | some error => exact .inr ⟨fun succeeded => by simp [Succeeded,told] at succeeded,_,rfl⟩
  | none =>
    cases text : isLeaseErrorText numerals (leaseResultText result) with
    | true => exact .inr ⟨fun succeeded => by simp [Succeeded,text] at succeeded,_,if_pos text⟩
    | false => exact .inl ⟨⟨told,text⟩,if_neg (by simp [text])⟩

/- The last that happened was a dispatch that succeeded with a text. -/
def Replied (numerals : Json.Numerals) (action : BrowserAction) (text : JsString) (h : LeaseHistory) : Prop :=
  ∃ before result, h = before ++ [⟨.execute action,.ok result⟩] ∧ Succeeded numerals result ∧ text = leaseResultText result

/- What was sent last was answered with a result. -/
def Sent (target : JsString) (actions : List BrowserAction) (action : BrowserAction) (result : OwnerResult) (h : LeaseHistory) : Prop :=
  Watched target (actions ++ [action]) h ∧ ∃ before, h = before ++ [⟨.execute action,.ok result⟩]

theorem successHeld {action : BrowserAction} (result : OwnerResult) (op : String) (starts : actions ++ [action] <+: script) :
    Triple (Sent target actions action result) (.done (requireOwnerSuccess numerals result op))
      (fun text h => Watched target (actions ++ [action]) h ∧ Replied numerals action text h) (Stopped target script) := by
  apply tripleDone
  rintro h ⟨watched,before,last⟩
  rcases successCases numerals result op with ⟨succeeded,same⟩ | ⟨_,message,same⟩
  · rw [same]
    exact ⟨watched,before,result,last,succeeded,rfl⟩
  · rw [same]
    exact stopped starts watched message

theorem executeHeld (action : BrowserAction) (starts : actions ++ [action] <+: script) :
    Triple (Ready target actions) (execute action) (Sent target actions action) (fun _ => Cut target script) := by
  apply tripleCall
  intro reply
  cases reply with
  | error thrown =>
    apply tripleDone
    rintro h ⟨before,rfl,ready⟩
    exact ⟨_,starts,watchedSent ready action _⟩
  | ok result =>
    apply tripleDone
    rintro h ⟨before,rfl,ready⟩
    exact ⟨watchedSent ready action _,before,rfl⟩

theorem executeOrHeld (action : BrowserAction) (message : String) (starts : actions ++ [action] <+: script) :
    Triple (Ready target actions) (executeOr action message) (Sent target actions action) (Stopped target script) := by
  apply tripleCall
  intro reply
  cases reply with
  | error thrown =>
    apply tripleDone
    rintro h ⟨before,rfl,ready⟩
    exact stopped starts (watchedSent ready action _) _
  | ok result =>
    apply tripleDone
    rintro h ⟨before,rfl,ready⟩
    exact ⟨watchedSent ready action _,before,rfl⟩

theorem dispatchHeld (action : BrowserAction) (op : String) (starts : actions ++ [action] <+: script) :
    Triple (Ready target actions) (dispatch numerals action op)
      (fun text h => Watched target (actions ++ [action]) h ∧ Replied numerals action text h) (fun _ => Cut target script) := by
  refine tripleThen (executeHeld action starts) fun result => ?_
  exact tripleMono (successHeld result op starts) (fun _ held => held) (fun _ _ held => held) fun _ _ held => held.2

/- The tab told, after it was sent there, of a page at an origin of Gemini's. -/
def Landed (numerals : Json.Numerals) (urlOrigin : JsString → Option JsString) (h : LeaseHistory) : Prop :=
  ∃ before text, before <+: h ∧ Replied numerals .getUrl text before ∧ ∃ origin ∈ geminiWebOrigins, urlOrigin (trim text) = some origin

/- What opens a page, and tells which it is. -/
def opening (url : JsString) : List BrowserAction := [.navigate url,.getUrl]

theorem navigateHeld (url : JsString) :
    Triple (Watched target actions) (navigate numerals urlOrigin target url)
      (fun _ h => Watched target (actions ++ opening url) h ∧ Landed numerals urlOrigin h) (Stopped target (actions ++ opening url)) := by
  have none_ : actions <+: actions ++ opening url := List.prefix_append ..
  have both : actions ++ [.navigate url] ++ [.getUrl] = actions ++ opening url := by simp [opening]
  have one : actions ++ [.navigate url] <+: actions ++ opening url := both ▸ List.prefix_append ..
  apply tripleThen (checkLiveHeld none_)
  intro _
  split
  · exact tripleDone fun h ready => stopped none_ ready.1 _
  · split
    · exact tripleDone fun h ready => stopped none_ ready.1 _
    · refine tripleThen (executeOrHeld (.navigate url) "navigation failed" one) fun moved => ?_
      refine tripleThen (successHeld moved "navigate" one) fun _ => ?_
      refine tripleThen (tripleMono (checkLiveHeld one) (fun _ held => held.1) (fun _ _ held => held) fun _ _ held => held) fun _ => ?_
      have whole : actions ++ [.navigate url] ++ [.getUrl] <+: actions ++ opening url := both ▸ List.prefix_rfl
      refine tripleThen (executeOrHeld .getUrl "post-navigation check failed" whole) fun landed => ?_
      refine tripleThen (successHeld landed "post-navigation check" whole) fun currentUrl => ?_
      rw [both]
      refine tripleThen (checkLiveSeen (Replied numerals .getUrl currentUrl) List.prefix_rfl) fun _ => ?_
      split
      · exact tripleDone fun h held => stopped List.prefix_rfl held.1 _
      · rename_i origin read
        split
        · exact tripleDone fun h held => stopped List.prefix_rfl held.1 _
        · rename_i inside
          apply tripleDone
          rintro h ⟨watched,before,rfl,replied⟩
          exact ⟨watched,before,currentUrl,List.prefix_append ..,replied,origin,not_not.mp inside,read⟩

/- What an ask sends once the page is there. -/
def asked (bounded : JsString) : List BrowserAction := [fillPrompt bounded,clickSend,.wait 10000,.text]

/- All is sent, a text was read off the page last, and the look that followed it found all as it was. -/
def Answered (numerals : Json.Numerals) (target : JsString) (actions : List BrowserAction) (text : JsString) (h : LeaseHistory) : Prop :=
  Watched target actions h ∧ ∃ before, h = before ++ live target ∧ Replied numerals .text text before

/- A text with nothing but blanks is no answer. -/
def Given (numerals : Json.Numerals) (target : JsString) (script : List BrowserAction) (text : JsString) (h : LeaseHistory) : Prop :=
  Cut target script h ∧ (trim text ≠ [] → Answered numerals target script text h)

theorem givenBlank (cut : Cut target script h) : Given numerals target script [] h := ⟨cut,fun solid => absurd rfl solid⟩

theorem companionHeld (bounded : JsString) :
    Triple (Ready target actions) (askCompanion numerals target bounded) (Given numerals target (actions ++ asked bounded))
      (fun _ => Cut target (actions ++ asked bounded)) := by
  have looked {actions sent : List BrowserAction} {action : BrowserAction} {text : JsString} (starts : actions <+: sent) :
      Triple (fun h => Watched target actions h ∧ Replied numerals action text h) (checkLive target)
        (fun _ => Ready target actions) (fun _ => Cut target sent) :=
    tripleMono (checkLiveHeld starts) (fun _ held => held.1) (fun _ _ held => held) fun _ _ held => held.2
  refine tripleThen (dispatchHeld (fillPrompt bounded) "prompt fill" (by simp [asked])) fun _ => ?_
  refine tripleThen (looked (by simp [asked])) fun _ => ?_
  refine tripleThen (dispatchHeld clickSend "prompt submit" (by simp [asked])) fun _ => ?_
  refine tripleThen (looked (by simp [asked])) fun _ => ?_
  refine tripleThen (dispatchHeld (.wait 10000) "answer wait" (by simp [asked])) fun _ => ?_
  refine tripleThen (looked (by simp [asked])) fun _ => ?_
  refine tripleThen (dispatchHeld .text "answer read" (by simp [asked])) fun text => ?_
  have whole : actions ++ [fillPrompt bounded] ++ [clickSend] ++ [.wait 10000] ++ [.text] = actions ++ asked bounded := by simp [asked]
  rw [whole]
  have last : Triple (fun h => Watched target (actions ++ asked bounded) h ∧ Replied numerals .text text h) (checkLive target)
      (fun _ => Answered numerals target (actions ++ asked bounded) text) (fun _ => Cut target (actions ++ asked bounded)) :=
    tripleMono (checkLiveSeen (Replied numerals .text text) List.prefix_rfl) (fun _ held => held) (fun _ _ held => held)
      fun _ _ held => held.2
  refine tripleThen last fun _ => tripleDone fun h answered => ?_
  have cut : Cut target (actions ++ asked bounded) h := ⟨_,List.prefix_rfl,answered.1⟩
  split
  · exact givenBlank cut
  · exact ⟨cut,fun _ => answered⟩

theorem caughtUnavailable (thrown : Thrown) : Unavailable (caught thrown) := by
  cases thrown with
  | unavailable message => exact ⟨message,rfl⟩
  | error message => exact ⟨_,rfl⟩
  | value => exact ⟨_,rfl⟩

/- The envelope that an ask wraps its prompt in is read back as it is. -/
theorem envelopeRead (numerals : Json.Numerals) (prompt : JsString) :
    Json.parse numerals ((promptEnvelope prompt).drop (js "prompt:").length) = some (.string (prompt.take 8000)) := by
  rw [promptEnvelope,List.drop_left]
  have back := Json.parseBack numerals (v := .string (prompt.take 8000)) trivial
  rwa [Utf8.decodeWritten (Json.wellJson _)] at back

theorem evaluateHeld (prompt : JsString) :
    Triple (Watched target actions) (evaluate numerals target (promptEnvelope prompt))
      (Given numerals target (actions ++ asked (prompt.take 8000))) (Stopped target (actions ++ asked (prompt.take 8000))) := by
  have none_ : actions <+: actions ++ asked (prompt.take 8000) := List.prefix_append ..
  have enveloped : (js "prompt:").isPrefixOf (promptEnvelope prompt) = true := by
    rw [List.isPrefixOf_iff_prefix]
    exact List.prefix_append ..
  refine tripleThen (checkLiveHeld none_) fun _ => ?_
  rw [enveloped,envelopeRead]
  dsimp only [Bool.not_true]
  rw [if_neg (by simp)]
  split
  · exact tripleDone fun h ready => givenBlank ⟨actions,none_,ready.1⟩
  · rw [List.take_take,Nat.min_self]
    apply tripleCaught
    exact tripleMono (companionHeld _) (fun _ held => held) (fun _ _ held => held) fun thrown _ held => ⟨caughtUnavailable thrown,held⟩

end Watch

def geminiPage : JsString := geminiOrigin ++ js "/app"

/- All that an ask ever sends. -/
def leaseScript (prompt : JsString) : List BrowserAction := opening geminiPage ++ asked (prompt.take 8000)

section Route
variable {numerals : Json.Numerals} {urlOrigin : JsString → Option JsString} {env : GeminiWebEnv} {wired : Bool} {prompt : JsString}

/- At the end of what opens the page the tab told of one of Gemini's. -/
def OnPage (numerals : Json.Numerals) (urlOrigin : JsString → Option JsString) (h : LeaseHistory) : Prop :=
  ∃ first, first <+: h ∧ dispatches first = opening geminiPage ∧ Landed numerals urlOrigin first

/- The prompt is sent to no page before the tab was seen to be at Gemini's. -/
def Confined (numerals : Json.Numerals) (urlOrigin : JsString → Option JsString) (h : LeaseHistory) : Prop :=
  dispatches h <+: opening geminiPage ∨ OnPage numerals urlOrigin h

/- Nothing is sent, or it is sent under one companion's watch. -/
def Kept (numerals : Json.Numerals) (urlOrigin : JsString → Option JsString) (prompt : JsString) (h : LeaseHistory) : Prop :=
  dispatches h = [] ∨ ∃ target, target ≠ [] ∧ Cut target (leaseScript prompt) h ∧ Confined numerals urlOrigin h

def Failed (numerals : Json.Numerals) (urlOrigin : JsString → Option JsString) (prompt : JsString) (thrown : Thrown) (h : LeaseHistory) : Prop :=
  Unavailable thrown ∧ Kept numerals urlOrigin prompt h

def Leased (numerals : Json.Numerals) (urlOrigin : JsString → Option JsString) (lease : GeminiWebLease LeaseOp LeaseReply)
    (h : LeaseHistory) : Prop :=
  ∃ target, target ≠ [] ∧ lease = chromeLease numerals urlOrigin target ∧ Watched target [] h

theorem opened (target : JsString) : Watched target [] (live target) where
  began := List.prefix_rfl
  guards := by
    intro before action reply after same
    have none_ : dispatches (live target) = [] := rfl
    rw [same] at none_
    simp [dispatches,dispatched] at none_
  sent := rfl

theorem acquireHeld : Triple (· = []) (acquireGeminiWebLeaseFromChromeOwners numerals urlOrigin env wired)
    (Leased numerals urlOrigin) (fun thrown h => Unavailable thrown ∧ dispatches h = []) := by
  rw [acquireGeminiWebLeaseFromChromeOwners]
  have none_ {message : JsString} (h : LeaseHistory) (empty : h = []) :
      Unavailable (.unavailable message) ∧ dispatches h = [] := by
    subst empty
    exact ⟨⟨message,rfl⟩,rfl⟩
  split
  · rw [acquireChromeGeminiWebLease]
    split
    · exact tripleDone none_
    · split
      · exact tripleDone none_
      · split
        · exact tripleDone none_
        · apply tripleCall
          intro owner
          cases owner with
          | error thrown =>
            apply tripleDone
            rintro h ⟨before,rfl,rfl⟩
            exact ⟨⟨_,rfl⟩,rfl⟩
          | ok done =>
            apply tripleCall
            intro authorized
            cases authorized with
            | false =>
              apply tripleDone
              rintro h ⟨before,rfl,earlier,rfl,rfl⟩
              exact ⟨⟨_,rfl⟩,rfl⟩
            | true =>
              apply tripleCall
              intro (bound : Option JsString)
              cases bound with
              | none =>
                apply tripleDone
                rintro h ⟨before,rfl,earlier,rfl,first,rfl,rfl⟩
                exact ⟨⟨_,rfl⟩,rfl⟩
              | some target => cases target with
                | nil =>
                  apply tripleDone
                  rintro h ⟨before,rfl,earlier,rfl,first,rfl,rfl⟩
                  exact ⟨⟨_,rfl⟩,rfl⟩
                | cons u rest =>
                  apply tripleDone
                  rintro h ⟨before,rfl,earlier,rfl,first,rfl,rfl⟩
                  exact ⟨u :: rest,by simp,rfl,opened (u :: rest)⟩
  · split
    · exact tripleDone none_
    · exact tripleDone none_

/- What an ask ends with, and what was sent until then. -/
def Asked (numerals : Json.Numerals) (urlOrigin : JsString → Option JsString) (prompt : JsString) (result : GeminiWebResult)
    (h : LeaseHistory) : Prop :=
  Kept numerals urlOrigin prompt h ∧ ∀ text warnings, result = .answer text warnings →
    ∃ target, target ≠ [] ∧ trim text ≠ [] ∧ Answered numerals target (leaseScript prompt) text h

theorem leasedHeld {target : JsString} (some_ : target ≠ []) :
    Triple (Watched target []) ((navigate numerals urlOrigin target geminiPage).andThen fun _ =>
        (evaluate numerals target (promptEnvelope prompt)).andThen fun text =>
        .done (.ok (classified text [] [js "last-resort-web-route"])))
      (Asked numerals urlOrigin prompt) (Failed numerals urlOrigin prompt) := by
  have opens : Triple (Watched target []) (navigate numerals urlOrigin target geminiPage)
      (fun _ h => Watched target (opening geminiPage) h ∧ OnPage numerals urlOrigin h) (Failed numerals urlOrigin prompt) := by
    refine tripleMono (navigateHeld geminiPage) (fun _ held => held) ?_ ?_
    · rintro _ h ⟨watched,landed⟩
      exact ⟨watched,h,List.prefix_rfl,watched.sent,landed⟩
    · rintro thrown h ⟨unavailable,actions,starts,watched⟩
      exact ⟨unavailable,.inr ⟨target,some_,⟨actions,starts.trans (List.prefix_append ..),watched⟩,.inl (watched.sent ▸ starts)⟩⟩
  have grows (h more : LeaseHistory) (there : OnPage numerals urlOrigin h) : OnPage numerals urlOrigin (h ++ more) := by
    obtain ⟨first,starts,sent,landed⟩ := there
    exact ⟨first,starts.trans (List.prefix_append ..),sent,landed⟩
  refine tripleThen opens fun _ => ?_
  refine tripleThen (tripleMono (tripleFrame grows (evaluateHeld prompt)) (fun _ held => held) (fun _ _ held => held) ?_) fun text => ?_
  · rintro thrown h ⟨⟨unavailable,cut⟩,there⟩
    exact ⟨unavailable,.inr ⟨target,some_,cut,.inr there⟩⟩
  · apply tripleDone
    rintro h ⟨⟨cut,given⟩,there⟩
    refine ⟨.inr ⟨target,some_,cut,.inr there⟩,?_⟩
    intro answer warnings same
    rw [classified] at same
    split at same
    · contradiction
    · rename_i solid
      cases same
      exact ⟨target,some_,solid,given solid⟩

theorem closingOpen {α : Type} {lease : GeminiWebLease LeaseOp LeaseReply} {body : ChromeAsking α} (none_ : lease.close = none) :
    closing lease body = body := by
  rw [closing,none_]
  exact bindPure body

/- What the two asks share: they refuse before a lease is asked for, and the tab they are given is at Gemini's origin. -/
theorem routeHeld {body : GeminiWebLease LeaseOp LeaseReply → ChromeAsking GeminiWebResult} {post : GeminiWebResult → LeaseHistory → Prop}
    {fails : Thrown → LeaseHistory → Prop} (refused : ∀ reason warnings, post (.refused reason warnings) [])
    (failed : ∀ thrown h, Unavailable thrown → dispatches h = [] → fails thrown h)
    (within : ∀ target, target ≠ [] → Triple (Watched target []) (body (chromeLease numerals urlOrigin target)) post fails) :
    Triple (· = []) (if !isGeminiWebEnabled env then .done (.ok (.refused .disabled []))
      else if trim prompt = [] then .done (.ok (.refused .emptyResponse [js "empty-prompt"]))
      else (acquireGeminiWebLeaseFromChromeOwners numerals urlOrigin env wired).andThen fun lease => closing lease (
        if lease.origin ∉ geminiWebOrigins then
          .done (.ok (.refused .leaseOriginRejected (lease.warnings ++ [js "non-gemini-origin"])))
        else body lease)) post fails := by
  split
  · exact tripleDone fun h empty => empty ▸ refused ..
  · split
    · exact tripleDone fun h empty => empty ▸ refused ..
    · refine tripleThen (tripleMono acquireHeld (fun _ held => held) (fun _ _ held => held) fun _ _ held => failed _ _ held.1 held.2) ?_
      intro lease before events result held run
      obtain ⟨target,some_,rfl,watched⟩ := held
      have inside : ¬(chromeLease numerals urlOrigin target).origin ∉ geminiWebOrigins := not_not.mpr List.mem_cons_self
      rw [closingOpen rfl,if_neg inside] at run
      exact within target some_ before events result watched run

theorem askHeld : Triple (· = []) (askGeminiWeb prompt (acquireGeminiWebLeaseFromChromeOwners numerals urlOrigin env wired) env)
    (Asked numerals urlOrigin prompt) (Failed numerals urlOrigin prompt) := by
  rw [askGeminiWeb]
  apply routeHeld
  · exact fun _ _ => ⟨.inl rfl,fun _ _ same => by contradiction⟩
  · exact fun _ _ unavailable unsent => ⟨unavailable,.inl unsent⟩
  · exact fun target some_ => leasedHeld some_

theorem videoHeld {filePath : JsString} :
    Triple (· = []) (askGeminiWebVideo filePath prompt (acquireGeminiWebLeaseFromChromeOwners numerals urlOrigin env wired) env)
      (fun result h => dispatches h = [] ∧ ∀ text warnings, result ≠ .answer text warnings) (fun _ h => dispatches h = []) := by
  rw [askGeminiWebVideo]
  apply routeHeld
  · exact fun _ _ => ⟨rfl,fun _ _ same => by contradiction⟩
  · exact fun _ _ _ unsent => unsent
  · exact fun target some_ => tripleDone fun h watched => watched.sent

variable {events : LeaseHistory} {result : Except Thrown GeminiWebResult}

/- Whatever the owners answer: what is sent is a beginning of one script, each action of it right behind a look at the bridge,
the grant and the one companion that the ask began with, and nothing of the prompt before the tab told of a page of Gemini's. -/
theorem askConfined (run : Runs (askGeminiWeb prompt (acquireGeminiWebLeaseFromChromeOwners numerals urlOrigin env wired) env) events result) :
    dispatches events = [] ∨ ∃ target, target ≠ [] ∧ Cut target (leaseScript prompt) events ∧ Confined numerals urlOrigin events := by
  have ended := tripleRuns askHeld run
  cases result with
  | ok result => exact ended.1
  | error thrown => exact ended.2

/- An answer is what was read off the page last, with all sent before it and one more look behind it. -/
theorem answerWatched {text : JsString} {warnings : List JsString}
    (run : Runs (askGeminiWeb prompt (acquireGeminiWebLeaseFromChromeOwners numerals urlOrigin env wired) env) events
      (.ok (.answer text warnings))) :
    ∃ target, target ≠ [] ∧ trim text ≠ [] ∧ Answered numerals target (leaseScript prompt) text events :=
  (tripleRuns askHeld run).2 text warnings rfl

theorem askUnavailable {thrown : Thrown}
    (run : Runs (askGeminiWeb prompt (acquireGeminiWebLeaseFromChromeOwners numerals urlOrigin env wired) env) events (.error thrown)) :
    Unavailable thrown := (tripleRuns askHeld run).1

/- A Chrome lease attaches no file: a video is never asked about over one, and nothing is sent. -/
theorem videoUnsent {filePath : JsString}
    (run : Runs (askGeminiWebVideo filePath prompt (acquireGeminiWebLeaseFromChromeOwners numerals urlOrigin env wired) env) events result) :
    dispatches events = [] ∧ ∀ text warnings, result ≠ .ok (.answer text warnings) := by
  have ended := tripleRuns videoHeld run
  cases result with
  | ok result => exact ⟨ended.1,fun text warnings same => ended.2 text warnings (Except.ok.inj same)⟩
  | error thrown => exact ⟨ended,fun _ _ same => by contradiction⟩

end Route

/- A tab that goes where it is sent, and a page that answers. -/
def oneText (text : JsString) : OwnerResult := ⟨.array [.object [(js "type",.string (js "text")),(js "text",.string text)]],.undefined⟩

def helloOwners : (op : LeaseOp) → LeaseReply op
  | .requireBridgeOwner => .ok ()
  | .isAuthorized => true
  | .boundTarget => some (js "tab")
  | .execute .getUrl => .ok (oneText geminiPage)
  | .execute .text => .ok (oneText (js "Hello"))
  | .execute _ => .ok ⟨.array [],.undefined⟩

def helloOrigin (url : JsString) : Option JsString := if url = geminiPage then some geminiOrigin else none

def helloEnv : GeminiWebEnv := fun _ => some (js "1")

def helloAsk : ChromeAsking GeminiWebResult :=
  askGeminiWeb (js "Hi") (acquireGeminiWebLeaseFromChromeOwners Json.wholeNumerals helloOrigin helloEnv true) helloEnv

theorem helloEnds : (helloAsk.answered helloOwners).2 = .ok (.answer (js "Hello") [js "last-resort-web-route"]) := by
  rfl

theorem helloRuns : Runs helloAsk (helloAsk.answered helloOwners).1 (.ok (.answer (js "Hello") [js "last-resort-web-route"])) :=
  helloEnds ▸ runsAnswered helloOwners helloAsk

theorem helloConfined : dispatches (helloAsk.answered helloOwners).1 = [] ∨ ∃ target, target ≠ [] ∧
    Cut target (leaseScript (js "Hi")) (helloAsk.answered helloOwners).1 ∧
      Confined Json.wholeNumerals helloOrigin (helloAsk.answered helloOwners).1 := askConfined helloRuns

theorem helloWatched : ∃ target, target ≠ [] ∧ trim (js "Hello") ≠ [] ∧
    Answered Json.wholeNumerals target (leaseScript (js "Hi")) (js "Hello") (helloAsk.answered helloOwners).1 := answerWatched helloRuns

end Northstar.Vision
