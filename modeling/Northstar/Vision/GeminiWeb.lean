import Northstar.Json
import Northstar.Tracing

/-! The Gemini Web route of media-vision: what is asked of a leased tab (gemini-web.ts), and the tab that the owners of
the user's Chrome session lease (gemini-web-lease.ts). What the owners answer is left open, at every call anew. -/
namespace Northstar.Vision
open Program (andThen)

abbrev GeminiWebEnv := JsString → Option JsString

def isGeminiWebEnabled (env : GeminiWebEnv) : Bool := env (js "PI_VISION_GEMINI_WEB_ENABLED") = some (js "1")

def isGeminiVideoEnabled (env : GeminiWebEnv) : Bool := env (js "PI_VISION_VIDEO_GEMINI") = some (js "1")

def geminiOrigin : JsString := js "https://gemini.google.com"

def geminiWebOrigins : List JsString := [geminiOrigin]

/- What is thrown: a lease that is unavailable, another Error, or anything else. -/
inductive Thrown where
  | unavailable (message : JsString)
  | error (message : JsString)
  | value
  deriving DecidableEq

/- error instanceof Error ? error.message.slice(0, 120) : fallback -/
def Thrown.told (fallback : String) : Thrown → JsString
  | .unavailable message => message.take 120
  | .error message => message.take 120
  | .value => js fallback

inductive GeminiWebReason where
  | disabled
  | leaseUnavailable
  | leaseOriginRejected
  | emptyResponse
  deriving DecidableEq

inductive GeminiWebResult where
  | answer (text : JsString) (warnings : List JsString)
  | refused (reason : GeminiWebReason) (warnings : List JsString)
  deriving DecidableEq

abbrev Asking (Op : Type) (Reply : Op → Type) (α : Type) := Program Op Reply (Except Thrown α)

/- A leased tab; a lease without warnings of its own has none. -/
structure GeminiWebLease (Op : Type) (Reply : Op → Type) where
  origin : JsString
  warnings : List JsString
  navigate : JsString → Asking Op Reply Unit
  attachFile : Option (JsString → Asking Op Reply Unit)
  evaluate : JsString → Asking Op Reply JsString
  close : Option (Asking Op Reply Unit)

section Ask
variable {Op : Type} {Reply : Op → Type}

def fail {α : Type} (message : JsString) : Asking Op Reply α := .done (.error (.unavailable message))

/- The finally branch: what closing throws is dropped. -/
def closing {α : Type} (lease : GeminiWebLease Op Reply) (body : Asking Op Reply α) : Program Op Reply (Except Thrown α) :=
  body >>= fun result => match lease.close with
    | none => .done result
    | some close => close >>= fun _ => .done result

def promptEnvelope (prompt : JsString) : JsString := js "prompt:" ++ quote (prompt.take 8000)

def classified (text : JsString) (before after : List JsString) : GeminiWebResult :=
  if trim text = [] then .refused .emptyResponse (before ++ [js "empty-model-response"]) else .answer text (before ++ after)

def askGeminiWeb (prompt : JsString) (acquireLease : Asking Op Reply (GeminiWebLease Op Reply)) (env : GeminiWebEnv) :
    Asking Op Reply GeminiWebResult :=
  if !isGeminiWebEnabled env then .done (.ok (.refused .disabled []))
  else if trim prompt = [] then .done (.ok (.refused .emptyResponse [js "empty-prompt"]))
  else acquireLease.andThen fun lease => closing lease (
    if lease.origin ∉ geminiWebOrigins then
      .done (.ok (.refused .leaseOriginRejected (lease.warnings ++ [js "non-gemini-origin"])))
    else
      (lease.navigate (lease.origin ++ js "/app")).andThen fun _ =>
      (lease.evaluate (promptEnvelope prompt)).andThen fun text =>
      .done (.ok (classified text lease.warnings [js "last-resort-web-route"])))

def askGeminiWebVideo (filePath prompt : JsString) (acquireLease : Asking Op Reply (GeminiWebLease Op Reply)) (env : GeminiWebEnv) :
    Asking Op Reply GeminiWebResult :=
  if !isGeminiWebEnabled env then .done (.ok (.refused .disabled []))
  else if trim prompt = [] then .done (.ok (.refused .emptyResponse [js "empty-prompt"]))
  else acquireLease.andThen fun lease => closing lease (
    if lease.origin ∉ geminiWebOrigins then
      .done (.ok (.refused .leaseOriginRejected (lease.warnings ++ [js "non-gemini-origin"])))
    else match lease.attachFile with
      | none => fail (js "gemini-web-video-unavailable: acquired lease has no file-attachment primitive")
      | some attachFile =>
        (lease.navigate (lease.origin ++ js "/app")).andThen fun _ =>
        (attachFile filePath).andThen fun _ =>
        (lease.evaluate (promptEnvelope prompt)).andThen fun text =>
        .done (.ok (classified text lease.warnings [js "last-resort-web-route",js "video-file-attached"])))

end Ask

structure SemanticAction where
  locator : JsString
  query : JsString
  name : Option JsString
  verb : JsString
  value : Option JsString
  deriving DecidableEq

inductive BrowserAction where
  | navigate (url : JsString)
  | getUrl
  | semanticAction (action : SemanticAction)
  | wait (waitMs : Nat)
  | text
  deriving DecidableEq

structure OwnerResult where
  content : JsValue
  details : JsValue

inductive LeaseOp where
  | requireBridgeOwner
  | isAuthorized
  | boundTarget
  | execute (action : BrowserAction)

def LeaseReply : LeaseOp → Type
  | .requireBridgeOwner => Except Thrown Unit
  | .isAuthorized => Bool
  | .boundTarget => Option JsString
  | .execute _ => Except Thrown OwnerResult

abbrev ChromeAsking (α : Type) := Asking LeaseOp LeaseReply α

def unavailable (detail : JsString) : JsString := js "gemini-web-lease-unavailable: " ++ detail

def textPart (item : JsValue) : Option JsString := match item.get "type", item.get "text" with
  | .string kind, .string text => if kind = js "text" ∧ text ≠ [] then some text else none
  | _, _ => none

def leaseResultText (result : OwnerResult) : JsString := match result.content with
  | .array items => [10].intercalate (items.filterMap textPart)
  | _ => []

section Lease
variable (numerals : Json.Numerals) (urlOrigin : JsString → Option JsString)

def isLeaseErrorText (text : JsString) : Bool := match Json.parse numerals (trim text) with
  | some parsed => match parsed.get "ok" with
    | .bool ok => !ok
    | _ => false
  | none => false

/- typeof value === 'object' && value !== null -/
def isObject : JsValue → Bool
  | .array _ => true
  | .object _ => true
  | _ => false

def chromeError (result : OwnerResult) : Option JsValue :=
  if isObject (result.details.get "chromeError") then some (result.details.get "chromeError") else none

def stringOr (fallback : String) : JsValue → JsString
  | .string text => text
  | _ => js fallback

def requireOwnerSuccess (result : OwnerResult) (op : String) : Except Thrown JsString := match chromeError result with
  | some error => .error (.unavailable (unavailable (js op ++ js " rejected (" ++ stringOr "chrome_error" (error.get "code") ++
      js ": " ++ (match error.get "message" with
        | .string message => message.take 120
        | _ => js "owner failure") ++ js "; degraded to isolated backend")))
  | none =>
      let text := leaseResultText result
      if isLeaseErrorText numerals text then
        .error (.unavailable (unavailable (js op ++ js " returned error result (" ++ text.take 120 ++ js "; degraded to isolated backend)")))
      else .ok text

/- The bridge, the grant and the companion are as they were when the tab was leased. -/
def checkLive (target : JsString) : ChromeAsking Unit :=
  .call .requireBridgeOwner fun
    | .error _ => fail (unavailable (js "bridge owner lost; degraded to isolated backend"))
    | .ok _ => .call .isAuthorized fun (authorized : Bool) =>
        if !authorized then fail (unavailable (js "lease revoked or expired; degraded to isolated backend"))
        else .call .boundTarget fun (bound : Option JsString) =>
          if bound ≠ some target then fail (unavailable (js "companion selection changed during lease; degraded to isolated backend"))
          else .done (.ok ())

/- A dispatch that the caller's catch clause wraps. -/
def executeOr (action : BrowserAction) (message : String) : ChromeAsking OwnerResult :=
  .call (.execute action) fun (reply : Except Thrown OwnerResult) => .done (reply.mapError fun thrown =>
    .unavailable (unavailable (js message ++ js " (" ++ thrown.told "unknown" ++ js ")")))

def navigate (target url : JsString) : ChromeAsking Unit :=
  (checkLive target).andThen fun _ =>
  match urlOrigin url with
  | none => fail (unavailable (js "invalid navigation url"))
  | some origin =>
    if origin ∉ geminiWebOrigins then fail (unavailable (js "navigation origin rejected (" ++ origin ++ js ")"))
    else
      (executeOr (.navigate url) "navigation failed").andThen fun result =>
      (Program.done (requireOwnerSuccess numerals result "navigate")).andThen fun _ =>
      (checkLive target).andThen fun _ =>
      (executeOr .getUrl "post-navigation check failed").andThen fun current =>
      (Program.done (requireOwnerSuccess numerals current "post-navigation check")).andThen fun currentUrl =>
      (checkLive target).andThen fun _ =>
      match urlOrigin (trim currentUrl) with
      | none => fail (unavailable (js "post-navigation url unreadable; degraded to isolated backend"))
      | some currentOrigin =>
        if currentOrigin ∉ geminiWebOrigins then
          fail (unavailable (js "tab left gemini origin (" ++ currentOrigin ++ js "); degraded to isolated backend"))
        else .done (.ok ())

def execute (action : BrowserAction) : ChromeAsking OwnerResult :=
  .call (.execute action) fun (reply : Except Thrown OwnerResult) => .done reply

def dispatch (action : BrowserAction) (op : String) : ChromeAsking JsString :=
  (execute action).andThen fun dispatched => .done (requireOwnerSuccess numerals dispatched op)

def fillPrompt (value : JsString) : BrowserAction :=
  .semanticAction ⟨js "role",js "textbox",none,js "fill",some value⟩

def clickSend : BrowserAction :=
  .semanticAction ⟨js "role",js "button",some (js "Send message"),js "click",none⟩

def askCompanion (target bounded : JsString) : ChromeAsking JsString :=
  (dispatch numerals (fillPrompt bounded) "prompt fill").andThen fun _ =>
  (checkLive target).andThen fun _ =>
  (dispatch numerals clickSend "prompt submit").andThen fun _ =>
  (checkLive target).andThen fun _ =>
  (dispatch numerals (.wait 10000) "answer wait").andThen fun _ =>
  (checkLive target).andThen fun _ =>
  (dispatch numerals .text "answer read").andThen fun text =>
  (checkLive target).andThen fun _ =>
  .done (.ok (if trim text = [] then [] else text))

/- The catch clause around the ask: an unavailable lease is thrown as it is, anything else as one. -/
def caught : Thrown → Thrown
  | .unavailable message => .unavailable message
  | thrown => .unavailable (unavailable (js "companion ask failed (" ++ thrown.told "unknown" ++ js ")"))

def evaluate (target script : JsString) : Program LeaseOp LeaseReply (Except Thrown JsString) :=
  (checkLive target).andThen fun _ =>
  if !(js "prompt:").isPrefixOf script then fail (unavailable (js "unsupported evaluate script (prompt envelope only)"))
  else match Json.parse numerals (script.drop (js "prompt:").length) with
    | none => fail (unavailable (js "malformed prompt envelope"))
    | some (.string prompt) =>
        if trim prompt = [] then .done (.ok [])
        else askCompanion numerals target (prompt.take 8000) >>= fun result => .done (result.mapError caught)
    | some _ => .done (.ok [])

def chromeLease (target : JsString) : GeminiWebLease LeaseOp LeaseReply where
  origin := geminiOrigin
  warnings := []
  navigate := navigate numerals urlOrigin target
  attachFile := none
  evaluate := evaluate numerals target
  close := none

def acquireChromeGeminiWebLease (env : GeminiWebEnv) (wired : Bool) : ChromeAsking (GeminiWebLease LeaseOp LeaseReply) :=
  if !isGeminiWebEnabled env then fail (js "gemini-web disabled: set PI_VISION_GEMINI_WEB_ENABLED=1 to enable this route")
  else if !isGeminiVideoEnabled env then
    fail (js "gemini-web disabled: set PI_VISION_VIDEO_GEMINI=1 to enable the video Gemini fallback")
  else if !wired then fail (unavailable (js "no Chrome owners wired; degraded to isolated backend"))
  else .call .requireBridgeOwner fun
    | .error thrown => fail (unavailable (js "pinned companion bridge owner required (" ++ thrown.told "not owner" ++ js ")"))
    | .ok _ => .call .isAuthorized fun (authorized : Bool) =>
        if !authorized then fail (unavailable (js "user-chrome control locked; run /chrome-authorize first"))
        else .call .boundTarget fun
          | some (u :: rest) => .done (.ok (chromeLease numerals urlOrigin (u :: rest)))
          | _ => fail (unavailable (js "no companion selected; operator selection required"))

def acquireGeminiWebLeaseFromChromeOwners (env : GeminiWebEnv) (wired : Bool) :
    ChromeAsking (GeminiWebLease LeaseOp LeaseReply) :=
  if wired then acquireChromeGeminiWebLease numerals urlOrigin env wired
  else if !isGeminiWebEnabled env then fail (js "gemini-web disabled: set PI_VISION_GEMINI_WEB_ENABLED=1 to enable this route")
  else fail (unavailable (js "no Chrome owners wired; degraded to isolated backend"))

end Lease

end Northstar.Vision
