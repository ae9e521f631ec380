import Northstar.Redaction
import Northstar.Agent.Verifier

/-! Redaction of what the user's Chrome answers (chrome-profile-redaction.ts): the known secrets one
after the other, then patterns of what looks like one. -/
namespace Northstar.Chrome
open Pattern (opt all upTo)
open Agent.Verifier (Literal anyCase digit eitherOf lowerLetter spaces the upperLetter wordEdge)
open Redaction (Apart OccursAt Tidy clearLaid hide hideAll hideAllKeys hideAllRendered occursWithin orderedFirst renderedKept
  spanClear spanSame withinStart)

def chromeRedacted : JsString := js "[redacted]"

def atLeast (n : Nat) (body : Literal) : Literal := .seq (body.times n) (.many body)

def letterOrDigit (u : UInt16) : Bool := digit u || lowerLetter u || upperLetter u

def quoteMark : Literal := opt (.unit fun u => u = 39 || u = 34)

/- `\s*[:=]\s*` -/
def assigned : Literal := all [spaces,.unit fun u => u = 58 || u = 61,spaces]

/- A replacement that writes back what its first groups read. -/
structure Rule where
  kept : Literal
  dropped : Literal
  by_ : JsString

def grantIdPattern : Rule where
  kept := .empty
  dropped := all [wordEdge,anyCase "grant-",atLeast 4 (.unit fun u => letterOrDigit u || u = 45),wordEdge]
  by_ := chromeRedacted

def sessionKeyPattern : Rule where
  kept := .empty
  dropped := all [wordEdge,anyCase "session",opt (the 45),anyCase "key",wordEdge,assigned,quoteMark,
    atLeast 4 (.unit fun u => letterOrDigit u || u = 45 || u = 95 || u = 46),quoteMark]
  by_ := js "session-key: " ++ chromeRedacted

def noncePattern : Rule where
  kept := .empty
  dropped := all [wordEdge,anyCase "nonce",wordEdge,assigned,quoteMark,
    atLeast 4 (.unit fun u => letterOrDigit u || u = 45 || u = 95 || u = 46 || u = 43 || u = 47 || u = 61),quoteMark]
  by_ := js "nonce: " ++ chromeRedacted

def cookieValuePattern : Rule where
  kept := .seq (eitherOf [anyCase "cookie",anyCase "set-cookie"]) assigned
  dropped := .some (.unit fun u => !(whiteSpace u || u = 59 || u = 44 || u = 10))
  by_ := chromeRedacted

def authorizationPattern : Rule where
  kept := .seq (anyCase "authorization") assigned
  dropped := .some (.unit fun u => u != 10)
  by_ := chromeRedacted

def bearerPattern : Rule where
  kept := .seq wordEdge (anyCase "bearer")
  dropped := .seq (.some (.unit whiteSpace))
    (.some (.unit fun u => letterOrDigit u || u = 45 || u = 46 || u = 95 || u = 126 || u = 43 || u = 47 || u = 61))
  by_ := js " " ++ chromeRedacted

def formValuePattern : Rule where
  kept := .seq (all [eitherOf [anyCase "form",anyCase "typed",anyCase "input"],
    opt (.unit fun u => u = 45 || u = 95 || u = 32),anyCase "value"]) assigned
  dropped := .some (.unit fun u => !(whiteSpace u || u = 10))
  by_ := chromeRedacted

def base64RunPattern : Rule where
  kept := .empty
  dropped := .seq (atLeast 200 (.unit fun u => letterOrDigit u || u = 43 || u = 47)) (upTo (the 61) 0 2)
  by_ := chromeRedacted

/- Each match from left to right; no rule matches nothing. -/
def Rule.replaceFrom (rule : Rule) : Nat → Place UInt16 → JsString
  | 0, place => place.left
  | n + 1, place =>
      let matches_ := (rule.kept.ends place).flatMap fun mid => (rule.dropped.ends mid).map fun next => (mid,next)
      match matches_.head?, place.left with
      | some (mid,next), _ => place.left.take (place.left.length - mid.left.length) ++ rule.by_ ++ rule.replaceFrom n next
      | none, [] => []
      | none, u :: rest => u :: rule.replaceFrom n ⟨u :: place.read,rest⟩

def Rule.replace (text : JsString) (rule : Rule) : JsString := rule.replaceFrom (text.length + 1) ⟨[],text⟩

structure ChromeRedactionSecrets where
  sessionKey : Option JsString
  grantId : Option JsString
  nonce : Option JsString
  instanceId : Option JsString
  typedValues : Option (List JsString)

/- One known secret; splitting on an empty one would part every unit. -/
def redactKnown (out : JsString) (secret : JsString) : JsString :=
  if 0 < secret.length then hide id chromeRedacted out secret else out

def redactOptional (out : JsString) : Option JsString → JsString
  | some secret => redactKnown out secret
  | none => out

def redactKnownSecrets (input : JsString) (secrets : Option ChromeRedactionSecrets) : JsString :=
  match secrets with
  | none => input
  | some s =>
      let out := redactOptional input s.sessionKey
      let out := redactOptional out s.grantId
      let out := redactOptional out s.nonce
      let out := redactOptional out s.instanceId
      (s.typedValues.getD []).foldl redactKnown out

def genericPatterns : List Rule :=
  [grantIdPattern,sessionKeyPattern,noncePattern,cookieValuePattern,authorizationPattern,bearerPattern,formValuePattern,base64RunPattern]

def redactChromeProfileText (input : JsString) (secrets : Option ChromeRedactionSecrets) : JsString :=
  genericPatterns.foldl Rule.replace (redactKnownSecrets input secrets)

namespace ChromeRedactionSecrets

variable (s : ChromeRedactionSecrets)

/- The secrets with a field of their own, in the order of the passes. -/
def fields : List JsString := ([s.sessionKey,s.grantId,s.nonce,s.instanceId].flatMap Option.toList).filter (· ≠ [])

def typed : List JsString := (s.typedValues.getD []).filter (· ≠ [])

def known : List JsString := s.fields ++ s.typed

end ChromeRedactionSecrets

def chromeProfileTextLeaksSecret (text : JsString) (s : ChromeRedactionSecrets) : Bool :=
  s.known.any fun secret => secret <:+: text

/- Each unit with where it stands in the input. -/
def traced (input : JsString) : List (UInt16 × Option Nat) := input.zipIdx.map fun cell => (cell.1,some cell.2)

def tracedMark : List (UInt16 × Option Nat) := chromeRedacted.map fun u => (u,none)

/- The input's units that the passes for known secrets have left, by where they stood. -/
def keptOrigins (input : JsString) (s : ChromeRedactionSecrets) : List Nat :=
  (hideAll Prod.fst tracedMark s.known (traced input)).filterMap Prod.snd

/- No part of an occurrence is left, and the order the typed values are listed in does not show. -/
structure Redacts (input : JsString) (s : ChromeRedactionSecrets) : Prop where
  complete : ∀ secret ∈ s.known, ∀ at_, OccursAt input secret at_ →
    ∀ i, at_ ≤ i → i < at_ + secret.length → i ∉ keptOrigins input s
  unordered : ∀ typed, typed.Perm (s.typedValues.getD []) →
    redactChromeProfileText input (some { s with typedValues := some typed }) = redactChromeProfileText input (some s)

/- The first secret has a field of its own, and its pass is before the other's. -/
def ahead (s : ChromeRedactionSecrets) (first other : JsString) : Prop := s.fields.idxOf first < s.fields.idxOf other

instance (s : ChromeRedactionSecrets) : DecidableRel (ahead s) := fun first other => by
  unfold ahead
  infer_instance

theorem knownPasses (out : JsString) (secrets : List JsString) :
    secrets.foldl redactKnown out = hideAll id chromeRedacted (secrets.filter (· ≠ [])) out := by
  induction secrets generalizing out with
  | nil => rfl
  | cons secret rest ih =>
    rw [List.foldl_cons,ih,redactKnown]
    cases secret with
    | nil => rfl
    | cons u more => rfl

theorem optionalPass (out : JsString) (secret : Option JsString) : redactOptional out secret = secret.toList.foldl redactKnown out := by
  cases secret <;> rfl

theorem redactedKnown (input : JsString) (s : ChromeRedactionSecrets) :
    redactKnownSecrets input (some s) = hideAll id chromeRedacted s.known input := by
  have listed : redactKnownSecrets input (some s) =
      ([s.sessionKey,s.grantId,s.nonce,s.instanceId].flatMap Option.toList ++ s.typedValues.getD []).foldl redactKnown input := by
    simp only [redactKnownSecrets,optionalPass,List.flatMap_cons,List.flatMap_nil,List.append_nil,List.foldl_append]
  rw [listed,knownPasses,List.filter_append]
  rfl

theorem knownSome (s : ChromeRedactionSecrets) : ∀ secret ∈ s.known, secret ≠ [] := by
  intro secret member
  rcases List.mem_append.mp member with field | typed
  · exact of_decide_eq_true (List.mem_filter.mp field).2
  · exact of_decide_eq_true (List.mem_filter.mp typed).2

theorem markSpelled : tracedMark.map Prod.fst = chromeRedacted := by
  rw [tracedMark,List.map_map]
  exact List.map_id chromeRedacted

theorem tracedSpelled (input : JsString) : (traced input).map Prod.fst = input := by
  rw [traced,List.map_map]
  exact List.zipIdx_map_fst 0 input

theorem tracedAt {input : JsString} {at_ : Nat} {cell : UInt16 × Option Nat} (here : (traced input)[at_]? = some cell) :
    cell.2 = some at_ := by
  rw [traced,List.getElem?_map,List.getElem?_zipIdx,Option.map_map] at here
  obtain ⟨u,-,rfl⟩ := Option.map_eq_some_iff.mp here
  exact congrArg some (Nat.zero_add at_)

/- What is traced is what the passes answer. -/
theorem originsShown (input : JsString) (s : ChromeRedactionSecrets) :
    (hideAll Prod.fst tracedMark s.known (traced input)).map Prod.fst = redactKnownSecrets input (some s) := by
  rw [redactedKnown,hideAllKeys,markSpelled,tracedSpelled]

theorem retyped (s : ChromeRedactionSecrets) {typed : List JsString} (same : typed.Perm (s.typedValues.getD [])) (secret : JsString) :
    secret ∈ s.known ↔ secret ∈ ({ s with typedValues := some typed } : ChromeRedactionSecrets).known := by
  have filtered : (typed.filter (· ≠ [])).Perm ((s.typedValues.getD []).filter (· ≠ [])) := same.filter _
  unfold ChromeRedactionSecrets.known ChromeRedactionSecrets.typed
  rw [List.mem_append,List.mem_append]
  exact or_congr_right filtered.mem_iff.symm

def typedCode : ChromeRedactionSecrets := ⟨some (js "sess-4711"),none,none,none,some [js "4711",js "pin"]⟩

def splitCode : ChromeRedactionSecrets := ⟨none,none,none,none,some [js "b",js "abc"]⟩

end Northstar.Chrome
