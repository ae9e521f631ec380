import Northstar.Interchange

/-! Admitted evidence (agent-state.ts) as the synthesizer and the verifier read it, and the
identity evidence groups by: a normalized URL, or a structured identity where there is
none. SHA-256, the URL parser and the case tables are the platform's. -/
namespace Northstar.Agent

structure Platform where
  sha256hex : JsString → JsString
  toLowerCase : JsString → JsString
  /- What normalizeUrl's try block returns for a trimmed text; `none` where URL throws. -/
  tidyUrl : JsString → Option JsString

inductive SourceClass where
  | official | docs | repo | academic | news | community | unknown
  deriving DecidableEq, Repr

inductive AcquisitionRoute where
  | search | fetch | reportSuggestedFetch | research | github | social | video | kg
  deriving DecidableEq, Repr

inductive EvidenceStatus where
  | admitted | rejected | superseded
  deriving DecidableEq, Repr

inductive Locator where
  | kg (nodeId field : JsString)
  | other
  deriving DecidableEq, Repr

structure StructuredIdentity where
  provider : JsString
  query : JsString
  deriving DecidableEq, Repr

structure SourceRef where
  canonicalUrl : JsString
  identity : Option StructuredIdentity
  sourceClass : SourceClass
  acquisitionRoute : AcquisitionRoute
  deriving DecidableEq, Repr

structure AgentEvidence where
  id : JsString
  sourceRef : SourceRef
  locator : Locator
  questionIds : List JsString
  status : EvidenceStatus
  corroboratingFingerprint : JsString
  deriving DecidableEq, Repr

def normalizeUrl (p : Platform) (raw : JsString) : JsString :=
  (p.tidyUrl (trim raw)).getD (p.toLowerCase (trim raw))

/- A string of code points no longer than a bound in bytes; a lone surrogate is decoded
from its replacement's bytes. -/
def decodedPoint (point : JsString) : JsString := if (pointChar point).isSome then point else [0xFFFD]

def pointsWithin : List JsString → Nat → List JsString
  | [], _ => []
  | point :: rest, room =>
      if (utf8Units point).length ≤ room then
        decodedPoint point :: pointsWithin rest (room - (utf8Units point).length)
      else []

def truncateUtf8Bytes (text : JsString) (maxBytes : Nat) : JsString :=
  if byteLength text ≤ maxBytes then text else (pointsWithin (points text) maxBytes).flatten

def agentWarningMaxBytes : Nat := 2000

/- The pieces of STRUCTURED_SOURCE_URL_PATTERN. -/
def digitUnit (u : UInt16) : Bool := 48 ≤ u && u ≤ 57
def letterUnit (u : UInt16) : Bool := (65 ≤ u && u ≤ 90) || (97 ≤ u && u ≤ 122)
def nameUnit (u : UInt16) : Bool := letterUnit u || digitUnit u || u == 95 || u == 45
def pathUnit (u : UInt16) : Bool := nameUnit u || u == 46

def structuredProvider (s : JsString) : Bool :=
  (s.head?.any fun u => letterUnit u || digitUnit u) && s.length ≤ 64 && s.all nameUnit

def structuredPart (bound : Nat) (s : JsString) : Bool := 1 ≤ s.length && s.length ≤ bound && s.all pathUnit

/- The pattern on `provider:nodeId/field`: its separators are in none of its classes, so it
matches where the first colon and the first slash after it cut the text into its parts. -/
def isStructuredSourceUrl (candidate : JsString) : Bool :=
  let provider := candidate.takeWhile (· != 58)
  let rest := candidate.drop (provider.length + 1)
  let nodeId := rest.takeWhile (· != 47)
  let field := rest.drop (nodeId.length + 1)
  provider.length < candidate.length && nodeId.length < rest.length && structuredProvider provider &&
    structuredPart 256 nodeId && structuredPart 128 field

def formatStructuredSourceUrl (provider nodeId field : JsString) : Option JsString :=
  let candidate := provider ++ [58] ++ nodeId ++ [47] ++ field
  if isStructuredSourceUrl candidate then some candidate else none

structure SourceKey where
  url : JsString
  locator : Option (JsString × JsString)
  deriving DecidableEq, Repr

def structuredLedgerKey (p : Platform) (entry : AgentEvidence) : Option SourceKey :=
  match entry.sourceRef.identity with
  | none => none
  | some identity => match entry.locator with
      | .kg nodeId field =>
          (formatStructuredSourceUrl identity.provider nodeId field).map fun url =>
            ⟨url,some (nodeId,field)⟩
      | .other =>
          let query := trim identity.query
          if identity.provider = [] ∨ query = [] then none
          else
            let nodeId := js "q-" ++ (p.sha256hex query).take 16
            let field := if entry.sourceRef.acquisitionRoute = .research then "abstract" else "excerpt"
            (formatStructuredSourceUrl identity.provider nodeId (js field)).map fun url => ⟨url,none⟩

/- The key a group is kept under is its URL. -/
def evidenceSourceKey (p : Platform) (entry : AgentEvidence) : Option SourceKey :=
  if entry.sourceRef.canonicalUrl ≠ [] then some ⟨normalizeUrl p entry.sourceRef.canonicalUrl,none⟩
  else structuredLedgerKey p entry

theorem decodedClean {s point : JsString} (member : point ∈ points s) : clean (decodedPoint point) := by
  rcases pointShape member with ⟨u,rfl⟩ | ⟨u,v,rfl,high,low⟩
  · unfold decodedPoint pointChar
    cases lone : surrogate u with
    | true => simp [lone,clean,highSurrogate]
    | false => simpa [lone] using cleanEnd [] (plainNotHigh lone)
  · exact cleanEnd [u] (lowNotHigh low)

theorem decodedBytes {s point : JsString} (member : point ∈ points s) :
    byteLength (decodedPoint point) = (utf8Units point).length := by
  rcases pointShape member with ⟨u,rfl⟩ | ⟨u,v,rfl,high,low⟩
  · unfold decodedPoint
    cases lone : surrogate u with
    | true =>
      simp only [pointChar,lone,if_true,Option.isSome_none,utf8Units,Option.getD_none,Bool.false_eq_true,if_false]
      decide
    | false => simp [pointChar,lone,byteLength,utf8,points]
  · simp [decodedPoint,pointChar,byteLength,utf8,points,high,low]

theorem pointsWithinBytes (units : List JsString) (shaped : ∀ point ∈ units, ∃ s, point ∈ points s)
    (room : Nat) : byteLength (pointsWithin units room).flatten ≤ room := by
  induction units generalizing room with
  | nil => exact Nat.zero_le _
  | cons point rest ih =>
    obtain ⟨s,member⟩ := shaped point List.mem_cons_self
    unfold pointsWithin
    split
    · have later := ih (fun p among => shaped p (List.mem_cons_of_mem _ among))
        (room - (utf8Units point).length)
      rw [List.flatten_cons,byteAppend (decodedClean member),decodedBytes member]
      omega
    · exact Nat.zero_le _

theorem truncatedBytes (text : JsString) (maxBytes : Nat) :
    byteLength (truncateUtf8Bytes text maxBytes) ≤ maxBytes := by
  unfold truncateUtf8Bytes
  split
  · assumption
  · exact pointsWithinBytes _ (fun point member => ⟨text,member⟩) _

theorem truncatedAgain (text : JsString) (maxBytes : Nat) :
    truncateUtf8Bytes (truncateUtf8Bytes text maxBytes) maxBytes = truncateUtf8Bytes text maxBytes :=
  if_pos (truncatedBytes text maxBytes)

end Northstar.Agent
