import Northstar.Grouping
import Northstar.Script

/-! What several knowledge providers say, put together without a verdict (knowledge-aggregate.ts,
knowledge-normalize.ts): claims and their conflicts, entities under their identity keys, and the
mentions and facts of an analysed text. -/
namespace Northstar.Knowledge
open Grouping

structure KgClaim where
  subjectId : JsString
  predicate : JsString
  object : Option JsString := none
  confidence : Option Number := none
  provider : Option JsString := none
  evidence : JsValue := .undefined

structure KgEntity where
  id : JsString
  type : JsString
  name : Option JsString := none
  url : Option JsString := none
  confidence : Option Number := none
  deriving DecidableEq, Repr

structure KgMention where
  entityId : JsString
  text : JsString
  offset : Nat
  length : Nat
  deriving DecidableEq, Repr

/- Claims. -/
def claimGroupKey (claim : KgClaim) : JsString := claim.subjectId ++ 0 :: claim.predicate

/- A claim without an object counts as one with this. -/
def absentObject : JsString := 0 :: js "absent"

def objectOf (claim : KgClaim) : JsString := claim.object.getD absentObject

structure ClaimGroup where
  objects : List JsString
  rows : List KgClaim

def startGroup (claim : KgClaim) : ClaimGroup := ⟨[objectOf claim],[claim]⟩

def addClaim (group : ClaimGroup) (claim : KgClaim) : ClaimGroup where
  objects := if group.objects.contains (objectOf claim) then group.objects else group.objects ++ [objectOf claim]
  rows := group.rows ++ [claim]

def claimGroups (claims : List KgClaim) : List (JsString × ClaimGroup) := grouped claimGroupKey startGroup addClaim claims

structure KgClaimPartition where
  claims : List KgClaim
  conflicts : List KgClaim

def partitionEnhanceClaims (claims : List KgClaim) : KgClaimPartition where
  claims := claims
  conflicts := (claimGroups claims).flatMap fun group => if group.2.objects.length > 1 then group.2.rows else []

/- Entities. -/
inductive KgAlignmentBasis where
  | providerId
  | canonicalUrl
  | email
  | phone
  | externalIdentifier
  | typedIdentity
  deriving DecidableEq, Repr

def KgAlignmentBasis.name : KgAlignmentBasis → JsString
  | .providerId => js "provider_id"
  | .canonicalUrl => js "canonical_url"
  | .email => js "email"
  | .phone => js "phone"
  | .externalIdentifier => js "external_identifier"
  | .typedIdentity => js "typed_identity"

inductive KgAlignmentStrength where
  | exact_
  | strong
  | heuristic
  deriving DecidableEq, Repr

structure KgIdentitySignals where
  providerId : JsString
  canonicalUrl : Option JsString := none
  emails : List JsString := []
  phones : List JsString := []
  externalIds : List JsString := []
  deriving DecidableEq, Repr

structure KgEntityInput where
  entity : KgEntity
  provider : JsString
  raw : JsValue := .undefined
  signals : Option KgIdentitySignals := none

structure KgEntityMember where
  entity : KgEntity
  provider : JsString
  deriving DecidableEq, Repr

structure KgEntityGroup where
  key : JsString
  basis : KgAlignmentBasis
  strength : KgAlignmentStrength
  alignmentConfidence : Option Number
  members : List KgEntityMember

structure KgIdentityKey where
  key : JsString
  basis : KgAlignmentBasis
  strength : KgAlignmentStrength
  deriving DecidableEq, Repr

def trimmed : JsValue → Option JsString
  | .string value => if trim value = [] then none else some (trim value)
  | _ => none

/- `value ?? other` -/
def coalesce (value other : JsValue) : JsValue := match value with
  | .undefined => other
  | .null => other
  | value => value

def maxIdentityValues : Nat := 5
def maxEmailChars : Nat := 320
def maxPhoneChars : Nat := 64
def maxExternalIdChars : Nat := 512

def dedupeBounded (values : List JsString) (max : Nat) : List JsString := values.eraseDups.take max

section
variable (toLowerCase : JsString → JsString)

def stringList (value : JsValue) (lower : Bool) : List JsString :=
  let items := match value with
    | .array items => items
    | value => [value]
  (items.filterMap trimmed).map fun clean => if lower then toLowerCase clean else clean

/- `normalizeUrl` has no result where it throws. -/
def extractKgIdentitySignals (normalizeUrl : JsString → Option JsString) (entity : KgEntity) (raw : JsValue) : KgIdentitySignals :=
  let bounded (value : JsValue) (lower : Bool) (most : Nat) :=
    dedupeBounded ((stringList toLowerCase value lower).map (·.take most)) maxIdentityValues
  let url := trimmed (coalesce ((entity.url.map JsValue.string).getD .undefined) (coalesce (raw.get "canonical_url") (raw.get "url")))
  { providerId := entity.id
    canonicalUrl := url.map fun url => (normalizeUrl url).getD url
    emails := bounded (coalesce (raw.get "email") (coalesce (raw.get "emails") (raw.get "email_address"))) true maxEmailChars
    phones := bounded (coalesce (raw.get "phone") (coalesce (raw.get "phones") (raw.get "phone_number"))) false maxPhoneChars
    externalIds := bounded (coalesce (raw.get "external_id") (coalesce (raw.get "external_ids")
      (coalesce (raw.get "externalIds") (raw.get "wikidata_id")))) false maxExternalIdChars }

def typedIdentity (entity : KgEntity) : Option JsString :=
  ((entity.name.map JsValue.string).bind trimmed).map fun name => toLowerCase entity.type ++ 58 :: toLowerCase name

def conservativeIdentityKey (entity : KgEntity) (signals : KgIdentitySignals) (provider : JsString) : KgIdentityKey :=
  match signals.canonicalUrl,signals.emails,signals.phones,signals.externalIds,typedIdentity toLowerCase entity with
  | some url,_,_,_,_ => ⟨js "canonical_url:" ++ toLowerCase entity.type ++ 58 :: url,.canonicalUrl,.exact_⟩
  | none,email :: _,_,_,_ => ⟨js "email:" ++ email,.email,.strong⟩
  | none,[],phone :: _,_,_ => ⟨js "phone:" ++ phone,.phone,.strong⟩
  | none,[],[],id :: _,_ => ⟨js "external_identifier:" ++ id,.externalIdentifier,.strong⟩
  | none,[],[],[],some typed => ⟨js "typed_identity:" ++ typed,.typedIdentity,.heuristic⟩
  | none,[],[],[],none => ⟨js "provider_id:" ++ provider ++ 58 :: signals.providerId,.providerId,.exact_⟩

variable (normalizeUrl : JsString → Option JsString)

def signalsOf (input : KgEntityInput) : KgIdentitySignals :=
  input.signals.getD (extractKgIdentitySignals toLowerCase normalizeUrl input.entity input.raw)

def identityOf (input : KgEntityInput) : KgIdentityKey :=
  conservativeIdentityKey toLowerCase input.entity (signalsOf toLowerCase normalizeUrl input) input.provider

def keyOf (input : KgEntityInput) : JsString := (identityOf toLowerCase normalizeUrl input).key

def memberOf (input : KgEntityInput) : KgEntityMember := ⟨input.entity,input.provider⟩

def startEntities (alignmentConfidenceFor : KgAlignmentBasis → Option Number) (input : KgEntityInput) : KgEntityGroup :=
  let identity := identityOf toLowerCase normalizeUrl input
  ⟨identity.key,identity.basis,identity.strength,alignmentConfidenceFor identity.basis,[memberOf input]⟩

def addEntity (group : KgEntityGroup) (input : KgEntityInput) : KgEntityGroup :=
  { group with members := group.members ++ [memberOf input] }

def groupKgEntitiesByIdentity (alignmentConfidenceFor : KgAlignmentBasis → Option Number) (inputs : List KgEntityInput) :
    List KgEntityGroup :=
  (grouped (keyOf toLowerCase normalizeUrl) (startEntities toLowerCase normalizeUrl alignmentConfidenceFor) addEntity inputs).map Prod.snd

def mergeKgEntityRepresentations (current candidate : KgEntity) : KgEntity :=
  { current with
    name := current.name.or candidate.name
    url := current.url.or candidate.url
    confidence := current.confidence.or candidate.confidence }

def dedupeKgEntities (inputs : List KgEntityInput) : List KgEntityMember :=
  (grouped (keyOf toLowerCase normalizeUrl) memberOf
    (fun member input => { member with entity := mergeKgEntityRepresentations member.entity input.entity }) inputs).map Prod.snd

/- A whole number that is no larger than any text is long. -/
def wholeFrom (least : Int) : JsValue → Option Nat
  | .number (.int n) => if n < least then none else some n.toNat
  | _ => none

def normalizeKgMention (raw : JsValue) (textLength : Nat) : Option KgMention := do
  let entityId ← trimmed (raw.get "entityId")
  let text ← (raw.get "text").asString
  let offset ← wholeFrom 0 (raw.get "offset")
  let length ← wholeFrom 1 (raw.get "length")
  if text = [] ∨ offset + length > textLength ∨ text.length ≠ length then none
  else some ⟨entityId.take 512,text,offset,length⟩

structure KgTextAnalysisInput where
  text : JsString
  entities : List KgEntity := []
  mentions : List JsValue := []
  facts : List KgClaim := []
  topics : List JsValue := []
  sentiment : Option JsString := none
  sentiments : Option (List JsValue) := none
  partitions : Option (List JsValue) := none

structure KgTextAnalysisResult where
  entities : List KgEntity
  mentions : List KgMention
  facts : List KgClaim
  topics : List JsString
  sentiment : Option JsString
  partitions : List JsValue

def distinctTopics : List JsString → List JsValue → List JsString
  | _,[] => []
  | seen,raw :: rest => match trimmed raw with
    | none => distinctTopics seen rest
    | some clean =>
        if seen.contains (toLowerCase clean) then distinctTopics seen rest
        else clean :: distinctTopics (toLowerCase clean :: seen) rest

def filledText (value : JsValue) : Option JsString := value.asString.filter fun text => trim text ≠ []

def aggregateKgTextAnalysis (input : KgTextAnalysisInput) : KgTextAnalysisResult where
  entities := (dedupeKgEntities toLowerCase normalizeUrl (input.entities.map fun entity => { entity := entity, provider := [] })).map
    (·.entity)
  mentions := input.mentions.filterMap fun raw => normalizeKgMention raw input.text.length
  facts := input.facts
  topics := distinctTopics toLowerCase [] input.topics
  sentiment := match ((input.sentiments.getD (input.sentiment.map JsValue.string).toList).filterMap filledText).eraseDups with
    | [one] => some one
    | _ => none
  partitions := input.partitions.getD []

end
end Northstar.Knowledge
