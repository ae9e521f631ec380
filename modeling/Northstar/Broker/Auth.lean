import Northstar.Broker.Protocol

/-! Session tokens (auth.rs) up to the clock and the random source: what is signed,
how a signature is compared, how a body is read back. The crates behind it are
parameters of the configuration. -/
namespace Northstar.Broker

/-- Command-line arguments, and what sha2, hmac, base64 and serde_json's parser compute. -/
structure Config where
  projectId : String
  euid : Nat
  executor : Bool
  tokenFile : Bool
  sha256Hex : Bytes → String
  hmacSha256 : Bytes → Bytes → Bytes
  base64Encode : Bytes → String
  base64Decode : Bytes → Option Bytes
  fromSlice : Bytes → Option Value

structure BrokerAuth where
  epoch : String
  rootSecret : Bytes
  deriving DecidableEq, Repr

structure TokenClaims where
  epoch : String
  clientId : String
  sessionId : String
  projectId : String
  capabilities : List BrokerCapability
  expiresAt : Nat
  nonce : String
  deriving DecidableEq, Repr

def tokenTtlSecs : Nat := 60

def TokenClaims.toValue (c : TokenClaims) : Value :=
  .object [("epoch",.string c.epoch),("client_id",.string c.clientId),
    ("session_id",.string c.sessionId),("project_id",.string c.projectId),
    ("capabilities",capabilityList c.capabilities),("expires_at",natural c.expiresAt),
    ("nonce",.string c.nonce)]

/- The claims struct does not deny unknown fields. -/
def openFields (keys : List String) : Value → Option Fields
  | .object fields => if ((fields.map Prod.fst).filter (· ∈ keys)).Nodup then some fields else none
  | .array items => if items.length = keys.length then some (keys.zip items) else none
  | _ => none

def readClaims (v : Value) : Option TokenClaims := do
  let f ← openFields ["epoch","client_id","session_id","project_id","capabilities","expires_at",
    "nonce"] v
  some ⟨← strField "epoch" f,← strField "client_id" f,← strField "session_id" f,
    ← strField "project_id" f,← readCapabilities "capabilities" f,
    ← uintField "expires_at" (2^64) f,← strField "nonce" f⟩

variable (cfg : Config)

def encodeClaims (c : TokenClaims) : String := cfg.base64Encode c.toValue.render

def decodeClaims (body : Bytes) : Option TokenClaims := do
  let decoded ← cfg.base64Decode body
  let v ← cfg.fromSlice decoded
  readClaims v

def sign (secret : Bytes) (body : String) : String :=
  cfg.base64Encode (cfg.hmacSha256 secret (utf8String body))

def verifySignature (secret body sig : Bytes) : Bool :=
  let expected := cfg.hmacSha256 secret body
  match cfg.base64Decode sig with
  | none => false
  | some actual =>
      if expected.length ≠ actual.length then false
      else (expected.zip actual).foldl (fun acc pair => acc ||| (pair.1 ^^^ pair.2)) 0 == 0

/-- splitn(2, '.'): everything before the first dot and everything after it. -/
def splitToken (token : String) : Option (Bytes × Bytes) :=
  match (utf8String token).span (· ≠ 46) with
  | (body,_ :: sig) => some (body,sig)
  | (_,[]) => none

/-! The accumulator of the constant-time comparison is zero exactly on equal bytes. -/
theorem foldXorZero (pairs : List (UInt8 × UInt8)) (acc : UInt8) :
    pairs.foldl (fun acc pair => acc ||| (pair.1 ^^^ pair.2)) acc = 0 ↔
      acc = 0 ∧ ∀ pair ∈ pairs, pair.1 = pair.2 := by
  induction pairs generalizing acc with
  | nil => simp
  | cons pair rest ih =>
    rw [List.foldl_cons,ih]
    have both : acc ||| (pair.1 ^^^ pair.2) = 0 ↔ acc = 0 ∧ pair.1 = pair.2 := by
      simp only [← UInt8.toBitVec_inj,UInt8.toBitVec_or,UInt8.toBitVec_xor,UInt8.toBitVec_zero]
      constructor
      · intro zero
        have left := (BitVec.or_eq_zero_iff).mp zero
        exact ⟨left.1,BitVec.xor_eq_zero_iff.mp left.2⟩
      · rintro ⟨left,right⟩
        simp [left,right]
    rw [both]
    simp [and_assoc]

theorem verifySignatureExact {secret body sig : Bytes} :
    verifySignature cfg secret body sig = true ↔
      cfg.base64Decode sig = some (cfg.hmacSha256 secret body) := by
  unfold verifySignature
  cases found : cfg.base64Decode sig with
  | none => simp
  | some actual =>
    simp only [Option.some.injEq]
    split
    · rename_i lengths
      simp only [Bool.false_eq_true,false_iff]
      intro same
      exact lengths (by rw [same])
    · rename_i lengths
      rw [beq_iff_eq,foldXorZero]
      constructor
      · rintro ⟨_,pairs⟩
        refine List.ext_getElem (by omega) ?_
        intro i h₁ h₂
        have member : ((cfg.hmacSha256 secret body)[i],actual[i]) ∈
            (cfg.hmacSha256 secret body).zip actual := by
          rw [List.mem_iff_getElem]
          exact ⟨i,by simp only [List.length_zip]; omega,by simp⟩
        exact (pairs _ member).symm
      · rintro rfl
        refine ⟨rfl,?_⟩
        intro pair member
        obtain ⟨i,bound,rfl⟩ := List.mem_iff_getElem.mp member
        simp

end Northstar.Broker
