import Northstar.Base64

/-! Inline data URIs in fetched text and the markers that stand for them (data-uri-sanitize.ts).
A place in a text is given by the text before it, backwards, and the text from it. -/
namespace Northstar.Content

def maxDataUriHeaderChars : Nat := 1024
def maxMimeChars : Nat := 127
def maxMarkerSourceChars : Nat := 180

inductive DataUriEncoding where
  | base64
  | percentEncoded
  deriving DecidableEq

inductive DigestBasis where
  | decoded
  | encoded
  deriving DecidableEq

structure DataUriOmission where
  ordinal : Nat
  sourcePath : JsString
  mimeType : JsString
  encoding : DataUriEncoding
  encodedBytes : Nat
  decodedBytes : Option Nat
  decodeError : Option JsString
  sha256 : JsString
  digestBasis : DigestBasis
  deriving DecidableEq

def asciiLowerCode (code : UInt16) : UInt16 := if 65 ≤ code ∧ code ≤ 90 then code + 32 else code

def matchesDataScheme : JsString → Bool
  | d :: a :: t :: last :: colon :: _ => asciiLowerCode d = 100 && asciiLowerCode a = 97 && asciiLowerCode t = 116 &&
      asciiLowerCode last = 97 && colon = 58
  | _ => false

def alphaNumeric (code : UInt16) : Bool := (48 ≤ code && code ≤ 57) || (65 ≤ code && code ≤ 90) || (97 ≤ code && code ≤ 122)

def isSchemeBoundary : JsString → Bool
  | [] => true
  | code :: _ => !alphaNumeric code && code ≠ 43 && code ≠ 45 && code ≠ 46

/- How far the next scheme is. -/
def findNextDataScheme : JsString → JsString → Option Nat
  | _,[] => none
  | before,u :: rest =>
      if matchesDataScheme (u :: rest) && isSchemeBoundary before then some 0
      else (findNextDataScheme (u :: before) rest).map (· + 1)

inductive DataUriEnclosure where
  | quote (close : UInt16)
  | parentheses
  | angle
  deriving DecidableEq

def quoteUnit (u : UInt16) : Bool := u = 34 || u = 39 || u = 96

def likelyOpeningQuote : JsString → Bool
  | [] => true
  | beforeQuote :: _ => [61,40,91,123,58,44].contains beforeQuote || whiteSpace beforeQuote

def blank (u : UInt16) : Bool := u = 32 || u = 9

def openerEnclosure : Option UInt16 → Option DataUriEnclosure
  | some 40 => some .parentheses
  | some 60 => some .angle
  | _ => none

def dataUriEnclosure : JsString → Option DataUriEnclosure
  | [] => none
  | immediate :: earlier =>
      if quoteUnit immediate && likelyOpeningQuote earlier then some (.quote immediate)
      else openerEnclosure ((immediate :: earlier).dropWhile blank).head?

def isBareDataUriTerminator (code : UInt16) : Bool := code ≤ 32 || code = 127 || code = 34 || code = 96 || code = 60 || code = 62

/- What stands from the scheme to the closing unit; none when it is missing. -/
def scanEnclosedCandidate (enclosure : DataUriEnclosure) : Nat → JsString → Option JsString
  | _,[] => none
  | depth,ch :: rest => match enclosure with
    | .quote close => if ch = close then some [] else (scanEnclosedCandidate enclosure depth rest).map (ch :: ·)
    | .parentheses =>
        if ch = 40 then (scanEnclosedCandidate enclosure (depth + 1) rest).map (ch :: ·)
        else if ch = 41 then
          if depth - 1 = 0 then some [] else (scanEnclosedCandidate enclosure (depth - 1) rest).map (ch :: ·)
        else (scanEnclosedCandidate enclosure depth rest).map (ch :: ·)
    | .angle => if ch = 62 then some [] else (scanEnclosedCandidate enclosure depth rest).map (ch :: ·)

def scanBareCandidate (rest : JsString) : JsString := rest.takeWhile fun ch => !isBareDataUriTerminator ch

/- The candidate's text after the scheme; its comma is the first there. -/
structure ScannedDataUriCandidate where
  body : JsString
  enclosure : Option DataUriEnclosure

def startDepth : DataUriEnclosure → Nat
  | .parentheses => 1
  | _ => 0

def scanDataUriCandidate (before rest : JsString) : ScannedDataUriCandidate :=
  let bare : ScannedDataUriCandidate := ⟨scanBareCandidate (rest.drop 5),none⟩
  match dataUriEnclosure before with
  | some enclosure => match scanEnclosedCandidate enclosure (startDepth enclosure) (rest.drop 5) with
    | some body => ⟨body,some enclosure⟩
    | none => bare
  | none => bare

def headerEndsWithBase64 (header : JsString) : Bool :=
  (js ";base64").isSuffixOf ((header.reverse.dropWhile blank).reverse.map asciiLowerCode)

def isMimeTokenChar (code : UInt16) : Bool :=
  33 ≤ code && code ≤ 126 && !([34,40,41,44,47,58,59,60,61,62,63,64,91,92,93].contains code)

def octetStream : JsString := js "application/octet-stream"

def normalizeMimeType (header : JsString) : JsString :=
  let mime := header.takeWhile (· ≠ 59)
  if mime = [] then js "text/plain"
  else if maxMimeChars < mime.length then octetStream
  else if mime.head? = some 47 ∨ mime.getLast? = some 47 then octetStream
  else if !mime.all fun code => code = 47 || isMimeTokenChar code then octetStream
  else if mime.count 47 ≠ 1 then octetStream
  else mime.map asciiLowerCode

def percentHex (code : UInt16) : Option UInt8 :=
  if 48 ≤ code ∧ code ≤ 57 then some (code - 48).toUInt8
  else if 65 ≤ code ∧ code ≤ 70 then some (code - 55).toUInt8
  else if 97 ≤ code ∧ code ≤ 102 then some (code - 87).toUInt8
  else none

/- The run of units since the last escape is held backwards. -/
def decodeRuns : JsString → JsString → Except JsString Bytes
  | run,[] => .ok (utf8 run.reverse)
  | run,37 :: high :: low :: rest => match percentHex high,percentHex low with
    | some h,some l => (decodeRuns [] rest).map fun bytes => utf8 run.reverse ++ (h * 16 + l) :: bytes
    | _,_ => .error (js "invalid-percent-escape")
  | run,ch :: rest => if ch = 37 then .error (js "invalid-percent-escape") else decodeRuns (ch :: run) rest

def decodePercentEncoded (payload : JsString) : Except JsString Bytes := decodeRuns [] payload

def isBase64AlphabetByte (byte : UInt8) : Bool :=
  (65 ≤ byte && byte ≤ 90) || (97 ≤ byte && byte ≤ 122) || (48 ≤ byte && byte ≤ 57) || byte = 43 || byte = 47

/- The padding at the end. -/
def paddingCount : Nat → Bytes → Except JsString Nat
  | count,[] => .ok count
  | count,byte :: rest =>
      if 127 < byte then .error (js "non-ascii-base64")
      else if byte = 61 then paddingCount (count + 1) rest
      else if count ≠ 0 then .error (js "invalid-base64-padding")
      else if !isBase64AlphabetByte byte then .error (js "invalid-base64-character")
      else paddingCount count rest

def decodeBase64Payload (payload : JsString) : Except JsString Bytes := do
  let encoded ← decodePercentEncoded payload
  let count ← paddingCount 0 encoded
  let paddingStart := encoded.length - count
  if 2 < count then .error (js "invalid-base64-padding")
  else if 0 < count ∧ encoded.length % 4 ≠ 0 then .error (js "invalid-base64-padding")
  else if count = 0 ∧ encoded.length % 4 = 1 then .error (js "invalid-base64-length")
  else if count = 1 ∧ paddingStart % 4 ≠ 3 then .error (js "invalid-base64-padding")
  else if count = 2 ∧ paddingStart % 4 ≠ 2 then .error (js "invalid-base64-padding")
  else .ok (fromBase64url (encoded.map UInt8.toUInt16))

section Omitting

/- The hash of the platform's crypto module. -/
variable (sha256 : Bytes → Bytes)

def sha256Bytes (value : Bytes) : JsString :=
  (sha256 value).flatMap fun byte => [hexUnit (byte.toNat / 16),hexUnit (byte.toNat % 16)]

def markerSourceUnit (u : UInt16) : Bool := alphaNumeric u || [46,95,45,91,93,42,36].contains u

def safeMarkerSource (sourcePath : JsString) : JsString :=
  let source := if sourcePath = [] then js "value" else sourcePath
  let safe := (points source).map fun
    | [u] => if markerSourceUnit u then u else 95
    | _ => 95
  if safe.length ≤ maxMarkerSourceChars then safe
  else
    let suffix := (sha256Bytes sha256 (utf8 source)).take 12
    safe.take (maxMarkerSourceChars - suffix.length - 1) ++ 126 :: suffix

def DataUriEncoding.text : DataUriEncoding → JsString
  | .base64 => js "base64"
  | .percentEncoded => js "percent-encoded"

def DigestBasis.text : DigestBasis → JsString
  | .decoded => js "decoded"
  | .encoded => js "encoded"

def buildDataUriMarker (omission : DataUriOmission) : JsString :=
  js "[pi-northstar inline data URI omitted; ordinal=" ++ js (toString omission.ordinal) ++ js "; source=" ++ omission.sourcePath ++
    js "; mime=" ++ omission.mimeType ++ js "; encoding=" ++ omission.encoding.text ++ js "; encodedBytes=" ++
    js (toString omission.encodedBytes) ++ js "; decodedBytes=" ++
    (match omission.decodedBytes with | none => js "unknown" | some n => js (toString n)) ++
    (match omission.decodeError with | none => [] | some error => js "; decodeError=" ++ error) ++
    js "; sha256=" ++ omission.sha256 ++ js "; digestBasis=" ++ omission.digestBasis.text ++ js "; retrieval=not-retained]"

/- The omission of a candidate with this text after the scheme. -/
def omissionOf (sourcePath : JsString) (ordinal : Nat) (body : JsString) : DataUriOmission :=
  let missingComma := !body.contains 44
  let header := body.takeWhile (· ≠ 44)
  let encoding : DataUriEncoding := if headerEndsWithBase64 header then .base64 else .percentEncoded
  let payload := if missingComma then body else (body.dropWhile (· ≠ 44)).drop 1
  let omission (decodedBytes : Option Nat) (decodeError : Option JsString) (digest : JsString) (basis : DigestBasis) : DataUriOmission :=
    ⟨ordinal,safeMarkerSource sha256 sourcePath,normalizeMimeType header,encoding,byteLength payload,decodedBytes,decodeError,digest,basis⟩
  let failed (error : JsString) := omission none (some error) (sha256Bytes sha256 (utf8 payload)) .encoded
  if missingComma then failed (js "missing-comma")
  else if maxDataUriHeaderChars < header.length then failed (js "header-too-long")
  else match (match encoding with
      | .base64 => decodeBase64Payload payload
      | .percentEncoded => decodePercentEncoded payload) with
    | .error error => failed error
    | .ok bytes => omission (some bytes.length) none (sha256Bytes sha256 bytes) .decoded

/- A prose label: nothing follows the scheme. -/
def ScannedDataUriCandidate.bareLabel (candidate : ScannedDataUriCandidate) : Prop :=
  candidate.body.contains 44 = false ∧ candidate.body = [] ∧ candidate.enclosure = none
deriving Decidable

structure SanitizationState where
  pieces : JsString
  omissions : List DataUriOmission

/- The loop: `retained` is the text since the last omission, up to the place of the scan. -/
def sanitizeSteps (sourcePath : JsString) : Nat → JsString → JsString → JsString → SanitizationState → SanitizationState
  | 0,_,_,_,state => state
  | fuel+1,before,retained,rest,state =>
      match findNextDataScheme before rest with
      | none => ⟨state.pieces ++ (retained ++ rest),state.omissions⟩
      | some start =>
          let skipped := rest.take start
          let from_ := rest.drop start
          let candidate := scanDataUriCandidate (skipped.reverse ++ before) from_
          if candidate.bareLabel then
            sanitizeSteps sourcePath fuel ((rest.take (start + 5)).reverse ++ before) (retained ++ rest.take (start + 5))
              (rest.drop (start + 5)) state
          else
            let omission := omissionOf sha256 sourcePath (state.omissions.length + 1) candidate.body
            let end_ := start + (5 + candidate.body.length)
            sanitizeSteps sourcePath fuel ((rest.take end_).reverse ++ before) [] (rest.drop end_)
              ⟨state.pieces ++ (retained ++ skipped ++ buildDataUriMarker omission),state.omissions ++ [omission]⟩

def sanitizeInlineDataUris (text sourcePath : JsString) : SanitizationState :=
  sanitizeSteps sha256 sourcePath (text.length + 1) [] [] text ⟨[],[]⟩

end Omitting

end Northstar.Content
