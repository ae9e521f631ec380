import Northstar.Network.Redirects

/-! Acquiring an asset under its ceilings (asset-acquire.ts): redirects by hand, a bounded read, magic bytes
and the dimensions an image declares before it is decoded. -/
namespace Northstar.Assets
open Network (UrlParser Url Lookup validateHttpUrl assertPublicHostname resolvePublicHostname invalidUrl digit decimal toLowerCase https)

def imageMaxBytes : Nat := 20 * 1024 * 1024
def imageMaxPixels : Nat := 40000000
def pdfMaxBytes : Nat := 25 * 1024 * 1024
def pdfMaxPages : Nat := 100
def videoMaxBytes : Nat := 250 * 1024 * 1024

inductive AssetKind where
  | image
  | pdf
  | video
  deriving DecidableEq

inductive AssetSourceKind where
  | extracted
  | derived
  deriving DecidableEq

def AssetKind.text : AssetKind → JsString
  | .image => js "image"
  | .pdf => js "pdf"
  | .video => js "video"

def maxBytesForKind : AssetKind → Nat
  | .image => imageMaxBytes
  | .pdf => pdfMaxBytes
  | .video => videoMaxBytes

structure AssetEvidence where
  kind : AssetKind
  sourceKind : AssetSourceKind
  bytes : Nat
  warnings : List JsString

structure AcquiredAsset where
  url : JsString
  finalUrl : JsString
  kind : AssetKind
  mime : JsString
  bytes : Bytes
  evidence : AssetEvidence
  width : Option Nat
  height : Option Nat
  pdfPagesEstimate : Option Nat

structure Dimensions where
  width : Nat
  height : Nat
  deriving DecidableEq

/- Magic bytes; none stands for unknown. -/
def sniffKind (bytes : Bytes) (announced : Option JsString) : Option AssetKind :=
  if [0x89,0x50,0x4E,0x47] <+: bytes then some .image
  else if [0xFF,0xD8,0xFF] <+: bytes then some .image
  else if 6 ≤ bytes.length ∧ [0x47,0x49,0x46] <+: bytes then some .image
  else if [0x52,0x49,0x46,0x46] <+: bytes ∧ [0x57,0x45,0x42,0x50] <+: bytes.drop 8 then some .image
  else if 5 ≤ bytes.length ∧ [0x25,0x50,0x44,0x46] <+: bytes then some .pdf
  else
    let mime := toLowerCase (announced.getD [])
    if js "image/" <+: mime then some .image
    else if mime = js "application/pdf" ∨ js "+pdf" <:+ mime then some .pdf
    else if js "video/" <+: mime then some .video
    else none

def isZipBomb (bytes : Bytes) : Bool :=
  4 ≤ bytes.length && [0x50,0x4B].isPrefixOf bytes && bytes[2]?.any fun b => b = 3 || b = 5 || b = 7

/- A view throws outside its buffer. -/
def outOfBounds : JsString := js "Offset is outside the bounds of the DataView"

def getUint16 (bytes : Bytes) (offset : Nat) : Except JsString Nat := match bytes[offset]?,bytes[offset + 1]? with
  | some high,some low => .ok (high.toNat * 256 + low.toNat)
  | _,_ => .error outOfBounds

def getUint16Little (bytes : Bytes) (offset : Nat) : Except JsString Nat := match bytes[offset]?,bytes[offset + 1]? with
  | some low,some high => .ok (high.toNat * 256 + low.toNat)
  | _,_ => .error outOfBounds

def getUint32 (bytes : Bytes) (offset : Nat) : Except JsString Nat := do
  let high ← getUint16 bytes offset
  let low ← getUint16 bytes (offset + 2)
  .ok (high * 65536 + low)

def probePng (bytes : Bytes) : Except JsString (Option Dimensions) :=
  if bytes.length < 26 then .ok none
  else do
    let header ← getUint32 bytes 12
    if header ≠ 0x49484452 then .ok none
    else do
      let width ← getUint32 bytes 16
      let height ← getUint32 bytes 20
      .ok (some ⟨width,height⟩)

def probeGif (bytes : Bytes) : Except JsString (Option Dimensions) :=
  if bytes.length < 10 then .ok none
  else do
    let width ← getUint16Little bytes 6
    let height ← getUint16Little bytes 8
    .ok (some ⟨width,height⟩)

def jpegSofMarkers : List UInt8 := [0xC0,0xC1,0xC2,0xC3,0xC5,0xC6,0xC7,0xC8,0xC9,0xCA,0xCB,0xCD,0xCE,0xCF]

def jpegStandaloneMarkers : List UInt8 := [0x01,0xD0,0xD1,0xD2,0xD3,0xD4,0xD5,0xD6,0xD7,0xD8,0xD9]

/- A loop that is still running when its steps are spent. -/
def running : JsString := js "still running"

def probeJpegFrom (bytes : Bytes) : Nat → Nat → Except JsString (Option Dimensions)
  | 0,_ => .error running
  | steps+1,at_ =>
      if at_ + 9 < bytes.length then
        if bytes[at_]? ≠ some 0xFF then .ok none
        else match bytes[at_ + 1]? with
          | none => .error outOfBounds
          | some marker =>
              if jpegStandaloneMarkers.contains marker then probeJpegFrom bytes steps (at_ + 2)
              else do
                let len ← getUint16 bytes (at_ + 2)
                if len < 2 then .ok none
                else if jpegSofMarkers.contains marker then do
                  let height ← getUint16 bytes (at_ + 5)
                  let width ← getUint16 bytes (at_ + 7)
                  .ok (some ⟨width,height⟩)
                else probeJpegFrom bytes steps (at_ + (2 + len))
      else .ok none

def probeJpeg (bytes : Bytes) : Except JsString (Option Dimensions) := probeJpegFrom bytes (bytes.length + 1) 2

/- The dimensions; none where they are unverified. -/
def probeImageDimensions (bytes : Bytes) : Except JsString (Option Dimensions) := do
  let png ← if bytes[0]? = some 0x89 then probePng bytes else .ok none
  if png.isSome then .ok png
  else do
    let gif ← if bytes[0]? = some 0x47 then probeGif bytes else .ok none
    if gif.isSome then .ok gif
    else if bytes[0]? = some 0xFF then probeJpeg bytes else .ok none

def afterFront (front text : JsString) : Option JsString := if front <+: text then some (text.drop front.length) else none

/- `/\/Count\s+(\d{1,7})/` at a place. -/
def countAt (text : JsString) : Option Nat := do
  let rest ← afterFront (js "/Count") text
  let digits := ((rest.dropWhile whiteSpace).takeWhile digit).take 7
  if rest.takeWhile whiteSpace = [] ∨ digits = [] then none else some (decimal digits)

/- How long a match of `/\/Type\s*\/Page[^s]/` is at a place. -/
def pageAt (text : JsString) : Option Nat := do
  let rest ← afterFront (js "/Type") text
  let tail ← afterFront (js "/Page") (rest.dropWhile whiteSpace)
  let next ← tail.head?
  if next = 115 then none else some (11 + (rest.takeWhile whiteSpace).length)

/- The first argument counts what is left of the last match. -/
def countPages : Nat → JsString → Nat
  | _,[] => 0
  | skip+1,_ :: rest => countPages skip rest
  | 0,u :: rest => match pageAt (u :: rest) with
    | some n => countPages (n - 1) rest + 1
    | none => countPages 0 rest

def estimatePdfPages (bytes : Bytes) : Option Nat :=
  let text := (bytes.take 2000000).map UInt8.toUInt16
  match (text.tails.filterMap countAt).max? with
  | some max => some max
  | none => if countPages 0 text = 0 then none else some (countPages 0 text)

def sniffedName (bytes : Bytes) : JsString := match bytes.head? with
  | some 0x89 => js "png"
  | some 0xFF => js "jpeg"
  | some 0x47 => js "gif"
  | some 0x52 => js "webp"
  | some 0x25 => js "pdf"
  | _ => js "unknown"

/- A body: none, read whole, or a stream of chunks that may break off. -/
inductive Body where
  | whole (bytes : Bytes)
  | chunks (parts : List Bytes) (failure : Option JsString)

def readChunks (cap : Nat) (label : JsString) : Bytes → List Bytes → Option JsString → Except JsString Bytes
  | read,[],none => .ok read
  | _,[],some failure => .error failure
  | read,chunk :: rest,failure =>
      if cap < read.length + chunk.length then .error (label ++ js " exceeds maximum of " ++ js (toString cap) ++ js " bytes")
      else readChunks cap label (read ++ chunk) rest failure

def readBounded (body : Body) (cap : Nat) (label : JsString) : Except JsString Bytes := match body with
  | .whole bytes =>
      if cap < bytes.length then .error (label ++ js " exceeds maximum of " ++ js (toString cap) ++ js " bytes (got " ++
        js (toString bytes.length) ++ js ")")
      else .ok bytes
  | .chunks parts failure => readChunks cap label [] parts failure

structure AssetResponse where
  status : Nat
  location : Option JsString
  contentLength : Option JsString
  contentType : Option JsString
  body : Body

/- What a hop meets: the answer to its lookup, and the response or why fetch rejects. -/
structure AssetHop where
  lookup : JsString → Lookup
  response : Except JsString AssetResponse

section Acquiring

/- The URL parser, and Number of a header where it is finite, as a whole number. -/
variable (parse : UrlParser) (finiteNumber : JsString → Option Int)

def checkHost (hostname : JsString) (lookup : JsString → Lookup) : Except JsString Unit := do
  assertPublicHostname hostname
  let _ ← resolvePublicHostname hostname lookup

/- Where a redirect goes. -/
def redirected (parsed : Url) (current : JsString) (hop : AssetResponse) (left : Nat) : Except JsString JsString :=
  match hop.location.getD [] with
  | [] => .error (js "asset redirect without location (status " ++ js (toString hop.status) ++ js ")")
  | location =>
      if left = 0 then .error (js "asset redirect limit exceeded")
      else match (parse location (some current)).map fun url => validateHttpUrl parse url.href with
        | some (.ok next) =>
            if parsed.protocol = https ∧ js "http:" <+: next then .error (js "asset redirect downgrades https to http") else .ok next
        | _ => .error (js "asset redirect target is not a public http(s) url")

/- The redirects, with how many may still be followed. -/
def fetchAsset (world : Nat → AssetHop) : Nat → Nat → JsString → Except JsString (AssetResponse × JsString)
  | left,hops,current => match parse current none with
    | none => .error invalidUrl
    | some parsed => match checkHost parsed.hostname (world hops).lookup with
      | .error message => .error (js "blocked asset host: " ++ message)
      | .ok () => match (world hops).response with
        | .error message => .error (js "asset fetch failed: " ++ message)
        | .ok hop =>
            if hop.status < 300 ∨ 400 ≤ hop.status then .ok (hop,current)
            else match redirected parse parsed current hop left,left with
              | .ok next,left+1 => fetchAsset world left (hops + 1) next
              | .ok _,0 => .error (js "asset redirect limit exceeded")
              | .error message,_ => .error message

/- What the probes say of an image: its dimensions, or a warning that there are none. -/
def admitImage (bytes : Bytes) : Except JsString (Option Dimensions × List JsString) := do
  match ← probeImageDimensions bytes with
  | none => .ok (none,[js "image dimensions unverified for this codec; byte ceiling only"])
  | some dims =>
      if dims.width = 0 ∨ dims.height = 0 then .error (js "asset image dimensions unreadable")
      else if imageMaxPixels < dims.width * dims.height then
        .error (js "asset image " ++ js (toString dims.width) ++ js "x" ++ js (toString dims.height) ++ js " exceeds " ++
          js (toString imageMaxPixels) ++ js " pixels")
      else .ok (some dims,[])

def admitPdf (bytes : Bytes) : Except JsString (Option Nat × List JsString) := match estimatePdfPages bytes with
  | none => .ok (none,[js "pdf page count unreadable pre-decode; byte ceiling only"])
  | some pages =>
      if pdfMaxPages < pages then
        .error (js "asset pdf page estimate " ++ js (toString pages) ++ js " exceeds " ++ js (toString pdfMaxPages))
      else .ok (some pages,[])

/- Each only for its kind. -/
def imagePart (kind : AssetKind) (bytes : Bytes) : Except JsString (Option Dimensions × List JsString) :=
  if kind = .image then admitImage bytes else .ok (none,[])

def pdfPart (kind : AssetKind) (bytes : Bytes) : Except JsString (Option Nat × List JsString) :=
  if kind = .pdf then admitPdf bytes else .ok (none,[])

/- The rest of acquireAsset, once a response is no redirect. -/
def receiveAsset (rawUrl current : JsString) (kind : AssetKind) (sourceKind : AssetSourceKind) (response : AssetResponse) :
    Except JsString AcquiredAsset := do
  let cap := maxBytesForKind kind
  if response.status < 200 ∨ 300 ≤ response.status then .error (js "asset fetch status " ++ js (toString response.status))
  else match (response.contentLength.bind finiteNumber).filter fun size => (cap : Int) < size with
    | some size => .error (js "asset announces " ++ js (toString size) ++ js " bytes, over maximum of " ++ js (toString cap))
    | none => do
        let bytes ← readBounded response.body cap (kind.text ++ js " asset")
        if isZipBomb bytes then .error (js "asset is a zip container, not image/pdf/video")
        else match sniffKind bytes response.contentType with
          | none => .error (js "asset magic bytes do not match " ++ kind.text ++ js " (" ++ sniffedName bytes ++ js ", content-type " ++
              response.contentType.getD (js "absent") ++ js ")")
          | some sniffed =>
              if sniffed ≠ kind then .error (js "asset magic bytes say " ++ sniffed.text ++ js ", expected " ++ kind.text)
              else do
                let (dims,imageWarnings) ← imagePart kind bytes
                let (pages,pdfWarnings) ← pdfPart kind bytes
                let videoWarnings :=
                  if kind = .video then [js "video duration/keyframes need container metadata; byte ceiling only"] else []
                .ok ⟨rawUrl,current,kind,response.contentType.getD (js "application/octet-stream"),bytes,
                  ⟨kind,sourceKind,bytes.length,imageWarnings ++ pdfWarnings ++ videoWarnings⟩,dims.map Dimensions.width,
                  dims.map Dimensions.height,pages⟩

def acquireAsset (world : Nat → AssetHop) (rawUrl : JsString) (kind : AssetKind) (maxRedirects : Nat) (sourceKind : AssetSourceKind) :
    Except JsString AcquiredAsset := match validateHttpUrl parse rawUrl with
  | .error message => .error (js "invalid asset url: " ++ message)
  | .ok current => do
      let (response,final) ← fetchAsset parse world maxRedirects 0 current
      receiveAsset finiteNumber rawUrl final kind sourceKind response

end Acquiring

end Northstar.Assets
