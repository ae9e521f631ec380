import Northstar.Assets.Acquire

/-! The pixel ceiling of JPEG images: which layouts of marker segments the probe follows to the frame header. -/
namespace Northstar.Assets
open Network (UrlParser Url demoParser demoUrl validateHttpUrl)

/- A big-endian number that lies within the bytes. -/
def At16 (bytes : Bytes) (offset n : Nat) : Prop := ∃ high low, bytes[offset]? = some high ∧ bytes[offset + 1]? = some low ∧
  n = high.toNat * 256 + low.toNat

/- The marker segments from a place lead to a frame header. With fill bytes, a 0xFF after a 0xFF only fills; without,
it counts as a marker whose length comes next. -/
inductive Leads (fills : Bool) (bytes : Bytes) : Nat → Nat → Prop
  | frame {at_ marker} (starts : bytes[at_]? = some 0xFF) (read : bytes[at_ + 1]? = some marker)
      (frame : marker ∈ jpegSofMarkers) : Leads fills bytes at_ at_
  | fill {at_ frame} (given : fills = true) (starts : bytes[at_]? = some 0xFF) (read : bytes[at_ + 1]? = some 0xFF)
      (tail : Leads fills bytes (at_ + 1) frame) : Leads fills bytes at_ frame
  | standalone {at_ frame marker} (starts : bytes[at_]? = some 0xFF) (read : bytes[at_ + 1]? = some marker)
      (alone : marker ∈ jpegStandaloneMarkers) (tail : Leads fills bytes (at_ + 2) frame) : Leads fills bytes at_ frame
  | segment {at_ frame marker len} (starts : bytes[at_]? = some 0xFF) (read : bytes[at_ + 1]? = some marker)
      (other : marker ∉ jpegStandaloneMarkers ∧ marker ∉ jpegSofMarkers) (unfilled : fills = true → marker ≠ 0xFF)
      (size : At16 bytes (at_ + 2) len) (long : 2 ≤ len) (tail : Leads fills bytes (at_ + (2 + len)) frame) :
      Leads fills bytes at_ frame

/- The dimensions that a frame header declares. -/
structure Declares (bytes : Bytes) (frame : Nat) (dims : Dimensions) : Prop where
  height : At16 bytes (frame + 5) dims.height
  width : At16 bytes (frame + 7) dims.width

/- The frame header is there to its number of components, and its length is one. -/
structure Framed (bytes : Bytes) (frame : Nat) (dims : Dimensions) : Prop extends Declares bytes frame dims where
  whole : frame + 9 < bytes.length
  long : ∃ len, At16 bytes (frame + 2) len ∧ 2 ≤ len

theorem readAt {bytes : Bytes} {offset n : Nat} : getUint16 bytes offset = .ok n ↔ At16 bytes offset n := by
  unfold getUint16 At16
  split
  · rename_i high low first second
    rw [first,second]
    constructor
    · intro same
      exact ⟨high,low,rfl,rfl,(Except.ok.inj same).symm⟩
    · rintro ⟨h,l,one,two,rfl⟩
      cases one
      cases two
      rfl
  · rename_i missing
    refine iff_of_false nofun ?_
    rintro ⟨high,low,first,second,_⟩
    exact missing high low first second

theorem within (bytes : Bytes) (offset : Nat) (inside : offset + 1 < bytes.length) : ∃ n, getUint16 bytes offset = .ok n :=
  ⟨_,readAt.mpr ⟨bytes[offset],bytes[offset + 1],List.getElem?_eq_getElem (by omega),List.getElem?_eq_getElem inside,rfl⟩⟩

theorem leadsForward {fills : Bool} {bytes : Bytes} {at_ frame : Nat} (leads : Leads fills bytes at_ frame) : at_ ≤ frame := by
  induction leads with
  | frame => exact Nat.le_refl _
  | fill _ _ _ _ ih => omega
  | standalone _ _ _ _ ih => omega
  | segment _ _ _ _ _ _ _ ih => omega

/- Every run of the probe ends with a result. -/
theorem probeEnds (bytes : Bytes) (steps at_ : Nat) (enough : bytes.length < steps + at_) (some_ : 0 < steps) :
    ∃ result, probeJpegFrom bytes steps at_ = .ok result := by
  induction steps generalizing at_ with
  | zero => cases some_
  | succ steps ih =>
    unfold probeJpegFrom
    split
    · rename_i inside
      split
      · exact ⟨_,rfl⟩
      · rw [List.getElem?_eq_getElem (show at_ + 1 < bytes.length by omega)]
        dsimp only
        split
        · exact ih _ (by omega) (by omega)
        · obtain ⟨len,read⟩ := within bytes (at_ + 2) (by omega)
          rw [read]
          simp only [bind,Except.bind]
          split
          · exact ⟨_,rfl⟩
          · split
            · obtain ⟨height,readHeight⟩ := within bytes (at_ + 5) (by omega)
              obtain ⟨width,readWidth⟩ := within bytes (at_ + 7) (by omega)
              rw [readHeight,readWidth]
              exact ⟨_,rfl⟩
            · exact ih _ (by omega) (by omega)
    · exact ⟨_,rfl⟩

theorem probeFound {bytes : Bytes} {steps at_ : Nat} {dims : Dimensions} (found : probeJpegFrom bytes steps at_ = .ok (some dims)) :
    ∃ frame, Leads false bytes at_ frame ∧ Framed bytes frame dims := by
  induction steps generalizing at_ with
  | zero => cases found
  | succ steps ih =>
    unfold probeJpegFrom at found
    split at found
    · rename_i inside
      split at found
      · cases found
      · rename_i starts
        have starts := not_not.mp starts
        split at found
        · cases found
        · rename_i marker read
          split at found
          · rename_i alone
            obtain ⟨frame,leads,framed⟩ := ih found
            exact ⟨frame,.standalone starts read (List.contains_iff_mem.mp alone) leads,framed⟩
          · rename_i other
            obtain ⟨len,size⟩ := within bytes (at_ + 2) (by omega)
            obtain ⟨height,readHeight⟩ := within bytes (at_ + 5) (by omega)
            obtain ⟨width,readWidth⟩ := within bytes (at_ + 7) (by omega)
            simp only [size,readHeight,readWidth,bind,Except.bind] at found
            split at found
            · cases found
            · rename_i long
              have long := Nat.le_of_not_lt long
              split at found
              · rename_i sof
                cases found
                exact ⟨at_,.frame starts read (List.contains_iff_mem.mp sof),⟨readAt.mp readHeight,readAt.mp readWidth⟩,inside,
                  len,readAt.mp size,long⟩
              · rename_i sof
                obtain ⟨frame,leads,framed⟩ := ih found
                exact ⟨frame,.segment starts read ⟨fun member => other (List.contains_iff_mem.mpr member),
                  fun member => sof (List.contains_iff_mem.mpr member)⟩ nofun (readAt.mp size) long leads,framed⟩
    · cases found

theorem frameProbed {bytes : Bytes} {at_ frame : Nat} {dims : Dimensions} (leads : Leads false bytes at_ frame)
    (framed : Framed bytes frame dims) {steps : Nat} (enough : bytes.length < steps + at_) :
    probeJpegFrom bytes steps at_ = .ok (some dims) := by
  have inside := framed.whole
  induction leads generalizing steps with
  | @frame at_ marker starts read sof =>
    obtain ⟨steps,rfl⟩ : ∃ more, steps = more + 1 := ⟨steps - 1,by omega⟩
    obtain ⟨len,size,long⟩ := framed.long
    have other : ¬jpegStandaloneMarkers.contains marker := by
      have apart : jpegSofMarkers.all (fun marker => !jpegStandaloneMarkers.contains marker) = true := by decide
      simpa using List.all_eq_true.mp apart marker sof
    rw [probeJpegFrom,if_pos inside,if_neg (not_not.mpr starts),read]
    dsimp only
    rw [if_neg other,readAt.mpr size]
    simp only [bind,Except.bind]
    rw [if_neg (Nat.not_lt.mpr long),if_pos (List.contains_iff_mem.mpr sof),readAt.mpr framed.height,readAt.mpr framed.width]
  | fill given => cases given
  | @standalone at_ frame marker starts read alone tail ih =>
    have forward := leadsForward tail
    obtain ⟨steps,rfl⟩ : ∃ more, steps = more + 1 := ⟨steps - 1,by omega⟩
    rw [probeJpegFrom,if_pos (by omega),if_neg (not_not.mpr starts),read]
    dsimp only
    rw [if_pos (List.contains_iff_mem.mpr alone)]
    exact ih framed (by omega) inside
  | @segment at_ frame marker len starts read other _ size long tail ih =>
    have forward := leadsForward tail
    obtain ⟨steps,rfl⟩ : ∃ more, steps = more + 1 := ⟨steps - 1,by omega⟩
    rw [probeJpegFrom,if_pos (by omega),if_neg (not_not.mpr starts),read]
    dsimp only
    rw [if_neg fun member => other.1 (List.contains_iff_mem.mp member),readAt.mpr size]
    simp only [bind,Except.bind]
    rw [if_neg (Nat.not_lt.mpr long),if_neg fun member => other.2 (List.contains_iff_mem.mp member)]
    exact ih framed (by omega) inside

theorem probeExact {bytes : Bytes} {dims : Dimensions} :
    probeJpeg bytes = .ok (some dims) ↔ ∃ frame, Leads false bytes 2 frame ∧ Framed bytes frame dims :=
  ⟨probeFound,fun ⟨_,leads,framed⟩ => frameProbed leads framed (by omega)⟩

/- The bytes start as a JPEG. -/
def StartsJpeg (bytes : Bytes) : Prop := [0xFF,0xD8,0xFF] <+: bytes

theorem jpegProbed {bytes : Bytes} (jpeg : StartsJpeg bytes) : probeImageDimensions bytes = probeJpeg bytes := by
  obtain ⟨rest,rfl⟩ := jpeg
  rfl

theorem jpegSniffed {bytes : Bytes} (jpeg : StartsJpeg bytes) (announced : Option JsString) : sniffKind bytes announced = some .image := by
  obtain ⟨rest,rfl⟩ := jpeg
  have other : ¬[0x89,0x50,0x4E,0x47] <+: [0xFF,0xD8,0xFF] ++ rest := by
    rintro ⟨more,same⟩
    exact absurd (List.cons.inj same).1 (by decide)
  rw [sniffKind,if_neg other,if_pos (List.prefix_append _ _)]

/- No run of acquireAsset returns the bytes. -/
def Rejected (bytes : Bytes) : Prop := ∀ parse finiteNumber world rawUrl kind maxRedirects sourceKind asset,
  acquireAsset parse finiteNumber world rawUrl kind maxRedirects sourceKind = .ok asset → asset.bytes ≠ bytes

/- Dimensions that the ceiling refuses. -/
def Refused (dims : Dimensions) : Prop := dims.width = 0 ∨ dims.height = 0 ∨ imageMaxPixels < dims.width * dims.height

theorem admitted {bytes : Bytes} : (∃ admission, admitImage bytes = .ok admission) ↔
    ∃ probed, probeImageDimensions bytes = .ok probed ∧ ∀ dims, probed = some dims → ¬Refused dims := by
  unfold admitImage
  cases probeImageDimensions bytes with
  | error message => exact iff_of_false nofun nofun
  | ok probed =>
    simp only [bind,Except.bind,Except.ok.injEq,exists_eq_left']
    cases probed with
    | none => exact iff_of_true ⟨_,rfl⟩ nofun
    | some dims =>
      simp only [Option.some.injEq,forall_eq']
      unfold Refused
      by_cases empty : dims.width = 0 ∨ dims.height = 0
      · rw [if_pos empty]
        exact iff_of_false nofun fun fine => fine (empty.imp_right .inl)
      · rw [if_neg empty]
        by_cases large : imageMaxPixels < dims.width * dims.height
        · rw [if_pos large]
          exact iff_of_false nofun fun fine => fine (.inr (.inr large))
        · rw [if_neg large]
          exact iff_of_true ⟨_,rfl⟩ fun bad => bad.elim (fun zero => empty (.inl zero)) fun bad =>
            bad.elim (fun zero => empty (.inr zero)) large

theorem readLimited {cap : Nat} {label read bytes} {parts : List Bytes} {failure : Option JsString}
    (done : readChunks cap label read parts failure = .ok bytes) (small : read.length ≤ cap) : bytes.length ≤ cap := by
  induction parts generalizing read with
  | nil =>
    cases failure with
    | none => exact Except.ok.inj done ▸ small
    | some message => cases done
  | cons chunk rest ih =>
    rw [readChunks] at done
    split at done
    · cases done
    · rename_i fits
      exact ih done (by rw [List.length_append]; omega)

theorem bodyLimited {body : Body} {cap : Nat} {label : JsString} {bytes : Bytes} (done : readBounded body cap label = .ok bytes) :
    bytes.length ≤ cap := by
  cases body with
  | whole all =>
    rw [readBounded] at done
    split at done
    · cases done
    · rename_i fits
      exact Except.ok.inj done ▸ Nat.le_of_not_lt fits
  | chunks parts failure => exact readLimited done (Nat.zero_le _)

/- What an asset that is received has passed. -/
structure Received (bytes : Bytes) (kind : AssetKind) (response : AssetResponse) : Prop where
  read : ∃ label, readBounded response.body (maxBytesForKind kind) label = .ok bytes
  sniffed : sniffKind bytes response.contentType = some kind
  image : kind = .image → ∃ admission, admitImage bytes = .ok admission

theorem receivedAsset {finiteNumber : JsString → Option Int} {rawUrl current : JsString} {kind : AssetKind} {sourceKind : AssetSourceKind}
    {response : AssetResponse} {asset : AcquiredAsset}
    (done : receiveAsset finiteNumber rawUrl current kind sourceKind response = .ok asset) : Received asset.bytes kind response := by
  unfold receiveAsset at done
  dsimp only at done
  split at done
  · cases done
  split at done
  · cases done
  cases read : readBounded response.body (maxBytesForKind kind) (kind.text ++ js " asset") with
  | error message => rw [read] at done; cases done
  | ok bytes =>
    rw [read] at done
    simp only [bind,Except.bind] at done
    split at done
    · cases done
    split at done
    · cases done
    rename_i sniffed found
    split at done
    · cases done
    rename_i same
    obtain rfl := not_not.mp same
    cases image : imagePart sniffed bytes with
    | error message => rw [image] at done; cases done
    | ok admission =>
      rw [image] at done
      cases pdf : pdfPart sniffed bytes with
      | error message => rw [pdf] at done; cases done
      | ok pages =>
        rw [pdf] at done
        cases done
        refine ⟨⟨_,read⟩,found,fun picture => ⟨admission,?_⟩⟩
        rwa [imagePart,if_pos picture] at image

theorem acquiredResponse {parse : UrlParser} {finiteNumber : JsString → Option Int} {world : Nat → AssetHop} {rawUrl : JsString}
    {kind : AssetKind} {maxRedirects : Nat} {sourceKind : AssetSourceKind} {asset : AcquiredAsset}
    (done : acquireAsset parse finiteNumber world rawUrl kind maxRedirects sourceKind = .ok asset) :
    ∃ response, Received asset.bytes kind response := by
  unfold acquireAsset at done
  split at done
  · cases done
  · rename_i current _
    cases fetched : fetchAsset parse world maxRedirects 0 current with
    | error message => rw [fetched] at done; cases done
    | ok answer =>
      rw [fetched] at done
      exact ⟨answer.1,receivedAsset done⟩

theorem fetchedDirect {parse : UrlParser} (world : Nat → AssetHop) {current : JsString} {url : Url} {response : AssetResponse}
    (parsed : parse current none = some url) (host : checkHost url.hostname (world 0).lookup = .ok ())
    (answered : (world 0).response = .ok response) (direct : response.status < 300) :
    fetchAsset parse world 0 0 current = .ok (response,current) := by
  unfold fetchAsset
  simp only [parsed,host,answered,direct,true_or,if_true]

/- A server that answers with the bytes at once. -/
def served (bytes : Bytes) : AssetResponse := ⟨200,none,none,none,.chunks [bytes] none⟩

def serving (bytes : Bytes) : Nat → AssetHop := fun _ => ⟨fun _ => .answered [js "93.184.216.34"],.ok (served bytes)⟩

theorem servedRead {bytes : Bytes} (cap : Nat) (small : bytes.length ≤ cap) (label : JsString) :
    readBounded (served bytes).body cap label = .ok bytes := by
  change readChunks cap label [] [bytes] none = .ok bytes
  rw [readChunks,List.length_nil,Nat.zero_add,if_neg (Nat.not_lt.mpr small)]
  rfl

theorem servedAsset {bytes : Bytes} (jpeg : StartsJpeg bytes) (small : bytes.length ≤ imageMaxBytes)
    (fine : ∃ admission, admitImage bytes = .ok admission) : ¬Rejected bytes := by
  intro rejected
  obtain ⟨⟨dims,warnings⟩,image⟩ := fine
  have valid : validateHttpUrl demoParser demoUrl.href = .ok demoUrl.href := by decide
  have parsed : demoParser demoUrl.href none = some demoUrl := by decide
  have host : checkHost demoUrl.hostname (fun _ => .answered [js "93.184.216.34"]) = .ok () := by decide
  have direct : (served bytes).status < 300 := show 200 < 300 by decide
  have fetched := fetchedDirect (serving bytes) parsed host rfl direct
  have archive : isZipBomb bytes = false := by
    obtain ⟨rest,rfl⟩ := jpeg
    rw [isZipBomb]
    have other : ([0x50,0x4B] : Bytes).isPrefixOf ([0xFF,0xD8,0xFF] ++ rest) = false := rfl
    rw [other,Bool.and_false,Bool.false_and]
  have received : ∃ asset, receiveAsset (fun _ => none) demoUrl.href demoUrl.href .image .extracted (served bytes) = .ok asset ∧
      asset.bytes = bytes := by
    have status : ¬((served bytes).status < 200 ∨ 300 ≤ (served bytes).status) := show ¬(200 < 200 ∨ 300 ≤ 200) by decide
    have none_ : (served bytes).contentLength = none := rfl
    have read := servedRead (maxBytesForKind .image) small (AssetKind.text .image ++ js " asset")
    unfold receiveAsset
    rw [if_neg status,none_,read]
    simp only [Option.bind_none,Option.filter_none,bind,Except.bind,archive,Bool.false_eq_true,if_false,jpegSniffed jpeg,ne_eq,
      not_true_eq_false,imagePart,if_true,image,pdfPart,reduceCtorEq]
    exact ⟨_,rfl,rfl⟩
  obtain ⟨asset,done,same⟩ := received
  refine rejected demoParser (fun _ => none) (serving bytes) demoUrl.href .image 0 .extracted asset ?_ same
  unfold acquireAsset
  rw [valid]
  dsimp only
  rw [fetched]
  exact done

theorem rejectedExact {bytes : Bytes} (jpeg : StartsJpeg bytes) : Rejected bytes ↔ imageMaxBytes < bytes.length ∨
    ∃ frame dims, Leads false bytes 2 frame ∧ Framed bytes frame dims ∧ Refused dims := by
  constructor
  · intro rejected
    by_contra neither
    obtain ⟨small,none_⟩ := not_or.mp neither
    refine servedAsset jpeg (Nat.le_of_not_lt small) (admitted.mpr ?_) rejected
    obtain ⟨probed,done⟩ := probeEnds bytes (bytes.length + 1) 2 (by omega) (by omega)
    refine ⟨probed,(jpegProbed jpeg).trans done,fun dims same refused => none_ ?_⟩
    obtain ⟨frame,leads,framed⟩ := probeFound (same ▸ done)
    exact ⟨frame,dims,leads,framed,refused⟩
  · rintro failing parse finiteNumber world rawUrl kind maxRedirects sourceKind asset done rfl
    obtain ⟨response,received⟩ := acquiredResponse done
    obtain rfl : AssetKind.image = kind := Option.some.inj ((jpegSniffed jpeg _).symm.trans received.sniffed)
    obtain ⟨label,read⟩ := received.read
    rcases failing with large | ⟨frame,dims,leads,framed,refused⟩
    · exact absurd (bodyLimited read) (Nat.not_le.mpr large)
    · obtain ⟨probed,done,fine⟩ := admitted.mp (received.image rfl)
      have found : probed = some dims := Except.ok.inj (done.symm.trans ((jpegProbed jpeg).trans (probeExact.mpr ⟨frame,leads,framed⟩)))
      exact fine dims found refused

/-- The probe ends for any bytes, within them. A JPEG whose segments, fill bytes included, lead to a frame header over the
pixel ceiling is rejected just when it is over the byte ceiling, or its segments lead to a refused frame header also when
each 0xFF after a marker's own 0xFF is read as a marker with a length. -/
theorem jpegCeiling (bytes : Bytes) : (∃ result, probeJpeg bytes = .ok result) ∧ ∀ frame dims, StartsJpeg bytes →
    Leads true bytes 2 frame → Declares bytes frame dims → imageMaxPixels < dims.width * dims.height →
    (Rejected bytes ↔ imageMaxBytes < bytes.length ∨
      ∃ frame dims, Leads false bytes 2 frame ∧ Framed bytes frame dims ∧ Refused dims) := by
  constructor
  · exact probeEnds bytes (bytes.length + 1) 2 (by omega) (by omega)
  · intro frame dims jpeg _ _ _
    exact rejectedExact jpeg

/- A frame header of 8000 by 6000 pixels, at once and after one fill byte. -/
def largeFrame : Bytes := [0xFF,0xC0,0,17,8,0x17,0x70,0x1F,0x40,3,1,0x22,0]
def largeJpeg : Bytes := [0xFF,0xD8] ++ largeFrame
def filledJpeg : Bytes := [0xFF,0xD8,0xFF] ++ largeFrame

theorem largeDeclared : Declares largeJpeg 2 ⟨8000,6000⟩ where
  height := ⟨0x17,0x70,rfl,rfl,rfl⟩
  width := ⟨0x1F,0x40,rfl,rfl,rfl⟩

theorem largeRejected : Rejected largeJpeg := by
  have leads : ∀ fills, Leads fills largeJpeg 2 2 := fun fills => .frame rfl rfl (by decide)
  have over_ : imageMaxPixels < 8000 * 6000 := by decide
  have framed : Framed largeJpeg 2 ⟨8000,6000⟩ := ⟨largeDeclared,by decide,17,⟨0,17,rfl,rfl,rfl⟩,by decide⟩
  exact ((jpegCeiling largeJpeg).2 2 ⟨8000,6000⟩ ⟨_,rfl⟩ (leads true) largeDeclared over_).mpr
    (.inr ⟨2,⟨8000,6000⟩,leads false,framed,.inr (.inr over_)⟩)

theorem filledAdmitted : ∃ frame dims, StartsJpeg filledJpeg ∧ Leads true filledJpeg 2 frame ∧ Declares filledJpeg frame dims ∧
    imageMaxPixels < dims.width * dims.height ∧ ¬Rejected filledJpeg := by
  have declared : Declares filledJpeg 3 ⟨8000,6000⟩ := ⟨⟨0x17,0x70,rfl,rfl,rfl⟩,⟨0x1F,0x40,rfl,rfl,rfl⟩⟩
  have jpeg : StartsJpeg filledJpeg := ⟨_,rfl⟩
  have lost : probeImageDimensions filledJpeg = .ok none := by decide
  refine ⟨3,⟨8000,6000⟩,jpeg,.fill rfl rfl rfl (.frame rfl rfl (by decide)),declared,by decide,?_⟩
  exact servedAsset jpeg (by decide) (admitted.mpr ⟨none,lost,nofun⟩)

end Northstar.Assets
