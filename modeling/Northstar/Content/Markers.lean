import Northstar.Content.Reading

/-! What a marker may have in it: nothing that ends a scheme, opens or closes an enclosure, but for the quotes
of the segment it stands for. -/
namespace Northstar.Content

/- A unit that closes nothing and ends no scheme. -/
def plainUnit (u : UInt16) : Bool := !([34,39,40,41,58,60,62,96].contains u)

/- A unit of a marker: it may be a quote that the body has. -/
def Harmless (body : JsString) (u : UInt16) : Prop := [40,41,58,60,62].contains u = false ∧ (quoteUnit u = true → u ∈ body)

theorem plainHarmless {u : UInt16} (h : plainUnit u) (body : JsString) : Harmless body u := by
  simp only [plainUnit,List.contains_cons,List.contains_nil,Bool.or_false,Bool.not_eq_true',Bool.or_eq_false_iff,beq_eq_false_iff_ne] at h
  simp only [Harmless,quoteUnit,List.contains_cons,List.contains_nil,Bool.or_false,Bool.or_eq_false_iff,beq_eq_false_iff_ne]
  obtain ⟨double,single,opens,closes,colon,less,greater,tick⟩ := h
  refine ⟨⟨opens,closes,colon,less,greater⟩,fun quote => ?_⟩
  simp [double,single,tick] at quote

theorem digitsPlain (n : Nat) : (js (toString n)).all plainUnit := by
  have unit : ∀ d : Fin 10, plainUnit (UInt16.ofNat (48 + d)) = true := by decide
  refine List.all_eq_true.mpr fun u member => ?_
  obtain ⟨c,inside,here⟩ := List.mem_flatMap.mp member
  have digit : c.isDigit := Nat.isDigit_of_mem_toDigits (by decide) (by decide) (Nat.toList_repr ▸ inside)
  have range : 48 ≤ c.toNat ∧ c.toNat ≤ 57 := by
    simp only [Char.isDigit,Bool.and_eq_true,decide_eq_true_eq,ge_iff_le,UInt32.le_iff_toNat_le] at digit
    exact digit
  rw [utf16Char,if_pos (by omega),List.mem_singleton] at here
  have found := unit ⟨c.toNat - 48,by omega⟩
  rw [Nat.add_sub_cancel' range.1] at found
  exact here ▸ found

theorem hexPlain (sha256 : Bytes → Bytes) (value : Bytes) : (sha256Bytes sha256 value).all plainUnit := by
  have unit : ∀ d : Fin 16, plainUnit (hexUnit d) = true := by decide
  refine List.all_eq_true.mpr fun u member => ?_
  obtain ⟨byte,_,here⟩ := List.mem_flatMap.mp member
  have small := byte.toNat_lt
  rcases List.mem_cons.mp here with rfl | here
  · exact unit ⟨byte.toNat / 16,by omega⟩
  · rw [List.mem_singleton.mp here]
    exact unit ⟨byte.toNat % 16,by omega⟩

theorem sourceUnitPlain {u : UInt16} (h : markerSourceUnit u) : plainUnit u := by
  by_contra unplain
  simp only [plainUnit,Bool.not_eq_true',Bool.not_eq_false,List.contains_iff_mem,List.mem_cons,List.not_mem_nil,or_false] at unplain
  rcases unplain with rfl | rfl | rfl | rfl | rfl | rfl | rfl | rfl <;> exact absurd h (by decide)

theorem mappedPlain {unit : JsString → UInt16} (each : ∀ ch, plainUnit (unit ch)) (source : JsString) :
    ((points source).map unit).all plainUnit := by
  refine List.all_eq_true.mpr fun u member => ?_
  obtain ⟨ch,_,rfl⟩ := List.mem_map.mp member
  exact each ch

theorem sourcePlain (sha256 : Bytes → Bytes) (sourcePath : JsString) : (safeMarkerSource sha256 sourcePath).all plainUnit := by
  unfold safeMarkerSource
  dsimp only
  generalize (if sourcePath = [] then js "value" else sourcePath) = source
  generalize same : (points source).map _ = safe
  have mapped : safe.all plainUnit := by
    rw [← same]
    refine mappedPlain (fun ch => ?_) source
    split
    · split
      · rename_i safe
        exact sourceUnitPlain safe
      · rfl
    · rfl
  split
  · exact mapped
  · refine List.all_eq_true.mpr fun u member => ?_
    rcases List.mem_append.mp member with inside | inside
    · exact List.all_eq_true.mp mapped u (List.mem_of_mem_take inside)
    · rcases List.mem_cons.mp inside with rfl | digest
      · rfl
      · exact List.all_eq_true.mp (hexPlain sha256 _) u (List.mem_of_mem_take digest)

theorem lowerPlain {u : UInt16} (h : u = 47 ∨ isMimeTokenChar u) : [40,41,58,60,62].contains (asciiLowerCode u) = false ∧
    (quoteUnit (asciiLowerCode u) → asciiLowerCode u = u) := by
  unfold asciiLowerCode
  split
  · rename_i capital
    simp only [UInt16.le_iff_toNat_le,UInt16.reduceToNat] at capital
    have lower : (u + 32).toNat = u.toNat + 32 := by rw [UInt16.toNat_add]; simp; omega
    simp only [quoteUnit,List.contains_cons,List.contains_nil,Bool.or_false,Bool.or_eq_false_iff,beq_eq_false_iff_ne,Bool.or_eq_true,
      decide_eq_true_eq,ne_eq,← UInt16.toNat_inj,lower,UInt16.reduceToNat]
    omega
  · refine ⟨Bool.eq_false_iff.mpr fun bad => ?_,fun _ => rfl⟩
    simp only [List.contains_iff_mem,List.mem_cons,List.not_mem_nil,or_false] at bad
    rcases bad with rfl | rfl | rfl | rfl | rfl <;> exact absurd h (by decide)

theorem mimeHarmless (body : JsString) : ∀ u ∈ normalizeMimeType (body.takeWhile (· ≠ 44)), Harmless body u := by
  have fixed : (octetStream.all plainUnit && (js "text/plain").all plainUnit) = true := by decide
  obtain ⟨octet,text⟩ := Bool.and_eq_true_iff.mp fixed
  have known {s : JsString} (plain : s.all plainUnit) : ∀ u ∈ s, Harmless body u :=
    fun u member => plainHarmless (List.all_eq_true.mp plain u member) body
  unfold normalizeMimeType
  dsimp only
  split
  · exact known text
  split
  · exact known octet
  split
  · exact known octet
  split
  · exact known octet
  rename_i tokens
  split
  · exact known octet
  intro u member
  obtain ⟨v,inside,rfl⟩ := List.mem_map.mp member
  rw [Bool.not_eq_true,Bool.not_eq_false'] at tokens
  have token := List.all_eq_true.mp tokens v inside
  obtain ⟨plain,quote⟩ := lowerPlain (by simpa using token)
  refine ⟨plain,fun quoted => ?_⟩
  rw [quote quoted]
  exact (List.takeWhile_prefix _).subset ((List.takeWhile_prefix _).subset inside)

theorem decodeErrors {run rest : JsString} {error : JsString} (failed : decodeRuns run rest = .error error) : error.all plainUnit := by
  have fixed : (js "invalid-percent-escape").all plainUnit = true := by decide
  induction run,rest using decodeRuns.induct generalizing error with
  | case1 run => cases failed
  | case2 run high low rest h l read_high read_low ih =>
    rw [decodeRuns,read_high,read_low] at failed
    cases tail : decodeRuns [] rest with
    | ok bytes => rw [tail] at failed; cases failed
    | error e =>
      rw [tail] at failed
      exact Except.error.inj failed ▸ ih tail
  | case3 run high low rest unread =>
    rw [decodeRuns] at failed
    split at failed
    · rename_i h l read_high read_low
      exact absurd read_low (unread h l read_high)
    · exact Except.error.inj failed ▸ fixed
  | case4 run rest shape =>
    rw [decodeRuns,if_pos rfl] at failed
    · exact Except.error.inj failed ▸ fixed
    · exact shape
  | case5 run ch rest shape escape ih =>
    rw [decodeRuns,if_neg escape] at failed
    · exact ih failed
    · exact shape

theorem paddingErrors {count : Nat} {bytes : Bytes} {error : JsString} (failed : paddingCount count bytes = .error error) :
    error.all plainUnit := by
  have fixed : ((js "non-ascii-base64").all plainUnit && (js "invalid-base64-padding").all plainUnit &&
    (js "invalid-base64-character").all plainUnit) = true := by decide
  simp only [Bool.and_eq_true] at fixed
  obtain ⟨⟨ascii,padding⟩,character⟩ := fixed
  induction bytes generalizing count with
  | nil => cases failed
  | cons byte rest ih =>
    unfold paddingCount at failed
    split at failed
    · exact Except.error.inj failed ▸ ascii
    split at failed
    · exact ih failed
    split at failed
    · exact Except.error.inj failed ▸ padding
    split at failed
    · exact Except.error.inj failed ▸ character
    · exact ih failed

theorem base64Errors {payload error : JsString} (failed : decodeBase64Payload payload = .error error) : error.all plainUnit := by
  have fixed : ((js "invalid-base64-padding").all plainUnit && (js "invalid-base64-length").all plainUnit) = true := by decide
  obtain ⟨padding,length⟩ := Bool.and_eq_true_iff.mp fixed
  unfold decodeBase64Payload at failed
  cases decoded : decodePercentEncoded payload with
  | error e =>
    rw [decoded] at failed
    exact Except.error.inj failed ▸ decodeErrors decoded
  | ok encoded =>
    rw [decoded] at failed
    cases counted : paddingCount 0 encoded with
    | error e =>
      replace failed : paddingCount 0 encoded >>= _ = .error error := failed
      rw [counted] at failed
      exact Except.error.inj failed ▸ paddingErrors counted
    | ok count =>
      replace failed : paddingCount 0 encoded >>= _ = .error error := failed
      rw [counted] at failed
      simp only [bind,Except.bind] at failed
      split at failed
      · exact Except.error.inj failed ▸ padding
      split at failed
      · exact Except.error.inj failed ▸ padding
      split at failed
      · exact Except.error.inj failed ▸ length
      split at failed
      · exact Except.error.inj failed ▸ padding
      split at failed
      · exact Except.error.inj failed ▸ padding
      · cases failed

/- The texts that go into a marker. -/
structure Quiet (body : JsString) (omission : DataUriOmission) : Prop where
  source : omission.sourcePath.all plainUnit
  mime : ∀ u ∈ omission.mimeType, Harmless body u
  error : ∀ e, omission.decodeError = some e → e.all plainUnit
  digest : omission.sha256.all plainUnit

theorem omissionQuiet (sha256 : Bytes → Bytes) (sourcePath : JsString) (n : Nat) (body : JsString) :
    Quiet body (omissionOf sha256 sourcePath n body) := by
  have fixed : ((js "missing-comma").all plainUnit && (js "header-too-long").all plainUnit) = true := by decide
  obtain ⟨comma,long⟩ := Bool.and_eq_true_iff.mp fixed
  have quiet (bytes decoded encoding) (error : Option JsString) (value : Bytes) (basis) (known : ∀ e, error = some e → e.all plainUnit) :
      Quiet body ⟨n,safeMarkerSource sha256 sourcePath,normalizeMimeType (body.takeWhile (· ≠ 44)),encoding,bytes,decoded,error,
        sha256Bytes sha256 value,basis⟩ :=
    ⟨sourcePlain sha256 sourcePath,mimeHarmless body,known,hexPlain sha256 value⟩
  unfold omissionOf
  dsimp only
  split
  · exact quiet _ _ _ _ _ _ fun e same => Option.some.inj same ▸ comma
  split
  · exact quiet _ _ _ _ _ _ fun e same => Option.some.inj same ▸ long
  split
  · rename_i error failed
    refine quiet _ _ _ _ _ _ fun e same => Option.some.inj same ▸ ?_
    split at failed
    · exact base64Errors failed
    · exact decodeErrors failed
  · exact quiet _ _ _ _ _ _ nofun

theorem markerHarmless {body : JsString} {omission : DataUriOmission} (quiet : Quiet body omission) :
    ∀ u ∈ buildDataUriMarker omission, Harmless body u := by
  have plain {s : JsString} (all : s.all plainUnit) : ∀ u ∈ s, Harmless body u :=
    fun u member => plainHarmless (List.all_eq_true.mp all u member) body
  have both {s t : JsString} (left : ∀ u ∈ s, Harmless body u) (right : ∀ u ∈ t, Harmless body u) : ∀ u ∈ s ++ t, Harmless body u :=
    fun u member => (List.mem_append.mp member).elim (left u) (right u)
  have encoding : omission.encoding.text.all plainUnit := by cases omission.encoding <;> decide
  have basis : omission.digestBasis.text.all plainUnit := by cases omission.digestBasis <;> decide
  unfold buildDataUriMarker
  refine both (both (both (both (both (both (both (both (both (both (both (both (both (both (both (both (both ?_ ?_) ?_) ?_) ?_) ?_) ?_) ?_)
    ?_) ?_) ?_) ?_) ?_) ?_) ?_) ?_) ?_) ?_
  · exact plain (by decide)
  · exact plain (digitsPlain _)
  · exact plain (by decide)
  · exact plain quiet.source
  · exact plain (by decide)
  · exact quiet.mime
  · exact plain (by decide)
  · exact plain encoding
  · exact plain (by decide)
  · exact plain (digitsPlain _)
  · exact plain (by decide)
  · refine plain ?_
    cases omission.decodedBytes with
    | none => decide
    | some n => exact digitsPlain n
  · refine plain ?_
    cases given : omission.decodeError with
    | none => rfl
    | some e =>
      rw [List.all_append,quiet.error e given]
      decide
  · exact plain (by decide)
  · exact plain quiet.digest
  · exact plain (by decide)
  · exact plain basis
  · exact plain (by decide)

/- A marker is in square brackets. -/
theorem markerBrackets (omission : DataUriOmission) : ∃ inner, buildDataUriMarker omission = 91 :: (inner ++ [93]) := by
  have opening : js "[pi-northstar inline data URI omitted; ordinal=" = 91 :: js "pi-northstar inline data URI omitted; ordinal=" := by decide
  have closing : js "; retrieval=not-retained]" = js "; retrieval=not-retained" ++ [93] := by decide
  unfold buildDataUriMarker
  rw [opening,closing]
  simp only [List.cons_append,← List.append_assoc]
  exact ⟨_,rfl⟩

/- No scheme begins in a marker. -/
theorem markerFree {body : JsString} {omission : DataUriOmission} (quiet : Quiet body omission) {front s rest : JsString}
    (within : buildDataUriMarker omission = front ++ s) (some_ : s ≠ []) : matchesDataScheme (s ++ rest) = false := by
  refine Bool.eq_false_iff.mpr fun scheme => ?_
  obtain ⟨inner,brackets⟩ := markerBrackets omission
  have last : s.getLast? = some 93 := by
    have whole : (front ++ s).getLast? = some 93 := by
      rw [← within,brackets,← List.cons_append]
      exact List.getLast?_concat
    rwa [List.getLast?_append_of_ne_nil _ some_] at whole
  have colonless : (58 : UInt16) ∉ s := fun member => by
    have harmless := markerHarmless quiet 58 (within ▸ List.mem_append_right _ member)
    exact absurd harmless.1 (by decide)
  obtain ⟨d,a,t,l,tail,same,first,second,third,fourth⟩ := schemeUnits scheme
  rcases s with _ | ⟨s1,_ | ⟨s2,_ | ⟨s3,_ | ⟨s4,_ | ⟨s5,more⟩⟩⟩⟩⟩ <;>
    simp only [List.cons_append,List.nil_append,List.cons.injEq,List.getLast?_cons_cons,List.getLast?_singleton,Option.some.injEq]
      at same last
  · exact some_ rfl
  · rw [← same.1,last] at first
    exact absurd first (by decide)
  · rw [← same.2.1,last] at second
    exact absurd second (by decide)
  · rw [← same.2.2.1,last] at third
    exact absurd third (by decide)
  · rw [← same.2.2.2.1,last] at fourth
    exact absurd fourth (by decide)
  · obtain ⟨_,_,_,_,rfl,_⟩ := same
    exact colonless (by simp)

end Northstar.Content
