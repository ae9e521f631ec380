import Northstar.Content.Sanitizing

/-! A second pass of the sanitiser: it finds nothing unless a parenthesis before a kept label closes once the
payloads are gone. -/
namespace Northstar.Content
open Rewriting

theorem openerParen {u : Option UInt16} : openerEnclosure u = some .parentheses ↔ u = some 40 := by
  unfold openerEnclosure
  split
  · exact iff_of_true rfl rfl
  · exact iff_of_false nofun (by decide)
  · rename_i neither _
    exact iff_of_false nofun neither

theorem quoteHead {u : UInt16} (quote : quoteUnit u) (earlier : JsString) : ((u :: earlier).dropWhile blank).head? = some u := by
  simp only [quoteUnit,Bool.or_eq_true,decide_eq_true_eq] at quote
  rcases quote with (rfl | rfl) | rfl <;> rfl

theorem quoteOpener {u : UInt16} (quote : quoteUnit u) : openerEnclosure (some u) = none := by
  simp only [quoteUnit,Bool.or_eq_true,decide_eq_true_eq] at quote
  rcases quote with (rfl | rfl) | rfl <;> rfl

theorem parenEnclosure {before : JsString} : dataUriEnclosure before = some .parentheses ↔ (before.dropWhile blank).head? = some 40 := by
  cases before with
  | nil => exact iff_of_false nofun nofun
  | cons immediate earlier =>
    rw [dataUriEnclosure,← openerParen]
    split
    · rename_i opening
      have quote := (Bool.and_eq_true_iff.mp opening).1
      rw [quoteHead quote,quoteOpener quote]
      exact iff_of_false nofun nofun
    · exact Iff.rfl

/- The units before a place in the output tell whether a parenthesis stands there. -/
def OpensParenthesis (near : JsString) : Prop := (near.dropWhile blank).head? = some 40

theorem dropBlanks (near far : JsString) : near.dropWhile blank = [] ∧ (near ++ far).dropWhile blank = far.dropWhile blank ∨
    near.dropWhile blank ≠ [] ∧ ((near ++ far).dropWhile blank).head? = (near.dropWhile blank).head? := by
  rw [List.dropWhile_append]
  cases dropped : near.dropWhile blank with
  | nil => exact .inl ⟨rfl,rfl⟩
  | cons u more => exact .inr ⟨List.cons_ne_nil _ _,rfl⟩

theorem parenFacing {near earlier before' rest : JsString} (facing : Facing near earlier before' rest) :
    (before'.dropWhile blank).head? = some 40 ↔ OpensParenthesis near := by
  cases facing with
  | first => exact Iff.rfl
  | after far out =>
    unfold OpensParenthesis
    rcases dropBlanks near (93 :: out) with ⟨none_,same⟩ | ⟨_,same⟩
    · rw [same,none_]
      exact iff_of_false nofun nofun
    · rw [same]

/- Behind a marker nothing opens; otherwise the output opens what the text did. -/
theorem enclosureFacing {near earlier before' rest : JsString} (facing : Facing near earlier before' rest) :
    dataUriEnclosure before' = none ∨ dataUriEnclosure before' = dataUriEnclosure earlier := by
  cases facing with
  | first => exact .inr rfl
  | after far out =>
    cases near with
    | nil => exact .inl rfl
    | cons u near =>
      have opener : openerEnclosure ((u :: near ++ 93 :: out).dropWhile blank).head? = none ∨
          openerEnclosure ((u :: near ++ 93 :: out).dropWhile blank).head? = openerEnclosure ((u :: near ++ far).dropWhile blank).head? := by
        rcases dropBlanks (u :: near) (93 :: out) with ⟨_,same⟩ | ⟨some_,same⟩
        · rw [same]
          exact .inl rfl
        · rcases dropBlanks (u :: near) far with ⟨none_,_⟩ | ⟨_,same'⟩
          · exact absurd none_ some_
          · rw [same,same']
            exact .inr rfl
      simp only [List.cons_append,dataUriEnclosure] at opener ⊢
      cases quoted : quoteUnit u with
      | false => simpa only [Bool.false_and,Bool.false_eq_true,if_false] using opener
      | true =>
        cases near with
        | nil =>
          have unlikely : likelyOpeningQuote (93 :: out) = false := rfl
          simp only [List.nil_append,unlikely,Bool.and_false,Bool.false_eq_true,if_false]
          rw [quoteHead quoted,quoteOpener quoted]
          exact .inl rfl
        | cons v near =>
          have likely : likelyOpeningQuote (v :: near ++ 93 :: out) = likelyOpeningQuote (v :: near ++ far) := rfl
          rw [likely]
          split
          · exact .inr rfl
          · exact opener

/- Only parentheses are counted, and markers have none. -/
theorem parenPlain {plain rest : JsString} {depth : Nat} (none_ : ∀ u ∈ plain, u ≠ 40 ∧ u ≠ 41) :
    (scanEnclosedCandidate .parentheses depth (plain ++ rest)).isSome = (scanEnclosedCandidate .parentheses depth rest).isSome := by
  induction plain with
  | nil => rfl
  | cons u plain ih =>
    obtain ⟨first,others⟩ := List.forall_mem_cons.mp none_
    rw [List.cons_append,scanEnclosedCandidate]
    simp only [first.1,first.2,if_false,Option.isSome_map]
    exact ih others

theorem parenRendered (sha256 : Bytes → Bytes) (sourcePath : JsString) (k : Nat) {depth : Nat} (parts : List (Piece UInt16)) :
    (scanEnclosedCandidate .parentheses depth (rendered (markerAt sha256 sourcePath) k parts)).isSome =
      (scanEnclosedCandidate .parentheses depth (keptText parts)).isSome := by
  induction parts generalizing k depth with
  | nil => rfl
  | cons part parts ih =>
    cases part with
    | omitted segment =>
      rw [rendered,parenPlain fun u member => ?_]
      · exact ih (k + 1)
      · have harmless := markerHarmless (omissionQuiet sha256 sourcePath k (segment.drop 5)) u member
        constructor <;> rintro rfl <;> exact absurd harmless.1 (by decide)
    | kept u =>
      have kept : keptText (.kept u :: parts) = u :: keptText parts := rfl
      rw [rendered,kept,scanEnclosedCandidate,scanEnclosedCandidate]
      split
      · rw [Option.isSome_map,Option.isSome_map,ih]
      split
      · split
        · rfl
        · rw [Option.isSome_map,Option.isSome_map,ih]
      · rw [Option.isSome_map,Option.isSome_map,ih]

/- The other enclosures close at their first closing unit. -/
theorem closesAtUnit {enclosure : DataUriEnclosure} (other : enclosure ≠ .parentheses) {depth : Nat} {rest : JsString} :
    scanEnclosedCandidate enclosure depth rest = none ↔ closer enclosure ∉ rest := by
  induction rest with
  | nil => exact iff_of_true (by cases enclosure <;> rfl) List.not_mem_nil
  | cons ch rest ih =>
    rw [List.mem_cons,not_or,← ih]
    cases enclosure with
    | parentheses => exact absurd rfl other
    | quote close =>
      rw [scanEnclosedCandidate]
      dsimp only [closer]
      split
      · rename_i same
        exact iff_of_false (by rintro ⟨⟩) fun both => both.1 same.symm
      · rename_i apart
        rw [Option.map_eq_none_iff]
        exact (and_iff_right fun same => apart same.symm).symm
    | angle =>
      rw [scanEnclosedCandidate]
      dsimp only [closer]
      split
      · rename_i same
        exact iff_of_false (by rintro ⟨⟩) fun both => both.1 same.symm
      · rename_i apart
        rw [Option.map_eq_none_iff]
        exact (and_iff_right fun same => apart same.symm).symm

theorem closerRendered {sha256 : Bytes → Bytes} {sourcePath : JsString} {k : Nat} {before rest : JsString} {parts : List (Piece UInt16)}
    (reading : Reading inlineAt before rest parts) {c : UInt16} (closing : quoteUnit c ∨ c = 62)
    (inside : c ∈ rendered (markerAt sha256 sourcePath) k parts) : c ∈ rest := by
  induction reading generalizing k with
  | done => exact inside
  | keep _ _ ih =>
    rcases List.mem_cons.mp inside with rfl | later
    · exact List.mem_cons_self
    · exact List.mem_cons_of_mem _ (ih later)
  | @leave before segment rest parts _ _ _ ih =>
    rcases List.mem_append.mp inside with here | later
    · have harmless := markerHarmless (omissionQuiet sha256 sourcePath k (segment.drop 5)) c here
      rcases closing with quote | rfl
      · exact List.mem_append_left _ (List.mem_of_mem_drop (harmless.2 quote))
      · exact absurd harmless.1 (by decide)
    · exact List.mem_append_right _ (ih later)

theorem unclosedRendered (sha256 : Bytes → Bytes) (sourcePath : JsString) (k : Nat) {before rest : JsString} {parts : List (Piece UInt16)}
    (reading : Reading inlineAt before rest parts) {earlier : JsString} {enclosure : DataUriEnclosure}
    (opened : dataUriEnclosure earlier = some enclosure) (other : enclosure ≠ .parentheses) {depth : Nat}
    (unclosed : scanEnclosedCandidate enclosure depth rest = none) :
    scanEnclosedCandidate enclosure depth (rendered (markerAt sha256 sourcePath) k parts) = none := by
  refine (closesAtUnit other).mpr fun inside => (closesAtUnit other).mp unclosed (closerRendered reading ?_ inside)
  cases enclosure with
  | quote close => exact .inl (quoteKind opened)
  | parentheses => exact absurd rfl other
  | angle => exact .inr rfl

/- A kept label after a parenthesis that closes once the segments are left out. -/
def Reopens (parts : List (Piece UInt16)) : Prop := ∃ done label tail, parts = done ++ (label.map .kept ++ tail) ∧ label.length = 5 ∧
  matchesDataScheme label = true ∧ OpensParenthesis (nearAfter [] done) ∧
  (scanEnclosedCandidate .parentheses 1 (keptText tail)).isSome = true

/- A label's place in the output is taken for an inline URI only if its parenthesis closes there. -/
theorem labelOutput {sha256 : Bytes → Bytes} {sourcePath : JsString} {k : Nat} {near earlier before' label rest : JsString}
    {tail : List (Piece UInt16)} (kept : KeptLabel earlier label rest) (facing : Facing near earlier before' (label ++ rest))
    (reading : Reading inlineAt (label.reverse ++ earlier) rest tail)
    (found : inlineAt before' (label ++ rendered (markerAt sha256 sourcePath) k tail) ≠ none) :
    OpensParenthesis near ∧ (scanEnclosedCandidate .parentheses 1 (keptText tail)).isSome = true := by
  obtain ⟨n,found⟩ := Option.ne_none_iff_exists'.mp found
  obtain ⟨_,_,inline,_⟩ := inlineFound found
  have after : (label ++ rendered (markerAt sha256 sourcePath) k tail).drop 5 = rendered (markerAt sha256 sourcePath) k tail :=
    List.drop_left' kept.size
  have bare : scanBareCandidate (rendered (markerAt sha256 sourcePath) k tail) = [] := by
    cases out : rendered (markerAt sha256 sourcePath) k tail with
    | nil => rfl
    | cons u more => rw [scanBareCandidate,List.takeWhile_cons,labelFollowed reading kept.bare out]; rfl
  have enclosed : ∃ enclosure body, dataUriEnclosure before' = some enclosure ∧
      scanEnclosedCandidate enclosure (startDepth enclosure) (rendered (markerAt sha256 sourcePath) k tail) = some body := by
    by_contra none_
    refine inline ?_
    unfold scanDataUriCandidate
    rw [after]
    dsimp only
    split
    · rename_i enclosure opened
      split
      · rename_i body closed
        exact absurd ⟨enclosure,body,opened,closed⟩ none_
      · rw [bare]
        exact ⟨rfl,rfl,rfl⟩
    · rw [bare]
      exact ⟨rfl,rfl,rfl⟩
  obtain ⟨enclosure,body,opened,closed⟩ := enclosed
  have earlierOpened : dataUriEnclosure earlier = some enclosure := by
    rcases enclosureFacing facing with none_ | same
    · exact by cases none_.symm.trans opened
    · exact same.symm.trans opened
  by_cases paren : enclosure = .parentheses
  · subst paren
    refine ⟨(parenFacing facing).mp (parenEnclosure.mp opened),?_⟩
    rw [← parenRendered sha256 sourcePath k tail]
    exact Option.isSome_iff_exists.mpr ⟨body,closed⟩
  · have unclosed := unclosedRendered sha256 sourcePath k reading earlierOpened paren
      (kept.unclosed enclosure earlierOpened)
    cases unclosed.symm.trans closed

theorem placeOutput (sha256 : Bytes → Bytes) (sourcePath : JsString) (n : Nat) {before rest : JsString}
    {done left : List (Piece UInt16)} (reading : Reading inlineAt before rest (done ++ left)) {near before' : JsString}
    (facing : Facing near before before' rest) : ∃ pre k earlier from_,
      rendered (markerAt sha256 sourcePath) n (done ++ left) = pre ++ rendered (markerAt sha256 sourcePath) k left ∧
      Facing (nearAfter near done) earlier (pre.reverse ++ before') from_ := by
  induction done generalizing n before rest near before' with
  | nil => exact ⟨[],n,before,rest,rfl,facing⟩
  | cons part done ih =>
    cases reading with
    | @keep _ u _ _ _ tail =>
      obtain ⟨pre,k,earlier,from_,same,facing⟩ := ih n tail (facingKeep facing)
      refine ⟨u :: pre,k,earlier,from_,congrArg (u :: ·) same,?_⟩
      rwa [List.reverse_cons,List.append_assoc]
    | @leave _ segment _ _ _ found tail =>
      obtain ⟨pre,k,earlier,from_,same,facing⟩ := ih (n + 1) tail
        (facingLeave sha256 sourcePath n before' found)
      refine ⟨markerAt sha256 sourcePath n segment ++ pre,k,earlier,from_,?_,?_⟩
      · rw [List.cons_append,rendered,same,List.append_assoc]
      · rwa [List.reverse_append,List.append_assoc]

theorem parenFound {before' label out : JsString} (size : label.length = 5) (scheme : matchesDataScheme (label ++ out))
    (opened : (before'.dropWhile blank).head? = some 40) (closes : (scanEnclosedCandidate .parentheses 1 out).isSome) :
    inlineAt before' (label ++ out) ≠ none := by
  have boundary : isSchemeBoundary before' := by
    cases before' with
    | nil => rfl
    | cons u more =>
      rw [List.dropWhile_cons] at opened
      split at opened
      · rename_i blanks
        simp only [blank,Bool.or_eq_true,decide_eq_true_eq] at blanks
        rcases blanks with rfl | rfl <;> rfl
      · cases opened
        rfl
  obtain ⟨body,closed⟩ := Option.isSome_iff_exists.mp closes
  have candidate : scanDataUriCandidate before' (label ++ out) = ⟨body,some .parentheses⟩ := by
    unfold scanDataUriCandidate
    rw [List.drop_left' size,parenEnclosure.mpr opened]
    dsimp only [startDepth]
    rw [closed]
  rw [inlineAt,if_pos (Bool.and_eq_true_iff.mpr ⟨scheme,boundary⟩),candidate]
  dsimp only
  rw [if_neg fun bare => by cases bare.2.2]
  rintro ⟨⟩

theorem outputClear (sha256 : Bytes → Bytes) (text sourcePath : JsString) :
    Clear inlineAt [] (sanitizeInlineDataUris sha256 text sourcePath).pieces ↔ ¬Reopens (readParts inlineAt 0 [] text) := by
  have whole := readReading inlineWithin [] text
  rw [sanitizeRead]
  constructor
  · rintro clear ⟨done,label,tail,split,size,scheme,opens,closes⟩
    rw [split] at whole clear
    obtain ⟨pre,k,earlier,from_,same,facing⟩ := placeOutput sha256 sourcePath 1 whole (.first [] text)
    have here := clear pre _ same
    rw [renderedKept] at here
    rw [← parenRendered sha256 sourcePath k] at closes
    have long : matchesDataScheme (label ++ rendered (markerAt sha256 sourcePath) k tail) := by
      obtain ⟨d,a,t,l,more,rfl,first,second,third,fourth⟩ := schemeUnits scheme
      change matchesDataScheme (d :: a :: t :: l :: 58 :: _) = true
      rw [matchesDataScheme,first,second,third,fourth]
      rfl
    exact parenFound size long ((parenFacing facing).mpr opens) closes here
  · intro closed pre post split
    by_contra found
    obtain ⟨n,some_⟩ := Option.ne_none_iff_exists'.mp found
    obtain ⟨scheme,boundary,_⟩ := inlineFound some_
    obtain ⟨done,left,k,earlier,from_,parts,rfl,reading,facing⟩ := schemePlaces whole (.first [] text) split scheme
    obtain ⟨label,tail,rest',rfl,rfl,kept,same,reading⟩ := placeLabel reading facing scheme boundary
    rw [same] at found
    obtain ⟨opens,closes⟩ := labelOutput kept facing reading found
    exact closed ⟨done,label,tail,parts,kept.size,kept.scheme,opens,closes⟩

/- A second pass changes nothing and reports nothing. -/
def Idempotent (sha256 : Bytes → Bytes) (text sourcePath : JsString) : Prop :=
  sanitizeInlineDataUris sha256 (sanitizeInlineDataUris sha256 text sourcePath).pieces sourcePath =
    ⟨(sanitizeInlineDataUris sha256 text sourcePath).pieces,[]⟩

theorem idempotentClear (sha256 : Bytes → Bytes) (text sourcePath : JsString) :
    Idempotent sha256 text sourcePath ↔ Clear inlineAt [] (sanitizeInlineDataUris sha256 text sourcePath).pieces := by
  have reading := readReading inlineWithin [] (sanitizeInlineDataUris sha256 text sourcePath).pieces
  rw [clearReading reading inlineWithin,Idempotent,sanitizeRead sha256 (sanitizeInlineDataUris sha256 text sourcePath).pieces,
    SanitizationState.mk.injEq]
  constructor
  · exact fun both => numberedNone.mp both.2
  · exact fun none_ => ⟨(renderedNone none_).trans (readSource reading),numberedNone.mpr none_⟩

/-- A second pass does nothing exactly when no kept label stands after a parenthesis that closes once the
inline data URIs behind it are left out. -/
theorem sanitizedAgain (sha256 : Bytes → Bytes) (text sourcePath : JsString) :
    Idempotent sha256 text sourcePath ↔ ¬Reopens (readParts inlineAt 0 [] text) :=
  (idempotentClear sha256 text sourcePath).trans (outputClear sha256 text sourcePath)

def reopenedText : JsString := js "(data: x data:a(( b )"

set_option maxRecDepth 16384 in
theorem labelReopened : ∃ text sourcePath, ∀ sha256, ¬Idempotent sha256 text sourcePath := by
  have reopens : Reopens (readParts inlineAt 0 [] reopenedText) :=
    ⟨[.kept 40],js "data:",(readParts inlineAt 0 [] reopenedText).drop 6,by decide,by decide,by decide,rfl,by decide⟩
  exact ⟨reopenedText,js "fetch",fun sha256 again => (outputClear sha256 _ _).mp ((idempotentClear sha256 _ _).mp again) reopens⟩

end Northstar.Content
