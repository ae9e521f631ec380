import Northstar.Content.Untrusted

/-! The fence around external content and what is read back from it: the body as it was cleaned, unless it
is empty or begins like the fence's own flag line. -/
namespace Northstar.Content

/- What cleaning removes. -/
def removedUnit (u : UInt16) : Bool := (u < 0x20 && u ≠ 9 && u ≠ 10 && u ≠ 13) || u = 0x7F || formattingUnit u

theorem surrogateShown {u : UInt16} (h : surrogate u) : removedUnit u = false := by
  simp only [surrogate,Bool.and_eq_true,decide_eq_true_eq,UInt16.le_iff_toNat_le,UInt16.lt_iff_toNat_lt,UInt16.reduceToNat] at h
  simp only [removedUnit,formattingUnit,List.contains_cons,List.contains_nil,Bool.or_false,Bool.or_eq_false_iff,Bool.and_eq_false_iff,
    beq_eq_false_iff_ne,decide_eq_false_iff_not,UInt16.le_iff_toNat_le,UInt16.lt_iff_toNat_lt,← UInt16.toNat_inj,ne_eq,
    UInt16.reduceToNat]
  omega

theorem cleanUnit (u : UInt16) : cleanPoint [u] = [u].filter fun u => !removedUnit u := by
  rw [cleanPoint,List.filter_singleton,removedUnit]
  by_cases kept : u = 9 ∨ u = 10 ∨ u = 13
  · rw [if_pos kept]
    rcases kept with rfl | rfl | rfl <;> rfl
  · rw [if_neg kept]
    obtain ⟨tab,line,back⟩ := by simpa only [not_or] using kept
    simp only [ne_eq,tab,line,back,not_false_eq_true,decide_true,Bool.and_true]
    by_cases low : u < 0x20
    · simp [low]
    · by_cases delete : u = 0x7F
      · simp [delete]
      · cases formatting : formattingUnit u <;> simp [low,delete]

theorem cleanFilter (text : JsString) : cleanUntrustedText text = text.filter fun u => !removedUnit u := by
  unfold cleanUntrustedText
  induction text using points.induct with
  | case1 => rfl
  | case2 u => rw [points,List.flatMap_singleton,cleanUnit]
  | case3 u v rest pair ih =>
    obtain ⟨high,low⟩ := Bool.and_eq_true_iff.mp pair
    have first : removedUnit u = false := surrogateShown (surrogateHigh high)
    have second : removedUnit v = false := surrogateShown (surrogateLow low)
    have plain : ([u,v].any formattingUnit) = false := by
      simp [(Bool.or_eq_false_iff.mp first).2,(Bool.or_eq_false_iff.mp second).2]
    rw [points,if_pos pair,List.flatMap_cons,ih,cleanPoint,plain]
    · simp [first,second]
    · rintro _ ⟨⟩
  | case4 u v rest single ih =>
    rw [points,if_neg single,List.flatMap_cons,ih,cleanUnit,← List.filter_append]
    rfl

theorem afterSome {front text rest : JsString} : afterPrefix front text = some rest ↔ text = front ++ rest := by
  unfold afterPrefix
  split
  · rename_i starts
    obtain ⟨more,rfl⟩ := starts
    rw [List.drop_left,Option.some.injEq]
    exact ⟨fun same => same ▸ rfl,List.append_cancel_left⟩
  · rename_i apart
    exact iff_of_false nofun fun same => apart ⟨rest,same.symm⟩

theorem afterOwn (front rest : JsString) : afterPrefix front (front ++ rest) = some rest := afterSome.mpr rfl

theorem beforeSome {back text rest : JsString} : beforeSuffix back text = some rest ↔ text = rest ++ back := by
  unfold beforeSuffix
  split
  · rename_i ends
    obtain ⟨more,rfl⟩ := ends
    rw [List.length_append,Nat.add_sub_cancel,List.take_left,Option.some.injEq]
    exact ⟨fun same => same ▸ rfl,List.append_cancel_right⟩
  · rename_i apart
    exact iff_of_false nofun fun same => apart ⟨rest,same.symm⟩

theorem dotSome {text line rest : JsString} : dotLine text = some (line,rest) ↔ text = line ++ 10 :: rest ∧ line.all dot = true := by
  unfold dotLine
  have whole : text.takeWhile dot ++ text.dropWhile dot = text := List.takeWhile_append_dropWhile
  constructor
  · intro read
    split at read
    · rename_i more left
      obtain ⟨rfl,rfl⟩ := Prod.mk.inj (Option.some.inj read)
      rw [left] at whole
      exact ⟨whole.symm,List.all_takeWhile⟩
    · cases read
  · rintro ⟨rfl,dots⟩
    rw [List.takeWhile_append_of_pos (List.all_eq_true.mp dots),List.dropWhile_append_of_pos (List.all_eq_true.mp dots),
      List.dropWhile_cons_of_neg (by decide),List.takeWhile_cons_of_neg (by decide),List.append_nil]
    rfl

/- A first line like the fence's own flag line, with more after it. -/
def FlagLine (text more : JsString) : Prop := ∃ inner : JsString, text = flagStart ++ inner ++ 93 :: 10 :: more ∧ inner.all dot = true

theorem flagLineRead {text more : JsString} : afterFlagLine text = some more ↔ FlagLine text more := by
  unfold afterFlagLine FlagLine
  simp only [bind,Option.bind_eq_some_iff]
  constructor
  · rintro ⟨rest,starts,⟨line,rest'⟩,read,last⟩
    rw [afterSome] at starts
    obtain ⟨rfl,dots⟩ := dotSome.mp read
    dsimp only at last
    split at last
    · rename_i bracket
      cases last
      obtain ⟨inner,rfl⟩ := List.getLast?_eq_some_iff.mp bracket
      refine ⟨inner,by rw [starts]; simp only [List.append_assoc,List.singleton_append],?_⟩
      exact (Bool.and_eq_true_iff.mp (List.all_append ▸ dots)).1
    · cases last
  · rintro ⟨inner,rfl,dots⟩
    refine ⟨inner ++ 93 :: 10 :: more,afterSome.mpr (List.append_assoc _ _ _),(inner ++ [93],more),dotSome.mpr ⟨?_,?_⟩,?_⟩
    · rw [List.append_assoc]
      rfl
    · rw [List.all_append,dots]
      decide
    · exact if_pos List.getLast?_concat

/- The fence with everything in it. -/
def fenced (token source rest : JsString) : JsString :=
  openFence token ++ 10 :: (originStart ++ source ++ originEnd ++ [46]) ++ 10 :: (authority ++ [46]) ++ 10 :: rest

theorem fencedMatch {token source rest : JsString} (uuid : isUuid token) (single : source.all dot) :
    matchFence (fenced token source rest) = (((afterFlagLine rest).bind (beforeSuffix (10 :: closeFence token))).orElse fun _ =>
      beforeSuffix (10 :: closeFence token) rest).map (token,·) := by
  have size : token.length = 36 := of_decide_eq_true (Bool.and_eq_true_iff.mp uuid).1
  have start : afterPrefix (js "<<<EXTERNAL_EVIDENCE_") (fenced token source rest) = some (token ++ (js ">>>\n" ++
      (originStart ++ (source ++ originEnd ++ [46] ++ 10 :: (authority ++ ([46] ++ 10 :: rest)))))) := by
    have opening : js ">>>\n" = js ">>>" ++ [10] := by decide
    rw [afterSome,fenced,openFence,opening]
    simp only [List.append_assoc,List.cons_append,List.nil_append]
  have origin : dotLine (source ++ originEnd ++ [46] ++ 10 :: (authority ++ ([46] ++ 10 :: rest))) =
      some (source ++ originEnd ++ [46],authority ++ ([46] ++ 10 :: rest)) := by
    refine dotSome.mpr ⟨rfl,?_⟩
    rw [List.all_append,List.all_append,single]
    decide
  have stop : dotLine ([46] ++ 10 :: rest) = some ([46],rest) := dotSome.mpr ⟨rfl,by decide⟩
  have shaped : ¬(source ++ originEnd ++ [46] = [] ∨ ¬originEnd <:+ (source ++ originEnd ++ [46]).dropLast) := by
    rw [List.dropLast_concat]
    simp
  have taken (more : JsString) : (token ++ more).take 36 = token := List.take_left' size
  have dropped (more : JsString) : (token ++ more).drop 36 = more := List.drop_left' size
  unfold matchFence
  simp only [start,Option.bind_eq_bind,Option.bind_some,taken,dropped,uuid,Bool.not_true,Bool.false_eq_true,if_false,
    afterOwn,origin,if_neg shaped,stop,List.length_singleton,ne_eq,not_true_eq_false]

theorem joinedAll {p : UInt16 → Bool} {between : JsString} (sep : between.all p) {parts : List JsString}
    (each : ∀ part ∈ parts, part.all p) : (between.intercalate parts).all p := by
  induction parts with
  | nil => rfl
  | cons first rest ih =>
    obtain ⟨head,tail⟩ := List.forall_mem_cons.mp each
    cases rest with
    | nil => simpa using head
    | cons second more =>
      rw [List.intercalate_cons_cons,List.all_append,List.all_append,head,sep,ih tail]
      rfl

theorem noteShape (analysis : UntrustedAnalysis) :
    flagNote analysis = [] ∨ ∃ inner : JsString, flagNote analysis = flagStart ++ inner ++ [93] ∧ inner.all dot = true := by
  unfold flagNote
  split
  · exact .inl rfl
  · refine .inr ⟨_,rfl,joinedAll (by decide) fun flag member => ?_⟩
    obtain ⟨⟨raised,text⟩,inside,shown⟩ := List.mem_filterMap.mp member
    have known : [js "mixed-script",js "unicode-formatting",js "control-chars",js "encoded-directives",js "base64-blob",
        js "instruction-language"].all (fun text => text.all dot) = true := by decide
    have listed : flag ∈ [js "mixed-script",js "unicode-formatting",js "control-chars",js "encoded-directives",js "base64-blob",
        js "instruction-language"] := by
      dsimp only at shown
      split at shown
      · obtain rfl := Option.some.inj shown
        have mapped := List.mem_map_of_mem (f := Prod.snd) inside
        exact mapped
      · cases shown
    exact List.all_eq_true.mp known flag listed

/- What the fence has after its two lines. -/
def inside (token note body : JsString) : JsString :=
  (if note = [] then [] else note ++ [10]) ++ ((if body = [] then [] else body ++ [10]) ++ closeFence token)

theorem wrapFresh {normalize : JsString → JsString} {issued : IssuedTokens} {token text source : JsString}
    (fresh : isWrappedUntrustedText issued text = false) : wrapUntrustedText normalize issued token text source =
      (trackIssuedToken issued token,
        fenced token source (inside token (flagNote (analyzeUntrustedText normalize text)) (cleanUntrustedText text))) := by
  have opening : openFence token ≠ [] := List.append_ne_nil_of_right_ne_nil _ (by decide)
  have origin : originStart ++ source ++ originEnd ++ [46] ≠ [] := List.append_ne_nil_of_right_ne_nil _ (by decide)
  have bounds : authority ++ [46] ≠ [] := List.append_ne_nil_of_right_ne_nil _ (by decide)
  have closing : closeFence token ≠ [] := List.append_ne_nil_of_right_ne_nil _ (by decide)
  unfold wrapUntrustedText
  rw [fresh,if_neg Bool.false_ne_true]
  refine congrArg (trackIssuedToken issued token,·) ?_
  generalize flagNote (analyzeUntrustedText normalize text) = note
  generalize cleanUntrustedText text = body
  unfold fenced inside
  by_cases flagged : note = [] <;> by_cases some_ : body = [] <;>
    simp [opening,bounds,closing,flagged,some_,List.intercalate_cons_cons]

theorem flagNone {text : JsString} : afterFlagLine text = none ↔ ∀ more, ¬FlagLine text more := by
  rw [Option.eq_none_iff_forall_ne_some]
  exact forall_congr' fun more => not_congr flagLineRead

/- A flag line that goes past a text is the whole of it. -/
theorem flagBeyond {body rest more : JsString} (line : FlagLine (body ++ 10 :: rest) more) :
    (∃ own, FlagLine body own ∧ more = own ++ 10 :: rest) ∨ more = rest := by
  obtain ⟨inner,same,dots⟩ := line
  have solid : (flagStart ++ inner ++ [93]).all dot := by
    rw [List.all_append,List.all_append,dots]
    decide
  have cut : body ++ 10 :: rest = (flagStart ++ inner ++ [93]) ++ 10 :: more := by
    rw [same]
    simp only [List.append_assoc,List.singleton_append]
  rcases List.append_eq_append_iff.mp cut with ⟨beyond,whole,tail⟩ | ⟨beyond,whole,tail⟩
  · cases beyond with
    | nil => exact .inr (List.cons.inj tail).2.symm
    | cons u beyond =>
      obtain ⟨rfl,_⟩ := List.cons.inj tail
      have inside := List.all_eq_true.mp solid 10 (whole ▸ List.mem_append_right _ List.mem_cons_self)
      exact absurd inside (by decide)
  · cases beyond with
    | nil => exact .inr (List.cons.inj tail).2
    | cons u own =>
      obtain ⟨rfl,after⟩ := List.cons.inj tail
      refine .inl ⟨own,⟨inner,?_,dots⟩,after⟩
      rw [whole]
      simp only [List.append_assoc,List.singleton_append]

theorem closeApart (token : JsString) : beforeSuffix (10 :: closeFence token) (closeFence token) = none := by
  refine Option.eq_none_iff_forall_ne_some.mpr fun rest same => ?_
  have size := congrArg List.length (beforeSome.mp same)
  rw [List.length_append,List.length_cons] at size
  omega

theorem closeUnflagged (token more : JsString) : ¬FlagLine (closeFence token) more := by
  rintro ⟨inner,same,_⟩
  have opening : closeFence token = 60 :: (js "<<END_EXTERNAL_EVIDENCE_" ++ token ++ js ">>>") := rfl
  have flagged : flagStart = 91 :: js "untrusted-content: detected " := by decide
  rw [opening,flagged] at same
  exact absurd (List.cons.inj same).1 (by decide)

section Reading

variable {token source note body : JsString}

/- What the fence is read back as. -/
theorem readBody (uuid : isUuid token) (single : source.all dot) (shape : note = [] ∨ ∃ inner, note = flagStart ++ inner ++ [93] ∧ inner.all dot = true)
    (some_ : body ≠ []) (plain : note = [] → ∀ more, ¬FlagLine body more) :
    matchFence (fenced token source (inside token note body)) = some (token,body) := by
  have closed : beforeSuffix (10 :: closeFence token) (body ++ 10 :: closeFence token) = some body := beforeSome.mpr rfl
  rw [fencedMatch uuid single]
  rcases shape with rfl | ⟨inner,rfl,dots⟩
  · have shown : inside token [] body = body ++ 10 :: closeFence token := by simp [inside,some_]
    rw [shown]
    cases flagged : afterFlagLine (body ++ 10 :: closeFence token) with
    | none => rw [closed]; rfl
    | some more =>
      rcases flagBeyond (flagLineRead.mp flagged) with ⟨own,line,_⟩ | rfl
      · exact absurd line (plain rfl own)
      · rw [Option.bind_some,closeApart,closed]
        rfl
  · have shown : inside token (flagStart ++ inner ++ [93]) body = flagStart ++ inner ++ 93 :: 10 :: (body ++ 10 :: closeFence token) := by
      simp [inside,some_]
    rw [shown,flagLineRead.mpr ⟨inner,rfl,dots⟩,Option.bind_some,closed]
    rfl

theorem readImitated (uuid : isUuid token) (single : source.all dot) {more : JsString} (line : FlagLine body more) :
    matchFence (fenced token source (inside token [] body)) = some (token,more) := by
  obtain ⟨inner,rfl,dots⟩ := line
  have shown : inside token [] (flagStart ++ inner ++ 93 :: 10 :: more) = flagStart ++ inner ++ 93 :: 10 :: (more ++ 10 :: closeFence token) := by
    simp [inside]
  have closed : beforeSuffix (10 :: closeFence token) (more ++ 10 :: closeFence token) = some more := beforeSome.mpr rfl
  rw [fencedMatch uuid single,shown,flagLineRead.mpr ⟨inner,rfl,dots⟩,Option.bind_some,closed]
  rfl

theorem readEmpty (uuid : isUuid token) (single : source.all dot) : matchFence (fenced token source (inside token [] [])) = none := by
  have shown : inside token [] [] = closeFence token := by simp [inside]
  rw [fencedMatch uuid single,shown,flagNone.mpr (closeUnflagged token),closeApart]
  rfl

theorem readNote (uuid : isUuid token) (single : source.all dot) {inner : JsString} (dots : inner.all dot) :
    matchFence (fenced token source (inside token (flagStart ++ inner ++ [93]) [])) = some (token,flagStart ++ inner ++ [93]) := by
  have shown : inside token (flagStart ++ inner ++ [93]) [] = flagStart ++ inner ++ 93 :: 10 :: closeFence token := by simp [inside]
  have closed : beforeSuffix (10 :: closeFence token) (flagStart ++ inner ++ 93 :: 10 :: closeFence token) =
      some (flagStart ++ inner ++ [93]) := by
    rw [beforeSome]
    simp only [List.append_assoc,List.singleton_append]
  rw [fencedMatch uuid single,shown,flagLineRead.mpr ⟨inner,rfl,dots⟩,Option.bind_some,closeApart,closed]
  rfl

end Reading

theorem tracked (issued : IssuedTokens) (token : JsString) : (trackIssuedToken issued token).contains token = true := by
  rw [List.contains_iff_mem]
  unfold trackIssuedToken
  generalize (if maxIssuedTokens ≤ issued.length then issued.drop 1 else issued) = kept
  dsimp only
  split
  · assumption
  · exact List.mem_append_right _ (List.mem_singleton_self token)

/- A fence is not what its body is cleaned to. -/
theorem matchShape {text token body : JsString} (read : matchFence text = some (token,body)) :
    ∃ more, text = 60 :: more ∧ body <:+: more := by
  have after {front text rest : JsString} (h : afterPrefix front text = some rest) : rest <:+ text := ⟨front,(afterSome.mp h).symm⟩
  have dots {text : JsString} {line : JsString × JsString} (h : dotLine text = some line) : line.2 <:+ text :=
    ⟨line.1 ++ [10],by rw [(dotSome.mp h).1]; simp⟩
  have before {back text rest : JsString} (h : beforeSuffix back text = some rest) : rest <+: text := ⟨back,(beforeSome.mp h).symm⟩
  unfold matchFence at read
  simp only [bind,Option.bind_eq_some_iff] at read
  obtain ⟨r1,h1,read⟩ := read
  split at read
  · cases read
  obtain ⟨r2,h2,r3,h3,l4,h4,read⟩ := by simpa only [bind,Option.bind_eq_some_iff] using read
  split at read
  · cases read
  obtain ⟨r5,h5,l6,h6,read⟩ := by simpa only [bind,Option.bind_eq_some_iff] using read
  split at read
  · cases read
  obtain ⟨found,taken,same⟩ := Option.map_eq_some_iff.mp read
  obtain ⟨_,rfl⟩ := Prod.mk.inj same
  have rest : l6.2 <:+ r1 :=
    (dots h6).trans ((after h5).trans ((dots h4).trans ((after h3).trans ((after h2).trans (List.drop_suffix 36 r1)))))
  have inner : found <:+: l6.2 := by
    cases flagged : (afterFlagLine l6.2).bind (beforeSuffix (10 :: closeFence (r1.take 36))) with
    | some body =>
      rw [flagged] at taken
      obtain ⟨after_,line,closed⟩ := Option.bind_eq_some_iff.mp flagged
      obtain ⟨inner,whole,_⟩ := flagLineRead.mp line
      cases taken
      exact (before closed).isInfix.trans ⟨flagStart ++ inner ++ [93,10],[],by rw [whole]; simp⟩
    | none =>
      rw [flagged] at taken
      exact (before taken).isInfix
  refine ⟨js "<<EXTERNAL_EVIDENCE_" ++ r1,?_,?_⟩
  · rw [afterSome.mp h1]
    rfl
  · exact inner.trans (rest.isInfix.trans (List.suffix_append _ _).isInfix)

theorem fenceNotClean {text token body : JsString} (read : matchFence text = some (token,body)) : body ≠ cleanUntrustedText text := by
  intro same
  obtain ⟨more,rfl,within⟩ := matchShape read
  have shown : removedUnit 60 = false := by decide
  rw [cleanFilter,List.filter_cons,shown] at same
  have kept : body.filter (fun u => !removedUnit u) = body := by
    rw [same]
    simp [shown]
  obtain ⟨front,back,whole⟩ := within
  have size := congrArg List.length same
  rw [← whole,List.filter_append,List.filter_append,kept] at size
  simp at size
  omega

section Laws

variable (normalize : JsString → JsString) (issued : IssuedTokens) (token text source : JsString)

/- Unwrapping what was wrapped gives the cleaned text, and wrapping it again changes nothing. -/
def RoundTrip : Prop :=
  let (issued,wrapped) := wrapUntrustedText normalize issued token text source
  unwrapUntrustedText issued wrapped = cleanUntrustedText text ∧
    ∀ token' source', (wrapUntrustedText normalize issued token' wrapped source').2 = wrapped

/- The text is no fence of a token in use, something of it is left, and where nothing is detected what is
left does not begin like a flag line that more text follows. -/
structure Readable : Prop where
  fresh : isWrappedUntrustedText issued text = false
  shown : cleanUntrustedText text ≠ []
  plain : flags (analyzeUntrustedText normalize text) = [] → ∀ more, ¬FlagLine (cleanUntrustedText text) more

variable {normalize issued token text source}

theorem noteFlags {analysis : UntrustedAnalysis} : flagNote analysis = [] ↔ flags analysis = [] := by
  unfold flagNote
  split
  · rename_i none_
    exact iff_of_true rfl none_
  · rename_i some_
    exact iff_of_false (List.append_ne_nil_of_right_ne_nil _ (List.cons_ne_nil _ _)) some_

theorem readableTrip (uuid : isUuid token) (single : source.all dot) (readable : Readable normalize issued text) :
    RoundTrip normalize issued token text source := by
  have read := readBody uuid single (noteShape (analyzeUntrustedText normalize text)) readable.shown
    fun none_ => readable.plain (noteFlags.mp none_)
  unfold RoundTrip
  rw [wrapFresh readable.fresh]
  have known : isWrappedUntrustedText (trackIssuedToken issued token) (fenced token source
      (inside token (flagNote (analyzeUntrustedText normalize text)) (cleanUntrustedText text))) = true := by
    rw [isWrappedUntrustedText,read]
    exact tracked issued token
  refine ⟨?_,fun token' source' => ?_⟩
  · rw [unwrapUntrustedText,read]
    exact if_pos (tracked issued token)
  · rw [wrapUntrustedText,if_pos known]

theorem tripReadable (uuid : isUuid token) (single : source.all dot)
    (back : unwrapUntrustedText (wrapUntrustedText normalize issued token text source).1
      (wrapUntrustedText normalize issued token text source).2 = cleanUntrustedText text) : Readable normalize issued text := by
  cases wrapped : isWrappedUntrustedText issued text with
  | true =>
    rw [wrapUntrustedText,if_pos wrapped] at back
    rw [isWrappedUntrustedText] at wrapped
    split at wrapped
    · rename_i old body read
      rw [unwrapUntrustedText,read] at back
      exact absurd ((if_pos wrapped).symm.trans back) (fenceNotClean read)
    · cases wrapped
  | false =>
    rw [wrapFresh wrapped] at back
    have opened (rest : JsString) : fenced token source rest ≠ [] := List.append_ne_nil_of_right_ne_nil _ (List.cons_ne_nil _ _)
    have shown : cleanUntrustedText text ≠ [] := by
      intro empty
      rw [empty] at back
      rcases noteShape (analyzeUntrustedText normalize text) with none_ | ⟨inner,note,dots⟩
      · rw [none_,unwrapUntrustedText,readEmpty uuid single] at back
        exact opened _ back
      · rw [note,unwrapUntrustedText,readNote uuid single dots] at back
        have flagged := (if_pos (tracked issued token)).symm.trans back
        exact absurd flagged (List.append_ne_nil_of_right_ne_nil _ (List.cons_ne_nil _ _))
    refine ⟨wrapped,shown,fun none_ more line => ?_⟩
    rw [noteFlags.mpr none_,unwrapUntrustedText,readImitated uuid single line] at back
    have same : more = cleanUntrustedText text := (if_pos (tracked issued token)).symm.trans back
    obtain ⟨inner,whole,_⟩ := line
    have size := congrArg List.length (same.trans whole)
    simp at size
    omega

/-- The laws hold exactly for a text that is no fence in use, whose cleaned body is not empty and, where
nothing is detected in it, does not begin with a flag line before more text. -/
theorem wrapRoundTrip (uuid : isUuid token) (single : source.all dot) :
    RoundTrip normalize issued token text source ↔ Readable normalize issued text :=
  ⟨fun laws => tripReadable uuid single laws.1,readableTrip uuid single⟩

def demoToken : JsString := js "0f8fad5b-d9cb-469f-a165-70867728950e"

theorem helloRoundTrip : isUuid demoToken = true ∧ (js "fetch").all dot = true ∧
    (RoundTrip id [] demoToken (js "hello") (js "fetch") ↔ Readable id [] (js "hello")) :=
  ⟨by decide,by decide,wrapRoundTrip (by decide) (by decide)⟩

set_option maxRecDepth 16384 in
theorem emptyNested : unwrapUntrustedText (wrapUntrustedText id [] demoToken [] (js "fetch")).1
      (wrapUntrustedText id [] demoToken [] (js "fetch")).2 ≠ cleanUntrustedText [] ∧
    ¬RoundTrip id [] demoToken [] (js "fetch") := by
  have fails : unwrapUntrustedText (wrapUntrustedText id [] demoToken [] (js "fetch")).1
      (wrapUntrustedText id [] demoToken [] (js "fetch")).2 ≠ cleanUntrustedText [] := by decide
  exact ⟨fails,fun laws => fails laws.1⟩

end Laws

end Northstar.Content
