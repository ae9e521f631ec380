import Northstar.Agent.Support

/-! Apostrophes inside words against the quote pattern, which pairs any two straight single
quotes: the text from the first apostrophe to the second, from the third to the fourth and so
on is taken for a quotation. -/
namespace Northstar.Agent.Verifier
open Pattern (Needs needsUnit needsFirst needsSecond needsEither matchNone upToDelimiter delimited undelimited)

/- A unit next to an apostrophe inside a word: those of letters are no white space and no quote. -/
def inWord (u : UInt16) : Bool := !whiteSpace u && u != 39

/- Every apostrophe stands between two units of a word. -/
def apostrophesInWords : Option UInt16 → JsString → Bool
  | _, [] => true
  | before, u :: rest => (u != 39 || (before.any inWord && rest.head?.any inWord)) && apostrophesInWords (some u) rest

/- The clauses of the law: no digit, no other quote, apostrophes only inside words. -/
structure Contracted (clause : JsString) : Prop where
  digitless : clause.all fun u => !digit u
  quoteless : clause.all fun u => u != 34 && u != 0x201C && u != 0x201D
  apostrophes : apostrophesInWords none clause

theorem Contracted.noDigit {clause : JsString} (contracted : Contracted clause) : ∀ u ∈ clause, digit u = false := by
  intro u inside
  simpa using List.all_eq_true.mp contracted.digitless u inside

theorem Contracted.noQuote {clause : JsString} (contracted : Contracted clause) :
    ∀ u ∈ clause, u ≠ 34 ∧ u ≠ 0x201C ∧ u ≠ 0x201D := by
  intro u inside
  simpa [and_assoc] using List.all_eq_true.mp contracted.quoteless u inside

/- Every other piece between apostrophes, as long as one follows it. -/
def phantoms : List JsString → List JsString
  | _ :: inner :: next :: rest => inner :: phantoms (next :: rest)
  | _ => []

theorem apostrophesLater (before : Option UInt16) (first rest : JsString)
    (fine : apostrophesInWords before (first ++ rest)) : ∃ last, apostrophesInWords last rest := by
  induction first generalizing before with
  | nil => exact ⟨before,fine⟩
  | cons u more ih =>
    rw [List.cons_append,apostrophesInWords,Bool.and_eq_true] at fine
    exact ih (some u) fine.2

theorem digitNeeded : Needs digit digits := needsUnit fun _ => id

theorem numberNeeds : Needs digit numberPattern :=
  needsEither (needsSecond (needsFirst digitNeeded))
    (needsEither (needsFirst digitNeeded)
      (needsEither (needsSecond (needsFirst (needsFirst digitNeeded))) (needsSecond (needsFirst digitNeeded))))

theorem singleDigitNeeds : Needs digit singleDigitUnitPattern := needsSecond (needsFirst digitNeeded)

theorem yearNeeds : Needs digit yearPattern := by
  have unit (u : UInt16) (number : digit u) : Needs digit (the u) := needsUnit fun v same => by rwa [eq_of_beq same]
  exact needsSecond (needsFirst (needsEither (needsFirst (unit 49 (by decide))) (needsFirst (unit 50 (by decide)))))

theorem slashDateNeeds : Needs digit slashDatePattern := needsSecond (needsFirst (needsFirst (needsFirst digitNeeded)))

theorem digitlessNumbers {clause : JsString} (none_ : ∀ u ∈ clause, digit u = false) : collectNumberHits clause = [] := by
  unfold collectNumberHits
  rw [matchNone numberNeeds none_,matchNone singleDigitNeeds none_]
  rfl

theorem digitlessDates {clause : JsString} (none_ : ∀ u ∈ clause, digit u = false) : datesOf clause = [] := by
  unfold datesOf
  rw [matchNone yearNeeds none_,matchNone slashDateNeeds none_]
  rfl

/- Without other quotes only the pair of apostrophes can match. -/
theorem quoteEnds {place : Place UInt16} (quoteless : ∀ u ∈ place.left, u ≠ 34 ∧ u ≠ 0x201C ∧ u ≠ 0x201D) :
    quotePattern.ends place = (quotedBy 39 39).ends place := by
  have opening (o c : UInt16) (absent : ∀ u ∈ place.left, u ≠ o) : (quotedBy o c).ends place = [] :=
    @needsFirst _ (· == o) _ _ (needsUnit fun _ => id) place fun u inside => beq_false_of_ne (absent u inside)
  change (quotedBy 34 34).ends place ++ ((quotedBy 39 39).ends place ++ (quotedBy 0x201C 0x201D).ends place) = _
  rw [opening 34 34 fun u inside => (quoteless u inside).1,opening 0x201C 0x201D fun u inside => (quoteless u inside).2.1,
    List.nil_append,List.append_nil]

theorem apostrophePair (read inner after : JsString) (some_ : inner ≠ []) (apart : 39 ∉ inner) :
    (quotedBy 39 39).ends ⟨read,39 :: (inner ++ 39 :: after)⟩ = [⟨39 :: (inner.reverse ++ 39 :: read),after⟩] := by
  cases inner with
  | nil => exact absurd rfl some_
  | cons u rest =>
    obtain ⟨other,later⟩ := not_or.mp fun member => apart (List.mem_cons.mpr member)
    have differs : (u != 39) = true := bne_iff_ne.mpr fun same => other same.symm
    have opens : (the 39).ends ⟨read,39 :: (u :: rest ++ 39 :: after)⟩ = [⟨39 :: read,u :: rest ++ 39 :: after⟩] := rfl
    have goes : (Pattern.unit (· != (39 : UInt16))).ends ⟨39 :: read,u :: (rest ++ 39 :: after)⟩ =
        [⟨u :: 39 :: read,rest ++ 39 :: after⟩] := if_pos differs
    change ((the 39).ends _).flatMap (fun place => (((Pattern.unit (· != (39 : UInt16))).ends place).flatMap
      (Pattern.many (.unit (· != (39 : UInt16)))).ends).flatMap (the 39).ends) = _
    rw [opens,List.flatMap_cons,List.flatMap_nil,List.append_nil,List.cons_append,goes,List.flatMap_cons,List.flatMap_nil,
      List.append_nil]
    change (upToDelimiter (39 : UInt16)).ends _ = _
    rw [delimited rest later]
    simp

theorem apostropheAlone (read left : JsString) (absent : 39 ∉ left) :
    (quotedBy 39 39).ends ⟨read,39 :: left⟩ = [] := by
  have closes : (Pattern.seq (.some (.unit (· != (39 : UInt16)))) (the 39)).ends ⟨39 :: read,left⟩ = [] := by
    refine @needsSecond _ (· == 39) _ _ (needsUnit fun _ => id) ⟨39 :: read,left⟩ fun u inside => ?_
    exact beq_false_of_ne fun same => absent (same ▸ inside)
  change ((the 39).ends ⟨read,39 :: left⟩).flatMap _ = []
  have opens : (the 39).ends ⟨read,39 :: left⟩ = [⟨39 :: read,left⟩] := rfl
  rw [opens,List.flatMap_cons,List.flatMap_nil,List.append_nil]
  exact closes

/- The matches of the quote pattern are the phantoms of the clause with their apostrophes. -/
theorem phantomMatches (n : Nat) (read left : JsString) (before : Option UInt16) (enough : left.length < n)
    (quoteless : ∀ u ∈ left, u ≠ 34 ∧ u ≠ 0x201C ∧ u ≠ 0x201D) (fine : apostrophesInWords before left) :
    (quotePattern.searchFrom n ⟨read,left⟩).map Prod.snd =
      (phantoms (left.splitOn 39)).map fun inner => 39 :: (inner ++ [39]) := by
  induction n generalizing read left before with
  | zero => exact absurd enough (Nat.not_lt_zero _)
  | succ n ih =>
    unfold Pattern.searchFrom Pattern.matchAt
    rw [quoteEnds quoteless]
    cases left with
    | nil => rfl
    | cons u rest =>
      have quotelessLater := fun v inside => quoteless v (List.mem_cons_of_mem u inside)
      rw [List.length_cons] at enough
      rw [apostrophesInWords,Bool.and_eq_true] at fine
      by_cases same : u = 39
      · subst same
        by_cases closed : (39 : UInt16) ∈ rest
        · obtain ⟨inner,after,rfl,apart⟩ := List.eq_append_cons_of_mem closed
          have some_ : inner ≠ [] := by
            rintro rfl
            simp [inWord] at fine
          obtain ⟨last,later⟩ := apostrophesLater (some 39) (inner ++ [39]) after (by simpa using fine.2)
          have found : (39 :: (inner ++ 39 :: after)).take ((39 :: (inner ++ 39 :: after)).length - after.length) =
              39 :: (inner ++ [39]) := by
            have cut : 39 :: (inner ++ 39 :: after) = (39 :: (inner ++ [39])) ++ after := by simp
            rw [cut,List.length_append,Nat.add_sub_cancel,List.take_left]
          rw [apostrophePair read inner after some_ apart]
          dsimp only [List.head?_cons,Option.map_some]
          rw [found]
          dsimp only [List.isEmpty_cons]
          rw [if_neg Bool.false_ne_true,List.map_cons,
            ih _ after last (by simp only [List.length_append,List.length_cons] at enough; omega)
              (fun v inside => quotelessLater v (by simp [inside])) later]
          have split : (39 :: (inner ++ 39 :: after)).splitOn 39 = [] :: inner :: after.splitOn 39 := by
            rw [List.splitOn_cons_eq_if_modifyHead,if_pos (beq_self_eq_true _),List.splitOn_append_cons_self_of_not_mem apart]
          rw [split]
          obtain ⟨next,pieces,shape⟩ := List.exists_cons_of_ne_nil (List.splitOn_ne_nil (39 : UInt16) after)
          rw [shape]
          rfl
        · rw [apostropheAlone read rest closed]
          dsimp only [List.head?_nil,Option.map_none]
          rw [ih _ rest (some 39) (by omega) quotelessLater fine.2,List.splitOn_cons_eq_if_modifyHead,
            if_pos (beq_self_eq_true _),List.splitOn_eq_singleton closed]
          rfl
      · have stays : (quotedBy 39 39).ends ⟨read,u :: rest⟩ = [] := by
          have opens : (the 39).ends ⟨read,u :: rest⟩ = [] := if_neg (by simpa using same)
          change ((the 39).ends ⟨read,u :: rest⟩).flatMap _ = []
          rw [opens,List.flatMap_nil]
        rw [stays]
        dsimp only [List.head?_nil,Option.map_none]
        rw [ih _ rest (some u) (by omega) quotelessLater fine.2,List.splitOn_cons_eq_if_modifyHead,
          if_neg (by simpa using same)]
        obtain ⟨next,pieces,shape⟩ := List.exists_cons_of_ne_nil (List.splitOn_ne_nil (39 : UInt16) rest)
        rw [shape]
        cases pieces with
        | nil => rfl
        | cons inner more => cases more <;> rfl

/- What stands behind an apostrophe starts with a unit of a word. -/
theorem pieceStarts (before : Option UInt16) (clause : JsString) (fine : apostrophesInWords before clause) :
    ∀ piece ∈ (clause.splitOn 39).tail, piece.head?.any inWord := by
  induction clause generalizing before with
  | nil =>
    intro piece member
    exact absurd member List.not_mem_nil
  | cons u rest ih =>
    rw [apostrophesInWords,Bool.and_eq_true] at fine
    have later := ih (some u) fine.2
    rw [List.splitOn_cons_eq_if_modifyHead]
    split
    · rename_i same
      intro piece member
      have starts : rest.head?.any inWord := by
        have both := fine.1
        simp only [eq_of_beq same,bne_self_eq_false,Bool.false_or,Bool.and_eq_true] at both
        exact both.2
      cases rest with
      | nil => exact absurd starts Bool.false_ne_true
      | cons v more =>
        have other : (v == 39) = false := by
          have word : inWord v = true := starts
          unfold inWord at word
          simpa using (Bool.and_eq_true_iff.mp word).2
        obtain ⟨next,pieces,shape⟩ := List.exists_cons_of_ne_nil (List.splitOn_ne_nil (39 : UInt16) more)
        rw [List.splitOn_cons_eq_if_modifyHead,other,if_neg Bool.false_ne_true,shape] at later
        rw [List.tail_cons,List.splitOn_cons_eq_if_modifyHead,other,if_neg Bool.false_ne_true,shape] at member
        rcases List.mem_cons.mp member with first | further
        · exact first ▸ starts
        · exact later piece further
    · obtain ⟨next,pieces,shape⟩ := List.exists_cons_of_ne_nil (List.splitOn_ne_nil (39 : UInt16) rest)
      rw [shape] at later ⊢
      exact later

theorem phantomPiece (pieces : List JsString) : ∀ inner ∈ phantoms pieces, inner ∈ pieces.tail := by
  fun_induction phantoms pieces with
  | case1 first inner next rest ih =>
    intro other member
    rcases List.mem_cons.mp member with same | later
    · exact same ▸ List.mem_cons_self
    · exact List.mem_cons_of_mem _ (List.mem_cons_of_mem _ (ih other later))
  | case2 =>
    intro other member
    exact absurd member List.not_mem_nil

theorem trimKeeps {text : JsString} (starts : text.head?.any inWord) : trim text ≠ [] := by
  cases text with
  | nil => exact absurd starts Bool.false_ne_true
  | cons u rest =>
    have visible : whiteSpace u = false := by
      have word : inWord u = true := starts
      unfold inWord at word
      simpa using (Bool.and_eq_true_iff.mp word).1
    intro none_
    unfold trim at none_
    rw [List.dropWhile_cons_of_neg (by simp [visible]),List.reverse_eq_nil_iff,List.dropWhile_eq_nil_iff] at none_
    have blank := none_ u (by simp)
    rw [visible] at blank
    exact Bool.false_ne_true blank

theorem unseenMember {texts out : List JsString} {text : JsString} :
    text ∈ texts.foldl (fun out inner => if inner.isEmpty then out else unseen out inner) out ↔
      text ∈ out ∨ text ≠ [] ∧ text ∈ texts := by
  induction texts generalizing out with
  | nil => simp
  | cons first rest ih =>
    rw [List.foldl_cons,ih,List.mem_cons]
    split
    · rename_i empty
      rw [List.isEmpty_iff.mp empty]
      constructor
      · rintro (old | ⟨some_,later⟩)
        · exact .inl old
        · exact .inr ⟨some_,.inr later⟩
      · rintro (old | ⟨some_,same | later⟩)
        · exact .inl old
        · exact absurd same some_
        · exact .inr ⟨some_,later⟩
    · rename_i full
      have full : first ≠ [] := fun none_ => full (List.isEmpty_iff.mpr none_)
      unfold unseen
      split
      · rename_i seen
        have seen := List.contains_iff_mem.mp seen
        constructor
        · rintro (old | ⟨some_,later⟩)
          · exact .inl old
          · exact .inr ⟨some_,.inr later⟩
        · rintro (old | ⟨some_,same | later⟩)
          · exact .inl old
          · exact .inl (same ▸ seen)
          · exact .inr ⟨some_,later⟩
      · rw [List.mem_append,List.mem_singleton]
        constructor
        · rintro ((old | same) | ⟨some_,later⟩)
          · exact .inl old
          · exact .inr ⟨same ▸ full,.inl same⟩
          · exact .inr ⟨some_,.inr later⟩
        · rintro (old | ⟨some_,same | later⟩)
          · exact .inl (.inl old)
          · exact .inl (.inr same)
          · exact .inr ⟨some_,later⟩

theorem phantomQuotes {clause : JsString} (contracted : Contracted clause) (quote : JsString) :
    quote ∈ quotesOf clause ↔ ∃ inner ∈ phantoms (clause.splitOn 39), trim inner = quote := by
  have found := phantomMatches (clause.length + 1) [] clause none (Nat.lt_succ_self _) contracted.noQuote contracted.apostrophes
  have texts : ((quotePattern.matchAll clause).map fun found => trim found.2.dropLast.tail) =
      (phantoms (clause.splitOn 39)).map trim := by
    have inner : (fun found : Nat × JsString => trim found.2.dropLast.tail) = (fun text => trim text.dropLast.tail) ∘ Prod.snd := rfl
    rw [inner,← List.map_map]
    unfold Pattern.matchAll
    rw [found,List.map_map]
    refine List.map_congr_left fun text _ => ?_
    change trim ((39 :: text) ++ [39]).dropLast.tail = trim text
    rw [List.dropLast_concat,List.tail_cons]
  unfold quotesOf
  rw [texts,unseenMember]
  constructor
  · rintro (none_ | ⟨_,member⟩)
    · exact absurd none_ List.not_mem_nil
    · exact List.mem_map.mp member
  · rintro ⟨inner,member,rfl⟩
    exact .inr ⟨trimKeeps (pieceStarts none clause contracted.apostrophes inner (phantomPiece _ inner member)),
      List.mem_map_of_mem member⟩

variable (unicode : Unicode)

/-- A clause without digits whose only quotes are apostrophes inside words is refuted just when
the text between two paired apostrophes is in none of the excerpts. -/
theorem apostrophesRefute (clause : JsString) (excerpts : List JsString) (contracted : Contracted clause) :
    judgeClause unicode clause excerpts ≠ .refuted ↔
      ∀ inner ∈ phantoms (clause.splitOn 39), ∃ excerpt ∈ excerpts, trim inner <:+: normalizeTextNumbers excerpt := by
  have found (quote : JsString) : quoteFound excerpts quote = true ↔
      ∃ excerpt ∈ excerpts, quote <:+: normalizeTextNumbers excerpt := by
    unfold quoteFound
    simp only [List.any_map,List.any_eq_true,Function.comp_apply,includesIff]
  unfold judgeClause
  rw [Ne,judgeRefuted,digitlessNumbers contracted.noDigit,digitlessDates contracted.noDigit]
  constructor
  · intro calm inner member
    rw [← found]
    by_contra missing
    exact calm (.inl ⟨trim inner,(phantomQuotes contracted _).mpr ⟨inner,member,rfl⟩,by simpa using missing⟩)
  · rintro every (⟨quote,member,missing⟩ | ⟨⟨date,none_,_⟩,_⟩ | ⟨hit,none_,_⟩)
    · obtain ⟨inner,inside,rfl⟩ := (phantomQuotes contracted quote).mp member
      rw [(found _).mpr (every inner inside)] at missing
      contradiction
    · exact absurd none_ List.not_mem_nil
    · exact absurd none_ List.not_mem_nil

theorem onePossessive : judgeClause basicLatin (js "Alice's dog barks") [js "Nothing of it"] ≠ .refuted :=
  (apostrophesRefute basicLatin (js "Alice's dog barks") [js "Nothing of it"] ⟨by decide,by decide,by decide⟩).mpr
    (by decide)

/- A possessive and a contraction: the text between them is refuted as a quotation. -/
theorem possessiveAndContraction :
    Contracted (js "Al's dog won't bark") ∧
    judgeClause basicLatin (js "Al's dog won't bark") [js "Al's dog will not bark"] = .refuted := by
  constructor
  · exact ⟨by decide,by decide,by decide⟩
  · decide

end Northstar.Agent.Verifier
