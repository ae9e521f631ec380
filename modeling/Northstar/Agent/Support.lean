import Northstar.Agent.Verifier

/-! What a verdict of the deterministic rung says about the excerpts: a supported clause has
each of its values in them, by containment in the stripped text, and a quotation that is in
an excerpt word for word is refuted where the stripping reaches into it. -/
namespace Northstar.Agent.Verifier

variable (unicode : Unicode)

/- A digit next to a cut of the text, or behind a point or comma next to it. -/
def digitNext : JsString → Bool
  | u :: v :: _ => digit u || ((u == 46 || u == 44) && digit v)
  | [u] => digit u
  | [] => false

/- A part of a text with what stands before and after it. -/
structure Part where
  before : JsString
  part : JsString
  after : JsString

def parts (text : JsString) : List Part :=
  (List.range (text.length + 1)).flatMap fun i => (List.range (text.length + 1 - i)).map fun n =>
    ⟨text.take i,(text.drop i).take n,text.drop (i + n)⟩

/- No number goes on over either end of the part. -/
def Part.bounded (p : Part) : Bool :=
  !(p.part.head?.any digit && digitNext p.before.reverse) && !(p.part.getLast?.any digit && digitNext p.after)

/- The token stands in the text, up to its spelling, as a number of its own. -/
def occursWhole (token text : JsString) : Bool :=
  (parts text).any fun p => p.bounded && (numeral p.part).all (fun u => !whiteSpace u) &&
    normalizeNumericToken unicode p.part == normalizeNumericToken unicode token

/- Every value of the clause is contained in some stripped excerpt. -/
structure ValuesFound (clause : JsString) (excerpts : List JsString) : Prop where
  quotes : ∀ quote ∈ quotesOf clause, quoteFound excerpts quote
  dates : ∀ date ∈ datesOf clause, dateFound excerpts date
  numbers : ∀ hit ∈ collectNumberHits clause, numberFound unicode excerpts hit.raw

def valueTokens (clause : JsString) : List JsString := (extractValueTokens clause).numbers ++ (extractValueTokens clause).dates

/- Where the verdict supports a number it did not find: each value is contained in the
excerpts, in their first 200 units too where one is longer, and a number or date of the
clause is in none of them as a number of its own. -/
structure Misread (clause : JsString) (excerpts : List JsString) : Prop where
  found : ValuesFound unicode clause excerpts
  visible : (∃ excerpt ∈ excerpts, 200 < excerpt.length) → ValuesFound unicode clause (truncated excerpts)
  inside : ∃ token ∈ valueTokens clause, ∀ excerpt ∈ excerpts, occursWhole unicode token excerpt = false

theorem noneMissing {α : Type} {found : α → Bool} {list : List α} :
    (list.filter fun x => !found x).isEmpty ↔ ∀ x ∈ list, found x := by
  rw [List.isEmpty_iff,List.filter_eq_nil_iff]
  constructor
  · intro none x member
    simpa using none x member
  · intro every x member
    simpa using every x member

variable {unicode}

theorem judgeRefuted {clause : JsString} {excerpts : List JsString} {invisible : Bool} :
    judgeWith unicode clause excerpts invisible = .refuted ↔
      (∃ quote ∈ quotesOf clause, quoteFound excerpts quote = false) ∨
      ((∃ date ∈ datesOf clause, dateFound excerpts date = false) ∧ ∃ excerpt ∈ excerpts, (datesOf excerpt).isEmpty = false) ∨
      ∃ hit ∈ collectNumberHits clause, numberFound unicode excerpts hit.raw = false ∧
        numbersConflict unicode clause hit.raw hit.index excerpts := by
  have quotes : ((quotesOf clause).any fun quote => !quoteFound excerpts quote) = true ↔
      ∃ quote ∈ quotesOf clause, quoteFound excerpts quote = false := by
    simp only [List.any_eq_true,Bool.not_eq_true']
  have dates : (!((datesOf clause).filter fun date => !dateFound excerpts date).isEmpty &&
      excerpts.any fun excerpt => !(datesOf excerpt).isEmpty) = true ↔
      (∃ date ∈ datesOf clause, dateFound excerpts date = false) ∧ ∃ excerpt ∈ excerpts, (datesOf excerpt).isEmpty = false := by
    rw [Bool.and_eq_true,Bool.not_eq_true',← Bool.not_eq_true,noneMissing]
    simp only [List.any_eq_true,Bool.not_eq_true',not_forall,Bool.not_eq_true,exists_prop]
  have numbers : (((collectNumberHits clause).filter fun hit => !numberFound unicode excerpts hit.raw).any fun hit =>
      numbersConflict unicode clause hit.raw hit.index excerpts) = true ↔
      ∃ hit ∈ collectNumberHits clause, numberFound unicode excerpts hit.raw = false ∧
        numbersConflict unicode clause hit.raw hit.index excerpts := by
    simp only [List.any_eq_true,List.mem_filter,Bool.not_eq_true',and_assoc]
  rw [← quotes,← dates,← numbers]
  unfold judgeWith
  dsimp only [extractValueTokens]
  split
  · rename_i here
    exact iff_of_true rfl (.inl here)
  rename_i noQuote
  split
  · rename_i here
    exact iff_of_true rfl (.inr (.inl here))
  rename_i noDate
  split
  · rename_i here
    exact iff_of_true rfl (.inr (.inr here))
  rename_i noNumber
  refine iff_of_false ?_ ?_
  · split
    · split
      · exact nofun
      · split <;> exact nofun
    · split <;> exact nofun
  · intro one
    cases one with
    | inl here => exact noQuote here
    | inr later =>
      cases later with
      | inl here => exact noDate here
      | inr here => exact noNumber here

/- A clause that has values is supported when all of them are found, nothing else. -/
theorem judgeSupported {clause : JsString} {excerpts : List JsString} {invisible : Bool} (values : valueTokens clause ≠ []) :
    judgeWith unicode clause excerpts invisible = .supported ↔ ValuesFound unicode clause excerpts ∧ invisible = false := by
  have some : (!(collectNumberHits clause).isEmpty || !(quotesOf clause).isEmpty || !(datesOf clause).isEmpty) = true := by
    by_contra none
    simp only [Bool.or_eq_true,Bool.not_eq_true',not_or,Bool.not_eq_false,List.isEmpty_iff] at none
    apply values
    unfold valueTokens extractValueTokens
    dsimp only
    rw [none.1.1,none.2]
    rfl
  constructor
  · intro supported
    have calm : judgeWith unicode clause excerpts invisible ≠ .refuted := by
      rw [supported]
      exact nofun
    rw [Ne,judgeRefuted,not_or,not_or] at calm
    have quotes : ∀ quote ∈ quotesOf clause, quoteFound excerpts quote := by
      intro quote member
      by_contra missing
      exact calm.1 ⟨quote,member,by simpa using missing⟩
    unfold judgeWith at supported
    dsimp only [extractValueTokens] at supported
    split at supported
    · contradiction
    split at supported
    · contradiction
    split at supported
    · contradiction
    split at supported
    · contradiction
    rename_i missing
    split at supported
    · contradiction
    rename_i visible
    rw [Bool.or_eq_true,Bool.not_eq_true',Bool.not_eq_true',not_or,Bool.not_eq_false,Bool.not_eq_false] at missing
    exact ⟨⟨quotes,noneMissing.mp missing.1,noneMissing.mp missing.2⟩,by simpa using visible⟩
  · intro found
    obtain ⟨⟨quotes,dates,numbers⟩,rfl⟩ := found
    unfold judgeWith
    dsimp only [extractValueTokens]
    rw [if_neg,if_neg,if_neg,if_pos some,if_neg,if_neg Bool.false_ne_true]
    · rw [noneMissing.mpr dates,noneMissing.mpr numbers]
      exact Bool.false_ne_true
    · rw [List.isEmpty_iff.mp (noneMissing.mpr numbers)]
      exact Bool.false_ne_true
    · rw [noneMissing.mpr dates]
      exact Bool.false_ne_true
    · rw [List.any_eq_true]
      intro one
      obtain ⟨quote,member,missing⟩ := one
      rw [quotes quote member] at missing
      contradiction

theorem clauseSupported {clause : JsString} {excerpts : List JsString} (values : valueTokens clause ≠ []) :
    judgeClause unicode clause excerpts = .supported ↔ ValuesFound unicode clause excerpts ∧
      ((∃ excerpt ∈ excerpts, 200 < excerpt.length) → ValuesFound unicode clause (truncated excerpts)) := by
  unfold judgeClause
  rw [judgeSupported values]
  refine and_congr_right fun _ => ?_
  rw [Bool.and_eq_false_iff]
  have long : (excerpts.any (200 < ·.length)) = false ↔ ¬ ∃ excerpt ∈ excerpts, 200 < excerpt.length := by
    rw [← Bool.not_eq_true,List.any_eq_true]
    simp only [decide_eq_true_eq]
  rw [long,bne_eq_false_iff_eq,judgeSupported values]
  constructor
  · intro either there
    cases either with
    | inl short => exact absurd there short
    | inr found => exact found.1
  · intro seen
    by_cases there : ∃ excerpt ∈ excerpts, 200 < excerpt.length
    · exact .inr ⟨seen there,rfl⟩
    · exact .inl there

variable (unicode)

/-- Each number and date of a supported clause stands in a cited excerpt as a number of its own,
unless the excerpts contain all values of the clause and one of them only inside other numbers. -/
theorem numericSupport (clause : JsString) (excerpts : List JsString) :
    (judgeClause unicode clause excerpts = .supported →
      ∀ token ∈ valueTokens clause, ∃ excerpt ∈ excerpts, occursWhole unicode token excerpt) ↔
    ¬ Misread unicode clause excerpts := by
  constructor
  · intro sound misread
    obtain ⟨token,member,nowhere⟩ := misread.inside
    have values : valueTokens clause ≠ [] := List.ne_nil_of_mem member
    obtain ⟨excerpt,cited,whole⟩ := sound ((clauseSupported values).mpr ⟨misread.found,misread.visible⟩) token member
    rw [nowhere excerpt cited] at whole
    contradiction
  · intro fine supported token member
    obtain ⟨found,visible⟩ := (clauseSupported (List.ne_nil_of_mem member)).mp supported
    by_contra nowhere
    refine fine ⟨found,visible,token,member,?_⟩
    intro excerpt cited
    by_contra whole
    exact nowhere ⟨excerpt,cited,by simpa using whole⟩

def basicLatin : Unicode where
  toLowerCase := fun text => text.map fun u => if upperLetter u then u + 32 else u
  letterOrNumber := fun point => point.all fun u => digit u || lowerLetter u || upperLetter u

theorem fiftyOfOneHundredFifty :
    judgeClause basicLatin (js "Growth was 50%") [js "Growth was 150%"] = .supported ∧
    js "50%" ∈ valueTokens (js "Growth was 50%") ∧
    occursWhole basicLatin (js "50%") (js "Growth was 150%") = false := by
  decide

theorem includesIff {text part : JsString} : includes text part = true ↔ part <:+: text := by
  unfold includes
  exact decide_eq_true_iff

theorem trimInfix (text : JsString) : trim text <:+: text := by
  unfold trim
  have back : ((text.dropWhile whiteSpace).reverse.dropWhile whiteSpace).reverse <+: text.dropWhile whiteSpace :=
    List.reverse_suffix.mp (by simpa using List.dropWhile_suffix whiteSpace)
  exact back.isInfix.trans (List.dropWhile_suffix whiteSpace).isInfix

/- Only commas are taken out, so a start without commas stays. -/
theorem strippedPrefix {text start : JsString} (plain : 44 ∉ start) (here : start <+: text) :
    start <+: normalizeTextNumbers text := by
  fun_induction normalizeTextNumbers text generalizing start with
  | case1 a b rest digits ih =>
    cases start with
    | nil => exact List.nil_prefix
    | cons u more =>
      obtain ⟨rfl,next⟩ := List.cons_prefix_cons.mp here
      cases more with
      | nil => exact ⟨_,rfl⟩
      | cons comma _ =>
        obtain ⟨rfl,_⟩ := List.cons_prefix_cons.mp next
        exact absurd (List.mem_cons_of_mem _ List.mem_cons_self) plain
  | case2 a b rest apart ih =>
    cases start with
    | nil => exact List.nil_prefix
    | cons u more =>
      obtain ⟨rfl,next⟩ := List.cons_prefix_cons.mp here
      exact List.cons_prefix_cons.mpr ⟨rfl,ih (fun later => plain (List.mem_cons_of_mem _ later)) next⟩
  | case3 a rest shape ih =>
    cases start with
    | nil => exact List.nil_prefix
    | cons u more =>
      obtain ⟨rfl,next⟩ := List.cons_prefix_cons.mp here
      exact List.cons_prefix_cons.mpr ⟨rfl,ih (fun later => plain (List.mem_cons_of_mem _ later)) next⟩
  | case4 => exact here

theorem strippedInfix {text part : JsString} (plain : 44 ∉ part) (here : part <:+: text) :
    part <:+: normalizeTextNumbers text := by
  fun_induction normalizeTextNumbers text with
  | case1 a b rest digits ih =>
    cases List.infix_cons_iff.mp here with
    | inl first =>
      have kept := strippedPrefix plain first
      rw [normalizeTextNumbers,if_pos digits] at kept
      exact kept.isInfix
    | inr later =>
      cases List.infix_cons_iff.mp later with
      | inl comma =>
        cases part with
        | nil => exact List.nil_infix
        | cons u more =>
          obtain ⟨rfl,_⟩ := List.cons_prefix_cons.mp comma
          exact absurd List.mem_cons_self plain
      | inr deeper =>
        cases List.infix_cons_iff.mp deeper with
        | inl second =>
          cases part with
          | nil => exact List.nil_infix
          | cons u more =>
            obtain ⟨rfl,next⟩ := List.cons_prefix_cons.mp second
            have kept := strippedPrefix (fun later => plain (List.mem_cons_of_mem _ later)) next
            exact (List.cons_prefix_cons.mpr ⟨rfl,kept⟩).isInfix.trans (List.suffix_cons a _).isInfix
        | inr rest => exact (ih rest).trans ((List.suffix_cons b _).trans (List.suffix_cons a _)).isInfix
  | case2 a b rest apart ih =>
    cases List.infix_cons_iff.mp here with
    | inl first =>
      have kept := strippedPrefix plain first
      rw [normalizeTextNumbers,if_neg apart] at kept
      exact kept.isInfix
    | inr later => exact (ih later).trans (List.suffix_cons a _).isInfix
  | case3 a rest shape ih =>
    cases List.infix_cons_iff.mp here with
    | inl first =>
      have kept := strippedPrefix plain first
      rw [normalizeTextNumbers] at kept
      · exact kept.isInfix
      · exact shape
    | inr later => exact (ih later).trans (List.suffix_cons a _).isInfix
  | case4 => exact here

/-- A clause that quotes a cited excerpt and has no value outside the quotation is not refuted just
when the excerpt still has the quotation after its commas between digits are gone, as it has every
quotation without a comma, and no number of the quotation is lost to one in the same slot. -/
theorem verbatimQuote (clause excerpt q : JsString) (verbatim : q <:+: excerpt) (quote : quotesOf clause = [trim q])
    (inside : ∀ token ∈ valueTokens clause, token <:+: trim q) :
    (judgeClause unicode clause [excerpt] ≠ .refuted ↔
      trim q <:+: normalizeTextNumbers excerpt ∧ ∀ hit ∈ collectNumberHits clause,
        numberFound unicode [excerpt] hit.raw = false →
          numbersConflict unicode clause hit.raw hit.index [excerpt] = false) ∧
    (44 ∉ trim q → trim q <:+: normalizeTextNumbers excerpt) := by
  refine ⟨?_,fun plain => strippedInfix plain ((trimInfix q).trans verbatim)⟩
  have quoted : quoteFound [excerpt] (trim q) = true ↔ trim q <:+: normalizeTextNumbers excerpt := by
    rw [← includesIff]
    unfold quoteFound
    rw [List.map_singleton,List.any_cons,List.any_nil,Bool.or_false]
  unfold judgeClause
  rw [Ne,judgeRefuted,not_or,not_or,quote]
  constructor
  · intro calm
    have kept := calm.1
    refine ⟨?_,?_⟩
    · by_contra lost
      exact kept ⟨_,List.mem_singleton_self _,by rw [← Bool.not_eq_true,quoted]; exact lost⟩
    · intro hit member missing
      by_contra conflict
      exact calm.2.2 ⟨hit,member,missing,by simpa using conflict⟩
  · intro fine
    obtain ⟨kept,apart⟩ := fine
    refine ⟨?_,?_,?_⟩
    · intro one
      obtain ⟨other,member,missing⟩ := one
      rw [List.mem_singleton.mp member,quoted.mpr kept] at missing
      contradiction
    · -- a date in the quotation is in the excerpt with it
      intro one
      obtain ⟨⟨date,member,missing⟩,_⟩ := one
      have there : dateFound [excerpt] date = true := by
        unfold dateFound
        rw [List.map_singleton,List.any_cons,List.any_nil,Bool.or_false,includesIff]
        exact (inside date (List.mem_append_right _ member)).trans kept
      rw [there] at missing
      contradiction
    · intro one
      obtain ⟨hit,member,missing,conflict⟩ := one
      rw [apart hit member missing] at conflict
      contradiction

theorem quotedPrice : judgeClause basicLatin (js "It says \"costs 12 dollars\"") [js "It costs 12 dollars per seat."] ≠ .refuted :=
  (verbatimQuote basicLatin (js "It says \"costs 12 dollars\"") (js "It costs 12 dollars per seat.") (js "costs 12 dollars")
    (by decide) (by decide) (by decide)).1.mpr (by decide)

/- A quotation with a comma between digits is refuted, be it in a number or in a name. -/
theorem quotationRefuted :
    (js "costs 1,299 dollars" <:+: js "It costs 1,299 dollars per seat." ∧
      quotesOf (js "It says \"costs 1,299 dollars\"") = [js "costs 1,299 dollars"] ∧
      judgeClause basicLatin (js "It says \"costs 1,299 dollars\"") [js "It costs 1,299 dollars per seat."] = .refuted) ∧
    js "model a1,2b" <:+: js "This is model a1,2b." ∧
      extractValueTokens (js "It says \"model a1,2b\"") = ⟨[],[js "model a1,2b"],[]⟩ ∧
      judgeClause basicLatin (js "It says \"model a1,2b\"") [js "This is model a1,2b."] = .refuted := by
  decide

end Northstar.Agent.Verifier
