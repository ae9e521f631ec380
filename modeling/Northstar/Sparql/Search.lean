import Northstar.Sparql.Literal

/-! The schema view that searches types by name: what it asks the endpoint and what the text of the
search becomes there. -/
namespace Northstar.Sparql

/- .*+?^${}()|[]\" -/
def regexSpecial (u : UInt16) : Bool :=
  u = 46 || u = 42 || u = 43 || u = 63 || u = 94 || u = 36 || u = 123 || u = 125 || u = 40 || u = 41 || u = 124 ||
    u = 91 || u = 93 || u = 92 || u = 34

def escapeRegexLiteral (value : JsString) : JsString :=
  value.flatMap fun u => if regexSpecial u then [92,u] else [u]

def searchBefore : JsString := js "SELECT DISTINCT ?type WHERE \x7b ?s a ?type . FILTER(REGEX(STR(?type), \""

def searchAfter : JsString := js ", \"i\")) \x7d LIMIT 20"

def searchDiscoveryQuery (query : JsString) : JsString :=
  searchBefore ++ escapeRegexLiteral query ++ 34 :: searchAfter

structure ViewInput where
  name : Option JsString
  query : Option JsString

/- fetchSparqlSchemaView for the view search: the message of invalid_input, or what runSparql gets. -/
def searchRequest (input : ViewInput) : Except JsString JsString :=
  if input.name.isSome then .error (js "view search accepts no name selector")
  else match input.query with
    | none => .error (js "view search requires a non-empty query")
    | some query =>
        if trim query = [] then .error (js "view search requires a non-empty query")
        else .ok (searchDiscoveryQuery (trim query))

/- The request reads as the fixed query around one literal, whose value is an expression for the text. -/
def ReadsAs (letters : Letters) (text sent : JsString) : Prop :=
  ∃ rest value atoms, sent = searchBefore ++ rest ∧ literalRest rest = some (value,searchAfter) ∧ Utf8.wellFormed value ∧
    regexAtoms (points value) = some atoms ∧
    ∀ subject, Utf8.wellFormed subject → (Matches letters atoms subject ↔ Contains letters text subject)

/- A line break ends a literal, and a backslash before anything but a quote or itself is no escape there. -/
def legalEscaped (u : UInt16) : Bool :=
  u != 10 && u != 13 && (!regexSpecial u || u == 34 || u == 92)

theorem literalEscaped (text rest : JsString) :
    literalRest (escapeRegexLiteral text ++ 34 :: rest) = if text.all legalEscaped then some (text,rest) else none := by
  induction text with
  | nil =>
    rw [escapeRegexLiteral,List.flatMap_nil,List.nil_append,literalRest.eq_def]
    rfl
  | cons u more ih =>
    cases special : regexSpecial u with
    | false =>
      have quote : u ≠ 34 := fun same => by subst same; exact absurd special (by decide)
      have slash : u ≠ 92 := fun same => by subst same; exact absurd special (by decide)
      have shown : escapeRegexLiteral (u :: more) = u :: escapeRegexLiteral more := by
        rw [escapeRegexLiteral,List.flatMap_cons,special]
        rfl
      rw [shown,List.cons_append,literalRest.eq_def]
      dsimp only
      rw [if_neg quote,ih,List.all_cons]
      by_cases line : u = 10 ∨ u = 13
      · have illegal : legalEscaped u = false := by
          rcases line with rfl | rfl <;> decide
        rw [if_pos line,illegal,Bool.false_and,if_neg Bool.false_ne_true]
      · have legal : legalEscaped u = true := by
          rw [not_or] at line
          simp [legalEscaped,special,line.1,line.2]
        rw [if_neg line,if_neg slash,legal,Bool.true_and]
        cases more.all legalEscaped <;> rfl
    | true =>
      have shown : escapeRegexLiteral (u :: more) = 92 :: u :: escapeRegexLiteral more := by
        rw [escapeRegexLiteral,List.flatMap_cons,special]
        rfl
      rw [shown,List.cons_append,List.cons_append,literalRest.eq_def]
      dsimp only
      rw [if_neg (by decide),if_neg (by decide),if_pos rfl,ih,List.all_cons]
      by_cases same : u = 34 ∨ u = 92
      · have read : echar u = some u := if_pos (same.imp_right .inr)
        have legal : legalEscaped u = true := by
          rcases same with rfl | rfl <;> decide
        rw [read,legal,Bool.true_and]
        cases more.all legalEscaped <;> rfl
      · have illegal : legalEscaped u = false := by
          rw [not_or] at same
          simp [legalEscaped,special,same.1,same.2]
        have unread : echar u = none := by
          have operand : u ≠ 39 ∧ u ≠ 116 ∧ u ≠ 98 ∧ u ≠ 110 ∧ u ≠ 114 ∧ u ≠ 102 := by
            refine ⟨?_,?_,?_,?_,?_,?_⟩ <;> exact fun is_ => by subst is_; exact absurd special (by decide)
          rw [not_or] at same
          simp [echar,same,operand]
        rw [unread,illegal,Bool.false_and,if_neg Bool.false_ne_true]

/- What the search stands by: no lone surrogate, no line break and nothing to escape but quotes. -/
def plainSearch (text : JsString) : Prop :=
  Utf8.wellFormed text ∧ ∀ u ∈ text, u ≠ 10 ∧ u ≠ 13 ∧ (regexSpecial u → u = 34)

theorem unitAlone {u : UInt16} (plain : surrogate u = false) {text : JsString} (inside : u ∈ text) : [u] ∈ points text := by
  obtain ⟨point,member,within⟩ := List.mem_flatten.mp (pointsFlatten text ▸ inside)
  rcases pointShape member with ⟨v,rfl⟩ | ⟨v,w,rfl,high,low⟩
  · rw [List.mem_singleton.mp within]
    exact member
  · rcases List.mem_cons.mp within with rfl | last
    · rw [surrogateHigh high] at plain
      contradiction
    · rw [List.mem_singleton.mp last,surrogateLow low] at plain
      contradiction

theorem operatorsSpecial : operators.all (fun u => regexSpecial u && u != 34) = true := by
  decide

theorem plainRead {text : JsString} (plain : plainSearch text) : regexAtoms (points text) = some ((points text).map .char) := by
  refine plainAtoms fun point member => ?_
  have inside : ∀ u, point = [u] → regexSpecial u → u = 34 := by
    rintro u rfl
    have within : u ∈ (points text).flatten := List.mem_flatten.mpr ⟨[u],member,List.mem_cons_self⟩
    exact (plain.2 u (pointsFlatten text ▸ within)).2.2
  refine ⟨?_,?_⟩
  · rintro rfl
    exact absurd (inside 92 rfl (by decide)) (by decide)
  · rcases pointShape member with ⟨u,rfl⟩ | ⟨u,v,rfl,-,-⟩
    · cases operator : isOperator [u] with
      | false => rfl
      | true =>
        have special := List.all_eq_true.mp operatorsSpecial u (List.contains_iff_mem.mp operator)
        simp only [Bool.and_eq_true,bne_iff_ne] at special
        exact absurd (inside u rfl special.1) special.2
    · rfl

/-- The search means its text exactly when nothing in it takes both escapes. -/
theorem searchExact {letters : Letters} (lawful : Lawful letters) {input : ViewInput} {query sent : JsString}
    (asked : input.query = some query) (made : searchRequest input = .ok sent) :
    ReadsAs letters (trim query) sent ↔ plainSearch (trim query) := by
  have shape : sent = searchBefore ++ (escapeRegexLiteral (trim query) ++ 34 :: searchAfter) := by
    unfold searchRequest at made
    split at made
    · cases made
    · rw [asked] at made
      dsimp only at made
      split at made
      · cases made
      · rw [← Except.ok.inj made,searchDiscoveryQuery,List.append_assoc]
  have literal := literalEscaped (trim query) searchAfter
  constructor
  · rintro ⟨rest,value,atoms,whole,read,well,expression,exact_⟩
    rw [shape] at whole
    rw [← List.append_cancel_left whole,literal] at read
    split at read
    · rename_i legal
      obtain ⟨rfl,-⟩ := Prod.mk.inj (Option.some.inj read)
      refine ⟨well,fun u inside => ?_⟩
      have each := List.all_eq_true.mp legal u inside
      simp only [legalEscaped,Bool.and_eq_true,bne_iff_ne,Bool.or_eq_true,Bool.not_eq_true',beq_iff_eq] at each
      refine ⟨each.1.1,each.1.2,fun special => ?_⟩
      rcases each.2 with (plain | quote) | slash
      · rw [plain] at special
        contradiction
      · exact quote
      · subst slash
        obtain ⟨subject,whole,matched,missing⟩ := escapedApart lawful well (unitAlone (by decide) inside) expression
        exact absurd ((exact_ subject whole).mp matched) missing
    · contradiction
  · intro plain
    have legal : (trim query).all legalEscaped = true := List.all_eq_true.mpr fun u inside => by
      obtain ⟨feed,return_,quote⟩ := plain.2 u inside
      cases special : regexSpecial u with
      | false => simp [legalEscaped,special,feed,return_]
      | true =>
        rw [quote special]
        rfl
    rw [if_pos legal] at literal
    exact ⟨_,_,_,shape,literal,plain.1,plainRead plain,fun subject _ => plainMatches letters (trim query) subject⟩

def asciiFold (u : UInt16) : UInt16 := if 65 ≤ u ∧ u ≤ 90 then u + 32 else u

def asciiClass (letter u : UInt16) : Bool :=
  let blank := u = 9 || u = 10 || u = 13 || u = 32
  let alpha := 97 ≤ asciiFold u && asciiFold u ≤ 122
  let digit := 48 ≤ u && u ≤ 57
  let symbol := u = 36 || u = 43 || u = 60 || u = 61 || u = 62 || u = 94 || u = 96 || u = 124 || u = 126
  let start := alpha || u = 95 || u = 58
  if letter = 115 then blank
  else if letter = 83 then !blank
  else if letter = 105 then start
  else if letter = 73 then !start
  else if letter = 99 then start || digit || u = 45 || u = 46
  else if letter = 67 then !(start || digit || u = 45 || u = 46)
  else if letter = 100 then digit
  else if letter = 68 then !digit
  else if letter = 119 then alpha || digit || symbol
  else !(alpha || digit || symbol)

def asciiLetters : Letters := ⟨fun point other => point.map asciiFold = other.map asciiFold,
  fun letter other => other.all (asciiClass letter)⟩

theorem asciiSamples : classLetters.all (fun letter => asciiClass letter (classSample letter)) = true := by
  decide

theorem asciiLawful : Lawful asciiLetters :=
  ⟨fun _ => rfl,fun letter member => by
    have holds := List.all_eq_true.mp asciiSamples letter member
    change [classSample letter].all (asciiClass letter) = true
    rw [List.all_cons,holds]
    rfl⟩

theorem personSearched : searchRequest ⟨none,some (js " person")⟩ = .ok (searchDiscoveryQuery (js "person")) ∧
    (ReadsAs asciiLetters (trim (js " person")) (searchDiscoveryQuery (js "person")) ↔ plainSearch (trim (js " person"))) := by
  have made : searchRequest ⟨none,some (js " person")⟩ = .ok (searchDiscoveryQuery (js "person")) := by
    decide
  exact ⟨made,searchExact asciiLawful rfl made⟩

/- \. is no escape of a literal, so the endpoint cannot read the request for a.b. -/
theorem dotIllegal : searchRequest ⟨none,some (js "a.b")⟩ = .ok (searchDiscoveryQuery (js "a.b")) ∧
    searchDiscoveryQuery (js "a.b") = searchBefore ++ (escapeRegexLiteral (js "a.b") ++ 34 :: searchAfter) ∧
    literalRest (escapeRegexLiteral (js "a.b") ++ 34 :: searchAfter) = none ∧
    ¬ReadsAs asciiLetters (js "a.b") (searchDiscoveryQuery (js "a.b")) := by
  have whole : searchDiscoveryQuery (js "a.b") = searchBefore ++ (escapeRegexLiteral (js "a.b") ++ 34 :: searchAfter) :=
    List.append_assoc ..
  have unread : literalRest (escapeRegexLiteral (js "a.b") ++ 34 :: searchAfter) = none := by decide
  refine ⟨by decide,whole,unread,?_⟩
  rintro ⟨rest,value,atoms,sent,read,-⟩
  rw [whole] at sent
  rw [← List.append_cancel_left sent,unread] at read
  contradiction

end Northstar.Sparql
