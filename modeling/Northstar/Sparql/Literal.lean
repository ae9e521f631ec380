import Northstar.Utf8

/-! String literals of SPARQL in double quotes, and the regular expressions without operators that
REGEX reads from their values: case aside, a text, with escapes that stand for one character each. -/
namespace Northstar.Sparql

/- ECHAR. -/
def echar (u : UInt16) : Option UInt16 :=
  if u = 34 ∨ u = 39 ∨ u = 92 then some u
  else if u = 116 then some 9
  else if u = 98 then some 8
  else if u = 110 then some 10
  else if u = 114 then some 13
  else if u = 102 then some 12
  else none

/- STRING_LITERAL2 after its opening quote: the value and what is left. -/
def literalRest : JsString → Option (JsString × JsString)
  | [] => none
  | u :: rest =>
      if u = 34 then some ([],rest)
      else if u = 10 ∨ u = 13 then none
      else if u = 92 then match rest with
        | [] => none
        | escaped :: more => match echar escaped with
            | none => none
            | some unit => (literalRest more).map fun read => (unit :: read.1,read.2)
      else (literalRest rest).map fun read => (u :: read.1,read.2)
termination_by structural s => s

/- What one character of an expression stands for. -/
inductive Atom where
  | char (point : JsString)
  | cls (letter : UInt16)

def operators : JsString := js ".?*+\x7b\x7d()|[]^$"

def singleEscapes : JsString := js "|.?*+()\x7b\x7d-[]^$" ++ [92]

def classLetters : JsString := js "sSiIcCdDwW"

/- Category escapes and back-references need braces and groups. -/
def regexEscape : JsString → Option Atom
  | [u] =>
      if u = 110 then some (.char [10])
      else if u = 114 then some (.char [13])
      else if u = 116 then some (.char [9])
      else if singleEscapes.contains u then some (.char [u])
      else if classLetters.contains u then some (.cls u)
      else none
  | _ => none

def isOperator : JsString → Bool
  | [u] => operators.contains u
  | _ => false

/- The expression of a value, read point by point; operators are not read here. -/
def regexAtoms : List JsString → Option (List Atom)
  | [] => some []
  | point :: rest =>
      if point = [92] then match rest with
        | [] => none
        | escaped :: more => match regexEscape escaped with
            | none => none
            | some atom => (regexAtoms more).map (atom :: ·)
      else if isOperator point then none
      else (regexAtoms rest).map (.char point :: ·)
termination_by structural s => s

/- Which characters are case variants and which are in a class. -/
structure Letters where
  variant : JsString → JsString → Prop
  inClass : UInt16 → JsString → Prop

variable (letters : Letters)

def Atom.accepts : Atom → JsString → Prop
  | .char point, other => letters.variant point other
  | .cls letter, other => letters.inClass letter other

/- Somewhere in the subject, whatever the case. -/
def Matches (atoms : List Atom) (subject : JsString) : Prop :=
  ∃ before part after, points subject = before ++ part ++ after ∧ List.Forall₂ (Atom.accepts letters) atoms part

def Contains (text subject : JsString) : Prop :=
  ∃ before part after, points subject = before ++ part ++ after ∧ List.Forall₂ letters.variant (points text) part

theorem plainAtoms {units : List JsString} (plain : ∀ point ∈ units, point ≠ [92] ∧ isOperator point = false) :
    regexAtoms units = some (units.map .char) := by
  induction units with
  | nil => rfl
  | cons point rest ih =>
    obtain ⟨single,operand⟩ := plain point List.mem_cons_self
    rw [regexAtoms.eq_def]
    dsimp only
    rw [if_neg single,operand,if_neg Bool.false_ne_true,ih fun p later => plain p (List.mem_cons_of_mem _ later)]
    rfl

theorem plainMatches (text subject : JsString) : Matches letters ((points text).map .char) subject ↔ Contains letters text subject := by
  unfold Matches Contains
  simp only [List.forall₂_map_left_iff]
  rfl

/- Every escape takes two characters to say one. -/
theorem atomsShorter {units : List JsString} {atoms : List Atom} (read : regexAtoms units = some atoms) :
    atoms.length ≤ units.length ∧ ([92] ∈ units → atoms.length < units.length) := by
  induction units using regexAtoms.induct generalizing atoms with
  | case1 =>
    cases read
    exact ⟨Nat.le_refl 0,fun member => absurd member List.not_mem_nil⟩
  | case2 => contradiction
  | case3 escaped more none_ =>
    rw [regexAtoms.eq_def] at read
    dsimp only at read
    rw [if_pos rfl,none_] at read
    contradiction
  | case4 escaped more atom some_ ih =>
    rw [regexAtoms.eq_def] at read
    dsimp only at read
    rw [if_pos rfl,some_] at read
    obtain ⟨later,rest,rfl⟩ := Option.map_eq_some_iff.mp read
    have few := (ih rest).1
    simp only [List.length_cons]
    exact ⟨by omega,fun _ => by omega⟩
  | case5 point rest plain operator =>
    rw [regexAtoms.eq_def] at read
    dsimp only at read
    rw [if_neg plain,operator,if_pos rfl] at read
    contradiction
  | case6 point rest plain operand ih =>
    rw [regexAtoms.eq_def] at read
    dsimp only at read
    rw [if_neg plain,if_neg operand] at read
    obtain ⟨later,more,rfl⟩ := Option.map_eq_some_iff.mp read
    obtain ⟨few,fewer⟩ := ih more
    simp only [List.length_cons]
    refine ⟨by omega,fun member => ?_⟩
    rcases List.mem_cons.mp member with same | inside
    · exact absurd same.symm plain
    · have := fewer inside
      omega

/- A character that every class letter stands for. -/
def classSample (letter : UInt16) : UInt16 :=
  if letter = 100 then 48 else if (js "sWIC").contains letter then 32 else 97

/- Letters are variants of themselves, and classes hold their samples. -/
structure Lawful (letters : Letters) : Prop where
  variant : ∀ point, letters.variant point point
  sampled : ∀ letter ∈ classLetters, letters.inClass letter [classSample letter]

def Atom.sample : Atom → JsString
  | .char point => point
  | .cls letter => [classSample letter]

/- A character of its own. -/
structure Solid (point : JsString) : Prop where
  alone : points point = [point]
  apart : clean point
  char : (pointChar point).isSome

theorem solidUnit {u : UInt16} (plain : surrogate u = false) : Solid [u] :=
  ⟨rfl,cleanEnd [] (plainNotHigh plain),by rw [pointChar,plain]; rfl⟩

theorem singlesPlain : singleEscapes.all (fun u => !surrogate u) = true := by
  decide

theorem samplesPlain : classLetters.all (fun u => !surrogate (classSample u)) = true := by
  decide

theorem escapeSample {letters : Letters} (lawful : Lawful letters) {escaped : JsString} {atom : Atom} (read : regexEscape escaped = some atom) :
    Solid atom.sample ∧ atom.accepts letters atom.sample := by
  unfold regexEscape at read
  split at read
  · rename_i u
    split at read
    · cases read; exact ⟨solidUnit rfl,lawful.variant _⟩
    · split at read
      · cases read; exact ⟨solidUnit rfl,lawful.variant _⟩
      · split at read
        · cases read; exact ⟨solidUnit rfl,lawful.variant _⟩
        · split at read
          · rename_i single
            cases read
            exact ⟨solidUnit (by simpa using List.all_eq_true.mp singlesPlain u (List.contains_iff_mem.mp single)),lawful.variant _⟩
          · split at read
            · rename_i cls
              cases read
              have member := List.contains_iff_mem.mp cls
              exact ⟨solidUnit (by simpa using List.all_eq_true.mp samplesPlain u member),lawful.sampled u member⟩
            · contradiction
  · contradiction

theorem atomsSampled {letters : Letters} (lawful : Lawful letters) {units : List JsString} (solid : ∀ point ∈ units, Solid point)
    {atoms : List Atom} (read : regexAtoms units = some atoms) :
    ∀ atom ∈ atoms, Solid atom.sample ∧ atom.accepts letters atom.sample := by
  induction units using regexAtoms.induct generalizing atoms with
  | case1 =>
    cases read
    exact fun _ member => absurd member List.not_mem_nil
  | case2 => contradiction
  | case3 escaped more none_ =>
    rw [regexAtoms.eq_def] at read
    dsimp only at read
    rw [if_pos rfl,none_] at read
    contradiction
  | case4 escaped more atom some_ ih =>
    rw [regexAtoms.eq_def] at read
    dsimp only at read
    rw [if_pos rfl,some_] at read
    obtain ⟨later,rest,rfl⟩ := Option.map_eq_some_iff.mp read
    intro a member
    rcases List.mem_cons.mp member with rfl | inside
    · exact escapeSample lawful some_
    · exact ih (fun p after => solid p (List.mem_cons_of_mem _ (List.mem_cons_of_mem _ after))) rest a inside
  | case5 point rest plain operator =>
    rw [regexAtoms.eq_def] at read
    dsimp only at read
    rw [if_neg plain,operator,if_pos rfl] at read
    contradiction
  | case6 point rest plain operand ih =>
    rw [regexAtoms.eq_def] at read
    dsimp only at read
    rw [if_neg plain,if_neg operand] at read
    obtain ⟨later,more,rfl⟩ := Option.map_eq_some_iff.mp read
    intro a member
    rcases List.mem_cons.mp member with rfl | inside
    · exact ⟨solid point List.mem_cons_self,lawful.variant _⟩
    · exact ih (fun p after => solid p (List.mem_cons_of_mem _ after)) more a inside

theorem sampleMatched {letters : Letters} {atoms : List Atom}
    (each : ∀ atom ∈ atoms, Solid atom.sample ∧ atom.accepts letters atom.sample) :
    ∃ subject, Utf8.wellFormed subject ∧ (points subject).length = atoms.length ∧ Matches letters atoms subject := by
  have parts : points (atoms.map Atom.sample).flatten = atoms.map Atom.sample := by
    refine pointsBuild fun point member => ?_
    obtain ⟨atom,inside,rfl⟩ := List.mem_map.mp member
    exact ⟨(each atom inside).1.alone,(each atom inside).1.apart⟩
  refine ⟨(atoms.map Atom.sample).flatten,fun point member => ?_,?_,[],atoms.map Atom.sample,[],?_,?_⟩
  · rw [parts] at member
    obtain ⟨atom,inside,rfl⟩ := List.mem_map.mp member
    exact (each atom inside).1.char
  · rw [parts,List.length_map]
  · rw [parts,List.nil_append,List.append_nil]
  · rw [List.forall₂_map_right_iff]
    exact List.forall₂_same.mpr fun atom inside => (each atom inside).2

theorem containedLength {letters : Letters} {text subject : JsString} (inside : Contains letters text subject) :
    (points text).length ≤ (points subject).length := by
  obtain ⟨before,part,after,whole,each⟩ := inside
  rw [whole,each.length_eq]
  simp only [List.length_append]
  omega

/- With a backslash an expression is not what its text says. -/
theorem escapedApart {letters : Letters} (lawful : Lawful letters) {text : JsString} (well : Utf8.wellFormed text)
    (escaped : [92] ∈ points text) {atoms : List Atom} (read : regexAtoms (points text) = some atoms) :
    ∃ subject, Utf8.wellFormed subject ∧ Matches letters atoms subject ∧ ¬Contains letters text subject := by
  have solid : ∀ point ∈ points text, Solid point := fun point member =>
    have ⟨apart,alone⟩ := Utf8.pointAlone member (well point member)
    ⟨alone,apart,well point member⟩
  obtain ⟨subject,whole,size,matched⟩ := sampleMatched (atomsSampled lawful solid read)
  refine ⟨subject,whole,matched,fun inside => ?_⟩
  have long := containedLength inside
  have short := (atomsShorter read).2 escaped
  omega

end Northstar.Sparql
