import Mathlib

/-! Command lines in one string: a run time that splits them to words again, where a quote may stand for itself
behind slashes or doubled within quotes, and a command interpreter that knows every quote for a toggle and puts
values for names between two marks. -/
namespace Northstar.CommandLine
variable {α : Type}

inductive Quoting where
  | outside
  | inside
  | closed
  deriving DecidableEq

/- The words read, the one being read, and the slashes behind it that a quote may still change. -/
structure Reading (α : Type) where
  words : List (List α)
  word : Option (List α)
  quoting : Quoting
  slashes : Nat
  deriving DecidableEq

def Reading.empty : Reading α := ⟨[],none,.outside,0⟩

section Words
variable [DecidableEq α] (slash quote : α) (blank : α → Bool)

namespace Reading

def settled (r : Reading α) (slashes : Nat) : List α := r.word.getD [] ++ List.replicate slashes slash

/- A quote behind an even run of slashes toggles, and stands for itself right behind a closing one. -/
def quoted (r : Reading α) : Reading α :=
  let word := r.settled slash (r.slashes / 2)
  if r.slashes % 2 = 1 then { r with word := some (word ++ [quote]), slashes := 0 }
  else match r.quoting with
    | .outside => { r with word := some word, quoting := .inside, slashes := 0 }
    | .inside => { r with word := some word, quoting := .closed, slashes := 0 }
    | .closed => { r with word := some (word ++ [quote]), quoting := .inside, slashes := 0 }

def reopened : Quoting → Quoting
  | .closed => .outside
  | other => other

def step (r : Reading α) (c : α) : Reading α :=
  if c = slash then { r with word := some (r.word.getD []), quoting := reopened r.quoting, slashes := r.slashes + 1 }
  else if c = quote then r.quoted slash quote
  else if r.quoting ≠ .inside ∧ blank c then match r.word with
    | none => r
    | some _ => ⟨r.words ++ [r.settled slash r.slashes],none,.outside,0⟩
  else { r with word := some (r.settled slash r.slashes ++ [c]), quoting := reopened r.quoting, slashes := 0 }

def finish (r : Reading α) : List (List α) := match r.word with
  | none => r.words
  | some _ => r.words ++ [r.settled slash r.slashes]

end Reading

def readFrom (r : Reading α) (line : List α) : Reading α := line.foldl (Reading.step slash quote blank) r

def readWords (line : List α) : List (List α) := (readFrom slash quote blank .empty line).finish slash

variable {slash quote blank}

theorem readAppend (r : Reading α) (first rest : List α) :
    readFrom slash quote blank r (first ++ rest) = readFrom slash quote blank (readFrom slash quote blank r first) rest :=
  List.foldl_append

theorem readCons (r : Reading α) (c : α) (rest : List α) :
    readFrom slash quote blank r (c :: rest) = readFrom slash quote blank (r.step slash quote blank c) rest := rfl

section Inside
variable (words : List (List α)) (word : List α)

theorem readSlashes (n k : Nat) : readFrom slash quote blank ⟨words,some word,.inside,k⟩ (List.replicate n slash) =
    ⟨words,some word,.inside,k + n⟩ := by
  induction n generalizing k with
  | zero => rfl
  | succ n ih =>
    rw [List.replicate_succ,readCons]
    have turn : Reading.step slash quote blank ⟨words,some word,.inside,k⟩ slash = ⟨words,some word,.inside,k + 1⟩ := by
      rw [Reading.step,if_pos rfl]
      rfl
    rw [turn,ih,Nat.add_right_comm,Nat.add_assoc]

/- Twice as many slashes before a quote say so many slashes, and the quote closes. -/
theorem readClosing (apart : quote ≠ slash) (n : Nat) :
    readFrom slash quote blank ⟨words,some word,.inside,0⟩ (List.replicate (2 * n) slash ++ [quote]) =
      ⟨words,some (word ++ List.replicate n slash),.closed,0⟩ := by
  rw [readAppend,readSlashes,readCons,Reading.step,if_neg apart,if_pos rfl,Reading.quoted]
  dsimp only
  rw [if_neg (by omega),Nat.zero_add,Nat.mul_div_cancel_left n Nat.two_pos]
  rfl

theorem readAgain (apart : quote ≠ slash) : Reading.step slash quote blank ⟨words,some word,.closed,0⟩ quote =
    ⟨words,some (word ++ [quote]),.inside,0⟩ := by
  rw [Reading.step,if_neg apart,if_pos rfl,Reading.quoted]
  simp [Reading.settled]

theorem readOpening (apart : quote ≠ slash) : Reading.step slash quote blank ⟨words,some word,.outside,0⟩ quote =
    ⟨words,some word,.inside,0⟩ := by
  rw [Reading.step,if_neg apart,if_pos rfl,Reading.quoted]
  simp [Reading.settled]

theorem readPlain {c : α} (unslashed : c ≠ slash) (unquoted : c ≠ quote) (n : Nat) :
    readFrom slash quote blank ⟨words,some word,.inside,0⟩ (List.replicate n slash ++ [c]) =
      ⟨words,some (word ++ List.replicate n slash ++ [c]),.inside,0⟩ := by
  rw [readAppend,readSlashes,readCons,Reading.step,if_neg unslashed,if_neg unquoted,if_neg (by simp),Nat.zero_add]
  rfl

/- Right behind a closing quote a unit that is not one stands for itself. -/
theorem readOutside {c : α} (unslashed : c ≠ slash) (unquoted : c ≠ quote) (solid : blank c = false) :
    Reading.step slash quote blank ⟨words,some word,.closed,0⟩ c = ⟨words,some (word ++ [c]),.outside,0⟩ := by
  rw [Reading.step,if_neg unslashed,if_neg unquoted,if_neg (by simp [solid])]
  simp [Reading.settled,Reading.reopened]

theorem readFirst (apart : quote ≠ slash) : Reading.step slash quote blank ⟨words,none,.outside,0⟩ quote =
    ⟨words,some [],.inside,0⟩ := by
  rw [Reading.step,if_neg apart,if_pos rfl,Reading.quoted]
  simp [Reading.settled]

theorem readBlank {c : α} (unslashed : c ≠ slash) (unquoted : c ≠ quote) (blanks : blank c = true) :
    Reading.step slash quote blank ⟨words,some word,.closed,0⟩ c = ⟨words ++ [word],none,.outside,0⟩ := by
  rw [Reading.step,if_neg unslashed,if_neg unquoted,if_pos ⟨nofun,blanks⟩]
  simp [Reading.settled]

end Inside

/- Words that are each read whole from one quote to another are read back from a line that joins them by a blank. -/
theorem readJoined {write : List α → List α} {gap : α} (unslashed : gap ≠ slash) (unquoted : gap ≠ quote) (blanks : blank gap = true)
    (whole : ∀ words word, readFrom slash quote blank ⟨words,none,.outside,0⟩ (write word) = ⟨words,some word,.closed,0⟩)
    (args : List (List α)) : readWords slash quote blank ([gap].intercalate (args.map write)) = args := by
  have finished (words : List (List α)) (word : List α) :
      (Reading.mk words (some word) .closed 0).finish slash = words ++ [word] := by
    simp [Reading.finish,Reading.settled]
  have rest (words : List (List α)) : (readFrom slash quote blank ⟨words,none,.outside,0⟩
      ([gap].intercalate (args.map write))).finish slash = words ++ args := by
    induction args generalizing words with
    | nil => simp [readFrom,Reading.finish]
    | cons arg later ih => cases later with
      | nil =>
        rw [List.map_singleton,List.intercalate_singleton,whole,finished]
      | cons next more =>
        rw [List.map_cons,List.map_cons,List.intercalate_cons_cons,readAppend,readAppend,whole,readCons,
          readBlank words arg unslashed unquoted blanks,← List.map_cons]
        change (readFrom slash quote blank ⟨words ++ [arg],none,.outside,0⟩ _).finish slash = _
        rw [ih,List.append_assoc,List.singleton_append]
  exact rest []

end Words

section Toggles
variable [DecidableEq α] (quote : α)

/- What stands outside of quotes where every quote toggles. -/
def outside : Bool → List α → List α
  | _, [] => []
  | inside, c :: rest =>
      if c = quote then outside (!inside) rest
      else if inside then outside inside rest else c :: outside inside rest

def toggled (inside : Bool) (line : List α) : Bool := line.foldl (fun now c => if c = quote then !now else now) inside

variable {quote}

@[simp]
theorem toggledNil (inside : Bool) : toggled quote inside [] = inside := rfl

@[simp]
theorem toggledCons (inside : Bool) (c : α) (rest : List α) :
    toggled quote inside (c :: rest) = toggled quote (if c = quote then !inside else inside) rest := rfl

theorem outsideAppend (inside : Bool) (first rest : List α) :
    outside quote inside (first ++ rest) = outside quote inside first ++ outside quote (toggled quote inside first) rest := by
  induction first generalizing inside with
  | nil => rfl
  | cons c more ih =>
    rw [List.cons_append,outside,outside,toggledCons]
    split
    · exact ih _
    · split
      · exact ih _
      · rw [ih,List.cons_append]

theorem toggledAppend (inside : Bool) (first rest : List α) :
    toggled quote inside (first ++ rest) = toggled quote (toggled quote inside first) rest := List.foldl_append

theorem toggledFree (inside : Bool) {line : List α} (free : quote ∉ line) : toggled quote inside line = inside := by
  induction line with
  | nil => rfl
  | cons c rest ih =>
    have other : c ≠ quote := fun same => free (same ▸ List.mem_cons_self)
    rw [toggledCons,if_neg other]
    exact ih fun member => free (List.mem_cons_of_mem _ member)

theorem outsideWithin {line : List α} (free : quote ∉ line) : outside quote true line = [] := by
  induction line with
  | nil => rfl
  | cons c rest ih =>
    have other : c ≠ quote := fun same => free (same ▸ List.mem_cons_self)
    rw [outside,if_neg other,if_pos rfl]
    exact ih fun member => free (List.mem_cons_of_mem _ member)

end Toggles

section Names
variable [DecidableEq α] (mark : α) (value : List α → Option (List α))

/- A name between two marks is replaced where it has a value; the scan goes on behind the second mark. -/
def expand : Option (List α) → List α → List α
  | none, [] => []
  | some name, [] => mark :: name
  | none, c :: rest => if c = mark then expand (some []) rest else c :: expand none rest
  | some name, c :: rest =>
      if c = mark then (value name).getD (mark :: name ++ [mark]) ++ expand none rest else expand (some (name ++ [c])) rest

variable {mark value}

/- Every mark is followed by one and the same unit. -/
def Followed (mark next : α) (line : List α) : Prop :=
  ∀ before after, line = before ++ mark :: after → after.head? = some next

omit [DecidableEq α] in
theorem followedFree {next : α} {line : List α} (free : mark ∉ line) : Followed mark next line := by
  intro before after same
  exact absurd (same ▸ List.mem_append_right before List.mem_cons_self) free

omit [DecidableEq α] in
theorem followedAppend {next : α} {first rest : List α} (one : Followed mark next first) (two : Followed mark next rest) :
    Followed mark next (first ++ rest) := by
  intro before after same
  rcases List.append_eq_append_iff.mp same with ⟨m,_,later⟩ | ⟨m,earlier,later⟩
  · exact two m after later
  · cases m with
    | nil => exact two [] after later.symm
    | cons c m =>
      obtain ⟨rfl,rfl⟩ := List.cons.inj later
      change (m ++ rest).head? = some next
      rw [List.head?_append,one before m earlier]
      rfl

/- No name with a value begins with what follows every mark: nothing is replaced. -/
theorem expandNothing {next : α} (unnamed : ∀ name, value (next :: name) = none) (other : next ≠ mark) {line : List α}
    (followed : Followed mark next line) : expand mark value none line = line := by
  have both (line : List α) : Followed mark next line → expand mark value none line = line ∧
      ∀ name, name.head? = some next ∨ (name = [] ∧ line.head? = some next) →
        expand mark value (some name) line = mark :: name ++ line := by
    induction line with
    | nil =>
      intro _
      exact ⟨rfl,fun name _ => by simp [expand]⟩
    | cons c rest ih =>
      intro followed
      obtain ⟨plain,named⟩ := ih fun before after same => followed (c :: before) after (congrArg (c :: ·) same)
      constructor
      · rw [expand]
        split
        · rename_i same
          subst same
          rw [named [] (.inr ⟨rfl,followed [] rest rfl⟩)]
          rfl
        · rw [plain]
      · intro name begun
        rw [expand]
        split
        · rename_i same
          subst same
          rcases begun with begins | ⟨rfl,begins⟩
          · obtain ⟨more,rfl⟩ : ∃ more, name = next :: more := by
              cases name with
              | nil => contradiction
              | cons d more => exact ⟨more,by rw [Option.some.inj begins]⟩
            rw [unnamed,plain]
            simp
          · exact absurd (Option.some.inj begins).symm other
        · have begins : (name ++ [c]).head? = some next := by
            rcases begun with begins | ⟨rfl,begins⟩
            · rw [List.head?_append,begins]
              rfl
            · exact begins
          rw [named _ (.inl begins)]
          simp
  exact (both line followed).1

end Names

end Northstar.CommandLine
