import Mathlib

/-! The words of a simple command as a POSIX shell reads them, as far as it does not expand any, and one pass of
printf over its format. -/
namespace Northstar.Shell
variable {α : Type}

inductive Quoting where
  | plain
  | single
  | escaped
  deriving DecidableEq

/- The words read and the one being read; nothing once a sign is met that a shell does more with. -/
structure Reading (α : Type) where
  words : List (List α)
  word : Option (List α)
  quoting : Quoting
  deriving DecidableEq

section Words
variable [DecidableEq α] (quote slash : α) (blank special : α → Bool)

def step (r : Reading α) (c : α) : Option (Reading α) := match r.quoting with
  | .single => if c = quote then some { r with quoting := .plain } else some { r with word := some (r.word.getD [] ++ [c]) }
  | .escaped => some { r with word := some (r.word.getD [] ++ [c]), quoting := .plain }
  | .plain =>
      if c = quote then some { r with word := some (r.word.getD []), quoting := .single }
      else if c = slash then some { r with word := some (r.word.getD []), quoting := .escaped }
      else if blank c then some ⟨r.words ++ r.word.toList,none,.plain⟩
      else if special c then none
      else some { r with word := some (r.word.getD [] ++ [c]) }

def readFrom : Reading α → List α → Option (Reading α)
  | r, [] => some r
  | r, c :: rest => (step quote slash blank special r c).bind fun r => readFrom r rest

def readWords (line : List α) : Option (List (List α)) :=
  (readFrom quote slash blank special ⟨[],none,.plain⟩ line).bind fun r =>
    if r.quoting = .plain then some (r.words ++ r.word.toList) else none

/- Within single quotes nothing but the quote itself has to be put another way: closed, escaped and opened again. -/
def quoteBody (text : List α) : List α := text.flatMap fun c => if c = quote then [quote,slash,quote,quote] else [c]

variable {quote slash blank special}

theorem readAppend (r : Reading α) (first rest : List α) : readFrom quote slash blank special r (first ++ rest) =
    (readFrom quote slash blank special r first).bind fun r => readFrom quote slash blank special r rest := by
  induction first generalizing r with
  | nil => rfl
  | cons c more ih =>
    rw [List.cons_append,readFrom,readFrom]
    cases step quote slash blank special r c with
    | none => rfl
    | some next => exact ih next

theorem readBody (apart : slash ≠ quote) (words : List (List α)) (word text : List α) :
    readFrom quote slash blank special ⟨words,some word,.single⟩ (quoteBody quote slash text) = some ⟨words,some (word ++ text),.single⟩ := by
  induction text generalizing word with
  | nil => simp [quoteBody,readFrom]
  | cons c rest ih =>
    rw [quoteBody,List.flatMap_cons,readAppend]
    change (readFrom quote slash blank special ⟨words,some word,.single⟩ (if c = quote then [quote,slash,quote,quote] else [c])).bind
      (fun r => readFrom quote slash blank special r (quoteBody quote slash rest)) = _
    have one : readFrom quote slash blank special ⟨words,some word,.single⟩ (if c = quote then [quote,slash,quote,quote] else [c]) =
        some ⟨words,some (word ++ [c]),.single⟩ := by
      by_cases same : c = quote
      · subst same
        simp [readFrom,step,apart]
      · simp [readFrom,step,same]
    rw [one,Option.bind_some,ih,List.append_assoc,List.singleton_append]

/- A quoted text is one word that says the text, whatever is in it. -/
theorem readQuoted (apart : slash ≠ quote) (words : List (List α)) (text : List α) :
    readFrom quote slash blank special ⟨words,none,.plain⟩ (quote :: (quoteBody quote slash text ++ [quote])) =
      some ⟨words,some text,.plain⟩ := by
  have opens : step quote slash blank special ⟨words,none,.plain⟩ quote = some ⟨words,some [],.single⟩ := by simp [step]
  rw [readFrom,opens,Option.bind_some,readAppend,readBody apart]
  simp [readFrom,step]

theorem readBlank {words : List (List α)} {word : Option (List α)} {c : α} (unquoted : c ≠ quote) (unslashed : c ≠ slash)
    (blanks : blank c = true) (rest : List α) : readFrom quote slash blank special ⟨words,word,.plain⟩ (c :: rest) =
      readFrom quote slash blank special ⟨words ++ word.toList,none,.plain⟩ rest := by
  simp [readFrom,step,unquoted,unslashed,blanks]

/- Signs that mean nothing to the shell stand for themselves. -/
theorem readBare (words : List (List α)) (word : Option (List α)) {text : List α} (some_ : text ≠ [])
    (bare : ∀ c ∈ text, c ≠ quote ∧ c ≠ slash ∧ blank c = false ∧ special c = false) :
    readFrom quote slash blank special ⟨words,word,.plain⟩ text = some ⟨words,some (word.getD [] ++ text),.plain⟩ := by
  induction text generalizing word with
  | nil => contradiction
  | cons c rest ih =>
    obtain ⟨unquoted,unslashed,solid,common⟩ := bare c List.mem_cons_self
    have one : step quote slash blank special ⟨words,word,.plain⟩ c = some ⟨words,some (word.getD [] ++ [c]),.plain⟩ := by
      simp [step,unquoted,unslashed,solid,common]
    rw [readFrom,one,Option.bind_some]
    cases rest with
    | nil => rfl
    | cons d more =>
      rw [ih (some (word.getD [] ++ [c])) (List.cons_ne_nil d more) fun e member => bare e (List.mem_cons_of_mem c member)]
      simp

end Words

section Format
variable [DecidableEq α] (percent string slash line newline : α)

/- %s stands for the next argument and \n for a new line; every other sign is printed as it is. -/
def printf : List α → List (List α) → List α
  | c :: d :: rest, args =>
      if c = percent ∧ d = string then args.headD [] ++ printf rest args.tail
      else if c = slash ∧ d = line then newline :: printf rest args
      else c :: printf (d :: rest) args
  | rest, _ => rest

end Format

end Northstar.Shell
