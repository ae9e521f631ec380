import Northstar.Pattern
import Northstar.Agent.Evidence

/-! The deterministic rung of the claim verifier (agent-verifier.ts): the value tokens of a
clause, their normalization, value slots, polarity and the verdict of one clause against
the excerpts it cites. The tables of letters and of case are the platform's. -/
namespace Northstar.Agent.Verifier
open Pattern (opt all upTo)

structure Unicode where
  toLowerCase : JsString → JsString
  /- `\p{L}` or `\p{N}`, of one code point. -/
  letterOrNumber : JsString → Bool

inductive VerificationVerdict where
  | supported | refuted | notEnoughEvidence
  deriving DecidableEq, Repr

def digit (u : UInt16) : Bool := 48 ≤ u && u ≤ 57

def lowerLetter (u : UInt16) : Bool := 97 ≤ u && u ≤ 122
def upperLetter (u : UInt16) : Bool := 65 ≤ u && u ≤ 90

/- `\w`, which `\b` looks at. -/
def wordUnit (u : UInt16) : Bool := digit u || lowerLetter u || upperLetter u || u == 95

def currency (u : UInt16) : Bool := u == 0x24 || u == 0x20AC || u == 0xA3

abbrev Literal := Pattern UInt16

def digits : Literal := .unit digit
def spaces : Literal := .many (.unit whiteSpace)
def wordEdge : Literal := .edge wordUnit
def the (u : UInt16) : Literal := .unit (· == u)

/- A word under the flag i. -/
def anyCase (word : String) : Literal :=
  all ((js word).map fun u => .unit fun v => v == u || (lowerLetter u && v == u - 32))

/- A word whose last letter may be missing. -/
def plural (word : String) : Literal := .seq (anyCase word) (opt (anyCase "s"))

def eitherOf : List Literal → Literal
  | [] => .unit fun _ => false
  | [one] => one
  | one :: rest => .either one (eitherOf rest)

def measures : Literal :=
  eitherOf [plural "seat",plural "user",plural "request",plural "credit",plural "day",plural "month",plural "year",
    plural "death",plural "core",plural "attendee",anyCase "gb",anyCase "tb",anyCase "mb"]

/- `\s*[×x]?\s*` and a measure word. -/
def unitWord : Literal :=
  all [spaces,opt (.unit fun u => u == 0xD7 || u == 120 || u == 88),spaces,measures,wordEdge]

def digitsAndCommas : Literal := .many (.unit fun u => digit u || u == 44)

def numberPattern : Literal := eitherOf [
  all [.unit currency,digits,digitsAndCommas,opt (the 46),.many digits],
  all [digits,digitsAndCommas,opt (the 46),.many digits,opt (.unit whiteSpace),the 37],
  all [wordEdge,.some digits,opt (.unit whiteSpace),eitherOf [anyCase "percent",anyCase "dollars"],wordEdge],
  all [wordEdge,digits,digitsAndCommas,opt (the 46),.some digits,wordEdge]]

def singleDigitUnitPattern : Literal := all [wordEdge,digits,wordEdge,.ahead unitWord]

def unitAfterPattern : Literal := .seq .start unitWord

def quotedBy (opening closing : UInt16) : Literal :=
  all [the opening,.some (.unit (· != closing)),the closing]

def quotePattern : Literal := eitherOf [quotedBy 34 34,quotedBy 39 39,quotedBy 0x201C 0x201D]

def yearDigits : Literal := eitherOf [
  all [the 49,.unit fun u => 53 ≤ u && u ≤ 57,digits,digits],
  all [the 50,the 48,digits,digits]]

def yearPattern : Literal := all [wordEdge,yearDigits,wordEdge]

def slashDatePattern : Literal :=
  all [wordEdge,upTo digits 1 1,the 47,upTo digits 1 1,the 47,upTo digits 2 2,wordEdge]

def digitCount (token : JsString) : Nat := token.countP digit

def isYear : JsString → Bool
  | [a,b,c,d] => ((a == 49 && 53 ≤ b && b ≤ 57) || (a == 50 && b == 48)) && digit c && digit d
  | _ => false

def isYearToken (token : JsString) : Bool := isYear (token.filter (· != 44))

def containsWord (word : String) (text : JsString) : Bool := (anyCase word).test text

def hasValueSignal (token after : JsString) : Bool :=
  token.any (fun u => currency u || u == 37) || containsWord "percent" token || containsWord "dollars" token ||
    2 ≤ digitCount token || (token.any digit && unitAfterPattern.test after)

structure NumberHit where
  raw : JsString
  index : Nat
  deriving DecidableEq, Repr

def slice (text : JsString) (first last : Nat) : JsString := (text.take last).drop first

def consider (text : JsString) (out : List NumberHit) (found : Nat × JsString) : List NumberHit :=
  let token := trim found.2
  if token.isEmpty || isYearToken token then out
  else if !hasValueSignal token (slice text (found.1 + found.2.length) (found.1 + found.2.length + 12)) then out
  else if out.any (·.raw == token) then out
  else out ++ [⟨token,found.1⟩]

def collectNumberHits (text : JsString) : List NumberHit :=
  (numberPattern.matchAll text ++ singleDigitUnitPattern.matchAll text).foldl (consider text) []

def unseen (out : List JsString) (token : JsString) : List JsString :=
  if out.contains token then out else out ++ [token]

structure ValueTokens where
  numbers : List JsString
  quotes : List JsString
  dates : List JsString
  deriving DecidableEq, Repr

def quotesOf (clause : JsString) : List JsString :=
  ((quotePattern.matchAll clause).map fun found => trim found.2.dropLast.tail).foldl
    (fun out inner => if inner.isEmpty then out else unseen out inner) []

def datesOf (text : JsString) : List JsString :=
  ((yearPattern.matchAll text ++ slashDatePattern.matchAll text).map Prod.snd).foldl unseen []

def extractValueTokens (clause : JsString) : ValueTokens where
  numbers := (collectNumberHits clause).map NumberHit.raw
  quotes := quotesOf clause
  dates := datesOf clause

/- Three digits and then two or more groups of a dot and three digits. -/
def dottedThousands : Literal :=
  let group : Literal := all [the 46,digits,digits,digits]
  all [upTo digits 1 2,group,group,.many group]

/- From the first digit of a token to its last. -/
def numeral (token : JsString) : JsString :=
  ((token.dropWhile fun u => !digit u).reverse.dropWhile fun u => !digit u).reverse

/- `^\D*\d{1,3}\.\d{3}\D*$` of the trimmed token. -/
def isAmbiguousNumericToken (token : JsString) : Bool :=
  let core := numeral (trim token)
  let whole := core.takeWhile digit
  1 ≤ whole.length && whole.length ≤ 3 &&
    match core.dropWhile digit with
    | [dot,a,b,c] => dot == 46 && digit a && digit b && digit c
    | _ => false

/- `(\d),(\d)` with both digits kept; the digit behind a comma is read with it. -/
def normalizeTextNumbers : JsString → JsString
  | a :: 44 :: b :: rest => if digit a && digit b then a :: b :: normalizeTextNumbers rest
      else a :: normalizeTextNumbers (44 :: b :: rest)
  | a :: rest => a :: normalizeTextNumbers rest
  | [] => []

def includes (text part : JsString) : Bool := decide (part <:+: text)

variable (unicode : Unicode)

def normalizeNumericToken (token : JsString) : JsString :=
  let out := (Pattern.seq (all ((js "percent").map the)) (opt (the 115))).replaceAll (js "%") (unicode.toLowerCase token)
  let out := if dottedThousands.test out then out.filter (· != 46) else out
  (out.filter (· != 44)).filter fun u => !whiteSpace u

/- What follows a bare number: `per month`, `/ mo`, `/ month` or the letters of a word. -/
def unitAfterNumber : Literal :=
  all [.start,spaces,eitherOf [
    all [anyCase "per",.some (.unit whiteSpace),anyCase "month"],
    all [the 47,spaces,anyCase "mo"],
    all [the 47,spaces,anyCase "month"],
    .some (.unit fun u => lowerLetter u || upperLetter u)]]

def unitOfToken (raw fullText : JsString) (index : Nat) : JsString :=
  let lower := unicode.toLowerCase raw
  if lower.contains 37 || includes lower (js "percent") then js "%"
  else match raw.head?.filter currency with
    | some sign => [sign]
    | none =>
        if containsWord "dollar" lower then js "$"
        else
          let after := (unitAfterNumber.firstMatch (fullText.drop (index + raw.length))).getD []
          let word := (unicode.toLowerCase after).dropWhile fun u => whiteSpace u || u == 47
          let word := (all [.start,all ((js "per").map the),.some (.unit whiteSpace)]).replaceAll [] word
          if word = js "mo" then js "month" else word

def negators : List JsString :=
  ["not","no","never","without","cannot","neither","nor","none","unable","denies","denied","false"].map js

def negatorPhrases : List JsString :=
  ["fails to","can't","don't","doesn't","isn't","wasn't","weren't","n't"].map js

def stopwords : List JsString :=
  ["the","that","this","with","from","have","has","had","were","was","are","and","for","which","their","there","been",
    "will","would","about","into","over","after","also","such","more","than","then","them","they","its","when","what",
    "where"].map js

def wordPoint (point : JsString) : Bool := unicode.letterOrNumber point || point == [39]

/- `[\p{L}\p{N}']+` with the index each word starts at; the open word is carried along. -/
def wordsFrom : Option (Nat × JsString) → Nat → List JsString → List (Nat × JsString)
  | word, _, [] => word.toList
  | word, index, point :: rest =>
      if wordPoint unicode point then
        let longer := match word with
          | some (first,units) => (first,units ++ point)
          | none => (index,point)
        wordsFrom (some longer) (index + point.length) rest
      else word.toList ++ wordsFrom none (index + point.length) rest

def wordSpans (text : JsString) : List (Nat × Nat) :=
  (wordsFrom unicode none 0 (points text)).map fun word => (word.1,word.1 + word.2.length)

def wordTokens (text : JsString) : List JsString :=
  (wordsFrom unicode none 0 (points (unicode.toLowerCase text))).map Prod.snd

def keyword (token : JsString) : Bool := 4 ≤ token.length && !stopwords.contains token && !negators.contains token

def clauseKeywords (clause : JsString) : List JsString := ((wordTokens unicode clause).filter keyword).foldl unseen []

/- The word whose middle is nearest, the first of them on a tie; distances are doubled. -/
def nearest (middle : Int) : List (Nat × Nat) → Nat → Option (Nat × Nat) → Nat
  | [], _, best => (best.map Prod.snd).getD 0
  | span :: rest, i, best =>
      let distance := (((span.1 + span.2 : Nat) : Int) - middle).natAbs
      if best.all fun old => distance < old.1 then nearest middle rest (i + 1) (some (distance,i))
      else nearest middle rest (i + 1) best

def contextKeywords (fullText : JsString) (matchIndex matchLength : Nat) : List JsString :=
  let spans := wordSpans unicode fullText
  let center := nearest ((2 * matchIndex + matchLength : Nat) : Int) spans 0 none
  let last := min (spans.length - 1) (center + 8)
  if spans.isEmpty then []
  else (((wordTokens unicode fullText).take (last + 1)).drop (center - 8)).filter keyword

def numbersConflict (clause claimRaw : JsString) (claimIndex : Nat) (excerpts : List JsString) : Bool :=
  let claimUnit := unitOfToken unicode claimRaw clause claimIndex
  let claimContext := contextKeywords unicode clause claimIndex claimRaw.length
  !isAmbiguousNumericToken claimRaw && excerpts.any fun excerpt => (collectNumberHits excerpt).any fun hit =>
    normalizeNumericToken unicode hit.raw != normalizeNumericToken unicode claimRaw &&
    !isAmbiguousNumericToken hit.raw &&
    ((!claimUnit.isEmpty && claimUnit == unitOfToken unicode hit.raw excerpt hit.index) ||
      claimContext.any (contextKeywords unicode excerpt hit.index hit.raw.length).contains)

def joinWords (tokens : List JsString) : JsString := [32].intercalate tokens

def hasPhrase (tokens : List JsString) : Bool :=
  tokens.any negators.contains || negatorPhrases.any (includes (joinWords tokens))

def negatorNear (tokens : List JsString) (index : Nat) : Bool :=
  hasPhrase ((tokens.take (index + 7)).drop (index - 6))

def clauseHasNegator (clause : JsString) : Bool := hasPhrase (wordTokens unicode clause)

/- Of every keyword of the clause that an excerpt has, whether its polarity there is the clause's. -/
def polarities (clause : JsString) (excerpts : List JsString) : List Bool :=
  excerpts.flatMap fun excerpt => (clauseKeywords unicode clause).filterMap fun word =>
    ((wordTokens unicode excerpt).findIdx? (· == word)).map fun index =>
      negatorNear (wordTokens unicode excerpt) index == clauseHasNegator unicode clause

def quoteFound (excerpts : List JsString) (quote : JsString) : Bool :=
  (excerpts.map normalizeTextNumbers).any (includes · quote)

def dateFound (excerpts : List JsString) (date : JsString) : Bool :=
  (excerpts.map normalizeTextNumbers).any (includes · date)

def numberFound (excerpts : List JsString) (raw : JsString) : Bool :=
  (excerpts.map normalizeTextNumbers).any fun excerpt =>
    includes (normalizeNumericToken unicode (normalizeTextNumbers excerpt)) (normalizeNumericToken unicode raw)

/- judgeClause with what the check of the truncated excerpts said. -/
def judgeWith (clause : JsString) (excerpts : List JsString) (invisible : Bool) : VerificationVerdict :=
  let quotes := (extractValueTokens clause).quotes
  let dates := (extractValueTokens clause).dates
  let numbers := collectNumberHits clause
  let missingDates := dates.filter fun date => !dateFound excerpts date
  let missingNumbers := numbers.filter fun hit => !numberFound unicode excerpts hit.raw
  if quotes.any fun quote => !quoteFound excerpts quote then .refuted
  else if !missingDates.isEmpty && excerpts.any fun excerpt => !(datesOf excerpt).isEmpty then .refuted
  else if missingNumbers.any fun hit => numbersConflict unicode clause hit.raw hit.index excerpts then .refuted
  else if !numbers.isEmpty || !quotes.isEmpty || !dates.isEmpty then
    if !missingDates.isEmpty || !missingNumbers.isEmpty then .notEnoughEvidence
    else if invisible then .notEnoughEvidence
    else .supported
  else if (polarities unicode clause excerpts).contains true && !(polarities unicode clause excerpts).contains false then
    .supported
  else .notEnoughEvidence

/- The model sees the first 200 units of an excerpt only. -/
def truncated (excerpts : List JsString) : List JsString := excerpts.map (·.take 200)

def judgeClause (clause : JsString) (excerpts : List JsString) : VerificationVerdict :=
  judgeWith unicode clause excerpts
    (excerpts.any (200 < ·.length) && judgeWith unicode clause (truncated excerpts) false != .supported)

end Northstar.Agent.Verifier
