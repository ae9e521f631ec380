import Northstar.Script

/-! The web search ledger (web-search-ledger.ts): a map of completed searches in
least recently used order, the searches in flight and the context each needs when it
ends. Completion is by key, as in the source. Unicode tables and SHA-256 are the platform's. -/
namespace Northstar.Search

def successSuppressMs : Int := 30 * 60000
def failureBlockMs : Int := 10 * 60000
def maxLedgerEntries : Nat := 128
def maxLedgerActiveSearches : Nat := 32
def nearDuplicateJaccard : ℚ := 17 / 20
def nearDuplicateBigramJaccard : ℚ := 1 / 2
def maxStoredResponseIdChars : Nat := 256

structure Platform where
  normalizeNfkc : JsString → JsString
  toLowerCase : JsString → JsString
  letterOrNumber : JsString → Bool
  sha256 : JsString → JsString

inductive LedgerFailureCode where
  | timeout | upstreamError | invalidResponse | responseTooLarge
  deriving DecidableEq, Repr

structure LedgerOptions where
  limit : Option Number := none
  includeContent : Option Bool := none
  recency : Option JsString := none
  domains : Option (List JsString) := none
  yearFrom : Option Number := none
  knowledge : Option (List (JsString × Bool)) := none
  category : Option JsString := none
  source : Option JsString := none
  deriving Repr

structure CompletedEntry where
  hash : JsString
  single : Bool
  tokens : List JsString
  bigrams : List JsString
  optionsKey : JsString
  successAt : Option Int
  responseId : Option JsString
  failureCount : Nat
  lastFailureAt : Option Int
  lastCode : Option LedgerFailureCode
  lastRetryable : Option Bool
  deriving DecidableEq, Repr

structure PendingContext where
  tokens : List JsString
  bigrams : List JsString
  single : Bool
  optionsKey : JsString
  deriving DecidableEq, Repr

/- The closures resolve and reject settle one promise; its number stands for them. -/
structure InFlightEntry where
  key : JsString
  promise : Nat
  waiters : Int
  deriving DecidableEq, Repr

inductive LedgerBeginResult where
  | run (key : JsString)
  | coalesced (key : JsString) (promise : Nat)
  | suppressed (responseId : Option JsString) (ageMs : Int)
  | blocked
  deriving DecidableEq, Repr

def collapseSpace (s : JsString) : JsString :=
  s.foldr (fun u out => if whiteSpace u then (if out.head? = some 32 then out else 32 :: out)
    else u :: out) []

def distinct (items : List JsString) : List JsString := items.eraseDups

def jaccard (a b : List JsString) : ℚ :=
  if a.length = 0 ∧ b.length = 0 then 1
  else if a.length = 0 ∨ b.length = 0 then 0
  else
    let intersection := (a.filter b.contains).length
    let union := a.length + b.length - intersection
    if union = 0 then 1 else intersection / union

section Queries
variable (p : Platform)

def normalizeQuery (value : JsString) : JsString :=
  collapseSpace (trim (p.toLowerCase (p.normalizeNfkc value)))

def tokenize (normalized : JsString) : List JsString :=
  (((points normalized).splitOnP fun point => !p.letterOrNumber point).map List.flatten).filter
    fun token => token.length > 0

def hashTokenList (normalized : JsString) : List JsString := (tokenize p normalized).map p.sha256

def hashBigrams : List JsString → List JsString
  | first :: second :: rest =>
      p.sha256 (first ++ [0] ++ second) :: hashBigrams (second :: rest)
  | _ => []

def textLess (a b : JsString) : Bool := decide (a < b)

/- An object lists its array indices first, in ascending order. -/
def arrayIndex (key : JsString) : Option Nat :=
  if key.all (fun u => 48 ≤ u && u ≤ 57) && (key = [48] || key.head? ≠ some 48) && key ≠ [] then
    let n := key.foldl (fun n u => 10 * n + (u.toNat - 48)) 0
    if n < 2^32 - 1 then some n else none
  else none

def ownOrder (fields : List (JsString × JsValue)) : List (JsString × JsValue) :=
  (fields.filter fun f => (arrayIndex f.1).isSome).mergeSort
      (fun a b => (arrayIndex a.1).getD 0 ≤ (arrayIndex b.1).getD 0) ++
    fields.filter fun f => (arrayIndex f.1).isNone

def canonicalOptions (options : LedgerOptions) : JsString :=
  let domains := options.domains.map fun list =>
    (list.map p.toLowerCase).mergeSort fun a b => !textLess b a
  let knowledge := options.knowledge.map fun record =>
    record.mergeSort fun a b => !textLess b.1 a.1
  stringify (.object
    [(js "limit",.orNull .number options.limit),
     (js "includeContent",.orNull .bool options.includeContent),
     (js "recency",.orNull .string options.recency),
     (js "domains",.orNull (fun list => .array (list.map .string)) domains),
     (js "yearFrom",.orNull .number options.yearFrom),
     (js "knowledge",.orNull (fun record =>
        .object (ownOrder (record.map fun f => (f.1,JsValue.bool f.2)))) knowledge),
     (js "category",.orNull .string options.category),
     (js "source",.orNull .string options.source)])

def searchKey (normalized : List JsString) (optionsKey : JsString) : JsString :=
  p.sha256 ([10].intercalate normalized ++ [124] ++ optionsKey)

end Queries

def asResponseId (value : JsValue) : Option JsString := do
  let id ← value.asString
  let trimmed := trim id
  if trimmed.length = 0 ∨ trimmed.length > maxStoredResponseIdChars then none else some trimmed

def extractResponseId (result : JsValue) : Option JsString :=
  let details := result.get "details"
  (asResponseId (details.get "responseId")).or (asResponseId ((details.get "details").get "responseId"))

def isBlocked (entry : CompletedEntry) (now : Int) : Bool := match entry.lastFailureAt with
  | none => false
  | some lastFailureAt =>
      if now - lastFailureAt ≥ failureBlockMs then false
      else if entry.lastRetryable = some false then true
      else decide (entry.failureCount ≥ 2)

def suppressedOf (entry : CompletedEntry) (now : Int) : LedgerBeginResult :=
  .suppressed entry.responseId (now - entry.successAt.getD now)

structure WebSearchLedger where
  completed : List CompletedEntry
  inFlight : List InFlightEntry
  pending : List (JsString × PendingContext)
  deriving DecidableEq, Repr

namespace WebSearchLedger

def empty : WebSearchLedger := ⟨[],[],[]⟩

def completedAt (l : WebSearchLedger) (key : JsString) : Option CompletedEntry :=
  l.completed.find? (·.hash == key)

def flight (l : WebSearchLedger) (key : JsString) : Option InFlightEntry :=
  l.inFlight.find? (·.key == key)

def touch (l : WebSearchLedger) (entry : CompletedEntry) : WebSearchLedger :=
  { l with completed := l.completed.filter (·.hash != entry.hash) ++ [entry] }

def storeLocked (maxEntries : Nat) (l : WebSearchLedger) (entry : CompletedEntry) : WebSearchLedger :=
  let kept := l.completed.filter (·.hash != entry.hash) ++ [entry]
  { l with completed := kept.drop (kept.length - maxEntries) }

def expireLocked (l : WebSearchLedger) (now : Int) : WebSearchLedger :=
  { l with completed := l.completed.filter fun entry =>
      entry.successAt.any (fun at' => now - at' < successSuppressMs) || isBlocked entry now ||
        entry.lastFailureAt.any (fun at' => now - at' < failureBlockMs) }

def activeLocked (l : WebSearchLedger) : Nat :=
  (distinct (l.inFlight.map (·.key) ++ l.pending.map (·.1))).length

def nearSuccess (tokens bigrams : List JsString) (optionsKey : JsString) (now : Int)
    (entry : CompletedEntry) : Bool :=
  entry.single && entry.successAt.any (fun at' => now - at' < successSuppressMs) &&
    entry.optionsKey == optionsKey && nearDuplicateJaccard ≤ jaccard tokens entry.tokens &&
    nearDuplicateBigramJaccard ≤ jaccard bigrams entry.bigrams

def findFuzzySuccess (p : Platform) (l : WebSearchLedger) (normalizedQuery optionsKey : JsString)
    (now : Int) : Option CompletedEntry :=
  let tokenHashes := hashTokenList p normalizedQuery
  l.completed.find?
    (nearSuccess (distinct tokenHashes) (distinct (hashBigrams p tokenHashes)) optionsKey now)

/- A follower whose signal is already aborted leaves the waiter count as it was. -/
def join (l : WebSearchLedger) (key : JsString) (aborted : Bool) : WebSearchLedger :=
  { l with inFlight := l.inFlight.map fun f =>
      if f.key == key ∧ !aborted then { f with waiters := f.waiters + 1 } else f }

/- onAbort: the waiting follower leaves the search it joined. -/
def leave (l : WebSearchLedger) (promise : Nat) : WebSearchLedger :=
  { l with inFlight := l.inFlight.map fun f =>
      if f.promise == promise then { f with waiters := f.waiters - 1 } else f }

def track (p : Platform) (l : WebSearchLedger) (normalized : List JsString)
    (optionsKey key : JsString) (promise : Nat) : WebSearchLedger :=
  let single := normalized.length == 1
  let tokenHashes := if single then hashTokenList p (normalized.headD []) else []
  { l with
    inFlight := l.inFlight ++ [⟨key,promise,1⟩]
    pending := l.pending ++ [(key,⟨distinct tokenHashes,
      if single then distinct (hashBigrams p tokenHashes) else [],single,optionsKey⟩)] }

def refresh (l : WebSearchLedger) : Option CompletedEntry → WebSearchLedger
  | some existing => l.touch existing
  | none => l

/- The last tests of begin, on the refreshed ledger: a live prior success, then the cap on
active searches. -/
def admission (p : Platform) (l : WebSearchLedger) (existing : Option CompletedEntry)
    (normalized : List JsString) (optionsKey key : JsString) (now : Int) (promise : Nat) :
    LedgerBeginResult × WebSearchLedger :=
  let single := normalized.length == 1
  match if single then l.findFuzzySuccess p (normalized.headD []) optionsKey now else none with
  | some fuzzy => (suppressedOf fuzzy now,l.touch fuzzy)
  | none =>
    match existing.filter fun entry =>
        !single && entry.successAt.any (fun at' => now - at' < successSuppressMs) with
    | some entry => (suppressedOf entry now,l)
    | none =>
      if l.activeLocked ≥ maxLedgerActiveSearches then (.run key,l)
      else (.run key,l.track p normalized optionsKey key promise)

def begin (p : Platform) (l : WebSearchLedger) (queries : List JsString) (options : LedgerOptions)
    (now : Int) (aborted : Bool) (promise : Nat) : LedgerBeginResult × WebSearchLedger :=
  let normalized := queries.map (normalizeQuery p)
  let optionsKey := canonicalOptions p options
  let key := searchKey p normalized optionsKey
  let l := l.expireLocked now
  let existing := l.completedAt key
  match existing.filter (isBlocked · now) with
  | some blocked => (.blocked,l.touch blocked)
  | none =>
    match l.flight key with
    | some flying => (.coalesced key flying.promise,l.join key aborted)
    | none => (l.refresh existing).admission p existing normalized optionsKey key now promise

/- The map deletions every end of a search makes. -/
def drop (l : WebSearchLedger) (key : JsString) : WebSearchLedger :=
  { l with
    inFlight := l.inFlight.filter (·.key != key)
    pending := l.pending.filter (·.1 != key) }

def completeSuccess (maxEntries : Nat) (l : WebSearchLedger) (key : JsString) (result : JsValue)
    (now : Int) : WebSearchLedger :=
  let flying := l.flight key
  let context := l.pending.lookup key
  let l := l.drop key
  if flying = none ∧ context = none then l
  else
    let prior := l.completedAt key
    l.storeLocked maxEntries
      { hash := key
        single := ((prior.map (·.single)).or (context.map (·.single))).getD true
        tokens := ((context.map (·.tokens)).or (prior.map (·.tokens))).getD []
        bigrams := ((context.map (·.bigrams)).or (prior.map (·.bigrams))).getD []
        optionsKey := ((context.map (·.optionsKey)).or (prior.map (·.optionsKey))).getD []
        successAt := some now
        responseId := extractResponseId result
        failureCount := 0
        lastFailureAt := none
        lastCode := none
        lastRetryable := none }

def completeFailure (maxEntries : Nat) (l : WebSearchLedger) (key : JsString) (retryable : Bool)
    (code : LedgerFailureCode) (now : Int) : WebSearchLedger :=
  let flying := l.flight key
  let context := l.pending.lookup key
  let l := l.drop key
  if flying = none ∧ context = none then l
  else
    let prior := l.completedAt key
    let failureCount := match prior with
      | some entry => if entry.successAt.isSome then 0 else entry.failureCount
      | none => 0
    l.storeLocked maxEntries
      { hash := key
        single := ((prior.map (·.single)).or (context.map (·.single))).getD true
        tokens := ((prior.map (·.tokens)).or (context.map (·.tokens))).getD []
        bigrams := ((prior.map (·.bigrams)).or (context.map (·.bigrams))).getD []
        optionsKey := ((prior.map (·.optionsKey)).or (context.map (·.optionsKey))).getD []
        successAt := none
        responseId := none
        failureCount := failureCount + 1
        lastFailureAt := some now
        lastCode := some code
        lastRetryable := some retryable }

def cancel (l : WebSearchLedger) (key : JsString) : WebSearchLedger := l.drop key

end WebSearchLedger

end Northstar.Search
