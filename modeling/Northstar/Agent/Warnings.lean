import Mathlib
import Northstar.Agent.Emission
import Northstar.Agent.Gates

/-! What a job's journal says of verification it reads from the warnings of the result: these are read back as the
numbers that were written there, whatever a repair has added after them. -/
namespace Northstar.Agent
open Contract (AgentResultV1)
open Intents (maxSafeInteger)
open Repair (warn verificationNotes verifyBase tryVerifyAndRepair repairPass gateRepair noteExhausted bestVersionKept shipped
  RepairArgs Seams Row Slot Filled)
open Verifier (ReportVerification countVerdict Unicode)

def digitsOf (n : Nat) : JsString := js (toString n)

/- A template filled with numbers. -/
def filledWith : List String → List Nat → JsString
  | [], _ => []
  | [last], _ => js last
  | literal :: rest, numbers => js literal ++ digitsOf (numbers.headD 0) ++ filledWith rest numbers.tail

/- Each literal ends the number before it. -/
def parted : List String → Bool
  | [] => false
  | [last] => (js last).head?.all fun u => !Json.digit u
  | literal :: rest => ((js literal).head?.any fun u => !Json.digit u) && parted rest

theorem digitsRead (n : Nat) : (digitsOf n).all Json.digit = true ∧ Json.decimal (digitsOf n) = n ∧ digitsOf n ≠ [] := by
  obtain ⟨s,text,digits,read,some_,_⟩ := Json.digitsText n
  have same : digitsOf n = s := by
    rw [← text,digitsOf,js]
    exact congrArg (List.flatMap utf16Char) Nat.toList_repr
  rw [same]
  exact ⟨digits,read,some_⟩

theorem filledHead {template : List String} (apart : parted template = true) (numbers : List Nat) :
    ∀ u ∈ (filledWith template numbers).head?, Json.digit u = false := by
  cases template with
  | nil => simp [filledWith]
  | cons literal rest => cases rest with
    | nil => simpa [parted,filledWith,Option.all_eq_true] using apart
    | cons next more =>
      simp only [parted,Bool.and_eq_true,Option.any_eq_true] at apart
      obtain ⟨⟨u,head,solid⟩,_⟩ := apart
      intro v first
      simp only [filledWith,List.append_assoc,List.head?_append,head] at first
      simp only [Option.some_or,Option.mem_some_iff] at first
      simpa [← first] using solid

theorem numberApart {digits rest : JsString} (all : digits.all Json.digit = true) (ended : ∀ u ∈ rest.head?, Json.digit u = false) :
    (digits ++ rest).takeWhile Json.digit = digits ∧ (digits ++ rest).dropWhile Json.digit = rest := by
  have taken : rest.takeWhile Json.digit = [] ∧ rest.dropWhile Json.digit = rest := by
    cases rest with
    | nil => exact ⟨rfl,rfl⟩
    | cons u more =>
      have solid := ended u rfl
      exact ⟨by simp [solid],by simp [solid]⟩
  have each : ∀ u ∈ digits, Json.digit u = true := List.all_eq_true.mp all
  rw [List.takeWhile_append_of_pos each,List.dropWhile_append_of_pos each,taken.1,taken.2,List.append_nil]
  exact ⟨rfl,rfl⟩

/- A filled template is read back. -/
theorem templateRead (first : String) (rest : List String) (apart : rest = [] ∨ parted rest = true) (numbers : List Nat)
    (size : numbers.length = rest.length) :
    readTemplate (first :: rest) (filledWith (first :: rest) numbers) = some (numbers.map digitsOf) := by
  induction rest generalizing first numbers with
  | nil =>
    rw [List.length_eq_zero_iff.mp size]
    simp [readTemplate,filledWith]
  | cons next more ih =>
    cases numbers with
    | nil => simp at size
    | cons n others =>
      have split : parted (next :: more) = true := apart.resolve_left (List.cons_ne_nil _ _)
      have later : more = [] ∨ parted more = true := by
        cases more with
        | nil => exact .inl rfl
        | cons third most => exact .inr (Bool.and_eq_true_iff.mp split).2
      obtain ⟨digits,_,some_⟩ := digitsRead n
      obtain ⟨taken,dropped⟩ := numberApart digits (filledHead split others)
      have text : filledWith (first :: next :: more) (n :: others) = js first ++ (digitsOf n ++ filledWith (next :: more) others) := by
        simp [filledWith]
      simp only [text,readTemplate,List.drop_left,taken,dropped]
      rw [if_pos (by simp [some_]),ih next later others (by simpa using size)]
      rfl

theorem countsBack {numbers : List Nat} (safe : ∀ n ∈ numbers, n ≤ maxSafeInteger) :
    (numbers.map digitsOf).mapM asSafeCount = some numbers := by
  induction numbers with
  | nil => rfl
  | cons n rest ih =>
    obtain ⟨_,read,_⟩ := digitsRead n
    have one : asSafeCount (digitsOf n) = some n := by rw [asSafeCount,read,if_pos (safe n List.mem_cons_self)]
    rw [List.map_cons,List.mapM_cons,one,ih fun m member => safe m (List.mem_cons_of_mem _ member)]
    rfl

/- Nothing is trimmed of a text that neither begins nor ends with white space. -/
theorem trimEnds {text : JsString} (starts : ∀ u ∈ text.head?, whiteSpace u = false) (ends : ∀ u ∈ text.getLast?, whiteSpace u = false) :
    trim text = text := by
  have kept {part : JsString} (solid : ∀ u ∈ part.head?, whiteSpace u = false) : part.dropWhile whiteSpace = part := by
    cases part with
    | nil => rfl
    | cons u rest => simp [solid u rfl]
  have back : text.reverse.dropWhile whiteSpace = text.reverse := kept (by simpa using ends)
  rw [trim,kept starts,back,List.reverse_reverse]

theorem trimStarts {text : JsString} (starts : ∀ u ∈ text.head?, whiteSpace u = false) : trim text <+: text := by
  have kept : text.dropWhile whiteSpace = text := by
    cases text with
    | nil => rfl
    | cons u rest => simp [starts u rfl]
  rw [trim,kept,← List.reverse_suffix,List.reverse_reverse]
  exact List.dropWhile_suffix _

def tripletText (verification : ReportVerification) : JsString :=
  js ("verification: " ++ toString verification.supportedCount ++ " supported, " ++ toString verification.refutedCount ++
    " refuted, " ++ toString verification.unsupportedCount ++ " without enough evidence")

theorem tripletFilled (verification : ReportVerification) : tripletText verification = filledWith verificationTriplet
    [verification.supportedCount,verification.refutedCount,verification.unsupportedCount] := by
  simp [tripletText,filledWith,verificationTriplet,digitsOf,js]

theorem tripletRead {verification : ReportVerification}
    (safe : ∀ n ∈ [verification.supportedCount,verification.refutedCount,verification.unsupportedCount], n ≤ maxSafeInteger) :
    readCounts verificationTriplet (tripletText verification) =
      some [verification.supportedCount,verification.refutedCount,verification.unsupportedCount] := by
  have whole : trim (tripletText verification) = tripletText verification := by
    rw [tripletFilled]
    have first : (js "verification: ").head? = some 118 := by decide
    have final : (js " without enough evidence").getLast? = some 101 := by decide
    refine trimEnds (fun u head => ?_) fun u last => ?_
    · simp only [filledWith,verificationTriplet,List.append_assoc,List.head?_append,first,Option.some_or,Option.mem_some_iff] at head
      exact head ▸ (by decide)
    · simp only [filledWith,verificationTriplet,List.getLast?_append,final,Option.some_or,Option.mem_some_iff] at last
      exact last ▸ (by decide)
  rw [readCounts,whole,tripletFilled,verificationTriplet,templateRead _ _ (.inr (by decide)) _ rfl,Option.bind_some,countsBack safe]

/- A warning of another form. -/
def Silent (warning : JsString) : Prop := readCounts verificationTriplet warning = none

theorem silentOther {warning : JsString} (starts : ∀ u ∈ warning.head?, whiteSpace u = false) {n : Nat} (short : n ≤ 14)
    (other : warning.take n ≠ (js "verification: ").take n) : Silent warning := by
  have length : (js "verification: ").length = 14 := by decide
  have apart : (js "verification: ").isPrefixOf (trim warning) = false := by
    refine Bool.eq_false_iff.mpr fun begins => other ?_
    obtain ⟨rest,rfl⟩ := (List.isPrefixOf_iff_prefix.mp begins).trans (trimStarts starts)
    exact List.take_append_of_le_length (length ▸ short)
  simp [Silent,readCounts,verificationTriplet,readTemplate,apart]

/- A result that tells of verification last in one warning, whatever else it says after it. -/
structure Told (verification : ReportVerification) (result : AgentResultV1) : Prop where
  tells : ∃ before more, result.warnings = before ++ tripletText verification :: more ∧ ∀ warning ∈ more, Silent warning

theorem toldParsed {verification : ReportVerification} {result : AgentResultV1} (told : Told verification result)
    (safe : ∀ n ∈ [verification.supportedCount,verification.refutedCount,verification.unsupportedCount], n ≤ maxSafeInteger) :
    parseVerificationWarning result.warnings =
      some [verification.supportedCount,verification.refutedCount,verification.unsupportedCount] := by
  obtain ⟨before,more,warnings,silent⟩ := told.tells
  have none_ : more.filterMap (readCounts verificationTriplet) = [] := List.filterMap_eq_nil_iff.mpr silent
  rw [parseVerificationWarning,parseCounts,warnings,List.filterMap_append,filterMapCons,tripletRead safe,none_]
  simp

theorem toldMore {verification : ReportVerification} {result : AgentResultV1} (told : Told verification result) {message : JsString}
    (silent : Silent message) : Told verification (warn result message) := by
  obtain ⟨before,more,warnings,others⟩ := told.tells
  refine ⟨before,more ++ [message],?_,fun warning member => ?_⟩
  · simp [warn,warnings]
  · rcases List.mem_append.mp member with old | new
    · exact others warning old
    · rw [List.mem_singleton.mp new]
      exact silent

theorem silentStart (start rest : String) (solid : ((js start).head?.any fun u => !whiteSpace u) = true) {n : Nat}
    (within : n ≤ (js start).length) (short : n ≤ 14) (other : (js start).take n ≠ (js "verification: ").take n) :
    Silent (js (start ++ rest)) := by
  have text : js (start ++ rest) = js start ++ js rest := by simp [js]
  obtain ⟨u,head,plain⟩ := (Option.any_eq_true ..).mp solid
  rw [text]
  refine silentOther (n := n) ?_ short ?_
  · rw [List.head?_append,head]
    simpa using plain
  · rwa [List.take_append_of_le_length within]

theorem exhaustedTold {verification : ReportVerification} {result : AgentResultV1} (told : Told verification result) (exhausted : Bool) :
    Told verification (noteExhausted exhausted result) := by
  unfold noteExhausted
  split
  · exact toldMore told (silentStart "verification skipped" "; utility budget exhausted" (by decide) (n := 13) (by decide) (by decide)
      (by decide))
  · exact told

theorem keptTold {verification : ReportVerification} {result : AgentResultV1} (told : Told verification result) (reason : String) :
    Told verification (warn result (bestVersionKept reason)) := by
  have text : bestVersionKept reason = js ("repair rejected" ++ ("; best version kept (" ++ reason ++ ")")) := by
    simp [bestVersionKept,js]
  rw [text]
  exact toldMore told (silentStart _ _ (by decide) (n := 1) (by decide) (by decide) (by decide))

theorem shippedTold {verification : ReportVerification} {result : AgentResultV1} (told : Told verification result) (slots : List Slot)
    (filled : List Filled) : Told verification (shipped result slots filled) := by
  have silent (count : Nat) : Silent (js ("repair applied: " ++ toString count ++ " claims re-supported")) := by
    rw [String.append_assoc]
    exact silentStart _ _ (by decide) (n := 1) (by decide) (by decide) (by decide)
  exact ⟨(toldMore told (silent _)).tells⟩

section Pass
variable {unicode : Unicode} {p : Platform} {σ : Type}

theorem gateTold {told_ : ReportVerification} {base : AgentResultV1} (told : Told told_ base) (args : RepairArgs) (rows : List Row)
    (verification : ReportVerification) (slots : List Slot) (filled : List Filled) :
    Told told_ (gateRepair unicode args base rows verification slots filled) := by
  unfold gateRepair
  split
  · exact keptTold told _
  · split
    · exact keptTold told _
    · split
      · exact shippedTold told slots filled
      · exact keptTold told _

theorem passTold {told_ : ReportVerification} {base : AgentResultV1} (told : Told told_ base) (seams : Seams σ)
    (verifier : σ → Verifier.Prompt → σ × Repair.RawReply) (repairer : σ → Repair.RepairPrompt → σ × Repair.RawReply) (args : RepairArgs)
    (rows : List Row) (verification : ReportVerification) (s : σ) (used : Nat) :
    Told told_ (repairPass unicode p seams verifier repairer args base rows verification s used).2.1 := by
  unfold repairPass
  dsimp only
  split
  · exact toldMore told (silentStart "repair skipped; " "utility budget exhausted" (by decide) (n := 1) (by decide) (by decide) (by decide))
  · split
    · exact toldMore told (silentStart "repair skipped; " "no re-verify budget" (by decide) (n := 1) (by decide) (by decide) (by decide))
    · split
      · exact keptTold told _
      · split
        · exact keptTold told _
        · exact gateTold (exhaustedTold told _) args rows verification _ _

theorem countsSafe (results : List Verifier.VerificationResult) (verdict : Verifier.VerificationVerdict) :
    countVerdict verdict results ≤ results.length := List.countP_le_length

/- However the pass goes on once a verifier was asked, the closing counts of the journal are the verdicts it came to. -/
theorem verificationReported (seams : Seams σ) {verifier : σ → Verifier.Prompt → σ × Repair.RawReply} (there : seams.verifier = some verifier)
    (args : RepairArgs) (budget : args.utilityCallsUsed < args.maxUtilityCalls) (few : args.base.claims.length ≤ maxSafeInteger) (s : σ) :
    let verification := (verifyBase unicode p seams verifier args s).2
    parseVerificationWarning (tryVerifyAndRepair unicode p seams args s).2.1.warnings =
      some [countVerdict .supported verification.results,countVerdict .refuted verification.results,
        countVerdict .notEnoughEvidence verification.results] := by
  intro verification
  have judged : verification.results.length = args.base.claims.length := Repair.baseJudged seams verifier args s
  have noted : Told verification (verificationNotes verification (verifyBase unicode p seams verifier args s).1.2.exhausted args.base) :=
    ⟨⟨_,[],rfl,by simp⟩⟩
  have told : Told verification (tryVerifyAndRepair unicode p seams args s).2.1 := by
    unfold tryVerifyAndRepair
    rw [there]
    dsimp only
    rw [if_neg (Nat.not_le.mpr budget)]
    split
    · exact noted
    · split
      · have text (count : Nat) : js ("verification found " ++ toString count ++ " refuted claim(s); repair skipped (no repairer)") =
            js ("verification found " ++ (toString count ++ " refuted claim(s); repair skipped (no repairer)")) := by
          rw [String.append_assoc]
        rw [text]
        exact toldMore noted (silentStart _ _ (by decide) (n := 13) (by decide) (by decide) (by decide))
      · exact passTold noted seams verifier _ args _ _ _ _
  refine toldParsed told fun n member => ?_
  have bound : n ≤ verification.results.length := by
    simp only [List.mem_cons,List.not_mem_nil,or_false] at member
    rcases member with rfl | rfl | rfl
    · exact countsSafe ..
    · exact countsSafe ..
    · exact countsSafe ..
  exact bound.trans (judged ▸ few)

end Pass

def silentSeams : Seams Unit := ⟨some fun s _ => (s,.threw),none,fun _ => none⟩

def bareArgs : RepairArgs := ⟨js "q",⟨js "q",[],[],[],[js "earlier"]⟩,[],[],4,1⟩

theorem bareReported :
    let verification := (verifyBase Verifier.asciiUnicode ⟨id,id,some⟩ silentSeams (fun s _ => (s,.threw)) bareArgs ()).2
    parseVerificationWarning (tryVerifyAndRepair Verifier.asciiUnicode ⟨id,id,some⟩ silentSeams bareArgs ()).2.1.warnings =
      some [countVerdict .supported verification.results,countVerdict .refuted verification.results,
        countVerdict .notEnoughEvidence verification.results] :=
  verificationReported silentSeams rfl bareArgs (by decide) (by decide) ()

end Northstar.Agent
