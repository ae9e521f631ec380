import Northstar.Redaction
import Northstar.Script
import Mathlib.Data.List.Sort
import Mathlib.Data.List.DropRight

/-! The tail of a search server's stderr that the client keeps and the errors it is shown in, without
the secrets of the server's environment (mcp-client.ts). -/
namespace Northstar.Process
open Redaction (Apart Straddles hide hideAll hideAllCut hideFirst hideMissing)

def maxStderrBytes : Nat := 4096

/- The bound is on units, whatever its name says. -/
def appendBounded (current chunk : JsString) : JsString :=
  let combined := current ++ chunk
  if maxStderrBytes < combined.length then combined.drop (combined.length - maxStderrBytes) else combined

def redactedMark : JsString := js "[redacted]"

/- Longer ones first, equal ones as listed. -/
def redactionOrder (secrets : List JsString) : List JsString :=
  (secrets.filter fun s => 0 < s.length).insertionSort fun a b => b.length ≤ a.length

def redactSecrets (text : JsString) (secrets : List JsString) : JsString :=
  (redactionOrder secrets).foldl
    (fun redacted secret => if secret <:+: redacted then hide id redactedMark redacted secret else redacted) text

/- What is thrown: an Error, by its class, a string, or something else by its String(…). -/
inductive Thrown where
  | error (tool : Bool) (message : JsString) (cause : Option Thrown)
  | text (shown : JsString)
  | other (shown : JsString)

def redactCause (secrets : List JsString) : Thrown → Option Thrown
  | .error _ message none => some (.error false (redactSecrets message secrets) none)
  | .error _ message (some cause) => some (.error false (redactSecrets message secrets) (redactCause secrets cause))
  | .text shown => some (.text (redactSecrets shown secrets))
  | .other _ => none

def Thrown.shown : Thrown → JsString
  | .error _ message _ => message
  | .text shown => shown
  | .other shown => shown

def Thrown.cause : Thrown → Option Thrown
  | .error _ _ cause => cause
  | _ => none

def Thrown.fromTool : Thrown → Bool
  | .error tool _ _ => tool
  | _ => false

def stderrDetail (stderrTail : JsString) (secrets : List JsString) : JsString := redactSecrets (trim stderrTail) secrets

def withStderr (error : Thrown) (stderrTail : JsString) (secrets : List JsString) : Thrown :=
  let detail := stderrDetail stderrTail secrets
  let message := redactSecrets error.shown secrets
  let cause := error.cause.bind (redactCause secrets)
  if detail = [] then .error error.fromTool message cause
  else .error error.fromTool (message ++ js " (server stderr: " ++ detail ++ js ")") cause

/- The tail after the chunks of stderr so far. -/
def tailOf (chunks : List JsString) : JsString := chunks.foldl appendBounded []

theorem tailEnd (text : JsString) (chunks : List JsString) : chunks.foldl appendBounded (text.drop (text.length - maxStderrBytes)) =
    (text ++ chunks.flatten).drop ((text ++ chunks.flatten).length - maxStderrBytes) := by
  induction chunks generalizing text with
  | nil => rw [List.foldl_nil,List.flatten_nil,List.append_nil]
  | cons chunk rest ih =>
    have bounded : appendBounded (text.drop (text.length - maxStderrBytes)) chunk =
        (text ++ chunk).drop ((text ++ chunk).length - maxStderrBytes) := by
      unfold appendBounded
      dsimp only
      split
      · rename_i long
        rw [List.length_append,List.length_drop] at long ⊢
        have count : text.length - maxStderrBytes + (text.length - (text.length - maxStderrBytes) + chunk.length - maxStderrBytes) =
            (text ++ chunk).length - maxStderrBytes := by
          rw [List.length_append]
          omega
        rw [← List.drop_append_of_le_length (Nat.sub_le _ _),List.drop_drop,count]
      · rename_i fits
        rw [List.length_append,List.length_drop] at fits
        have count : text.length - maxStderrBytes = (text ++ chunk).length - maxStderrBytes := by
          rw [List.length_append]
          omega
        rw [← List.drop_append_of_le_length (Nat.sub_le _ _),count]
    rw [List.foldl_cons,bounded,ih,List.flatten_cons,List.append_assoc]

theorem tailSuffix (chunks : List JsString) : tailOf chunks <:+ chunks.flatten := by
  have last := tailEnd [] chunks
  rw [List.drop_nil,List.nil_append] at last
  rw [tailOf,last]
  exact List.drop_suffix _ _

theorem tailWhole {chunks : List JsString} (short : chunks.flatten.length ≤ maxStderrBytes) : tailOf chunks = chunks.flatten := by
  have last := tailEnd [] chunks
  rw [List.drop_nil,List.nil_append,Nat.sub_eq_zero_of_le short,List.drop_zero] at last
  exact last

theorem dropWhilePrefix (skipped : UInt16 → Bool) {part whole : JsString} (starts : part <+: whole) :
    part.dropWhile skipped <+: whole.dropWhile skipped := by
  obtain ⟨rest,rfl⟩ := starts
  rw [List.dropWhile_append]
  split
  · rename_i none_
    rw [List.isEmpty_iff.mp none_]
    exact List.nil_prefix
  · exact List.prefix_append _ _

theorem dropWhileSuffix (skipped : UInt16 → Bool) {part whole : JsString} (ends : part <:+ whole) :
    part.dropWhile skipped <:+ whole.dropWhile skipped := by
  obtain ⟨front,rfl⟩ := ends
  rw [List.dropWhile_append]
  split
  · exact List.suffix_rfl
  · exact (List.dropWhile_suffix skipped).trans (List.suffix_append _ _)

theorem trimSuffix {part whole : JsString} (ends : part <:+ whole) : trim part <:+ trim whole :=
  List.reverse_suffix.mpr (dropWhilePrefix whiteSpace (List.reverse_prefix.mpr (dropWhileSuffix whiteSpace ends)))

theorem redactedAll (text : JsString) (secrets : List JsString) :
    redactSecrets text secrets = hideAll id redactedMark (redactionOrder secrets) text := by
  have same : (fun redacted secret => if secret <:+: redacted then hide id redactedMark redacted secret else redacted) =
      hide id redactedMark := by
    funext redacted secret
    split
    · rfl
    · rename_i missing
      exact (hideMissing redactedMark missing).symm
  rw [redactSecrets,same]
  rfl

theorem orderedMember {secrets : List JsString} {secret : JsString} (member : secret ∈ redactionOrder secrets) :
    secret ∈ secrets ∧ secret ≠ [] := by
  obtain ⟨listed,some_⟩ := List.mem_filter.mp ((List.mem_insertionSort _).mp member)
  exact ⟨listed,List.length_pos_iff.mp (of_decide_eq_true some_)⟩

/- What of the trimmed stderr the detail no longer sees. -/
def lost (chunks : List JsString) : JsString :=
  (trim chunks.flatten).take ((trim chunks.flatten).length - (trim (tailOf chunks)).length)

theorem lostThenTail (chunks : List JsString) : trim chunks.flatten = lost chunks ++ trim (tailOf chunks) := by
  obtain ⟨front,same⟩ := trimSuffix (tailSuffix chunks)
  rw [lost,← same,List.length_append,Nat.add_sub_cancel,List.take_left]

/- The bound cuts nothing off, or no secret in two and none of them reads on from or into a mark. -/
def CutsClean (chunks : List JsString) (secrets : List JsString) : Prop :=
  chunks.flatten.length ≤ maxStderrBytes ∨
    ∀ secret ∈ secrets, secret ≠ [] →
      Apart secret redactedMark ∧ ¬Straddles secret (lost chunks) (trim (tailOf chunks))

theorem withStderrShows (error : Thrown) (stderrTail : JsString) (secrets : List JsString)
    (some_ : stderrDetail stderrTail secrets ≠ []) : (withStderr error stderrTail secrets).shown =
      redactSecrets error.shown secrets ++ js " (server stderr: " ++ stderrDetail stderrTail secrets ++ js ")" := by
  rw [withStderr,if_neg some_]
  rfl

def filler : JsString := List.replicate 4093 120

theorem fillerOnly : ∀ u ∈ filler, u = 120 := fun _ member => List.eq_of_mem_replicate member

theorem fillerPlain {front : JsString} (plain : front.all fun u => !whiteSpace u) : trim (front ++ filler) = front ++ filler := by
  refine trimPlain fun u member => ?_
  rcases List.mem_append.mp member with first | last
  · simpa using List.all_eq_true.mp plain u first
  · rw [fillerOnly u last]
    rfl

theorem fillerHides {front : JsString} (missing : 83 ∉ front) : redactSecrets (front ++ filler) [js "SECRET"] = front ++ filler := by
  have only : redactionOrder [js "SECRET"] = [js "SECRET"] := by decide
  rw [redactedAll,only]
  refine hideMissing redactedMark fun inside => ?_
  rcases List.mem_append.mp (inside.subset (show (83 : UInt16) ∈ js "SECRET" by decide)) with first | last
  · exact missing first
  · exact absurd (fillerOnly 83 last) (by decide)

theorem secretTail : tailOf [js "SECRET" ++ filler] = js "RET" ++ filler := by
  have size : (js "SECRET" ++ filler).length = 4099 := by
    rw [List.length_append,filler,List.length_replicate]
    rfl
  have bounded : tailOf [js "SECRET" ++ filler] = (js "SECRET" ++ filler).drop 3 := by
    have long : maxStderrBytes < (js "SECRET" ++ filler).length := by
      rw [size]
      decide
    have count : (4099 : Nat) - maxStderrBytes = 3 := rfl
    rw [tailOf,List.foldl_cons,List.foldl_nil,appendBounded,List.nil_append,if_pos long,size,count]
  have left : (js "SECRET").drop 3 = js "RET" := by decide
  rw [bounded,List.drop_append_of_le_length (by decide),left]

end Northstar.Process
