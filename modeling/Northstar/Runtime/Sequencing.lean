import Northstar.Encoding
import Northstar.Runtime.Settlement

/-! The sequence numbers of the frames a client writes. A call takes its number before its
frame is encoded, so a frame that does not fit leaves a gap as soon as a later one fits. -/
namespace Northstar.Runtime
namespace BrokerClient

/- The calls that pass their local checks, in order. -/
def outgoing (options : ClientOptions) (welcome : Welcome) (calls : List Call) : List Outgoing :=
  calls.filterMap fun c => match admission options welcome c with
    | .error _ => none
    | .ok sent => some sent

/- An admitted call, under the sequence number it takes, fits the frame limit. -/
def fits (numbered : Outgoing × Nat) : Bool :=
  decide ((utf8 (stringify (numbered.1.message numbered.2))).length ≤ brokerMaxFrameBytes)

def welcomed (welcome : Welcome) : BrokerClient := { connected with welcome := some welcome }

theorem sendSequence (s : BrokerClient) (promise : Nat) (sent : Outgoing) :
    (s.send promise sent).sequence = s.sequence + 1 ∧ (s.send promise sent).socket = s.socket ∧
      (s.send promise sent).welcome = s.welcome ∧
      (s.send promise sent).written.map (·.sequence) = s.written.map (·.sequence) ++
        ([(sent,s.sequence + 1)].filter fits).map (·.2) := by
  unfold send encodeBrokerFrame fits
  dsimp only
  split
  · rename_i code refused
    split at refused <;> try contradiction
    rename_i large
    refine ⟨rfl,rfl,rfl,?_⟩
    simp [settle,Nat.not_le.mpr large]
  · rename_i frame encoded
    split at encoded <;> try contradiction
    rename_i small
    refine ⟨rfl,rfl,rfl,?_⟩
    simp [Nat.not_lt.mp small]

theorem callsSequence (options : ClientOptions) (welcome : Welcome) (calls : List Call)
    {s : BrokerClient} (socket : s.socket = true) (known : s.welcome = some welcome) :
    (calls.foldl (call options) s).written.map (·.sequence) = s.written.map (·.sequence) ++
      (((outgoing options welcome calls).zipIdx (s.sequence + 1)).filter fits).map (·.2) := by
  induction calls generalizing s with
  | nil => simp [outgoing]
  | cons c rest ih =>
    rw [List.foldl_cons]
    cases admitted : admission options welcome c with
    | error code =>
      have called : s.call options c =
          settle { s with calls := s.calls + 1 } s.calls (.rejected (.broker code)) := by
        simp only [call,socket,known,admitted]
      have later := ih (s := settle { s with calls := s.calls + 1 } s.calls (.rejected (.broker code)))
        socket known
      rw [called,later]
      simp only [outgoing,List.filterMap_cons,admitted]
      rfl
    | ok sent =>
      have called : s.call options c = send { s with calls := s.calls + 1 } s.calls sent := by
        simp only [call,socket,known,admitted]
      have facts := sendSequence { s with calls := s.calls + 1 } s.calls sent
      rw [called,ih (facts.2.1.trans socket) (facts.2.2.1.trans known),facts.2.2.2,facts.1]
      simp only [outgoing,List.filterMap_cons,admitted,List.zipIdx_cons,List.filter_cons,
        List.append_assoc]
      split <;> simp

/- Filtering consecutive numbers leaves consecutive numbers just when what goes is a tail. -/
theorem consecutive {α : Type} (p : α × Nat → Bool) (items : List α) (first : Nat) :
    (((items.zipIdx first).filter p).map (·.2) =
      List.range' first (((items.zipIdx first).filter p).length)) ↔
      (items.zipIdx first).Pairwise fun a b => p b → p a := by
  induction items generalizing first with
  | nil => simp
  | cons item rest ih =>
    rw [List.zipIdx_cons,List.pairwise_cons]
    cases kept : p (item,first) with
    | true =>
      rw [List.filter_cons_of_pos kept,List.map_cons,List.length_cons,List.range'_succ,List.cons.injEq]
      exact ⟨fun h => ⟨fun _ _ _ => rfl,(ih (first + 1)).mp h.2⟩,fun h => ⟨rfl,(ih (first + 1)).mpr h.2⟩⟩
    | false =>
      rw [List.filter_cons_of_neg (by simp [kept])]
      constructor
      · intro same
        have none : (rest.zipIdx (first + 1)).filter p = [] := by
          cases found : (rest.zipIdx (first + 1)).filter p with
          | nil => rfl
          | cons head tail =>
            rw [found,List.map_cons,List.length_cons,List.range'_succ,List.cons.injEq] at same
            have member : head ∈ rest.zipIdx (first + 1) :=
              List.mem_of_mem_filter (found ▸ List.mem_cons_self)
            have low := (List.mem_zipIdx member).1
            omega
        have refused := List.filter_eq_nil_iff.mp none
        exact ⟨fun b member fit => absurd fit (refused b member),
          List.Pairwise.imp_of_mem (fun left right _ fit => absurd fit (refused _ right))
            (List.pairwise_of_forall (fun _ _ => trivial) : List.Pairwise (fun _ _ => True) _)⟩
      · intro h
        have none : (rest.zipIdx (first + 1)).filter p = [] :=
          List.filter_eq_nil_iff.mpr fun b member fit => by simpa using h.1 b member fit
        rw [none]
        rfl

end BrokerClient

open BrokerClient

/-- The frames written over a series of calls carry the numbers 1, 2, 3, ... if and only if
no admitted call whose frame is too large comes before one whose frame fits. -/
theorem sequenceWithoutGap (options : ClientOptions) (welcome : Welcome) (calls : List Call) :
    ((calls.foldl (call options) (welcomed welcome)).written.map (·.sequence) =
      List.range' 1 (calls.foldl (call options) (welcomed welcome)).written.length) ↔
      ((outgoing options welcome calls).zipIdx 1).Pairwise fun a b => fits b → fits a := by
  have written := callsSequence options welcome calls
    (s := welcomed welcome) rfl rfl
  have count := congrArg List.length written
  simp only [List.length_map,List.length_append] at count
  rw [← consecutive fits (outgoing options welcome calls) 1,written,count]
  simp [welcomed,connected]

def startFields (prompt : JsString) : List (JsString × JsValue) :=
  [(js "modelId",.string (js "p/m")),(js "prompt",.string prompt),
    (js "maxOutputTokens",.number (.int 16)),(js "timeoutMs",.number (.int 1000)),
    (js "outputSchema",.undefined),
    (js "correlation",.object [(js "correlationVersion",.undefined),(js "owner",.string (js "northstar")),
      (js "correlationId",.string (js "c1")),(js "queryIndex",.number (.int 0)),
      (js "role",.string (js "researcher")),(js "stage",.string (js "gather")),
      (js "attempt",.number (.int 0))])]

def startFrom (prompt : JsString) : RuntimeRequest := ⟨js "a",.start,.object (startFields prompt)⟩

theorem promptAdmitted {prompt : JsString} (some' : prompt.length ≠ 0)
    (within : byteLength prompt ≤ maxPromptBytes) :
    checkStartParams (.object (startFields prompt)) = .ok (.object (startFields prompt)) := by
  have known : refuseUnknown .invalidParams "start" (startFields prompt)
      ["modelId","prompt","maxOutputTokens","timeoutMs","outputSchema","correlation"] = .ok () := rfl
  have model : checkModelId (JsValue.get (.object (startFields prompt)) "modelId") = .ok (js "p/m") := rfl
  have checked : checkString "prompt must be non-empty within byte limit."
      (fun s => s.length ≠ 0 && byteLength s ≤ maxPromptBytes)
      (JsValue.get (.object (startFields prompt)) "prompt") = .ok prompt := by
    have shape : (decide (prompt.length ≠ 0) && decide (byteLength prompt ≤ maxPromptBytes)) = true := by
      simp [some',within]
    exact if_pos shape
  have correlated : checkCorrelation (JsValue.get (.object (startFields prompt)) "correlation") =
      .ok (JsValue.get (.object (startFields prompt)) "correlation") := rfl
  have tokens : checkInteger "maxOutputTokens out of range." 1 maxNegotiatedOutputTokens
        (JsValue.get (.object (startFields prompt)) "maxOutputTokens") = .ok 16 := rfl
  have timeout : checkInteger "timeoutMs out of range." minTimeoutMs maxTimeoutMs
        (JsValue.get (.object (startFields prompt)) "timeoutMs") = .ok 1000 := rfl
  have schema : JsValue.get (.object (startFields prompt)) "outputSchema" = .undefined := rfl
  simp only [checkStartParams,fieldsOf,known,model,checked,tokens,timeout,schema,correlated,bind,Except.bind]
  rfl

theorem startAdmitted {prompt : JsString} (some' : prompt.length ≠ 0)
    (within : byteLength prompt ≤ maxPromptBytes) :
    validateRequest (startFrom prompt).json = .ok (startFrom prompt) := by
  have fields : fieldsOf (startFrom prompt).json = some
      [(js "version",.number (.int 1)),(js "requestId",.string (js "a")),
        (js "method",.string (js "start")),(js "params",.object (startFields prompt))] := rfl
  have known : refuseUnknown .invalidRequest "envelope"
      [(js "version",.number (.int 1)),(js "requestId",.string (js "a")),
        (js "method",.string (js "start")),(js "params",.object (startFields prompt))]
      ["version","requestId","method","params"] = .ok () := rfl
  have version : require .unsupportedVersion "Unsupported runtime version."
      (isNumber ((startFrom prompt).json.get "version") 1) = .ok () := rfl
  have requestId : checkRequestId ((startFrom prompt).json.get "requestId") = .ok (js "a") := rfl
  have method : methodOf ((startFrom prompt).json.get "method") = some .start := by
    have named : (startFrom prompt).json.get "method" = .string (js "start") := rfl
    rw [named]
    decide
  have params : checkParams .start ((startFrom prompt).json.get "params") =
      .ok (.object (startFields prompt)) := promptAdmitted some' within
  simp only [validateRequest,fields,known,version,requestId,method,params,bind,Except.bind]
  rfl

/- A prompt as long as the frame may be is admitted, and its frame never fits. -/
theorem fullPromptRefused (options : ClientOptions) (welcome : Welcome) (sequence : Nat)
    {prompt : JsString} (full : brokerMaxFrameBytes ≤ prompt.length) :
    brokerMaxFrameBytes < byteLength (stringify (requestMessage options welcome sequence (startFrom prompt))) := by
  have quoted : prompt.length + 2 ≤ byteLength (stringify (.string prompt)) :=
    Nat.le_trans (quoteGrows prompt) (lengthBytes _)
  have inParams : byteLength (stringify (.string prompt)) ≤
      byteLength (stringify (.object (startFields prompt))) :=
    fieldWithin _ (List.mem_cons_of_mem _ List.mem_cons_self) rfl
  have inRequest : byteLength (stringify (.object (startFields prompt))) ≤
      byteLength (stringify (startFrom prompt).json) :=
    fieldWithin (js "params") (by simp [startFrom]) rfl
  have inMessage : byteLength (stringify (startFrom prompt).json) ≤
      byteLength (stringify (requestMessage options welcome sequence (startFrom prompt))) :=
    fieldWithin (js "request") (by simp) rfl
  omega

theorem startAdmittedFrom (prompt : JsString) (some' : prompt.length ≠ 0)
    (within : byteLength prompt ≤ maxPromptBytes) :
    admission cliOptions cliWelcome (.request (startFrom prompt).json) =
      .ok ⟨true,fun sequence => requestMessage cliOptions cliWelcome sequence (startFrom prompt)⟩ := by
  have granted : cliWelcome.capabilities.contains (capabilityForMethod (startFrom prompt).method) = true :=
    rfl
  simp only [admission,startAdmitted some' within,granted,if_true]
  rfl

def gapCalls (prompt : JsString) : List Call :=
  [.request (startFrom prompt).json,.request (startFrom (js "a")).json]

set_option maxRecDepth 16384 in
theorem fullPromptLeavesGap (prompt : JsString) (full : brokerMaxFrameBytes ≤ prompt.length)
    (within : byteLength prompt ≤ maxPromptBytes) :
    ((gapCalls prompt).foldl (call cliOptions) (welcomed cliWelcome)).written.map (·.sequence) = [2] := by
  have some' : prompt.length ≠ 0 := Nat.ne_of_gt (Nat.lt_of_lt_of_le (by decide) full)
  have first : fits (⟨true,fun sequence =>
      requestMessage cliOptions cliWelcome sequence (startFrom prompt)⟩,1) = false :=
    decide_eq_false (Nat.not_le.mpr (fullPromptRefused cliOptions cliWelcome 1 full))
  have second : fits (⟨true,fun sequence =>
      requestMessage cliOptions cliWelcome sequence (startFrom (js "a"))⟩,2) = true := by
    decide
  have sent : outgoing cliOptions cliWelcome (gapCalls prompt) =
      [⟨true,fun sequence => requestMessage cliOptions cliWelcome sequence (startFrom prompt)⟩,
        ⟨true,fun sequence => requestMessage cliOptions cliWelcome sequence (startFrom (js "a"))⟩] := by
    simp only [outgoing,gapCalls,List.filterMap_cons,List.filterMap_nil,startAdmittedFrom prompt some' within,
      startAdmittedFrom (js "a") (by decide) (by decide)]
  rw [callsSequence cliOptions cliWelcome (gapCalls prompt) (s := welcomed cliWelcome) rfl rfl,sent]
  have begun : (welcomed cliWelcome).sequence = 0 ∧ (welcomed cliWelcome).written = [] := ⟨rfl,rfl⟩
  simp only [begun.1,begun.2,List.map_nil,List.nil_append,List.zipIdx_cons,List.zipIdx_nil,
    List.filter_cons,first,second,if_true,if_false,Bool.false_eq_true,List.filter_nil,List.map_cons,
    Nat.zero_add]

theorem largePromptLeavesGap :
    ¬((gapCalls (List.replicate maxPromptBytes 97)).foldl (call cliOptions)
        (welcomed cliWelcome)).written.map (·.sequence) =
      List.range' 1 ((gapCalls (List.replicate maxPromptBytes 97)).foldl (call cliOptions)
        (welcomed cliWelcome)).written.length := by
  have written := fullPromptLeavesGap (List.replicate maxPromptBytes 97)
    (Nat.le_of_eq List.length_replicate.symm) (Nat.le_of_eq (repeatedBytes _))
  have count := congrArg List.length written
  rw [List.length_map] at count
  rw [written,count]
  decide

end Northstar.Runtime
