import Mathlib
import Northstar.Agent.Journal

/-! A journal in its canonical bytes: what JSON.parse reads of them is the same journal to every check, whatever the order
in which its events listed their fields. -/
namespace Northstar.Agent
open Json (Numerals Plain Enumerated enumeratedKeys parse)
open State (boundedText isRecord natural notNegative)

theorem lookupMember {fields : List (JsString × JsValue)} (distinct : (fields.map Prod.fst).Nodup) (key : JsString) (value : JsValue) :
    fields.lookup key = some value ↔ (key,value) ∈ fields := by
  induction fields with
  | nil => simp
  | cons field rest ih =>
    obtain ⟨name,held⟩ := field
    obtain ⟨fresh,later⟩ := List.nodup_cons.mp distinct
    rw [List.lookup_cons,List.mem_cons,Prod.mk.injEq]
    by_cases same : key = name
    · subst same
      have none_ : (key,value) ∉ rest := fun member => fresh (List.mem_map.mpr ⟨(key,value),member,rfl⟩)
      simp [none_,eq_comm]
    · have apart : (key == name) = false := beq_eq_false_iff_ne.mpr same
      simp [apart,same,ih later]

theorem lookupSame {fields others : List (JsString × JsValue)} (perm : fields.Perm others) (distinct : (fields.map Prod.fst).Nodup)
    (key : JsString) : fields.lookup key = others.lookup key := by
  have once : (others.map Prod.fst).Nodup := ((perm.map Prod.fst).nodup_iff).mp distinct
  refine Option.ext fun value => ?_
  rw [lookupMember distinct,lookupMember once,perm.mem_iff]

theorem lookupMapped (fields : List (JsString × JsValue)) (key : JsString) :
    (canonicalizeFields fields).lookup key = (fields.lookup key).map canonicalize := by
  induction fields with
  | nil => simp [canonicalizeFields]
  | cons field rest ih =>
    obtain ⟨name,held⟩ := field
    rw [canonicalizeFields,List.lookup_cons,List.lookup_cons]
    cases key == name
    · exact ih
    · rfl

section Checks
variable {numerals : Numerals}

theorem getPlain {v : JsValue} (plain : Plain numerals v) (key : String) :
    v.get key = .undefined ∨ Plain numerals (v.get key) := by
  cases v with
  | object fields =>
    rw [JsValue.get]
    cases found : fields.lookup (js key) with
    | none => exact .inl rfl
    | some value =>
      rw [Plain] at plain
      have member := (lookupMember (listedKeys plain.1) _ value).mp found
      exact .inr ((plainFields numerals fields).mp plain.2 _ member)
  | _ => exact .inl rfl

theorem getCanonical {v : JsValue} (plain : Plain numerals v) (key : String) : (canonicalize v).get key = canonicalize (v.get key) := by
  cases v with
  | object fields =>
    rw [Plain] at plain
    obtain ⟨perm,listed⟩ := canonicalFields fields (listedKeys plain.1)
    rw [canonicalize,JsValue.get,JsValue.get,lookupSame perm (listedKeys listed),lookupMapped]
    cases fields.lookup (js key) <;> simp [canonicalize]
  | _ => simp [canonicalize,JsValue.get]

theorem keysCanonical {v : JsValue} (plain : v = .undefined ∨ Plain numerals v) : (keysOf (canonicalize v)).Perm (keysOf v) := by
  cases v with
  | object fields =>
    have held : Plain numerals (.object fields) := plain.resolve_left fun same => by simp at same
    rw [Plain] at held
    have perm := (canonicalFields fields (listedKeys held.1)).1.map Prod.fst
    rw [canonicalizeKeys] at perm
    rw [canonicalize]
    exact perm
  | _ => simp [canonicalize,keysOf]

@[simp]
theorem naturalSame (v : JsValue) : natural (canonicalize v) = natural v := by
  cases v <;> simp [canonicalize,natural]

@[simp]
theorem notNegativeSame (v : JsValue) : notNegative (canonicalize v) = notNegative v := by
  cases v <;> simp [canonicalize,notNegative]

@[simp]
theorem stringSame (v : JsValue) : (canonicalize v).asString = v.asString := by
  cases v <;> simp [canonicalize,JsValue.asString]

@[simp]
theorem boundedSame (v : JsValue) (bound : Nat) : boundedText (canonicalize v) bound = boundedText v bound := by
  simp [boundedText]

@[simp]
theorem absentSame (v : JsValue) : absent (canonicalize v) = absent v := by
  cases v <;> simp [canonicalize,absent]

@[simp]
theorem booleanSame (v : JsValue) : isBoolean (canonicalize v) = isBoolean v := by
  cases v <;> simp [canonicalize,isBoolean]

@[simp]
theorem recordSame (v : JsValue) : isRecord (canonicalize v) = isRecord v := by
  cases v <;> simp [canonicalize,isRecord]

@[simp]
theorem questionsSame (v : JsValue) : questionIdList (canonicalize v) = questionIdList v := by
  cases v with
  | array items =>
    rw [canonicalize,questionIdList,questionIdList,canonicalizeItemsMap,List.mapM_map]
    simp [Function.comp_def]
  | _ => simp [canonicalize,questionIdList]

theorem hasSame {v : JsValue} (plain : v = .undefined ∨ Plain numerals v) (key : String) :
    hasKey (canonicalize v) key = hasKey v key := by
  rw [Bool.eq_iff_iff]
  simp only [hasKey,List.contains_iff_mem]
  exact (keysCanonical plain).mem_iff

theorem identitySame {v : JsValue} (plain : v = .undefined ∨ Plain numerals v) : checkIdentity (canonicalize v) = checkIdentity v := by
  rcases plain with rfl | plain
  · simp [canonicalize]
  · have keys : (keysOf (canonicalize v)).all (fun key => key = js "provider" || key = js "query" || key = js "nodeId") =
        (keysOf v).all (fun key => key = js "provider" || key = js "query" || key = js "nodeId") := by
      rw [Bool.eq_iff_iff,List.all_eq_true,List.all_eq_true]
      exact forall_congr' fun key => imp_congr_left (keysCanonical (.inr plain)).mem_iff
    simp [checkIdentity,keys,getCanonical plain]

theorem sourceSame (canonicalUrl : JsValue) {identity : JsValue} (plain : identity = .undefined ∨ Plain numerals identity) :
    checkEvidenceSource (canonicalize canonicalUrl) (canonicalize identity) = checkEvidenceSource canonicalUrl identity := by
  simp [checkEvidenceSource,identitySame plain]

theorem locatorSame {v : JsValue} (plain : v = .undefined ∨ Plain numerals v) :
    checkEvidenceLocator (canonicalize v) = checkEvidenceLocator v := by
  rcases plain with rfl | plain
  · simp [canonicalize]
  · have has := hasSame (.inr plain)
    have length := (keysCanonical (.inr plain)).length_eq
    simp [checkEvidenceLocator,has,length,getCanonical plain,funext has]

theorem typeSame {v : JsValue} (plain : Plain numerals v) : eventType (canonicalize v) = eventType v := by
  simp [eventType,getCanonical plain]

theorem checksSame {v : JsValue} (plain : Plain numerals v) (type : AgentEventType) :
    typeChecks (canonicalize v) type = typeChecks v type := by
  have source := sourceSame (v.get "canonicalUrl") (getPlain plain "identity")
  have locator := locatorSame (getPlain plain "locator")
  cases type <;> simp [typeChecks,needQuery,needCount,needQuestions,needFlag,needUrl,needShape,getCanonical plain,source,locator]

theorem validSame {v : JsValue} (plain : Plain numerals v) :
    validateAgentResearchEvent (canonicalize v) = none ↔ validateAgentResearchEvent v = none := by
  have keys := keysCanonical (.inr plain)
  have has := hasSame (.inr plain)
  unfold validateAgentResearchEvent
  rw [recordSame,typeSame plain]
  split
  · rfl
  · cases eventType v with
    | none => rfl
    | some type =>
      dsimp only
      have unexpected : ((keysOf (canonicalize v)).find? fun key => !(type.eventKeys.map js).contains key) = none ↔
          ((keysOf v).find? fun key => !(type.eventKeys.map js).contains key) = none := by
        rw [List.find?_eq_none,List.find?_eq_none]
        exact forall_congr' fun key => imp_congr_left keys.mem_iff
      have missing : (type.eventKeys.find? fun key => !type.optionalKeys.contains key && !hasKey (canonicalize v) key) =
          type.eventKeys.find? fun key => !type.optionalKeys.contains key && !hasKey v key := by
        simp only [has]
      have owner : needShape (canonicalize v) "jobId" AgentJobs.jobIdShape = needShape v "jobId" AgentJobs.jobIdShape := by
        simp [needShape,getCanonical plain]
      rw [missing,checksSame plain,owner]
      cases one : (keysOf (canonicalize v)).find? fun key => !(type.eventKeys.map js).contains key with
      | none => rw [unexpected.mp one]
      | some key => cases two : (keysOf v).find? fun key => !(type.eventKeys.map js).contains key with
        | none => exact absurd (unexpected.mpr two) (by simp only [one]; simp)
        | some other => simp

theorem toldSame {v : JsValue} (plain : Plain numerals v) (types : List AgentEventType) (field : String) :
    told types field (canonicalize v) = told types field v := by
  simp [told,typeSame plain,countIn,getCanonical plain]

theorem toldAll {events : List JsValue} (plain : ∀ event ∈ events, Plain numerals event) (types : List AgentEventType) (field : String) :
    (events.map canonicalize).filterMap (told types field) = events.filterMap (told types field) := by
  rw [List.filterMap_map]
  exact List.filterMap_congr fun event member => toldSame (plain event member) types field

theorem projectedSame {events : List JsValue} (plain : ∀ event ∈ events, Plain numerals event) :
    projected (events.map canonicalize) = projected events := by
  have evidence : (events.map canonicalize).filterMap evidenceIn = events.filterMap evidenceIn := by
    rw [List.filterMap_map]
    exact List.filterMap_congr fun event member => by
      simp [evidenceIn,textIn,typeSame (plain event member),getCanonical (plain event member)]
  have questions : (events.map canonicalize).flatMap questionsIn = events.flatMap questionsIn := by
    rw [List.flatMap_map]
    exact List.flatMap_congr fun event member => by
      simp [questionsIn,questionsOf,typeSame (plain event member),getCanonical (plain event member)]
  simp [projected,toldAll plain,evidence,questions]

theorem ownerSame {v : JsValue} (plain : Plain numerals v) : jobIdOf (canonicalize v) = jobIdOf v := by
  simp [jobIdOf,getCanonical plain]

theorem replaysSame {events : List JsValue} (plain : ∀ event ∈ events, Plain numerals event) (jobId : JsString) :
    Replays jobId (events.map canonicalize) ↔ Replays jobId events := by
  have rounds := toldAll plain roundTypes "round"
  have searches := toldAll plain [.searchCompleted] "searchesUsed"
  have fetches := toldAll plain [.fetchCompleted] "fetchesUsed"
  have valid (event : JsValue) (member : event ∈ events) :
      (validateAgentResearchEvent (canonicalize event) = none ∧ jobIdOf (canonicalize event) = some jobId ↔
        validateAgentResearchEvent event = none ∧ jobIdOf event = some jobId) := by
    rw [validSame (plain event member),ownerSame (plain event member)]
  have types (event : JsValue) (member : event ∈ events) := typeSame (plain event member)
  constructor
  · intro replays
    obtain ⟨first,rest,split,created,later⟩ := replays.opened
    refine ⟨fun event member => (valid event member).mp (replays.valid _ (List.mem_map_of_mem member)),?_,fun event member => ?_,
      rounds ▸ replays.rounds,searches ▸ replays.searches,fetches ▸ replays.fetches⟩
    · cases events with
      | nil => simp at split
      | cons event more =>
        rw [List.map_cons,List.cons.injEq] at split
        obtain ⟨rfl,rfl⟩ := split
        refine ⟨event,more,rfl,types event List.mem_cons_self ▸ created,fun other member => ?_⟩
        exact types other (List.mem_cons_of_mem _ member) ▸ later _ (List.mem_map_of_mem member)
    · rw [← types event (List.dropLast_subset _ member)]
      exact replays.ready _ (List.map_dropLast ▸ List.mem_map_of_mem member)
  · intro replays
    obtain ⟨first,rest,rfl,created,later⟩ := replays.opened
    refine ⟨fun event member => ?_,⟨canonicalize first,rest.map canonicalize,rfl,?_,fun event member => ?_⟩,fun event member => ?_,
      rounds.symm ▸ replays.rounds,searches.symm ▸ replays.searches,fetches.symm ▸ replays.fetches⟩
    · obtain ⟨other,inside,rfl⟩ := List.mem_map.mp member
      exact (valid other inside).mpr (replays.valid other inside)
    · rw [types first List.mem_cons_self]
      exact created
    · obtain ⟨other,inside,rfl⟩ := List.mem_map.mp member
      rw [types other (List.mem_cons_of_mem _ inside)]
      exact later other inside
    · rw [← List.map_dropLast] at member
      obtain ⟨other,inside,rfl⟩ := List.mem_map.mp member
      rw [types other (List.dropLast_subset _ inside)]
      exact replays.ready other inside

/- The stored journal, with its events as they are read back. -/
def storedJournal (jobId : JsString) (events : List JsValue) : JsValue :=
  .object [(js "events",.array (events.map canonicalize)),(js "jobId",.string jobId)]

theorem journalCanonical (jobId : JsString) (events : List JsValue) :
    canonicalize (.object [(js "jobId",.string jobId),(js "events",.array events)]) = storedJournal jobId events := by
  have order : [(js "jobId",JsValue.string jobId),(js "events",.array (events.map canonicalize))].mergeSort keyOrder =
      [(js "events",.array (events.map canonicalize)),(js "jobId",.string jobId)] := by
    refine keySorted (.swap ..) (List.pairwise_pair.mpr ?_)
    change js "events" < js "jobId"
    decide
  have listed : assigned [(js "events",.array (events.map canonicalize)),(js "jobId",JsValue.string jobId)] =
      [(js "events",.array (events.map canonicalize)),(js "jobId",.string jobId)] := rfl
  simp only [canonicalize,canonicalizeFields,canonicalizeItemsMap,order,listed,storedJournal]

end Checks

/- What JSON.parse reads of a journal's bytes replays as the journal does, its events' fields in whatever order. -/
theorem journalReadBack (numerals : Numerals) (jobId : JsString) (events : List JsValue)
    (plain : ∀ event ∈ events, Plain numerals event) (valid : ∀ event ∈ events, validateAgentResearchEvent event = none) :
    ∃ stored again, parse numerals (Utf8.decode (utf8 (serializeJournal jobId events))) = some stored ∧
      stored.get "jobId" = .string jobId ∧ stored.get "events" = .array again ∧
      projectAgentState again = projectAgentState events ∧
      ∀ id, replayable id jobId again = replayable id jobId events := by
  have whole : Plain numerals (.object [(js "jobId",.string jobId),(js "events",.array events)]) := by
    have listed : Enumerated [(js "jobId",.string jobId),(js "events",.array events)] := by
      refine enumeratedKeys ?_
      simp only [List.map_cons,List.map_nil]
      decide
    rw [Plain]
    refine ⟨listed,(plainFields numerals _).mpr fun field member => ?_⟩
    rcases List.mem_cons.mp member with rfl | rest
    · exact (by simp [Plain] : Plain numerals (.string jobId))
    · rw [List.mem_singleton.mp rest,Plain]
      exact (plainItems numerals events).mpr plain
  refine ⟨storedJournal jobId events,events.map canonicalize,?_,rfl,rfl,?_,fun id => ?_⟩
  · rw [← journalCanonical]
    exact (canonicalRead numerals whole).1
  · have again : ∀ event ∈ events.map canonicalize, validateAgentResearchEvent event = none := by
      intro event member
      obtain ⟨other,inside,rfl⟩ := List.mem_map.mp member
      exact (validSame (plain other inside)).mpr (valid other inside)
    rw [projectValid again,projectValid valid,projectedSame plain]
  · rw [Bool.eq_iff_iff]
    have same := replaysSame plain id
    constructor
    · intro replays
      obtain ⟨shaped,rfl,sound⟩ := replayedSound replays
      exact replayedWhole shaped (same.mp sound)
    · intro replays
      obtain ⟨shaped,rfl,sound⟩ := replayedSound replays
      exact replayedWhole shaped (same.mpr sound)

theorem shortPlain : ∀ event ∈ shortJournal, Plain Json.wholeNumerals event := by
  have number (i : Int) : Plain Json.wholeNumerals (.number (.int i)) := by simp [Plain,Json.wholeNumerals]
  have text (s : JsString) : Plain Json.wholeNumerals (.string s) := by simp [Plain]
  intro event member
  simp only [shortJournal,List.mem_cons,List.not_mem_nil,or_false] at member
  rcases member with rfl | rfl | rfl
  · rw [eventValue,Plain]
    exact ⟨by decide,by simp [Json.PlainFields,number,text]⟩
  · rw [eventValue,Plain]
    exact ⟨by decide,by simp [Json.PlainFields,number,text]⟩
  · rw [eventValue,Plain]
    exact ⟨by decide,by simp [Json.PlainFields,number,text]⟩

theorem shortReadBack :
    ∃ stored again, parse Json.wholeNumerals (Utf8.decode (utf8 (serializeJournal (js "a") shortJournal))) = some stored ∧
      stored.get "jobId" = .string (js "a") ∧ stored.get "events" = .array again ∧
      projectAgentState again = projectAgentState shortJournal ∧
      ∀ id, replayable id (js "a") again = replayable id (js "a") shortJournal :=
  journalReadBack Json.wholeNumerals (js "a") shortJournal shortPlain (by decide)

end Northstar.Agent
