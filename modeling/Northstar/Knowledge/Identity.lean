import Northstar.Knowledge.Aggregate
import Northstar.Separated

/-! Which entities share an identity key, and what the merged entities keep of the ids that mentions and
facts refer to (knowledge-aggregate.ts, knowledge-normalize.ts). -/
namespace Northstar.Knowledge
open Grouping

/- What an identity key stands for. -/
structure IdentitySignal where
  basis : KgAlignmentBasis
  scope : Option JsString
  value : JsString
  deriving DecidableEq, Repr

section
variable (toLowerCase : JsString → JsString) (normalizeUrl : JsString → Option JsString)

def identitySignal (input : KgEntityInput) : IdentitySignal :=
  let signals := signalsOf toLowerCase normalizeUrl input
  match signals.canonicalUrl,signals.emails,signals.phones,signals.externalIds,(input.entity.name.map JsValue.string).bind trimmed with
  | some url,_,_,_,_ => ⟨.canonicalUrl,some (toLowerCase input.entity.type),url⟩
  | none,email :: _,_,_,_ => ⟨.email,none,email⟩
  | none,[],phone :: _,_,_ => ⟨.phone,none,phone⟩
  | none,[],[],id :: _,_ => ⟨.externalIdentifier,none,id⟩
  | none,[],[],[],some name => ⟨.typedIdentity,some (toLowerCase input.entity.type),toLowerCase name⟩
  | none,[],[],[],none => ⟨.providerId,some input.provider,signals.providerId⟩

/- The inputs of each identity signal, in the order of its first input. -/
def signalGroups (inputs : List KgEntityInput) : List (KgAlignmentBasis × List KgEntityMember) :=
  (inputs.map (identitySignal toLowerCase normalizeUrl)).eraseDups.map fun signal =>
    (signal.basis,(inputs.filter fun input => identitySignal toLowerCase normalizeUrl input = signal).map memberOf)

end

def KgAlignmentBasis.scoped : KgAlignmentBasis → Bool
  | .canonicalUrl => true
  | .typedIdentity => true
  | .providerId => true
  | _ => false

def IdentitySignal.joined (signal : IdentitySignal) : JsString :=
  signal.basis.name ++ 58 :: match signal.scope with
    | some scope => scope ++ 58 :: signal.value
    | none => signal.value

/- The scope of one goes on over a colon into the other's, whose value it then begins. -/
def Shifted (a b : IdentitySignal) : Prop := a.basis = b.basis ∧ ∃ scope longer, a.scope = some scope ∧ b.scope = some longer ∧
  ∃ middle, longer = scope ++ 58 :: middle ∧ a.value = middle ++ 58 :: b.value

variable {toLowerCase : JsString → JsString} {normalizeUrl : JsString → Option JsString}

theorem signalScoped (input : KgEntityInput) : (identitySignal toLowerCase normalizeUrl input).scope.isSome =
    (identitySignal toLowerCase normalizeUrl input).basis.scoped := by
  unfold identitySignal
  dsimp only
  split <;> rfl

theorem colonNamed {text : JsString} {basis : KgAlignmentBasis} (named : text = basis.name ++ [58]) (rest : JsString) :
    text ++ rest = basis.name ++ 58 :: rest := by
  rw [named,List.append_assoc,List.singleton_append]

theorem identityRead (input : KgEntityInput) :
    (identityOf toLowerCase normalizeUrl input).key = (identitySignal toLowerCase normalizeUrl input).joined ∧
      (identityOf toLowerCase normalizeUrl input).basis = (identitySignal toLowerCase normalizeUrl input).basis := by
  unfold identityOf identitySignal conservativeIdentityKey typedIdentity
  generalize signalsOf toLowerCase normalizeUrl input = signals
  rcases signals with ⟨providerId,canonicalUrl,emails,phones,externalIds⟩
  cases canonicalUrl with
  | some url => exact ⟨(List.append_assoc ..).trans (@colonNamed _ .canonicalUrl (by decide) _),rfl⟩
  | none =>
    cases emails with
    | cons email rest => exact ⟨@colonNamed _ .email (by decide) _,rfl⟩
    | nil =>
      cases phones with
      | cons phone rest => exact ⟨@colonNamed _ .phone (by decide) _,rfl⟩
      | nil =>
        cases externalIds with
        | cons id rest => exact ⟨@colonNamed _ .externalIdentifier (by decide) _,rfl⟩
        | nil =>
          cases (input.entity.name.map JsValue.string).bind trimmed with
          | some name => exact ⟨@colonNamed _ .typedIdentity (by decide) _,rfl⟩
          | none => exact ⟨(List.append_assoc ..).trans (@colonNamed _ .providerId (by decide) _),rfl⟩

theorem keyJoined (input : KgEntityInput) : keyOf toLowerCase normalizeUrl input = (identitySignal toLowerCase normalizeUrl input).joined :=
  (identityRead input).1

theorem nameColonless (basis : KgAlignmentBasis) : 58 ∉ basis.name := by
  cases basis <;> decide

theorem nameInjective {a b : KgAlignmentBasis} (same : a.name = b.name) : a = b := by
  cases a <;> cases b <;> first | rfl | exact absurd same (by decide)

theorem joinedTold {a b : IdentitySignal} (first : a.scope.isSome = a.basis.scoped) (second : b.scope.isSome = b.basis.scoped) :
    a.joined = b.joined ↔ a = b ∨ Shifted a b ∨ Shifted b a := by
  constructor
  · intro same
    obtain ⟨names,rest⟩ := Separated.firstSeparator (nameColonless _) (nameColonless _) same
    have basis := nameInjective names
    rcases a with ⟨basis_,scope,value⟩
    rcases b with ⟨_,scope',value'⟩
    obtain rfl : basis_ = _ := basis
    cases scope with
    | none =>
      cases scope' with
      | none => exact .inl (congrArg _ rest)
      | some _ => exact absurd (first.trans second.symm) nofun
    | some scope =>
      cases scope' with
      | none => exact absurd (first.trans second.symm) nofun
      | some longer =>
        rcases Separated.laterSeparator.mp rest with ⟨rfl,rfl⟩ | ⟨middle,more,value⟩ | ⟨middle,more,value⟩
        · exact .inl rfl
        · exact .inr (.inl ⟨rfl,scope,longer,rfl,rfl,middle,more,value⟩)
        · exact .inr (.inr ⟨rfl,longer,scope,rfl,rfl,middle,more,value⟩)
  · have shifted {a b : IdentitySignal} : Shifted a b → a.joined = b.joined := by
      rintro ⟨basis,scope,longer,own,other,middle,more,value⟩
      unfold IdentitySignal.joined
      rw [basis,own,other,more,value]
      simp
    rintro (rfl | first | second)
    · rfl
    · exact shifted first
    · exact (shifted second).symm

theorem shiftedApart (a : IdentitySignal) : ¬ Shifted a a := by
  rintro ⟨_,scope,longer,own,other,middle,more,_⟩
  obtain rfl : scope = longer := Option.some.inj (own.symm.trans other)
  exact absurd (congrArg List.length more) (by simp)

theorem builtGroup {alignmentConfidenceFor : KgAlignmentBasis → Option Number} (rows : List KgEntityInput) {group : KgEntityGroup}
    (made : built (startEntities toLowerCase normalizeUrl alignmentConfidenceFor) addEntity rows = some group) :
    group.members = rows.map memberOf ∧ ∃ row ∈ rows, group.basis = (identityOf toLowerCase normalizeUrl row).basis := by
  induction rows using List.reverseRecOn generalizing group with
  | nil => cases made
  | append_singleton rows row ih =>
    rw [builtLast] at made
    cases before : built (startEntities toLowerCase normalizeUrl alignmentConfidenceFor) addEntity rows with
    | none =>
      rw [before] at made
      cases made
      cases rows with
      | nil => exact ⟨rfl,row,List.mem_singleton.mpr rfl,rfl⟩
      | cons first rest => cases before
    | some old =>
      rw [before] at made
      cases made
      obtain ⟨members,first,inside,basis⟩ := ih before
      refine ⟨?_,first,List.mem_append_left _ inside,basis⟩
      rw [List.map_append,← members]
      rfl

/-- Each input is in the group of its identity signal alone, just when no two signals of a list read the same around a colon. -/
theorem groupedExactly (toLowerCase : JsString → JsString) (normalizeUrl : JsString → Option JsString)
    (alignmentConfidenceFor : KgAlignmentBasis → Option Number) (inputs : List KgEntityInput) :
    (groupKgEntitiesByIdentity toLowerCase normalizeUrl alignmentConfidenceFor inputs).map (fun group => (group.basis,group.members)) =
      signalGroups toLowerCase normalizeUrl inputs ↔
    ∀ a ∈ inputs, ∀ b ∈ inputs, ¬ Shifted (identitySignal toLowerCase normalizeUrl a) (identitySignal toLowerCase normalizeUrl b) := by
  have folded : groupKgEntitiesByIdentity toLowerCase normalizeUrl alignmentConfidenceFor inputs =
      (grouped (keyOf toLowerCase normalizeUrl) (startEntities toLowerCase normalizeUrl alignmentConfidenceFor) addEntity inputs).map
        Prod.snd := rfl
  rw [folded,List.map_map]
  constructor
  · intro same a first b second shifted
    have many := congrArg List.length same
    rw [List.length_map,signalGroups,List.length_map,← List.length_map Prod.fst,groupedKeys] at many
    have key := asMany IdentitySignal.joined keyJoined many a first b second (by
      rw [keyJoined,keyJoined]
      exact (joinedTold (signalScoped a) (signalScoped b)).mpr (.inr (.inl shifted)))
    rw [key] at shifted
    exact shiftedApart _ shifted
  · intro apart
    have told : ∀ a ∈ inputs, ∀ b ∈ inputs, keyOf toLowerCase normalizeUrl a = keyOf toLowerCase normalizeUrl b ↔
        identitySignal toLowerCase normalizeUrl a = identitySignal toLowerCase normalizeUrl b := by
      intro a first b second
      rw [keyJoined,keyJoined,joinedTold (signalScoped a) (signalScoped b)]
      exact ⟨fun either => either.elim id fun shifted => absurd shifted (not_or.mpr ⟨apart a first b second,apart b second a first⟩),.inl⟩
    obtain ⟨firsts,inside,keys,signals⟩ := firstRows inputs told
    rw [signalGroups,signals,List.map_map]
    refine mapAlong ((groupedKeys inputs).trans keys) fun group member row first same => ?_
    obtain ⟨members,other,there,basis⟩ := builtGroup _ (groupedMade inputs group member)
    obtain ⟨held,keyed⟩ := List.mem_filter.mp there
    have alike := (told other held row (inside row first)).mp ((of_decide_eq_true keyed).trans same)
    refine Prod.ext ?_ (members.trans (congrArg (List.map memberOf) (List.filter_congr fun input known => ?_)))
    · exact basis.trans ((identityRead other).2.trans (congrArg IdentitySignal.basis alike))
    · rw [same,decide_eq_decide]
      exact told input known row (inside row first)

theorem colonMerges : (groupKgEntitiesByIdentity id (fun _ => none) (fun _ => none)
    [⟨⟨js "1",js "diffbot",some (js "skill:go"),none,none⟩,[],.undefined,none⟩,
      ⟨⟨js "2",js "diffbot:skill",some (js "go"),none,none⟩,[],.undefined,none⟩]).map (fun group => (group.basis,group.members)) ≠
    signalGroups id (fun _ => none) [⟨⟨js "1",js "diffbot",some (js "skill:go"),none,none⟩,[],.undefined,none⟩,
      ⟨⟨js "2",js "diffbot:skill",some (js "go"),none,none⟩,[],.undefined,none⟩] := by
  decide

/- Entities as an analysed text gives them. -/
def textInput (entity : KgEntity) : KgEntityInput := { entity := entity, provider := [] }

/- The first entity of some identity key has this id. -/
def FirstOfKey (toLowerCase : JsString → JsString) (normalizeUrl : JsString → Option JsString) (entities : List KgEntity) (id : JsString) :
    Prop := ∃ before entity after, entities = before ++ entity :: after ∧ entity.id = id ∧
  ∀ other ∈ before, keyOf toLowerCase normalizeUrl (textInput other) ≠ keyOf toLowerCase normalizeUrl (textInput entity)

def mergeMember (member : KgEntityMember) (input : KgEntityInput) : KgEntityMember :=
  { member with entity := mergeKgEntityRepresentations member.entity input.entity }

theorem mergedId (rows : List KgEntityInput) (member : KgEntityMember) : (rows.foldl mergeMember member).entity.id = member.entity.id := by
  induction rows generalizing member with
  | nil => rfl
  | cons row rest ih => exact ih _

theorem keptId {entities : List KgEntity} {id : JsString} :
    (∃ entity ∈ (dedupeKgEntities toLowerCase normalizeUrl (entities.map textInput)).map (·.entity), entity.id = id) ↔
      FirstOfKey toLowerCase normalizeUrl entities id := by
  have folded : dedupeKgEntities toLowerCase normalizeUrl (entities.map textInput) =
      (grouped (keyOf toLowerCase normalizeUrl) memberOf mergeMember (entities.map textInput)).map Prod.snd := rfl
  rw [folded,List.map_map]
  constructor
  · rintro ⟨_,member,rfl⟩
    obtain ⟨group,inside,rfl⟩ := List.mem_map.mp member
    have made := groupedMade _ group inside
    cases rows : (entities.map textInput).filter fun row => keyOf toLowerCase normalizeUrl row = group.1 with
    | nil =>
      rw [rows] at made
      cases made
    | cons row rest =>
      rw [rows] at made
      obtain ⟨before,after,split,none_,keyed,_⟩ := List.filter_eq_cons_iff.mp rows
      obtain ⟨before,more,rfl,rfl,tail⟩ := List.map_eq_append_iff.mp split
      obtain ⟨entity,after,rfl,rfl,rfl⟩ := List.map_eq_cons_iff.mp tail
      refine ⟨before,entity,after,rfl,?_,fun other there same => ?_⟩
      · exact (mergedId rest (memberOf (textInput entity))).symm.trans (congrArg (fun m => m.entity.id) (Option.some.inj made))
      · exact none_ _ (List.mem_map_of_mem there) (decide_eq_true (same.trans (of_decide_eq_true keyed)))
  · rintro ⟨before,entity,after,rfl,rfl,first⟩
    have there : textInput entity ∈ (before ++ entity :: after).map textInput := List.mem_map_of_mem (by simp)
    obtain ⟨group,inside,keyed⟩ : ∃ group ∈ grouped (keyOf toLowerCase normalizeUrl) memberOf mergeMember
        ((before ++ entity :: after).map textInput), group.1 = keyOf toLowerCase normalizeUrl (textInput entity) := groupOf there
    have made := groupedMade _ group inside
    have none_ : (before.map textInput).filter (fun row => keyOf toLowerCase normalizeUrl row = group.1) = [] := by
      refine List.filter_eq_nil_iff.mpr fun row member same => ?_
      obtain ⟨other,earlier,rfl⟩ := List.mem_map.mp member
      exact first other earlier ((of_decide_eq_true same).trans keyed)
    rw [List.map_append,List.filter_append,none_,List.map_cons,List.filter_cons_of_pos (by simpa using keyed.symm)] at made
    refine ⟨_,List.mem_map_of_mem inside,?_⟩
    exact (congrArg (fun m => m.entity.id) (Option.some.inj made)).symm.trans (mergedId _ _)

def slice (text : JsString) (offset length : Nat) : JsString := (text.drop offset).take length

structure ReferencesKept (input : KgTextAnalysisInput) (output : KgTextAnalysisResult) : Prop where
  mentions : ∀ mention ∈ output.mentions, (∃ entity ∈ input.entities, entity.id = mention.entityId) →
    ∃ entity ∈ output.entities, entity.id = mention.entityId
  facts : ∀ fact ∈ output.facts, (∃ entity ∈ input.entities, entity.id = fact.subjectId) → ∃ entity ∈ output.entities, entity.id = fact.subjectId
  spans : ∀ mention ∈ output.mentions, mention.text = slice input.text mention.offset mention.length

/- Whoever a mention or a fact of the input names comes before its duplicates, and each accepted span is quoted as it stands. -/
structure NamesFirst (toLowerCase : JsString → JsString) (normalizeUrl : JsString → Option JsString) (input : KgTextAnalysisInput) :
    Prop where
  mentions : ∀ raw ∈ input.mentions, ∀ mention, normalizeKgMention raw input.text.length = some mention →
    ∀ entity ∈ input.entities, entity.id = mention.entityId → FirstOfKey toLowerCase normalizeUrl input.entities entity.id
  facts : ∀ fact ∈ input.facts, ∀ entity ∈ input.entities, entity.id = fact.subjectId →
    FirstOfKey toLowerCase normalizeUrl input.entities entity.id
  quoted : ∀ raw ∈ input.mentions, ∀ mention, normalizeKgMention raw input.text.length = some mention →
    raw.get "text" = .string (slice input.text mention.offset mention.length)

theorem mentionText {raw : JsValue} {textLength : Nat} {mention : KgMention} (accepted : normalizeKgMention raw textLength = some mention) :
    raw.get "text" = .string mention.text := by
  unfold normalizeKgMention at accepted
  simp only [bind,Option.bind_eq_some_iff] at accepted
  obtain ⟨entityId,_,text,own,offset,_,length,_,last⟩ := accepted
  split at last
  · cases last
  · cases last
    cases value : raw.get "text" <;> rw [value] at own <;> cases own
    rfl

/-- The references and spans of an analysed text hold just when no named entity is a later duplicate and each span is quoted. -/
theorem referencesExactly (toLowerCase : JsString → JsString) (normalizeUrl : JsString → Option JsString) (input : KgTextAnalysisInput) :
    ReferencesKept input (aggregateKgTextAnalysis toLowerCase normalizeUrl input) ↔ NamesFirst toLowerCase normalizeUrl input := by
  have listed (mention : KgMention) : mention ∈ (aggregateKgTextAnalysis toLowerCase normalizeUrl input).mentions ↔
      ∃ raw ∈ input.mentions, normalizeKgMention raw input.text.length = some mention := List.mem_filterMap
  constructor
  · intro kept
    refine ⟨fun raw member mention accepted entity there same => ?_,fun fact member entity there same => ?_,
      fun raw member mention accepted => ?_⟩
    · rw [same]
      exact keptId.mp (kept.mentions mention ((listed mention).mpr ⟨raw,member,accepted⟩) ⟨entity,there,same⟩)
    · rw [same]
      exact keptId.mp (kept.facts fact member ⟨entity,there,same⟩)
    · rw [mentionText accepted,kept.spans mention ((listed mention).mpr ⟨raw,member,accepted⟩)]
  · intro first
    refine ⟨fun mention member => ?_,fun fact member => ?_,fun mention member => ?_⟩
    · rintro ⟨entity,there,same⟩
      obtain ⟨raw,inside,accepted⟩ := (listed mention).mp member
      exact keptId.mpr (same ▸ first.mentions raw inside mention accepted entity there same)
    · rintro ⟨entity,there,same⟩
      exact keptId.mpr (same ▸ first.facts fact member entity there same)
    · obtain ⟨raw,inside,accepted⟩ := (listed mention).mp member
      exact JsValue.string.inj ((mentionText accepted).symm.trans (first.quoted raw inside mention accepted))

theorem laterUnnamed : ¬ ReferencesKept
    { text := js "Ada", entities := [⟨js "e1",js "person",some (js "ada"),none,none⟩,⟨js "e2",js "person",some (js "ada"),none,none⟩],
      facts := [{ subjectId := js "e2", predicate := js "bornIn" }] }
    (aggregateKgTextAnalysis id (fun _ => none)
      { text := js "Ada", entities := [⟨js "e1",js "person",some (js "ada"),none,none⟩,⟨js "e2",js "person",some (js "ada"),none,none⟩],
        facts := [{ subjectId := js "e2", predicate := js "bornIn" }] }) := by
  intro kept
  have named := kept.facts _ (List.mem_singleton.mpr rfl) ⟨_,List.mem_cons_of_mem _ List.mem_cons_self,rfl⟩
  exact absurd named (by decide)

end Northstar.Knowledge
