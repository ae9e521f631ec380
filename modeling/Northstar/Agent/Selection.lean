import Northstar.Agent.Catalog

/-! The source compiler and the order of its input: groups are found in the order of the list,
but their members, scores and places are not read off it. -/
namespace Northstar.Agent

variable {p : Platform}

def sourceUrl (p : Platform) (entry : AgentEvidence) : Option JsString := (evidenceSourceKey p entry).map (·.url)

/- The groups of a list of evidence, in whatever order. -/
structure GroupsOf (p : Platform) (evidence : List AgentEvidence) (groups : List SourceGroup) : Prop where
  once : (groups.map (·.key.url)).Nodup
  items : ∀ group ∈ groups, group.items = evidence.filter fun entry => sourceUrl p entry = some group.key.url
  key : ∀ group ∈ groups, ∃ entry ∈ evidence, evidenceSourceKey p entry = some group.key
  covers : ∀ entry ∈ evidence, ∀ url, sourceUrl p entry = some url → ∃ group ∈ groups, group.key.url = url

theorem addedUrls (key : SourceKey) (entry : AgentEvidence) (groups : List SourceGroup) :
    (addToGroup key entry groups).map (·.key.url) =
      if key.url ∈ groups.map (·.key.url) then groups.map (·.key.url) else groups.map (·.key.url) ++ [key.url] := by
  induction groups with
  | nil => rfl
  | cons first rest ih =>
    unfold addToGroup
    split
    · rename_i same
      rw [if_pos (by simp [same])]
      rfl
    · rename_i other
      have apart : key.url ≠ first.key.url := fun same => other same.symm
      rw [List.map_cons,ih,List.map_cons]
      by_cases there : key.url ∈ rest.map (·.key.url)
      · rw [if_pos there,if_pos (List.mem_cons_of_mem _ there)]
      · rw [if_neg there,if_neg (by simpa [apart] using there)]
        rfl

theorem addedMember {key : SourceKey} {entry : AgentEvidence} {groups : List SourceGroup} {group : SourceGroup}
    (once : (groups.map (·.key.url)).Nodup) (member : group ∈ addToGroup key entry groups) :
    (group ∈ groups ∧ group.key.url ≠ key.url) ∨
    (∃ old ∈ groups, old.key.url = key.url ∧ group = { old with items := old.items ++ [entry] }) ∨
    (key.url ∉ groups.map (·.key.url) ∧ group = ⟨key,[entry]⟩) := by
  induction groups with
  | nil => exact .inr (.inr ⟨List.not_mem_nil,List.mem_singleton.mp member⟩)
  | cons first rest ih =>
    obtain ⟨fresh,later⟩ := List.nodup_cons.mp once
    unfold addToGroup at member
    split at member
    · rename_i same
      rcases List.mem_cons.mp member with here | further
      · exact .inr (.inl ⟨first,List.mem_cons_self,same,here⟩)
      · refine .inl ⟨List.mem_cons_of_mem _ further,fun again => fresh ?_⟩
        exact List.mem_map.mpr ⟨group,further,again.trans same.symm⟩
    · rename_i other
      rcases List.mem_cons.mp member with here | further
      · exact .inl ⟨here ▸ List.mem_cons_self,here ▸ other⟩
      · rcases ih later further with ⟨inside,apart⟩ | ⟨old,inside,same,is⟩ | ⟨absent,is⟩
        · exact .inl ⟨List.mem_cons_of_mem _ inside,apart⟩
        · exact .inr (.inl ⟨old,List.mem_cons_of_mem _ inside,same,is⟩)
        · refine .inr (.inr ⟨fun there => ?_,is⟩)
          rcases List.mem_cons.mp there with same | further
          · exact other same.symm
          · exact absent further

theorem groupsOfStep {evidence : List AgentEvidence} {s : List SourceGroup × List JsString} (entry : AgentEvidence)
    (h : GroupsOf p evidence s.1) : GroupsOf p (evidence ++ [entry]) (groupStep p s entry).1 := by
  unfold groupStep
  split
  · rename_i unkeyed
    have none_ : sourceUrl p entry = none := by rw [sourceUrl,unkeyed]; rfl
    constructor
    · exact h.once
    · intro group member
      rw [List.filter_append,← h.items group member,List.filter_cons_of_neg (by simp [none_]),List.filter_nil,List.append_nil]
    · intro group member
      obtain ⟨one,inside,same⟩ := h.key group member
      exact ⟨one,List.mem_append_left _ inside,same⟩
    · intro one member url is
      rcases List.mem_append.mp member with before | last
      · exact h.covers one before url is
      · rw [List.mem_singleton.mp last,none_] at is
        contradiction
  · rename_i key keyed
    have some_ : sourceUrl p entry = some key.url := by rw [sourceUrl,keyed]; rfl
    dsimp only
    constructor
    · rw [addedUrls]
      split
      · exact h.once
      · rename_i absent
        exact h.once.append (List.nodup_singleton _) (List.disjoint_singleton.mpr absent)
    · intro group member
      rw [List.filter_append]
      rcases addedMember h.once member with ⟨inside,apart⟩ | ⟨old,inside,same,rfl⟩ | ⟨absent,rfl⟩
      · rw [← h.items group inside,List.filter_cons_of_neg (by simpa [some_] using Ne.symm apart),List.filter_nil,
          List.append_nil]
      · dsimp only
        rw [← h.items old inside,List.filter_cons_of_pos (by simp [some_,same]),List.filter_nil]
      · dsimp only
        rw [List.filter_cons_of_pos (by simp [some_]),List.filter_nil,List.filter_eq_nil_iff.mpr]
        · rfl
        · intro one inside same
          obtain ⟨group,there,url⟩ := h.covers one inside key.url (of_decide_eq_true same)
          exact absent (List.mem_map.mpr ⟨group,there,url⟩)
    · intro group member
      rcases addedMember h.once member with ⟨inside,apart⟩ | ⟨old,inside,same,rfl⟩ | ⟨absent,rfl⟩
      · obtain ⟨one,there,is⟩ := h.key group inside
        exact ⟨one,List.mem_append_left _ there,is⟩
      · obtain ⟨one,there,is⟩ := h.key old inside
        exact ⟨one,List.mem_append_left _ there,is⟩
      · exact ⟨entry,List.mem_append_right _ (List.mem_singleton_self _),keyed⟩
    · have every : ∀ url, url ∈ s.1.map (·.key.url) ∨ url = key.url → ∃ group ∈ addToGroup key entry s.1, group.key.url = url := by
        intro url there
        refine List.mem_map.mp (?_ : url ∈ (addToGroup key entry s.1).map (·.key.url))
        rw [addedUrls]
        split
        · rename_i known
          rcases there with old | rfl
          · exact old
          · exact known
        · exact List.mem_append.mpr (there.imp id List.mem_singleton.mpr)
      intro one member url is
      rcases List.mem_append.mp member with before | last
      · obtain ⟨group,inside,same⟩ := h.covers one before url is
        exact every url (.inl (List.mem_map.mpr ⟨group,inside,same⟩))
      · rw [List.mem_singleton.mp last,some_] at is
        exact every url (.inr (Option.some.inj is).symm)

theorem groupsOf (p : Platform) (evidence : List AgentEvidence) :
    GroupsOf p evidence (evidence.foldl (groupStep p) ([],[])).1 := by
  induction evidence using List.reverseRecOn with
  | nil => exact ⟨List.nodup_nil,nofun,nofun,nofun⟩
  | append_singleton before entry ih =>
    rw [List.foldl_append,List.foldl_cons,List.foldl_nil]
    exact groupsOfStep entry ih

theorem textSort : SortOrder textOrder := listSort

theorem textTie {a b : JsString} (ab : textOrder a b) (ba : textOrder b a) : a = b := by
  simp only [textOrder,Bool.not_eq_true',decide_eq_false_iff_not] at ab ba
  exact listTie ab ba

theorem memberSort : SortOrder memberOrder := by
  have by_ids := @lexicographic AgentEvidence (fun a b => textOrder a.id b.id)
    (fun a b => textOrder a.sourceRef.canonicalUrl b.sourceRef.canonicalUrl)
    ⟨fun a b c => textSort.trans a.id b.id c.id,fun a b => textSort.total a.id b.id⟩
    ⟨fun a b c => textSort.trans a.sourceRef.canonicalUrl b.sourceRef.canonicalUrl c.sourceRef.canonicalUrl,
      fun a b => textSort.total a.sourceRef.canonicalUrl b.sourceRef.canonicalUrl⟩
  have same : memberOrder = fun a b => !textOrder b.id a.id || (textOrder a.id b.id &&
      textOrder a.sourceRef.canonicalUrl b.sourceRef.canonicalUrl) := by
    funext a b
    simp [memberOrder,textOrder]
  exact same ▸ by_ids

theorem memberFirst {a b : AgentEvidence} (ab : memberOrder a b) : textOrder a.id b.id := by
  simp only [memberOrder,Bool.or_eq_true,Bool.and_eq_true,decide_eq_true_eq] at ab
  rcases ab with less | ⟨within,_⟩
  · simpa [textOrder] using List.lt_asymm less
  · simpa [textOrder] using within

theorem memberTie {a b : AgentEvidence} (ab : memberOrder a b) (ba : memberOrder b a) : a.id = b.id :=
  textTie (memberFirst ab) (memberFirst ba)

theorem scoreSort : SortOrder scoreOrder := by
  have by_score := @lexicographic Scored (fun a b => decide (b.score ≤ a.score)) (fun a b => textOrder a.url b.url)
    ⟨fun a b c ab bc => by simp at ab bc ⊢; omega,fun a b => by simp; omega⟩
    ⟨fun a b c => textSort.trans a.url b.url c.url,fun a b => textSort.total a.url b.url⟩
  have same : scoreOrder = fun a b => !decide (a.score ≤ b.score) || (decide (b.score ≤ a.score) && textOrder a.url b.url) := by
    funext a b
    unfold scoreOrder
    by_cases less : b.score < a.score
    · simp [less]
    · by_cases eq : a.score = b.score
      · simp [eq]
      · have above : ¬b.score ≤ a.score := by omega
        have below : a.score ≤ b.score := Nat.le_of_not_lt less
        simp [less,eq,above,below]
  exact same ▸ by_score

theorem scoreTie {a b : Scored} (ab : scoreOrder a b) (ba : scoreOrder b a) : a.url = b.url := by
  unfold scoreOrder at ab ba
  simp only [Bool.or_eq_true,Bool.and_eq_true,decide_eq_true_eq] at ab ba
  rcases ab with less | ⟨_,ab⟩ <;> rcases ba with more | ⟨_,ba⟩
  · omega
  · omega
  · omega
  · exact textTie ab ba

/- The score of a group is a property of its members, not of their order. -/
theorem scorePermuted {key : SourceKey} {items others : List AgentEvidence} (perm : items.Perm others)
    (ids : (items.map (·.id)).Nodup) : scoreGroup ⟨key,items⟩ = scoreGroup ⟨key,others⟩ := by
  have sorted : items.mergeSort memberOrder = others.mergeSort memberOrder :=
    sortPermuted memberSort perm fun a first b second ab ba =>
      List.inj_on_of_nodup_map ids first second (memberTie ab ba)
  have questions := (sameDistinct (perm.flatMap_right (·.questionIds))).length_eq
  have prints := (sameDistinct (perm.map (·.corroboratingFingerprint))).length_eq
  have direct : (items.any fun entry => directSourceClass entry.sourceRef.sourceClass) =
      others.any fun entry => directSourceClass entry.sourceRef.sourceClass := perm.any_eq
  unfold scoreGroup
  dsimp only
  rw [sorted,questions,prints,direct]

/- No structured URL is that of a graph row and of another entry alike. -/
def UrlsApart (p : Platform) (evidence : List AgentEvidence) : Prop :=
  ∀ a ∈ evidence, ∀ b ∈ evidence, ∀ url node,
    evidenceSourceKey p a = some ⟨url,some node⟩ → evidenceSourceKey p b ≠ some ⟨url,none⟩

theorem countNone {kind : UInt16 → Bool} {text : JsString} (all : text.all kind) {u : UInt16} (not_ : kind u = false) :
    text.count u = 0 := by
  refine List.count_eq_zero.mpr fun inside => ?_
  rw [List.all_eq_true.mp all u inside] at not_
  contradiction

/- A text up to a unit, and from there on. -/
theorem cutAt {text : JsString} {u : UInt16} (there : (text.takeWhile (· != u)).length < text.length) :
    text = text.takeWhile (· != u) ++ u :: text.drop ((text.takeWhile (· != u)).length + 1) := by
  have whole := List.takeWhile_append_dropWhile (p := (· != u)) (l := text)
  cases rest : text.dropWhile (· != u) with
  | nil =>
    rw [rest,List.append_nil] at whole
    rw [whole] at there
    exact absurd there (Nat.lt_irrefl _)
  | cons v later =>
    have stop : v = u := by
      have := List.head?_dropWhile_not (· != u) text
      rw [rest] at this
      simpa using this
    rw [rest,stop] at whole
    have cut : text.drop ((text.takeWhile (· != u)).length + 1) = later := by
      calc text.drop ((text.takeWhile (· != u)).length + 1)
          = (text.takeWhile (· != u) ++ u :: later).drop ((text.takeWhile (· != u)).length + 1) := by rw [whole]
        _ = later := by simp
    rw [cut]
    exact whole.symm

/- A structured URL has one colon and one slash. -/
theorem separators {url : JsString} (structured : isStructuredSourceUrl url) : url.count 58 = 1 ∧ url.count 47 = 1 := by
  unfold isStructuredSourceUrl at structured
  dsimp only at structured
  simp only [Bool.and_eq_true,decide_eq_true_eq] at structured
  obtain ⟨⟨⟨⟨colon,slash⟩,provider⟩,node⟩,field⟩ := structured
  have first := cutAt colon
  have second := cutAt slash
  generalize url.takeWhile (· != 58) = provider' at *
  generalize url.drop (provider'.length + 1) = rest at *
  generalize rest.takeWhile (· != 47) = node' at *
  generalize rest.drop (node'.length + 1) = field' at *
  unfold structuredProvider at provider
  unfold structuredPart at node field
  simp only [Bool.and_eq_true] at provider node field
  rw [first,second]
  simp only [List.count_append,List.count_cons,countNone provider.2 (u := 58) (by decide),
    countNone provider.2 (u := 47) (by decide),countNone node.2 (u := 58) (by decide),countNone node.2 (u := 47) (by decide),
    countNone field.2 (u := 58) (by decide),countNone field.2 (u := 47) (by decide)]
  decide

theorem structuredOnce {provider nodeId field url : JsString}
    (made : formatStructuredSourceUrl provider nodeId field = some url) :
    url = (provider ++ 58 :: nodeId) ++ 47 :: field ∧
      (58 ∉ provider ∧ 58 ∉ nodeId) ∧ 47 ∉ provider ++ 58 :: nodeId ∧ 47 ∉ field := by
  unfold formatStructuredSourceUrl at made
  dsimp only at made
  split at made
  · rename_i structured
    obtain ⟨colons,slashes⟩ := separators structured
    cases made
    simp only [List.count_append,List.count_cons,List.count_nil,beq_self_eq_true,if_true] at colons slashes
    have other : ((47 : UInt16) == 58) = false ∧ ((58 : UInt16) == 47) = false := by decide
    simp only [other.1,other.2,Bool.false_eq_true,if_false] at colons slashes
    refine ⟨by simp,⟨?_,?_⟩,?_,?_⟩
    · exact List.count_eq_zero.mp (by omega)
    · exact List.count_eq_zero.mp (by omega)
    · refine List.count_eq_zero.mp ?_
      simp only [List.count_append,List.count_cons,other.2,Bool.false_eq_true,if_false]
      omega
    · exact List.count_eq_zero.mp (by omega)
  · contradiction

theorem nodeOfUrl {provider nodeId field provider' nodeId' field' url : JsString}
    (one : formatStructuredSourceUrl provider nodeId field = some url)
    (two : formatStructuredSourceUrl provider' nodeId' field' = some url) : (nodeId,field) = (nodeId',field') := by
  obtain ⟨shape,⟨colon,colon'⟩,slash,slash'⟩ := structuredOnce one
  obtain ⟨again,_⟩ := structuredOnce two
  obtain ⟨head,_,tail⟩ := (List.append_cons_inj_of_notMem slash slash').mp (shape.symm.trans again)
  obtain ⟨_,_,node⟩ := (List.append_cons_inj_of_notMem colon colon').mp head
  rw [node,tail]

theorem keyNode {entry : AgentEvidence} {url : JsString} {node : JsString × JsString}
    (keyed : evidenceSourceKey p entry = some ⟨url,some node⟩) :
    ∃ provider, formatStructuredSourceUrl provider node.1 node.2 = some url := by
  unfold evidenceSourceKey at keyed
  split at keyed
  · simp at keyed
  · unfold structuredLedgerKey at keyed
    split at keyed
    · contradiction
    rename_i identity _
    split at keyed
    · obtain ⟨made,is,same⟩ := Option.map_eq_some_iff.mp keyed
      cases same
      exact ⟨identity.provider,is⟩
    · dsimp only at keyed
      split at keyed
      · contradiction
      · obtain ⟨made,is,same⟩ := Option.map_eq_some_iff.mp keyed
        simp at same

/- Entries of one group have one key. -/
theorem keysAgree {evidence : List AgentEvidence} (apart : UrlsApart p evidence) {a b : AgentEvidence} (first : a ∈ evidence)
    (second : b ∈ evidence) {k l : SourceKey} (one : evidenceSourceKey p a = some k) (two : evidenceSourceKey p b = some l)
    (url : k.url = l.url) : k = l := by
  obtain ⟨u,m⟩ := k
  obtain ⟨v,n⟩ := l
  cases (url : u = v)
  cases m with
  | none =>
    cases n with
    | none => rfl
    | some node => exact absurd one (apart b second a first u node two)
  | some node =>
    cases n with
    | none => exact absurd two (apart a first b second u node one)
    | some other =>
      obtain ⟨_,made⟩ := keyNode one
      obtain ⟨_,again⟩ := keyNode two
      have same : node = other := nodeOfUrl made again
      rw [same]

theorem scoredPermuted {evidence others : List AgentEvidence} (perm : evidence.Perm others)
    (ids : (evidence.map (·.id)).Nodup) (apart : UrlsApart p evidence) :
    ((evidence.foldl (groupStep p) ([],[])).1.map scoreGroup).Perm ((others.foldl (groupStep p) ([],[])).1.map scoreGroup) := by
  have one := groupsOf p evidence
  have two := groupsOf p others
  generalize (evidence.foldl (groupStep p) ([],[])).1 = groups at one ⊢
  generalize (others.foldl (groupStep p) ([],[])).1 = groups' at two ⊢
  have distinct {list : List AgentEvidence} {gs : List SourceGroup} (h : GroupsOf p list gs) : (gs.map scoreGroup).Nodup := by
    refine List.Nodup.of_map (·.url) ?_
    rw [List.map_map]
    exact h.once
  have meets {g g' : SourceGroup} (inside : g ∈ groups) (inside' : g' ∈ groups') (url : g.key.url = g'.key.url) :
      scoreGroup g = scoreGroup g' := by
    obtain ⟨a,first,keyed⟩ := one.key g inside
    obtain ⟨b,second,keyed'⟩ := two.key g' inside'
    have key : g.key = g'.key := keysAgree apart first (perm.mem_iff.mpr second) keyed keyed' url
    have items := one.items g inside
    have items' := two.items g' inside'
    obtain ⟨k,l⟩ := g
    obtain ⟨k',l'⟩ := g'
    dsimp only at key items items'
    rw [key,items,items',key]
    refine scorePermuted (perm.filter _) ?_
    exact ids.sublist (List.filter_sublist.map _)
  refine (List.perm_ext_iff_of_nodup (distinct one) (distinct two)).mpr fun s => ?_
  constructor
  · intro member
    obtain ⟨g,inside,rfl⟩ := List.mem_map.mp member
    obtain ⟨a,first,keyed⟩ := one.key g inside
    obtain ⟨g',inside',url⟩ := two.covers a (perm.mem_iff.mp first) g.key.url (by rw [sourceUrl,keyed]; rfl)
    exact List.mem_map.mpr ⟨g',inside',(meets inside inside' url.symm).symm⟩
  · intro member
    obtain ⟨g',inside',rfl⟩ := List.mem_map.mp member
    obtain ⟨b,second,keyed⟩ := two.key g' inside'
    obtain ⟨g,inside,url⟩ := one.covers b (perm.mem_iff.mpr second) g'.key.url (by rw [sourceUrl,keyed]; rfl)
    exact List.mem_map.mpr ⟨g,inside,meets inside inside' url⟩

theorem selectPermuted {evidence others : List AgentEvidence} (perm : evidence.Perm others)
    (ids : (evidence.map (·.id)).Nodup) (apart : UrlsApart p evidence) (maxSources : Nat) :
    selectGroups (evidence.foldl (groupStep p) ([],[])).1 maxSources =
      selectGroups (others.foldl (groupStep p) ([],[])).1 maxSources := by
  have sorted := sortPermuted scoreSort (scoredPermuted perm ids apart) fun a first b second ab ba => by
    have once := (groupsOf p evidence).once
    have urls : (((evidence.foldl (groupStep p) ([],[])).1.map scoreGroup).map (·.url)).Nodup := by
      rw [List.map_map]
      exact once
    exact List.inj_on_of_nodup_map urls first second (scoreTie ab ba)
  unfold selectGroups
  dsimp only
  rw [sorted]

def sourceGroups (p : Platform) (evidence : List AgentEvidence) : List SourceGroup :=
  (evidence.foldl (groupStep p) ([],[])).1

theorem droppedIds (p : Platform) (maxSources : Nat) (evidence : List AgentEvidence) :
    (compileSourceSet p maxSources evidence).droppedEvidenceIds =
      (evidence.filter fun entry => (evidenceSourceKey p entry).isNone).map (·.id) := by
  change (evidence.foldl (groupStep p) ([],[])).2 = _
  induction evidence using List.reverseRecOn with
  | nil => rfl
  | append_singleton before entry ih =>
    rw [List.foldl_append,List.foldl_cons,List.foldl_nil,List.filter_append,List.map_append,← ih]
    unfold groupStep
    split
    · rename_i unkeyed
      simp [unkeyed]
    · rename_i keyed
      simp [keyed]

/- The members of a group are the entries under its URL, so an entry is in the group of its
URL and in no other. -/
theorem oneGroup {evidence : List AgentEvidence} {entry : AgentEvidence} (member : entry ∈ evidence) {key : SourceKey}
    (keyed : evidenceSourceKey p entry = some key) :
    ∃! group, group ∈ sourceGroups p evidence ∧ entry ∈ group.items := by
  have h : GroupsOf p evidence (sourceGroups p evidence) := groupsOf p evidence
  have url : sourceUrl p entry = some key.url := by rw [sourceUrl,keyed]; rfl
  obtain ⟨group,inside,same⟩ := h.covers entry member key.url url
  refine ⟨group,⟨inside,?_⟩,?_⟩
  · rw [h.items group inside]
    exact List.mem_filter.mpr ⟨member,by simp [url,same]⟩
  · intro other found
    rw [h.items other found.1] at found
    have shared : other.key.url = group.key.url := by
      have under := (List.mem_filter.mp found.2).2
      rw [url,decide_eq_true_eq,Option.some.injEq] at under
      rw [← under,same]
    exact List.inj_on_of_nodup_map h.once found.1 inside shared

theorem noGroup {evidence : List AgentEvidence} {entry : AgentEvidence} (unkeyed : evidenceSourceKey p entry = none)
    {group : SourceGroup} (inside : group ∈ sourceGroups p evidence) : entry ∉ group.items := by
  intro member
  have h : GroupsOf p evidence (sourceGroups p evidence) := groupsOf p evidence
  rw [h.items group inside] at member
  have under := (List.mem_filter.mp member).2
  simp [sourceUrl,unkeyed] at under

/- What a compiled source set owes the list it was compiled from, in whatever order. -/
structure Compiled (p : Platform) (maxSources : Nat) (evidence : List AgentEvidence) : Prop where
  bounded : (compileSourceSet p maxSources evidence).sourceCatalog.length ≤ maxSources
  grouped : ∀ entry ∈ evidence, evidenceSourceKey p entry ≠ none →
    ∃! group, group ∈ sourceGroups p evidence ∧ entry ∈ group.items
  dropped : ∀ entry ∈ evidence, evidenceSourceKey p entry = none →
    entry.id ∈ (compileSourceSet p maxSources evidence).droppedEvidenceIds ∧
      ∀ group ∈ sourceGroups p evidence, entry ∉ group.items

theorem compiled (p : Platform) (maxSources : Nat) (evidence : List AgentEvidence) : Compiled p maxSources evidence := by
  constructor
  · change ((selectGroups _ maxSources).zipIdx.map catalogEntry).length ≤ maxSources
    rw [List.length_map,List.length_zipIdx]
    exact List.length_take_le ..
  · intro entry member some_
    obtain ⟨key,keyed⟩ := Option.ne_none_iff_exists'.mp some_
    exact oneGroup member keyed
  · intro entry member unkeyed
    refine ⟨?_,fun group inside => noGroup unkeyed inside⟩
    rw [droppedIds]
    exact List.mem_map_of_mem (List.mem_filter.mpr ⟨member,by simp [unkeyed]⟩)

/-- The catalog, its ids and the selection are those of the set of the evidence. -/
theorem permutationInvariant (p : Platform) (maxSources : Nat) {evidence others : List AgentEvidence}
    (perm : evidence.Perm others) (ids : (evidence.map (·.id)).Nodup) (apart : UrlsApart p evidence) :
    (compileSourceSet p maxSources evidence).sourceCatalog = (compileSourceSet p maxSources others).sourceCatalog ∧
    (compileSourceSet p maxSources evidence).selectedEvidenceIds = (compileSourceSet p maxSources others).selectedEvidenceIds ∧
    (compileSourceSet p maxSources evidence).droppedEvidenceIds.Perm
      (compileSourceSet p maxSources others).droppedEvidenceIds ∧ Compiled p maxSources evidence := by
  have selected := selectPermuted perm ids apart maxSources
  refine ⟨?_,?_,?_,compiled p maxSources evidence⟩
  · unfold compileSourceSet
    dsimp only
    rw [selected]
  · unfold compileSourceSet
    dsimp only
    rw [selected]
  · rw [droppedIds,droppedIds]
    exact (perm.filter _).map _

/- SHA-256 as it is at "x". -/
def sampledPlatform : Platform :=
  ⟨fun _ => js "2d711642b726b04401627ca9fbac32f5c8530fb1903cc4db02258717921a4881",id,some⟩

def graphRow (id provider node : String) : AgentEvidence :=
  ⟨js id,⟨[],some ⟨js provider,js "x"⟩,.unknown,.kg⟩,.kg (js node) (js "excerpt"),[],.admitted,js id⟩

def abstractRow (id provider : String) : AgentEvidence :=
  ⟨js id,⟨[],some ⟨js provider,js "x"⟩,.unknown,.search⟩,.other,[],.admitted,js id⟩

theorem twoRows : (compileSourceSet sampledPlatform 20 [graphRow "a" "kg" "n1",graphRow "b" "kg" "n2"]).sourceCatalog =
    (compileSourceSet sampledPlatform 20 [graphRow "b" "kg" "n2",graphRow "a" "kg" "n1"]).sourceCatalog := by
  refine (permutationInvariant sampledPlatform 20 (List.Perm.swap _ _ _) (by decide) ?_).1
  intro a first b second url node keyed unkeyed
  have graphs : [graphRow "a" "kg" "n1",graphRow "b" "kg" "n2"].all (fun entry =>
      (evidenceSourceKey sampledPlatform entry).any fun key => key.locator.isSome) = true := by decide
  have here := List.all_eq_true.mp graphs b second
  rw [unkeyed] at here
  contradiction

/- A provider with a blank has no structured identity, and a graph row can share its URL with
the hash of a query. -/
theorem unstructuredProvider :
    (∀ group ∈ sourceGroups sampledPlatform [graphRow "a" "my provider" "n1"], graphRow "a" "my provider" "n1" ∉ group.items) ∧
    (compileSourceSet sampledPlatform 20 [graphRow "a" "kg" "q-2d711642b726b044",abstractRow "b" "kg"]).sourceCatalog ≠
      (compileSourceSet sampledPlatform 20 [abstractRow "b" "kg",graphRow "a" "kg" "q-2d711642b726b044"]).sourceCatalog := by
  decide +kernel

end Northstar.Agent
