import Northstar.Mapping
import Northstar.Script

/-! The BM25 index (bm25.ts): documents, postings and their counts kept as documents come and go.
The tokenizer and the arithmetic are parameters: what is scored is scored by the same operations
in the same order as from scratch, whatever they round to. -/
namespace Northstar.Search.Bm25
open Mapping

structure DocData where
  termFreqs : List (JsString × Nat)
  length : Nat
  deriving DecidableEq, Repr

structure BM25Index (F : Type) where
  k1 : F
  b : F
  docs : List (JsString × DocData)
  invertedIndex : List (JsString × List JsString)
  docFreq : List (JsString × Nat)
  totalDocs : Int
  totalDocLength : Int

variable {F : Type} (tokenize : JsString → List JsString)

def create (k1 b : F) : BM25Index F := ⟨k1,b,[],[],[],0,0⟩

def countTerms (tokens : List JsString) : List (JsString × Nat) :=
  tokens.foldl (fun termFreqs token => put termFreqs token ((look termFreqs token).getD 0 + 1)) []

def docData (text : JsString) : DocData := ⟨countTerms (tokenize text),(tokenize text).length⟩

def addTerm (id : JsString) (x : BM25Index F) (term : JsString) : BM25Index F :=
  let docSet := join ((look x.invertedIndex term).getD []) id
  { x with invertedIndex := put x.invertedIndex term docSet, docFreq := put x.docFreq term docSet.length }

def removeTerm (id : JsString) (x : BM25Index F) (term : JsString) : BM25Index F :=
  match look x.invertedIndex term with
  | none => x
  | some docSet =>
      let left := leave docSet id
      if left.length = 0 then
        { x with invertedIndex := drop x.invertedIndex term, docFreq := drop x.docFreq term }
      else
        { x with invertedIndex := put x.invertedIndex term left, docFreq := put x.docFreq term left.length }

def removeDoc (id : JsString) (x : BM25Index F) : BM25Index F := match look x.docs id with
  | none => x
  | some docData =>
      let left := (docData.termFreqs.map (·.1)).foldl (removeTerm id) x
      { left with
        totalDocs := left.totalDocs - 1
        totalDocLength := left.totalDocLength - docData.length
        docs := drop left.docs id }

def add (id text : JsString) (x : BM25Index F) : BM25Index F :=
  let x := if has x.docs id then removeDoc id x else x
  let data := docData tokenize text
  let x := { x with
    docs := put x.docs id data
    totalDocs := x.totalDocs + 1
    totalDocLength := x.totalDocLength + (tokenize text).length }
  (data.termFreqs.map (·.1)).foldl (addTerm id) x

def addBatch (docs : List (JsString × JsString)) (x : BM25Index F) : BM25Index F :=
  docs.foldl (fun x doc => add tokenize doc.1 doc.2 x) x

def clear (x : BM25Index F) : BM25Index F := { x with
  docs := []
  invertedIndex := []
  docFreq := []
  totalDocs := 0
  totalDocLength := 0 }

inductive Operation where
  | add (id text : JsString)
  | addBatch (docs : List (JsString × JsString))
  | clear

def step (x : BM25Index F) : Operation → BM25Index F
  | .add id text => add tokenize id text x
  | .addBatch docs => addBatch tokenize docs x
  | .clear => clear x

/- What is in the index by its meaning: of every id the last text, the newest last. -/
abbrev Corpus := List (JsString × JsString)

def renew (corpus : Corpus) (doc : JsString × JsString) : Corpus := corpus.filter (fun held => held.1 ≠ doc.1) ++ [doc]

def current (corpus : Corpus) : Operation → Corpus
  | .add id text => renew corpus (id,text)
  | .addBatch docs => docs.foldl renew corpus
  | .clear => []

def holders (corpus : Corpus) (term : JsString) : List JsString :=
  (corpus.filter fun doc => term ∈ tokenize doc.2).map (·.1)

def totalLength (corpus : Corpus) : Nat := (corpus.map fun doc => (tokenize doc.2).length).sum

/- The postings of a term and its document frequency. -/
def posting (x : BM25Index F) (term : JsString) : Option (List JsString) × Option Nat :=
  (look x.invertedIndex term,look x.docFreq term)

def postingOf (ids : List JsString) : Option (List JsString) × Option Nat :=
  if ids = [] then (none,none) else (some ids,some ids.length)

structure Computed (k1 b : F) (x : BM25Index F) (corpus : Corpus) : Prop where
  parameters : x.k1 = k1 ∧ x.b = b
  ids : (corpus.map (·.1)).Nodup
  docs : x.docs = corpus.map fun doc => (doc.1,docData tokenize doc.2)
  postings : ∀ term, posting x term = postingOf (holders tokenize corpus term)
  terms : (x.invertedIndex.map (·.1)).Nodup ∧ (x.docFreq.map (·.1)).Nodup
  totalDocs : x.totalDocs = corpus.length
  totalDocLength : x.totalDocLength = totalLength tokenize corpus

theorem countedTerms (tokens : List JsString) (term : JsString) :
    look (countTerms tokens) term = if tokens.count term = 0 then none else some (tokens.count term) := by
  induction tokens using List.reverseRecOn with
  | nil => rfl
  | append_singleton before token ih =>
    unfold countTerms at ih ⊢
    rw [List.foldl_append,List.foldl_cons,List.foldl_nil,lookPut,List.count_append]
    by_cases same : term = token
    · subst same
      rw [if_pos rfl,ih,List.count_singleton_self,if_neg (Nat.succ_ne_zero _)]
      split
      · rename_i none_
        rw [none_]
        rfl
      · rfl
    · have absent : [token].count term = 0 := List.count_eq_zero.mpr (by simpa using same)
      rw [if_neg same,ih,absent,Nat.add_zero]

theorem termsOnce (tokens : List JsString) : ((countTerms tokens).map (·.1)).Nodup := by
  induction tokens using List.reverseRecOn with
  | nil => exact List.nodup_nil
  | append_singleton before token ih =>
    unfold countTerms at ih ⊢
    rw [List.foldl_append]
    exact putOnce ih token _

theorem termMember {text term : JsString} : term ∈ (docData tokenize text).termFreqs.map (·.1) ↔ term ∈ tokenize text := by
  change term ∈ (countTerms (tokenize text)).map (·.1) ↔ _
  rw [← not_iff_not,← lookNone,countedTerms,← List.count_eq_zero]
  constructor
  · intro none_
    split at none_
    · assumption
    · contradiction
  · exact fun zero => if_pos zero

/- A pass over distinct terms that acts on each at its own posting acts once on each. -/
theorem passPostings {act : BM25Index F → JsString → BM25Index F}
    {change : Option (List JsString) × Option Nat → Option (List JsString) × Option Nat}
    (each : ∀ x term other, posting (act x term) other = if other = term then change (posting x term) else posting x other)
    (terms : List JsString) (once : terms.Nodup) (x : BM25Index F) (term : JsString) :
    posting (terms.foldl act x) term = if term ∈ terms then change (posting x term) else posting x term := by
  induction terms generalizing x with
  | nil => rfl
  | cons first rest ih =>
    obtain ⟨apart,once⟩ := List.nodup_cons.mp once
    rw [List.foldl_cons,ih once,each]
    by_cases here : term = first
    · subst here
      rw [if_neg apart,if_pos rfl,if_pos List.mem_cons_self]
    · rw [if_neg here]
      by_cases there : term ∈ rest
      · rw [if_pos there,if_pos (List.mem_cons_of_mem _ there)]
      · rw [if_neg there,if_neg (by simpa [here] using there)]

def addPosting (id : JsString) (p : Option (List JsString) × Option Nat) : Option (List JsString) × Option Nat :=
  (some (join (p.1.getD []) id),some (join (p.1.getD []) id).length)

def removePosting (id : JsString) (p : Option (List JsString) × Option Nat) : Option (List JsString) × Option Nat :=
  match p.1 with
  | none => p
  | some docSet => postingOf (leave docSet id)

theorem addTermPosting (id : JsString) (x : BM25Index F) (term other : JsString) : posting (addTerm id x term) other =
    if other = term then addPosting id (posting x term) else posting x other := by
  simp only [posting,addTerm,lookPut,addPosting]
  split
  · rfl
  · rfl

theorem removeTermPosting (id : JsString) (x : BM25Index F) (term other : JsString) : posting (removeTerm id x term) other =
    if other = term then removePosting id (posting x term) else posting x other := by
  unfold removeTerm removePosting postingOf posting
  cases held : look x.invertedIndex term with
  | none =>
    dsimp only
    split
    · rename_i same
      rw [same,held]
    · rfl
  | some docSet =>
    simp only [List.length_eq_zero_iff]
    by_cases empty : leave docSet id = []
    · simp only [if_pos empty,lookDrop]
      split
      · rfl
      · rfl
    · simp only [if_neg empty,lookPut]
      split
      · rfl
      · rfl

/- What a pass over the terms leaves alone. -/
structure Beside (x y : BM25Index F) : Prop where
  k1 : y.k1 = x.k1
  b : y.b = x.b
  docs : y.docs = x.docs
  totalDocs : y.totalDocs = x.totalDocs
  totalDocLength : y.totalDocLength = x.totalDocLength

def TermsOnce (x : BM25Index F) : Prop := (x.invertedIndex.map (·.1)).Nodup ∧ (x.docFreq.map (·.1)).Nodup

theorem passKeeps {act : BM25Index F → JsString → BM25Index F} (beside : ∀ x term, Beside x (act x term))
    (once : ∀ x term, TermsOnce x → TermsOnce (act x term)) (terms : List JsString) (x : BM25Index F) :
    Beside x (terms.foldl act x) ∧ (TermsOnce x → TermsOnce (terms.foldl act x)) := by
  induction terms generalizing x with
  | nil => exact ⟨⟨rfl,rfl,rfl,rfl,rfl⟩,id⟩
  | cons term rest ih =>
    obtain ⟨later,still⟩ := ih (act x term)
    have first := beside x term
    exact ⟨⟨later.k1.trans first.k1,later.b.trans first.b,later.docs.trans first.docs,later.totalDocs.trans first.totalDocs,
      later.totalDocLength.trans first.totalDocLength⟩,fun h => still (once x term h)⟩

theorem addTermKeeps (id : JsString) (terms : List JsString) (x : BM25Index F) :
    Beside x (terms.foldl (addTerm id) x) ∧ (TermsOnce x → TermsOnce (terms.foldl (addTerm id) x)) := by
  refine passKeeps ?_ ?_ terms x
  · exact fun x term => ⟨rfl,rfl,rfl,rfl,rfl⟩
  · exact fun x term h => ⟨putOnce h.1 term _,putOnce h.2 term _⟩

theorem removeTermKeeps (id : JsString) (terms : List JsString) (x : BM25Index F) :
    Beside x (terms.foldl (removeTerm id) x) ∧ (TermsOnce x → TermsOnce (terms.foldl (removeTerm id) x)) := by
  refine passKeeps ?_ ?_ terms x
  · intro x term
    unfold removeTerm
    split
    · exact ⟨rfl,rfl,rfl,rfl,rfl⟩
    · dsimp only
      split
      · exact ⟨rfl,rfl,rfl,rfl,rfl⟩
      · exact ⟨rfl,rfl,rfl,rfl,rfl⟩
  · intro x term h
    unfold removeTerm
    split
    · exact h
    · dsimp only
      split
      · exact ⟨dropOnce h.1 term,dropOnce h.2 term⟩
      · exact ⟨putOnce h.1 term _,putOnce h.2 term _⟩

section Holders
variable {tokenize} {corpus : Corpus}

theorem holder {term id : JsString} :
    id ∈ holders tokenize corpus term ↔ ∃ text, (id,text) ∈ corpus ∧ term ∈ tokenize text := by
  simp [holders]

theorem holdersWithout (id term : JsString) :
    holders tokenize (corpus.filter fun held => held.1 ≠ id) term = leave (holders tokenize corpus term) id := by
  unfold holders leave
  rw [List.filter_map,List.filter_filter,List.filter_filter]
  congr 1
  refine List.filter_congr fun doc _ => ?_
  exact Bool.and_comm _ _

theorem holdersWith (id text term : JsString) : holders tokenize (corpus ++ [(id,text)]) term =
    holders tokenize corpus term ++ if term ∈ tokenize text then [id] else [] := by
  unfold holders
  rw [List.filter_append,List.map_append]
  congr 1
  by_cases there : term ∈ tokenize text
  · rw [if_pos there,List.filter_cons_of_pos (by simpa using there)]
    rfl
  · rw [if_neg there,List.filter_cons_of_neg (by simpa using there)]
    rfl

theorem leaveAbsent {ids : List JsString} {id : JsString} (absent : id ∉ ids) : leave ids id = ids := by
  refine List.filter_eq_self.mpr fun other member => ?_
  simpa using fun same : other = id => absent (same ▸ member)

theorem removePostingOf (id : JsString) (ids : List JsString) : removePosting id (postingOf ids) = postingOf (leave ids id) := by
  cases ids with
  | nil => rfl
  | cons first rest => rfl

theorem addPostingOf {id : JsString} {ids : List JsString} (absent : id ∉ ids) :
    addPosting id (postingOf ids) = postingOf (ids ++ [id]) := by
  have joined : join ids id = ids ++ [id] := if_neg absent
  cases ids with
  | nil => rfl
  | cons first rest =>
    have some_ : (first :: rest) ++ [id] ≠ [] := nofun
    rw [postingOf,postingOf,if_neg (List.cons_ne_nil first rest),if_neg some_,addPosting,Option.getD_some,joined]

theorem corpusText (once : (corpus.map (·.1)).Nodup) {id one other : JsString} (first : (id,one) ∈ corpus)
    (second : (id,other) ∈ corpus) : one = other :=
  congrArg Prod.snd (List.inj_on_of_nodup_map once first second rfl)

theorem corpusWithout {before after : Corpus} {doc : JsString × JsString}
    (once : ((before ++ doc :: after).map (·.1)).Nodup) :
    (before ++ doc :: after).filter (fun held => held.1 ≠ doc.1) = before ++ after := by
  have apart : ∀ held ∈ before ++ after, held.1 ≠ doc.1 := by
    intro held member same
    rw [List.map_append,List.map_cons,List.nodup_middle,List.nodup_cons,← List.map_append] at once
    exact once.1 (same ▸ List.mem_map_of_mem member)
  rw [List.filter_append,List.filter_cons_of_neg (by simp),← List.filter_append]
  exact List.filter_eq_self.mpr fun held member => by simpa using apart held member

theorem holdersCount (corpus : Corpus) (term : JsString) :
    (holders tokenize corpus term).length = corpus.countP fun doc => term ∈ tokenize doc.2 := by
  rw [holders,List.length_map,List.countP_eq_length_filter]

theorem corpusFind (once : (corpus.map (·.1)).Nodup) {doc : JsString × JsString} (member : doc ∈ corpus) :
    corpus.find? (fun other => other.1 = doc.1) = some doc := by
  obtain ⟨other,is⟩ := Option.isSome_iff_exists.mp
    (List.find?_isSome.mpr ⟨doc,member,by simp⟩ : (corpus.find? fun other => other.1 = doc.1).isSome)
  have same : other.1 = doc.1 := by simpa using List.find?_some is
  rw [is,List.inj_on_of_nodup_map once (List.mem_of_find?_eq_some is) member same]

theorem renewAll {docs corpus : Corpus} (once : ((corpus ++ docs).map (·.1)).Nodup) : docs.foldl renew corpus = corpus ++ docs := by
  induction docs generalizing corpus with
  | nil => exact (List.append_nil corpus).symm
  | cons doc rest ih =>
    have first : renew corpus doc = corpus ++ [doc] := by
      unfold renew
      congr 1
      refine List.filter_eq_self.mpr fun held member => ?_
      simp only [decide_eq_true_eq,ne_eq]
      intro same
      rw [List.map_append,List.nodup_append] at once
      exact once.2.2 _ (List.mem_map_of_mem member) _ (List.mem_map_of_mem List.mem_cons_self) same
    rw [List.foldl_cons,first,ih (by simpa using once)]
    simp

end Holders

section Keeps
variable {tokenize} {k1 b : F} {x : BM25Index F} {corpus : Corpus}

theorem docsOf (id : JsString) : look (corpus.map fun doc => (doc.1,docData tokenize doc.2)) id =
    (corpus.find? fun doc => doc.1 = id).map fun doc => docData tokenize doc.2 := by
  rw [look,List.find?_map,Option.map_map]
  rfl

theorem removed (h : Computed tokenize k1 b x corpus) {id : JsString} (there : id ∈ corpus.map (·.1)) :
    Computed tokenize k1 b (removeDoc id x) (corpus.filter fun held => held.1 ≠ id) := by
  obtain ⟨⟨id,text⟩,member,rfl⟩ := List.mem_map.mp there
  have found : look x.docs id = some (docData tokenize text) := by
    rw [h.docs,docsOf,corpusFind h.ids member]
    rfl
  have kept := removeTermKeeps id ((docData tokenize text).termFreqs.map (·.1)) x
  have pass := passPostings (removeTermPosting id) ((docData tokenize text).termFreqs.map (·.1)) (termsOnce _) x
  obtain ⟨before,after,rfl⟩ := List.append_of_mem member
  have without := corpusWithout h.ids
  unfold removeDoc
  rw [found]
  dsimp only
  generalize ((docData tokenize text).termFreqs.map (·.1)).foldl (removeTerm id) x = left at *
  exact {
    parameters := ⟨kept.1.k1.trans h.parameters.1,kept.1.b.trans h.parameters.2⟩
    ids := h.ids.sublist (List.filter_sublist.map _)
    docs := by
      change drop left.docs id = _
      rw [kept.1.docs,h.docs,drop,List.filter_map]
      rfl
    postings := by
      intro term
      rw [holdersWithout]
      refine (pass term).trans ?_
      rw [h.postings,removePostingOf]
      split
      · rfl
      · rename_i unheld
        rw [leaveAbsent]
        intro held
        obtain ⟨other,inside,has⟩ := holder.mp held
        rw [corpusText h.ids inside member] at has
        exact unheld ((termMember tokenize).mpr has)
    terms := kept.2 h.terms
    totalDocs := by
      change left.totalDocs - 1 = _
      rw [kept.1.totalDocs,h.totalDocs,without]
      simp
      omega
    totalDocLength := by
      change left.totalDocLength - ((tokenize text).length : Int) = _
      rw [kept.1.totalDocLength,h.totalDocLength,without]
      simp [totalLength]
      omega }

theorem added (h : Computed tokenize k1 b x corpus) {id : JsString} (text : JsString) (absent : id ∉ corpus.map (·.1)) :
    Computed tokenize k1 b (add tokenize id text x) (corpus ++ [(id,text)]) := by
  have keys : x.docs.map (·.1) = corpus.map (·.1) := by
    rw [h.docs,List.map_map]
    rfl
  have missing : has x.docs id = false := Bool.eq_false_iff.mpr fun there => absent (keys ▸ hasKey.mp there)
  unfold add
  rw [missing]
  dsimp only
  rw [if_neg Bool.false_ne_true]
  generalize whole : ({ x with
    docs := put x.docs id (docData tokenize text)
    totalDocs := x.totalDocs + 1
    totalDocLength := x.totalDocLength + ((tokenize text).length : Int) } : BM25Index F) = y
  have kept := addTermKeeps id ((docData tokenize text).termFreqs.map (·.1)) y
  have pass := passPostings (addTermPosting id) ((docData tokenize text).termFreqs.map (·.1)) (termsOnce _) y
  subst whole
  exact {
    parameters := ⟨kept.1.k1.trans h.parameters.1,kept.1.b.trans h.parameters.2⟩
    ids := by
      rw [List.map_append]
      exact h.ids.append (List.nodup_singleton id) (List.disjoint_singleton.mpr absent)
    docs := by
      rw [kept.1.docs]
      simp only
      rw [putNew (keys ▸ absent),h.docs,List.map_append]
      rfl
    postings := by
      intro term
      have old := h.postings term
      rw [pass term,holdersWith]
      change (if _ then addPosting id (posting x term) else posting x term) = _
      rw [old]
      by_cases has : term ∈ tokenize text
      · rw [if_pos ((termMember tokenize).mpr has),if_pos has]
        refine addPostingOf fun held => ?_
        obtain ⟨other,inside,_⟩ := holder.mp held
        exact absent (List.mem_map.mpr ⟨_,inside,rfl⟩)
      · rw [if_neg fun there => has ((termMember tokenize).mp there),if_neg has,List.append_nil]
    terms := kept.2 h.terms
    totalDocs := by
      rw [kept.1.totalDocs]
      simp [h.totalDocs]
    totalDocLength := by
      rw [kept.1.totalDocLength]
      simp [h.totalDocLength,totalLength] }

end Keeps

section Runs
variable {tokenize} {k1 b : F} {x : BM25Index F} {corpus : Corpus}

theorem computedKeys (h : Computed tokenize k1 b x corpus) : x.docs.map (·.1) = corpus.map (·.1) := by
  rw [h.docs,List.map_map]
  rfl

theorem addRenews (h : Computed tokenize k1 b x corpus) (id text : JsString) :
    Computed tokenize k1 b (add tokenize id text x) (renew corpus (id,text)) := by
  by_cases there : id ∈ corpus.map (·.1)
  · have without := removed h there
    have absent : id ∉ (corpus.filter fun held => held.1 ≠ id).map (·.1) := by
      intro held
      obtain ⟨doc,member,same⟩ := List.mem_map.mp held
      exact absurd same (by simpa using (List.mem_filter.mp member).2)
    have known : has x.docs id = true := hasKey.mpr ((computedKeys h).symm ▸ there)
    have gone : has (removeDoc id x).docs id = false :=
      Bool.eq_false_iff.mpr fun held => absent (computedKeys without ▸ hasKey.mp held)
    have same : add tokenize id text x = add tokenize id text (removeDoc id x) := by
      unfold add
      rw [if_pos known,gone,if_neg Bool.false_ne_true]
    rw [same]
    exact added without text absent
  · have all : (corpus.filter fun held => held.1 ≠ id) = corpus := by
      refine List.filter_eq_self.mpr fun held member => ?_
      simpa using fun same : held.1 = id => there (same ▸ List.mem_map_of_mem member)
    unfold renew
    rw [all]
    exact added h text there

theorem stepComputed (h : Computed tokenize k1 b x corpus) (operation : Operation) :
    Computed tokenize k1 b (step tokenize x operation) (current corpus operation) := by
  cases operation with
  | add id text => exact addRenews h id text
  | addBatch docs =>
    change Computed tokenize k1 b (docs.foldl (fun x doc => add tokenize doc.1 doc.2 x) x) (docs.foldl renew corpus)
    induction docs generalizing x corpus with
    | nil => exact h
    | cons doc rest ih => exact ih (addRenews h doc.1 doc.2)
  | clear => exact ⟨h.parameters,List.nodup_nil,rfl,fun _ => rfl,⟨List.nodup_nil,List.nodup_nil⟩,rfl,rfl⟩

theorem postingHolders (h : Computed tokenize k1 b x corpus) (term : JsString) :
    (look x.invertedIndex term).getD [] = holders tokenize corpus term ∧
      (look x.docFreq term).getD 0 = (holders tokenize corpus term).length := by
  have index : look x.invertedIndex term = (postingOf (holders tokenize corpus term)).1 := congrArg Prod.fst (h.postings term)
  have freq : look x.docFreq term = (postingOf (holders tokenize corpus term)).2 := congrArg Prod.snd (h.postings term)
  rw [index,freq]
  cases holders tokenize corpus term with
  | nil => exact ⟨rfl,rfl⟩
  | cons first rest => exact ⟨rfl,rfl⟩

theorem created : Computed tokenize k1 b (create k1 b) [] :=
  ⟨⟨rfl,rfl⟩,List.nodup_nil,rfl,fun _ => rfl,⟨List.nodup_nil,List.nodup_nil⟩,rfl,rfl⟩

theorem runComputed (operations : List Operation) : Computed tokenize k1 b (operations.foldl (step tokenize) (create k1 b))
    (operations.foldl current []) := by
  induction operations using List.reverseRecOn with
  | nil => exact created
  | append_singleton before operation ih =>
    rw [List.foldl_append,List.foldl_append]
    exact stepComputed ih operation

theorem scoredKeys {α : Type} {items : List α} {key : α → JsString} {score : α → Option (JsString × F)}
    (keyed : ∀ item pair, score item = some pair → pair.1 = key item) :
    List.Sublist ((items.filterMap score).map (·.1)) (items.map key) := by
  induction items with
  | nil => exact .slnil
  | cons item rest ih =>
    cases scored : score item with
    | none =>
      rw [List.filterMap_cons_none scored]
      exact ih.cons _
    | some pair =>
      rw [List.filterMap_cons_some scored,List.map_cons,List.map_cons,keyed item pair scored]
      exact ih.cons_cons _

end Runs

def candidateDocs (x : BM25Index F) (queryTokens : List JsString) : List JsString :=
  queryTokens.foldl (fun candidates term => ((look x.invertedIndex term).getD []).foldl join candidates) []

def fromScratch (tokenize : JsString → List JsString) (k1 b : F) (corpus : Corpus) : BM25Index F :=
  addBatch tokenize corpus (create k1 b)

section Candidates
variable {tokenize} {k1 b : F} {x : BM25Index F} {corpus : Corpus}

theorem candidatesRun (queryTokens : List JsString) (candidates : List JsString) :
    queryTokens.foldl (fun candidates term => ((look x.invertedIndex term).getD []).foldl join candidates) candidates =
      (queryTokens.flatMap fun term => (look x.invertedIndex term).getD []).foldl join candidates := by
  rw [List.foldl_flatMap]

theorem candidate (h : Computed tokenize k1 b x corpus) (queryTokens : List JsString) :
    (∀ id, id ∈ candidateDocs x queryTokens ↔ ∃ term ∈ queryTokens, id ∈ holders tokenize corpus term) ∧
      (candidateDocs x queryTokens).Nodup := by
  unfold candidateDocs
  rw [candidatesRun]
  obtain ⟨members,once⟩ := joinRun (queryTokens.flatMap fun term => (look x.invertedIndex term).getD []) []
  refine ⟨fun id => ?_,once List.nodup_nil⟩
  rw [members,List.mem_flatMap]
  simp only [List.not_mem_nil,false_or,(postingHolders h _).1]

end Candidates

/- Scores in any arithmetic: no law of it is used but that nothing is below itself. -/
section Scores
variable [NatCast F] [IntCast F] [Add F] [Sub F] [Mul F] [Div F] (log : F → F)

def half : F := ((1 : Nat) : F) / ((2 : Nat) : F)

def idf (totalDocs : Int) (holding : Nat) : F :=
  log (((totalDocs : F) - (holding : F) + half) / ((holding : F) + half) + ((1 : Nat) : F))

def share (k1 b idf avgdl : F) (count length : Nat) : F :=
  idf * ((count : F) * (k1 + ((1 : Nat) : F))) /
    ((count : F) + k1 * (((1 : Nat) : F) - b + b * (length : F) / avgdl))

/- One document against a query, from what is known of terms and of the document. -/
def scoreBy (k1 b avgdl : F) (totalDocs : Int) (holding count : JsString → Nat) (length : Nat)
    (queryTokens : List JsString) : F :=
  queryTokens.foldl (fun score term =>
    if holding term = 0 then score
    else if count term = 0 then score
    else score + share k1 b (idf log totalDocs (holding term)) avgdl (count term) length) ((0 : Nat) : F)

/- Brute force: every document of the corpus against the query. -/
def bruteScore (k1 b : F) (corpus : Corpus) (queryTokens : List JsString) (text : JsString) : F :=
  scoreBy log k1 b (((totalLength tokenize corpus : Int) : F) / ((corpus.length : Int) : F)) corpus.length
    (fun term => corpus.countP fun doc => term ∈ tokenize doc.2) (fun term => (tokenize text).count term)
    (tokenize text).length queryTokens

/- A document without any of the terms scores nothing. -/
theorem unheldScore {tokenize} {log : F → F} {k1 b : F} {corpus : Corpus} {queryTokens : List JsString} {text : JsString} (none_ : ∀ term ∈ queryTokens, term ∉ tokenize text) :
    bruteScore tokenize log k1 b corpus queryTokens text = ((0 : Nat) : F) := by
  unfold bruteScore scoreBy
  generalize ((0 : Nat) : F) = start
  dsimp only
  induction queryTokens with
  | nil => rfl
  | cons term rest ih =>
    have absent : (tokenize text).count term = 0 := List.count_eq_zero.mpr (none_ term List.mem_cons_self)
    rw [List.foldl_cons,if_pos absent,ite_self]
    exact ih fun term member => none_ term (List.mem_cons_of_mem _ member)

variable [Preorder F] [DecidableLT F]

/- A candidate without its document would throw; the index keeps one for each. -/
def scoreCandidate (x : BM25Index F) (queryTokens : List JsString) (id : JsString) : Option (JsString × F) :=
  (look x.docs id).bind fun data =>
    let score := scoreBy log x.k1 x.b ((x.totalDocLength : F) / (x.totalDocs : F)) x.totalDocs
      (fun term => (look x.docFreq term).getD 0) (fun term => (look data.termFreqs term).getD 0) data.length queryTokens
    if ((0 : Nat) : F) < score then some (id,score) else none

def ranked (k : Int) (scores : List (JsString × F)) : List (JsString × F) :=
  (scores.mergeSort fun a b => !decide (a.2 < b.2)).take k.toNat

def search (x : BM25Index F) (query : JsString) (topK : Option Int) : List (JsString × F) :=
  let k := topK.getD 20
  if k ≤ 0 then []
  else
    let queryTokens := tokenize query
    if queryTokens = [] ∨ x.totalDocs = 0 then []
    else ranked k ((candidateDocs x queryTokens).filterMap (scoreCandidate log x queryTokens))

def bruteScores (k1 b : F) (corpus : Corpus) (query : JsString) : List (JsString × F) :=
  corpus.filterMap fun doc =>
    let score := bruteScore tokenize log k1 b corpus (tokenize query) doc.2
    if ((0 : Nat) : F) < score then some (doc.1,score) else none

variable {tokenize} {log} {k1 b : F} {x : BM25Index F} {corpus : Corpus}

/- A candidate is scored as its document is. -/
theorem candidateScore (h : Computed tokenize k1 b x corpus) (queryTokens : List JsString) (id : JsString) :
    scoreCandidate log x queryTokens id = (corpus.find? fun doc => doc.1 = id).bind fun doc =>
      let score := bruteScore tokenize log k1 b corpus queryTokens doc.2
      if ((0 : Nat) : F) < score then some (id,score) else none := by
  unfold scoreCandidate bruteScore
  rw [h.docs,docsOf,Option.bind_map]
  congr 1
  funext doc
  have freqs : (fun term => (look x.docFreq term).getD 0) = fun term => corpus.countP fun doc => term ∈ tokenize doc.2 := by
    funext term
    rw [(postingHolders h term).2,holdersCount]
  have counts : (fun term => (look (docData tokenize doc.2).termFreqs term).getD 0) = (tokenize doc.2).count := by
    funext term
    change (look (countTerms (tokenize doc.2)) term).getD 0 = _
    rw [countedTerms]
    split
    · rename_i zero
      exact zero.symm
    · rfl
  simp only [Function.comp,freqs,counts,h.parameters.1,h.parameters.2,h.totalDocs,h.totalDocLength]
  rfl

theorem scoresArranged (h : Computed tokenize k1 b x corpus) (query : JsString) :
    ((candidateDocs x (tokenize query)).filterMap (scoreCandidate log x (tokenize query))).Perm
      (bruteScores tokenize log k1 b corpus query) := by
  obtain ⟨members,once⟩ := candidate h (tokenize query)
  have keyed : ∀ id pair, scoreCandidate log x (tokenize query) id = some pair → pair.1 = id := by
    intro id pair scored
    rw [candidateScore h] at scored
    obtain ⟨doc,_,scored⟩ := Option.bind_eq_some_iff.mp scored
    dsimp only at scored
    split at scored
    · cases Option.some.inj scored
      rfl
    · contradiction
  have one : ((candidateDocs x (tokenize query)).filterMap (scoreCandidate log x (tokenize query))).Nodup :=
    List.Nodup.of_map Prod.fst (once.sublist ((scoredKeys keyed).trans (by rw [List.map_id'])))
  have two : (bruteScores tokenize log k1 b corpus query).Nodup := by
    refine List.Nodup.of_map Prod.fst (h.ids.sublist (scoredKeys ?_))
    intro doc pair scored
    dsimp only at scored
    split at scored
    · cases Option.some.inj scored
      rfl
    · contradiction
  refine (List.perm_ext_iff_of_nodup one two).mpr fun pair => ?_
  unfold bruteScores
  rw [List.mem_filterMap,List.mem_filterMap]
  constructor
  · rintro ⟨id,_,scored⟩
    rw [candidateScore h] at scored
    obtain ⟨doc,found,scored⟩ := Option.bind_eq_some_iff.mp scored
    have same : doc.1 = id := by simpa using List.find?_some found
    exact ⟨doc,List.mem_of_find?_eq_some found,same ▸ scored⟩
  · rintro ⟨doc,member,scored⟩
    refine ⟨doc.1,(members doc.1).mpr ?_,?_⟩
    · by_contra none_
      refine absurd scored ?_
      rw [unheldScore]
      · simp
      · intro term inside has
        exact none_ ⟨term,inside,holder.mpr ⟨doc.2,member,has⟩⟩
    · rw [candidateScore h,corpusFind h.ids member]
      exact scored

theorem searchRanked (h : Computed tokenize k1 b x corpus) (query : JsString) (topK : Option Int) :
    ∃ scores, scores.Perm (bruteScores tokenize log k1 b corpus query) ∧
      search tokenize log x query topK = ranked (topK.getD 20) scores := by
  refine ⟨_,scoresArranged h query,?_⟩
  unfold search
  dsimp only
  split
  · rename_i none_
    rw [ranked,Int.toNat_of_nonpos none_,List.take_zero]
  · split
    · rename_i empty
      have nothing : candidateDocs x (tokenize query) = [] := by
        refine List.eq_nil_iff_forall_not_mem.mpr fun id inside => ?_
        obtain ⟨term,member,held⟩ := ((candidate h (tokenize query)).1 id).mp inside
        rcases empty with tokens | docs
        · exact absurd member (tokens ▸ List.not_mem_nil)
        · obtain ⟨text,there,_⟩ := holder.mp held
          rw [h.totalDocs] at docs
          exact absurd there (List.eq_nil_of_length_eq_zero (Int.ofNat.inj docs) ▸ List.not_mem_nil)
      rw [nothing]
      simp [ranked]
    · rfl

/- Ties included, a search sees the documents only. -/
theorem searchAlike {y : BM25Index F} (h : Computed tokenize k1 b x corpus) (h' : Computed tokenize k1 b y corpus)
    (query : JsString) (topK : Option Int) : search tokenize log x query topK = search tokenize log y query topK := by
  have scores : scoreCandidate log x (tokenize query) = scoreCandidate log y (tokenize query) := by
    funext id
    rw [candidateScore h,candidateScore h']
  have candidates : candidateDocs x (tokenize query) = candidateDocs y (tokenize query) := by
    unfold candidateDocs
    congr 1
    funext candidates term
    rw [(postingHolders h term).1,(postingHolders h' term).1]
  unfold search
  dsimp only
  rw [h.totalDocs,h'.totalDocs,scores,candidates]

/-- After any operations the index is what its documents make it, and a search ranks the scores
that brute force gives them, as an index built of them from scratch does. -/
theorem indexIsBruteForce (operations : List Operation) :
    Computed tokenize k1 b (operations.foldl (step tokenize) (create k1 b)) (operations.foldl current []) ∧
    ∀ (query : JsString) (topK : Option Int),
      (∃ scores, scores.Perm (bruteScores tokenize log k1 b (operations.foldl current []) query) ∧
        search tokenize log (operations.foldl (step tokenize) (create k1 b)) query topK = ranked (topK.getD 20) scores) ∧
      search tokenize log (operations.foldl (step tokenize) (create k1 b)) query topK =
        search tokenize log (fromScratch tokenize k1 b (operations.foldl current [])) query topK := by
  have computed := @runComputed F tokenize k1 b operations
  refine ⟨computed,fun query topK => ⟨searchRanked computed query topK,?_⟩⟩
  have rebuilt := @runComputed F tokenize k1 b [.addBatch (operations.foldl current [])]
  have same : [Operation.addBatch (operations.foldl current [])].foldl current [] = operations.foldl current [] :=
    renewAll computed.ids
  rw [same] at rebuilt
  exact searchAlike computed rebuilt query topK

end Scores

end Northstar.Search.Bm25
