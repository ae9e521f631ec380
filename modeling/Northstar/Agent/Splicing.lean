import Northstar.Agent.Repair

/-! The report splice against a simultaneous substitution. The code searches the report as it has
been edited so far, so what it replaces is a claim's own occurrence only as long as no
replacement text brings in an earlier one. -/
namespace Northstar.Agent.Repair

/- The old text of a claim in the report, and the text behind it up to the next. -/
structure Place where
  rep : Replacement
  after : JsString

def weave (shown : Replacement → JsString) : JsString → List Place → JsString
  | front, [] => front
  | front, place :: rest => front ++ shown place.rep ++ weave shown place.after rest

/- What stands in the report for a claim once it is replaced. -/
def Replacement.text (rep : Replacement) : JsString := rep.newText.getD []

/- Each claim's own occurrence is replaced, and the text between them stays. -/
def Substituted (report : JsString) (reps : List Replacement) (result : JsString) : Prop :=
  ∃ front places, (places.map Place.rep).Perm reps ∧ report = weave Replacement.oldText front places ∧
    result = weave Replacement.text front places

/- The text occurs in one place and no other. -/
def Once (part report : JsString) : Prop :=
  ∃ before after, report = before ++ part ++ after ∧
    ∀ before' after', report = before' ++ part ++ after' → before' = before

variable {shown : Replacement → JsString}

theorem weaveAt (front : JsString) (l : List Place) (place : Place) (r : List Place) :
    weave shown front (l ++ place :: r) = weave shown front l ++ shown place.rep ++ weave shown place.after r := by
  induction l generalizing front with
  | nil => rfl
  | cons first rest ih =>
    rw [List.cons_append,weave,weave,ih]
    simp only [List.append_assoc]

theorem weaveSame {other : Replacement → JsString} (front : JsString) (places : List Place)
    (same : ∀ place ∈ places, shown place.rep = other place.rep) : weave shown front places = weave other front places := by
  induction places generalizing front with
  | nil => rfl
  | cons first rest ih =>
    rw [weave,weave,same first List.mem_cons_self,ih first.after fun place member => same place (List.mem_cons_of_mem _ member)]

theorem foundAt {part text : JsString} {i : Nat} (found : indexOf part text = some i) :
    text = text.take i ++ part ++ text.drop (i + part.length) := by
  induction text generalizing i with
  | nil =>
    unfold indexOf at found
    split at found
    · rename_i empty
      cases found
      rw [empty]
      rfl
    · contradiction
  | cons u rest ih =>
    unfold indexOf at found
    split at found
    · rename_i here
      cases found
      obtain ⟨after,is⟩ := List.isPrefixOf_iff_prefix.mp here
      rw [← is]
      simp
    · obtain ⟨k,later,is⟩ := Option.map_eq_some_iff.mp found
      rw [← is]
      have whole := ih later
      rw [Nat.add_right_comm]
      simpa using whole

theorem foundFirst (part before after : JsString) :
    ∃ i, indexOf part (before ++ part ++ after) = some i ∧ i ≤ before.length := by
  induction before with
  | nil =>
    refine ⟨0,?_,Nat.le_refl _⟩
    cases text : [] ++ part ++ after with
    | nil =>
      have empty : part = [] := by simpa using (List.append_eq_nil_iff.mp text).1
      simp [indexOf,empty]
    | cons u rest =>
      have here : part.isPrefixOf (u :: rest) := by
        rw [List.isPrefixOf_iff_prefix,← text]
        exact ⟨after,by simp⟩
      rw [indexOf,if_pos here]
  | cons u rest ih =>
    obtain ⟨i,found,within⟩ := ih
    rw [List.cons_append,List.cons_append,indexOf]
    split
    · exact ⟨0,rfl,Nat.zero_le _⟩
    · exact ⟨i + 1,by rw [found]; rfl,Nat.succ_le_succ within⟩

theorem foundOnce {part report before after : JsString} (is : report = before ++ part ++ after)
    (only : ∀ before' after', report = before' ++ part ++ after' → before' = before) :
    indexOf part report = some before.length := by
  obtain ⟨i,found,within⟩ := foundFirst part before after
  rw [← is] at found
  have same := only _ _ (foundAt found)
  have long : i ≤ report.length := by
    rw [is,List.length_append,List.length_append]
    omega
  have size := congrArg List.length same
  rw [List.length_take,Nat.min_eq_left long] at size
  rw [found,size]

theorem splicedAt {before part after : JsString} {rep : Replacement} (part_ : rep.oldText = part)
    (found : indexOf part (before ++ part ++ after) = some before.length) :
    spliceOne (before ++ part ++ after) rep = before ++ rep.text ++ after := by
  unfold spliceOne
  rw [part_,found]
  have whole : (before ++ part ++ after).drop (before.length + part.length) = after := by
    rw [← List.length_append,List.drop_left]
  dsimp only
  rw [whole,List.append_assoc before part after,List.take_left]
  rfl

/- A run that finds every claim at its own place. -/
def current (done : List Replacement) (rep : Replacement) : JsString := if rep ∈ done then rep.text else rep.oldText

def Aimed (front : JsString) (places : List Place) (reps : List Replacement) : Prop :=
  ∀ done rep later, reps = done ++ rep :: later → ∀ l place r, places = l ++ place :: r → place.rep = rep →
    indexOf rep.oldText (weave (current done) front places) = some (weave (current done) front l).length

theorem aimedRun {front : JsString} {places : List Place} {reps : List Replacement} (once : (places.map Place.rep).Nodup)
    (perm : (places.map Place.rep).Perm reps) (aimed : Aimed front places reps) (done later : List Replacement)
    (all_ : reps = done ++ later) :
    splice (weave (current done) front places) later = weave (current reps) front places := by
  induction later generalizing done with
  | nil => rw [all_,List.append_nil]; rfl
  | cons rep rest ih =>
    have member : rep ∈ places.map Place.rep := perm.mem_iff.mpr (by rw [all_]; simp)
    obtain ⟨place,inside,is⟩ := List.mem_map.mp member
    obtain ⟨l,r,split_⟩ := List.append_of_mem inside
    have distinct := once
    rw [split_,List.map_append,List.map_cons,is] at distinct
    obtain ⟨_,tail_,apart⟩ := List.nodup_append.mp distinct
    have fresh := (List.nodup_cons.mp tail_).1
    have unused : rep ∉ done := by
      have whole := perm.nodup_iff.mp once
      rw [all_] at whole
      exact fun there => (List.nodup_append.mp whole).2.2 rep there rep List.mem_cons_self rfl
    have outside : ∀ other ∈ places, other.rep ≠ rep → current done other.rep = current (done ++ [rep]) other.rep := by
      intro other _ different
      unfold current
      simp [different]
    have before : weave (current done) front l = weave (current (done ++ [rep])) front l := weaveSame front l fun other among =>
      outside other (by rw [split_]; exact List.mem_append_left _ among)
        (apart other.rep (List.mem_map_of_mem among) rep List.mem_cons_self)
    have behind : weave (current done) place.after r = weave (current (done ++ [rep])) place.after r :=
      weaveSame place.after r fun other among => outside other
        (by rw [split_]; exact List.mem_append_right _ (List.mem_cons_of_mem _ among))
        fun same => fresh (same ▸ List.mem_map_of_mem among)
    have here : current done place.rep = rep.oldText := by rw [is]; exact if_neg unused
    have there : current (done ++ [rep]) place.rep = rep.text := by
      rw [is]
      exact if_pos (by simp)
    have step : spliceOne (weave (current done) front places) rep = weave (current (done ++ [rep])) front places := by
      have found := aimed done rep rest all_ l place r split_ is
      rw [split_,weaveAt,here] at found
      rw [split_,weaveAt,weaveAt,here,there,← before,← behind]
      exact splicedAt rfl found
    have rest_ := ih (done ++ [rep]) (by rw [all_]; simp)
    rw [← step] at rest_
    exact rest_

theorem aimedSubstituted {report front : JsString} {places : List Place} {reps : List Replacement}
    (once : (places.map Place.rep).Nodup) (perm : (places.map Place.rep).Perm reps)
    (is : report = weave Replacement.oldText front places) (aimed : Aimed front places reps) :
    Substituted report reps (splice report reps) := by
  have none_ : weave (current []) front places = report := by
    rw [is]
    exact weaveSame front places fun place _ => if_neg List.not_mem_nil
  have all_ : weave (current reps) front places = weave Replacement.text front places :=
    weaveSame front places fun place member => if_pos (perm.mem_iff.mp (List.mem_map_of_mem member))
  have run := aimedRun once perm aimed [] reps rfl
  rw [none_,all_] at run
  exact ⟨front,places,perm,is,run⟩

theorem placesDistinct {places : List Place} {front head_ : JsString}
    (once : ∀ place ∈ places, place.rep.oldText ≠ [] ∧
      Once place.rep.oldText (head_ ++ weave Replacement.oldText front places)) : (places.map Place.rep).Nodup := by
  induction places generalizing front head_ with
  | nil => exact List.nodup_nil
  | cons first rest ih =>
    rw [List.map_cons,List.nodup_cons]
    constructor
    · intro again
      obtain ⟨other,inside,same⟩ := List.mem_map.mp again
      obtain ⟨l,r,split_⟩ := List.append_of_mem inside
      obtain ⟨filled,before,after,_,only⟩ := once first List.mem_cons_self
      have one := only (head_ ++ front) (weave Replacement.oldText first.after rest) (by rw [weave]; simp only [List.append_assoc])
      have two := only (head_ ++ front ++ first.rep.oldText ++ weave Replacement.oldText first.after l)
        (weave Replacement.oldText other.after r) (by rw [weave,split_,weaveAt,same]; simp only [List.append_assoc])
      have size := congrArg List.length (one.trans two.symm)
      simp only [List.length_append] at size
      have positive := List.length_pos_iff.mpr filled
      omega
    · refine @ih first.after (head_ ++ front ++ first.rep.oldText) fun place member => ?_
      have whole := once place (List.mem_cons_of_mem _ member)
      rw [weave] at whole
      simpa only [List.append_assoc] using whole

/- Replacements that put back what they take out. -/
theorem idleSplice (text : JsString) (reps : List Replacement) (idle : ∀ rep ∈ reps, rep.newText = some rep.oldText) :
    text <+: splice text reps := by
  induction reps generalizing text with
  | nil => exact List.prefix_refl _
  | cons rep rest ih =>
    have step : text <+: spliceOne text rep := by
      unfold spliceOne
      rw [idle rep List.mem_cons_self]
      cases found : indexOf rep.oldText text with
      | none =>
        dsimp only
        rw [List.append_assoc]
        exact List.prefix_append _ _
      | some i =>
        dsimp only
        rw [Option.getD_some,← foundAt found]
    exact step.trans (ih _ fun other member => idle other (List.mem_cons_of_mem _ member))

theorem oneClaim {report : JsString} {rep : Replacement} (once : Once rep.oldText report) :
    Substituted report [rep] (splice report [rep]) := by
  obtain ⟨before,after,is,only⟩ := once
  refine ⟨before,[⟨rep,after⟩],List.Perm.refl _,is,?_⟩
  have found := foundOnce is only
  rw [is] at found
  change spliceOne report rep = before ++ rep.text ++ after
  rw [is]
  exact splicedAt rfl found

/- Two claims: where the first is replaced by the text of the second, the second is searched for
too early. -/
theorem twoClaims {report : JsString} {olds : List JsString} (once : ∀ old ∈ olds, old ≠ [] ∧ Once old report)
    (more : 1 < olds.length) :
    ∃ reps : List Replacement, (reps.map Replacement.oldText).Perm olds ∧ ¬Substituted report reps (splice report reps) := by
  by_contra none_
  have every : ∀ reps : List Replacement, (reps.map Replacement.oldText).Perm olds →
      Substituted report reps (splice report reps) := by
    intro reps perm
    by_contra bad
    exact none_ ⟨reps,perm,bad⟩
  -- some run is a substitution, which lays the claims out in the report
  obtain ⟨front,places,perm,is,_⟩ := every (olds.map fun old => ⟨old,some old⟩) (by
    rw [List.map_map]
    exact List.Perm.of_eq (List.map_id' olds))
  have size := perm.length_eq
  rw [List.length_map,List.length_map] at size
  obtain ⟨first,second,rest,rfl⟩ : ∃ first second rest, places = first :: second :: rest := by
    cases places with
    | nil => rw [List.length_nil] at size; omega
    | cons first later => cases later with
      | nil => rw [List.length_singleton] at size; omega
      | cons second rest => exact ⟨first,second,rest,rfl⟩
  have texts := perm.map Replacement.oldText
  rw [List.map_map,List.map_map] at texts
  replace texts : (first.rep.oldText :: second.rep.oldText :: rest.map fun place => place.rep.oldText).Perm olds :=
    texts.trans (List.Perm.of_eq (List.map_id' olds))
  generalize a_ : first.rep.oldText = a at texts
  generalize b_ : second.rep.oldText = b at texts
  obtain ⟨aFilled,aBefore,aAfter,aIs,aOnly⟩ := once a (texts.mem_iff.mp List.mem_cons_self)
  obtain ⟨bFilled,bBefore,bAfter,bIs,bOnly⟩ := once b (texts.mem_iff.mp (by simp))
  rw [weave,weave,a_,b_] at is
  generalize weave Replacement.oldText second.after rest = tail_ at is
  -- a unit that the second text does not start with
  obtain ⟨u,b',rfl⟩ := List.exists_cons_of_ne_nil bFilled
  obtain ⟨z,other⟩ : ∃ z : UInt16, z ≠ u := by
    by_cases zero : u = 0
    · exact ⟨1,by rw [zero]; decide⟩
    · exact ⟨0,fun same => zero same.symm⟩
  let reps : List Replacement := ⟨a,some (u :: b')⟩ :: ⟨u :: b',some (List.replicate (front.length + 1) z)⟩ ::
    rest.map fun place => ⟨place.rep.oldText,some place.rep.oldText⟩
  have laid : (reps.map Replacement.oldText).Perm olds := by
    refine List.Perm.trans (List.Perm.of_eq ?_) texts
    simp only [reps,List.map_cons,List.map_map]
    rfl
  obtain ⟨front',places',perm',is',result⟩ := every reps laid
  have own : front = aBefore := aOnly front (first.after ++ (u :: b') ++ tail_) is
  -- the substitution has the second text where the first was
  have replaced : ∃ behind, splice report reps = front ++ (u :: b') ++ behind := by
    have inside : (⟨a,some (u :: b')⟩ : Replacement) ∈ places'.map Place.rep := perm'.mem_iff.mpr List.mem_cons_self
    obtain ⟨place,among,same⟩ := List.mem_map.mp inside
    obtain ⟨l,r,split_⟩ := List.append_of_mem among
    rw [split_,weaveAt,same] at is'
    rw [split_,weaveAt,same] at result
    have ahead : weave Replacement.oldText front' l = front := (aOnly _ _ is').trans own.symm
    have idle : ∀ place ∈ l, place.rep.text = place.rep.oldText := by
      intro place early
      obtain ⟨l',r',cut⟩ := List.append_of_mem early
      have shape : front = weave Replacement.oldText front' l' ++ place.rep.oldText ++
          weave Replacement.oldText place.after r' := by rw [← ahead,cut,weaveAt]
      have listed : place.rep ∈ reps := perm'.mem_iff.mp (List.mem_map_of_mem (by
        rw [split_]
        exact List.mem_append_left _ early))
      have lengths := congrArg List.length shape
      simp only [List.length_append] at lengths
      rcases List.mem_cons.mp listed with is_ | later
      · rw [is_] at shape lengths
        dsimp only at lengths
        have again := aOnly (weave Replacement.oldText front' l')
          (weave Replacement.oldText place.after r' ++ a ++ (first.after ++ ((u :: b') ++ tail_))) (by
          rw [is,shape]
          simp only [List.append_assoc])
        have same_ := congrArg List.length (again.trans own.symm)
        have positive := List.length_pos_iff.mpr aFilled
        omega
      · rcases List.mem_cons.mp later with is_ | idle_
        · rw [is_] at shape lengths
          have again := bOnly (weave Replacement.oldText front' l')
            (weave Replacement.oldText place.after r' ++ a ++ (first.after ++ ((u :: b') ++ tail_))) (by
            rw [is,shape]
            simp only [List.append_assoc])
          have there := bOnly (front ++ a ++ first.after) tail_ (by rw [is]; simp only [List.append_assoc])
          have same_ := congrArg List.length (again.trans there.symm)
          simp only [List.length_append] at same_
          have positive := List.length_pos_iff.mpr aFilled
          omega
        · obtain ⟨_,_,made⟩ := List.mem_map.mp idle_
          rw [← made]
          rfl
    refine ⟨weave Replacement.text place.after r,?_⟩
    rw [result,weaveSame front' l idle,ahead]
    rfl
  -- the run has the long replacement of the second there
  have run : ∃ i later, i ≤ front.length ∧ (splice report reps) = later ∧
      later[front.length]? = some z := by
    have foundA := foundOnce (by rw [is]; simp only [List.append_assoc] : report = front ++ a ++
      (first.after ++ ((u :: b') ++ tail_))) (own ▸ aOnly)
    have stepA : spliceOne report ⟨a,some (u :: b')⟩ = front ++ (u :: b') ++ (first.after ++ ((u :: b') ++ tail_)) := by
      have shape : report = front ++ a ++ (first.after ++ ((u :: b') ++ tail_)) := by rw [is]; simp only [List.append_assoc]
      rw [shape] at foundA ⊢
      exact splicedAt rfl foundA
    obtain ⟨i,found,within⟩ := foundFirst (u :: b') front (first.after ++ ((u :: b') ++ tail_))
    have idle := idleSplice (spliceOne (spliceOne report ⟨a,some (u :: b')⟩)
        ⟨u :: b',some (List.replicate (front.length + 1) z)⟩)
      (rest.map fun place => ⟨place.rep.oldText,some place.rep.oldText⟩) (by
        intro rep member
        obtain ⟨_,_,made⟩ := List.mem_map.mp member
        rw [← made])
    refine ⟨i,_,within,rfl,?_⟩
    obtain ⟨extra,whole⟩ := idle
    have spliced : splice report reps = spliceOne (spliceOne report ⟨a,some (u :: b')⟩)
        ⟨u :: b',some (List.replicate (front.length + 1) z)⟩ ++ extra := whole.symm
    rw [spliced,stepA]
    unfold spliceOne
    dsimp only
    rw [found]
    dsimp only
    have long : i ≤ (front ++ (u :: b') ++ (first.after ++ ((u :: b') ++ tail_))).length := by
      rw [List.length_append,List.length_append]
      omega
    rw [Option.getD_some,List.append_assoc,List.append_assoc,
      List.getElem?_append_right (by rw [List.length_take]; omega),List.length_take,Nat.min_eq_left long,
      List.getElem?_append_left (by rw [List.length_replicate]; omega),List.getElem?_replicate,if_pos (by omega)]
  obtain ⟨behind,shape⟩ := replaced
  obtain ⟨_,_,_,is_,at_⟩ := run
  rw [← is_,shape,List.append_assoc,List.getElem?_append_right (Nat.le_refl _),Nat.sub_self] at at_
  exact other (Option.some.inj at_).symm

/-- The spliced report is the substitution of each claim's own occurrence, in every order of the
claims and for all their replacement texts, exactly when at most one claim failed. A run of more
claims is one where every old text is first found at its own place. -/
theorem reportSplice {report : JsString} {olds : List JsString} (once : ∀ old ∈ olds, old ≠ [] ∧ Once old report) :
    ((∀ reps : List Replacement, (reps.map Replacement.oldText).Perm olds → Substituted report reps (splice report reps)) ↔
      olds.length ≤ 1) ∧
    ∀ (reps : List Replacement) (front : JsString) (places : List Place), (reps.map Replacement.oldText).Perm olds →
      (places.map Place.rep).Perm reps → report = weave Replacement.oldText front places → Aimed front places reps →
      Substituted report reps (splice report reps) := by
  refine ⟨⟨fun every => ?_,fun few reps perm => ?_⟩,fun reps front places perm laid is aimed => ?_⟩
  · by_contra more
    obtain ⟨reps,perm,bad⟩ := twoClaims once (Nat.lt_of_not_le more)
    exact bad (every reps perm)
  · have size := perm.length_eq
    rw [List.length_map] at size
    cases reps with
    | nil => exact ⟨report,[],List.Perm.refl _,rfl,rfl⟩
    | cons rep later => cases later with
      | nil => exact oneClaim (once rep.oldText (perm.mem_iff.mp List.mem_cons_self)).2
      | cons other rest =>
        simp only [List.length_cons] at size
        omega
  · have apart : (places.map Place.rep).Nodup := by
      refine @placesDistinct places front [] fun place member => ?_
      rw [List.nil_append,← is]
      exact once _ (perm.mem_iff.mp (List.mem_map_of_mem (laid.mem_iff.mp (List.mem_map_of_mem member))))
    exact aimedSubstituted apart laid is aimed

theorem singleClaim : Substituted (js "a") [⟨js "a",some (js "b")⟩] (splice (js "a") [⟨js "a",some (js "b")⟩]) := by
  refine (@reportSplice (js "a") [js "a"] ?_).1.mpr (Nat.le_refl 1) [⟨js "a",some (js "b")⟩] (List.Perm.refl _)
  intro old member
  rw [List.mem_singleton.mp member]
  refine ⟨by decide,[],[],by decide,fun before after is => ?_⟩
  have size := congrArg List.length is
  rw [List.length_append,List.length_append,show (js "a").length = 1 from by decide] at size
  exact List.length_eq_zero_iff.mp (by omega)

/- Each old text occurs once, and the order of the two claims shows in the report: in one order
the second replacement falls on the text of the first. -/
theorem chainedSplice :
    weave Replacement.oldText [] [⟨⟨js "x",some (js "y")⟩,js " "⟩,⟨⟨js "y",some (js "z")⟩,[]⟩] = js "x y" ∧
    weave Replacement.text [] [⟨⟨js "x",some (js "y")⟩,js " "⟩,⟨⟨js "y",some (js "z")⟩,[]⟩] = js "y z" ∧
    occurrences (js "x") 0 (js "x y") = 1 ∧ occurrences (js "y") 0 (js "x y") = 1 ∧
    splice (js "x y") [⟨js "x",some (js "y")⟩,⟨js "y",some (js "z")⟩] = js "z y" ∧
    splice (js "x y") [⟨js "y",some (js "z")⟩,⟨js "x",some (js "y")⟩] = js "y z" := by decide

end Northstar.Agent.Repair
