import Mathlib.Data.List.Find
import Mathlib.Data.List.Nodup
import Northstar.Gathering
import Northstar.Mapping

/-! Parties that put their values in turn under keys. A value under a known key is merged into the
one that is there and is lost from its own list; then the lists are cut in the same turn until no
more is left than may be. -/
namespace Northstar.Turns
open Mapping

variable {V K P : Type} [DecidableEq K] [DecidableEq P]

/- One party's turn: what is kept for all, and what stays in its own list. -/
def keepNew (key : V → K) (merge : V → V → V) (kept : List (K × V)) : List V → List (K × V) × List V
  | [] => (kept,[])
  | value :: rest => match look kept (key value) with
    | none =>
        let (kept,own) := keepNew key merge (put kept (key value) value) rest
        (kept,value :: own)
    | some held => keepNew key merge (put kept (key value) (merge held value)) rest

def inTurn (key : V → K) (merge : V → V → V) : List P → List (K × V) → (P → List V) → List (K × V) × (P → List V)
  | [],kept,lists => (kept,lists)
  | party :: rest,kept,lists =>
      let (kept,own) := keepNew key merge kept (lists party)
      inTurn key merge rest kept (Function.update lists party own)

def refreshed (key : V → K) (kept : List (K × V)) (value : V) : V := (look kept (key value)).getD value

def capped : List P → Nat → (P → List V) → P → List V
  | [],_,lists => lists
  | party :: rest,remaining,lists =>
      let own := if remaining = 0 then [] else if remaining < (lists party).length then (lists party).take remaining else lists party
      capped rest (remaining - own.length) (Function.update lists party own)

variable {key : V → K} {merge : V → V → V}

/- Values beside their keys. -/
def keyed (key : V → K) (values : List V) : List (K × V) := values.map fun value => (key value,value)

abbrev run (key : V → K) (merge : V → V → V) (offers values : List V) : List V :=
  offers.foldl (fun values offered => gather key merge offered values) values

omit [DecidableEq K] in
theorem keyedKeys (values : List V) : (keyed key values).map (·.1) = values.map key := by
  unfold keyed
  rw [List.map_map]
  rfl

theorem lookKeyed (values : List V) (k : K) : look (keyed key values) k = under key k values := by
  induction values with
  | nil => rfl
  | cons value rest ih =>
    change look ((key value,value) :: keyed key rest) k = _
    rw [lookCons,ih]
    unfold under
    rw [List.find?_cons]
    by_cases same : key value = k
    · simp [same]
    · simp [same]

/- Putting what an offer makes of the value under its key is to gather it. -/
theorem putKeyed (same : ∀ value offered, key (merge value offered) = key value) {values : List V}
    (once : (values.map key).Nodup) (offered : V) :
    put (keyed key values) (key offered) (((under key (key offered) values).map (merge · offered)).getD offered) =
      keyed key (gather key merge offered values) := by
  induction values with
  | nil => rfl
  | cons value rest ih =>
    obtain ⟨apart,once⟩ := List.nodup_cons.mp once
    by_cases here : key value = key offered
    · have found : under key (key offered) (value :: rest) = some value := by
        unfold under
        rw [List.find?_cons_of_pos (by simpa using here)]
      have others : rest.map (fun v => if key v = key offered then (key offered,merge value offered) else (key v,v)) = keyed key rest := by
        refine List.map_congr_left fun other member => if_neg fun eq => apart ?_
        rw [here,← eq]
        exact List.mem_map_of_mem member
      rw [found,gather,if_pos here,put,if_pos]
      · simp only [keyed,List.map_cons,Option.map_some,Option.getD_some,if_pos here,List.map_map,same]
        rw [here]
        exact congrArg _ others
      · rw [hasKey,keyedKeys,List.map_cons,here]
        exact List.mem_cons_self
    · have found : under key (key offered) (value :: rest) = under key (key offered) rest := by
        unfold under
        rw [List.find?_cons_of_neg (by simpa using here)]
      have step := ih once
      rw [found,gather,if_neg here]
      generalize ((under key (key offered) rest).map (merge · offered)).getD offered = made at step ⊢
      change _ = (key value,value) :: keyed key (gather key merge offered rest)
      rw [← step]
      unfold put
      have known : has (keyed key (value :: rest)) (key offered) = has (keyed key rest) (key offered) := by
        simp [has,keyed,here]
      rw [known]
      split
      · change _ :: _ = _
        simp only [if_neg here]
        rfl
      · rfl

theorem keepRun (same : ∀ value offered, key (merge value offered) = key value) {values : List V} (once : (values.map key).Nodup)
    (offers : List V) :
    (keepNew key merge (keyed key values) offers).1 = keyed key (run key merge offers values) ∧
    (run key merge offers values).map key = values.map key ++ (keepNew key merge (keyed key values) offers).2.map key ∧
    (keepNew key merge (keyed key values) offers).2.Sublist offers := by
  induction offers generalizing values with
  | nil => exact ⟨rfl,(List.append_nil _).symm,.slnil⟩
  | cons offered rest ih =>
    have step := putKeyed same once offered
    have keys := gatherKeys same offered values
    obtain ⟨kept,all,own⟩ := ih (gatherDistinct same once offered)
    unfold keepNew
    rw [lookKeyed]
    cases found : under key (key offered) values with
    | none =>
      have new : key offered ∉ values.map key := by
        intro known
        obtain ⟨value,member,eq⟩ := List.mem_map.mp known
        exact List.find?_eq_none.mp found value member (by simpa using eq)
      rw [found] at step
      simp only [Option.map_none,Option.getD_none] at step
      rw [if_neg new] at keys
      rw [keys] at all
      dsimp only
      rw [step]
      refine ⟨kept,?_,own.cons_cons offered⟩
      rw [List.map_cons,run,List.foldl_cons]
      simpa using all
    | some held =>
      have known : key offered ∈ values.map key := by
        have eq := List.find?_some found
        rw [← of_decide_eq_true eq]
        exact List.mem_map_of_mem (List.mem_of_find?_eq_some found)
      rw [found] at step
      simp only [Option.map_some,Option.getD_some] at step
      rw [if_pos known] at keys
      rw [keys] at all
      dsimp only
      rw [step]
      exact ⟨kept,all,own.cons offered⟩

/- The first party in the turn that has a value under a key. -/
def first (key : V → K) (order : List P) (lists : P → List V) (k : K) : Option P :=
  order.find? fun party => (lists party).any fun value => key value = k

structure Shared (key : V → K) (merge : V → V → V) (order : List P) (values : List V) (lists : P → List V)
    (kept : List (K × V)) (shares : P → List V) : Prop where
  whole : kept = keyed key (run key merge (order.flatMap lists) values)
  keys : (run key merge (order.flatMap lists) values).map key = values.map key ++ (order.flatMap shares).map key
  outside : ∀ party ∉ order, shares party = lists party
  own : ∀ party, (shares party).Sublist (lists party)
  earliest : ∀ party ∈ order, ∀ value ∈ shares party, first key order lists (key value) = some party

theorem turnsShared (same : ∀ value offered, key (merge value offered) = key value) {order : List P} (distinct : order.Nodup)
    {values : List V} (once : (values.map key).Nodup) (lists : P → List V) :
    Shared key merge order values lists (inTurn key merge order (keyed key values) lists).1
      (inTurn key merge order (keyed key values) lists).2 := by
  induction order generalizing values lists with
  | nil => exact ⟨rfl,by simp,fun _ _ => rfl,fun _ => .refl _,fun _ member => absurd member List.not_mem_nil⟩
  | cons party rest ih =>
    obtain ⟨apart,distinct⟩ := List.nodup_cons.mp distinct
    obtain ⟨kept,keys,own⟩ := keepRun same once (lists party)
    unfold inTurn
    dsimp only
    rw [kept]
    generalize (keepNew key merge (keyed key values) (lists party)).2 = mine at keys own ⊢
    have once' := runDistinct same (lists party) once
    have later := ih distinct once' (Function.update lists party mine)
    have others : rest.flatMap (Function.update lists party mine) = rest.flatMap lists :=
      List.flatMap_congr fun other member => by
        rw [Function.update_of_ne]
        rintro rfl
        exact apart member
    have whole : run key merge ((party :: rest).flatMap lists) values =
        run key merge (rest.flatMap lists) (run key merge (lists party) values) := by
      rw [List.flatMap_cons]
      exact List.foldl_append
    have ownShare : (inTurn key merge rest (keyed key (run key merge (lists party) values)) (Function.update lists party mine)).2 party =
        mine := (later.outside party apart).trans (Function.update_self _ _ _)
    refine ⟨?_,?_,?_,?_,?_⟩
    · rw [later.whole,others,whole]
    · rw [whole,← others,later.keys,keys,List.flatMap_cons,List.map_append,ownShare,List.append_assoc]
    · intro other absent
      have ne : other ≠ party := fun eq => absent (eq ▸ List.mem_cons_self)
      rw [later.outside other fun member => absent (List.mem_cons_of_mem _ member),Function.update_of_ne ne]
    · intro other
      by_cases eq : other = party
      · rw [eq,ownShare]
        exact own
      · exact (later.own other).trans (by rw [Function.update_of_ne eq])
    · intro other member value inside
      unfold first
      rcases List.mem_cons.mp member with rfl | behind
      · rw [ownShare] at inside
        refine List.find?_cons_of_pos (List.any_eq_true.mpr ⟨value,own.subset inside,?_⟩)
        simp
      · have ne : other ≠ party := fun eq => apart (eq ▸ behind)
        have earlier := later.earliest other behind value inside
        have unseen : key value ∉ (run key merge (lists party) values).map key := by
          have nodup := runDistinct same (rest.flatMap (Function.update lists party mine)) once'
          rw [later.keys] at nodup
          exact fun known => (List.nodup_append.mp nodup).2.2 _ known _
            (List.mem_map_of_mem (List.mem_flatMap.mpr ⟨other,behind,inside⟩)) rfl
        have none_ : ¬ ((lists party).any fun v => key v = key value) = true := by
          intro known
          obtain ⟨v,there,eq⟩ := List.any_eq_true.mp known
          refine unseen ?_
          rw [runKeys same,← of_decide_eq_true eq]
          by_cases old : key v ∈ values.map key
          · exact List.mem_append_left _ old
          · refine List.mem_append_right _ (List.mem_eraseDups.mpr (List.mem_filter.mpr ⟨List.mem_map_of_mem there,by simpa using old⟩))
        have others (another : P) (there : another ∈ rest) : ((Function.update lists party mine) another).any (fun v => key v = key value) =
            (lists another).any fun v => key v = key value := by
          rw [Function.update_of_ne]
          rintro rfl
          exact apart there
        exact (List.find?_cons_of_neg (p := fun another => (lists another).any fun v => key v = key value) none_).trans ((List.find?_congr others).symm.trans earlier)

/- What is kept, list by list. -/
theorem refreshedAll {values : List V} (once : (values.map key).Nodup) {own : List V} (same : own.map key = values.map key) :
    own.map (refreshed key (keyed key values)) = values := by
  have found (value : V) (member : value ∈ values) : look (keyed key values) (key value) = some value := by
    rw [lookKeyed]
    exact foundByKey once member
  have options : own.map (fun value => look (keyed key values) (key value)) = values.map some := by
    have both := congrArg (List.map (look (keyed key values))) same
    rw [List.map_map,List.map_map] at both
    exact both.trans (List.map_congr_left found)
  have known (value : V) (member : value ∈ own) : ∃ there, look (keyed key values) (key value) = some there := by
    have inside : look (keyed key values) (key value) ∈ values.map some :=
      options ▸ List.mem_map_of_mem (f := fun v => look (keyed key values) (key v)) member
    obtain ⟨there,-,eq⟩ := List.mem_map.mp inside
    exact ⟨there,eq.symm⟩
  refine List.map_injective_iff.mpr (fun _ _ eq => Option.some.inj eq) ?_
  rw [← options,List.map_map]
  refine List.map_congr_left fun value member => ?_
  obtain ⟨there,eq⟩ := known value member
  simp [refreshed,eq]

structure Cut (order : List P) (remaining : Nat) (lists shares : P → List V) : Prop where
  whole : order.flatMap shares = (order.flatMap lists).take remaining
  outside : ∀ party ∉ order, shares party = lists party
  front : ∀ party, shares party <+: lists party
  earlier : ∀ before party after_, order = before ++ party :: after_ → shares party ≠ [] → ∀ other ∈ before, shares other = lists other

theorem cappedCut {order : List P} (distinct : order.Nodup) (remaining : Nat) (lists : P → List V) :
    Cut order remaining lists (capped order remaining lists) := by
  induction order generalizing remaining lists with
  | nil => exact ⟨by simp,fun _ _ => rfl,fun _ => List.prefix_refl _,fun before _ _ split => absurd split.symm (by simp)⟩
  | cons party rest ih =>
    obtain ⟨apart,distinct⟩ := List.nodup_cons.mp distinct
    unfold capped
    dsimp only
    have taken : (if remaining = 0 then [] else if remaining < (lists party).length then (lists party).take remaining else lists party) =
        (lists party).take remaining := by
      split
      · rename_i none_
        rw [none_,List.take_zero]
      · split
        · rfl
        · exact (List.take_of_length_le (by omega)).symm
    rw [taken]
    have later := ih distinct (remaining - ((lists party).take remaining).length) (Function.update lists party ((lists party).take remaining))
    generalize capped rest (remaining - ((lists party).take remaining).length)
      (Function.update lists party ((lists party).take remaining)) = shares at later ⊢
    have others : rest.flatMap (Function.update lists party ((lists party).take remaining)) = rest.flatMap lists :=
      List.flatMap_congr fun other member => by
        rw [Function.update_of_ne]
        rintro rfl
        exact apart member
    have own : shares party = (lists party).take remaining := (later.outside party apart).trans (Function.update_self _ _ _)
    refine ⟨?_,?_,?_,?_⟩
    · rw [List.flatMap_cons,List.flatMap_cons,own,later.whole,others,List.take_append,List.length_take]
      congr 2
      omega
    · intro other absent
      have ne : other ≠ party := fun eq => absent (eq ▸ List.mem_cons_self)
      rw [later.outside other fun member => absent (List.mem_cons_of_mem _ member),Function.update_of_ne ne]
    · intro other
      by_cases eq : other = party
      · rw [eq,own]
        exact List.take_prefix _ _
      · have front := later.front other
        rwa [Function.update_of_ne eq] at front
    · intro before other after_ split some_ ahead member
      cases before with
      | nil => cases member
      | cons head more =>
        obtain ⟨rfl,behind_⟩ := List.cons.inj split
        have inside : other ∈ rest := behind_ ▸ List.mem_append_right _ List.mem_cons_self
        rcases List.mem_cons.mp member with rfl | behind
        · -- Something is left for a later one, so the whole list fitted.
          rw [own]
          refine List.take_of_length_le ?_
          by_contra short
          have full : remaining - ((lists ahead).take remaining).length = 0 := by
            rw [List.length_take]
            omega
          have none_ := later.whole
          rw [full,List.take_zero,List.flatMap_eq_nil_iff] at none_
          exact some_ (none_ other inside)
        · have kept := later.earlier more other after_ behind_ some_ ahead behind
          rwa [Function.update_of_ne] at kept
          rintro rfl
          exact apart (behind_ ▸ List.mem_append_left _ behind)

theorem refreshedKey (values : List V) (value : V) : key (refreshed key (keyed key values) value) = key value := by
  unfold refreshed
  rw [lookKeyed]
  cases found : under key (key value) values with
  | none => rfl
  | some there =>
    have here : decide (key there = key value) = true := List.find?_some (p := fun v => key v = key value) found
    exact of_decide_eq_true here

/- The lists after every turn, with what became of their values. -/
def mergedLists (key : V → K) (merge : V → V → V) (order : List P) (lists : P → List V) (party : P) : List V :=
  ((inTurn key merge order [] lists).2 party).map (refreshed key (inTurn key merge order [] lists).1)

structure Left (key : V → K) (merge : V → V → V) (order : List P) (most : Nat) (lists shares : P → List V) : Prop where
  whole : order.flatMap shares = (run key merge (order.flatMap lists) []).take most
  own : ∀ party ∈ order, ∀ value ∈ shares party, first key order lists (key value) = some party
  earlier : ∀ before party after_, order = before ++ party :: after_ → shares party ≠ [] →
    ∀ other ∈ before, ∀ value ∈ lists other, key value ∈ (order.flatMap shares).map key

theorem cutLeft (same : ∀ value offered, key (merge value offered) = key value) {order : List P} (distinct : order.Nodup) {most : Nat}
    {lists shares : P → List V} (cut : Cut order most (mergedLists key merge order lists) shares) : Left key merge order most lists shares := by
  have once : (([] : List V).map key).Nodup := .nil
  have shared : Shared key merge order [] lists (inTurn key merge order [] lists).1 (inTurn key merge order [] lists).2 :=
    turnsShared same distinct once lists
  have all := runDistinct same (order.flatMap lists) once
  have whole : order.flatMap (mergedLists key merge order lists) = run key merge (order.flatMap lists) [] := by
    have keys : (order.flatMap (inTurn key merge order [] lists).2).map key = (run key merge (order.flatMap lists) []).map key :=
      shared.keys.symm
    have eq := refreshedAll all keys
    rw [← shared.whole,List.map_flatMap] at eq
    exact eq
  have own (party : P) (member : party ∈ order) (value : V) (inside : value ∈ mergedLists key merge order lists party) :
      first key order lists (key value) = some party := by
    obtain ⟨kept,there,rfl⟩ := List.mem_map.mp inside
    have earliest := shared.earliest party member kept there
    rw [shared.whole]
    exact (congrArg (first key order lists) (refreshedKey _ kept)).trans earliest
  refine ⟨by rw [cut.whole,whole],fun party member value inside => own party member value ((cut.front party).subset inside),?_⟩
  intro before party after_ split some_ other ahead value offered
  -- The first to offer the key is ahead as well, and its list is not cut.
  have known : key value ∈ (run key merge (order.flatMap lists) []).map key := by
    rw [runKeys same]
    refine List.mem_append_right _ (List.mem_eraseDups.mpr (List.mem_filter.mpr ⟨?_,by simp⟩))
    exact List.mem_map_of_mem (List.mem_flatMap.mpr ⟨other,split ▸ List.mem_append_left _ ahead,offered⟩)
  rw [← whole] at known
  obtain ⟨kept,inside,eq⟩ := List.mem_map.mp known
  obtain ⟨holder,member,there⟩ := List.mem_flatMap.mp inside
  have holds := own holder member kept there
  have found : ∃ one, before.find? (fun another => (lists another).any fun v => key v = key kept) = some one := by
    refine Option.isSome_iff_exists.mp (List.find?_isSome.mpr ⟨other,ahead,List.any_eq_true.mpr ⟨value,offered,?_⟩⟩)
    exact decide_eq_true eq.symm
  obtain ⟨one,found⟩ := found
  have front : first key order lists (key kept) = some one := by
    unfold first
    rw [split,List.find?_append,found]
    rfl
  cases Option.some.inj (holds.symm.trans front)
  have uncut := cut.earlier before party after_ split some_ holder (List.mem_of_find?_eq_some found)
  rw [← eq]
  exact List.mem_map_of_mem (List.mem_flatMap.mpr ⟨holder,member,uncut ▸ there⟩)

/- The first offer of a key is from the first party that has it. -/
theorem firstOffer {order : List P} {lists : P → List V} {k : K} {party : P} (found : first key order lists k = some party) :
    ∃ value ∈ lists party, ((order.flatMap lists).filter fun v => key v = k).head? = some value := by
  induction order with
  | nil => cases found
  | cons other rest ih =>
    unfold first at found
    rw [List.find?_cons] at found
    rw [List.flatMap_cons,List.filter_append,List.head?_append]
    cases here : (lists other).any fun v => key v = k with
    | true =>
      rw [here] at found
      cases Option.some.inj found
      obtain ⟨value,there,eq⟩ := List.any_eq_true.mp here
      cases own : (lists party).filter fun v => key v = k with
      | nil => exact absurd (List.filter_eq_nil_iff.mp own value there) (not_not.mpr eq)
      | cons v more =>
        have member : v ∈ (lists party).filter fun v => key v = k := own ▸ List.mem_cons_self
        exact ⟨v,(List.mem_filter.mp member).1,rfl⟩
    | false =>
      rw [here] at found
      have none_ : ((lists other).filter fun v => key v = k) = [] := by
        refine List.filter_eq_nil_iff.mpr fun v there eq => ?_
        exact absurd (List.any_eq_true.mpr ⟨v,there,eq⟩) (by rw [here]; decide)
      obtain ⟨value,there,head⟩ := ih found
      refine ⟨value,there,?_⟩
      rw [none_,List.head?_nil,Option.none_or]
      exact head

theorem countOwn {owner : V → Option P} {parties : List P} (distinct : parties.Nodup) {lists : P → List V}
    (own : ∀ party ∈ parties, ∀ value ∈ lists party, owner value = some party) {party : P} (member : party ∈ parties) :
    (parties.flatMap lists).countP (fun value => owner value = some party) = (lists party).length := by
  induction parties with
  | nil => cases member
  | cons other rest ih =>
    obtain ⟨apart,distinct⟩ := List.nodup_cons.mp distinct
    have rest_ (one : P) (inside : one ∈ rest) := own one (List.mem_cons_of_mem _ inside)
    rw [List.flatMap_cons,List.countP_append]
    rcases List.mem_cons.mp member with rfl | behind
    · have others : (rest.flatMap lists).countP (fun value => owner value = some party) = 0 := by
        refine List.countP_eq_zero.mpr fun value inside eq => ?_
        obtain ⟨one,among,there⟩ := List.mem_flatMap.mp inside
        cases Option.some.inj ((rest_ one among value there).symm.trans (of_decide_eq_true eq))
        exact apart among
      rw [others,List.countP_eq_length.mpr fun value there => decide_eq_true (own party List.mem_cons_self value there)]
      rfl
    · have none_ : (lists other).countP (fun value => owner value = some party) = 0 := by
        refine List.countP_eq_zero.mpr fun value there eq => ?_
        cases Option.some.inj ((own other List.mem_cons_self value there).symm.trans (of_decide_eq_true eq))
        exact apart behind
      rw [none_,Nat.zero_add]
      exact ih distinct rest_ behind

end Northstar.Turns
