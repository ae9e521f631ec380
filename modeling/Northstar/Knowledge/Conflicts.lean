import Northstar.Knowledge.Aggregate

/-! Which claims are listed as conflicts (knowledge-aggregate.ts). -/
namespace Northstar.Knowledge
open Grouping

/- A group holds the claims of its key and their objects, each of these once. -/
structure Holds (rows : List KgClaim) (group : ClaimGroup) : Prop where
  whole : group.rows = rows
  once : group.objects.Nodup
  objects : ∀ object, object ∈ group.objects ↔ ∃ claim ∈ rows, objectOf claim = object

theorem builtHolds (rows : List KgClaim) {group : ClaimGroup} (made : built startGroup addClaim rows = some group) : Holds rows group := by
  induction rows using List.reverseRecOn generalizing group with
  | nil => cases made
  | append_singleton rows claim ih =>
    rw [builtLast] at made
    cases before : built startGroup addClaim rows with
    | none =>
      have none_ : rows = [] := by
        cases rows with
        | nil => rfl
        | cons row rest => cases before
      rw [before] at made
      cases made
      subst none_
      exact ⟨rfl,List.nodup_singleton _,fun object => by simp [startGroup,eq_comm]⟩
    | some old =>
      rw [before] at made
      cases made
      have held := ih before
      refine ⟨congrArg (· ++ [claim]) held.whole,?_,fun object => ?_⟩
      · change (if _ then _ else _ : List JsString).Nodup
        split
        · exact held.once
        · rename_i fresh
          refine held.once.append (List.nodup_singleton _) fun object inside last => fresh ?_
          exact List.contains_iff_mem.mpr (List.mem_singleton.mp last ▸ inside)
      · change object ∈ (if _ then _ else _ : List JsString) ↔ _
        have whole : (∃ c ∈ rows ++ [claim], objectOf c = object) ↔ object ∈ old.objects ∨ objectOf claim = object := by
          rw [held.objects]
          simp [or_and_right,exists_or]
        rw [whole]
        split
        · rename_i known
          refine ⟨.inl,fun either => either.elim id fun same => ?_⟩
          exact same ▸ List.contains_iff_mem.mp known
        · rw [List.mem_append,List.mem_singleton,@eq_comm _ object]

theorem severalOnce {α : Type} {items : List α} (once : items.Nodup) : items.length > 1 ↔ ∃ a ∈ items, ∃ b ∈ items, a ≠ b := by
  constructor
  · intro several
    match items,several with
    | a :: b :: rest,_ =>
      exact ⟨a,List.mem_cons_self,b,List.mem_cons_of_mem _ List.mem_cons_self,fun same =>
        (List.nodup_cons.mp once).1 (same ▸ List.mem_cons_self)⟩
  · rintro ⟨a,first,b,second,apart⟩
    match items with
    | [] => cases first
    | [c] => exact absurd ((List.mem_singleton.mp first).trans (List.mem_singleton.mp second).symm) apart
    | _ :: _ :: rest => exact Nat.succ_lt_succ (Nat.succ_pos _)

/- The objects of a claim's key, the stand-in for a missing one among them, are not all the same. -/
def mixed (claims : List KgClaim) (claim : KgClaim) : Bool :=
  claims.any fun a => claims.any fun b =>
    claimGroupKey a = claimGroupKey claim && claimGroupKey b = claimGroupKey claim && objectOf a ≠ objectOf b

/- Two claims with the subject and predicate of this one have different objects. -/
def disagrees (claims : List KgClaim) (claim : KgClaim) : Bool :=
  claims.any fun a => claims.any fun b =>
    a.subjectId = claim.subjectId && a.predicate = claim.predicate && b.subjectId = claim.subjectId && b.predicate = claim.predicate &&
      match a.object,b.object with
      | some first,some second => trim first ≠ trim second
      | _,_ => false

theorem mixedSome {claims : List KgClaim} {claim : KgClaim} : mixed claims claim = true ↔ ∃ a ∈ claims, ∃ b ∈ claims,
    claimGroupKey a = claimGroupKey claim ∧ claimGroupKey b = claimGroupKey claim ∧ objectOf a ≠ objectOf b := by
  simp [mixed,and_assoc]

theorem disagreesSome {claims : List KgClaim} {claim : KgClaim} : disagrees claims claim = true ↔ ∃ a ∈ claims, ∃ b ∈ claims,
    (a.subjectId = claim.subjectId ∧ a.predicate = claim.predicate) ∧ (b.subjectId = claim.subjectId ∧ b.predicate = claim.predicate) ∧
      ∃ first second, a.object = some first ∧ b.object = some second ∧ trim first ≠ trim second := by
  have objects (a b : KgClaim) : (match a.object,b.object with
      | some first,some second => decide (trim first ≠ trim second)
      | _,_ => false) = true ↔ ∃ first second, a.object = some first ∧ b.object = some second ∧ trim first ≠ trim second := by
    cases a.object <;> cases b.object <;> simp
  unfold disagrees
  simp only [List.any_eq_true,Bool.and_eq_true,decide_eq_true_eq,objects,and_assoc]

theorem keyedGroup {claims : List KgClaim} {claim : KgClaim} (member : claim ∈ claims) :
    ∃ group ∈ claimGroups claims, group.1 = claimGroupKey claim := groupOf member

/- The conflicts are the claims of mixed keys. -/
theorem conflictsMixed (claims : List KgClaim) : (partitionEnhanceClaims claims).conflicts.Perm (claims.filter (mixed claims)) := by
  have made : ∀ group ∈ claimGroups claims, built startGroup addClaim (claims.filter fun claim => claimGroupKey claim = group.1) =
      some group.2 := groupedMade claims
  have told (group : JsString × ClaimGroup) (member : group ∈ claimGroups claims) :
      (if group.2.objects.length > 1 then group.2.rows else []) =
        (claims.filter (mixed claims)).filter fun claim => claimGroupKey claim = group.1 := by
    have held := builtHolds _ (made group member)
    have several : group.2.objects.length > 1 ↔ ∃ a ∈ claims, ∃ b ∈ claims,
        claimGroupKey a = group.1 ∧ claimGroupKey b = group.1 ∧ objectOf a ≠ objectOf b := by
      rw [severalOnce held.once]
      constructor
      · rintro ⟨x,first,y,second,apart⟩
        obtain ⟨a,inside,rfl⟩ := (held.objects x).mp first
        obtain ⟨b,there,rfl⟩ := (held.objects y).mp second
        obtain ⟨a_,keyed⟩ := List.mem_filter.mp inside
        obtain ⟨b_,keyed'⟩ := List.mem_filter.mp there
        exact ⟨a,a_,b,b_,of_decide_eq_true keyed,of_decide_eq_true keyed',apart⟩
      · rintro ⟨a,a_,b,b_,keyed,keyed',apart⟩
        exact ⟨objectOf a,(held.objects _).mpr ⟨a,List.mem_filter.mpr ⟨a_,decide_eq_true keyed⟩,rfl⟩,
          objectOf b,(held.objects _).mpr ⟨b,List.mem_filter.mpr ⟨b_,decide_eq_true keyed'⟩,rfl⟩,apart⟩
    rw [List.filter_filter]
    split
    · rename_i more
      rw [held.whole]
      refine List.filter_congr fun claim _ => ?_
      by_cases keyed : claimGroupKey claim = group.1
      · have mix : mixed claims claim = true := mixedSome.mpr (keyed ▸ several.mp more)
        simp [keyed,mix]
      · simp [keyed]
    · rename_i few
      refine (List.filter_eq_nil_iff.mpr fun claim _ both => few ?_).symm
      obtain ⟨keyed,mix⟩ := Bool.and_eq_true_iff.mp both
      have known := mixedSome.mp mix
      rw [of_decide_eq_true keyed] at known
      exact several.mpr known
  have listed : (partitionEnhanceClaims claims).conflicts = ((claimGroups claims).map Prod.fst).flatMap fun k =>
      (claims.filter (mixed claims)).filter fun claim => claimGroupKey claim = k := by
    rw [List.flatMap_map]
    exact List.flatMap_congr told
  rw [listed]
  refine splitWhole (groupedOnce claims) fun claim member => ?_
  obtain ⟨group,inside,keyed⟩ := keyedGroup (List.mem_filter.mp member).1
  exact List.mem_map.mpr ⟨group,inside,keyed⟩

/- In one group of the partition. -/
def Together (claims : List KgClaim) (a b : KgClaim) : Prop := ∃ group ∈ claimGroups claims, a ∈ group.2.rows ∧ b ∈ group.2.rows

theorem togetherKeyed {claims : List KgClaim} {a b : KgClaim} :
    Together claims a b ↔ a ∈ claims ∧ b ∈ claims ∧ claimGroupKey a = claimGroupKey b := by
  have rows (group : JsString × ClaimGroup) (member : group ∈ claimGroups claims) (claim : KgClaim) :
      claim ∈ group.2.rows ↔ claim ∈ claims ∧ claimGroupKey claim = group.1 := by
    rw [(builtHolds _ (groupedMade claims group member)).whole,List.mem_filter,decide_eq_true_iff]
  constructor
  · rintro ⟨group,member,first,second⟩
    obtain ⟨a_,keyed⟩ := (rows group member a).mp first
    obtain ⟨b_,keyed'⟩ := (rows group member b).mp second
    exact ⟨a_,b_,keyed.trans keyed'.symm⟩
  · rintro ⟨a_,b_,same⟩
    obtain ⟨group,member,keyed⟩ := keyedGroup a_
    exact ⟨group,member,(rows group member a).mpr ⟨a_,keyed.symm⟩,(rows group member b).mpr ⟨b_,same.symm.trans keyed.symm⟩⟩

structure ConflictsExact (claims : List KgClaim) : Prop where
  kept : (partitionEnhanceClaims claims).claims = claims
  conflicts : (partitionEnhanceClaims claims).conflicts.Perm (claims.filter (disagrees claims))
  together : ∀ a b, Together claims a b → a.subjectId = b.subjectId ∧ a.predicate = b.predicate

/- No two pairs of subject and predicate read the same around the NUL between them, and objects of one pair differ by more than a
missing object or blanks, unless two of them do anyway. -/
structure PlainlyTold (claims : List KgClaim) : Prop where
  keys : ∀ a ∈ claims, ∀ b ∈ claims, claimGroupKey a = claimGroupKey b → a.subjectId = b.subjectId ∧ a.predicate = b.predicate
  objects : ∀ a ∈ claims, ∀ b ∈ claims, a.subjectId = b.subjectId → a.predicate = b.predicate → objectOf a ≠ objectOf b →
    disagrees claims a = true

/-- The conflicts are those of different objects just when the keys tell subjects and predicates apart and no group is mixed only by
a missing object or by blanks. -/
theorem conflictsExactly (claims : List KgClaim) : ConflictsExact claims ↔ PlainlyTold claims := by
  have sameKey {a b : KgClaim} (subject : a.subjectId = b.subjectId) (predicate : a.predicate = b.predicate) :
      claimGroupKey a = claimGroupKey b := by
    unfold claimGroupKey
    rw [subject,predicate]
  constructor
  · intro exact_
    refine ⟨fun a a_ b b_ same => exact_.together a b (togetherKeyed.mpr ⟨a_,b_,same⟩),fun a a_ b b_ subject predicate apart => ?_⟩
    have mix : mixed claims a = true := mixedSome.mpr ⟨a,a_,b,b_,rfl,(sameKey subject predicate).symm,apart⟩
    have listed := (conflictsMixed claims).mem_iff.mpr (List.mem_filter.mpr ⟨a_,mix⟩)
    exact (List.mem_filter.mp (exact_.conflicts.mem_iff.mp listed)).2
  · intro plain
    refine ⟨rfl,?_,fun a b together => ?_⟩
    · refine (conflictsMixed claims).trans (List.Perm.of_eq (List.filter_congr fun claim member => ?_))
      refine Bool.eq_iff_iff.mpr ⟨fun mix => ?_,fun differ => ?_⟩
      · obtain ⟨a,a_,b,b_,first,second,apart⟩ := mixedSome.mp mix
        obtain ⟨subject,predicate⟩ := plain.keys a a_ claim member first
        obtain ⟨subject',predicate'⟩ := plain.keys b b_ claim member second
        have differ := plain.objects a a_ b b_ (subject.trans subject'.symm) (predicate.trans predicate'.symm) apart
        unfold disagrees at differ ⊢
        rwa [subject,predicate] at differ
      · obtain ⟨a,a_,b,b_,⟨subject,predicate⟩,⟨subject',predicate'⟩,x,y,first,second,apart⟩ := disagreesSome.mp differ
        refine mixedSome.mpr ⟨a,a_,b,b_,sameKey subject predicate,sameKey subject' predicate',fun same => apart ?_⟩
        unfold objectOf at same
        rw [first,second] at same
        exact congrArg trim same
    · obtain ⟨a_,b_,same⟩ := togetherKeyed.mp together
      exact plain.keys a a_ b b_ same

theorem absenceConflicts : ¬ ConflictsExact [⟨js "e1",js "worksFor",some (js "Acme"),none,none,.undefined⟩,
    ⟨js "e1",js "worksFor",none,none,none,.undefined⟩] := by
  intro exact_
  exact absurd exact_.conflicts.length_eq (by decide)

end Northstar.Knowledge
