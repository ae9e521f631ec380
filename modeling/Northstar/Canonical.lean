import Mathlib
import Northstar.Arrangement
import Northstar.Json

/-! One text for one value (canonicalJson in agent-contract.ts): an object's keys are sorted before it is written,
so values are written alike where they differ in the order of their fields alone, and nowhere else. -/
namespace Northstar
open Json

def keyOrder (a b : JsString × JsValue) : Bool := !decide (b.1 < a.1)

/- An object that is given its fields one after the other. -/
def assigned (fields : List (JsString × JsValue)) : List (JsString × JsValue) :=
  fields.foldl (fun out field => put out field.1 field.2) []

mutual
def canonicalize : JsValue → JsValue
  | .array items => .array (canonicalizeItems items)
  | .object fields => .object (assigned ((canonicalizeFields fields).mergeSort keyOrder))
  | v => v

def canonicalizeItems : List JsValue → List JsValue
  | [] => []
  | item :: rest => canonicalize item :: canonicalizeItems rest

def canonicalizeFields : List (JsString × JsValue) → List (JsString × JsValue)
  | [] => []
  | (key,value) :: rest => (key,canonicalize value) :: canonicalizeFields rest
end

def canonicalJson (v : JsValue) : JsString := stringify (canonicalize v)

/- The same value, but for the order in which objects list their fields. -/
mutual
def Alike : JsValue → JsValue → Prop
  | .array items, w => ∃ others, w = .array others ∧ AlikeItems items others
  | .object fields, w => ∃ others, w = .object others ∧ AlikeFields fields others
  | v, w => w = v

def AlikeItems : List JsValue → List JsValue → Prop
  | [], others => others = []
  | item :: rest, others => ∃ other more, others = other :: more ∧ Alike item other ∧ AlikeItems rest more

def AlikeFields : List (JsString × JsValue) → List (JsString × JsValue) → Prop
  | [], others => others = []
  | (key,value) :: rest, others => ∃ before other after, others = before ++ (key,other) :: after ∧ Alike value other ∧
      AlikeFields rest (before ++ after)
end

/- Array indices as numbers: no two keys are one index. -/
theorem decimalDigits (s : JsString) : decimal s = Nat.ofDigits 10 (s.reverse.map fun u => u.toNat - 48) := by
  induction s using List.reverseRecOn with
  | nil => rfl
  | append_singleton s u ih =>
    rw [decimal,List.foldl_append]
    change decimal s * 10 + (u.toNat - 48) = _
    rw [ih,List.reverse_append]
    simp [Nat.ofDigits_cons,Nat.add_comm,Nat.mul_comm]

theorem digitBounds {u : UInt16} (shaped : digit u = true) : 48 ≤ u.toNat ∧ u.toNat ≤ 57 := by
  simpa [digit,UInt16.le_iff_toNat_le] using shaped

theorem digitsBack {s : JsString} (digits : s.all digit = true) (first : s.head? ≠ some 48) :
    Nat.digits 10 (decimal s) = s.reverse.map fun u => u.toNat - 48 := by
  rw [decimalDigits]
  refine Nat.digits_ofDigits 10 (by decide) _ ?_ ?_
  · intro d member
    obtain ⟨u,inside,rfl⟩ := List.mem_map.mp member
    have bounds := digitBounds (List.all_eq_true.mp digits u (List.mem_reverse.mp inside))
    omega
  · intro some_
    cases s with
    | nil => simp at some_
    | cons u rest =>
      simp only [List.reverse_cons,List.map_append,List.map_cons,List.map_nil,List.getLast_append_singleton]
      have bounds := digitBounds (List.all_eq_true.mp digits u List.mem_cons_self)
      have other : u.toNat ≠ 48 := fun same => first (congrArg some (UInt16.toNat.inj same))
      omega

theorem unitsBack {s : JsString} (digits : s.all digit = true) :
    ((s.map fun u => u.toNat - 48).map fun n => UInt16.ofNat (48 + n)) = s := by
  rw [List.map_map]
  refine (List.map_congr_left fun u member => ?_).trans (List.map_id s)
  have bounds := digitBounds (List.all_eq_true.mp digits u member)
  simp only [Function.comp_apply,Nat.add_sub_cancel' bounds.1,UInt16.ofNat_toNat,id]

theorem decimalOnce {s t : JsString} (digits : s.all digit = true) (others : t.all digit = true) (some_ : s ≠ []) (more : t ≠ [])
    (first : s = [48] ∨ s.head? ≠ some 48) (begins : t = [48] ∨ t.head? ≠ some 48) (same : decimal s = decimal t) : s = t := by
  have positive {r : JsString} (shaped : r.all digit = true) (there : r ≠ []) (high : r.head? ≠ some 48) : decimal r ≠ 0 := by
    intro zero
    have none_ := digitsBack shaped high
    rw [zero,Nat.digits_zero] at none_
    exact there (List.reverse_eq_nil_iff.mp (List.map_eq_nil_iff.mp none_.symm))
  rcases first with rfl | high
  · rcases begins with rfl | high
    · rfl
    · exact absurd same.symm (positive others more high)
  · rcases begins with rfl | low
    · exact absurd same (positive digits some_ high)
    · have read := (digitsBack digits high).symm.trans (same ▸ digitsBack others low)
      rw [List.map_reverse,List.map_reverse] at read
      have values := List.reverse_injective read
      rw [← unitsBack digits,values,unitsBack others]

theorem indexOnce {a b : JsString} {i : Nat} (one : arrayIndex a = some i) (two : arrayIndex b = some i) : a = b := by
  simp only [arrayIndex,Option.ite_none_right_eq_some,Option.some.injEq] at one two
  obtain ⟨⟨some_,digits,first⟩,_,same⟩ := one
  obtain ⟨⟨more,others,begins⟩,_,equal⟩ := two
  exact decimalOnce digits others some_ more first begins (same.trans equal.symm)

theorem listedTotal {a b : JsString} (not_ : listedBefore a b = false) (apart : a ≠ b) : listedBefore b a = true := by
  unfold listedBefore at not_ ⊢
  cases first : arrayIndex a with
  | none => cases second : arrayIndex b with
    | none => simp [first,second] at not_
    | some j => rfl
  | some i => cases second : arrayIndex b with
    | none => simp [first,second] at not_
    | some j =>
      simp only [first,second,decide_eq_false_iff_not] at not_
      have other : i ≠ j := fun same => apart (indexOnce first (same ▸ second))
      simp only [decide_eq_true_eq]
      omega

theorem listedTrans {a b c : JsString} (ab : listedBefore a b = true) (bc : listedBefore b c = true) :
    listedBefore a c = true := by
  unfold listedBefore at ab bc ⊢
  cases first : arrayIndex a <;> cases second : arrayIndex b <;> cases third : arrayIndex c <;>
    simp_all
  omega

/- What an object lists of the fields it was given, where no key is given twice. -/
theorem placePerm (key : JsString) (content : JsValue) (fields : List (JsString × JsValue)) :
    (place key content fields).Perm ((key,content) :: fields) := by
  induction fields with
  | nil => exact .refl _
  | cons field rest ih =>
    rw [place]
    split
    · exact (ih.cons field).trans (.swap _ _ rest)
    · exact .refl _

theorem placeListed {key : JsString} {content : JsValue} {fields : List (JsString × JsValue)} (listed : Enumerated fields)
    (fresh : ∀ field ∈ fields, field.1 ≠ key) : Enumerated (place key content fields) := by
  induction fields with
  | nil => exact List.pairwise_singleton _ _
  | cons field rest ih =>
    obtain ⟨before,later⟩ := List.pairwise_cons.mp listed
    rw [place]
    split
    · rename_i earlier
      refine List.pairwise_cons.mpr ⟨fun other member => ?_,ih later fun other inside => fresh other (List.mem_cons_of_mem _ inside)⟩
      rcases List.mem_cons.mp ((placePerm key content rest).mem_iff.mp member) with rfl | inside
      · exact ⟨fresh field List.mem_cons_self,earlier⟩
      · exact before other inside
    · rename_i notBefore
      have first := listedTotal (Bool.eq_false_iff.mpr notBefore) (fresh field List.mem_cons_self)
      refine List.pairwise_cons.mpr ⟨fun other member => ?_,listed⟩
      rcases List.mem_cons.mp member with rfl | inside
      · exact ⟨(fresh other List.mem_cons_self).symm,first⟩
      · exact ⟨(fresh other member).symm,listedTrans first (before other inside).2⟩

theorem putFresh {fields : List (JsString × JsValue)} {key : JsString} (content : JsValue)
    (fresh : ∀ field ∈ fields, field.1 ≠ key) : put fields key content = place key content fields := by
  refine if_neg fun there => ?_
  obtain ⟨field,member,same⟩ := List.any_eq_true.mp there
  exact fresh field member (of_decide_eq_true same)

theorem assignedAll {fields : List (JsString × JsValue)} (distinct : (fields.map Prod.fst).Nodup) :
    (assigned fields).Perm fields ∧ Enumerated (assigned fields) := by
  induction fields using List.reverseRecOn with
  | nil => exact ⟨.refl _,List.Pairwise.nil⟩
  | append_singleton fields field ih =>
    rw [List.map_append,List.nodup_append] at distinct
    obtain ⟨once,_,apart⟩ := distinct
    obtain ⟨perm,listed⟩ := ih once
    have fresh : ∀ other ∈ assigned fields, other.1 ≠ field.1 := fun other member =>
      apart other.1 (List.mem_map_of_mem (perm.mem_iff.mp member)) field.1 List.mem_cons_self
    have step : assigned (fields ++ [field]) = place field.1 field.2 (assigned fields) := by
      rw [assigned,List.foldl_append]
      exact putFresh field.2 fresh
    rw [step]
    exact ⟨(placePerm _ _ _).trans ((perm.cons field).trans (List.perm_append_singleton field fields).symm),placeListed listed fresh⟩

theorem sortedKeys {fields : List (JsString × JsValue)} (distinct : (fields.map Prod.fst).Nodup) :
    ((fields.mergeSort keyOrder).map Prod.fst).Nodup :=
  (((List.mergeSort_perm fields keyOrder).map Prod.fst).nodup_iff).mpr distinct

theorem keySort : SortOrder keyOrder := by
  constructor
  · exact fun a b c ab bc => listSort.trans a.1 b.1 c.1 ab bc
  · exact fun a b => listSort.total a.1 b.1

theorem keySorted {fields sorted : List (JsString × JsValue)} (perm : fields.Perm sorted)
    (ascending : sorted.Pairwise fun a b => a.1 < b.1) : fields.mergeSort keyOrder = sorted := by
  have distinct : (sorted.map Prod.fst).Nodup := by
    refine List.pairwise_map.mpr (ascending.imp fun {a b} below same => ?_)
    rw [same] at below
    exact List.lt_irrefl b.1 below
  have ordered : sorted.Pairwise fun a b => keyOrder a b = true := ascending.imp fun below => by
    simpa [keyOrder] using List.lt_asymm below
  rw [sortPermuted keySort perm fun a member b inside ab ba => ?_,List.mergeSort_of_pairwise ordered]
  have key : a.1 = b.1 := listTie (by simpa [keyOrder] using ab) (by simpa [keyOrder] using ba)
  exact List.inj_on_of_nodup_map distinct (perm.mem_iff.mp member) (perm.mem_iff.mp inside) key

theorem assignedSame {fields others : List (JsString × JsValue)} (distinct : (fields.map Prod.fst).Nodup)
    (once : (others.map Prod.fst).Nodup) :
    assigned (fields.mergeSort keyOrder) = assigned (others.mergeSort keyOrder) ↔ fields.Perm others := by
  have one := (assignedAll (sortedKeys distinct)).1.trans (List.mergeSort_perm fields keyOrder)
  have two := (assignedAll (sortedKeys once)).1.trans (List.mergeSort_perm others keyOrder)
  constructor
  · intro same
    rw [same] at one
    exact one.symm.trans two
  · intro perm
    rw [sortPermuted keySort perm fun a member b inside ab ba => ?_]
    have key : a.1 = b.1 := listTie (by simpa [keyOrder] using ab) (by simpa [keyOrder] using ba)
    exact List.inj_on_of_nodup_map distinct member inside key

theorem canonicalizeItemsMap (items : List JsValue) : canonicalizeItems items = items.map canonicalize := by
  induction items with
  | nil => simp [canonicalizeItems]
  | cons item rest ih => simp [canonicalizeItems,ih]

theorem canonicalizeFieldsMap (fields : List (JsString × JsValue)) :
    canonicalizeFields fields = fields.map fun field => (field.1,canonicalize field.2) := by
  induction fields with
  | nil => simp [canonicalizeFields]
  | cons field rest ih => simp [canonicalizeFields,ih]

theorem canonicalizeKeys (fields : List (JsString × JsValue)) :
    (canonicalizeFields fields).map Prod.fst = fields.map Prod.fst := by
  simp [canonicalizeFieldsMap]

theorem listedKeys {fields : List (JsString × JsValue)} (listed : Enumerated fields) : (fields.map Prod.fst).Nodup :=
  List.pairwise_map.mpr (listed.imp fun apart => apart.1)

section Forms
variable (numerals : Numerals)

theorem plainFields (fields : List (JsString × JsValue)) :
    PlainFields numerals fields ↔ ∀ field ∈ fields, Plain numerals field.2 := by
  induction fields with
  | nil => simp [PlainFields]
  | cons field rest ih => simp [PlainFields,ih]

theorem plainItems (items : List JsValue) : PlainItems numerals items ↔ ∀ item ∈ items, Plain numerals item := by
  induction items with
  | nil => simp [PlainItems]
  | cons item rest ih => simp [PlainItems,ih]

theorem canonicalFields (fields : List (JsString × JsValue)) (distinct : (fields.map Prod.fst).Nodup) :
    (assigned ((canonicalizeFields fields).mergeSort keyOrder)).Perm (canonicalizeFields fields) ∧
      Enumerated (assigned ((canonicalizeFields fields).mergeSort keyOrder)) := by
  have once := sortedKeys ((canonicalizeKeys fields).symm ▸ distinct)
  exact ⟨(assignedAll once).1.trans (List.mergeSort_perm _ _),(assignedAll once).2⟩

mutual
theorem canonicalPlain : ∀ v : JsValue, Plain numerals v → Plain numerals (canonicalize v)
  | .undefined, plain => by simp [Plain] at plain
  | .null, plain => by simpa [canonicalize] using plain
  | .bool _, plain => by simpa [canonicalize] using plain
  | .number _, plain => by simpa [canonicalize] using plain
  | .string _, plain => by simpa [canonicalize] using plain
  | .array items, plain => by
    rw [Plain] at plain
    rw [canonicalize,Plain]
    exact canonicalItemsPlain items plain
  | .object fields, plain => by
    rw [Plain] at plain
    obtain ⟨perm,listed⟩ := canonicalFields fields (listedKeys plain.1)
    rw [canonicalize,Plain,plainFields]
    have each := (plainFields numerals _).mp (canonicalFieldsPlain fields plain.2)
    exact ⟨listed,fun field member => each field (perm.mem_iff.mp member)⟩

theorem canonicalItemsPlain : ∀ items : List JsValue, PlainItems numerals items → PlainItems numerals (canonicalizeItems items)
  | [], _ => by simp [canonicalizeItems,PlainItems]
  | item :: rest, plain => by
    rw [PlainItems] at plain
    rw [canonicalizeItems,PlainItems]
    exact ⟨canonicalPlain item plain.1,canonicalItemsPlain rest plain.2⟩

theorem canonicalFieldsPlain : ∀ fields : List (JsString × JsValue), PlainFields numerals fields →
    PlainFields numerals (canonicalizeFields fields)
  | [], _ => by simp [canonicalizeFields,PlainFields]
  | (key,value) :: rest, plain => by
    rw [PlainFields] at plain
    rw [canonicalizeFields,PlainFields]
    exact ⟨canonicalPlain value plain.1,canonicalFieldsPlain rest plain.2⟩
end

theorem itemSplit (item : JsValue) (rest others : List JsValue) :
    canonicalizeItems (item :: rest) = canonicalizeItems others ↔ ∃ other more, others = other :: more ∧
      canonicalize item = canonicalize other ∧ canonicalizeItems rest = canonicalizeItems more := by
  cases others with
  | nil => simp [canonicalizeItems]
  | cons other more =>
    rw [canonicalizeItems,canonicalizeItems,List.cons.injEq]
    constructor
    · exact fun same => ⟨other,more,rfl,same.1,same.2⟩
    · rintro ⟨other',more',split,same⟩
      obtain ⟨rfl,rfl⟩ := List.cons.inj split
      exact same

theorem fieldSplit (key : JsString) (value : JsValue) (rest others : List (JsString × JsValue)) :
    (canonicalizeFields ((key,value) :: rest)).Perm (canonicalizeFields others) ↔ ∃ before other after,
      others = before ++ (key,other) :: after ∧ canonicalize value = canonicalize other ∧
        (canonicalizeFields rest).Perm (canonicalizeFields (before ++ after)) := by
  simp only [canonicalizeFieldsMap,List.map_cons,List.map_append]
  constructor
  · intro perm
    have member : (key,canonicalize value) ∈ others.map fun field => (field.1,canonicalize field.2) :=
      perm.mem_iff.mp List.mem_cons_self
    obtain ⟨⟨name,other⟩,inside,same⟩ := List.mem_map.mp member
    obtain ⟨rfl,value_⟩ := Prod.mk.inj same
    obtain ⟨before,after,rfl⟩ := List.append_of_mem inside
    refine ⟨before,other,after,rfl,value_.symm,?_⟩
    rw [List.map_append,List.map_cons,value_] at perm
    exact (perm.trans List.perm_middle).cons_inv
  · rintro ⟨before,other,after,rfl,same,perm⟩
    rw [List.map_append,List.map_cons,same]
    exact (perm.cons _).trans List.perm_middle.symm

/- Of two values one is the other, but for the order of fields, where their canonical forms are one. -/
mutual
theorem alikeCanonical : ∀ v w : JsValue, Plain numerals v → Plain numerals w → (canonicalize v = canonicalize w ↔ Alike v w)
  | .undefined, w, plain, _ => by simp [Plain] at plain
  | .null, w, _, _ => by cases w <;> simp [canonicalize,Alike]
  | .bool _, w, _, _ => by cases w <;> simp [canonicalize,Alike,eq_comm]
  | .number _, w, _, _ => by cases w <;> simp [canonicalize,Alike,eq_comm]
  | .string _, w, _, _ => by cases w <;> simp [canonicalize,Alike,eq_comm]
  | .array items, w, plain, also => by
    cases w with
    | array others =>
      rw [Plain] at plain also
      simp only [canonicalize,Alike,JsValue.array.injEq,exists_eq_left']
      exact alikeItems items others plain also
    | _ => simp [canonicalize,Alike]
  | .object fields, w, plain, also => by
    cases w with
    | object others =>
      rw [Plain] at plain also
      simp only [canonicalize,Alike,JsValue.object.injEq,exists_eq_left']
      rw [assignedSame ((canonicalizeKeys fields).symm ▸ listedKeys plain.1) ((canonicalizeKeys others).symm ▸ listedKeys also.1)]
      exact alikeFields fields others plain.2 also.2
    | _ => simp [canonicalize,Alike]

theorem alikeItems : ∀ items others : List JsValue, PlainItems numerals items → PlainItems numerals others →
    (canonicalizeItems items = canonicalizeItems others ↔ AlikeItems items others)
  | [], others, _, _ => by cases others <;> simp [canonicalizeItems,AlikeItems]
  | item :: rest, others, plain, also => by
    rw [PlainItems] at plain
    rw [itemSplit,AlikeItems]
    refine exists_congr fun other => exists_congr fun more => and_congr_right fun split => ?_
    rw [split,PlainItems] at also
    rw [alikeCanonical item other plain.1 also.1,alikeItems rest more plain.2 also.2]

theorem alikeFields : ∀ fields others : List (JsString × JsValue), PlainFields numerals fields → PlainFields numerals others →
    ((canonicalizeFields fields).Perm (canonicalizeFields others) ↔ AlikeFields fields others)
  | [], others, _, _ => by cases others <;> simp [canonicalizeFields,AlikeFields]
  | (key,value) :: rest, others, plain, also => by
    rw [PlainFields] at plain
    rw [fieldSplit,AlikeFields]
    refine exists_congr fun before => exists_congr fun other => exists_congr fun after => and_congr_right fun split => ?_
    rw [split,plainFields] at also
    have each : Plain numerals other := also (key,other) (by simp)
    have later : PlainFields numerals (before ++ after) := (plainFields numerals _).mpr fun field member =>
      also field ((List.mem_append.mp member).elim (List.mem_append_left _) fun inside =>
        List.mem_append_right _ (List.mem_cons_of_mem _ inside))
    rw [alikeCanonical value other plain.1 each,alikeFields rest (before ++ after) plain.2 later]
end

/- A canonical form is its own. -/
mutual
theorem canonicalAgain : ∀ v : JsValue, Plain numerals v → canonicalize (canonicalize v) = canonicalize v
  | .undefined, plain => by simp [Plain] at plain
  | .null, _ => by simp [canonicalize]
  | .bool _, _ => by simp [canonicalize]
  | .number _, _ => by simp [canonicalize]
  | .string _, _ => by simp [canonicalize]
  | .array items, plain => by
    rw [Plain] at plain
    rw [canonicalize,canonicalize,canonicalItemsAgain items plain]
  | .object fields, plain => by
    rw [Plain] at plain
    obtain ⟨perm,listed⟩ := canonicalFields fields (listedKeys plain.1)
    have again := perm.map fun field => (field.1,canonicalize field.2)
    rw [← canonicalizeFieldsMap,← canonicalizeFieldsMap,canonicalFieldsAgain fields plain.2] at again
    rw [canonicalize,canonicalize]
    refine congrArg JsValue.object ((assignedSame ?_ ?_).mpr again)
    · exact (canonicalizeKeys _).symm ▸ listedKeys listed
    · exact (canonicalizeKeys _).symm ▸ listedKeys plain.1

theorem canonicalItemsAgain : ∀ items : List JsValue, PlainItems numerals items →
    canonicalizeItems (canonicalizeItems items) = canonicalizeItems items
  | [], _ => by simp [canonicalizeItems]
  | item :: rest, plain => by
    rw [PlainItems] at plain
    rw [canonicalizeItems,canonicalizeItems,canonicalAgain item plain.1,canonicalItemsAgain rest plain.2]

theorem canonicalFieldsAgain : ∀ fields : List (JsString × JsValue), PlainFields numerals fields →
    canonicalizeFields (canonicalizeFields fields) = canonicalizeFields fields
  | [], _ => by simp [canonicalizeFields]
  | (key,value) :: rest, plain => by
    rw [PlainFields] at plain
    rw [canonicalizeFields,canonicalizeFields,canonicalAgain value plain.1,canonicalFieldsAgain rest plain.2]
end

end Forms

theorem canonicalRead (numerals : Numerals) {v : JsValue} (plain : Plain numerals v) :
    parse numerals (Utf8.decode (utf8 (canonicalJson v))) = some (canonicalize v) ∧ Alike v (canonicalize v) := by
  have formed := canonicalPlain numerals v plain
  exact ⟨parseBack numerals formed,(alikeCanonical numerals v _ plain formed).mp (canonicalAgain numerals v plain).symm⟩

/- Two values are written as one text where they are the same but for the order of fields, and nowhere else. -/
theorem canonicalJsonSame (numerals : Numerals) {v w : JsValue} (plain : Plain numerals v) (also : Plain numerals w) :
    canonicalJson v = canonicalJson w ↔ Alike v w := by
  rw [← alikeCanonical numerals v w plain also]
  constructor
  · intro same
    have one := parseBack numerals (canonicalPlain numerals v plain)
    have two := parseBack numerals (canonicalPlain numerals w also)
    rw [canonicalJson,canonicalJson] at same
    rw [same,two] at one
    exact (Option.some.inj one).symm
  · intro same
    rw [canonicalJson,canonicalJson,same]

theorem fieldsSwapped (first second : JsString × JsValue) (one : Plain wholeNumerals first.2) (two : Plain wholeNumerals second.2)
    (listed : Enumerated [first,second]) (back : Enumerated [second,first]) :
    Plain wholeNumerals (.object [first,second]) ∧ Plain wholeNumerals (.object [second,first]) := by
  simp [Plain,PlainFields,listed,back,one,two]

theorem idQuerySame :
    canonicalJson (.object [(js "query",.string (js "q")),(js "id",.number (.int 7))]) =
        canonicalJson (.object [(js "id",.number (.int 7)),(js "query",.string (js "q"))]) ↔
      Alike (.object [(js "query",.string (js "q")),(js "id",.number (.int 7))])
        (.object [(js "id",.number (.int 7)),(js "query",.string (js "q"))]) := by
  have both := fieldsSwapped (js "query",.string (js "q")) (js "id",.number (.int 7)) (by simp [Plain])
    (by simpa [Plain] using wholeNumerals.whole 7 (by decide)) (by decide) (by decide)
  exact canonicalJsonSame wholeNumerals both.1 both.2

end Northstar
