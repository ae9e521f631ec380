import Mathlib.Data.List.Count
import Mathlib.Data.Nat.Find
import Mathlib.Tactic.ByContra

/-! Walks over the pages of a list: at an offset a page shows the positions of a window and says
where to go on, and an offset above a cap is turned away. A walk is sound for the positions that
are wanted when it ends without being turned away and shows each of them once. -/
namespace Northstar.Paging

/- A page that fails shows nothing. -/
inductive Turn where
  | failed
  | last
  | more (next : Nat)
  deriving DecidableEq, Repr

section
variable (turn : Nat → Turn) (cap limit : Nat)

/- The offsets of the pages shown; none when the walk is turned away or not over yet. -/
def visits : Nat → Nat → Option (List Nat)
  | 0, _ => none
  | n + 1, offset => match turn offset with
      | .failed => some []
      | .last => some [offset]
      | .more next => if next ≤ cap then (visits n next).map (offset :: ·) else none

/- How often a position is shown. -/
def shown (offsets : List Nat) (position : Nat) : Nat :=
  offsets.countP fun offset => offset ≤ position && position < offset + limit

def Sound (wanted : Nat → Prop) (offset : Nat) : Prop :=
  ∃ n offsets, visits turn cap n offset = some offsets ∧
    ∀ position, offset ≤ position → wanted position → shown limit offsets position = 1

end

section
variable {turn : Nat → Turn} {cap limit : Nat} {wanted : Nat → Prop}

theorem shownCons (offset : Nat) (offsets : List Nat) (position : Nat) :
    shown limit (offset :: offsets) position =
      shown limit offsets position + if offset ≤ position ∧ position < offset + limit then 1 else 0 := by
  unfold shown
  rw [List.countP_cons]
  simp only [Bool.and_eq_true,decide_eq_true_eq]

theorem visitsFrom (grows : ∀ offset next, turn offset = .more next → offset < next) {n offset : Nat} {offsets : List Nat}
    (walk : visits turn cap n offset = some offsets) : ∀ visited ∈ offsets, offset ≤ visited := by
  induction n generalizing offset offsets with
  | zero => contradiction
  | succ n ih =>
    unfold visits at walk
    cases here : turn offset with
    | failed =>
      rw [here] at walk
      cases walk
      exact nofun
    | last =>
      rw [here] at walk
      cases walk
      intro visited member
      exact Nat.le_of_eq (List.mem_singleton.mp member).symm
    | more next =>
      rw [here] at walk
      dsimp only at walk
      split at walk
      · obtain ⟨rest,later,rfl⟩ := Option.map_eq_some_iff.mp walk
        intro visited member
        cases List.mem_cons.mp member with
        | inl same => exact Nat.le_of_eq same.symm
        | inr inside => exact Nat.le_of_lt (Nat.lt_of_lt_of_le (grows offset next here) (ih later visited inside))
      · contradiction

theorem shownBefore (grows : ∀ offset next, turn offset = .more next → offset < next) {n offset position : Nat}
    {offsets : List Nat} (walk : visits turn cap n offset = some offsets) (before : position < offset) :
    shown limit offsets position = 0 := by
  unfold shown
  rw [List.countP_eq_zero]
  intro visited member inside
  have low := visitsFrom grows walk visited member
  simp only [Bool.and_eq_true,decide_eq_true_eq] at inside
  omega

theorem soundFailed {offset : Nat} (here : turn offset = .failed) :
    Sound turn cap limit wanted offset ↔ ∀ position, offset ≤ position → ¬wanted position := by
  constructor
  · intro sound position from_ want
    obtain ⟨n,offsets,walk,once⟩ := sound
    cases n with
    | zero => contradiction
    | succ n =>
      unfold visits at walk
      rw [here] at walk
      cases walk
      exact absurd (once position from_ want) Nat.zero_ne_one
  · intro none
    refine ⟨1,[],?_,fun position from_ want => absurd want (none position from_)⟩
    unfold visits
    rw [here]

theorem soundLast {offset : Nat} (here : turn offset = .last) :
    Sound turn cap limit wanted offset ↔ ∀ position, offset + limit ≤ position → ¬wanted position := by
  have one (position : Nat) : shown limit [offset] position = if offset ≤ position ∧ position < offset + limit then 1 else 0 := by
    rw [shownCons]
    exact Nat.zero_add _
  constructor
  · intro sound position from_ want
    obtain ⟨n,offsets,walk,once⟩ := sound
    cases n with
    | zero => contradiction
    | succ n =>
      unfold visits at walk
      rw [here] at walk
      cases walk
      have shows := once position (by omega) want
      rw [one,if_neg (by omega)] at shows
      contradiction
  · intro none
    refine ⟨1,[offset],by unfold visits; rw [here],fun position from_ want => ?_⟩
    rw [one,if_pos]
    refine ⟨from_,?_⟩
    by_contra beyond
    exact none position (by omega) want

theorem soundRefused {offset next : Nat} (here : turn offset = .more next) (beyond : cap < next) :
    ¬Sound turn cap limit wanted offset := by
  intro sound
  obtain ⟨n,offsets,walk,_⟩ := sound
  cases n with
  | zero => contradiction
  | succ n =>
    unfold visits at walk
    rw [here] at walk
    dsimp only at walk
    rw [if_neg (by omega)] at walk
    contradiction

/- What a walk that goes on shows is this window and what the later pages show. -/
theorem soundOn {offset next : Nat} (here : turn offset = .more next) (sound : Sound turn cap limit wanted offset) :
    next ≤ cap ∧ ∃ n rest, visits turn cap n next = some rest ∧ ∀ position, offset ≤ position → wanted position →
      shown limit rest position + (if offset ≤ position ∧ position < offset + limit then 1 else 0) = 1 := by
  obtain ⟨n,offsets,walk,once⟩ := sound
  cases n with
  | zero => contradiction
  | succ n =>
    unfold visits at walk
    rw [here] at walk
    dsimp only at walk
    split at walk
    · rename_i inside
      obtain ⟨rest,walk',rfl⟩ := Option.map_eq_some_iff.mp walk
      refine ⟨inside,n,rest,walk',fun position from_ want => ?_⟩
      rw [← shownCons]
      exact once position from_ want
    · contradiction

theorem soundBack (grows : ∀ offset next, turn offset = .more next → offset < next) {offset next : Nat}
    (here : turn offset = .more next) (inside : next ≤ cap) (close : next ≤ offset + limit)
    (apart : ∀ position, next ≤ position → position < offset + limit → ¬wanted position)
    (sound : Sound turn cap limit wanted next) : Sound turn cap limit wanted offset := by
  obtain ⟨n,rest,walk,once⟩ := sound
  refine ⟨n + 1,offset :: rest,?_,fun position from_ want => ?_⟩
  · unfold visits
    rw [here]
    dsimp only
    rw [if_pos inside,walk]
    rfl
  · rw [shownCons]
    by_cases early : position < next
    · rw [shownBefore grows walk early,if_pos (by omega)]
    · rw [once position (by omega) want,if_neg]
      intro window
      exact apart position (by omega) window.2 want

/- A page that begins where this one ends. -/
theorem soundStride (grows : ∀ offset next, turn offset = .more next → offset < next) {offset : Nat}
    (here : turn offset = .more (offset + limit)) (inside : offset + limit ≤ cap) :
    Sound turn cap limit wanted offset ↔ Sound turn cap limit wanted (offset + limit) := by
  constructor
  · intro sound
    obtain ⟨_,n,rest,walk,once⟩ := soundOn here sound
    refine ⟨n,rest,walk,fun position from_ want => ?_⟩
    have shows := once position (by omega) want
    rwa [if_neg (by omega)] at shows
  · exact soundBack grows here inside (Nat.le_refl _) (fun position from_ window => absurd window (by omega))

/- A page that begins inside the window shows what is wanted there twice. -/
theorem soundOverlap (grows : ∀ offset next, turn offset = .more next → offset < next) {offset next : Nat}
    (here : turn offset = .more next) (shows : turn next ≠ .failed) (sound : Sound turn cap limit wanted offset) :
    Sound turn cap limit wanted next ∧ ∀ position, next ≤ position → position < offset + limit → ¬wanted position := by
  have later := grows offset next here
  obtain ⟨_,n,rest,walk,once⟩ := soundOn here sound
  have begins : ∃ more, rest = next :: more := by
    cases n with
    | zero => contradiction
    | succ n =>
      unfold visits at walk
      split at walk
      · contradiction
      · cases walk
        exact ⟨[],rfl⟩
      · split at walk
        · obtain ⟨more,_,rfl⟩ := Option.map_eq_some_iff.mp walk
          exact ⟨more,rfl⟩
        · contradiction
  have apart : ∀ position, next ≤ position → position < offset + limit → ¬wanted position := by
    intro position from_ window want
    obtain ⟨more,rfl⟩ := begins
    have twice := once position (by omega) want
    rw [shownCons,if_pos (by omega),if_pos (by omega)] at twice
    omega
  refine ⟨⟨n,rest,walk,fun position from_ want => ?_⟩,apart⟩
  have once_ := once position (by omega) want
  rwa [if_neg (fun window => apart position from_ window.2 want)] at once_

end

section Rows
variable {ρ : Type} (rows : List ρ) (cap limit : Nat)

def window (offset : Nat) : List ρ := (rows.drop offset).take limit

def holds (good : ρ → Bool) (position : Nat) : Prop := ∃ row, rows[position]? = some row ∧ good row = true

def wanted (good : ρ → Bool) (position : Nat) : Prop := position ≤ cap ∧ holds rows good position

/- Page after page, unless a page has a row it fails on. -/
def strideTurn (broken : ρ → Bool) (offset : Nat) : Turn :=
  if (window rows limit offset).any broken then .failed
  else if offset + limit < rows.length then .more (offset + limit) else .last

/- On only behind a page that is full of good rows, and not above the cap. -/
def fullTurn (good : ρ → Bool) (offset : Nat) : Turn :=
  if (window rows limit offset).countP good = limit ∧ offset + limit ≤ cap then .more (offset + limit) else .last

/- On by the number of good rows. -/
def goodTurn (good : ρ → Bool) (offset : Nat) : Turn :=
  let gained := (window rows limit offset).countP good
  if 0 < gained ∧ offset + gained < rows.length then .more (offset + gained) else .last

end Rows

section
variable {ρ : Type} {rows : List ρ} {cap limit : Nat} {good broken : ρ → Bool}

theorem windowAt (offset i : Nat) : (window rows limit offset)[i]? = if i < limit then rows[offset + i]? else none := by
  unfold window
  rw [List.getElem?_take]
  split
  · rw [List.getElem?_drop]
  · rfl

theorem holdsInside {position : Nat} (there : holds rows good position) : position < rows.length := by
  obtain ⟨row,found,_⟩ := there
  exact (List.getElem?_eq_some_iff.mp found).1

theorem windowMember {offset : Nat} {row : ρ} :
    row ∈ window rows limit offset ↔ ∃ position, offset ≤ position ∧ position < offset + limit ∧ rows[position]? = some row := by
  rw [List.mem_iff_getElem?]
  constructor
  · intro there
    obtain ⟨i,found⟩ := there
    rw [windowAt] at found
    split at found
    · exact ⟨offset + i,Nat.le_add_right _ _,by omega,found⟩
    · contradiction
  · intro there
    obtain ⟨position,low,high,found⟩ := there
    refine ⟨position - offset,?_⟩
    rw [windowAt,if_pos (by omega),Nat.add_sub_cancel' low]
    exact found

theorem windowAny {offset : Nat} :
    (window rows limit offset).any broken = true ↔ ∃ position, offset ≤ position ∧ position < offset + limit ∧
      holds rows broken position := by
  rw [List.any_eq_true]
  constructor
  · intro there
    obtain ⟨row,member,bad⟩ := there
    obtain ⟨position,low,high,found⟩ := windowMember.mp member
    exact ⟨position,low,high,row,found,bad⟩
  · intro there
    obtain ⟨position,low,high,row,found,bad⟩ := there
    exact ⟨row,windowMember.mpr ⟨position,low,high,found⟩,bad⟩

theorem windowLength (offset : Nat) : (window rows limit offset).length = min limit (rows.length - offset) := by
  unfold window
  rw [List.length_take,List.length_drop]

theorem quotient {k a b : Nat} (low : k * b ≤ a) (high : a < k * b + b) : a / b = k :=
  Nat.div_eq_of_lt_le low (by rw [Nat.succ_mul]; exact high)

/- The rows end with the last page the cap allows and no page fails, or nothing is wanted from
the first page that fails on. -/
def StrideFits (rows : List ρ) (cap limit : Nat) (good broken : ρ → Bool) : Prop :=
  ((∀ position, ¬holds rows broken position) ∧ rows.length ≤ (cap / limit + 1) * limit) ∨
  ∃ position, holds rows broken position ∧ (∀ earlier, earlier < position → ¬holds rows broken earlier) ∧
    position / limit * limit ≤ cap ∧ ∀ later, position / limit * limit ≤ later → ¬wanted rows cap good later

/- No wanted row has a row that is not good on a page before its own. -/
def FullFits (rows : List ρ) (cap limit : Nat) (good : ρ → Bool) : Prop :=
  ∀ position later, position < rows.length → ¬holds rows good position → wanted rows cap good later →
    later / limit ≤ position / limit

/- All rows are good and end with the last page the cap allows, or the first row that is not good
lies within the cap and no good row is behind it within the cap or the next page. -/
def GoodFits (rows : List ρ) (cap limit : Nat) (good : ρ → Bool) : Prop :=
  ((∀ position, position < rows.length → holds rows good position) ∧ rows.length ≤ (cap / limit + 1) * limit) ∨
  ∃ position, position < rows.length ∧ ¬holds rows good position ∧ (∀ earlier, earlier < position → holds rows good earlier) ∧
    position ≤ cap ∧ ∀ later, position < later → holds rows good later → position + limit ≤ later ∧ cap < later

theorem lastPage {k : Nat} (inside : k * limit ≤ cap) (beyond : cap < k * limit + limit) :
    (cap / limit + 1) * limit = k * limit + limit := by
  rw [quotient inside beyond,Nat.succ_mul]

theorem withinLast (some_ : 0 < limit) {k : Nat} (inside : k * limit ≤ cap) : k * limit + limit ≤ (cap / limit + 1) * limit := by
  rw [← Nat.succ_mul]
  exact Nat.mul_le_mul_right limit (Nat.succ_le_succ ((Nat.le_div_iff_mul_le some_).mpr inside))

/- A walk by strides is sound just when the rows fit. -/
theorem strideSound (some_ : 0 < limit) : Sound (strideTurn rows limit broken) cap limit (wanted rows cap good) 0 ↔
    StrideFits rows cap limit good broken := by
  have grows : ∀ offset next, strideTurn rows limit broken offset = .more next → offset < next := by
    intro offset next here
    unfold strideTurn at here
    split at here
    · contradiction
    split at here
    · cases here
      omega
    · contradiction
  have from_ : ∀ left k, rows.length - k * limit < left → k * limit ≤ cap →
      (∀ earlier, earlier < k * limit → ¬holds rows broken earlier) →
      (Sound (strideTurn rows limit broken) cap limit (wanted rows cap good) (k * limit) ↔
        StrideFits rows cap limit good broken) := by
    intro left
    induction left with
    | zero =>
      intro k less
      omega
    | succ left ih =>
      intro k less inside whole
      have next : k * limit + limit = (k + 1) * limit := (Nat.succ_mul k limit).symm
      by_cases fails : (window rows limit (k * limit)).any broken = true
      · have here : strideTurn rows limit broken (k * limit) = .failed := by
          unfold strideTurn
          rw [if_pos fails]
        have there := windowAny.mp fails
        classical
        obtain ⟨low,high,bad⟩ := Nat.find_spec there
        have first : ∀ earlier, earlier < Nat.find there → ¬holds rows broken earlier := by
          intro earlier less bad'
          by_cases before : earlier < k * limit
          · exact whole earlier before bad'
          · exact Nat.find_min there less ⟨by omega,by omega,bad'⟩
        have page : Nat.find there / limit = k := quotient low high
        rw [soundFailed here]
        constructor
        · intro none
          refine .inr ⟨Nat.find there,bad,first,?_,?_⟩
          · rwa [page]
          · rwa [page]
        · intro fits
          cases fits with
          | inl clean => exact absurd bad (clean.1 _)
          | inr broken_ =>
            obtain ⟨position,bad',first',_,none⟩ := broken_
            have same : position = Nat.find there := by
              by_contra apart
              cases Nat.lt_or_gt_of_ne apart with
              | inl less => exact first position less bad'
              | inr more => exact first' _ more bad
            rwa [same,page] at none
      have clean : ∀ earlier, earlier < (k + 1) * limit → ¬holds rows broken earlier := by
        intro earlier low bad
        by_cases before : earlier < k * limit
        · exact whole earlier before bad
        · exact fails (windowAny.mpr ⟨earlier,by omega,by omega,bad⟩)
      by_cases more : k * limit + limit < rows.length
      · have here : strideTurn rows limit broken (k * limit) = .more (k * limit + limit) := by
          unfold strideTurn
          rw [if_neg fails,if_pos more]
        by_cases beyond : k * limit + limit ≤ cap
        · rw [soundStride grows here beyond,next]
          exact ih (k + 1) (by omega) (next ▸ beyond) clean
        · refine iff_of_false (soundRefused here (by omega)) ?_
          intro fits
          cases fits with
          | inl ends =>
            have last := lastPage inside (by omega)
            omega
          | inr broken_ =>
            obtain ⟨position,bad,_,allowed,_⟩ := broken_
            have later : (k + 1) * limit ≤ position := by
              by_contra low
              exact clean position (by omega) bad
            have page := Nat.mul_le_mul_right limit ((Nat.le_div_iff_mul_le some_).mpr later)
            omega
      · have here : strideTurn rows limit broken (k * limit) = .last := by
          unfold strideTurn
          rw [if_neg fails,if_neg more]
        rw [soundLast here]
        refine iff_of_true ?_ (.inl ⟨?_,?_⟩)
        · intro position far want
          have inside_ := holdsInside want.2
          omega
        · intro position bad
          have inside_ := holdsInside bad
          exact clean position (by omega) bad
        · have last := withinLast some_ inside
          omega
  have start := from_ (rows.length + 1) 0 (by omega) (by omega) (fun earlier low => absurd low (by omega))
  rwa [Nat.zero_mul] at start

theorem windowFull {offset : Nat} : (window rows limit offset).countP good = limit ↔
    ∀ position, offset ≤ position → position < offset + limit → holds rows good position := by
  constructor
  · intro full position low high
    have most := List.countP_le_length (p := good) (l := window rows limit offset)
    have size : (window rows limit offset).length = _ := windowLength offset
    have every := List.countP_eq_length.mp (by omega : (window rows limit offset).countP good = (window rows limit offset).length)
    have inside : position < rows.length := by omega
    exact ⟨rows[position],List.getElem?_eq_getElem inside,every _ (windowMember.mpr ⟨position,low,high,List.getElem?_eq_getElem inside⟩)⟩
  · intro every
    have size : (window rows limit offset).length = _ := windowLength offset
    have long : limit ≤ rows.length - offset := by
      by_contra short
      have inside := holdsInside (every (offset + (limit - 1)) (by omega) (by omega))
      omega
    have all : (window rows limit offset).countP good = (window rows limit offset).length := by
      refine List.countP_eq_length.mpr fun row member => ?_
      obtain ⟨position,low,high,found⟩ := windowMember.mp member
      obtain ⟨row',found',good_⟩ := every position low high
      cases Option.some.inj (found.symm.trans found')
      exact good_
    omega

theorem fullSound (some_ : 0 < limit) : Sound (fullTurn rows cap limit good) cap limit (wanted rows cap good) 0 ↔
    FullFits rows cap limit good := by
  have grows : ∀ offset next, fullTurn rows cap limit good offset = .more next → offset < next := by
    intro offset next here
    unfold fullTurn at here
    split at here
    · cases here
      omega
    · contradiction
  have from_ : ∀ left k, rows.length - k * limit < left → k * limit ≤ cap →
      (∀ earlier, earlier < k * limit → holds rows good earlier) →
      (Sound (fullTurn rows cap limit good) cap limit (wanted rows cap good) (k * limit) ↔ FullFits rows cap limit good) := by
    intro left
    induction left with
    | zero =>
      intro k less
      omega
    | succ left ih =>
      intro k less inside whole
      have next : k * limit + limit = (k + 1) * limit := (Nat.succ_mul k limit).symm
      by_cases on : (window rows limit (k * limit)).countP good = limit ∧ k * limit + limit ≤ cap
      · have here : fullTurn rows cap limit good (k * limit) = .more (k * limit + limit) := by
          unfold fullTurn
          rw [if_pos on]
        have full := windowFull.mp on.1
        have reaches := holdsInside (full (k * limit) (Nat.le_refl _) (by omega))
        rw [soundStride grows here on.2,next]
        refine ih (k + 1) (by omega) (next ▸ on.2) ?_
        intro earlier low
        by_cases before : earlier < k * limit
        · exact whole earlier before
        · exact full earlier (by omega) (by omega)
      · have here : fullTurn rows cap limit good (k * limit) = .last := by
          unfold fullTurn
          rw [if_neg on]
        have laterPage {position : Nat} (bad : ¬holds rows good position) : k ≤ position / limit := by
          refine (Nat.le_div_iff_mul_le some_).mpr ?_
          by_contra low
          exact bad (whole position (by omega))
        rw [soundLast here]
        constructor
        · intro none position later _ bad want
          have near : later < (k + 1) * limit := by
            by_contra far
            exact none later (by omega) want
          have page := Nat.div_lt_of_lt_mul (by rwa [Nat.mul_comm] at near : later < limit * (k + 1))
          have more := laterPage bad
          omega
        · intro fits later far want
          have page : k + 1 ≤ later / limit := (Nat.le_div_iff_mul_le some_).mpr (by omega)
          have inside_ := holdsInside want.2
          by_cases full : (window rows limit (k * limit)).countP good = limit
          · have beyond : ¬k * limit + limit ≤ cap := fun allowed => on ⟨full,allowed⟩
            have allowed := want.1
            omega
          · have gap : ∃ position, k * limit ≤ position ∧ position < k * limit + limit ∧ ¬holds rows good position := by
              by_contra none
              refine full (windowFull.mpr fun position low high => ?_)
              by_contra bad
              exact none ⟨position,low,high,bad⟩
            obtain ⟨position,low,high,bad⟩ := gap
            have order := fits position later (by omega) bad want
            have mine := quotient low high
            omega
  have start := from_ (rows.length + 1) 0 (by omega) (by omega) (fun earlier low => absurd low (by omega))
  rwa [Nat.zero_mul] at start

theorem windowSplit {offset m : Nat} (short : m ≤ limit) :
    window rows limit offset = window rows m offset ++ window rows (limit - m) (offset + m) := by
  unfold window
  rw [← List.drop_drop,← List.take_add,Nat.add_sub_cancel' short]

/- How many good rows a page has when the good ones come first. -/
theorem gainedFirst {offset m : Nat} (short : m ≤ limit)
    (front : ∀ position, offset ≤ position → position < offset + m → holds rows good position)
    (back : ∀ position, offset + m ≤ position → position < offset + limit → ¬holds rows good position) :
    (window rows limit offset).countP good = m := by
  have none : (window rows (limit - m) (offset + m)).countP good = 0 := by
    refine List.countP_eq_zero.mpr fun row member good_ => ?_
    obtain ⟨position,low,high,found⟩ := windowMember.mp member
    exact back position low (by omega) ⟨row,found,good_⟩
  rw [windowSplit short,List.countP_append,windowFull.mpr front,none,Nat.add_zero]

/- A row that is not good before the last good one leaves fewer than lie between. -/
theorem gainedBelow {offset gap last : Nat} (low : offset ≤ gap) (before : gap < last) (high : last < offset + limit)
    (bad : ¬holds rows good gap)
    (rest : ∀ position, last < position → position < offset + limit → ¬holds rows good position) :
    offset + (window rows limit offset).countP good ≤ last := by
  have parts : window rows limit offset = _ := windowSplit (by omega : last + 1 - offset ≤ limit)
  rw [show offset + (last + 1 - offset) = last + 1 by omega] at parts
  have none : (window rows (limit - (last + 1 - offset)) (last + 1)).countP good = 0 := by
    refine List.countP_eq_zero.mpr fun row member good_ => ?_
    obtain ⟨position,low',high',found⟩ := windowMember.mp member
    exact rest position (by omega) (by omega) ⟨row,found,good_⟩
  have most := List.countP_le_length (p := good) (l := window rows (last + 1 - offset) offset)
  rw [windowLength] at most
  have less : (window rows (last + 1 - offset) offset).countP good ≠ last + 1 - offset := by
    intro full
    exact bad (windowFull.mp full gap low (by omega))
  rw [parts,List.countP_append,none]
  omega

theorem goodGrows (offset next : Nat) (here : goodTurn rows limit good offset = .more next) : offset < next := by
  unfold goodTurn at here
  dsimp only at here
  split at here
  · cases here
    omega
  · contradiction

theorem goodShows (offset : Nat) : goodTurn rows limit good offset ≠ .failed := by
  unfold goodTurn
  dsimp only
  split <;> exact nofun

/- A page within the cap that has a good row behind one that is not good is not sound. -/
theorem gapUnsound (left : Nat) {offset gap later : Nat} (few : cap - offset < left) (inside : offset ≤ cap)
    (low : offset ≤ gap) (before : gap < later) (high : later < offset + limit) (bad : ¬holds rows good gap)
    (good_ : holds rows good later) :
    ¬Sound (goodTurn rows limit good) cap limit (wanted rows cap good) offset := by
  have grows := @goodGrows ρ rows limit good
  have shows := @goodShows ρ rows limit good
  induction left generalizing offset gap later with
  | zero => omega
  | succ left ih =>
    intro sound
    -- the last good row of the page
    classical
    have bounded : ∃ span, span < limit ∧ holds rows good (offset + limit - 1 - span) := ⟨offset + limit - 1 - later,by omega,by
      rwa [show offset + limit - 1 - (offset + limit - 1 - later) = later by omega]⟩
    obtain ⟨near,last⟩ := Nat.find_spec bounded
    generalize span_ : Nat.find bounded = span at near last
    have least : span ≤ offset + limit - 1 - later := by
      rw [← span_]
      exact Nat.find_min' bounded ⟨by omega,by rwa [show offset + limit - 1 - (offset + limit - 1 - later) = later by omega]⟩
    have rest : ∀ position, offset + limit - 1 - span < position → position < offset + limit → ¬holds rows good position := by
      intro position above below there
      have earlier : offset + limit - 1 - position < span := by omega
      rw [← span_] at earlier
      refine Nat.find_min bounded earlier ⟨by omega,?_⟩
      rwa [show offset + limit - 1 - (offset + limit - 1 - position) = position by omega]
    have room := holdsInside last
    have less := gainedBelow low (by omega) (by omega) bad rest
    have some_ : 0 < (window rows limit offset).countP good := by
      rw [List.countP_pos_iff]
      obtain ⟨row,found,fine⟩ := good_
      exact ⟨row,windowMember.mpr ⟨later,by omega,high,found⟩,fine⟩
    have here : goodTurn rows limit good offset = .more (offset + (window rows limit offset).countP good) := by
      unfold goodTurn
      dsimp only
      rw [if_pos ⟨some_,by omega⟩]
    have allowed := (soundOn here sound).1
    obtain ⟨next,apart⟩ := soundOverlap grows here (shows _) sound
    generalize (window rows limit offset).countP good = gained at less some_ here allowed next apart
    by_cases all : ∀ position, offset + gained ≤ position → position ≤ offset + limit - 1 - span → holds rows good position
    · exact apart (offset + gained) (Nat.le_refl _) (by omega) ⟨allowed,all _ (Nat.le_refl _) less⟩
    · have hole : ∃ position, offset + gained ≤ position ∧ position < offset + limit - 1 - span ∧ ¬holds rows good position := by
        by_contra none
        refine all fun position from_ below => ?_
        by_contra empty
        have equal : position = offset + limit - 1 - span := by
          by_contra apart
          exact none ⟨position,from_,by omega,empty⟩
        exact empty (equal ▸ last)
      obtain ⟨position,from_,below,empty⟩ := hole
      exact ih (by omega) allowed from_ below (by omega) empty last next

/- At a row that is not good. -/
theorem gapSound {offset : Nat} (inside : offset ≤ cap) (bad : ¬holds rows good offset) (some_ : 0 < limit) :
    Sound (goodTurn rows limit good) cap limit (wanted rows cap good) offset ↔
      ∀ later, offset < later → holds rows good later → offset + limit ≤ later ∧ cap < later := by
  by_cases near : ∃ later, offset < later ∧ later < offset + limit ∧ holds rows good later
  · obtain ⟨later,above,below,fine⟩ := near
    refine iff_of_false (gapUnsound (cap - offset + 1) (by omega) inside (Nat.le_refl _) above below bad fine) ?_
    intro far
    have page := (far later above fine).1
    omega
  · have none : (window rows limit offset).countP good = 0 := by
      refine gainedFirst (Nat.zero_le _) (fun position low high => absurd high (by omega)) ?_
      intro position low high fine
      by_cases same : position = offset
      · exact bad (same ▸ fine)
      · exact near ⟨position,by omega,high,fine⟩
    have here : goodTurn rows limit good offset = .last := by
      unfold goodTurn
      dsimp only
      rw [none,if_neg (by omega)]
    rw [soundLast here]
    constructor
    · intro end_ later above fine
      have page : offset + limit ≤ later := by
        by_contra below
        exact near ⟨later,above,by omega,fine⟩
      refine ⟨page,?_⟩
      by_contra allowed
      exact end_ later page ⟨by omega,fine⟩
    · intro far later page want
      have beyond := (far later (by omega) want.2).2
      have allowed := want.1
      omega

theorem goodSound (some_ : 0 < limit) : Sound (goodTurn rows limit good) cap limit (wanted rows cap good) 0 ↔
    GoodFits rows cap limit good := by
  have grows := @goodGrows ρ rows limit good
  have shows := @goodShows ρ rows limit good
  have from_ : ∀ left k, rows.length - k * limit < left → k * limit ≤ cap →
      (∀ earlier, earlier < k * limit → holds rows good earlier) →
      (Sound (goodTurn rows limit good) cap limit (wanted rows cap good) (k * limit) ↔ GoodFits rows cap limit good) := by
    intro left
    induction left with
    | zero =>
      intro k less
      omega
    | succ left ih =>
      intro k less inside whole
      have next : k * limit + limit = (k + 1) * limit := (Nat.succ_mul k limit).symm
      by_cases gapped : ∃ position, k * limit ≤ position ∧ position < k * limit + limit ∧ position < rows.length ∧
          ¬holds rows good position
      · classical
        obtain ⟨low,high,inside_,bad⟩ := Nat.find_spec gapped
        have first : ∀ earlier, earlier < Nat.find gapped → holds rows good earlier := by
          intro earlier less
          by_cases before : earlier < k * limit
          · exact whole earlier before
          · by_contra bad'
            exact Nat.find_min gapped less ⟨by omega,by omega,by omega,bad'⟩
        generalize Nat.find gapped = gap at low high inside_ bad first
        have fits : GoodFits rows cap limit good ↔
            gap ≤ cap ∧ ∀ later, gap < later → holds rows good later → gap + limit ≤ later ∧ cap < later := by
          constructor
          · intro fits
            cases fits with
            | inl clean => exact absurd (clean.1 gap inside_) bad
            | inr other =>
              obtain ⟨position,_,bad',first',rest⟩ := other
              have same : position = gap := by
                by_contra apart
                cases Nat.lt_or_gt_of_ne apart with
                | inl less => exact bad' (first position less)
                | inr more => exact bad (first' gap more)
              rwa [same] at rest
          · intro rest
            exact .inr ⟨gap,inside_,bad,first,rest⟩
        rw [fits]
        by_cases begins : gap = k * limit
        · rw [begins] at bad ⊢
          rw [gapSound inside bad some_]
          exact (and_iff_right inside).symm
        by_cases near : ∃ later, gap < later ∧ later < k * limit + limit ∧ holds rows good later
        · obtain ⟨later,above,below,fine⟩ := near
          refine iff_of_false (gapUnsound (cap - k * limit + 1) (by omega) inside low above below bad fine) ?_
          intro rest
          have page := (rest.2 later above fine).1
          omega
        have none : ∀ position, gap ≤ position → position < k * limit + limit → ¬holds rows good position := by
          intro position from_ below fine
          by_cases same : position = gap
          · exact bad (same ▸ fine)
          · exact near ⟨position,by omega,below,fine⟩
        have gained : (window rows limit (k * limit)).countP good = gap - k * limit := by
          refine gainedFirst (by omega) (fun position _ below => first position (by omega)) ?_
          intro position from_ below
          exact none position (by omega) below
        have here : goodTurn rows limit good (k * limit) = .more gap := by
          unfold goodTurn
          dsimp only
          rw [gained,show k * limit + (gap - k * limit) = gap by omega,if_pos ⟨by omega,inside_⟩]
        by_cases allowed : gap ≤ cap
        · have apart : ∀ position, gap ≤ position → position < k * limit + limit → ¬wanted rows cap good position :=
            fun position from_ below want => none position from_ below want.2
          rw [and_iff_right allowed,← gapSound allowed bad some_]
          constructor
          · intro sound
            exact (soundOverlap grows here (shows gap) sound).1
          · exact soundBack grows here allowed (by omega) apart
        · exact iff_of_false (soundRefused here (by omega)) (fun rest => allowed rest.1)
      have page : ∀ position, k * limit ≤ position → position < k * limit + limit → position < rows.length →
          holds rows good position := by
        intro position low high inside_
        by_contra bad
        exact gapped ⟨position,low,high,inside_,bad⟩
      by_cases more : k * limit + limit < rows.length
      · have full : (window rows limit (k * limit)).countP good = limit :=
          windowFull.mpr fun position low high => page position low high (by omega)
        have here : goodTurn rows limit good (k * limit) = .more (k * limit + limit) := by
          unfold goodTurn
          dsimp only
          rw [full,if_pos ⟨some_,more⟩]
        have clean : ∀ earlier, earlier < (k + 1) * limit → holds rows good earlier := by
          intro earlier low
          by_cases before : earlier < k * limit
          · exact whole earlier before
          · exact page earlier (by omega) (by omega) (by omega)
        by_cases beyond : k * limit + limit ≤ cap
        · rw [soundStride grows here beyond,next]
          exact ih (k + 1) (by omega) (next ▸ beyond) clean
        · refine iff_of_false (soundRefused here (by omega)) ?_
          intro fits
          cases fits with
          | inl ends =>
            have last := lastPage inside (by omega)
            omega
          | inr gap =>
            obtain ⟨position,_,bad,_,allowed,_⟩ := gap
            refine bad (clean position ?_)
            omega
      · have here : goodTurn rows limit good (k * limit) = .last := by
          unfold goodTurn
          dsimp only
          have gained : (window rows limit (k * limit)).countP good = min limit (rows.length - k * limit) := by
            refine gainedFirst (Nat.min_le_left _ _) (fun position low below => page position low (by omega) (by omega)) ?_
            intro position low below fine
            have inside_ := holdsInside fine
            omega
          rw [gained,if_neg (by omega)]
        rw [soundLast here]
        have last := withinLast some_ inside
        refine iff_of_true ?_ (.inl ⟨?_,by omega⟩)
        · intro position far want
          have inside_ := holdsInside want.2
          omega
        · intro position inside_
          by_cases before : position < k * limit
          · exact whole position before
          · exact page position (by omega) (by omega) inside_
  have start := from_ (rows.length + 1) 0 (by omega) (by omega) (fun earlier low => absurd low (by omega))
  rwa [Nat.zero_mul] at start

end
end Northstar.Paging
