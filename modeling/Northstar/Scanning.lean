import Mathlib.Data.List.Infix

/-! Places of a text found from left to right, each behind the last, up to a number of them. -/
namespace Northstar.Scanning

section Places

variable (stands : Nat → Prop) (step : Nat)

/- The first place from a start on. -/
def Next (start place : Nat) : Prop :=
  start ≤ place ∧ stands place ∧ ∀ earlier, start ≤ earlier → earlier < place → ¬stands earlier

/- The places that do not overlap, by their rank. -/
def Nth : Nat → Nat → Nat → Prop
  | start, 0, place => Next stands start place
  | start, rank + 1, place => ∃ first, Next stands start first ∧ Nth (first + step) rank place

variable {stands step}

theorem nextOne {start p q : Nat} (one : Next stands start p) (other : Next stands start q) : p = q := by
  rcases Nat.lt_trichotomy p q with less | same | more
  · exact absurd one.2.1 (other.2.2 p one.1 less)
  · exact same
  · exact absurd other.2.1 (one.2.2 q other.1 more)

theorem nthStands {start rank place : Nat} (nth : Nth stands step start rank place) : start ≤ place ∧ stands place := by
  induction rank generalizing start with
  | zero => exact ⟨nth.1,nth.2.1⟩
  | succ rank ih =>
    obtain ⟨first,next,later⟩ := nth
    have := next.1
    obtain ⟨behind,here⟩ := ih later
    exact ⟨by omega,here⟩

theorem nthApart {start rank rank' p q : Nat} (one : Nth stands step start rank p) (other : Nth stands step start rank' q)
    (less : rank < rank') : p + step ≤ q := by
  induction rank generalizing start rank' with
  | zero =>
    obtain ⟨k,rfl⟩ : ∃ k, rank' = k + 1 := ⟨rank' - 1,by omega⟩
    obtain ⟨first,next,later⟩ := other
    rw [nextOne one next]
    exact (nthStands later).1
  | succ rank ih =>
    obtain ⟨k,rfl⟩ : ∃ k, rank' = k + 1 := ⟨rank' - 1,by omega⟩
    obtain ⟨first,next,later⟩ := one
    obtain ⟨first',next',later'⟩ := other
    rw [← nextOne next next'] at later'
    exact ih later later' (by omega)

/- A list of the first places, so many at most. -/
def Listed (stands : Nat → Prop) (step n start : Nat) (places : List Nat) : Prop :=
  ∀ rank place, places[rank]? = some place ↔ rank < n ∧ Nth stands step start rank place

variable {n start : Nat} {places : List Nat}

theorem listedMember (listed : Listed stands step n start places) {place : Nat} (member : place ∈ places) :
    ∃ rank < n, Nth stands step start rank place := by
  obtain ⟨rank,here⟩ := List.mem_iff_getElem?.mp member
  exact ⟨rank,(listed rank place).mp here⟩

theorem listedStands (listed : Listed stands step n start places) {place : Nat} (member : place ∈ places) : stands place := by
  obtain ⟨_,_,nth⟩ := listedMember listed member
  exact (nthStands nth).2

theorem listedApart (listed : Listed stands step n start places) : places.Pairwise fun p q => p + step ≤ q := by
  rw [List.pairwise_iff_getElem]
  intro i j hi hj less
  have one := (listed i _).mp (List.getElem?_eq_getElem hi)
  have other := (listed j _).mp (List.getElem?_eq_getElem hj)
  exact nthApart one.2 other.2 less

theorem nthReached {rank place : Nat} (nth : Nth stands step start rank place) : ∀ k ≤ rank, ∃ p, Nth stands step start k p := by
  induction rank generalizing start with
  | zero => exact fun k least => ⟨place,Nat.le_zero.mp least ▸ nth⟩
  | succ rank ih =>
    obtain ⟨first,here,later⟩ := nth
    intro k most
    cases k with
    | zero => exact ⟨first,here⟩
    | succ k =>
      obtain ⟨p,deep⟩ := ih later k (Nat.le_of_succ_le_succ most)
      exact ⟨p,first,here,deep⟩

/- A list with room left has them all. -/
theorem listedAll (listed : Listed stands step n start places) (few : places.length < n) {rank place : Nat}
    (nth : Nth stands step start rank place) : place ∈ places := by
  rcases Nat.lt_or_ge rank n with early | late
  · exact List.mem_iff_getElem?.mpr ⟨rank,(listed rank place).mpr ⟨early,nth⟩⟩
  · obtain ⟨p,there⟩ := nthReached nth places.length (by omega)
    have missing := (listed places.length p).mpr ⟨few,there⟩
    rw [List.getElem?_eq_none (Nat.le_refl _)] at missing
    contradiction

theorem listedNone (none_ : ∀ place, ¬stands place) : Listed stands step n start [] := by
  intro rank place
  rw [List.getElem?_nil]
  exact iff_of_false (fun absurd_ => by contradiction) fun both => none_ place (nthStands both.2).2

end Places

/- The scan that stops behind the last place, or after so many. -/
def scan (next : Nat → Option Nat) (step : Nat) : Nat → Nat → List Nat
  | 0, _ => []
  | n + 1, start => match next start with
      | none => []
      | some place => place :: scan next step n (place + step)

variable {next : Nat → Option Nat} {stands : Nat → Prop} {step : Nat}

theorem scanListed (spec : ∀ start place, next start = some place ↔ Next stands start place) (n start : Nat) :
    Listed stands step n start (scan next step n start) := by
  intro rank place
  induction n generalizing start rank with
  | zero => simp [scan]
  | succ n ih =>
    cases found : next start with
    | none =>
      have none_ : ∀ p, ¬Next stands start p := fun p here => by
        rw [(spec start p).mpr here] at found
        contradiction
      rw [scan,found]
      refine ⟨fun here => by simp at here,fun here => ?_⟩
      cases rank with
      | zero => exact absurd here.2 (none_ place)
      | succ rank =>
        obtain ⟨-,first,first_,-⟩ := here
        exact absurd first_ (none_ first)
    | some first =>
      have here := (spec start first).mp found
      rw [scan,found]
      cases rank with
      | zero =>
        rw [List.getElem?_cons_zero,Option.some_inj]
        refine ⟨fun same => ⟨Nat.succ_pos n,same ▸ here⟩,fun both => nextOne here both.2⟩
      | succ rank =>
        rw [List.getElem?_cons_succ,ih]
        refine ⟨fun both => ⟨by omega,first,here,both.2⟩,fun both => ⟨by omega,?_⟩⟩
        obtain ⟨-,first',here',later⟩ := both
        rwa [nextOne here here']

section Texts

variable {α : Type}

def Stands (part text : List α) (place : Nat) : Prop := part <+: text.drop place

theorem standsBehind (part text : List α) (start place : Nat) :
    Stands part (text.drop start) place ↔ Stands part text (start + place) := by
  rw [Stands,Stands,List.drop_drop]

variable [DecidableEq α]

instance (part text : List α) (place : Nat) : Decidable (Stands part text place) := by
  unfold Stands
  infer_instance

def indexOf (part : List α) : List α → Option Nat
  | [] => if part = [] then some 0 else none
  | u :: rest => if part.isPrefixOf (u :: rest) then some 0 else (indexOf part rest).map (· + 1)

/- `text.indexOf(part, start)` for a part that is not empty. -/
def indexFrom (part text : List α) (start : Nat) : Option Nat := (indexOf part (text.drop start)).map (start + ·)

theorem indexFirst {part : List α} (some_ : part ≠ []) (text : List α) (place : Nat) :
    indexOf part text = some place ↔ Next (Stands part text) 0 place := by
  induction text generalizing place with
  | nil =>
    rw [indexOf,if_neg some_]
    refine ⟨fun here => by contradiction,fun here => ?_⟩
    have stands := here.2.1
    rw [Stands,List.drop_nil] at stands
    exact absurd (List.prefix_nil.mp stands) some_
  | cons u rest ih =>
    rw [indexOf]
    split
    · rename_i here
      have first : Next (Stands part (u :: rest)) 0 0 :=
        ⟨Nat.le_refl 0,List.isPrefixOf_iff_prefix.mp here,fun earlier _ less => absurd less (Nat.not_lt_zero earlier)⟩
      rw [Option.some_inj]
      exact ⟨fun same => same ▸ first,nextOne first⟩
    · rename_i missing
      rw [List.isPrefixOf_iff_prefix] at missing
      rw [Option.map_eq_some_iff]
      constructor
      · rintro ⟨before,found,rfl⟩
        obtain ⟨-,here,none_⟩ := (ih before).mp found
        refine ⟨Nat.zero_le _,here,fun earlier _ less => ?_⟩
        cases earlier with
        | zero => exact missing
        | succ earlier => exact none_ earlier (Nat.zero_le _) (by omega)
      · rintro ⟨-,here,none_⟩
        cases place with
        | zero => exact absurd here missing
        | succ before =>
          exact ⟨before,(ih before).mpr ⟨Nat.zero_le _,here,fun earlier _ less => none_ (earlier + 1) (Nat.zero_le _) (by omega)⟩,rfl⟩

theorem indexMissing {part text : List α} (missing : indexOf part text = none) (place : Nat) : ¬Stands part text place := by
  induction text generalizing place with
  | nil =>
    intro stands
    rw [Stands,List.drop_nil] at stands
    rw [indexOf,if_pos (List.prefix_nil.mp stands)] at missing
    cases missing
  | cons u rest ih =>
    rw [indexOf] at missing
    split at missing
    · cases missing
    · rename_i other
      cases place with
      | zero => exact fun stands => other (List.isPrefixOf_iff_prefix.mpr stands)
      | succ place => exact ih (Option.map_eq_none_iff.mp missing) place

theorem indexNext {part : List α} (some_ : part ≠ []) (text : List α) (start place : Nat) :
    indexFrom part text start = some place ↔ Next (Stands part text) start place := by
  rw [indexFrom,Option.map_eq_some_iff]
  constructor
  · rintro ⟨behind,found,rfl⟩
    obtain ⟨-,here,none_⟩ := (indexFirst some_ _ _).mp found
    refine ⟨Nat.le_add_right _ _,(standsBehind part text start behind).mp here,fun earlier least less stands => ?_⟩
    obtain ⟨k,rfl⟩ := Nat.exists_eq_add_of_le least
    exact none_ k (Nat.zero_le _) (by omega) ((standsBehind part text start k).mpr stands)
  · rintro ⟨least,here,none_⟩
    obtain ⟨k,rfl⟩ := Nat.exists_eq_add_of_le least
    refine ⟨k,(indexFirst some_ _ _).mpr ⟨Nat.zero_le _,(standsBehind part text start k).mpr here,fun earlier _ less stands => ?_⟩,rfl⟩
    exact none_ (start + earlier) (by omega) (by omega) ((standsBehind part text start earlier).mp stands)

end Texts

end Northstar.Scanning
