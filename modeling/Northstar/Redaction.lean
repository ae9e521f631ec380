import Mathlib.Data.List.Infix

/-! Hiding texts behind a mark, one text after another: each pass replaces the occurrences of one text
from left to right, so what a pass finds depends on what the passes before it have left. -/
namespace Northstar.Redaction

variable {α β : Type}

section Hiding

variable [DecidableEq α]

/- split(secret).join(mark) on units that carry more than their key, which is what is compared. -/
def hideFrom (key : β → α) (secret : List α) (mark : List β) : Nat → List β → List β
  | _, [] => []
  | n + 1, _ :: rest => hideFrom key secret mark n rest
  | 0, u :: rest =>
      if secret.isPrefixOf ((u :: rest).map key) then mark ++ hideFrom key secret mark (secret.length - 1) rest
      else u :: hideFrom key secret mark 0 rest

def hide (key : β → α) (mark text : List β) (secret : List α) : List β := hideFrom key secret mark 0 text

def hideAll (key : β → α) (mark : List β) (secrets : List (List α)) (text : List β) : List β :=
  secrets.foldl (hide key mark) text

theorem hideKeys (key : β → α) (secret : List α) (mark : List β) (n : Nat) (text : List β) :
    (hideFrom key secret mark n text).map key = hideFrom id secret (mark.map key) n (text.map key) := by
  induction text generalizing n with
  | nil => cases n <;> rfl
  | cons u rest ih =>
    cases n with
    | succ n =>
      rw [hideFrom,List.map_cons,hideFrom]
      exact ih n
    | zero =>
      rw [hideFrom,List.map_cons,hideFrom,List.map_id]
      split
      · rw [List.map_append,ih]
      · rw [List.map_cons,ih]

theorem hideAllKeys (key : β → α) (mark : List β) (secrets : List (List α)) (text : List β) :
    (hideAll key mark secrets text).map key = hideAll id (mark.map key) secrets (text.map key) := by
  induction secrets generalizing text with
  | nil => rfl
  | cons secret rest ih =>
    rw [hideAll,hideAll,List.foldl_cons,List.foldl_cons]
    have first : (hide key mark text secret).map key = hide id (mark.map key) (text.map key) secret :=
      hideKeys key secret mark 0 text
    rw [← first]
    exact ih (hide key mark text secret)

theorem hideSkip (secret mark skipped rest : List α) :
    hideFrom id secret mark skipped.length (skipped ++ rest) = hideFrom id secret mark 0 rest := by
  induction skipped with
  | nil => rfl
  | cons u more ih => exact ih

theorem hideFirst {secret : List α} (mark : List α) (some_ : secret ≠ []) (rest : List α) :
    hide id mark (secret ++ rest) secret = mark ++ hide id mark rest secret := by
  cases secret with
  | nil => contradiction
  | cons u more =>
    have starts : (u :: more).isPrefixOf ((u :: (more ++ rest)).map id) := by
      rw [List.isPrefixOf_iff_prefix,List.map_id]
      exact List.prefix_append (u :: more) rest
    rw [hide,List.cons_append,hideFrom,if_pos starts]
    exact congrArg (mark ++ ·) (hideSkip (u :: more) mark more rest)

theorem hideMissing {secret : List α} (mark : List α) {text : List α} (missing : ¬secret <:+: text) :
    hide id mark text secret = text := by
  unfold hide
  induction text with
  | nil => rfl
  | cons u rest ih =>
    have none_ : ¬secret.isPrefixOf ((u :: rest).map id) := fun here => by
      rw [List.isPrefixOf_iff_prefix,List.map_id] at here
      exact missing here.isInfix
    rw [hideFrom,if_neg none_,ih fun inside => missing (inside.trans (List.suffix_cons u rest).isInfix)]

end Hiding

/- No occurrence of the secret can reach into a mark. -/
structure Apart (secret mark : List α) : Prop where
  inside : ¬secret <:+: mark
  around : ¬mark <:+: secret
  before : ∀ part ∈ secret.tails, part ≠ [] → ¬part <+: mark
  after : ∀ part ∈ secret.inits, part ≠ [] → ¬part <:+ mark

instance [DecidableEq α] (secret mark : List α) : Decidable (Apart secret mark) :=
  decidable_of_iff (¬secret <:+: mark ∧ ¬mark <:+: secret ∧ (∀ part ∈ secret.tails, part ≠ [] → ¬part <+: mark) ∧
      ∀ part ∈ secret.inits, part ≠ [] → ¬part <:+ mark)
    ⟨fun ⟨inside,around,before,after⟩ => ⟨inside,around,before,after⟩,
      fun apart => ⟨apart.inside,apart.around,apart.before,apart.after⟩⟩

/- Nothing that the secret ends with begins where a mark begins. -/
theorem endApart {secret mark : List α} (apart : Apart secret mark) {part : List α} (ends : part <:+ secret) (some_ : part ≠ [])
    (rest : List α) : ¬part <+: mark ++ rest := by
  intro starts
  rcases List.prefix_or_prefix_of_prefix starts (List.prefix_append mark rest) with short | long
  · exact apart.before part ((List.mem_tails part secret).mpr ends) some_ short
  · exact apart.around (long.isInfix.trans ends.isInfix)

/- No occurrence begins in what is left of a mark. -/
theorem startApart {secret mark : List α} (apart : Apart secret mark) {left : List α} (tail : left <:+ mark) (some_ : left ≠ [])
    (rest : List α) : ¬secret <+: left ++ rest := by
  intro starts
  rcases List.prefix_or_prefix_of_prefix starts (List.prefix_append left rest) with short | long
  · exact apart.inside (short.isInfix.trans tail.isInfix)
  · exact apart.after left ((List.mem_inits left secret).mpr long) some_ tail

theorem hideMark [DecidableEq α] {key : β → α} {secret : List α} {mark : List β} (apart : Apart secret (mark.map key)) {left : List β}
    (tail : left <:+ mark) (rest : List β) :
    hideFrom key secret mark 0 (left ++ rest) = left ++ hideFrom key secret mark 0 rest := by
  induction left with
  | nil => rfl
  | cons u more ih =>
    have missing : ¬secret.isPrefixOf ((u :: (more ++ rest)).map key) := by
      rw [List.isPrefixOf_iff_prefix,← List.cons_append,List.map_append]
      exact startApart apart (List.IsSuffix.map key tail) (by rw [List.map_cons]; exact List.cons_ne_nil _ _) (rest.map key)
    rw [List.cons_append,hideFrom,if_neg missing,ih ((List.suffix_cons u more).trans tail)]
    rfl

/- A text with some of its stretches behind marks: where one starts, how long it is. -/
def rendered (mark : List β) (span : Nat → Option Nat) : Nat → Nat → List β → List β
  | _, _, [] => []
  | at_, n + 1, _ :: rest => rendered mark span (at_ + 1) n rest
  | at_, 0, u :: rest => match span at_ with
      | none => u :: rendered mark span (at_ + 1) 0 rest
      | some n => mark ++ rendered mark span (at_ + 1) (n - 1) rest

theorem renderedPlain (mark : List β) {span : Nat → Option Nat} {at_ : Nat} (none_ : span at_ = none) (u : β) (rest : List β) :
    rendered mark span at_ 0 (u :: rest) = u :: rendered mark span (at_ + 1) 0 rest := by
  rw [rendered,none_]

theorem renderedStart (mark : List β) {span : Nat → Option Nat} {at_ n : Nat} (starts : span at_ = some n) (u : β) (rest : List β) :
    rendered mark span at_ 0 (u :: rest) = mark ++ rendered mark span (at_ + 1) (n - 1) rest := by
  rw [rendered,starts]

def Covered (span : Nat → Option Nat) (at_ : Nat) : Prop := ∃ start n, span start = some n ∧ start ≤ at_ ∧ at_ < start + n

/- Stretches that neither are empty nor overlap. -/
structure Laid (span : Nat → Option Nat) : Prop where
  some_ : ∀ {start n}, span start = some n → 0 < n
  apart : ∀ {start n next}, span start = some n → start < next → next < start + n → span next = none

/- Before here, stretches reach n units further and no more. -/
structure Within (span : Nat → Option Nat) (here n : Nat) : Prop where
  most : ∀ {start k}, start < here → span start = some k → start + k ≤ here + n
  least : 0 < n → ∃ start k, start < here ∧ span start = some k ∧ start + k = here + n

variable {span : Nat → Option Nat} {here : Nat}

theorem withinStart : Within span 0 0 := ⟨fun early => absurd early (Nat.not_lt_zero _),fun some_ => absurd some_ (Nat.lt_irrefl 0)⟩

theorem withinSkip (laid : Laid span) {n : Nat} (within : Within span here (n + 1)) : Within span (here + 1) n := by
  obtain ⟨start,k,early,starts,ends⟩ := within.least (Nat.succ_pos n)
  refine ⟨fun {other m} before other_ => ?_,fun _ => ⟨start,k,by omega,starts,by omega⟩⟩
  rcases Nat.lt_or_ge other here with earlier | late
  · have := within.most earlier other_
    omega
  · have same : other = here := by omega
    subst same
    rw [laid.apart starts early (by omega)] at other_
    contradiction

theorem withinPlain (within : Within span here 0) (none_ : span here = none) : Within span (here + 1) 0 := by
  refine ⟨fun {start k} before starts => ?_,fun some_ => absurd some_ (Nat.lt_irrefl 0)⟩
  rcases Nat.lt_or_ge start here with earlier | late
  · have := within.most earlier starts
    omega
  · have same : start = here := by omega
    subst same
    rw [none_] at starts
    contradiction

theorem withinEnter (laid : Laid span) (within : Within span here 0) {n : Nat} (starts : span here = some n) :
    Within span (here + 1) (n - 1) := by
  have some_ := laid.some_ starts
  refine ⟨fun {start k} before starts' => ?_,fun _ => ⟨here,n,by omega,starts,by omega⟩⟩
  rcases Nat.lt_or_ge start here with earlier | late
  · have := within.most earlier starts'
    omega
  · have same : start = here := by omega
    subst same
    rw [starts] at starts'
    cases starts'
    omega

theorem plainUncovered (within : Within span here 0) (none_ : span here = none) : ¬Covered span here := by
  rintro ⟨start,n,starts,least,most⟩
  rcases Nat.lt_or_eq_of_le least with earlier | rfl
  · have := within.most earlier starts
    omega
  · rw [none_] at starts
    contradiction

theorem enterCovered (laid : Laid span) {n : Nat} (starts : span here = some n) : Covered span here :=
  have := laid.some_ starts
  ⟨here,n,starts,Nat.le_refl _,by omega⟩

theorem renderedNone (mark : List β) (none_ : ∀ at_, span at_ = none) (text : List β) : rendered mark span here 0 text = text := by
  induction text generalizing here with
  | nil => rfl
  | cons u rest ih => rw [renderedPlain mark (none_ here),ih]

/- What a secret is found in, at a place outside the stretches. -/
def FreeAt (span : Nat → Option Nat) (size at_ : Nat) : Prop := ∀ i, at_ ≤ i → i < at_ + size → ¬Covered span i

theorem foundRendered {key : β → α} {secret : List α} {mark : List β} (apart : Apart secret (mark.map key)) (laid : Laid span)
    {part : List α} (ends : part <:+ secret) (rest : List β) (within : Within span here 0) :
    part <+: (rendered mark span here 0 rest).map key ↔ part <+: rest.map key ∧ FreeAt span part.length here := by
  induction part generalizing rest here with
  | nil => exact ⟨fun _ => ⟨List.nil_prefix,fun i least most => absurd most (Nat.not_lt.mpr least)⟩,fun _ => List.nil_prefix⟩
  | cons c more ih =>
    cases rest with
    | nil => exact ⟨fun starts => absurd starts (by simp [rendered]),fun both => absurd both.1 (by simp)⟩
    | cons u rest =>
      cases starts : span here with
      | some n =>
        rw [renderedStart mark starts,List.map_append]
        constructor
        · intro found
          exact absurd found (endApart apart ends (List.cons_ne_nil _ _) _)
        · intro both
          exact absurd (enterCovered laid starts) (both.2 here (Nat.le_refl _) (by simp))
      | none =>
        rw [renderedPlain mark starts,List.map_cons,List.map_cons,List.cons_prefix_cons,List.cons_prefix_cons,
          ih ((List.suffix_cons c more).trans ends) rest (withinPlain within starts)]
        rw [and_assoc]
        refine and_congr_right fun _ => and_congr_right fun _ => ⟨fun free i least most => ?_,fun free i least most => ?_⟩
        · rcases Nat.lt_or_eq_of_le least with later | rfl
          · exact free i later (by rw [List.length_cons] at most; omega)
          · exact plainUncovered within starts
        · exact free i (by omega) (by rw [List.length_cons]; omega)

/- One pass adds the occurrences it finds to the stretches. -/
theorem hideRendered [DecidableEq α] {key : β → α} {secret : List α} {mark : List β} (apart : Apart secret (mark.map key)) (some_ : secret ≠ [])
    (laid : Laid span) {span' : Nat → Option Nat} {text : List β}
    (kept : ∀ {start n}, span start = some n → span' start = some n)
    (found : ∀ {start}, span start = none → secret <+: (text.drop start).map key → FreeAt span secret.length start →
      span' start = some secret.length)
    (missed : ∀ {start}, span start = none → ¬(secret <+: (text.drop start).map key ∧ FreeAt span secret.length start) →
      span' start = none)
    {rest : List β} (is_ : text.drop here = rest) (m n : Nat) (within : Within span here n)
    (one : m = 0 ∨ n = 0 ∧ FreeAt span m here) :
    hideFrom key secret mark m (rendered mark span here n rest) = rendered mark span' here (m + n) rest := by
  induction rest generalizing here m n with
  | nil =>
    cases n <;> cases m <;> rfl
  | cons u rest ih =>
    have next : text.drop (here + 1) = rest := by rw [← List.drop_drop,is_,List.drop_one,List.tail_cons]
    cases n with
    | succ n =>
      have first : m = 0 := one.resolve_right fun both => absurd both.1 (Nat.succ_ne_zero n)
      subst first
      rw [rendered,Nat.zero_add,rendered]
      have later := ih next 0 n (withinSkip laid within) (.inl rfl)
      rwa [Nat.zero_add] at later
    | zero =>
      cases m with
      | succ m =>
        have free := (one.resolve_left (Nat.succ_ne_zero m)).2
        have none_ : span here = none := by
          cases starts : span here with
          | none => rfl
          | some k => exact absurd (enterCovered laid starts) (free here (Nat.le_refl _) (by omega))
        rw [renderedPlain mark none_,hideFrom,Nat.add_zero,rendered]
        exact ih next m 0 (withinPlain within none_) (.inr ⟨rfl,fun i least most => free i (by omega) (by omega)⟩)
      | zero =>
        cases starts : span here with
        | some k =>
          have later := ih next 0 (k - 1) (withinEnter laid within starts) (.inl rfl)
          rw [Nat.zero_add] at later
          rw [renderedStart mark starts,renderedStart mark (kept starts),hideMark apart List.suffix_rfl,later]
        | none =>
          have occurs := foundRendered apart laid List.suffix_rfl (u :: rest) within
          rw [renderedPlain mark starts] at occurs
          rw [renderedPlain mark starts,hideFrom]
          by_cases here_ : secret <+: (u :: rest).map key ∧ FreeAt span secret.length here
          · have size := List.length_pos_iff.mpr some_
            have later := ih next (secret.length - 1) 0 (withinPlain within starts)
              (.inr ⟨rfl,fun i least most => here_.2 i (by omega) (by omega)⟩)
            rw [Nat.add_zero (secret.length - 1)] at later
            rw [if_pos (List.isPrefixOf_iff_prefix.mpr (occurs.mpr here_)),
              renderedStart mark (found starts (is_ ▸ here_.1) here_.2),later]
          · rw [if_neg fun yes => here_ (occurs.mp (List.isPrefixOf_iff_prefix.mp yes)),
              renderedPlain mark (missed starts (is_ ▸ here_)),ih next 0 0 (withinPlain within starts) (.inl rfl)]

def OccursAt (text secret : List α) (at_ : Nat) : Prop := secret <+: text.drop at_

section Order

variable (known : List (List α)) (ahead : List α → List α → Prop) (text : List α)

/- Where the other one stands if it meets this: inside it, and only one that is hidden later unless it is the same. -/
def GivesWay (secret : List α) (at_ : Nat) (other : List α) (p : Nat) : Prop :=
  p < at_ + secret.length → at_ < p + other.length → at_ ≤ p ∧ p + other.length ≤ at_ + secret.length ∧
    (p = at_ ∧ other.length = secret.length ∨ ahead secret other)

def Clear (secret : List α) (at_ : Nat) : Prop :=
  OccursAt text secret at_ ∧
    ∀ other ∈ known, ∀ p < text.length, OccursAt text other p → GivesWay ahead secret at_ other p

/- Occurrences meet only inside a clear one. -/
def Tidy : Prop := ∀ secret ∈ known, ∀ at_ < text.length, OccursAt text secret at_ →
  ∃ whole ∈ known, ∃ start < text.length, Clear known ahead text whole start ∧
    start ≤ at_ ∧ at_ + secret.length ≤ start + whole.length

variable [DecidableEq α] [DecidableRel ahead]

instance (secret : List α) (at_ : Nat) : Decidable (OccursAt text secret at_) := by
  unfold OccursAt
  infer_instance

instance (secret : List α) (at_ : Nat) (other : List α) (p : Nat) : Decidable (GivesWay ahead secret at_ other p) := by
  unfold GivesWay
  infer_instance

instance (secret : List α) (at_ : Nat) : Decidable (Clear known ahead text secret at_) := by
  unfold Clear
  infer_instance

instance : Decidable (Tidy known ahead text) := by
  unfold Tidy
  infer_instance

/- The clear occurrences of the secrets hidden so far. -/
def clearSpan (done : List (List α)) (at_ : Nat) : Option Nat :=
  (done.find? fun secret => Clear known ahead text secret at_).map List.length

end Order

section Passes

variable {known : List (List α)} {ahead : List α → List α → Prop} {text : List α}

theorem occursWithin {secret : List α} {at_ : Nat} (some_ : secret ≠ []) (occurs : OccursAt text secret at_) :
    at_ + secret.length ≤ text.length ∧ at_ < text.length := by
  have size := List.length_pos_iff.mpr some_
  have long := occurs.length_le
  rw [List.length_drop] at long
  omega

theorem occursSame {one other : List α} {at_ : Nat} (first : OccursAt text one at_) (second : OccursAt text other at_)
    (size : one.length = other.length) : one = other := by
  rw [List.prefix_iff_eq_take.mp first,List.prefix_iff_eq_take.mp second,size]

/- Two clear occurrences that meet are one. -/
theorem clearOne {one other : List α} {p q : Nat} (some_ : one ≠ []) (some' : other ≠ []) (member : one ∈ known) (member' : other ∈ known)
    (first : Clear known ahead text one p) (second : Clear known ahead text other q) (before : p < q + other.length)
    (behind : q < p + one.length) : p = q ∧ one.length = other.length := by
  obtain ⟨least,most,-⟩ := first.2 other member' q (occursWithin some' second.1).2 second.1 behind before
  obtain ⟨least',most',-⟩ := second.2 one member p (occursWithin some_ first.1).2 first.1 before behind
  omega

variable [DecidableEq α] [DecidableRel ahead]

theorem spanSome {done : List (List α)} {at_ n : Nat} (starts : clearSpan known ahead text done at_ = some n) :
    ∃ secret ∈ done, Clear known ahead text secret at_ ∧ secret.length = n := by
  obtain ⟨secret,found,size⟩ := Option.map_eq_some_iff.mp starts
  exact ⟨secret,List.mem_of_find?_eq_some found,by simpa using List.find?_some found,size⟩

theorem spanClear (some_ : ∀ secret ∈ known, secret ≠ []) {done : List (List α)} (inside : ∀ secret ∈ done, secret ∈ known)
    {secret : List α} (member : secret ∈ done) {at_ : Nat} (clear : Clear known ahead text secret at_) :
    clearSpan known ahead text done at_ = some secret.length := by
  cases starts : clearSpan known ahead text done at_ with
  | none =>
    have none_ := List.find?_eq_none.mp (Option.map_eq_none_iff.mp starts) secret member
    exact absurd clear (by simpa using none_)
  | some n =>
    obtain ⟨other,member',clear',rfl⟩ := spanSome starts
    have size := List.length_pos_iff.mpr (some_ secret (inside secret member))
    have size' := List.length_pos_iff.mpr (some_ other (inside other member'))
    have same := clearOne (some_ secret (inside secret member)) (some_ other (inside other member')) (inside secret member)
      (inside other member') clear clear' (by omega) (by omega)
    rw [same.2]

theorem clearLaid (some_ : ∀ secret ∈ known, secret ≠ []) {done : List (List α)} (inside : ∀ secret ∈ done, secret ∈ known) :
    Laid (clearSpan known ahead text done) := by
  refine ⟨fun starts => ?_,fun {start n next} starts later earlier => ?_⟩
  · obtain ⟨secret,member,-,rfl⟩ := spanSome starts
    exact List.length_pos_iff.mpr (some_ secret (inside secret member))
  · obtain ⟨secret,member,clear,rfl⟩ := spanSome starts
    cases other : clearSpan known ahead text done next with
    | none => rfl
    | some k =>
      obtain ⟨secret',member',clear',-⟩ := spanSome other
      have size := List.length_pos_iff.mpr (some_ secret' (inside secret' member'))
      have same := clearOne (some_ secret (inside secret member)) (some_ secret' (inside secret' member')) (inside secret member)
        (inside secret' member') clear clear' (by omega) (by omega)
      omega

/- Whatever is hidden ahead of a secret in a list has been by its turn. -/
def Ordered (known : List (List α)) (ahead : List α → List α → Prop) (done : List (List α)) : Prop :=
  ∀ before secret after, done = before ++ secret :: after → ∀ first ∈ known, ahead first secret → first ∈ before

theorem orderedFirst (first rest : List (List α)) :
    Ordered known (fun one other => first.idxOf one < first.idxOf other) (first ++ rest) := by
  intro before secret after split one _ earlier
  have own : one ∈ first := by
    by_contra absent
    have := List.idxOf_le_length (a := secret) (l := first)
    rw [List.idxOf_of_notMem absent] at earlier
    omega
  have front : (first ++ rest).idxOf one = first.idxOf one := List.idxOf_append_of_mem own
  have late : first.idxOf one < (first ++ rest).idxOf secret := by
    by_cases member : secret ∈ first
    · rwa [List.idxOf_append_of_mem member]
    · rw [List.idxOf_append_of_notMem member]
      have := List.idxOf_lt_length_iff.mpr own
      omega
  by_contra absent
  rw [split,List.idxOf_append_of_notMem absent] at front
  have most : (first ++ rest).idxOf secret ≤ before.length := by
    rw [split]
    by_cases member : secret ∈ before
    · rw [List.idxOf_append_of_mem member]
      exact List.idxOf_le_length
    · rw [List.idxOf_append_of_notMem member,List.idxOf_cons_self]
      omega
  omega

/- In a tidy text a pass finds what is clear of its secret. -/
theorem freeClear (some_ : ∀ secret ∈ known, secret ≠ []) (tidy : Tidy known ahead text) {done : List (List α)}
    (inside : ∀ secret ∈ done, secret ∈ known) {secret : List α} (member : secret ∈ known)
    (turn : ∀ first ∈ known, ahead first secret → first ∈ done) {at_ : Nat}
    (occurs : OccursAt text secret at_) (free : FreeAt (clearSpan known ahead text done) secret.length at_) :
    Clear known ahead text secret at_ := by
  have size := List.length_pos_iff.mpr (some_ secret member)
  obtain ⟨whole,member',start,-,clear,least,most⟩ := tidy secret member at_ (occursWithin (some_ secret member) occurs).2 occurs
  obtain ⟨-,-,same | first⟩ := clear.2 secret member at_ (occursWithin (some_ secret member) occurs).2 occurs (by omega) (by omega)
  · obtain ⟨rfl,size'⟩ := same
    rw [occursSame occurs clear.1 size']
    exact clear
  · have hidden := spanClear some_ inside (turn whole member' first) clear
    exact absurd ⟨start,whole.length,hidden,least,by omega⟩ (free at_ (Nat.le_refl _) (by omega))

theorem clearFree (some_ : ∀ secret ∈ known, secret ≠ []) {done : List (List α)} (inside : ∀ secret ∈ done, secret ∈ known)
    {secret : List α} (member : secret ∈ known) {at_ : Nat} (clear : Clear known ahead text secret at_)
    (none_ : clearSpan known ahead text done at_ = none) : FreeAt (clearSpan known ahead text done) secret.length at_ := by
  rintro i least most ⟨start,n,starts,least',most'⟩
  obtain ⟨other,member',clear',rfl⟩ := spanSome starts
  have same := clearOne (some_ secret member) (some_ other (inside other member')) member (inside other member') clear clear'
    (by omega) (by omega)
  rw [same.1,starts] at none_
  contradiction

theorem spanNext (done : List (List α)) (secret : List α) (at_ : Nat) : clearSpan known ahead text (done ++ [secret]) at_ =
    (clearSpan known ahead text done at_).or (if Clear known ahead text secret at_ then some secret.length else none) := by
  rw [clearSpan,clearSpan,List.find?_append,Option.map_or,List.find?_singleton]
  split <;> simp_all

/- The order the secrets are listed in does not show in the stretches. -/
theorem spanSame (some_ : ∀ secret ∈ known, secret ≠ []) {done done' : List (List α)} (inside : ∀ secret ∈ done, secret ∈ known)
    (same : ∀ secret, secret ∈ done ↔ secret ∈ done') : clearSpan known ahead text done = clearSpan known ahead text done' := by
  funext at_
  have inside' : ∀ secret ∈ done', secret ∈ known := fun secret member => inside secret ((same secret).mpr member)
  cases starts : clearSpan known ahead text done at_ with
  | some n =>
    obtain ⟨secret,member,clear,rfl⟩ := spanSome starts
    exact (spanClear some_ inside' ((same secret).mp member) clear).symm
  | none =>
    cases other : clearSpan known ahead text done' at_ with
    | none => rfl
    | some n =>
      obtain ⟨secret,member,clear,rfl⟩ := spanSome other
      rw [spanClear some_ inside ((same secret).mpr member) clear] at starts
      contradiction

theorem hideAllRendered {key : β → α} {mark : List β} {cells : List β} (spelled : cells.map key = text)
    (some_ : ∀ secret ∈ known, secret ≠ []) (apart : ∀ secret ∈ known, Apart secret (mark.map key))
    (tidy : Tidy known ahead text) {done : List (List α)} (inside : ∀ secret ∈ done, secret ∈ known)
    (ordered : Ordered known ahead done) :
    hideAll key mark done cells = rendered mark (clearSpan known ahead text done) 0 0 cells := by
  induction done using List.reverseRecOn with
  | nil => exact (renderedNone mark (fun _ => rfl) cells).symm
  | append_singleton done secret ih =>
    have early : ∀ s ∈ done, s ∈ known := fun s member => inside s (List.mem_append_left _ member)
    have member : secret ∈ known := inside secret (List.mem_append_right _ List.mem_cons_self)
    have turn : ∀ first ∈ known, ahead first secret → first ∈ done := ordered done secret [] rfl
    have before : Ordered known ahead done := fun front s after split first known_ ahead_ =>
      ordered front s (after ++ [secret]) (by rw [split,List.append_assoc,List.cons_append]) first known_ ahead_
    have pass : hideFrom key secret mark 0 (rendered mark (clearSpan known ahead text done) 0 0 cells) =
        rendered mark (clearSpan known ahead text (done ++ [secret])) 0 0 cells := hideRendered (apart secret member)
      (some_ secret member) (clearLaid some_ early)
      (fun {start n} starts => by rw [spanNext,starts]; rfl)
      (fun {start} none_ occurs free => by
        rw [List.map_drop,spelled] at occurs
        rw [spanNext,none_,if_pos (freeClear some_ tidy early member turn occurs free)]
        rfl)
      (fun {start} none_ missing => by
        rw [List.map_drop,spelled] at missing
        rw [spanNext,none_,if_neg fun clear => missing ⟨clear.1,clearFree some_ early member clear none_⟩]
        rfl)
      List.drop_zero 0 0 withinStart (.inl rfl)
    have last : hideAll key mark (done ++ [secret]) cells = hide key mark (hideAll key mark done cells) secret :=
      List.foldl_append
    rw [last,ih early before,hide]
    exact pass

end Passes

/- What a rendered text shows lies outside the stretches. -/
theorem renderedKept {mark text : List β} (laid : Laid span) {rest : List β} (is_ : text.drop here = rest) (n : Nat)
    (within : Within span here n) {u : β} (shown : u ∈ rendered mark span here n rest) :
    u ∈ mark ∨ ∃ at_, text[at_]? = some u ∧ ¬Covered span at_ := by
  induction rest generalizing here n with
  | nil =>
    cases n <;> exact absurd shown List.not_mem_nil
  | cons v rest ih =>
    have next : text.drop (here + 1) = rest := by rw [← List.drop_drop,is_,List.drop_one,List.tail_cons]
    cases n with
    | succ n => exact ih next n (withinSkip laid within) shown
    | zero =>
      cases starts : span here with
      | some k =>
        rw [renderedStart mark starts] at shown
        rcases List.mem_append.mp shown with marked | later
        · exact .inl marked
        · exact ih next (k - 1) (withinEnter laid within starts) later
      | none =>
        rw [renderedPlain mark starts] at shown
        rcases List.mem_cons.mp shown with rfl | later
        · have first : text[here]? = some u := by
            rw [← List.head?_drop,is_]
            rfl
          exact .inr ⟨here,first,plainUncovered within starts⟩
        · exact ih next 0 (withinPlain within starts) later

section Cutting

variable [DecidableEq α]

/- An occurrence that begins in one text and ends in the next. -/
def Straddles (secret front back : List α) : Prop :=
  ∃ i < secret.length, 0 < i ∧ secret.take i <:+ front ∧ secret.drop i <+: back

instance (secret front back : List α) : Decidable (Straddles secret front back) := by
  unfold Straddles
  infer_instance

theorem hideCut {secret mark front back : List α} (whole : ¬Straddles secret front back) {rest : List α} (ends : rest <:+ front)
    {n : Nat} (short : n ≤ rest.length) :
    hideFrom id secret mark n (rest ++ back) = hideFrom id secret mark n rest ++ hideFrom id secret mark 0 back := by
  induction rest generalizing n with
  | nil =>
    rw [Nat.le_zero.mp short]
    rfl
  | cons u more ih =>
    have later := @ih ((List.suffix_cons u more).trans ends)
    cases n with
    | succ n =>
      rw [List.cons_append,hideFrom,hideFrom]
      exact later (Nat.le_of_succ_le_succ short)
    | zero =>
      rw [List.cons_append,hideFrom,hideFrom,List.map_id,List.map_id]
      by_cases inside : secret <+: u :: more
      · have long : secret <+: u :: (more ++ back) := inside.trans (List.prefix_append (u :: more) back)
        have size := inside.length_le
        rw [List.length_cons] at size
        rw [if_pos (List.isPrefixOf_iff_prefix.mpr inside),if_pos (List.isPrefixOf_iff_prefix.mpr long),later (by omega),
          List.append_assoc]
      · have out : ¬secret <+: u :: (more ++ back) := by
          intro found
          rcases List.prefix_or_prefix_of_prefix found (List.prefix_append (u :: more) back) with within | reaches
          · exact inside within
          · obtain ⟨part,rfl⟩ := reaches
            have starts : part <+: back := (List.prefix_append_right_inj (u :: more)).mp found
            cases part with
            | nil => exact inside (by rw [List.append_nil])
            | cons v part =>
              refine whole ⟨(u :: more).length,by simp,Nat.succ_pos _,?_,?_⟩
              · rwa [List.take_left]
              · rwa [List.drop_left]
        rw [if_neg fun yes => inside (List.isPrefixOf_iff_prefix.mp yes),if_neg fun yes => out (List.isPrefixOf_iff_prefix.mp yes),
          later (Nat.zero_le _)]
        rfl

theorem hideUnmarked {secret mark : List α} (n : Nat) {text : List α} (none_ : ¬mark <:+: hideFrom id secret mark n text) :
    hideFrom id secret mark n text = text.drop n := by
  induction text generalizing n with
  | nil => cases n <;> rfl
  | cons u rest ih =>
    cases n with
    | succ n => exact ih n none_
    | zero =>
      rw [hideFrom] at none_ ⊢
      split at none_
      · exact absurd (List.prefix_append _ _).isInfix none_
      · rename_i missing
        rw [if_neg missing,ih 0 fun inside => none_ (inside.trans (List.suffix_cons _ _).isInfix)]
        rfl

/- A pass makes no new end or start of a secret. -/
theorem startsKept {other secret mark : List α} (apart : Apart other mark) {part : List α} (ends : part <:+ other) {text : List α}
    (starts : part <+: hideFrom id secret mark 0 text) : part <+: text := by
  induction part generalizing text with
  | nil => exact List.nil_prefix
  | cons c more ih =>
    cases text with
    | nil => exact starts
    | cons u rest =>
      rw [hideFrom] at starts
      split at starts
      · exact absurd starts (endApart apart ends (List.cons_ne_nil _ _) _)
      · obtain ⟨same,later⟩ := List.cons_prefix_cons.mp starts
        exact List.cons_prefix_cons.mpr ⟨same,ih ((List.suffix_cons c more).trans ends) later⟩

theorem endsKept {other secret mark : List α} (apart : Apart other mark) {part : List α} (starts : part <+: other) {n : Nat}
    {text : List α} (ends : part <:+ hideFrom id secret mark n text) : part <:+ text := by
  induction text generalizing n with
  | nil => cases n <;> exact ends
  | cons u rest ih =>
    cases n with
    | succ n => exact (ih ends).trans (List.suffix_cons u rest)
    | zero =>
      rw [hideFrom] at ends
      split at ends
      · rcases List.suffix_or_suffix_of_suffix ends (List.suffix_append _ _) with short | ⟨left,rfl⟩
        · exact (ih short).trans (List.suffix_cons u rest)
        · have tail : left <:+ mark := List.suffix_append_self_iff.mp ends
          cases left with
          | nil => exact (ih List.suffix_rfl).trans (List.suffix_cons u rest)
          | cons v left =>
            exact absurd tail (apart.after (v :: left) ((List.mem_inits _ other).mpr ((List.prefix_append _ _).trans starts))
              (List.cons_ne_nil _ _))
      · rcases List.suffix_cons_iff.mp ends with same | short
        · have none_ : ¬mark <:+: hideFrom id secret mark 0 rest := fun inside => by
            have within : hideFrom id secret mark 0 rest <:+: part := same ▸ (List.suffix_cons _ _).isInfix
            exact apart.around ((inside.trans within).trans starts.isInfix)
          rw [same,hideUnmarked 0 none_]
          exact List.suffix_rfl
        · exact (ih short).trans (List.suffix_cons u rest)

/- Where no secret straddles a cut, both sides are redacted on their own. -/
theorem hideAllCut {mark : List α} {secrets : List (List α)} (apart : ∀ secret ∈ secrets, Apart secret mark) {front back : List α}
    (whole : ∀ secret ∈ secrets, ¬Straddles secret front back) :
    hideAll id mark secrets (front ++ back) = hideAll id mark secrets front ++ hideAll id mark secrets back := by
  induction secrets generalizing front back with
  | nil => rfl
  | cons secret rest ih =>
    have first : hide id mark (front ++ back) secret = hide id mark front secret ++ hide id mark back secret :=
      hideCut (whole secret List.mem_cons_self) List.suffix_rfl (Nat.zero_le _)
    rw [hideAll,hideAll,hideAll,List.foldl_cons,List.foldl_cons,List.foldl_cons,first]
    refine ih (fun s member => apart s (List.mem_cons_of_mem _ member)) fun s member straddles => ?_
    obtain ⟨i,least,some_,ends,starts⟩ := straddles
    have own := apart s (List.mem_cons_of_mem _ member)
    exact whole s (List.mem_cons_of_mem _ member)
      ⟨i,least,some_,endsKept own (List.take_prefix i s) ends,startsKept own (List.drop_suffix i s) starts⟩

end Cutting

end Northstar.Redaction
