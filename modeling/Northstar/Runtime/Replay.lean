import Northstar.Expiring
import Northstar.Script

/-! The cache of replies to reads (broker-replay.ts) with its running total of bytes. How many bytes
JSON.stringify makes of a value is a parameter, none where it throws. The clock stands still within
a call. -/
namespace Northstar.Runtime
open Expiring (held)

/- What the constructor lets through. -/
structure ReplayBounds extends CacheLimits where
  someEntries : 1 ≤ maxEntries
  someBytes : 1 ≤ maxBytes
  someTime : 1 ≤ ttlMs

structure BrokerReadIdempotencyCache (T : Type) where
  entries : List (CacheEntry JsString T) := []
  bytes : Int := 0

namespace BrokerReadIdempotencyCache
variable {T : Type}

def find (key : JsString) (s : BrokerReadIdempotencyCache T) : Option (CacheEntry JsString T) := s.entries.find? fun entry => entry.key = key

def delete (key : JsString) (s : BrokerReadIdempotencyCache T) : BrokerReadIdempotencyCache T where
  entries := s.entries.filter fun entry => entry.key ≠ key
  bytes := match s.find key with
    | some entry => s.bytes - entry.bytes
    | none => s.bytes

def clear (_ : BrokerReadIdempotencyCache T) : BrokerReadIdempotencyCache T := {}

def prune (now : Int) (s : BrokerReadIdempotencyCache T) : BrokerReadIdempotencyCache T :=
  s.entries.foldl (fun s entry => if entry.expiresAt ≤ now then s.delete entry.key else s) s

def get (key : JsString) (now : Int) (s : BrokerReadIdempotencyCache T) : Option T × BrokerReadIdempotencyCache T :=
  match s.find key with
  | none => (none,s)
  | some entry =>
      if entry.expiresAt ≤ now then (none,s.delete key)
      else (some entry.value,{ s with entries := (s.entries.filter fun other => other.key ≠ key) ++ [entry] })

/- The eviction loop, and whether it ended with room; none where the fuel did not last. -/
def evict (limits : CacheLimits) (bytes : Nat) : Nat → BrokerReadIdempotencyCache T → Option (Bool × BrokerReadIdempotencyCache T)
  | 0,_ => none
  | fuel + 1,s =>
      if s.entries.length ≥ limits.maxEntries ∨ s.bytes + bytes > limits.maxBytes then
        match s.entries.head? with
        | none => some (false,s)
        | some oldest => evict limits bytes fuel (s.delete oldest.key)
      else some (true,s)

def set (limits : CacheLimits) (size : T → Option Nat) (key : JsString) (value : T) (now : Int) (s : BrokerReadIdempotencyCache T) :
    Option (Bool × BrokerReadIdempotencyCache T) := match size value with
  | none => some (false,s)
  | some bytes =>
      if bytes > limits.maxBytes then some (false,s)
      else
        let cleared := (s.delete key).prune now
        (cleared.evict limits bytes (cleared.entries.length + 1)).map fun made =>
          if made.1 then (true,⟨made.2.entries ++ [⟨key,value,now + limits.ttlMs,bytes⟩],made.2.bytes + bytes⟩) else (false,made.2)

/- The total agrees with the entries, each under a key of its own. -/
structure Counted (s : BrokerReadIdempotencyCache T) : Prop where
  distinct : (s.entries.map CacheEntry.key).Nodup
  total : s.bytes = held s.entries

theorem heldFilter {entries : List (CacheEntry JsString T)} (distinct : (entries.map CacheEntry.key).Nodup) (key : JsString) :
    (held entries : Int) = held (entries.filter fun entry => entry.key ≠ key) +
      ((entries.find? fun entry => entry.key = key).map CacheEntry.bytes).getD 0 := by
  induction entries with
  | nil => rfl
  | cons entry rest ih =>
    obtain ⟨apart,distinct⟩ := List.nodup_cons.mp distinct
    have later := ih distinct
    by_cases same : entry.key = key
    · have others : rest.filter (fun other => other.key ≠ key) = rest := by
        refine List.filter_eq_self.mpr fun other member => decide_eq_true fun eq => apart ?_
        exact List.mem_map.mpr ⟨other,member,eq.trans same.symm⟩
      rw [List.filter_cons_of_neg (by simpa using same),others,List.find?_cons_of_pos (by simpa using same)]
      simp only [held,List.map_cons,List.sum_cons,Option.map_some,Option.getD_some]
      omega
    · rw [List.filter_cons_of_pos (by simpa using same),List.find?_cons_of_neg (by simpa using same)]
      simp only [held,List.map_cons,List.sum_cons] at later ⊢
      omega

theorem deleteCounted {s : BrokerReadIdempotencyCache T} (h : s.Counted) (key : JsString) : (s.delete key).Counted where
  distinct := h.distinct.sublist (List.filter_sublist.map _)
  total := by
    have sums := heldFilter h.distinct key
    rw [← h.total] at sums
    change (match s.find key with | some entry => s.bytes - entry.bytes | none => s.bytes) =
      (held (s.entries.filter fun entry => entry.key ≠ key) : Int)
    unfold find
    generalize (held (s.entries.filter fun entry => entry.key ≠ key) : Int) = left at sums ⊢
    cases found : s.entries.find? fun entry => entry.key = key with
    | none =>
      rw [found] at sums
      simpa using sums
    | some entry =>
      rw [found] at sums
      simp only [Option.map_some,Option.getD_some] at sums
      dsimp only
      rw [sums,Int.add_sub_cancel]

/- What a prune over some entries leaves. -/
theorem prunedOver (now : Int) (expired : List (CacheEntry JsString T)) {s : BrokerReadIdempotencyCache T} (h : s.Counted) :
    (expired.foldl (fun s entry => if entry.expiresAt ≤ now then s.delete entry.key else s) s).Counted ∧
    ∀ entry, entry ∈ (expired.foldl (fun s entry => if entry.expiresAt ≤ now then s.delete entry.key else s) s).entries ↔
      entry ∈ s.entries ∧ ∀ gone ∈ expired, gone.expiresAt ≤ now → entry.key ≠ gone.key := by
  induction expired generalizing s with
  | nil => exact ⟨h,fun entry => by simp⟩
  | cons first rest ih =>
    rw [List.foldl_cons]
    by_cases late : first.expiresAt ≤ now
    · rw [if_pos late]
      obtain ⟨counted,left⟩ := ih (deleteCounted h first.key)
      refine ⟨counted,fun entry => (left entry).trans ?_⟩
      change entry ∈ s.entries.filter _ ∧ _ ↔ _
      rw [List.mem_filter,List.forall_mem_cons,decide_eq_true_iff]
      tauto
    · rw [if_neg late]
      obtain ⟨counted,left⟩ := ih h
      refine ⟨counted,fun entry => (left entry).trans ?_⟩
      rw [List.forall_mem_cons]
      tauto

theorem pruned (now : Int) {s : BrokerReadIdempotencyCache T} (h : s.Counted) :
    (s.prune now).Counted ∧ ∀ entry, entry ∈ (s.prune now).entries ↔ entry ∈ s.entries ∧ now < entry.expiresAt := by
  obtain ⟨counted,left⟩ := prunedOver now s.entries h
  refine ⟨counted,fun entry => (left entry).trans ⟨fun ⟨member,apart⟩ => ⟨member,?_⟩,fun ⟨member,live⟩ => ⟨member,?_⟩⟩⟩
  · by_contra late
    exact apart entry member (Int.not_lt.mp late) rfl
  · intro gone there late same
    rw [List.inj_on_of_nodup_map h.distinct member there same] at live
    omega

/- The loop ends before its fuel does, with room; what is gone was taken from the front. -/
theorem evicted {limits : CacheLimits} (some_ : 1 ≤ limits.maxEntries) {bytes : Nat} (fits : bytes ≤ limits.maxBytes) (fuel : Nat)
    {s : BrokerReadIdempotencyCache T} (h : s.Counted) (enough : s.entries.length < fuel) :
    ∃ left, s.evict limits bytes fuel = some (true,left) ∧ left.Counted ∧ left.entries <:+ s.entries ∧
      left.entries.length < limits.maxEntries ∧ left.bytes + bytes ≤ limits.maxBytes := by
  induction fuel generalizing s with
  | zero => omega
  | succ fuel ih =>
    unfold evict
    by_cases crowded : s.entries.length ≥ limits.maxEntries ∨ s.bytes + bytes > limits.maxBytes
    · rw [if_pos crowded]
      cases listed : s.entries with
      | nil =>
        have total := h.total
        rw [listed] at crowded total
        simp only [held,List.map_nil,List.sum_nil,List.length_nil] at crowded total
        omega
      | cons oldest rest =>
        have distinct := h.distinct
        rw [listed,List.map_cons] at distinct
        have tail : (s.delete oldest.key).entries = rest := by
          change s.entries.filter _ = rest
          rw [listed,List.filter_cons_of_neg (by simp)]
          refine List.filter_eq_self.mpr fun other member => decide_eq_true fun same => (List.nodup_cons.mp distinct).1 ?_
          exact List.mem_map.mpr ⟨other,member,same⟩
        have shorter : (s.delete oldest.key).entries.length < fuel := by
          rw [tail]
          rw [listed,List.length_cons] at enough
          omega
        obtain ⟨left,made,counted,ends,room⟩ := ih (deleteCounted h oldest.key) shorter
        refine ⟨left,made,counted,?_,room⟩
        rw [tail] at ends
        exact ends.trans (List.suffix_cons oldest rest)
    · rw [if_neg crowded]
      obtain ⟨few,light⟩ := not_or.mp crowded
      exact ⟨s,rfl,h,List.suffix_refl _,Nat.not_le.mp few,Int.not_lt.mp light⟩

end BrokerReadIdempotencyCache

inductive ReplayCall (T : Type) where
  | get (key : JsString)
  | set (key : JsString) (value : T)
  | delete (key : JsString)
  | clear
  | advance (ms : Nat)

/- A cache in use; beside it what every key was set to last and when that expires, unless the entry
was deleted or evicted since. -/
structure ReplayUse (T : Type) where
  cache : BrokerReadIdempotencyCache T := {}
  now : Int
  latest : JsString → Option (T × Int) := fun _ => none

namespace ReplayUse
variable {T : Type}

/- The keys that the eviction loop of a call took out. -/
def lost (before after_ : BrokerReadIdempotencyCache T) (key : JsString) : Bool :=
  before.entries.any (fun entry => entry.key = key) && !after_.entries.any fun entry => entry.key = key

def step (limits : CacheLimits) (size : T → Option Nat) (s : ReplayUse T) : ReplayCall T → ReplayUse T
  | .get key => { s with cache := (s.cache.get key s.now).2 }
  | .delete key => { s with cache := s.cache.delete key, latest := fun k => if k = key then none else s.latest k }
  | .clear => { s with cache := s.cache.clear, latest := fun _ => none }
  | .advance ms => { s with now := s.now + ms }
  | .set key value => match s.cache.set limits size key value s.now with
      | some (true,cache) =>
          let cleared := (s.cache.delete key).prune s.now
          { s with
            cache := cache
            latest := fun k => if k = key then some (value,s.now + limits.ttlMs) else if lost cleared cache k then none else s.latest k }
      | some (false,cache) => { s with cache := cache }
      | none => s

def run (limits : CacheLimits) (size : T → Option Nat) (start : Int) (calls : List (ReplayCall T)) : ReplayUse T :=
  calls.foldl (step limits size) { now := start }

structure Sound (limits : CacheLimits) (size : T → Option Nat) (s : ReplayUse T) : Prop where
  counted : s.cache.Counted
  sized : ∀ entry ∈ s.cache.entries, size entry.value = some entry.bytes
  light : s.cache.bytes ≤ limits.maxBytes
  few : s.cache.entries.length ≤ limits.maxEntries
  stored : ∀ entry ∈ s.cache.entries, s.latest entry.key = some (entry.value,entry.expiresAt)
  kept : ∀ key value expiresAt, s.latest key = some (value,expiresAt) → s.now < expiresAt →
    ∃ entry ∈ s.cache.entries, entry.key = key

variable {limits : CacheLimits} {size : T → Option Nat} {s : ReplayUse T}

theorem heldSublist {entries kept : List (CacheEntry JsString T)} (part : kept.Sublist entries) : held kept ≤ held entries :=
  (part.map CacheEntry.bytes).sum_le_sum fun _ _ => Nat.zero_le _

/- A cache with fewer entries, of which none is missed. -/
theorem Sound.less (h : s.Sound limits size) {cache : BrokerReadIdempotencyCache T} (counted : cache.Counted)
    (part : cache.entries.Sublist s.cache.entries)
    (rest : ∀ entry ∈ s.cache.entries, s.now < entry.expiresAt → entry ∈ cache.entries) : Sound limits size { s with cache := cache } where
  counted := counted
  sized entry member := h.sized entry (part.subset member)
  light := by
    have less := heldSublist part
    have total := h.counted.total
    have light := h.light
    have own := counted.total
    change cache.bytes ≤ _
    rw [own]
    rw [total] at light
    omega
  few := part.length_le.trans h.few
  stored entry member := h.stored entry (part.subset member)
  kept key value expiresAt latest live := by
    obtain ⟨entry,member,rfl⟩ := h.kept key value expiresAt latest live
    have same := h.stored entry member
    rw [latest] at same
    cases same
    exact ⟨entry,rest entry member live,rfl⟩

/- An entry taken out and put at the end. -/
theorem renewed {entries : List (CacheEntry JsString T)} (distinct : (entries.map CacheEntry.key).Nodup) {entry : CacheEntry JsString T}
    (there : entry ∈ entries) : ((entries.filter fun other => other.key ≠ entry.key) ++ [entry]).Perm entries := by
  induction entries with
  | nil => cases there
  | cons first rest ih =>
    rw [List.map_cons] at distinct
    obtain ⟨apart,distinct⟩ := List.nodup_cons.mp distinct
    rcases List.mem_cons.mp there with rfl | later
    · have others : rest.filter (fun other => other.key ≠ entry.key) = rest :=
        List.filter_eq_self.mpr fun other member => decide_eq_true fun same => apart (List.mem_map.mpr ⟨other,member,same⟩)
      rw [List.filter_cons_of_neg (by simp),others]
      exact List.perm_append_singleton entry rest
    · have other : first.key ≠ entry.key := fun same => apart (List.mem_map.mpr ⟨entry,later,same.symm⟩)
      rw [List.filter_cons_of_pos (by simpa using other)]
      exact (ih distinct later).cons first

theorem Sound.get (h : s.Sound limits size) (key : JsString) : Sound limits size { s with cache := (s.cache.get key s.now).2 } := by
  unfold BrokerReadIdempotencyCache.get
  split
  · exact h
  · rename_i entry found
    have there := List.mem_of_find?_eq_some found
    have named : entry.key = key := by simpa using List.find?_some found
    subst named
    split
    · rename_i late
      refine h.less (BrokerReadIdempotencyCache.deleteCounted h.counted entry.key) List.filter_sublist fun other member live => ?_
      refine List.mem_filter.mpr ⟨member,decide_eq_true fun same => ?_⟩
      rw [List.inj_on_of_nodup_map h.counted.distinct member there same] at live
      omega
    · -- The entry only moves to the end.
      have moved := renewed h.counted.distinct there
      refine ⟨⟨((moved.map _).nodup_iff).mpr h.counted.distinct,h.counted.total.trans ?_⟩,fun other member => h.sized other (moved.subset member),h.light,moved.length_eq.trans_le h.few,
        fun other member => h.stored other (moved.subset member),fun key value expiresAt latest live => ?_⟩
      · exact congrArg Nat.cast ((moved.map CacheEntry.bytes).sum_eq).symm
      · obtain ⟨other,member,same⟩ := h.kept key value expiresAt latest live
        exact ⟨other,moved.symm.subset member,same⟩

theorem Sound.delete (h : s.Sound limits size) (key : JsString) :
    Sound limits size { s with cache := s.cache.delete key, latest := fun k => if k = key then none else s.latest k } := by
  have less := heldSublist (List.filter_sublist (p := fun entry : CacheEntry JsString T => entry.key ≠ key) (l := s.cache.entries))
  have counted := BrokerReadIdempotencyCache.deleteCounted h.counted key
  refine ⟨counted,fun entry member => h.sized entry (List.filter_subset_self _ member),?_,List.filter_sublist.length_le.trans h.few,fun entry member => ?_,fun k value expiresAt latest live => ?_⟩
  · have own := counted.total
    have total := h.counted.total
    have light := h.light
    change (s.cache.delete key).bytes ≤ _
    rw [own]
    rw [total] at light
    change (held (s.cache.entries.filter fun entry => entry.key ≠ key) : Int) ≤ _
    omega
  · obtain ⟨there,apart⟩ := List.mem_filter.mp member
    exact (if_neg (of_decide_eq_true apart)).trans (h.stored entry there)
  · dsimp only at latest
    split at latest
    · cases latest
    · rename_i apart
      obtain ⟨entry,member,rfl⟩ := h.kept k value expiresAt latest live
      exact ⟨entry,List.mem_filter.mpr ⟨member,decide_eq_true apart⟩,rfl⟩

/- A set ends, and it refuses just the values that have no size or are too large. -/
theorem setMade (size : T → Option Nat) (some_ : 1 ≤ limits.maxEntries) (counted : s.cache.Counted) (key : JsString) (value : T) :
    (s.cache.set limits size key value s.now = some (false,s.cache) ∧ ∀ bytes, size value = some bytes → bytes > limits.maxBytes) ∨
    ∃ (bytes : Nat) (left : BrokerReadIdempotencyCache T), size value = some bytes ∧
      s.cache.set limits size key value s.now = some (true,⟨left.entries ++ [⟨key,value,s.now + limits.ttlMs,bytes⟩],left.bytes + bytes⟩) ∧
      left.Counted ∧ left.entries <:+ ((s.cache.delete key).prune s.now).entries ∧ left.entries.length < limits.maxEntries ∧
      left.bytes + bytes ≤ limits.maxBytes := by
  unfold BrokerReadIdempotencyCache.set
  cases measured : size value with
  | none => exact .inl ⟨rfl,nofun⟩
  | some bytes =>
    dsimp only
    by_cases large : bytes > limits.maxBytes
    · rw [if_pos large]
      refine .inl ⟨rfl,fun own same => ?_⟩
      cases same
      exact large
    · rw [if_neg large]
      have cleared := (BrokerReadIdempotencyCache.pruned s.now (BrokerReadIdempotencyCache.deleteCounted counted key)).1
      obtain ⟨left,made,rest⟩ := BrokerReadIdempotencyCache.evicted some_ (Nat.not_lt.mp large) _ cleared (Nat.lt_succ_self _)
      rw [made]
      exact .inr ⟨bytes,left,rfl,rfl,rest⟩

theorem Sound.set (some_ : 1 ≤ limits.maxEntries) (h : s.Sound limits size) (key : JsString) (value : T) :
    Sound limits size (s.step limits size (.set key value)) := by
  rcases setMade size some_ h.counted key value with ⟨refused,-⟩ | ⟨bytes,left,measured,made,counted,ends,few,light⟩
  · unfold step
    dsimp only
    rw [refused]
    exact h
  · unfold step
    dsimp only
    rw [made]
    dsimp only
    have cleared := (BrokerReadIdempotencyCache.pruned s.now (BrokerReadIdempotencyCache.deleteCounted h.counted key)).2
    have old {entry : CacheEntry JsString T} (member : entry ∈ left.entries) : entry ∈ s.cache.entries ∧ entry.key ≠ key := by
      obtain ⟨there,apart⟩ := List.mem_filter.mp ((cleared entry).mp (ends.subset member)).1
      exact ⟨there,of_decide_eq_true apart⟩
    refine ⟨⟨?_,?_⟩,fun entry member => ?_,light,?_,fun entry member => ?_,fun k v expiresAt latest live => ?_⟩
    · rw [List.map_append]
      refine counted.distinct.append (List.nodup_singleton _) fun k inside last => ?_
      obtain ⟨entry,member,rfl⟩ := List.mem_map.mp inside
      exact (old member).2 (List.mem_singleton.mp last)
    · rw [counted.total]
      simp [held]
    · rcases List.mem_append.mp member with before | last
      · exact h.sized entry (old before).1
      · cases List.mem_singleton.mp last
        exact measured
    · rw [List.length_append]
      exact few
    · rcases List.mem_append.mp member with before | last
      · have here : (left.entries ++ [(⟨key,value,s.now + limits.ttlMs,bytes⟩ : CacheEntry JsString T)]).any
            (fun other => other.key = entry.key) = true := List.any_eq_true.mpr ⟨entry,member,decide_eq_true rfl⟩
        dsimp only
        rw [if_neg (old before).2,lost,here,Bool.not_true,Bool.and_false]
        exact h.stored entry (old before).1
      · cases List.mem_singleton.mp last
        exact if_pos rfl
    · dsimp only at latest
      by_cases same : k = key
      · exact ⟨_,List.mem_append_right _ List.mem_cons_self,same.symm⟩
      · rw [if_neg same] at latest
        split at latest
        · cases latest
        · rename_i there
          obtain ⟨entry,member,rfl⟩ := h.kept k v expiresAt latest live
          have own := h.stored entry member
          rw [latest] at own
          cases own
          have waits : entry ∈ ((s.cache.delete key).prune s.now).entries :=
            (cleared entry).mpr ⟨List.mem_filter.mpr ⟨member,decide_eq_true same⟩,live⟩
          have before : ((s.cache.delete key).prune s.now).entries.any (fun other => other.key = entry.key) = true :=
            List.any_eq_true.mpr ⟨entry,waits,decide_eq_true rfl⟩
          rw [lost,before,Bool.true_and,Bool.not_eq_true,Bool.not_eq_false'] at there
          obtain ⟨other,inside,eq⟩ := List.any_eq_true.mp there
          exact ⟨other,inside,of_decide_eq_true eq⟩

theorem Sound.step (some_ : 1 ≤ limits.maxEntries) (h : s.Sound limits size) (call : ReplayCall T) :
    Sound limits size (s.step limits size call) := by
  cases call with
  | get key => exact h.get key
  | set key value => exact h.set some_ key value
  | delete key => exact h.delete key
  | clear => exact ⟨⟨.nil,rfl⟩,nofun,Int.natCast_nonneg _,Nat.zero_le _,nofun,nofun⟩
  | advance ms =>
    refine ⟨h.counted,h.sized,h.light,h.few,h.stored,fun key value expiresAt latest live => h.kept key value expiresAt latest ?_⟩
    change s.now + ms < expiresAt at live
    omega

theorem runSound (limits : ReplayBounds) (size : T → Option Nat) (start : Int) (calls : List (ReplayCall T)) :
    Sound limits.toCacheLimits size (run limits.toCacheLimits size start calls) := by
  have all (calls : List (ReplayCall T)) {s : ReplayUse T} (h : Sound limits.toCacheLimits size s) :
      Sound limits.toCacheLimits size (calls.foldl (ReplayUse.step limits.toCacheLimits size) s) := by
    induction calls generalizing s with
    | nil => exact h
    | cons call rest ih => exact ih (h.step limits.someEntries call)
  exact all calls ⟨⟨.nil,rfl⟩,nofun,Int.natCast_nonneg _,Nat.zero_le _,nofun,nofun⟩

/- What a get says: the last value set, unless it is expired, deleted or evicted. -/
theorem Sound.gets (h : s.Sound limits size) (key : JsString) :
    (s.cache.get key s.now).1 = ((s.latest key).filter fun set => s.now < set.2).map Prod.fst := by
  unfold BrokerReadIdempotencyCache.get
  cases found : s.cache.find key with
  | none =>
    cases latest : s.latest key with
    | none => rfl
    | some set =>
      rw [Option.filter_some,if_neg]
      · rfl
      · intro live
        obtain ⟨entry,member,same⟩ := h.kept key set.1 set.2 latest (of_decide_eq_true live)
        exact List.find?_eq_none.mp found entry member (decide_eq_true same)
  | some entry =>
    have there := List.mem_of_find?_eq_some found
    have named : entry.key = key := by simpa using List.find?_some found
    rw [← named,h.stored entry there,Option.filter_some]
    dsimp only
    by_cases late : entry.expiresAt ≤ s.now
    · rw [if_pos late,if_neg (by simpa using late)]
      rfl
    · rw [if_neg late,if_pos (by simpa using late)]
      rfl

/- What is promised of a cache in use. -/
structure Exact (limits : CacheLimits) (size : T → Option Nat) (s : ReplayUse T) : Prop where
  total : s.cache.bytes = (s.cache.entries.map fun entry => (size entry.value).getD 0).sum
  light : s.cache.bytes ≤ limits.maxBytes
  few : s.cache.entries.length ≤ limits.maxEntries
  ends : ∀ key value, ∃ stored after_, s.cache.set limits size key value s.now = some (stored,after_) ∧
    (stored = true ↔ ∃ bytes, size value = some bytes ∧ bytes ≤ limits.maxBytes)
  found : ∀ key, (s.cache.get key s.now).1 = ((s.latest key).filter fun set => s.now < set.2).map Prod.fst

/-- After every sequence of calls the total is that of the entries and within its bounds, every set ends, and a get says what was
set last. -/
theorem replayExact (limits : ReplayBounds) (size : T → Option Nat) (start : Int) (calls : List (ReplayCall T)) :
    Exact limits.toCacheLimits size (run limits.toCacheLimits size start calls) := by
  have h := runSound limits size start calls
  refine ⟨h.counted.total.trans (congrArg Nat.cast ?_),h.light,h.few,fun key value => ?_,h.gets⟩
  · refine congrArg List.sum (List.map_congr_left fun entry member => ?_)
    rw [h.sized entry member]
    rfl
  · rcases setMade size limits.someEntries h.counted key value with ⟨refused,large⟩ | ⟨bytes,left,measured,made,counted,-,-,light⟩
    · refine ⟨false,_,refused,iff_of_false nofun fun ⟨bytes,measured,small⟩ => ?_⟩
      exact absurd (large bytes measured) (Nat.not_lt.mpr small)
    · refine ⟨true,_,made,iff_of_true rfl ⟨bytes,measured,?_⟩⟩
      have total := counted.total
      omega

end ReplayUse
end Northstar.Runtime
