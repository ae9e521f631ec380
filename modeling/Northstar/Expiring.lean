import Mathlib

/-! A cache with a time to live and bounds on its entries and their size. Entries stand in the order
of their last use; the oldest make room. -/
namespace Northstar

structure CacheLimits where
  maxEntries : Nat
  maxBytes : Nat
  ttlMs : Int

structure CacheEntry (K V : Type) where
  key : K
  value : V
  expiresAt : Int
  bytes : Nat

namespace Expiring
variable {K V : Type}

def held (entries : List (CacheEntry K V)) : Nat := (entries.map CacheEntry.bytes).sum

def prune (now : Int) (entries : List (CacheEntry K V)) : List (CacheEntry K V) := entries.filter fun entry => now < entry.expiresAt

/- The oldest entries go until there is room; none where even an empty cache has none. -/
def room (limits : CacheLimits) (bytes : Nat) : List (CacheEntry K V) → Option (List (CacheEntry K V))
  | [] => if limits.maxEntries ≤ 0 ∨ bytes > limits.maxBytes then none else some []
  | entry :: rest =>
      if limits.maxEntries ≤ rest.length + 1 ∨ held (entry :: rest) + bytes > limits.maxBytes then room limits bytes rest
      else some (entry :: rest)

theorem roomSubset {limits : CacheLimits} {bytes : Nat} {entries kept : List (CacheEntry K V)}
    (found : room limits bytes entries = some kept) : kept ⊆ entries := by
  induction entries with
  | nil =>
    unfold room at found
    split at found
    · contradiction
    · cases found
      exact List.Subset.refl _
  | cons entry rest ih =>
    unfold room at found
    split at found
    · exact List.subset_cons_of_subset _ (ih found)
    · cases found
      exact List.Subset.refl _

variable [DecidableEq K]

def delete (key : K) (entries : List (CacheEntry K V)) : List (CacheEntry K V) := entries.filter fun entry => entry.key ≠ key

def get (key : K) (now : Int) (entries : List (CacheEntry K V)) : Option V × List (CacheEntry K V) :=
  match entries.find? fun entry => entry.key = key with
  | none => (none,entries)
  | some entry =>
      if entry.expiresAt ≤ now then (none,delete key entries) else (some entry.value,delete key entries ++ [entry])

def set (limits : CacheLimits) (key : K) (value : V) (bytes : Nat) (now : Int) (entries : List (CacheEntry K V)) :
    List (CacheEntry K V) :=
  if bytes > limits.maxBytes then entries
  else match room limits bytes (prune now (delete key entries)) with
    | none => []
    | some kept => kept ++ [⟨key,value,now + limits.ttlMs,bytes⟩]

theorem deleteSubset (key : K) (entries : List (CacheEntry K V)) : delete key entries ⊆ entries := List.filter_subset_self _

/- What is found was stored under the key and has not expired. -/
theorem getStored {key : K} {now : Int} {entries : List (CacheEntry K V)} {value : V} (found : (get key now entries).1 = some value) :
    ∃ entry ∈ entries, entry.key = key ∧ entry.value = value ∧ now < entry.expiresAt := by
  unfold get at found
  split at found
  · contradiction
  · rename_i entry there
    split at found
    · contradiction
    · rename_i live
      exact ⟨entry,List.mem_of_find?_eq_some there,by simpa using List.find?_some there,Option.some.inj found,Int.not_le.mp live⟩

theorem getSubset (key : K) (now : Int) (entries : List (CacheEntry K V)) : (get key now entries).2 ⊆ entries := by
  unfold get
  split
  · exact List.Subset.refl _
  · rename_i entry there
    split
    · exact deleteSubset key entries
    · intro e member
      rcases List.mem_append.mp member with kept | last
      · exact deleteSubset key entries kept
      · exact List.mem_singleton.mp last ▸ List.mem_of_find?_eq_some there

theorem setStored {limits : CacheLimits} {key : K} {value : V} {bytes : Nat} {now : Int} {entries : List (CacheEntry K V)}
    {entry : CacheEntry K V} (member : entry ∈ set limits key value bytes now entries) :
    entry ∈ entries ∨ entry.key = key ∧ entry.value = value := by
  unfold set at member
  split at member
  · exact .inl member
  · split at member
    · exact absurd member List.not_mem_nil
    · rename_i kept found
      rcases List.mem_append.mp member with old | last
      · exact .inl (deleteSubset key entries (List.filter_subset_self _ (roomSubset found old)))
      · cases List.mem_singleton.mp last
        exact .inr ⟨rfl,rfl⟩

end Expiring
end Northstar
