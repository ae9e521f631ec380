import Northstar.Recency
import Northstar.Web.Store

/-! The bounded store of responses in memory (web-access-content-store.ts): its entries in the order
they were last used, the total of their sizes kept beside them, and the owners that gate them. -/
namespace Northstar.Web
open Recency (lookup lookupFilter lookupMember lookupRenew lookupUnique memRenew renew renewDistinct)

def storeMaxEntries : Nat := 128

def storeMaxBytes : Nat := 128 * 1024 * 1024

def storeTtlMs : Int := 60 * 60 * 1000

structure OwnedEntry where
  responseId : JsString
  createdAt : Int
  bytes : Nat
  owner : Option JsString
  value : WebAccessStoredEntry

def OwnedEntry.expired (entry : OwnedEntry) (at_ : Int) : Bool := storeTtlMs < at_ - entry.createdAt

/- An owned entry is for its owner, one without for every caller. -/
def OwnedEntry.foreign (entry : OwnedEntry) (owner : Option JsString) : Bool := entry.owner.isSome && owner != entry.owner

structure MemoryStore where
  entries : List OwnedEntry
  totalBytes : Int

def emptyStore : MemoryStore := ⟨[],0⟩

def pruneFrom (at_ : Int) : List OwnedEntry → Int → MemoryStore × Nat
  | [], total => (⟨[],total⟩,0)
  | entry :: rest, total =>
      if entry.expired at_ then
        let later := pruneFrom at_ rest (total - entry.bytes)
        (later.1,later.2 + 1)
      else
        let later := pruneFrom at_ rest total
        (⟨entry :: later.1.entries,later.1.totalBytes⟩,later.2)

namespace MemoryStore

def prune (s : MemoryStore) (at_ : Int) : MemoryStore × Nat := pruneFrom at_ s.entries s.totalBytes

def without (s : MemoryStore) (entry : OwnedEntry) : MemoryStore :=
  ⟨s.entries.filter (·.responseId != entry.responseId),s.totalBytes - entry.bytes⟩

def get (s : MemoryStore) (responseId : JsString) (owner : Option JsString) (now : Int) : Option OwnedEntry × MemoryStore :=
  match lookup OwnedEntry.responseId s.entries responseId with
  | none => (none,s)
  | some entry =>
      if entry.expired now then (none,s.without entry)
      else if entry.foreign owner then (none,s)
      else (some entry,{ s with entries := renew OwnedEntry.responseId s.entries entry })

/- The owner of the call, else the entry's own. -/
def bound (entry : OwnedEntry) (owner : Option JsString) : OwnedEntry := match owner with
  | some o => { entry with owner := some o }
  | none => entry

/- Oldest first, until both caps hold or nothing is left. -/
def evict (bytes : Nat) : List OwnedEntry → Int → MemoryStore
  | [], total => ⟨[],total⟩
  | oldest :: rest, total =>
      if storeMaxEntries ≤ (oldest :: rest).length ∨ (storeMaxBytes : Int) < total + bytes then evict bytes rest (total - oldest.bytes)
      else ⟨oldest :: rest,total⟩

def replaced (s : MemoryStore) (responseId : JsString) : MemoryStore := match lookup OwnedEntry.responseId s.entries responseId with
  | some existing => s.without existing
  | none => s

def put (s : MemoryStore) (entry : OwnedEntry) (owner : Option JsString) (now : Int) : Except JsString MemoryStore :=
  let bound := bound entry owner
  if storeMaxBytes < bound.bytes then
    .error (js "stored entry exceeds maximum of " ++ js (toString storeMaxBytes) ++ js " bytes")
  else
    let s := (s.prune now).1.replaced bound.responseId
    let kept := evict bound.bytes s.entries s.totalBytes
    .ok ⟨kept.entries ++ [bound],kept.totalBytes + bound.bytes⟩

def delete (s : MemoryStore) (responseId : JsString) (owner : Option JsString) : MemoryStore :=
  match lookup OwnedEntry.responseId s.entries responseId with
  | none => s
  | some entry => if entry.foreign owner then s else s.without entry

def size (s : MemoryStore) (now : Int) : Nat × MemoryStore := ((s.prune now).1.entries.length,(s.prune now).1)

end MemoryStore

def heldBytes (entries : List OwnedEntry) : Nat := (entries.map OwnedEntry.bytes).sum

structure MemoryStore.Sound (s : MemoryStore) : Prop where
  distinct : (s.entries.map OwnedEntry.responseId).Nodup
  total : s.totalBytes = heldBytes s.entries
  bytes : heldBytes s.entries ≤ storeMaxBytes
  count : s.entries.length ≤ storeMaxEntries

inductive StoreOp where
  | put (entry : OwnedEntry) (owner : Option JsString)
  | get (responseId : JsString) (owner : Option JsString)
  | delete (responseId : JsString) (owner : Option JsString)
  | prune
  | size
  | advance (ms : Nat)

structure Machine where
  store : MemoryStore
  now : Int

def startedAt (now : Int) : Machine := ⟨emptyStore,now⟩

/- A put that throws changes nothing. -/
def Machine.step (m : Machine) : StoreOp → Machine
  | .put entry owner => { m with store := (m.store.put entry owner m.now).toOption.getD m.store }
  | .get responseId owner => { m with store := (m.store.get responseId owner m.now).2 }
  | .delete responseId owner => { m with store := m.store.delete responseId owner }
  | .prune => { m with store := (m.store.prune m.now).1 }
  | .size => { m with store := (m.store.size m.now).2 }
  | .advance ms => { m with now := m.now + ms }

def Machine.run (m : Machine) (ops : List StoreOp) : Machine := ops.foldl Machine.step m

/- The response that an operation uses: one that is put, or got. -/
def Machine.uses (m : Machine) : StoreOp → Option JsString
  | .put entry owner => (m.store.put entry owner m.now).toOption.map fun _ => entry.responseId
  | .get responseId owner => (m.store.get responseId owner m.now).1.map fun _ => responseId
  | _ => none

/- All responses ever used, the one used last at the end. -/
def recencyFrom (m : Machine) (recent : List JsString) : List StoreOp → List JsString
  | [] => recent
  | op :: rest => recencyFrom (m.step op) (((m.uses op).map fun used => renew id recent used).getD recent) rest

/- What the store may hold beside a new entry. -/
def Fits (bytes : Nat) (entries : List OwnedEntry) : Prop :=
  entries.length < storeMaxEntries ∧ heldBytes entries + bytes ≤ storeMaxBytes

/- The new entry behind what is left of the others, of which no more of the front is gone than has to be. -/
def Evicts (others : List OwnedEntry) (entry : OwnedEntry) (s : MemoryStore) : Prop :=
  ∃ n, s.entries = others.drop n ++ [entry] ∧ Fits entry.bytes (others.drop n) ∧ ∀ k < n, ¬Fits entry.bytes (others.drop k)

/- The live entries of other responses. -/
def others (s : MemoryStore) (responseId : JsString) (now : Int) : List OwnedEntry :=
  (s.entries.filter fun e => !e.expired now).filter (·.responseId != responseId)

theorem heldWithout {entries : List OwnedEntry} (distinct : (entries.map OwnedEntry.responseId).Nodup) {entry : OwnedEntry}
    (member : entry ∈ entries) : heldBytes entries = entry.bytes + heldBytes (entries.filter (·.responseId != entry.responseId)) := by
  induction entries with
  | nil => exact absurd member List.not_mem_nil
  | cons first rest ih =>
    obtain ⟨absent,later⟩ := List.nodup_cons.mp distinct
    rcases List.mem_cons.mp member with rfl | inside
    · have kept : rest.filter (·.responseId != entry.responseId) = rest := List.filter_eq_self.mpr fun e there =>
        bne_iff_ne.mpr fun same => absent (List.mem_map.mpr ⟨e,there,same⟩)
      rw [List.filter_cons,bne_self_eq_false,if_neg Bool.false_ne_true,kept,heldBytes,List.map_cons,List.sum_cons]
      rfl
    · have apart : first.responseId ≠ entry.responseId := fun same => absent (List.mem_map.mpr ⟨entry,inside,same.symm⟩)
      have tail := ih later inside
      rw [List.filter_cons,if_pos (bne_iff_ne.mpr apart)]
      unfold heldBytes at tail ⊢
      rw [List.map_cons,List.sum_cons,List.map_cons,List.sum_cons,tail]
      omega

theorem heldSublist {kept entries : List OwnedEntry} (part : kept.Sublist entries) : heldBytes kept ≤ heldBytes entries :=
  (part.map OwnedEntry.bytes).sum_le_sum fun _ _ => Nat.zero_le _

theorem soundPart {s t : MemoryStore} (sound : s.Sound) (part : t.entries.Sublist s.entries) (total : t.totalBytes = heldBytes t.entries) :
    t.Sound where
  distinct := sound.distinct.sublist (part.map _)
  total := total
  bytes := Nat.le_trans (heldSublist part) sound.bytes
  count := Nat.le_trans part.length_le sound.count

theorem prunedFrom (at_ : Int) (entries : List OwnedEntry) (total : Int) : (pruneFrom at_ entries total).1.entries =
      entries.filter (fun e => !e.expired at_) ∧
    (pruneFrom at_ entries total).1.totalBytes = total - heldBytes entries + heldBytes (entries.filter fun e => !e.expired at_) := by
  induction entries generalizing total with
  | nil => exact ⟨rfl,by simp [pruneFrom,heldBytes]⟩
  | cons entry rest ih =>
    have whole : heldBytes (entry :: rest) = entry.bytes + heldBytes rest := List.sum_cons
    rw [pruneFrom,List.filter_cons,whole]
    cases gone : entry.expired at_ with
    | true =>
      obtain ⟨kept,sum⟩ := ih (total - entry.bytes)
      refine ⟨kept,sum.trans ?_⟩
      rw [Bool.not_true,if_neg Bool.false_ne_true]
      omega
    | false =>
      obtain ⟨kept,sum⟩ := ih total
      have held : heldBytes (entry :: rest.filter fun e => !e.expired at_) = entry.bytes + heldBytes (rest.filter fun e => !e.expired at_) :=
        List.sum_cons
      rw [Bool.not_false,if_pos rfl,held]
      refine ⟨congrArg (entry :: ·) kept,sum.trans ?_⟩
      omega

theorem pruneEntries (s : MemoryStore) (at_ : Int) : (s.prune at_).1.entries = s.entries.filter fun e => !e.expired at_ :=
  (prunedFrom at_ s.entries s.totalBytes).1

theorem pruneSound {s : MemoryStore} (sound : s.Sound) (at_ : Int) : (s.prune at_).1.Sound := by
  refine soundPart sound (pruneEntries s at_ ▸ List.filter_sublist) ?_
  rw [pruneEntries,MemoryStore.prune,(prunedFrom at_ s.entries s.totalBytes).2,sound.total]
  omega

theorem withoutSound {s : MemoryStore} (sound : s.Sound) {entry : OwnedEntry} (member : entry ∈ s.entries) : (s.without entry).Sound := by
  refine soundPart sound List.filter_sublist ?_
  have whole := heldWithout sound.distinct member
  rw [MemoryStore.without,sound.total,whole]
  dsimp only
  omega

theorem replacedSound {s : MemoryStore} (sound : s.Sound) (responseId : JsString) : (s.replaced responseId).Sound ∧
    (s.replaced responseId).entries = s.entries.filter (·.responseId != responseId) := by
  unfold MemoryStore.replaced
  cases found : lookup OwnedEntry.responseId s.entries responseId with
  | none =>
    refine ⟨sound,(List.filter_eq_self.mpr fun e member => ?_).symm⟩
    have apart := List.find?_eq_none.mp found e member
    simpa using apart
  | some existing =>
    obtain ⟨member,rfl⟩ := lookupMember found
    exact ⟨withoutSound sound member,rfl⟩

theorem evicted {bytes : Nat} (small : bytes ≤ storeMaxBytes) (entries : List OwnedEntry) {total : Int} (same : total = heldBytes entries) :
    ∃ n, (MemoryStore.evict bytes entries total).entries = entries.drop n ∧
      (MemoryStore.evict bytes entries total).totalBytes = heldBytes (entries.drop n) ∧
      Fits bytes (entries.drop n) ∧ ∀ k < n, ¬Fits bytes (entries.drop k) := by
  induction entries generalizing total with
  | nil =>
    refine ⟨0,rfl,same,⟨by decide,?_⟩,fun k less => absurd less (Nat.not_lt_zero k)⟩
    rw [List.drop_nil]
    exact (Nat.zero_add bytes).symm ▸ small
  | cons oldest rest ih =>
    have whole : heldBytes (oldest :: rest) = oldest.bytes + heldBytes rest := List.sum_cons
    rw [MemoryStore.evict]
    split
    · rename_i full
      obtain ⟨n,kept,sum,fits,least⟩ := @ih (total - oldest.bytes) (by rw [same,whole]; omega)
      refine ⟨n + 1,kept,sum,fits,fun k less => ?_⟩
      cases k with
      | zero =>
        rintro ⟨few,light⟩
        rw [List.drop_zero] at few light
        rcases full with many | heavy
        · omega
        · rw [same] at heavy
          omega
      | succ k => exact least k (by omega)
    · rename_i room
      rw [not_or] at room
      refine ⟨0,rfl,same,⟨by rw [List.drop_zero]; omega,?_⟩,fun k less => absurd less (Nat.not_lt_zero k)⟩
      have light := room.2
      rw [same] at light
      rw [List.drop_zero]
      omega

theorem boundKeeps (entry : OwnedEntry) (owner : Option JsString) : (MemoryStore.bound entry owner).responseId = entry.responseId ∧
    (MemoryStore.bound entry owner).bytes = entry.bytes := by
  cases owner <;> exact ⟨rfl,rfl⟩

theorem heldAppend (entries more : List OwnedEntry) : heldBytes (entries ++ more) = heldBytes entries + heldBytes more := by
  rw [heldBytes,List.map_append,List.sum_append]
  rfl

theorem putSound {s t : MemoryStore} (sound : s.Sound) {entry : OwnedEntry} {owner : Option JsString} {now : Int}
    (ok : s.put entry owner now = .ok t) : t.Sound ∧ Evicts (others s entry.responseId now) (MemoryStore.bound entry owner) t := by
  obtain ⟨sameId,sameBytes⟩ := boundKeeps entry owner
  unfold MemoryStore.put at ok
  dsimp only at ok
  split at ok
  · cases ok
  · rename_i small
    obtain ⟨sound',entries'⟩ := replacedSound (pruneSound sound now) (MemoryStore.bound entry owner).responseId
    rw [pruneEntries,sameId] at entries'
    obtain ⟨n,kept,sum,fits,least⟩ := evicted (Nat.not_lt.mp small) ((s.prune now).1.replaced (MemoryStore.bound entry owner).responseId).entries
      sound'.total
    rw [← Except.ok.inj ok]
    rw [← sameId] at entries'
    have rest : ((s.prune now).1.replaced (MemoryStore.bound entry owner).responseId).entries = others s entry.responseId now := by
      rw [entries',others,sameId]
    rw [rest] at kept sum fits least
    refine ⟨⟨?_,?_,?_,?_⟩,n,?_,fits,least⟩
    · dsimp only
      rw [rest,kept,List.map_append]
      refine (rest ▸ sound'.distinct.sublist ((List.drop_sublist n _).map _)).append (List.nodup_singleton _) ?_
      intro id left right
      obtain ⟨e,member,rfl⟩ := List.mem_map.mp left
      have apart := (List.mem_filter.mp ((List.drop_sublist n _).subset member)).2
      rw [List.mem_singleton.mp right,sameId,bne_self_eq_false] at apart
      contradiction
    · dsimp only
      rw [rest,kept,sum,heldAppend]
      exact (Int.natCast_add _ _).symm
    · dsimp only
      rw [rest,kept,heldAppend]
      exact fits.2
    · dsimp only
      rw [rest,kept,List.length_append]
      exact fits.1
    · dsimp only
      rw [rest,kept]

theorem renewSound {s : MemoryStore} (sound : s.Sound) {entry : OwnedEntry} (member : entry ∈ s.entries) :
    ({ s with entries := renew OwnedEntry.responseId s.entries entry } : MemoryStore).Sound := by
  have distinct := renewDistinct sound.distinct entry
  have perm : (renew OwnedEntry.responseId s.entries entry).Perm s.entries :=
    (List.perm_ext_iff_of_nodup (distinct.of_map _) (sound.distinct.of_map _)).mpr fun _ => memRenew member sound.distinct
  have same : heldBytes (renew OwnedEntry.responseId s.entries entry) = heldBytes s.entries := (perm.map _).sum_eq
  exact ⟨distinct,by rw [same]; exact sound.total,same ▸ sound.bytes,perm.length_eq ▸ sound.count⟩

theorem getSound {s : MemoryStore} (sound : s.Sound) (responseId : JsString) (owner : Option JsString) (now : Int) :
    (s.get responseId owner now).2.Sound := by
  unfold MemoryStore.get
  cases found : lookup OwnedEntry.responseId s.entries responseId with
  | none => exact sound
  | some entry =>
    have member := (lookupMember found).1
    dsimp only
    split
    · exact withoutSound sound member
    · split
      · exact sound
      · exact renewSound sound member

theorem deleteSound {s : MemoryStore} (sound : s.Sound) (responseId : JsString) (owner : Option JsString) :
    (s.delete responseId owner).Sound := by
  unfold MemoryStore.delete
  cases found : lookup OwnedEntry.responseId s.entries responseId with
  | none => exact sound
  | some entry =>
    dsimp only
    split
    · exact sound
    · exact withoutSound sound (lookupMember found).1

theorem stepSound {m : Machine} (sound : m.store.Sound) (op : StoreOp) : (m.step op).store.Sound := by
  cases op with
  | put entry owner =>
    cases stored : m.store.put entry owner m.now with
    | error text =>
      rw [Machine.step,stored]
      exact sound
    | ok t =>
      rw [Machine.step,stored]
      exact (putSound sound stored).1
  | get responseId owner => exact getSound sound responseId owner m.now
  | delete responseId owner => exact deleteSound sound responseId owner
  | prune => exact pruneSound sound m.now
  | size => exact pruneSound sound m.now
  | advance ms => exact sound

theorem runSound {m : Machine} (sound : m.store.Sound) (ops : List StoreOp) : (m.run ops).store.Sound := by
  induction ops generalizing m with
  | nil => exact sound
  | cons op rest ih => exact ih (stepSound sound op)

theorem emptySound : emptyStore.Sound := ⟨List.nodup_nil,rfl,by decide,by decide⟩

def storedIds (s : MemoryStore) : List JsString := s.entries.map OwnedEntry.responseId

/- What is used last goes to the end of both. -/
theorem renewedOrder {ids recent : List JsString} {used : JsString} (order : ids.Sublist recent) (absent : used ∉ ids) :
    (ids ++ [used]).Sublist (renew id recent used) := by
  have kept : ids.filter (· != used) = ids := List.filter_eq_self.mpr fun other member =>
    bne_iff_ne.mpr fun same => absent (same ▸ member)
  have part : (ids.filter (· != used)).Sublist (recent.filter (· != used)) := order.filter _
  rw [kept] at part
  exact part.append (List.Sublist.refl _)

theorem usedOrder {m : Machine} (sound : m.store.Sound) {recent : List JsString} (order : (storedIds m.store).Sublist recent) (op : StoreOp) :
    (storedIds (m.step op).store).Sublist (((m.uses op).map fun used => renew id recent used).getD recent) := by
  cases op with
  | put entry owner =>
    cases stored : m.store.put entry owner m.now with
    | error text =>
      rw [Machine.step,Machine.uses,stored]
      exact order
    | ok t =>
      rw [Machine.step,Machine.uses,stored]
      obtain ⟨n,entries,-,-⟩ := (putSound sound stored).2
      have rest : ((others m.store entry.responseId m.now).drop n).Sublist m.store.entries :=
        (List.drop_sublist n _).trans (List.filter_sublist.trans List.filter_sublist)
      have ids : storedIds t = ((others m.store entry.responseId m.now).drop n).map OwnedEntry.responseId ++ [entry.responseId] := by
        rw [storedIds,entries,List.map_append,← (boundKeeps entry owner).1]
        rfl
      change (storedIds t).Sublist (renew id recent entry.responseId)
      rw [ids]
      refine renewedOrder ((rest.map _).trans order) fun member => ?_
      obtain ⟨e,inside,same⟩ := List.mem_map.mp member
      have apart := (List.mem_filter.mp ((List.drop_sublist n _).subset inside)).2
      rw [same,bne_self_eq_false] at apart
      contradiction
  | get responseId owner =>
    rw [Machine.step,Machine.uses,MemoryStore.get]
    dsimp only
    cases found : lookup OwnedEntry.responseId m.store.entries responseId with
    | none => exact order
    | some entry =>
      dsimp only
      split
      · exact (List.filter_sublist.map _).trans order
      · split
        · exact order
        · obtain ⟨-,rfl⟩ := lookupMember found
          have ids : storedIds { m.store with entries := renew OwnedEntry.responseId m.store.entries entry } =
              (m.store.entries.filter (·.responseId != entry.responseId)).map OwnedEntry.responseId ++ [entry.responseId] := by
            rw [storedIds,renew,List.map_append]
            rfl
          change (storedIds _).Sublist (renew id recent entry.responseId)
          rw [ids]
          refine renewedOrder ((List.filter_sublist.map _).trans order) fun member => ?_
          obtain ⟨e,inside,same⟩ := List.mem_map.mp member
          have apart := (List.mem_filter.mp inside).2
          rw [same,bne_self_eq_false] at apart
          contradiction
  | delete responseId owner =>
    rw [Machine.step,MemoryStore.delete]
    cases found : lookup OwnedEntry.responseId m.store.entries responseId with
    | none => exact order
    | some entry =>
      dsimp only
      split
      · exact order
      · exact (List.filter_sublist.map _).trans order
  | prune => exact ((pruneEntries m.store m.now ▸ List.filter_sublist : (m.store.prune m.now).1.entries.Sublist _).map _).trans order
  | size => exact ((pruneEntries m.store m.now ▸ List.filter_sublist : (m.store.prune m.now).1.entries.Sublist _).map _).trans order
  | advance ms => exact order

theorem runOrder {m : Machine} (sound : m.store.Sound) {recent : List JsString} (order : (storedIds m.store).Sublist recent)
    (ops : List StoreOp) : (storedIds (m.run ops).store).Sublist (recencyFrom m recent ops) := by
  induction ops generalizing m recent with
  | nil => exact order
  | cons op rest ih => exact ih (stepSound sound op) (usedOrder sound order op)

theorem gotLive {s : MemoryStore} {responseId : JsString} {owner : Option JsString} {now : Int} {entry : OwnedEntry}
    (got : (s.get responseId owner now).1 = some entry) : entry.expired now = false := by
  unfold MemoryStore.get at got
  cases found : lookup OwnedEntry.responseId s.entries responseId with
  | none =>
    rw [found] at got
    cases got
  | some held =>
    rw [found] at got
    dsimp only at got
    split at got
    · cases got
    · split at got
      · cases got
      · rename_i live _
        cases got
        exact Bool.not_eq_true _ ▸ live

/-- In every run the total is the sum of the sizes and both caps hold, entries stand in the order they were last used,
what is got is live, and a put lets go of the fewest entries at the front that make room. -/
theorem storeKept (now : Int) (ops : List StoreOp) : ((startedAt now).run ops).store.Sound ∧
    (storedIds ((startedAt now).run ops).store).Sublist (recencyFrom (startedAt now) [] ops) ∧
    (∀ responseId owner entry, (((startedAt now).run ops).store.get responseId owner ((startedAt now).run ops).now).1 = some entry →
      entry.expired ((startedAt now).run ops).now = false) ∧
    ∀ entry owner t, ((startedAt now).run ops).store.put entry owner ((startedAt now).run ops).now = .ok t →
      Evicts (others ((startedAt now).run ops).store entry.responseId ((startedAt now).run ops).now) (MemoryStore.bound entry owner) t := by
  have sound := runSound (m := startedAt now) emptySound ops
  exact ⟨sound,runOrder emptySound (List.Sublist.refl _) ops,fun _ _ _ got => gotLive got,fun _ _ _ ok => (putSound sound ok).2⟩

/- The owner an operation is performed with; a put's may come with its entry. -/
def StoreOp.caller : StoreOp → Option JsString
  | .put entry owner => (MemoryStore.bound entry owner).owner
  | .get _ owner => owner
  | .delete _ owner => owner
  | _ => none

/- What an owner gets of the entries it owns, now and later, is what it was before the operation. -/
def Undisturbed (a : JsString) (m : Machine) (op : StoreOp) : Prop :=
  ∀ responseId held, lookup OwnedEntry.responseId m.store.entries responseId = some held → held.owner = some a → ∀ later : Nat,
    ((m.step op).store.get responseId (some a) ((m.step op).now + later)).1 = (m.store.get responseId (some a) (m.now + later)).1

/- No operation of another owner disturbs one. -/
def Isolated (a : JsString) (m : Machine) (ops : List StoreOp) : Prop :=
  ∀ before op after, ops = before ++ op :: after → ∀ b, op.caller = some b → b ≠ a → Undisturbed a (m.run before) op

/- A put finds room beside the live entries. -/
def Roomy (m : Machine) (ops : List StoreOp) : Prop :=
  ∀ before entry owner after, ops = before ++ .put entry owner :: after → entry.bytes ≤ storeMaxBytes →
    Fits entry.bytes (others (m.run before).store entry.responseId (m.run before).now)

/- Another owner puts a response under the id of a live entry of this one. -/
def Seizes (a : JsString) (m : Machine) (op : StoreOp) : Prop :=
  ∃ entry owner b held, op = .put entry owner ∧ op.caller = some b ∧ b ≠ a ∧ entry.bytes ≤ storeMaxBytes ∧
    lookup OwnedEntry.responseId m.store.entries entry.responseId = some held ∧ held.owner = some a ∧ held.expired m.now = false

def NeverSeized (a : JsString) (m : Machine) (ops : List StoreOp) : Prop :=
  ∀ before op after, ops = before ++ op :: after → ¬Seizes a (m.run before) op

theorem gotEntry (s : MemoryStore) (responseId : JsString) (owner : Option JsString) (now : Int) : (s.get responseId owner now).1 =
    (lookup OwnedEntry.responseId s.entries responseId).filter fun e => !e.expired now && !e.foreign owner := by
  unfold MemoryStore.get
  cases found : lookup OwnedEntry.responseId s.entries responseId with
  | none => rfl
  | some entry =>
    rw [Option.filter_some]
    dsimp only
    cases gone : entry.expired now with
    | true => rfl
    | false => cases kept : entry.foreign owner <;> rfl

theorem expiredLater {entry : OwnedEntry} {now : Int} (gone : entry.expired now = true) (later : Nat) : entry.expired (now + later) = true := by
  unfold OwnedEntry.expired at gone ⊢
  have := of_decide_eq_true gone
  exact decide_eq_true (by omega)

theorem ownedNotForeign {entry : OwnedEntry} {a b : JsString} (owned : entry.owner = some a) (apart : b ≠ a) :
    entry.foreign (some b) = true ∧ entry.foreign (some a) = false := by
  unfold OwnedEntry.foreign
  rw [owned]
  exact ⟨by simpa using apart,by simp⟩

theorem lookupWithout {entries : List OwnedEntry} (distinct : (entries.map OwnedEntry.responseId).Nodup) {gone id : JsString} (apart : gone ≠ id) :
    lookup OwnedEntry.responseId (entries.filter (·.responseId != gone)) id = lookup OwnedEntry.responseId entries id := by
  rw [lookupFilter distinct]
  cases found : lookup OwnedEntry.responseId entries id with
  | none => rfl
  | some e =>
    obtain ⟨-,rfl⟩ := lookupMember found
    exact if_pos (bne_iff_ne.mpr (Ne.symm apart))

/- The new entry hides whatever stood under its id. -/
theorem putOwn {s t : MemoryStore} (sound : s.Sound) {entry : OwnedEntry} {owner : Option JsString} {now : Int}
    (ok : s.put entry owner now = .ok t) : lookup OwnedEntry.responseId t.entries entry.responseId = some (MemoryStore.bound entry owner) := by
  have own := boundKeeps entry owner
  obtain ⟨sound',n,entries,-⟩ := putSound sound ok
  rw [← own.1]
  exact lookupUnique sound'.distinct (entries ▸ List.mem_append_right _ List.mem_cons_self)

theorem putOther {s t : MemoryStore} (sound : s.Sound) {entry : OwnedEntry} {owner : Option JsString} {now : Int}
    (ok : s.put entry owner now = .ok t) (room : Fits entry.bytes (others s entry.responseId now)) {id : JsString}
    (apart : entry.responseId ≠ id) : lookup OwnedEntry.responseId t.entries id =
      (lookup OwnedEntry.responseId s.entries id).filter fun e => !e.expired now := by
  obtain ⟨sameId,sameBytes⟩ := boundKeeps entry owner
  obtain ⟨-,n,entries,-,least⟩ := putSound sound ok
  have first : n = 0 := by
    by_contra more
    exact least 0 (by omega) (by rw [sameBytes]; exact room)
  have renewed : t.entries = renew OwnedEntry.responseId (s.entries.filter fun e => !e.expired now) (MemoryStore.bound entry owner) := by
    rw [entries,first,renew,sameId]
    rfl
  rw [renewed,lookupRenew,sameId,if_neg (by simpa using apart),lookupFilter sound.distinct]

theorem putSmall (s : MemoryStore) {entry : OwnedEntry} (owner : Option JsString) (now : Int) (small : entry.bytes ≤ storeMaxBytes) :
    ∃ t, s.put entry owner now = .ok t := by
  have fits : ¬storeMaxBytes < (MemoryStore.bound entry owner).bytes := by
    rw [(boundKeeps entry owner).2]
    exact Nat.not_lt.mpr small
  unfold MemoryStore.put
  dsimp only
  rw [if_neg fits]
  exact ⟨_,rfl⟩

theorem putLarge (s : MemoryStore) {entry : OwnedEntry} (owner : Option JsString) (now : Int) (large : ¬entry.bytes ≤ storeMaxBytes) :
    (s.put entry owner now).toOption = none := by
  have full : storeMaxBytes < (MemoryStore.bound entry owner).bytes := by
    rw [(boundKeeps entry owner).2]
    exact Nat.not_le.mp large
  unfold MemoryStore.put
  dsimp only
  rw [if_pos full]
  rfl

theorem seizedDisturbs {a : JsString} {m : Machine} (sound : m.store.Sound) {op : StoreOp} (seizes : Seizes a m op) : ¬Undisturbed a m op := by
  obtain ⟨entry,owner,b,held,rfl,called,apart,small,found,owned,live⟩ := seizes
  intro same
  have before : (m.store.get entry.responseId (some a) (m.now + (0 : Nat))).1 = some held := by
    rw [gotEntry,found,Int.natCast_zero,Int.add_zero,Option.filter_some,live,(ownedNotForeign owned apart).2]
    rfl
  obtain ⟨t,stored⟩ := putSmall m.store owner m.now small
  have after := same entry.responseId held found owned 0
  rw [before,Machine.step,stored,gotEntry] at after
  have own := putOwn sound stored
  change Option.filter _ (lookup OwnedEntry.responseId t.entries entry.responseId) = _ at after
  rw [own,Option.filter_some,(ownedNotForeign called (Ne.symm apart)).1,Bool.not_true,Bool.and_false] at after
  cases after

/- What is looked up under the id of an owned entry after an operation of another caller. -/
theorem lookupStays {a b : JsString} {m : Machine} (sound : m.store.Sound) {op : StoreOp} (called : op.caller = some b) (apart : b ≠ a)
    (kept : ¬Seizes a m op)
    (room : ∀ entry owner, op = .put entry owner → entry.bytes ≤ storeMaxBytes → Fits entry.bytes (others m.store entry.responseId m.now))
    {id : JsString} {held : OwnedEntry} (found : lookup OwnedEntry.responseId m.store.entries id = some held) (owned : held.owner = some a) :
    lookup OwnedEntry.responseId (m.step op).store.entries id = some held ∨
      held.expired m.now = true ∧ ∀ e, lookup OwnedEntry.responseId (m.step op).store.entries id = some e → e.owner = some b := by
  cases op with
  | put entry owner =>
    by_cases small : entry.bytes ≤ storeMaxBytes
    · obtain ⟨t,stored⟩ := putSmall m.store owner m.now small
      rw [Machine.step,stored]
      change lookup OwnedEntry.responseId t.entries id = some held ∨
        _ ∧ ∀ e, lookup OwnedEntry.responseId t.entries id = some e → e.owner = some b
      by_cases own : entry.responseId = id
      · subst own
        rw [putOwn sound stored]
        refine .inr ⟨?_,fun e same => Option.some.inj same ▸ called⟩
        by_contra live
        exact kept ⟨entry,owner,b,held,rfl,called,apart,small,found,owned,Bool.not_eq_true _ ▸ live⟩
      · rw [putOther sound stored (room entry owner rfl small) own,found,Option.filter_some]
        cases gone : held.expired m.now with
        | true => exact .inr ⟨rfl,fun e same => by cases same⟩
        | false => exact .inl rfl
    · rw [Machine.step,putLarge m.store owner m.now small]
      exact .inl found
  | get id' owner =>
    cases called
    rw [Machine.step,MemoryStore.get]
    dsimp only
    cases found' : lookup OwnedEntry.responseId m.store.entries id' with
    | none => exact .inl found
    | some entry =>
      obtain ⟨member,rfl⟩ := lookupMember found'
      dsimp only
      by_cases same : entry.responseId = id
      · subst same
        cases found.symm.trans found'
        cases gone : held.expired m.now with
        | true =>
          refine .inr ⟨rfl,fun e there => ?_⟩
          have apart' := (List.mem_filter.mp (lookupMember there).1).2
          rw [(lookupMember there).2,bne_self_eq_false] at apart'
          contradiction
        | false =>
          rw [if_neg Bool.false_ne_true,if_pos (ownedNotForeign owned apart).1]
          exact .inl found
      · split
        · exact .inl ((lookupWithout sound.distinct same).trans found)
        · split
          · exact .inl found
          · refine .inl ((lookupRenew m.store.entries entry id).trans ?_)
            rw [if_neg (by simpa using same)]
            exact found
  | delete id' owner =>
    cases called
    rw [Machine.step,MemoryStore.delete]
    dsimp only
    cases found' : lookup OwnedEntry.responseId m.store.entries id' with
    | none => exact .inl found
    | some entry =>
      obtain ⟨member,rfl⟩ := lookupMember found'
      dsimp only
      split
      · exact .inl found
      · rename_i own
        refine .inl ((lookupWithout sound.distinct fun same => ?_).trans found)
        subst same
        cases found.symm.trans found'
        exact own (ownedNotForeign owned apart).1
  | prune => cases called
  | size => cases called
  | advance ms => cases called

theorem callerKeepsTime {m : Machine} {op : StoreOp} {b : JsString} (called : op.caller = some b) : (m.step op).now = m.now := by
  cases op <;> first | rfl | cases called

theorem strangerUndisturbing {a b : JsString} {m : Machine} (sound : m.store.Sound) {op : StoreOp} (called : op.caller = some b) (apart : b ≠ a)
    (kept : ¬Seizes a m op)
    (room : ∀ entry owner, op = .put entry owner → entry.bytes ≤ storeMaxBytes → Fits entry.bytes (others m.store entry.responseId m.now)) :
    Undisturbed a m op := by
  intro id held found owned later
  rw [gotEntry,gotEntry,callerKeepsTime called,found]
  rcases lookupStays sound called apart kept room found owned with same | ⟨gone,theirs⟩
  · rw [same]
  · rw [Option.filter_some,expiredLater gone later]
    cases after : lookup OwnedEntry.responseId (m.step op).store.entries id with
    | none => rfl
    | some e =>
      rw [Option.filter_some,(ownedNotForeign (theirs e after) (Ne.symm apart)).1,Bool.not_true,Bool.and_false]
      rfl

/-- Below the caps an owner's entries are disturbed by nothing but another owner's put under the id of one that is live. -/
theorem ownersIsolated {a : JsString} {now : Int} {ops : List StoreOp} (roomy : Roomy (startedAt now) ops) :
    Isolated a (startedAt now) ops ↔ NeverSeized a (startedAt now) ops := by
  have sound (before : List StoreOp) : ((startedAt now).run before).store.Sound := runSound (m := startedAt now) emptySound before
  constructor
  · intro isolated before op after split seizes
    obtain ⟨entry,owner,b,held,rfl,called,apart,rest⟩ := seizes
    exact seizedDisturbs (sound before) ⟨entry,owner,b,held,rfl,called,apart,rest⟩ (isolated before _ after split b called apart)
  · intro never before op after split b called apart
    exact strangerUndisturbing (sound before) called apart (never before op after split)
      fun entry owner same small => roomy before entry owner after (same ▸ split) small

def smallEntry (responseId : JsString) (owner : Option JsString) : OwnedEntry := ⟨responseId,0,10,owner,⟨[]⟩⟩

def apartRun : List StoreOp := [.put (smallEntry (js "r1") none) (some (js "ann")),.put (smallEntry (js "r2") none) (some (js "bob"))]

def seizedRun : List StoreOp := [.put (smallEntry (js "r1") none) (some (js "ann")),.put (smallEntry (js "r1") none) (some (js "bob"))]

/- The places an operation can stand at in a run of two. -/
theorem twoPlaces {before after : List StoreOp} {op first second : StoreOp} (split : [first,second] = before ++ op :: after) :
    before = [] ∧ op = first ∨ before = [first] ∧ op = second := by
  cases before with
  | nil => exact .inl ⟨rfl,(List.cons.inj split).1.symm⟩
  | cons one rest =>
    obtain ⟨rfl,later⟩ := List.cons.inj split
    cases rest with
    | nil => exact .inr ⟨rfl,(List.cons.inj later).1.symm⟩
    | cons two more => exact absurd (List.cons.inj later).2.symm (List.append_ne_nil_of_right_ne_nil more (List.cons_ne_nil _ _))

theorem fewFit {entries : List OwnedEntry} (few : entries.length ≤ 1) (light : ∀ e ∈ entries, e.bytes = 10) : Fits 10 entries := by
  cases entries with
  | nil => exact ⟨by decide,by decide⟩
  | cons e rest =>
    cases rest with
    | cons _ _ => simp at few
    | nil =>
      have size : heldBytes [e] = 10 := by simp [heldBytes,light e List.mem_cons_self]
      exact ⟨Nat.lt_of_le_of_lt few (by decide),by rw [size]; decide⟩

theorem apartIsolated : Isolated (js "ann") (startedAt 0) apartRun ↔ NeverSeized (js "ann") (startedAt 0) apartRun := by
  refine ownersIsolated fun before entry owner after split _ => ?_
  rcases twoPlaces split with ⟨rfl,same⟩ | ⟨rfl,same⟩
  · cases same
    exact fewFit (by decide) (by decide)
  · cases same
    exact fewFit (by decide) (by decide)

/- Bob's put under the id of Ann's response leaves Ann without it. -/
theorem annSeized : ((startedAt 0).run (seizedRun.take 1)).store.entries.map (fun e => (e.responseId,e.owner)) = [(js "r1",some (js "ann"))] ∧
    (((startedAt 0).run (seizedRun.take 1)).store.get (js "r1") (some (js "ann")) 0).1.isSome = true ∧
    (((startedAt 0).run seizedRun).store.get (js "r1") (some (js "ann")) 0).1.isSome = false ∧
    ¬Isolated (js "ann") (startedAt 0) seizedRun := by
  have before : (((startedAt 0).run (seizedRun.take 1)).store.get (js "r1") (some (js "ann")) 0).1.isSome = true := by decide
  have after : (((startedAt 0).run seizedRun).store.get (js "r1") (some (js "ann")) 0).1.isSome = false := by decide
  refine ⟨by decide,before,after,fun isolated => ?_⟩
  have undisturbed := isolated [.put (smallEntry (js "r1") none) (some (js "ann"))] (.put (smallEntry (js "r1") none) (some (js "bob"))) [] rfl
    (js "bob") rfl (by decide)
  have held : lookup OwnedEntry.responseId ((startedAt 0).run (seizedRun.take 1)).store.entries (js "r1") =
      some { smallEntry (js "r1") none with owner := some (js "ann") } := by rfl
  have same := congrArg Option.isSome (undisturbed (js "r1") _ held rfl 0)
  exact Bool.false_ne_true (after.symm.trans (same.trans before))

end Northstar.Web
