import Northstar.Program

/-! The broker's state file (broker-state-store.ts): one document in memory, one on disk,
and a chain of writes between them. A call changes memory before it awaits its write, so
what it wrote is decided when the write is queued and its answer when the write ends. -/
namespace Northstar.Runtime

inductive JobReceiptState where
  | pending | dispatched | completed | outcomeUnknown
  deriving DecidableEq, Repr

structure JobSubmissionReceipt where
  jobId : String
  clientId : String
  requestId : String
  submittedAt : Int
  state : Option JobReceiptState := none
  deriving DecidableEq, Repr

structure StateDocument where
  epoch : String
  receipts : List JobSubmissionReceipt
  mutationIds : List String
  deriving DecidableEq, Repr

def safeInteger (n : Int) : Bool := -(2^53 - 1) ≤ n && n ≤ 2^53 - 1

def validReceipt (receipt : JobSubmissionReceipt) : Bool := safeInteger receipt.submittedAt

def epochChar (c : Char) : Bool := c.isAlphanum || c = '_' || c = '-'

def validEpoch (epoch : String) : Bool := 16 ≤ epoch.toList.length && epoch.toList.all epochChar

def validDocument (maxEntries : Nat) (d : StateDocument) : Bool :=
  validEpoch d.epoch && d.receipts.length ≤ maxEntries && d.receipts.all validReceipt &&
    d.mutationIds.length ≤ maxEntries

/- What newEpoch draws. -/
abbrev Epoch := { epoch : String // validEpoch epoch }

/- A queued write and the call that awaits it. -/
inductive Awaits where
  | opening
  | claim (mutationId : String) (call : Nat)
  | submission
  deriving DecidableEq, Repr

structure Write where
  payload : StateDocument
  awaits : Awaits
  deriving DecidableEq, Repr

/- Claims are numbered as they pass the duplicate check. -/
structure BrokerStateStore where
  memory : Option StateDocument := none
  disk : Option StateDocument := none
  writes : List Write := []
  calls : Nat := 0
  granted : List (String × Nat) := []
  failed : List (String × Nat) := []
  deriving DecidableEq, Repr

inductive ClaimReply where
  | notOpen
  | duplicate
  | awaits (call : Nat)
  deriving DecidableEq, Repr

namespace BrokerStateStore

/- The last entries of a list within the bound. -/
def bounded {α : Type} (maxEntries : Nat) (items : List α) : List α :=
  items.drop (items.length - maxEntries)

def openStore (maxReceipts : Nat) (epoch : Epoch) (s : BrokerStateStore) : BrokerStateStore :=
  let document := s.disk.getD ⟨epoch.1,[],[]⟩
  if s.disk.all (validDocument maxReceipts) then
    let next := { document with epoch := epoch.1 }
    { s with memory := some next, writes := s.writes ++ [⟨next,.opening⟩] }
  else s

/- The process is gone with its memory and its queued writes; another loads the file. -/
def restart (maxReceipts : Nat) (epoch : Epoch) (s : BrokerStateStore) : BrokerStateStore :=
  openStore maxReceipts epoch { s with memory := none, writes := [] }

def claimMutation (maxReceipts : Nat) (mutationId : String) (s : BrokerStateStore) :
    BrokerStateStore × ClaimReply := match s.memory with
  | none => (s,.notOpen)
  | some state =>
      if state.mutationIds.contains mutationId then (s,.duplicate)
      else
        let next := { state with mutationIds := bounded maxReceipts (state.mutationIds ++ [mutationId]) }
        let queued := s.writes ++ [⟨next,.claim mutationId s.calls⟩]
        ({ s with memory := some next, writes := queued, calls := s.calls + 1 },.awaits s.calls)

def recordJobSubmission (maxReceipts : Nat) (receipt : JobSubmissionReceipt) (s : BrokerStateStore) :
    BrokerStateStore := match s.memory with
  | none => s
  | some state =>
      if !validReceipt receipt then s
      else if state.receipts.any fun r => r.clientId = receipt.clientId ∧ r.requestId = receipt.requestId then s
      else
        let next := { state with receipts := bounded maxReceipts (state.receipts ++ [receipt]) }
        { s with memory := some next, writes := s.writes ++ [⟨next,.submission⟩] }

/- The head of the write chain ends: the file is replaced as a whole or left alone. -/
def settle (written : Bool) (s : BrokerStateStore) : BrokerStateStore := match s.writes with
  | [] => s
  | write :: rest =>
      let disk := if written then some write.payload else s.disk
      match write.awaits, written with
      | .claim mutationId call, true =>
          { s with writes := rest, disk := disk, granted := s.granted ++ [(mutationId,call)] }
      | .claim mutationId call, false =>
          { s with writes := rest, disk := disk, failed := s.failed ++ [(mutationId,call)] }
      | _, _ => { s with writes := rest, disk := disk }

end BrokerStateStore

inductive StoreEvent where
  | restart (epoch : Epoch)
  | claimMutation (mutationId : String)
  | recordJobSubmission (receipt : JobSubmissionReceipt)
  | settle (written : Bool)
  deriving DecidableEq, Repr

namespace BrokerStateStore

def step (maxReceipts : Nat) (s : BrokerStateStore) : StoreEvent → BrokerStateStore
  | .restart epoch => s.restart maxReceipts epoch
  | .claimMutation mutationId => (s.claimMutation maxReceipts mutationId).1
  | .recordJobSubmission receipt => s.recordJobSubmission maxReceipts receipt
  | .settle written => s.settle written

def run (maxReceipts : Nat) (events : List StoreEvent) : BrokerStateStore :=
  events.foldl (step maxReceipts) {}

/- A document that holds an id with at most so many others after it. -/
def Recent (mutationId : String) (since : Nat) (d : StateDocument) : Prop :=
  ∃ before after, d.mutationIds = before ++ mutationId :: after ∧ after.length ≤ since

theorem recentLater {mutationId since since' d} (h : Recent mutationId since d) (later : since ≤ since') :
    Recent mutationId since' d := by
  obtain ⟨before,after,ids,short⟩ := h
  exact ⟨before,after,ids,Nat.le_trans short later⟩

/- One more id pushes an id out only from the far end of the bound. -/
theorem recentPush {mutationId since} {d : StateDocument} (h : Recent mutationId since d) (maxReceipts : Nat)
    (room : since + 1 < maxReceipts) (new : String) : Recent mutationId (since + 1)
      { d with mutationIds := bounded maxReceipts (d.mutationIds ++ [new]) } := by
  obtain ⟨before,after,ids,short⟩ := h
  refine ⟨before.drop (d.mutationIds.length + 1 - maxReceipts),after ++ [new],?_,?_⟩
  · have cut : d.mutationIds.length + 1 - maxReceipts ≤ before.length := by
      rw [ids,List.length_append,List.length_cons]
      omega
    simp only [bounded,List.length_append,List.length_singleton]
    rw [ids,List.append_assoc,List.drop_append_of_le_length (by rw [← ids]; exact cut)]
    simp
  · simpa using short

theorem recentNew (mutationId : String) (d : StateDocument) {maxReceipts : Nat} (room : 0 < maxReceipts) :
    Recent mutationId 0 { d with mutationIds := bounded maxReceipts (d.mutationIds ++ [mutationId]) } := by
  refine ⟨d.mutationIds.drop (d.mutationIds.length + 1 - maxReceipts),[],?_,Nat.le_refl _⟩
  simp only [bounded,List.length_append,List.length_singleton]
  exact List.drop_append_of_le_length (by omega)

/- The documents a later claim can find: those queued and the one in memory. -/
def ahead (writes : List Write) (memory : Option StateDocument) : List StateDocument :=
  writes.map (·.payload) ++ memory.toList

def Protects (maxReceipts calls : Nat) (claim : String × Nat) (docs : List StateDocument) : Prop :=
  calls ≤ claim.2 + maxReceipts → ∀ d ∈ docs, Recent claim.1 (calls - (claim.2 + 1)) d

theorem protectsFewer {maxReceipts calls claim} {docs fewer : List StateDocument}
    (h : Protects maxReceipts calls claim docs) (among : ∀ d ∈ fewer, d ∈ docs) :
    Protects maxReceipts calls claim fewer :=
  fun recent d member => h recent d (among d member)

def claimOf (write : Write) : Option (String × Nat) := match write.awaits with
  | .claim mutationId call => some (mutationId,call)
  | _ => none

structure Kept (maxReceipts : Nat) (s : BrokerStateStore) : Prop where
  valid : ∀ d ∈ s.disk.toList ++ ahead s.writes s.memory, validDocument maxReceipts d
  stored : s.granted ≠ [] → s.disk.isSome
  granted : ∀ claim ∈ s.granted, Protects maxReceipts s.calls claim (s.disk.toList ++ ahead s.writes s.memory)
  queued : ∀ before write after claim, s.writes = before ++ write :: after → claimOf write = some claim →
    Protects maxReceipts s.calls claim (ahead (write :: after) s.memory)
  numbered : ∀ call ∈ s.granted.map (·.2) ++ s.failed.map (·.2) ++ (s.writes.filterMap claimOf).map (·.2),
    call < s.calls
  once : (s.granted.map (·.2) ++ s.failed.map (·.2) ++ (s.writes.filterMap claimOf).map (·.2)).Nodup

theorem keptPush {maxReceipts calls : Nat} {s : BrokerStateStore} {state next : StateDocument}
    {awaits : Awaits} (h : Kept maxReceipts s) (loaded : s.memory = some state)
    (valid : validDocument maxReceipts next) (later : s.calls ≤ calls)
    (carries : ∀ claim : String × Nat, claim.2 < s.calls → calls ≤ claim.2 + maxReceipts →
      Recent claim.1 (s.calls - (claim.2 + 1)) state → Recent claim.1 (calls - (claim.2 + 1)) next)
    (own : ∀ claim, claimOf ⟨next,awaits⟩ = some claim → claim.2 = s.calls ∧ calls = s.calls + 1 ∧
      (0 < maxReceipts → Recent claim.1 0 next)) :
    Kept maxReceipts { s with memory := some next, writes := s.writes ++ [⟨next,awaits⟩], calls := calls } := by
  have old : ∀ claim docs, claim.2 < s.calls → Protects maxReceipts s.calls claim (docs ++ s.memory.toList) →
      Protects maxReceipts calls claim (docs ++ [next,next]) := by
    intro claim docs before kept recent d member
    have kept := kept (Nat.le_trans later recent)
    cases List.mem_append.mp member with
    | inl inside => exact recentLater (kept d (List.mem_append_left _ inside)) (Nat.sub_le_sub_right later _)
    | inr new =>
      have state := kept state (List.mem_append_right _ (by simp [loaded]))
      have same : d = next := by simpa using new
      exact same ▸ carries claim before recent state
  have ends (writes : List Write) : ahead (writes ++ [⟨next,awaits⟩]) (some next) =
      writes.map (·.payload) ++ [next,next] := by simp [ahead]
  constructor
  · intro d member
    simp only [ends,← List.append_assoc] at member
    cases List.mem_append.mp member with
    | inl inside =>
      apply h.valid d
      rw [ahead,← List.append_assoc]
      exact List.mem_append_left _ inside
    | inr new =>
      have same : d = next := by simpa using new
      exact same ▸ valid
  · exact h.stored
  · intro claim member
    have before := h.numbered claim.2 (List.mem_append_left _
      (List.mem_append_left _ (List.mem_map.mpr ⟨claim,member,rfl⟩)))
    have kept := h.granted claim member
    simp only [ends,← List.append_assoc]
    rw [ahead,← List.append_assoc] at kept
    exact old claim _ before kept
  · intro before write after claim split_ claimed
    cases List.eq_nil_or_concat after with
    | inl none =>
      subst none
      obtain ⟨_,same⟩ := List.append_inj' split_ rfl
      cases List.singleton_inj.mp same
      obtain ⟨number,counted,recent⟩ := own claim claimed
      intro room d member
      have room : calls ≤ claim.2 + maxReceipts := room
      have only : d = next := by simpa [ahead] using member
      rw [only,number,counted,Nat.sub_self]
      exact recent (by omega)
    | inr some_ =>
      obtain ⟨rest,last,rfl⟩ := some_
      rw [List.concat_eq_append] at split_ ⊢
      rw [← List.cons_append,← List.append_assoc] at split_
      obtain ⟨writes,same⟩ := List.append_inj' split_ rfl
      cases List.singleton_inj.mp same
      have number := h.numbered claim.2 (List.mem_append_right _ (List.mem_map.mpr
        ⟨claim,List.mem_filterMap.mpr ⟨write,writes ▸ by simp,claimed⟩,rfl⟩))
      have kept := h.queued before write rest claim writes claimed
      rw [← List.cons_append,ends]
      exact old claim _ number kept
  · intro call member
    simp only [List.filterMap_append,List.map_append,← List.append_assoc] at member
    cases List.mem_append.mp member with
    | inl inside => exact Nat.lt_of_lt_of_le (h.numbered call inside) later
    | inr new =>
      obtain ⟨claim,made,rfl⟩ := List.mem_map.mp new
      obtain ⟨write,only,claimed⟩ := List.mem_filterMap.mp made
      obtain ⟨number,counted,_⟩ := own claim (List.mem_singleton.mp only ▸ claimed)
      dsimp only
      omega
  · simp only [List.filterMap_append,List.map_append,← List.append_assoc]
    apply h.once.append
    · cases claimed : claimOf ⟨next,awaits⟩ <;> simp [claimed]
    · intro call inside new
      obtain ⟨claim,made,rfl⟩ := List.mem_map.mp new
      obtain ⟨write,only,claimed⟩ := List.mem_filterMap.mp made
      obtain ⟨number,_,_⟩ := own claim (List.mem_singleton.mp only ▸ claimed)
      have before := h.numbered claim.2 inside
      omega

theorem boundedLength {α : Type} (maxEntries : Nat) (items : List α) :
    (bounded maxEntries items).length ≤ maxEntries := by
  rw [bounded,List.length_drop]
  omega

theorem validParts {maxReceipts : Nat} {d : StateDocument} : validDocument maxReceipts d ↔
    validEpoch d.epoch ∧ d.receipts.length ≤ maxReceipts ∧ d.receipts.all validReceipt ∧
      d.mutationIds.length ≤ maxReceipts := by
  simp only [validDocument,Bool.and_eq_true,decide_eq_true_eq,and_assoc]

theorem keptRestart {maxReceipts : Nat} {s : BrokerStateStore} (epoch : Epoch) (h : Kept maxReceipts s) :
    Kept maxReceipts (s.restart maxReceipts epoch) := by
  have file : s.disk.all (validDocument maxReceipts) := by
    cases stored : s.disk with
    | none => rfl
    | some d => exact h.valid d (by simp [stored])
  have next : validDocument maxReceipts { s.disk.getD ⟨epoch.1,[],[]⟩ with epoch := epoch.1 } := by
    cases stored : s.disk with
    | none => exact validParts.mpr ⟨epoch.2,Nat.zero_le _,rfl,Nat.zero_le _⟩
    | some d =>
      have parts := validParts.mp (h.valid d (by simp [stored]))
      exact validParts.mpr ⟨epoch.2,parts.2⟩
  unfold restart openStore
  dsimp only
  rw [if_pos file]
  constructor
  · intro d member
    cases List.mem_append.mp member with
    | inl stored => exact h.valid d (List.mem_append_left _ stored)
    | inr new =>
      have same : d = { s.disk.getD ⟨epoch.1,[],[]⟩ with epoch := epoch.1 } := by simpa [ahead] using new
      exact same ▸ next
  · exact h.stored
  · intro claim member recent d found
    have kept := h.granted claim member recent
    cases List.mem_append.mp found with
    | inl stored => exact kept d (List.mem_append_left _ stored)
    | inr new =>
      have same : d = { s.disk.getD ⟨epoch.1,[],[]⟩ with epoch := epoch.1 } := by simpa [ahead] using new
      obtain ⟨file,stored⟩ := Option.isSome_iff_exists.mp (h.stored (List.ne_nil_of_mem member))
      rw [same,stored]
      exact kept file (by simp [stored])
  · intro before write after claim split_ claimed
    have claims : claim ∈ (before ++ write :: after).filterMap claimOf :=
      List.mem_filterMap.mpr ⟨write,by simp,claimed⟩
    rw [← split_] at claims
    exact (List.not_mem_nil claims).elim
  · intro call member
    apply h.numbered call
    cases List.mem_append.mp member with
    | inl inside => exact List.mem_append_left _ inside
    | inr none_ => exact (List.not_mem_nil none_).elim
  · have ended := h.once.sublist (List.sublist_append_left _ _)
    rw [← List.append_nil (_ ++ _)] at ended
    exact ended

theorem keptClaim {maxReceipts : Nat} {s : BrokerStateStore} (mutationId : String) (h : Kept maxReceipts s) :
    Kept maxReceipts (s.claimMutation maxReceipts mutationId).1 := by
  unfold claimMutation
  split
  · exact h
  rename_i state loaded
  split
  · exact h
  have parts := validParts.mp (h.valid state (by simp [ahead,loaded]))
  apply keptPush h loaded
  · exact validParts.mpr ⟨parts.1,parts.2.1,parts.2.2.1,boundedLength _ _⟩
  · exact Nat.le_succ _
  · intro claim before recent kept
    have more := recentPush kept maxReceipts (by omega) mutationId
    exact recentLater more (by omega)
  · intro claim claimed
    cases Option.some.inj claimed
    exact ⟨rfl,rfl,recentNew mutationId state⟩

theorem keptSubmission {maxReceipts : Nat} {s : BrokerStateStore} (receipt : JobSubmissionReceipt)
    (h : Kept maxReceipts s) : Kept maxReceipts (s.recordJobSubmission maxReceipts receipt) := by
  unfold recordJobSubmission
  split
  · exact h
  rename_i state loaded
  split
  · exact h
  rename_i accepted
  split
  · exact h
  have parts := validParts.mp (h.valid state (by simp [ahead,loaded]))
  have receipts : (bounded maxReceipts (state.receipts ++ [receipt])).all validReceipt := by
    rw [List.all_eq_true]
    intro r member
    cases List.mem_append.mp (List.mem_of_mem_drop member) with
    | inl old => exact List.all_eq_true.mp parts.2.2.1 r old
    | inr new => rw [List.mem_singleton.mp new]; simpa using accepted
  apply keptPush h loaded
  · exact validParts.mpr ⟨parts.1,boundedLength _ _,receipts,parts.2.2.2⟩
  · exact Nat.le_refl _
  · exact fun claim _ _ kept => kept
  · exact fun claim claimed => nomatch claimed

theorem keptSettle {maxReceipts : Nat} {s : BrokerStateStore} (written : Bool) (h : Kept maxReceipts s) :
    Kept maxReceipts (s.settle written) := by
  unfold settle
  split
  · exact h
  rename_i write rest queue
  have file : ∀ d ∈ (if written then some write.payload else s.disk).toList ++ ahead rest s.memory,
      d ∈ s.disk.toList ++ ahead s.writes s.memory := by
    intro d member
    rw [queue]
    cases written <;> simp [ahead] at member ⊢ <;> grind
  have held : s.granted ≠ [] → (if written then some write.payload else s.disk).isSome := by
    intro some_
    have stored := h.stored some_
    cases written <;> simp [stored]
  have queued : ∀ before w after claim, rest = before ++ w :: after → claimOf w = some claim →
      Protects maxReceipts s.calls claim (ahead (w :: after) s.memory) :=
    fun before w after claim split_ => h.queued (write :: before) w after claim (by rw [queue,split_]; rfl)
  have valid := fun d member => h.valid d (file d member)
  have granted := fun claim member => protectsFewer (h.granted claim member) file
  have numbered := h.numbered
  have once := h.once
  rw [queue] at numbered once
  dsimp only
  split
  · rename_i mutationId call awaits
    have claimed : claimOf write = some (mutationId,call) := by rw [claimOf,awaits]
    rw [List.filterMap_cons,claimed] at numbered once
    have own := h.queued [] write rest _ queue claimed
    constructor
    · exact valid
    · exact fun _ => rfl
    · intro claim member
      cases List.mem_append.mp member with
      | inl old => exact granted claim old
      | inr new =>
        rw [List.mem_singleton.mp new]
        exact protectsFewer own fun d found => by simpa [ahead] using found
    · exact queued
    · intro n member
      apply numbered n
      simp at member ⊢
      tauto
    · have swap : (s.granted.map (·.2) ++ s.failed.map (·.2) ++
          call :: (rest.filterMap claimOf).map (·.2)).Perm
          ((s.granted ++ [(mutationId,call)]).map (·.2) ++ s.failed.map (·.2) ++
            (rest.filterMap claimOf).map (·.2)) := by
        simp only [List.map_append,List.map_cons,List.map_nil,List.append_assoc,List.singleton_append]
        exact (List.perm_middle).append_left _
      exact swap.nodup once
  · rename_i mutationId call awaits
    have claimed : claimOf write = some (mutationId,call) := by rw [claimOf,awaits]
    rw [List.filterMap_cons,claimed] at numbered once
    constructor
    · exact valid
    · exact held
    · exact granted
    · exact queued
    · intro n member
      apply numbered n
      simp at member ⊢
      tauto
    · simpa using once
  · have fewer := (List.Sublist.refl (s.granted.map (·.2) ++ s.failed.map (·.2))).append
      (((List.sublist_cons_self write rest).filterMap claimOf).map (·.2))
    constructor
    · exact valid
    · exact held
    · exact granted
    · exact queued
    · exact fun n member => numbered n (fewer.subset member)
    · exact once.sublist fewer

theorem keptRun (maxReceipts : Nat) (events : List StoreEvent) : Kept maxReceipts (run maxReceipts events) := by
  apply runInvariant
  · exact ⟨by simp [ahead],by simp,by simp,by simp,by simp,by simp⟩
  · intro s e h
    cases e with
    | restart epoch => exact keptRestart epoch h
    | claimMutation mutationId => exact keptClaim mutationId h
    | recordJobSubmission receipt => exact keptSubmission receipt h
    | settle written => exact keptSettle written h

/-- A claimed id is refused, in every later process, until as many further claims have
been admitted as the store keeps; a claim whose write failed never succeeds, and a failed
write leaves the file as it was. -/
theorem claimsOneShot (maxReceipts : Nat) (events : List StoreEvent) :
    (∀ mutationId call, (mutationId,call) ∈ (run maxReceipts events).granted →
      (run maxReceipts events).calls ≤ call + maxReceipts →
      ((run maxReceipts events).claimMutation maxReceipts mutationId).2 = .duplicate ∨
        (run maxReceipts events).memory = none) ∧
    (∀ mutationId call, (mutationId,call) ∈ (run maxReceipts events).failed →
      ∀ other, (other,call) ∉ (run maxReceipts events).granted) ∧
    ((run maxReceipts events).settle false).disk = (run maxReceipts events).disk := by
  have h := keptRun maxReceipts events
  generalize run maxReceipts events = s at h
  constructor
  · intro mutationId call granted recent
    cases loaded : s.memory with
    | none => exact .inr rfl
    | some state =>
      obtain ⟨before,after,ids,_⟩ := h.granted _ granted recent state (by simp [ahead,loaded])
      have there : state.mutationIds.contains mutationId := by simp [ids]
      refine .inl ?_
      simp only [claimMutation,loaded,if_pos there]
  constructor
  · intro mutationId call failed other granted
    have parts := (List.nodup_append.mp (List.nodup_append.mp h.once).1).2.2
    exact parts call (List.mem_map.mpr ⟨_,granted,rfl⟩) call (List.mem_map.mpr ⟨_,failed,rfl⟩) rfl
  · unfold settle
    split
    · rfl
    dsimp only
    split <;> simp_all

def firstEpoch : Epoch := ⟨"AAAAAAAAAAAAAAAAAAAAAA",by decide⟩

theorem claimsOneShotRestarted :
    ((run 2 [.restart firstEpoch,.claimMutation "one",.settle true,.settle true,.claimMutation "two",
      .restart firstEpoch]).claimMutation 2 "one").2 = .duplicate := by
  have refused := (claimsOneShot 2 [.restart firstEpoch,.claimMutation "one",.settle true,.settle true,
    .claimMutation "two",.restart firstEpoch]).1 "one" 0 (by decide) (by decide)
  exact refused.resolve_right (by decide)

/- Past the bound a claimed id is admitted again; an id whose write failed stays claimed. -/
theorem claimForgotten :
    (¬ ∀ maxReceipts events mutationId call, (mutationId,call) ∈ (run maxReceipts events).granted →
      ∀ again, ((run maxReceipts events).claimMutation maxReceipts mutationId).2 ≠ .awaits again) ∧
    ¬ ∀ maxReceipts events mutationId call, (mutationId,call) ∈ (run maxReceipts events).failed →
      ((run maxReceipts events).claimMutation maxReceipts mutationId).2 ≠ .duplicate := by
  constructor
  · intro always
    exact always 2 [.restart firstEpoch,.claimMutation "one",.settle true,.settle true,
      .claimMutation "two",.claimMutation "three",.settle true,.settle true] "one" 0 (by decide) 3 (by decide)
  · intro always
    exact always 2 [.restart firstEpoch,.claimMutation "one",.settle true,.settle false] "one" 0
      (by decide) (by decide)

end BrokerStateStore
end Northstar.Runtime
