import Northstar.Broker.Tables

/-! What the journal is for, apart from SQL: the committed rows, the starts handed to
the executor, and how far the one mutation being handled has come. Every step the
rows can take is a labelled case; the invariant is proved from the cases alone. -/
namespace Northstar.Broker

/- down: no process, or one that has not finished recovery. -/
inductive Inflight where
  | down
  | idle
  | pending (k : Key)
  | dispatched (k : Key)
  | written (k : Key)
  | cancelling (k : Key)
  deriving DecidableEq, Repr

/- No start is being handled. -/
def Clear (g : Inflight) : Prop := g = .idle ∨ ∃ k, g = .cancelling k

structure Ledger where
  tables : Tables
  started : List Key
  bound : List String
  faults : Nat
  inflight : Inflight

inductive Label where
  | quiet
  | migrate
  | recover
  | claim (k : Key)
  | release (k : Key)
  | dispatch (k : Key)
  | write (k : Key)
  | settle (k : Key) (s : JobState)
  | bind (k : Key) (jobId : String)
  | complete (jobId : String)
  | markUnknown (jobId : String)
  | claimCancel (k : Key)
  | releaseCancel (k : Key)
  | rest
  | halt
  deriving DecidableEq, Repr

namespace Ledger

inductive Step (provisional : Key → String) : Label → Ledger → Ledger → Prop where
  | quiet {l l'} (tables : l'.tables = l.tables) (started : l'.started = l.started)
      (bound : ∀ id ∈ l.bound, id ∈ l'.bound) (faults : l.faults ≤ l'.faults)
      (inflight : l'.inflight = l.inflight) : Step provisional .quiet l l'
  | migrate {t s b f v} :
      Step provisional .migrate ⟨t,s,b,f,.down⟩ ⟨{t with schemaVersion := v},s,b,f,.down⟩
  | recover {t s b f} :
      Step provisional .recover ⟨t,s,b,f,.down⟩ ⟨t.markIncomplete .outcomeUnknown,s,b,f,.idle⟩
  | claim {t s b f r} (named : r.jobId = provisional r.key) (state : r.state = .pending)
      (unclaimed : r.key ∉ t.claimKeys) (fresh : r.jobId ∉ t.jobIds) :
      Step provisional (.claim r.key) ⟨t,s,b,f,.idle⟩
        ⟨(t.addClaim ⟨r.key,.start⟩).addReceipt r,s,b,f,.pending r.key⟩
  | release {t s b f k} : Step provisional (.release k) ⟨t,s,b,f,.pending k⟩
      ⟨(t.removeReceipts k).removeClaims k,s,b,f,.idle⟩
  | dispatch {t s b f k} : Step provisional (.dispatch k) ⟨t,s,b,f,.pending k⟩
      ⟨t.setStateByRequest .dispatched k,s,b,f,.dispatched k⟩
  | write {t s b f k} :
      Step provisional (.write k) ⟨t,s,b,f,.dispatched k⟩ ⟨t,s ++ [k],b,f,.written k⟩
  | settle {t s b f k state g} (reached : g = .dispatched k ∨ g = .written k)
      (final : state = .completed ∨ state = .outcomeUnknown) :
      Step provisional (.settle k state) ⟨t,s,b,f,g⟩ ⟨t.setStateByRequest state k,s,b,f,.idle⟩
  | bind {t s b f k jobId} (unique : (t.bindJob jobId .dispatched k).jobIds.Nodup)
      (issued : jobId ∈ b) :
      Step provisional (.bind k jobId) ⟨t,s,b,f,.written k⟩ ⟨t.bindJob jobId .dispatched k,s,b,f,.idle⟩
  | complete {t s b f g jobId} (clear : Clear g) : Step provisional (.complete jobId) ⟨t,s,b,f,g⟩
      ⟨t.setState .completed jobId,s,b,f,g⟩
  | markUnknown {t s b f g jobId} (clear : Clear g) :
      Step provisional (.markUnknown jobId) ⟨t,s,b,f,g⟩ ⟨t.setState .outcomeUnknown jobId,s,b,f,g⟩
  | claimCancel {t s b f k} (unclaimed : k ∉ t.claimKeys) :
      Step provisional (.claimCancel k) ⟨t,s,b,f,.idle⟩
        ⟨t.addClaim ⟨k,.cancelAndSettle⟩,s,b,f,.cancelling k⟩
  | releaseCancel {t s b f k} : Step provisional (.releaseCancel k) ⟨t,s,b,f,.cancelling k⟩
      ⟨t.removeClaims k,s,b,f,.idle⟩
  | rest {t s b f g} (up : g ≠ .down) (left : ∀ k, g = .pending k → 0 < f) :
      Step provisional .rest ⟨t,s,b,f,g⟩ ⟨t,s,b,f,.idle⟩
  | halt {t s b f g} : Step provisional .halt ⟨t,s,b,f,g⟩ ⟨t,s,b,f,.down⟩

/- What the handling in progress knows about its own key. -/
def Holds (l : Ledger) : Inflight → Prop
  | .down | .idle => True
  | .pending k => l.tables.stateOf k = some .pending ∧ k ∉ l.started
  | .dispatched k => l.tables.stateOf k = some .dispatched ∧ k ∉ l.started
  | .written k => l.tables.stateOf k = some .dispatched
  | .cancelling k => ⟨k,.cancelAndSettle⟩ ∈ l.tables.mutationClaims

structure Sound (provisional : Key → String) (l : Ledger) : Prop where
  consistent : l.tables.Consistent
  once : l.started.Nodup
  held : ∀ k ∈ l.started, ⟨k,.start⟩ ∈ l.tables.mutationClaims
  named : ∀ r ∈ l.tables.jobReceipts, r.jobId = provisional r.key ∨ r.jobId ∈ l.bound
  control : l.Holds l.inflight
  pendingNamed : l.faults = 0 → l.inflight ≠ .down →
    ∀ r ∈ l.tables.jobReceipts, r.state = .pending → l.inflight = .pending r.key

variable {provisional : Key → String} {t : Tables} {s : List Key} {b : List String} {f : Nat}
  {g : Inflight} {k : Key} {jobId : String} {state : JobState}

theorem emptySound : Sound provisional ⟨Tables.empty,[],[],0,.down⟩ where
  consistent := Tables.emptyConsistent
  once := List.nodup_nil
  held := by simp
  named := by simp [Tables.empty]
  control := trivial
  pendingNamed _ up := absurd rfl up

/-! ## One lemma for each kind of step -/

theorem Sound.started (h : Sound provisional ⟨t,s,b,f,g⟩) (member : k ∈ s) : k ∈ t.claimKeys :=
  List.mem_map.mpr ⟨_,h.held k member,rfl⟩

theorem soundMigrate {v} (h : Sound provisional ⟨t,s,b,f,.down⟩) :
    Sound provisional ⟨{t with schemaVersion := v},s,b,f,.down⟩ where
  consistent := ⟨h.consistent.claimKeys,h.consistent.jobIds,h.consistent.receiptKeys,
    h.consistent.receiptClaimed,h.consistent.startReceipted⟩
  once := h.once
  held := h.held
  named := h.named
  control := trivial
  pendingNamed _ up := absurd rfl up

theorem soundClaim {r : ReceiptRecord} (h : Sound provisional ⟨t,s,b,f,.idle⟩)
    (named : r.jobId = provisional r.key) (pending : r.state = .pending)
    (unclaimed : r.key ∉ t.claimKeys) (fresh : r.jobId ∉ t.jobIds) :
    Sound provisional ⟨(t.addClaim ⟨r.key,.start⟩).addReceipt r,s,b,f,.pending r.key⟩ where
  consistent := h.consistent.claimStart unclaimed fresh
  once := h.once
  held k member := List.mem_append_left _ (h.held k member)
  named x member := by
    rcases List.mem_append.mp member with old | new
    · exact h.named x old
    · rw [List.mem_singleton.mp new]
      exact .inl named
  control := by
    have absent : t.receipt r.key = none := Tables.receiptNone (h.consistent.unclaimed unclaimed)
    have found : ((t.addClaim ⟨r.key,.start⟩).addReceipt r).receipt r.key = some r := by
      rw [Tables.receiptAdd,show (t.addClaim ⟨r.key,.start⟩).receipt r.key = none from absent]
      simp
    refine ⟨by simp only [Tables.stateOf,found,Option.map_some,pending],?_⟩
    exact fun member => unclaimed (h.started member)
  pendingNamed calm _ x member waiting := by
    rcases List.mem_append.mp member with old | new
    · cases h.pendingNamed calm (by simp) x old waiting
    · rw [List.mem_singleton.mp new]

theorem soundRelease (h : Sound provisional ⟨t,s,b,f,.pending k⟩) :
    Sound provisional ⟨(t.removeReceipts k).removeClaims k,s,b,f,.idle⟩ where
  consistent := h.consistent.releaseStart k
  once := h.once
  held x member := by
    refine List.mem_filter.mpr ⟨h.held x member,?_⟩
    have different : x ≠ k := fun same => h.control.2 (same ▸ member)
    simpa using different
  named x member := h.named x (List.mem_filter.mp member).1
  control := trivial
  pendingNamed calm _ x member waiting := by
    have source := List.mem_filter.mp member
    have same := h.pendingNamed calm (by simp) x source.1 waiting
    cases same
    simp at source

/- A row rewrite that keeps keys, where every row it leaves pending was pending. -/
theorem soundMap {f' : ReceiptRecord → ReceiptRecord} {g' : Inflight}
    (h : Sound provisional ⟨t,s,b,f,g⟩) (keep : Tables.KeepsKey f')
    (ids : (t.mapReceipts f').jobIds.Nodup)
    (named : ∀ r ∈ t.jobReceipts, (f' r).jobId = r.jobId ∨ (f' r).jobId ∈ b)
    (control : Holds ⟨t.mapReceipts f',s,b,f,g'⟩ g')
    (waiting : f = 0 → ∀ r ∈ t.jobReceipts, (f' r).state = .pending → g' = .pending r.key) :
    Sound provisional ⟨t.mapReceipts f',s,b,f,g'⟩ where
  consistent := h.consistent.mapReceipts keep ids
  once := h.once
  held := h.held
  named x member := by
    obtain ⟨r,inside,rfl⟩ := List.mem_map.mp member
    rcases named r inside with same | issued
    · rw [same,keep r]
      exact h.named r inside
    · exact .inr issued
  control := control
  pendingNamed calm _ x member pending := by
    obtain ⟨r,inside,rfl⟩ := List.mem_map.mp member
    rw [keep r]
    exact waiting calm r inside pending

theorem soundRecover (h : Sound provisional ⟨t,s,b,f,.down⟩) :
    Sound provisional ⟨t.markIncomplete .outcomeUnknown,s,b,f,.idle⟩ := by
  refine soundMap h (Tables.markIncompleteKeeps _) ?_ ?_ trivial ?_
  · exact (h.consistent.markIncomplete .outcomeUnknown).jobIds
  · intro r _
    left
    split <;> rfl
  · intro _ r _ pending
    by_cases incomplete : r.state = .pending ∨ r.state = .dispatched
    · rw [if_pos incomplete] at pending
      cases pending
    · rw [if_neg incomplete] at pending
      exact absurd (.inl pending) incomplete

theorem soundByRequest {g' : Inflight} (h : Sound provisional ⟨t,s,b,f,g⟩)
    (own : ∀ k', g = .pending k' → k' = k) (up : g ≠ .down) (moved : state ≠ .pending)
    (control : Holds ⟨t.setStateByRequest state k,s,b,f,g'⟩ g') :
    Sound provisional ⟨t.setStateByRequest state k,s,b,f,g'⟩ := by
  refine soundMap h (Tables.setStateByRequestKeeps state k) ?_ ?_ control ?_
  · exact (h.consistent.setStateByRequest state k).jobIds
  · intro r _
    left
    split <;> rfl
  · intro calm r member pending
    by_cases same : r.key = k
    · rw [if_pos same] at pending
      exact absurd pending moved
    · rw [if_neg same] at pending
      exact absurd (own r.key (h.pendingNamed calm up r member pending)) same

theorem stateOfByRequest (present : (t.receipt k).isSome) :
    (t.setStateByRequest state k).stateOf k = some state := by
  obtain ⟨r,found⟩ := Option.isSome_iff_exists.mp present
  have key : r.key = k := (Tables.receiptMember found).2
  simp only [Tables.setStateByRequest,Tables.stateOfMap (Tables.setStateByRequestKeeps state k),found,
    Option.map_some,if_pos key]

theorem soundDispatch (h : Sound provisional ⟨t,s,b,f,.pending k⟩) :
    Sound provisional ⟨t.setStateByRequest .dispatched k,s,b,f,.dispatched k⟩ := by
  refine soundByRequest h (fun k' same => (Inflight.pending.inj same).symm) (by simp) (by simp) ?_
  obtain ⟨r,found,_⟩ := Tables.stateOfMember h.control.1
  exact ⟨stateOfByRequest (by rw [found]; rfl),h.control.2⟩

theorem soundWrite (h : Sound provisional ⟨t,s,b,f,.dispatched k⟩) :
    Sound provisional ⟨t,s ++ [k],b,f,.written k⟩ where
  consistent := h.consistent
  once := h.once.append (List.nodup_singleton k) (by simpa using h.control.2)
  held x member := by
    rcases List.mem_append.mp member with old | new
    · exact h.held x old
    · rw [List.mem_singleton.mp new]
      obtain ⟨r,found,_⟩ := Tables.stateOfMember h.control.1
      have source := Tables.receiptMember found
      rw [← source.2]
      exact h.consistent.receiptClaimed r source.1
  named := h.named
  control := h.control.1
  pendingNamed calm _ x member waiting := by cases h.pendingNamed calm (by simp) x member waiting

theorem soundSettle (h : Sound provisional ⟨t,s,b,f,g⟩) (reached : g = .dispatched k ∨ g = .written k)
    (final : state = .completed ∨ state = .outcomeUnknown) :
    Sound provisional ⟨t.setStateByRequest state k,s,b,f,.idle⟩ := by
  refine soundByRequest h ?_ ?_ ?_ trivial
  · rcases reached with rfl | rfl <;> simp
  · rcases reached with rfl | rfl <;> simp
  · rcases final with rfl | rfl <;> simp

theorem soundBind (h : Sound provisional ⟨t,s,b,f,.written k⟩)
    (unique : (t.bindJob jobId .dispatched k).jobIds.Nodup) (issued : jobId ∈ b) :
    Sound provisional ⟨t.bindJob jobId .dispatched k,s,b,f,.idle⟩ := by
  refine soundMap h (Tables.bindJobKeeps jobId .dispatched k) unique ?_ trivial ?_
  · intro r _
    split
    · exact .inr issued
    · exact .inl rfl
  · intro calm r member pending
    by_cases same : r.key = k
    · rw [if_pos same] at pending
      cases pending
    · rw [if_neg same] at pending
      cases h.pendingNamed calm (by simp) r member pending

theorem soundByJob (h : Sound provisional ⟨t,s,b,f,g⟩) (clear : Clear g) (moved : state ≠ .pending) :
    Sound provisional ⟨t.setState state jobId,s,b,f,g⟩ := by
  have control : Holds ⟨t.setState state jobId,s,b,f,g⟩ g := by
    rcases clear with rfl | ⟨k,rfl⟩
    · trivial
    · exact h.control
  have never : ∀ k, g ≠ .pending k := by rcases clear with rfl | ⟨k,rfl⟩ <;> simp
  have up : g ≠ .down := by rcases clear with rfl | ⟨k,rfl⟩ <;> simp
  refine soundMap h (Tables.setStateKeeps state jobId) ?_ ?_ control ?_
  · exact (h.consistent.setState state jobId).jobIds
  · intro r _
    left
    split <;> rfl
  · intro calm r member pending
    by_cases same : r.jobId = jobId
    · rw [if_pos same] at pending
      exact absurd pending moved
    · rw [if_neg same] at pending
      exact absurd (h.pendingNamed calm up r member pending) (never r.key)

theorem soundClaimCancel (h : Sound provisional ⟨t,s,b,f,.idle⟩) (unclaimed : k ∉ t.claimKeys) :
    Sound provisional ⟨t.addClaim ⟨k,.cancelAndSettle⟩,s,b,f,.cancelling k⟩ where
  consistent := h.consistent.claimCancel unclaimed
  once := h.once
  held x member := List.mem_append_left _ (h.held x member)
  named := h.named
  control := List.mem_append_right _ (List.mem_singleton.mpr rfl)
  pendingNamed calm _ x member waiting := by cases h.pendingNamed calm (by simp) x member waiting

theorem soundReleaseCancel (h : Sound provisional ⟨t,s,b,f,.cancelling k⟩) :
    Sound provisional ⟨t.removeClaims k,s,b,f,.idle⟩ where
  consistent := h.consistent.releaseCancel (h.consistent.cancelUnreceipted h.control (by simp))
  once := h.once
  held x member := by
    refine List.mem_filter.mpr ⟨h.held x member,?_⟩
    -- one claim row a key, and this key's row is the cancellation's
    have different : x ≠ k := by
      rintro rfl
      have equal := List.inj_on_of_nodup_map h.consistent.claimKeys (h.held x member) h.control rfl
      cases equal
    simpa using different
  named := h.named
  control := trivial
  pendingNamed calm _ x member waiting := by cases h.pendingNamed calm (by simp) x member waiting

theorem soundQuiet {l l' : Ledger} (h : Sound provisional l) (tables : l'.tables = l.tables)
    (started : l'.started = l.started) (bound : ∀ id ∈ l.bound, id ∈ l'.bound)
    (faults : l.faults ≤ l'.faults) (inflight : l'.inflight = l.inflight) :
    Sound provisional l' where
  consistent := by rw [tables]; exact h.consistent
  once := by rw [started]; exact h.once
  held := by rw [tables,started]; exact h.held
  named r member := by
    rw [tables] at member
    rcases h.named r member with own | issued
    · exact .inl own
    · exact .inr (bound _ issued)
  control := by
    have same := h.control
    unfold Holds at *
    rw [inflight,tables,started]
    exact same
  pendingNamed calm := by
    rw [tables,inflight]
    exact h.pendingNamed (by omega)

theorem soundRest (h : Sound provisional ⟨t,s,b,f,g⟩) (up : g ≠ .down)
    (left : ∀ k, g = .pending k → 0 < f) : Sound provisional ⟨t,s,b,f,.idle⟩ where
  consistent := h.consistent
  once := h.once
  held := h.held
  named := h.named
  control := trivial
  pendingNamed calm _ r member pending := by
    have positive := left r.key (h.pendingNamed calm up r member pending)
    have zero : f = 0 := calm
    omega

theorem soundHalt (h : Sound provisional ⟨t,s,b,f,g⟩) : Sound provisional ⟨t,s,b,f,.down⟩ where
  consistent := h.consistent
  once := h.once
  held := h.held
  named := h.named
  control := trivial
  pendingNamed _ up := absurd rfl up

theorem stepSound {label : Label} {l l' : Ledger} (step : Step provisional label l l')
    (h : Sound provisional l) : Sound provisional l' := by
  cases step with
  | quiet tables started bound faults inflight =>
    exact soundQuiet h tables started bound faults inflight
  | migrate => exact soundMigrate h
  | recover => exact soundRecover h
  | claim named state unclaimed fresh => exact soundClaim h named state unclaimed fresh
  | release => exact soundRelease h
  | dispatch => exact soundDispatch h
  | write => exact soundWrite h
  | settle reached final => exact soundSettle h reached final
  | bind unique issued => exact soundBind h unique issued
  | complete clear => exact soundByJob h clear (by simp)
  | markUnknown clear => exact soundByJob h clear (by simp)
  | claimCancel unclaimed => exact soundClaimCancel h unclaimed
  | releaseCancel => exact soundReleaseCancel h
  | rest up left => exact soundRest h up left
  | halt => exact soundHalt h

end Ledger
end Northstar.Broker
