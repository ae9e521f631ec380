import Northstar.Program
import Northstar.Script

/-! The grants of the Chrome profile (chrome-profile-auth.ts). Each reading of the clock and each
fresh id is an argument of the call that takes it. -/
namespace Northstar.Chrome.Authorization

def chromeLeaseMaxMs : ℚ := 60000
def chromeLeaseRenewMs : ℚ := 30000

inductive ChromeRevokeReason where
  | user | expired | shutdown
  deriving DecidableEq, Repr

inductive RevokedReason where
  | initial | revoked | expired | shutdown
  deriving DecidableEq, Repr

structure ChromeGrantRef where
  sessionKey : JsString
  grantId : JsString
  nonce : JsString
  expiresAt : Option ℚ
  leaseExpiresAt : ℚ
  deriving DecidableEq, Repr

structure RandomIds where
  sessionKey : JsString
  grantId : JsString
  nonce : JsString
  deriving DecidableEq, Repr

/- ttlMs: null, a number that is no finite one, or a finite number. -/
inductive TtlMs where
  | indefinite
  | notFinite
  | finite (ms : ℚ)
  deriving DecidableEq, Repr

inductive ChromeAuthorizationState where
  | locked (reason : Option RevokedReason)
  | authorized (expiresAt : Option ℚ)
  deriving DecidableEq, Repr

structure ChromeProfileAuth where
  expiresAt : Option ℚ := none
  revokedReason : RevokedReason := .initial
  grant : Option ChromeGrantRef := none
  staged : Option ChromeGrantRef := none
  automationEnabled : Bool := true
  deriving DecidableEq, Repr

abbrev Outcome (α : Type) := Except JsString α × ChromeProfileAuth

def lapsed (expiresAt : Option ℚ) (now : ℚ) : Bool := expiresAt.any fun expiry => expiry ≤ now

def lockLocal (reason : RevokedReason) (s : ChromeProfileAuth) : ChromeProfileAuth :=
  { s with grant := none, staged := none, expiresAt := none, revokedReason := reason }

def setAutomationEnabled (enabled : Bool) (s : ChromeProfileAuth) : ChromeProfileAuth :=
  let s := { s with automationEnabled := enabled }
  if enabled then s else lockLocal .revoked s

/- The live grant is found expired when it is read. -/
def status (now : ℚ) (s : ChromeProfileAuth) : ChromeAuthorizationState × ChromeProfileAuth :=
  if s.grant = none then
    (.locked (if s.revokedReason = .initial then none else some s.revokedReason),s)
  else if lapsed s.expiresAt now then (.locked (some .expired),lockLocal .expired s)
  else (.authorized s.expiresAt,s)

def authorizedNow (now : ℚ) (s : ChromeProfileAuth) : Bool := (status now s).1 matches .authorized _

def canExecute (now : ℚ) (s : ChromeProfileAuth) : Bool × ChromeProfileAuth :=
  if s.automationEnabled then (authorizedNow now s,(status now s).2) else (false,s)

def buildGrant (ttlMs : TtlMs) (confirmed : Bool) (now : ℚ) (ids : RandomIds) (s : ChromeProfileAuth) :
    Except JsString ChromeGrantRef :=
  let grant expiresAt : ChromeGrantRef := ⟨ids.sessionKey,ids.grantId,ids.nonce,expiresAt,now + chromeLeaseMaxMs⟩
  if s.automationEnabled = false then .error (js "chrome_locked: browser automation is disabled")
  else if confirmed = false then .error (js "chrome_locked: authorization requires confirmation")
  else match ttlMs with
    | .indefinite => .ok (grant none)
    | .notFinite => .error (js "chrome_locked: invalid TTL")
    | .finite ms => if ms ≤ 0 then .error (js "chrome_locked: invalid TTL") else .ok (grant (some (now + ms)))

def stageAuthorize (ttlMs : TtlMs) (confirmed : Bool) (now : ℚ) (ids : RandomIds) (s : ChromeProfileAuth) :
    Outcome ChromeGrantRef :=
  if s.staged ≠ none then (.error (js "chrome_locked: authorization already in progress"),s)
  else match buildGrant ttlMs confirmed now ids s with
    | .error message => (.error message,s)
    | .ok grant => (.ok grant,{ s with staged := some grant })

def activate (grant : ChromeGrantRef) (s : ChromeProfileAuth) : ChromeProfileAuth :=
  { s with grant := some grant, expiresAt := grant.expiresAt, revokedReason := .initial }

def commitAuthorize (sessionKey grantId : JsString) (now later : ℚ) (s : ChromeProfileAuth) :
    Outcome ChromeGrantRef := match s.staged with
  | none => (.error (js "chrome_revoked: authorization superseded"),s)
  | some staged =>
      if staged.sessionKey ≠ sessionKey ∨ staged.grantId ≠ grantId then
        (.error (js "chrome_revoked: staged grant mismatch"),s)
      else if lapsed staged.expiresAt now then
        (.error (js "chrome_revoked: grant expired before activation"),{ s with staged := none })
      else
        let grant := { staged with leaseExpiresAt := later + chromeLeaseMaxMs }
        (.ok grant,activate grant { s with staged := none })

def abortAuthorize (sessionKey grantId : JsString) (s : ChromeProfileAuth) : Outcome Unit := match s.staged with
  | none => (.ok (),s)
  | some staged =>
      if staged.sessionKey ≠ sessionKey ∨ staged.grantId ≠ grantId then
        (.error (js "chrome_revoked: staged grant mismatch"),s)
      else (.ok (),{ s with staged := none })

def authorize (ttlMs : TtlMs) (confirmed : Bool) (now : ℚ) (ids : RandomIds) (s : ChromeProfileAuth) :
    Outcome ChromeGrantRef := match buildGrant ttlMs confirmed now ids s with
  | .error message => (.error message,s)
  | .ok grant => (.ok grant,activate grant s)

def matchesGrant (sessionKey grantId : JsString) (now : ℚ) (s : ChromeProfileAuth) : Bool × ChromeProfileAuth :=
  (authorizedNow now s && s.grant.any fun grant => grant.sessionKey = sessionKey && grant.grantId = grantId,(status now s).2)

/- -Infinity where there is no grant. -/
def msUntilLeaseExpiry (now : ℚ) (s : ChromeProfileAuth) : Option ℚ := s.grant.map fun grant => grant.leaseExpiresAt - now

def leaseRenewalDue (now later : ℚ) (s : ChromeProfileAuth) : Bool × ChromeProfileAuth :=
  (authorizedNow now s && (msUntilLeaseExpiry later s).any fun ms => ms ≤ chromeLeaseRenewMs,(status now s).2)

def renewLease (now later : ℚ) (s : ChromeProfileAuth) : Outcome ℚ := match (status now s).2.grant with
  | none => (.error (js "chrome_locked: not authorized"),(status now s).2)
  | some grant =>
      if lapsed grant.expiresAt later then (.error (js "chrome_revoked: grant expired"),lockLocal .expired s)
      else (.ok (later + chromeLeaseMaxMs),{ s with grant := some { grant with leaseExpiresAt := later + chromeLeaseMaxMs } })

def isLeaseLive (now : ℚ) (s : ChromeProfileAuth) : Bool := s.grant.any fun grant => now < grant.leaseExpiresAt

def currentGrant (now : ℚ) (s : ChromeProfileAuth) : Option ChromeGrantRef × ChromeProfileAuth :=
  (if authorizedNow now s then s.grant else none,(status now s).2)

def revoke (reason : ChromeRevokeReason) (s : ChromeProfileAuth) : ChromeProfileAuth := match reason with
  | .shutdown => lockLocal .shutdown s
  | .expired => lockLocal .expired s
  | .user => lockLocal .revoked s

def shutdown (s : ChromeProfileAuth) : ChromeProfileAuth := lockLocal .shutdown s

inductive Call where
  | setAutomationEnabled (enabled : Bool)
  | isAutomationEnabled
  | status (now : ℚ)
  | canExecute (now : ℚ)
  | stageAuthorize (ttlMs : TtlMs) (confirmed : Bool) (now : ℚ) (ids : RandomIds)
  | commitAuthorize (sessionKey grantId : JsString) (now later : ℚ)
  | abortAuthorize (sessionKey grantId : JsString)
  | authorize (ttlMs : TtlMs) (confirmed : Bool) (now : ℚ) (ids : RandomIds)
  | matchesGrant (sessionKey grantId : JsString) (now : ℚ)
  | msUntilLeaseExpiry (now : ℚ)
  | leaseRenewalDue (now later : ℚ)
  | renewLease (now later : ℚ)
  | isLeaseLive (now : ℚ)
  | currentGrant (now : ℚ)
  | revoke (reason : ChromeRevokeReason)
  | shutdown
  deriving DecidableEq, Repr

def step (s : ChromeProfileAuth) : Call → ChromeProfileAuth
  | .setAutomationEnabled enabled => setAutomationEnabled enabled s
  | .isAutomationEnabled => s
  | .status now => (status now s).2
  | .canExecute now => (canExecute now s).2
  | .stageAuthorize ttlMs confirmed now ids => (stageAuthorize ttlMs confirmed now ids s).2
  | .commitAuthorize sessionKey grantId now later => (commitAuthorize sessionKey grantId now later s).2
  | .abortAuthorize sessionKey grantId => (abortAuthorize sessionKey grantId s).2
  | .authorize ttlMs confirmed now ids => (authorize ttlMs confirmed now ids s).2
  | .matchesGrant sessionKey grantId now => (matchesGrant sessionKey grantId now s).2
  | .msUntilLeaseExpiry _ => s
  | .leaseRenewalDue now later => (leaseRenewalDue now later s).2
  | .renewLease now later => (renewLease now later s).2
  | .isLeaseLive _ => s
  | .currentGrant now => (currentGrant now s).2
  | .revoke reason => revoke reason s
  | .shutdown => shutdown s

def created (automationEnabled : Bool) : ChromeProfileAuth := { automationEnabled }

def run (automationEnabled : Bool) (calls : List Call) : ChromeProfileAuth :=
  calls.foldl step (created automationEnabled)

/- The readings of the clock that are compared with the live grant's expiry. -/
def readings (s : ChromeProfileAuth) : Call → List ℚ
  | .status now => [now]
  | .canExecute now => if s.automationEnabled then [now] else []
  | .matchesGrant _ _ now => [now]
  | .leaseRenewalDue now _ => [now]
  | .renewLease now later => [now,later]
  | .currentGrant now => [now]
  | _ => []

def FindsExpired (s : ChromeProfileAuth) (call : Call) : Prop :=
  s.grant ≠ none ∧ ∃ now ∈ readings s call, lapsed s.expiresAt now = true
instance (s call) : Decidable (FindsExpired s call) := by unfold FindsExpired; infer_instance

/- A staged grant is neither committed, aborted, revoked, shut down or disabled, nor is another staged. -/
def Leaves (grant : ChromeGrantRef) (s : ChromeProfileAuth) : Call → Prop
  | .setAutomationEnabled enabled => enabled = true
  | .stageAuthorize ttlMs confirmed now ids => (stageAuthorize ttlMs confirmed now ids s).1.toBool = false
  | .commitAuthorize sessionKey grantId _ _ => ¬ (grant.sessionKey = sessionKey ∧ grant.grantId = grantId)
  | .abortAuthorize sessionKey grantId => ¬ (grant.sessionKey = sessionKey ∧ grant.grantId = grantId)
  | .revoke _ => False
  | .shutdown => False
  | _ => True
instance (grant s call) : Decidable (Leaves grant s call) := by unfold Leaves; cases call <;> infer_instance

/- The expiry kept beside the live grant is the grant's. -/
def Consistent (s : ChromeProfileAuth) : Prop := s.expiresAt = s.grant.bind (·.expiresAt)

theorem statusCases (now : ℚ) (s : ChromeProfileAuth) :
    (s.grant ≠ none ∧ lapsed s.expiresAt now = true ∧ (status now s).2 = lockLocal .expired s) ∨
    (¬ (s.grant ≠ none ∧ lapsed s.expiresAt now = true) ∧ (status now s).2 = s) := by
  unfold status
  split
  · rename_i bare
    exact .inr ⟨fun h => h.1 bare,rfl⟩
  · rename_i live
    split
    · rename_i expired
      exact .inl ⟨live,expired,rfl⟩
    · rename_i fresh
      exact .inr ⟨fun h => fresh h.2,rfl⟩

theorem authorizedIff (now : ℚ) (s : ChromeProfileAuth) :
    authorizedNow now s = true ↔ s.grant ≠ none ∧ lapsed s.expiresAt now = false := by
  by_cases bare : s.grant = none
  · simp [authorizedNow,status,bare]
  · by_cases expired : lapsed s.expiresAt now = true
    · simp [authorizedNow,status,bare,expired]
    · simp [authorizedNow,status,bare,expired]

theorem renewCases (now later : ℚ) (s : ChromeProfileAuth) (consistent : Consistent s) :
    (s.grant = none ∧ (renewLease now later s).2 = s) ∨
    (s.grant ≠ none ∧ (lapsed s.expiresAt now = true ∨ lapsed s.expiresAt later = true) ∧
      (renewLease now later s).2 = lockLocal .expired s) ∨
    (∃ grant, s.grant = some grant ∧ lapsed s.expiresAt now = false ∧ lapsed s.expiresAt later = false ∧
      (renewLease now later s).2 = { s with grant := some { grant with leaseExpiresAt := later + chromeLeaseMaxMs } }) := by
  unfold renewLease
  rcases statusCases now s with ⟨live,expired,same⟩ | ⟨fresh,same⟩
  · rw [same]
    exact .inr (.inl ⟨live,.inl expired,rfl⟩)
  · rw [same]
    split
    · rename_i bare
      exact .inl ⟨bare,rfl⟩
    · rename_i grant live
      have expiry : s.expiresAt = grant.expiresAt := by
        rw [consistent,live]
        rfl
      have unlapsed : lapsed s.expiresAt now = false := by
        by_contra expired
        exact fresh ⟨by simp [live],by simpa using expired⟩
      split
      · rename_i expired
        exact .inr (.inl ⟨by simp [live],.inr (expiry ▸ expired),rfl⟩)
      · rename_i current
        exact .inr (.inr ⟨grant,live,unlapsed,by simpa [expiry] using current,rfl⟩)

theorem statusConsistent (now : ℚ) {s : ChromeProfileAuth} (consistent : Consistent s) : Consistent (status now s).2 := by
  rcases statusCases now s with ⟨_,_,same⟩ | ⟨_,same⟩
  · rw [same]
    rfl
  · rw [same]
    exact consistent

theorem stepConsistent {s : ChromeProfileAuth} (call : Call) (consistent : Consistent s) : Consistent (step s call) := by
  cases call with
  | setAutomationEnabled enabled => cases enabled with
    | false => rfl
    | true => exact consistent
  | isAutomationEnabled => exact consistent
  | status now => exact statusConsistent now consistent
  | canExecute now =>
    simp only [step,canExecute]
    split
    · exact statusConsistent now consistent
    · exact consistent
  | stageAuthorize ttlMs confirmed now ids =>
    simp only [step,stageAuthorize]
    split
    · exact consistent
    · split <;> exact consistent
  | commitAuthorize sessionKey grantId now later =>
    simp only [step,commitAuthorize]
    split
    · exact consistent
    · split
      · exact consistent
      · split
        · exact consistent
        · rfl
  | abortAuthorize sessionKey grantId =>
    simp only [step,abortAuthorize]
    split
    · exact consistent
    · split <;> exact consistent
  | authorize ttlMs confirmed now ids =>
    simp only [step,authorize]
    split
    · exact consistent
    · rfl
  | matchesGrant sessionKey grantId now => exact statusConsistent now consistent
  | msUntilLeaseExpiry now => exact consistent
  | leaseRenewalDue now later => exact statusConsistent now consistent
  | renewLease now later =>
    change Consistent (renewLease now later s).2
    rcases renewCases now later s consistent with ⟨_,same⟩ | ⟨_,_,same⟩ | ⟨grant,live,_,_,same⟩
    · exact same.symm ▸ consistent
    · exact same.symm ▸ rfl
    · unfold Consistent at consistent
      rw [live] at consistent
      exact same.symm ▸ consistent
  | isLeaseLive now => exact consistent
  | currentGrant now => exact statusConsistent now consistent
  | revoke reason => cases reason <;> rfl
  | shutdown => rfl

theorem runConsistent (enabled : Bool) (calls : List Call) : Consistent (run enabled calls) :=
  runInvariant (I := Consistent) (show Consistent (created enabled) from rfl) (fun _ call h => stepConsistent call h) calls

/- A reading of the status lets go of the staged grant exactly where it finds the live one expired. -/
theorem statusStaged (now : ℚ) (s : ChromeProfileAuth) : (status now s).2.staged =
    if s.grant ≠ none ∧ lapsed s.expiresAt now = true then none else s.staged := by
  rcases statusCases now s with ⟨live,expired,same⟩ | ⟨fresh,same⟩
  · rw [same,if_pos ⟨live,expired⟩]
    rfl
  · rw [same,if_neg fresh]

theorem stepStaged {grant : ChromeGrantRef} {s : ChromeProfileAuth} {call : Call} (consistent : Consistent s)
    (own : s.staged = none ∨ s.staged = some grant) (leaves : Leaves grant s call) :
    (step s call).staged = if FindsExpired s call then none else s.staged := by
  cases call with
  | setAutomationEnabled enabled =>
    rw [show enabled = true from leaves,if_neg (by simp [FindsExpired,readings])]
    rfl
  | isAutomationEnabled => rw [if_neg (by simp [FindsExpired,readings])]; rfl
  | status now => simp only [step,statusStaged,FindsExpired,readings,List.mem_singleton,exists_eq_left]
  | canExecute now =>
    simp only [step,canExecute,FindsExpired,readings]
    split
    · simp only [statusStaged,List.mem_singleton,exists_eq_left]
    · rw [if_neg (by simp)]
  | stageAuthorize ttlMs confirmed now ids =>
    rw [if_neg (by simp [FindsExpired,readings])]
    simp only [Leaves,stageAuthorize] at leaves
    simp only [step,stageAuthorize]
    split
    · rfl
    · rename_i idle
      rw [if_neg idle] at leaves
      split at leaves
      · rfl
      · contradiction
  | commitAuthorize sessionKey grantId now later =>
    rw [if_neg (by simp [FindsExpired,readings])]
    simp only [step,commitAuthorize]
    rcases own with idle | staged
    · rw [idle]
      exact idle
    · rw [staged]
      have other : grant.sessionKey ≠ sessionKey ∨ grant.grantId ≠ grantId := not_and_or.mp leaves
      simp only [if_pos other,staged]
  | abortAuthorize sessionKey grantId =>
    rw [if_neg (by simp [FindsExpired,readings])]
    simp only [step,abortAuthorize]
    rcases own with idle | staged
    · rw [idle]
      exact idle
    · rw [staged]
      have other : grant.sessionKey ≠ sessionKey ∨ grant.grantId ≠ grantId := not_and_or.mp leaves
      simp only [if_pos other,staged]
  | authorize ttlMs confirmed now ids =>
    rw [if_neg (by simp [FindsExpired,readings])]
    simp only [step,authorize]
    split <;> rfl
  | matchesGrant sessionKey grantId now =>
    simp only [step,matchesGrant,statusStaged,FindsExpired,readings,List.mem_singleton,exists_eq_left]
  | msUntilLeaseExpiry now => rw [if_neg (by simp [FindsExpired,readings])]; rfl
  | leaseRenewalDue now later =>
    simp only [step,leaseRenewalDue,statusStaged,FindsExpired,readings,List.mem_singleton,exists_eq_left]
  | renewLease now later =>
    have found : FindsExpired s (.renewLease now later) ↔
        s.grant ≠ none ∧ (lapsed s.expiresAt now = true ∨ lapsed s.expiresAt later = true) := by
      simp [FindsExpired,readings]
    rcases renewCases now later s consistent with ⟨bare,same⟩ | ⟨live,expired,same⟩ | ⟨_,_,first,second,same⟩
    · rw [if_neg (fun h => (found.mp h).1 bare)]
      exact (congrArg ChromeProfileAuth.staged same :)
    · rw [if_pos (found.mpr ⟨live,expired⟩)]
      exact (congrArg ChromeProfileAuth.staged same :)
    · rw [if_neg (fun h => by simpa [first,second] using (found.mp h).2)]
      exact (congrArg ChromeProfileAuth.staged same :)
  | isLeaseLive now => rw [if_neg (by simp [FindsExpired,readings])]; rfl
  | currentGrant now => simp only [step,currentGrant,statusStaged,FindsExpired,readings,List.mem_singleton,exists_eq_left]
  | revoke reason => exact leaves.elim
  | shutdown => exact leaves.elim

/- What a stage returned stays staged exactly as long as no call finds a live grant expired. -/
theorem stagedExactly {grant : ChromeGrantRef} {s : ChromeProfileAuth} (consistent : Consistent s)
    (staged : s.staged = some grant) {calls : List Call} (since : Meets (Leaves grant) step s calls) :
    ((calls.foldl step s).staged = none ∨ (calls.foldl step s).staged = some grant) ∧
    ((calls.foldl step s).staged = some grant ↔ Meets (fun s call => ¬ FindsExpired s call) step s calls) := by
  have lost {s : ChromeProfileAuth} (consistent : Consistent s) (idle : s.staged = none) {calls : List Call}
      (since : Meets (Leaves grant) step s calls) : (calls.foldl step s).staged = none := by
    induction calls generalizing s with
    | nil => exact idle
    | cons call rest ih =>
      refine ih (stepConsistent call consistent) ?_ since.2
      rw [stepStaged consistent (.inl idle) since.1,idle,ite_self]
  induction calls generalizing s with
  | nil => exact ⟨.inr staged,fun _ => trivial,fun _ => staged⟩
  | cons call rest ih =>
    have next := stepStaged consistent (.inr staged) since.1
    by_cases expired : FindsExpired s call
    · rw [if_pos expired] at next
      have gone : ((call :: rest).foldl step s).staged = none := lost (stepConsistent call consistent) next since.2
      refine ⟨.inl gone,fun kept => ?_,fun meets => absurd expired meets.1⟩
      rw [gone] at kept
      contradiction
    · rw [if_neg expired,staged] at next
      obtain ⟨either,exactly⟩ := ih (stepConsistent call consistent) next since.2
      exact ⟨either,exactly.trans ⟨fun later => ⟨expired,later⟩,And.right⟩⟩

def Withdraws : Call → Prop
  | .setAutomationEnabled enabled => enabled = false
  | .revoke _ => True
  | .shutdown => True
  | _ => False

/- Two grants with the same ids and expiry; the lease may have been renewed. -/
def SameGrant (a b : ChromeGrantRef) : Prop := b = { a with leaseExpiresAt := b.leaseExpiresAt }

theorem SameGrant.trans {a b c : ChromeGrantRef} (first : SameGrant a b) (second : SameGrant b c) : SameGrant a c := by
  unfold SameGrant at *
  rw [second,first]

theorem SameGrant.expiry {a b : ChromeGrantRef} (same : SameGrant a b) : b.expiresAt = a.expiresAt := by
  unfold SameGrant at same
  rw [same]

def StagedBy (enabled : Bool) (calls : List Call) (grant : ChromeGrantRef) : Prop := ∃ first ttlMs now ids rest,
  calls = first ++ Call.stageAuthorize ttlMs true now ids :: rest ∧
    (stageAuthorize ttlMs true now ids (run enabled first)).1 = .ok grant

/- A confirmed authorize, or a commit of what a confirmed stage returned. -/
inductive Activates (enabled : Bool) (before : List Call) (grant : ChromeGrantRef) : Call → Prop
  | authorize (ttlMs : TtlMs) (now : ℚ) (ids : RandomIds)
      (returned : (authorize ttlMs true now ids (run enabled before)).1 = .ok grant) :
      Activates enabled before grant (.authorize ttlMs true now ids)
  | commit (sessionKey grantId : JsString) (now later : ℚ) (staged : ChromeGrantRef)
      (returned : (commitAuthorize sessionKey grantId now later (run enabled before)).1 = .ok grant)
      (confirmed : StagedBy enabled before staged) (same : SameGrant staged grant) :
      Activates enabled before grant (.commitAuthorize sessionKey grantId now later)

def ActivatedBy (enabled : Bool) (calls : List Call) (grant : ChromeGrantRef) : Prop := ∃ first call rest,
  calls = first ++ call :: rest ∧ Activates enabled first grant call ∧ ∀ later ∈ rest, ¬ Withdraws later

theorem buildConfirmed {ttlMs : TtlMs} {confirmed : Bool} {now : ℚ} {ids : RandomIds} {s : ChromeProfileAuth}
    {grant : ChromeGrantRef} (built : buildGrant ttlMs confirmed now ids s = .ok grant) : confirmed = true := by
  unfold buildGrant at built
  cases confirmed with
  | true => rfl
  | false => cases h : s.automationEnabled <;> simp [h] at built

theorem stagedStep {s : ChromeProfileAuth} {call : Call} {grant : ChromeGrantRef}
    (staged : (step s call).staged = some grant) : s.staged = some grant ∨
      ∃ ttlMs now ids, call = .stageAuthorize ttlMs true now ids ∧ (stageAuthorize ttlMs true now ids s).1 = .ok grant := by
  have read (now : ℚ) (kept : (status now s).2.staged = some grant) : s.staged = some grant := by
    rw [statusStaged] at kept
    split at kept
    · contradiction
    · exact kept
  cases call with
  | setAutomationEnabled enabled => cases enabled with
    | false => contradiction
    | true => exact .inl staged
  | isAutomationEnabled => exact .inl staged
  | status now => exact .inl (read now staged)
  | canExecute now =>
    simp only [step,canExecute] at staged
    split at staged
    · exact .inl (read now staged)
    · exact .inl staged
  | stageAuthorize ttlMs confirmed now ids =>
    simp only [step] at staged
    unfold stageAuthorize at staged ⊢
    split at staged
    · exact .inl staged
    · rename_i idle
      split at staged
      · exact .inl staged
      · rename_i built_ built
        cases Option.some.inj staged
        cases buildConfirmed built
        refine .inr ⟨ttlMs,now,ids,rfl,?_⟩
        rw [if_neg idle,built]
  | commitAuthorize sessionKey grantId now later =>
    simp only [step,commitAuthorize] at staged
    split at staged
    · exact .inl staged
    · split at staged
      · exact .inl staged
      · split at staged <;> contradiction
  | abortAuthorize sessionKey grantId =>
    simp only [step,abortAuthorize] at staged
    split at staged
    · exact .inl staged
    · split at staged
      · exact .inl staged
      · contradiction
  | authorize ttlMs confirmed now ids =>
    simp only [step,authorize] at staged
    split at staged <;> exact .inl staged
  | matchesGrant sessionKey grantId now => exact .inl (read now staged)
  | msUntilLeaseExpiry now => exact .inl staged
  | leaseRenewalDue now later => exact .inl (read now staged)
  | renewLease now later =>
    change (renewLease now later s).2.staged = some grant at staged
    unfold renewLease at staged
    split at staged
    · exact .inl (read now staged)
    · split at staged
      · contradiction
      · exact .inl staged
  | isLeaseLive now => exact .inl staged
  | currentGrant now => exact .inl (read now staged)
  | revoke reason => cases reason <;> contradiction
  | shutdown => contradiction

theorem stagedBy (enabled : Bool) (calls : List Call) {grant : ChromeGrantRef}
    (staged : (run enabled calls).staged = some grant) : StagedBy enabled calls grant := by
  induction calls using List.reverseRecOn with
  | nil => contradiction
  | append_singleton calls call ih =>
    unfold run at staged
    rw [List.foldl_concat] at staged
    rcases stagedStep staged with before | ⟨ttlMs,now,ids,rfl,returned⟩
    · obtain ⟨first,ttlMs,now,ids,rest,rfl,returned⟩ := ih before
      exact ⟨first,ttlMs,now,ids,rest ++ [call],by simp,returned⟩
    · exact ⟨calls,ttlMs,now,ids,[],rfl,returned⟩

theorem grantStep (enabled : Bool) {calls : List Call} {call : Call} {live : ChromeGrantRef}
    (kept : (step (run enabled calls) call).grant = some live) : Activates enabled calls live call ∨
      (¬ Withdraws call ∧ ∃ grant, (run enabled calls).grant = some grant ∧ SameGrant grant live) := by
  have before (same : (run enabled calls).grant = some live) (stays : ¬ Withdraws call) :
      Activates enabled calls live call ∨
      (¬ Withdraws call ∧ ∃ grant, (run enabled calls).grant = some grant ∧ SameGrant grant live) :=
    .inr ⟨stays,live,same,rfl⟩
  have read (now : ℚ) (kept : (status now (run enabled calls)).2.grant = some live) :
      (run enabled calls).grant = some live := by
    rcases statusCases now (run enabled calls) with ⟨_,_,same⟩ | ⟨_,same⟩
    · rw [same] at kept
      contradiction
    · rwa [same] at kept
  cases call with
  | setAutomationEnabled enabled => cases enabled with
    | false => contradiction
    | true => exact before kept (fun h => by cases h)
  | isAutomationEnabled => exact before kept id
  | status now => exact before (read now kept) id
  | canExecute now =>
    simp only [step,canExecute] at kept
    split at kept
    · exact before (read now kept) id
    · exact before kept id
  | stageAuthorize ttlMs confirmed now ids =>
    simp only [step,stageAuthorize] at kept
    split at kept
    · exact before kept id
    · split at kept <;> exact before kept id
  | commitAuthorize sessionKey grantId now later =>
    simp only [step] at kept
    cases staged : (run enabled calls).staged with
    | none =>
      simp only [commitAuthorize,staged] at kept
      exact before kept id
    | some held =>
      simp only [commitAuthorize,staged] at kept
      split at kept
      · exact before kept id
      · rename_i own
        split at kept
        · exact before kept id
        · rename_i fresh
          cases Option.some.inj kept
          refine .inl (.commit sessionKey grantId now later held ?_ (stagedBy enabled calls staged) rfl)
          simp only [commitAuthorize,staged,if_neg own,if_neg fresh]
  | abortAuthorize sessionKey grantId =>
    simp only [step,abortAuthorize] at kept
    split at kept
    · exact before kept id
    · split at kept <;> exact before kept id
  | authorize ttlMs confirmed now ids =>
    simp only [step,authorize] at kept
    split at kept
    · exact before kept id
    · rename_i built
      cases Option.some.inj kept
      cases buildConfirmed built
      exact .inl (.authorize ttlMs now ids (by rw [authorize,built]))
  | matchesGrant sessionKey grantId now => exact before (read now kept) id
  | msUntilLeaseExpiry now => exact before kept id
  | leaseRenewalDue now later => exact before (read now kept) id
  | renewLease now later =>
    rcases renewCases now later _ (runConsistent enabled calls) with ⟨_,same⟩ | ⟨_,_,same⟩ | ⟨grant,held,_,_,same⟩
    · exact before (by simpa only [step,same] using kept) id
    · simp [step,same,lockLocal] at kept
    · simp only [step,same] at kept
      cases Option.some.inj kept
      exact .inr ⟨id,grant,held,rfl⟩
  | isLeaseLive now => exact before kept id
  | currentGrant now => exact before (read now kept) id
  | revoke reason => cases reason <;> contradiction
  | shutdown => contradiction

theorem activatedBy (enabled : Bool) (calls : List Call) {live : ChromeGrantRef}
    (held : (run enabled calls).grant = some live) : ∃ grant, ActivatedBy enabled calls grant ∧ SameGrant grant live := by
  induction calls using List.reverseRecOn generalizing live with
  | nil => contradiction
  | append_singleton calls call ih =>
    have kept := held
    unfold run at kept
    rw [List.foldl_concat] at kept
    rcases grantStep enabled kept with activates | ⟨stays,grant,before,same⟩
    · exact ⟨live,⟨calls,call,[],rfl,activates,fun _ member => absurd member List.not_mem_nil⟩,rfl⟩
    · obtain ⟨origin,⟨first,activating,rest,rfl,activates,quiet⟩,origins⟩ := ih before
      refine ⟨origin,⟨first,activating,rest ++ [call],by simp,activates,fun later member => ?_⟩,origins.trans same⟩
      rcases List.mem_append.mp member with earlier | last
      · exact quiet later earlier
      · exact List.mem_singleton.mp last ▸ stays

/-- A commit of what the latest stage returned succeeds exactly where no call since found a live
grant expired; and what lets a profile execute is an unexpired grant, activated by a confirmed
authorize or commit and not withdrawn since. -/
theorem stagedCommits (enabled : Bool) :
    (∀ before ttlMs confirmed now ids grant since at_ later,
      (stageAuthorize ttlMs confirmed now ids (run enabled before)).1 = .ok grant →
      Meets (Leaves grant) step (run enabled (before ++ [.stageAuthorize ttlMs confirmed now ids])) since →
      lapsed grant.expiresAt at_ = false →
      ((∃ live, (commitAuthorize grant.sessionKey grant.grantId at_ later
          (run enabled (before ++ .stageAuthorize ttlMs confirmed now ids :: since))).1 = .ok live) ↔
        Meets (fun s call => ¬ FindsExpired s call) step
          (run enabled (before ++ [.stageAuthorize ttlMs confirmed now ids])) since)) ∧
    ∀ calls now, (canExecute now (run enabled calls)).1 = true → ∃ grant live,
      ActivatedBy enabled calls grant ∧ lapsed grant.expiresAt now = false ∧
      (run enabled calls).grant = some live ∧ SameGrant grant live := by
  refine ⟨fun before ttlMs confirmed now ids grant since at_ later returned leaves unlapsed => ?_,
    fun calls now executes => ?_⟩
  · have staged : (run enabled (before ++ [.stageAuthorize ttlMs confirmed now ids])).staged = some grant := by
      unfold run
      rw [List.foldl_concat]
      change (stageAuthorize ttlMs confirmed now ids (run enabled before)).2.staged = some grant
      unfold stageAuthorize at returned ⊢
      split at returned
      · contradiction
      · rename_i idle
        split at returned
        · contradiction
        · rename_i built
          cases Except.ok.inj returned
          rw [if_neg idle]
    obtain ⟨either,exactly⟩ := stagedExactly (runConsistent enabled _) staged leaves
    have whole : run enabled (before ++ .stageAuthorize ttlMs confirmed now ids :: since) =
        since.foldl step (run enabled (before ++ [.stageAuthorize ttlMs confirmed now ids])) := by
      simp [run]
    rw [whole,← exactly]
    constructor
    · rintro ⟨live,committed⟩
      rcases either with gone | kept
      · rw [commitAuthorize,gone] at committed
        contradiction
      · exact kept
    · intro kept
      refine ⟨{ grant with leaseExpiresAt := later + chromeLeaseMaxMs },?_⟩
      simp only [commitAuthorize,kept,unlapsed]
      simp
  · unfold canExecute at executes
    split at executes
    · obtain ⟨some_,unlapsed⟩ := (authorizedIff now _).mp executes
      obtain ⟨live,held⟩ := Option.ne_none_iff_exists'.mp some_
      obtain ⟨grant,activated,same⟩ := activatedBy enabled calls held
      refine ⟨grant,live,activated,?_,held,same⟩
      have expiry := runConsistent enabled calls
      unfold Consistent at expiry
      rw [held] at expiry
      rw [expiry] at unlapsed
      exact same.expiry ▸ unlapsed
    · contradiction

def demoIds (name : String) : RandomIds := ⟨js name,js name,js name⟩

def demoGrant : ChromeGrantRef := ⟨js "b",js "b",js "b",some 901000,61000⟩

def demoStage : Call := .stageAuthorize (.finite 900000) true 1000 (demoIds "b")

theorem quietStageCommits :
    (commitAuthorize (js "b") (js "b") 60000 60000 (run true [demoStage,.status 2000])).1.toBool = true ∧
    ∃ grant live, ActivatedBy true [.authorize .indefinite true 0 (demoIds "a")] grant ∧ lapsed grant.expiresAt 5 = false ∧
      (run true [.authorize .indefinite true 0 (demoIds "a")]).grant = some live ∧ SameGrant grant live := by
  constructor
  · obtain ⟨live,committed⟩ := ((stagedCommits true).1 [] (.finite 900000) true 1000 (demoIds "b") demoGrant [.status 2000]
      60000 60000 (by decide +kernel) (by decide +kernel) (by decide +kernel)).mpr (by decide +kernel)
    exact congrArg Except.toBool committed
  · exact (stagedCommits true).2 [.authorize .indefinite true 0 (demoIds "a")] 5 (by decide +kernel)

/- A grant for a minute is live while another is staged, and its expiry is noticed by a reading of
the status before the commit. -/
theorem expiryDropsStaged : ¬ ∀ enabled before ttlMs confirmed now ids grant since at_ later,
    (stageAuthorize ttlMs confirmed now ids (run enabled before)).1 = .ok grant →
    Meets (Leaves grant) step (run enabled (before ++ [.stageAuthorize ttlMs confirmed now ids])) since →
    lapsed grant.expiresAt at_ = false →
    ∃ live, (commitAuthorize grant.sessionKey grant.grantId at_ later
      (run enabled (before ++ .stageAuthorize ttlMs confirmed now ids :: since))).1 = .ok live := by
  intro claim
  obtain ⟨live,committed⟩ := claim true [.authorize (.finite 60000) true 0 (demoIds "a")] (.finite 900000) true 1000
    (demoIds "b") demoGrant [.status 60000] 60001 60001 (by decide +kernel) (by decide +kernel) (by decide +kernel)
  have refused : (commitAuthorize demoGrant.sessionKey demoGrant.grantId 60001 60001
      (run true [.authorize (.finite 60000) true 0 (demoIds "a"),demoStage,.status 60000])).1.toBool = false := by
    decide +kernel
  have succeeded : (commitAuthorize demoGrant.sessionKey demoGrant.grantId 60001 60001
      (run true [.authorize (.finite 60000) true 0 (demoIds "a"),demoStage,.status 60000])).1.toBool = true :=
    congrArg Except.toBool committed
  rw [refused] at succeeded
  contradiction

end Northstar.Chrome.Authorization
