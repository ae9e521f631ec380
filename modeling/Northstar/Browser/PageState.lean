import Northstar.Mapping
import Northstar.Script

/-! The page state of browser sessions (session-page-state.ts): a token for each namespace that every change of its
page moves on, and the references of the last snapshot. -/
namespace Northstar.Browser

structure PageRef where
  ref : JsString
  role : Option JsString
  name : Option JsString
  isContentEditable : Option Bool
  deriving DecidableEq

structure TabTarget where
  tabId : JsString
  url : JsString
  title : Option JsString
  label : Option JsString
  pinned : Bool
  deriving DecidableEq

structure PageSnapshotRecord where
  token : Nat
  url : JsString
  refs : List (JsString × PageRef)
  capturedAt : Int
  deriving DecidableEq

structure StaleRefError where
  ref : JsString
  detail : JsString
  deriving DecidableEq

structure SessionPageStateStore where
  snapshots : List (JsString × PageSnapshotRecord)
  tokens : List (JsString × Nat)
  activeTabs : List (JsString × TabTarget)
  deriving DecidableEq

namespace SessionPageStateStore

def empty : SessionPageStateStore := ⟨[],[],[]⟩

variable (store : SessionPageStateStore)

def snapshot (ns : JsString) : Option PageSnapshotRecord := Mapping.look store.snapshots ns

def currentToken (ns : JsString) : Nat := (Mapping.look store.tokens ns).getD 0

def refMap (refs : List PageRef) : List (JsString × PageRef) := refs.foldl (fun refMap ref => Mapping.put refMap ref.ref ref) []

def buildAndStore (ns url : JsString) (refs : List PageRef) (token : Nat) (now : Int) :
    Option PageSnapshotRecord × SessionPageStateStore :=
  let record : PageSnapshotRecord := ⟨token,url,refMap refs,now⟩
  (some record,{ store with snapshots := Mapping.put store.snapshots ns record, tokens := Mapping.put store.tokens ns token })

def recordSnapshot (ns url : JsString) (refs : List PageRef) (expectedPriorToken : Option Nat) (now : Int) :
    Option PageSnapshotRecord × SessionPageStateStore :=
  if expectedPriorToken.any (· ≠ store.currentToken ns) then (store.snapshot ns,store)
  else store.buildAndStore ns url refs (store.currentToken ns + 1) now

def invalidate (ns : JsString) : SessionPageStateStore :=
  { store with snapshots := Mapping.drop store.snapshots ns, tokens := Mapping.put store.tokens ns (store.currentToken ns + 1) }

def resolveRef (ns ref : JsString) (expectedToken : Option Nat) : Except StaleRefError PageRef := match store.snapshot ns with
  | none => .error ⟨ref,js "no snapshot recorded or snapshot invalidated"⟩
  | some record =>
      if expectedToken.any (· ≠ record.token) then .error ⟨ref,js "snapshot superseded after ref was resolved"⟩
      else match Mapping.look record.refs ref with
        | none => .error ⟨ref,js "ref not present in current snapshot"⟩
        | some pageRef => .ok pageRef

def setActiveTab (ns : JsString) (tab : TabTarget) : SessionPageStateStore :=
  { store with activeTabs := Mapping.put store.activeTabs ns tab }

def getActiveTab (ns : JsString) : Option TabTarget := Mapping.look store.activeTabs ns

def pinTab (ns tabId : JsString) : SessionPageStateStore := match store.getActiveTab ns with
  | some tab => if tab.tabId = tabId then store.setActiveTab ns { tab with pinned := true } else store
  | none => store

def clear (ns : JsString) : SessionPageStateStore :=
  { store with
    snapshots := Mapping.drop store.snapshots ns
    tokens := Mapping.put store.tokens ns (store.currentToken ns + 1)
    activeTabs := Mapping.drop store.activeTabs ns }

/- `/^@e\\d+$/`. -/
def refShaped : JsString → Bool
  | 64 :: 101 :: number => number ≠ [] && number.all fun u => 48 ≤ u && u ≤ 57
  | _ => false

def preflightRef (ns selector : JsString) (expectedToken : Option Nat) : Except StaleRefError (Option PageRef) :=
  if refShaped selector then (store.resolveRef ns selector expectedToken).map some else .ok none

end SessionPageStateStore

/- The calls that may change the store; each is atomic. -/
inductive PageCall where
  | recordSnapshot (ns url : JsString) (refs : List PageRef) (expectedPriorToken : Option Nat) (now : Int)
  | invalidate (ns : JsString)
  | clear (ns : JsString)
  | setActiveTab (ns : JsString) (tab : TabTarget)
  | pinTab (ns tabId : JsString)

namespace SessionPageStateStore

def call (store : SessionPageStateStore) : PageCall → SessionPageStateStore
  | .recordSnapshot ns url refs expected now => (store.recordSnapshot ns url refs expected now).2
  | .invalidate ns => store.invalidate ns
  | .clear ns => store.clear ns
  | .setActiveTab ns tab => store.setActiveTab ns tab
  | .pinTab ns tabId => store.pinTab ns tabId

def run (calls : List PageCall) : SessionPageStateStore := calls.foldl call empty

/- The call stores a snapshot of a namespace, invalidates it or clears it. -/
def Moves (store : SessionPageStateStore) (ns : JsString) : PageCall → Prop
  | .recordSnapshot other _ _ expected _ => other = ns ∧ ∀ token, expected = some token → token = store.currentToken ns
  | .invalidate other => other = ns
  | .clear other => other = ns
  | _ => False

/- Some call after a first part of the run moves the namespace on. -/
def MovedSince (first later : List PageCall) (ns : JsString) : Prop :=
  ∃ before call after, later = before ++ call :: after ∧ (run (first ++ before)).Moves ns call

/- A call that stores the snapshot with a token, and nothing moves the namespace on after it. -/
def Latest (calls : List PageCall) (ns : JsString) (token : Nat) (refs : List PageRef) : Prop :=
  ∃ before url expected now after, calls = before ++ .recordSnapshot ns url refs expected now :: after ∧
    (run before).Moves ns (.recordSnapshot ns url refs expected now) ∧ (run before).currentToken ns + 1 = token ∧
    ¬MovedSince (before ++ [.recordSnapshot ns url refs expected now]) after ns

section Calls

variable {store : SessionPageStateStore} {ns : JsString} {call : PageCall}

theorem recordMoves {url : JsString} {refs : List PageRef} {expected : Option Nat} {now : Int}
    (moves : store.Moves ns (.recordSnapshot ns url refs expected now)) : store.recordSnapshot ns url refs expected now =
      store.buildAndStore ns url refs (store.currentToken ns + 1) now := by
  rw [recordSnapshot,if_neg]
  cases expected with
  | none => simp
  | some token => simp [moves.2 token rfl]

theorem recordStale {other url : JsString} {refs : List PageRef} {expected : Option Nat} {now : Int}
    (stale : ¬store.Moves other (.recordSnapshot other url refs expected now)) :
    store.recordSnapshot other url refs expected now = (store.snapshot other,store) := by
  rw [recordSnapshot,if_pos]
  cases expected with
  | none => exact absurd ⟨rfl,nofun⟩ stale
  | some token =>
    refine decide_eq_true fun same => stale ⟨rfl,fun again is => ?_⟩
    rw [← Option.some.inj is]
    exact same

/- A call moves a namespace's token on by one, or leaves the token and the snapshot of that namespace alone. -/
theorem callMoves (moves : store.Moves ns call) : (store.call call).currentToken ns = store.currentToken ns + 1 := by
  cases call with
  | recordSnapshot other url refs expected now =>
    obtain rfl := moves.1
    rw [SessionPageStateStore.call,recordMoves moves,buildAndStore,currentToken,Mapping.lookPut,if_pos rfl]
    rfl
  | invalidate other =>
    obtain rfl : other = ns := moves
    rw [SessionPageStateStore.call,invalidate,currentToken,Mapping.lookPut,if_pos rfl]
    rfl
  | clear other =>
    obtain rfl : other = ns := moves
    rw [SessionPageStateStore.call,clear,currentToken,Mapping.lookPut,if_pos rfl]
    rfl
  | setActiveTab => cases moves
  | pinTab => cases moves

structure Same (store after : SessionPageStateStore) (ns : JsString) : Prop where
  token : after.currentToken ns = store.currentToken ns
  snapshot : after.snapshot ns = store.snapshot ns

theorem putSame {other : JsString} (apart : ns ≠ other) {store after : SessionPageStateStore} {token : Nat}
    (tokens : after.tokens = Mapping.put store.tokens other token) (snapshots : after.snapshot ns = store.snapshot ns) :
    Same store after ns := by
  refine ⟨?_,snapshots⟩
  rw [currentToken,currentToken,tokens,Mapping.lookPut,if_neg apart]

theorem callSame (quiet : ¬store.Moves ns call) : Same store (store.call call) ns := by
  cases call with
  | recordSnapshot other url refs expected now =>
    by_cases moves : store.Moves other (.recordSnapshot other url refs expected now)
    · have apart : ns ≠ other := by
        rintro rfl
        exact quiet moves
      rw [SessionPageStateStore.call,recordMoves moves]
      refine putSame apart rfl ?_
      rw [snapshot,buildAndStore,Mapping.lookPut,if_neg apart]
      rfl
    · rw [SessionPageStateStore.call,recordStale moves]
      exact ⟨rfl,rfl⟩
  | invalidate other =>
    have apart : ns ≠ other := fun same => quiet same.symm
    refine putSame apart rfl ?_
    rw [snapshot,SessionPageStateStore.call,invalidate,Mapping.lookDrop,if_neg apart]
    rfl
  | clear other =>
    have apart : ns ≠ other := fun same => quiet same.symm
    refine putSame apart rfl ?_
    rw [snapshot,SessionPageStateStore.call,clear,Mapping.lookDrop,if_neg apart]
    rfl
  | setActiveTab other tab => exact ⟨rfl,rfl⟩
  | pinTab other tabId =>
    rw [SessionPageStateStore.call,pinTab]
    split
    · split
      · exact ⟨rfl,rfl⟩
      · exact ⟨rfl,rfl⟩
    · exact ⟨rfl,rfl⟩

theorem tokenGrows (store : SessionPageStateStore) (ns : JsString) (call : PageCall) :
    store.currentToken ns ≤ (store.call call).currentToken ns := by
  by_cases moves : store.Moves ns call
  · rw [callMoves moves]
    exact Nat.le_succ _
  · rw [(callSame moves).token]

end Calls

section Runs

variable {first later : List PageCall} {ns : JsString} {call : PageCall}

theorem runAppend (first later : List PageCall) : run (first ++ later) = later.foldl SessionPageStateStore.call (run first) :=
  List.foldl_append

theorem runSnoc (calls : List PageCall) (call : PageCall) : run (calls ++ [call]) = (run calls).call call := runAppend calls [call]

theorem movedSnoc : MovedSince first (later ++ [call]) ns ↔ MovedSince first later ns ∨ (run (first ++ later)).Moves ns call := by
  constructor
  · rintro ⟨before,moving,after,same,moves⟩
    rcases List.eq_nil_or_concat' after with rfl | ⟨after,last,rfl⟩
    · obtain ⟨rfl,rest⟩ := List.append_inj' same rfl
      rw [(List.cons.inj rest).1]
      exact .inr moves
    · rw [← List.cons_append,← List.append_assoc] at same
      exact .inl ⟨before,moving,after,(List.append_inj' same rfl).1,moves⟩
  · rintro (⟨before,moving,after,rfl,moves⟩ | moves)
    · exact ⟨before,moving,after ++ [call],by rw [List.append_assoc,List.cons_append],moves⟩
    · exact ⟨later,call,[],rfl,moves⟩

theorem runGrows (first later : List PageCall) (ns : JsString) : (run first).currentToken ns ≤ (run (first ++ later)).currentToken ns := by
  induction later using List.reverseRecOn with
  | nil => rw [List.append_nil]
  | append_singleton later call ih =>
    rw [← List.append_assoc,runSnoc]
    exact Nat.le_trans ih (tokenGrows _ ns call)

theorem movedToken (moved : MovedSince first later ns) : (run first).currentToken ns < (run (first ++ later)).currentToken ns := by
  obtain ⟨before,call,after,rfl,moves⟩ := moved
  have one := runGrows first before ns
  have next := callMoves moves
  have rest := runGrows (first ++ before ++ [call]) after ns
  rw [runSnoc,List.append_assoc,List.append_assoc,List.singleton_append] at rest
  omega

/- Every snapshot that is held is the one that was stored last. -/
theorem heldLatest (calls : List PageCall) (ns : JsString) (record : PageSnapshotRecord) (held : (run calls).snapshot ns = some record) :
    ∃ refs, Latest calls ns record.token refs ∧ record.refs = refMap refs := by
  induction calls using List.reverseRecOn with
  | nil => cases held
  | append_singleton calls call ih =>
    rw [runSnoc] at held
    by_cases moves : (run calls).Moves ns call
    · cases call with
      | recordSnapshot other url refs expected now =>
        obtain rfl := moves.1
        rw [SessionPageStateStore.call,recordMoves moves,buildAndStore,snapshot,Mapping.lookPut,if_pos rfl] at held
        obtain rfl := Option.some.inj held
        refine ⟨refs,⟨calls,url,expected,now,[],rfl,moves,rfl,?_⟩,rfl⟩
        rintro ⟨before,call,after,empty,_⟩
        exact absurd empty (by simp)
      | invalidate other =>
        obtain rfl : other = ns := moves
        rw [SessionPageStateStore.call,invalidate,snapshot,Mapping.lookDrop,if_pos rfl] at held
        cases held
      | clear other =>
        obtain rfl : other = ns := moves
        rw [SessionPageStateStore.call,clear,snapshot,Mapping.lookDrop,if_pos rfl] at held
        cases held
      | setActiveTab => cases moves
      | pinTab => cases moves
    · rw [(callSame moves).snapshot] at held
      obtain ⟨refs,⟨before,url,expected,now,after,rfl,stored,token,quiet⟩,same⟩ := ih held
      refine ⟨refs,⟨before,url,expected,now,after ++ [call],by simp,stored,token,fun moved => ?_⟩,same⟩
      rcases movedSnoc.mp moved with before | here
      · exact quiet before
      · rw [List.append_assoc,List.singleton_append] at here
        exact moves here

theorem refLast (refs : List PageRef) (ref : JsString) : Mapping.look (refMap refs) ref = refs.reverse.find? fun held => held.ref = ref := by
  unfold refMap
  induction refs using List.reverseRecOn with
  | nil => rfl
  | append_singleton refs last ih =>
    rw [List.foldl_append,List.foldl_cons,List.foldl_nil,Mapping.lookPut,ih,List.reverse_append,List.reverse_singleton,
      List.singleton_append,List.find?_cons]
    by_cases same : ref = last.ref
    · rw [if_pos same,decide_eq_true same.symm]
    · rw [if_neg same,decide_eq_false fun is => same is.symm]

theorem resolvedHeld {store : SessionPageStateStore} {ref : JsString} {token : Nat} {pageRef : PageRef}
    (resolved : store.resolveRef ns ref (some token) = .ok pageRef) :
    ∃ record, store.snapshot ns = some record ∧ record.token = token ∧ Mapping.look record.refs ref = some pageRef := by
  unfold resolveRef at resolved
  cases held : store.snapshot ns with
  | none => rw [held] at resolved; cases resolved
  | some record =>
    rw [held] at resolved
    simp only [Option.any_some,decide_eq_true_eq] at resolved
    by_cases differ : token ≠ record.token
    · rw [if_pos differ] at resolved
      cases resolved
    · rw [if_neg differ] at resolved
      have same := (not_not.mp differ).symm
      cases found : Mapping.look record.refs ref with
      | none => rw [found] at resolved; cases resolved
      | some there =>
        rw [found] at resolved
        exact ⟨record,rfl,same,found.trans (congrArg some (Except.ok.inj resolved))⟩

end Runs

/-- In every run of the store, for every namespace: a call that moves the namespace gives it a larger token than it ever
had; a snapshot whose prior token was taken before such a call is not stored; and a reference is resolved with a token
only from the snapshot that was stored with it, while nothing has moved the namespace since. -/
theorem refsNeverResurrected (ns : JsString) :
    (∀ first call later, (run first).Moves ns call →
      (run first).currentToken ns < (run (first ++ [call])).currentToken ns ∧
      (run (first ++ [call])).currentToken ns ≤ (run (first ++ call :: later)).currentToken ns) ∧
    (∀ first later url refs now, MovedSince first later ns →
      (run (first ++ later)).recordSnapshot ns url refs (some ((run first).currentToken ns)) now =
        ((run (first ++ later)).snapshot ns,run (first ++ later))) ∧
    ∀ calls ref token pageRef, (run calls).resolveRef ns ref (some token) = .ok pageRef →
      ∃ refs, Latest calls ns token refs ∧ refs.reverse.find? (fun held => held.ref = ref) = some pageRef := by
  refine ⟨?_,?_,?_⟩
  · intro first call later moves
    constructor
    · rw [runSnoc,callMoves moves]
      exact Nat.lt_succ_self _
    · have grows := runGrows (first ++ [call]) later ns
      rwa [List.append_assoc,List.singleton_append] at grows
  · intro first later url refs now moved
    have larger := movedToken moved
    refine recordStale fun moves => ?_
    exact absurd (moves.2 _ rfl) (Nat.ne_of_lt larger)
  · intro calls ref token pageRef resolved
    obtain ⟨record,held,rfl,found⟩ := resolvedHeld resolved
    obtain ⟨refs,latest,same⟩ := heldLatest calls ns record held
    rw [same,refLast] at found
    exact ⟨refs,latest,found⟩

/- A snapshot is in flight while the page is left: its references stay unknown, and those of the next one are found. -/
def button (name : String) : PageRef := ⟨js "@e1",none,some (js name),none⟩

def leavingPage : List PageCall := [.invalidate [],.recordSnapshot [] [] [button "old"] (some 0) 5,
  .recordSnapshot [] [] [button "new"] (some 1) 7]

theorem newButton : (run leavingPage).snapshot [] ≠ none ∧
    ∃ refs, Latest leavingPage [] 2 refs ∧ refs.reverse.find? (fun held => held.ref = js "@e1") = some (button "new") :=
  ⟨by decide,(refsNeverResurrected []).2.2 leavingPage (js "@e1") 2 (button "new") (by decide)⟩

end SessionPageStateStore

end Northstar.Browser
