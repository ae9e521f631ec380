import Northstar.Github.ClonePolicy

/-! What the clone's policy lets through: overrides that only lower a ceiling, refs that no option parser takes for
its own, and links whose target is walked to from the link's directory without leaving the clone. -/
namespace Northstar.Github.Clone
open Rooted (Step Stays climb reach climbExactly)

theorem passed {α : Type} {met : Bool} {message : JsString} {next : Except CloneError α} {out : α}
    (ok : (do refuse met message; next) = .ok out) : met = false ∧ next = .ok out := by
  cases met with
  | false => exact ⟨rfl,ok⟩
  | true => contradiction

/- An override that lowers a ceiling to a value. -/
def Lowers (raw : JsValue) (key : CloneCeiling) (value : Nat) : Prop :=
  raw = .number (.int value) ∧ 1 ≤ value ∧ value ≤ policyDefaults key

theorem admittedValue {key : CloneCeiling} {raw : JsValue} {value : Option Nat} :
    admitCeiling key raw = .ok value ↔ (raw = .undefined ∧ value = none) ∨ ∃ n, value = some n ∧ Lowers raw key n := by
  have small : (policyDefaults key : Int) ≤ 2^53 - 1 := by cases key <;> decide
  constructor
  · intro ok
    cases raw with
    | undefined => exact .inl ⟨rfl,(Except.ok.inj ok).symm⟩
    | number n => cases n with
      | int n =>
        rw [admitCeiling] at ok
        split at ok
        · contradiction
        · rename_i fits
          split at ok
          · contradiction
          · rename_i within
            refine .inr ⟨n.toNat,(Except.ok.inj ok).symm,?_,by omega,by omega⟩
            rw [Int.toNat_of_nonneg (by omega)]
      | float digits => contradiction
    | null => contradiction
    | bool value => contradiction
    | string value => contradiction
    | array items => contradiction
    | object fields => contradiction
  · rintro (⟨rfl,rfl⟩ | ⟨n,rfl,rfl,least,most⟩)
    · rfl
    · rw [admitCeiling,if_neg (by omega),if_neg (by omega),Int.toNat_natCast]

/- A ceiling after the overrides: what it was where none is given, else the lower value. -/
def Settled (overrides : CloneCeiling → JsValue) (start policy : GithubClonePolicy) (key : CloneCeiling) : Prop :=
  (overrides key = .undefined ∧ policy key = start key) ∨ Lowers (overrides key) key (policy key)

theorem loweredOne {overrides : CloneCeiling → JsValue} {start next : GithubClonePolicy} {key : CloneCeiling} :
    lowerCeiling overrides start key = .ok next ↔ Settled overrides start next key ∧ ∀ other, other ≠ key → next other = start other := by
  constructor
  · intro ok
    cases admitted : admitCeiling key (overrides key) with
    | error e => simp [lowerCeiling,admitted,bind,Except.bind] at ok
    | ok value =>
      simp only [lowerCeiling,admitted,bind,Except.bind] at ok
      rcases admittedValue.mp admitted with ⟨absent,rfl⟩ | ⟨n,rfl,lowers⟩
      · cases Except.ok.inj ok
        exact ⟨.inl ⟨absent,rfl⟩,fun _ _ => rfl⟩
      · cases Except.ok.inj ok
        exact ⟨.inr (by simpa using lowers),fun other apart => Function.update_of_ne apart ..⟩
  · rintro ⟨settled,others⟩
    have filled (value : Nat) (same : next key = value) : next = Function.update start key value := by
      funext other
      by_cases here : other = key
      · rw [here,Function.update_self,same]
      · rw [Function.update_of_ne here,others other here]
    rcases settled with ⟨absent,same⟩ | lowers
    · have admitted := admittedValue.mpr (.inl ⟨absent,rfl⟩ : _ ∨ ∃ n, none = some n ∧ Lowers (overrides key) key n)
      have equal : next = start := by rw [filled _ same,Function.update_eq_self]
      simp only [lowerCeiling,admitted,bind,Except.bind,equal]
      rfl
    · have admitted := admittedValue.mpr (.inr ⟨next key,rfl,lowers⟩)
      rw [lowerCeiling,admitted,filled _ rfl]
      simp only [bind,Except.bind,Function.update_self]
      rfl

theorem loweredAll (overrides : CloneCeiling → JsValue) {keys : List CloneCeiling} (once : keys.Nodup)
    (start policy : GithubClonePolicy) : keys.foldlM (lowerCeiling overrides) start = .ok policy ↔
      (∀ key ∈ keys, Settled overrides start policy key) ∧ ∀ key, key ∉ keys → policy key = start key := by
  induction keys generalizing start with
  | nil =>
    constructor
    · intro ok
      cases Except.ok.inj ok
      simp
    · rintro ⟨_,same⟩
      have equal : policy = start := funext fun key => same key List.not_mem_nil
      rw [equal]
      rfl
  | cons first rest ih =>
    obtain ⟨fresh,once⟩ := List.nodup_cons.mp once
    have parted : (first :: rest).foldlM (lowerCeiling overrides) start = .ok policy ↔
        ∃ next, lowerCeiling overrides start first = .ok next ∧ rest.foldlM (lowerCeiling overrides) next = .ok policy := by
      rw [List.foldlM_cons]
      cases lowerCeiling overrides start first <;> simp [bind,Except.bind]
    rw [parted]
    constructor
    · rintro ⟨next,one,later⟩
      obtain ⟨settled,others⟩ := loweredOne.mp one
      obtain ⟨within,outside⟩ := (ih once next).mp later
      have here := outside first fresh
      refine ⟨fun key member => ?_,fun key apart => ?_⟩
      · rcases List.mem_cons.mp member with rfl | member
        · rwa [Settled,here]
        · have apart : key ≠ first := fun same => fresh (same ▸ member)
          simpa [Settled,others key apart] using within key member
      · rw [outside key (List.not_mem_of_not_mem_cons apart),others key (List.ne_of_not_mem_cons apart)]
    · rintro ⟨within,outside⟩
      refine ⟨Function.update start first (policy first),loweredOne.mpr ⟨?_,?_⟩,(ih once _).mpr ⟨?_,?_⟩⟩
      · simpa [Settled] using within first List.mem_cons_self
      · exact fun other apart => Function.update_of_ne apart ..
      · intro key member
        have apart : key ≠ first := fun same => fresh (same ▸ member)
        simpa [Settled,Function.update_of_ne apart] using within key (List.mem_cons_of_mem first member)
      · intro key absent
        by_cases here : key = first
        · rw [here,Function.update_self]
        · rw [Function.update_of_ne here,outside key (List.not_mem_cons_of_ne_of_not_mem here absent)]

/- Overrides resolve exactly where each of them lowers its ceiling, and to nothing but their own values. -/
theorem policyLowered (overrides : CloneCeiling → JsValue) (policy : GithubClonePolicy) :
    resolveGithubClonePolicy (some overrides) = .ok policy ↔ ∀ key, Settled overrides policyDefaults policy key := by
  have every (key : CloneCeiling) : key ∈ cloneCeilings := by cases key <;> decide
  rw [resolveGithubClonePolicy,loweredAll overrides (by decide)]
  exact ⟨fun both key => both.1 key (every key),fun all => ⟨fun key _ => all key,fun key absent => absurd (every key) absent⟩⟩

theorem policyBounds {overrides : Option (CloneCeiling → JsValue)} {policy : GithubClonePolicy}
    (ok : resolveGithubClonePolicy overrides = .ok policy) (key : CloneCeiling) : 1 ≤ policy key ∧ policy key ≤ policyDefaults key := by
  have default : 1 ≤ policyDefaults key := by cases key <;> decide
  cases overrides with
  | none =>
    cases Except.ok.inj ok
    exact ⟨default,Nat.le_refl _⟩
  | some overrides =>
    rcases (policyLowered overrides policy).mp ok key with ⟨_,same⟩ | ⟨_,bounds⟩
    · rw [same]
      exact ⟨default,Nat.le_refl _⟩
    · exact bounds

/- A name as readdir gives it: never of the directory itself or the one above. -/
structure EntryName where
  text : JsString
  filled : text ≠ []
  slashless : 47 ∉ text
  own : text ≠ js "."
  below : text ≠ js ".."

def joined (names : List EntryName) : JsString := [47].intercalate (names.map EntryName.text)

def targetStep (segment : JsString) : Option (Step JsString) :=
  if segment.length = 0 ∨ segment = js "." then none else if segment = js ".." then some .up else some (.into segment)

/- The steps that a link's target asks for. -/
def targetSteps (target : JsString) : List (Step JsString) := (target.splitOn 47).filterMap targetStep

theorem walkClimbs (stack segments : List JsString) : walkTarget stack segments = climb stack (segments.filterMap targetStep) := by
  induction segments generalizing stack with
  | nil => rfl
  | cons segment rest ih =>
    rw [walkTarget]
    split
    · rename_i still
      have step : targetStep segment = none := if_pos still
      rw [ih,List.filterMap_cons_none step]
    · rename_i moves
      split
      · rename_i up
        have step : targetStep segment = some .up := by rw [targetStep,if_neg moves,if_pos up]
        rw [List.filterMap_cons_some step,climb,ih]
        simp
      · rename_i down
        have step : targetStep segment = some (.into segment) := by rw [targetStep,if_neg moves,if_neg down]
        rw [List.filterMap_cons_some step,climb,ih]

theorem dirnameBack {before name : JsString} (some_ : before ≠ []) (slashless : 47 ∉ name) {n : Nat} (within : n ≤ name.length) :
    dirnameEnd (before ++ 47 :: name) (before.length + n) false = some before.length := by
  induction n with
  | zero =>
    obtain ⟨u,rest,rfl⟩ := List.exists_cons_of_ne_nil some_
    simp [dirnameEnd]
  | succ n ih =>
    have found : (before ++ 47 :: name)[before.length + n + 1]? = some (name.get ⟨n,within⟩) := by
      rw [List.getElem?_append_right (by omega)]
      have at_ : before.length + n + 1 - before.length = n + 1 := by omega
      rw [at_,List.getElem?_cons_succ,List.getElem?_eq_getElem within,List.get_eq_getElem]
    have apart : name.get ⟨n,within⟩ ≠ 47 := fun same => slashless (same ▸ List.getElem_mem within)
    rw [← Nat.add_assoc,dirnameEnd,found,if_neg (by simpa using apart)]
    exact ih (Nat.le_of_succ_le within)

theorem dirnameFree {name : JsString} (slashless : 47 ∉ name) (n : Nat) (matched : Bool) : dirnameEnd name n matched = none := by
  induction n generalizing matched with
  | zero => rfl
  | succ n ih =>
    have apart : name[n + 1]? ≠ some 47 := fun found => slashless (List.mem_of_getElem? found)
    rw [dirnameEnd,if_neg apart,ih]

theorem joinedLast {dir : List EntryName} (some_ : dir ≠ []) (name : EntryName) :
    joined (dir ++ [name]) = joined dir ++ 47 :: name.text := by
  induction dir with
  | nil => contradiction
  | cons first rest ih => cases rest with
    | nil => simp [joined]
    | cons second more =>
      have later := ih (List.cons_ne_nil second more)
      simp only [joined,List.cons_append,List.map_cons,List.map_append,List.intercalate_cons_cons,List.append_assoc] at later ⊢
      rw [later]

theorem joinedHead {dir : List EntryName} (some_ : dir ≠ []) : ∃ u rest, joined dir = u :: rest ∧ u ≠ 47 := by
  obtain ⟨first,more,rfl⟩ := List.exists_cons_of_ne_nil some_
  obtain ⟨u,rest,named⟩ := List.exists_cons_of_ne_nil first.filled
  have apart : u ≠ 47 := fun same => first.slashless (by rw [named,same]; exact List.mem_cons_self)
  cases more with
  | nil => exact ⟨u,rest,by simp [joined,named],apart⟩
  | cons second more => exact ⟨u,rest ++ [47] ++ joined (second :: more),by simp [joined,named,List.intercalate_cons_cons],apart⟩

theorem dirnameJoined (dir : List EntryName) (name : EntryName) :
    dirname (joined (dir ++ [name])) = if dir = [] then [46] else joined dir := by
  by_cases top : dir = []
  · subst top
    obtain ⟨u,rest,named⟩ := List.exists_cons_of_ne_nil name.filled
    have apart : u ≠ 47 := fun same => name.slashless (by rw [named,same]; exact List.mem_cons_self)
    have whole : joined ([] ++ [name]) = name.text := by simp [joined]
    rw [if_pos rfl,whole,dirname,dirnameFree name.slashless]
    simp [named,apart]
  · obtain ⟨u,rest,dirs,apart⟩ := joinedHead top
    have some_ : joined dir ≠ [] := by simp [dirs]
    obtain ⟨v,more,named⟩ := List.exists_cons_of_ne_nil name.filled
    have last : (joined dir ++ 47 :: name.text)[(joined dir).length + more.length + 1]? ≠ some 47 := by
      rw [List.getElem?_append_right (by omega)]
      have at_ : (joined dir).length + more.length + 1 - (joined dir).length = more.length + 1 := by omega
      rw [at_,List.getElem?_cons_succ]
      exact fun found => name.slashless (List.mem_of_getElem? found)
    have size : (joined dir ++ 47 :: name.text).length - 1 = (joined dir).length + more.length + 1 := by
      simp [named]
      omega
    have cut : dirnameEnd (joined dir ++ 47 :: name.text) ((joined dir ++ 47 :: name.text).length - 1) true = some (joined dir).length := by
      rw [size,dirnameEnd,if_neg last]
      exact dirnameBack some_ name.slashless (by rw [named,List.length_cons]; omega)
    have relative : ¬ (joined dir ++ 47 :: name.text).head? = some 47 := by simp [dirs,apart]
    rw [if_neg top,joinedLast top,dirname,cut]
    simp only [relative]
    simp

theorem directoryJoined (dir : List EntryName) (name : EntryName) :
    directoryParts (joined (dir ++ [name])) = dir.map EntryName.text := by
  rw [directoryParts,dirnameJoined]
  by_cases top : dir = []
  · subst top
    decide
  · have plain : ∀ part ∈ dir.map EntryName.text, 47 ∉ part := by
      intro part member
      obtain ⟨one,_,rfl⟩ := List.mem_map.mp member
      exact one.slashless
    rw [if_neg top,joined,List.splitOn_intercalate 47 plain (by simpa using top),List.filter_eq_self]
    intro part member
    obtain ⟨one,_,rfl⟩ := List.mem_map.mp member
    simpa using ⟨List.length_pos_iff.mpr one.filled,one.own⟩

/- A link is let through exactly where its target, walked to from the link's own directory and wherever the clone
stands, never leaves the clone and ends below it but not in .git. -/
theorem linkConfined (top : JsString) (above : List JsString) (dir : List EntryName) (name : EntryName) (target : JsString) :
    let root := top :: above
    let place := root ++ dir.map EntryName.text
    isGithubCloneSymlinkEscape (joined (dir ++ [name])) target = false ↔
      target ≠ [] ∧ target.head? ≠ some 47 ∧ Stays root place (targetSteps target) ∧
        ∃ first below, reach place (targetSteps target) = root ++ first :: below ∧ first ≠ js ".git" := by
  intro root place
  have exactly (final : List JsString) := climbExactly (List.cons_ne_nil top above) (dir.map EntryName.text) (targetSteps target) final
  have walked : walkTarget (directoryParts (joined (dir ++ [name]))) (target.splitOn 47) =
      climb (dir.map EntryName.text) (targetSteps target) := by rw [directoryJoined,walkClimbs]; rfl
  by_cases empty : target = []
  · simp [isGithubCloneSymlinkEscape,empty]
  · by_cases absolute : target.head? = some 47
    · simp [isGithubCloneSymlinkEscape,absolute]
    · rw [isGithubCloneSymlinkEscape,if_neg (by simpa using empty),if_neg absolute,walked]
      cases climbed : climb (dir.map EntryName.text) (targetSteps target) with
      | none =>
        simp only [Bool.true_eq_false,false_iff]
        rintro ⟨_,_,stays,first,below,same,_⟩
        exact absurd (climbed.symm.trans ((exactly (first :: below)).mpr ⟨stays,same⟩)) (by simp)
      | some stack =>
        obtain ⟨stays,reached⟩ := (exactly stack).mp climbed
        have lands (first : JsString) (below : List JsString) :
            reach place (targetSteps target) = root ++ first :: below ↔ stack = first :: below := by
          rw [show reach place (targetSteps target) = root ++ stack from reached,List.append_cancel_left_eq]
        simp only [lands]
        cases stack with
        | nil => simp
        | cons first below => simp [empty,absolute,show Stays root place (targetSteps target) from stays]

theorem linkRejected {path target : JsString} (stays : isGithubCloneSymlinkEscape path target = false) (policy : GithubClonePolicy) :
    (classifyGithubCloneEntry { path, isSymlink := true, symlinkTarget := some target } policy).decision = .reject ↔
      admitsPath path = false := by
  have some_ : target.length ≠ 0 := by
    intro none_
    simp [isGithubCloneSymlinkEscape,none_] at stays
  cases admits : admitsPath path <;> simp [classifyGithubCloneEntry,admits,some_,stays]

example : isGithubCloneSymlinkEscape (js "docs/a/link") (js "../../.git/config") = true ∧
    isGithubCloneSymlinkEscape (js "docs/a/link") (js "../b/../c") = false := by decide

end Northstar.Github.Clone
