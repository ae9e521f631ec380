import Northstar.Github.CloneGates
import Northstar.Utf8
import Northstar.Visiting

/-! The scan of a finished clone under its ceilings (scanCloneTree in github-clone.ts), and what it makes of the
whole tree whatever the order it goes through it in. The tree is as the file system answers; a call that fails
is left to the run around the scan. -/
namespace Northstar.Github.Clone
open Visiting

/- What lstat finds behind a name that is no directory, with what readFile or readlink and realpathWithinRoot say of it. -/
inductive CloneLeaf where
  | file (size : Nat) (content : Bytes)
  | symlink (target : JsString) (within : Bool)
  | special

abbrev CloneDir := Listing JsString CloneLeaf

structure GithubCloneScanFile where
  path : JsString
  size : Nat
  text : JsString
  deriving DecidableEq, Repr

structure CloneScanState where
  files : List GithubCloneScanFile := []
  metadataOnly : List JsString := []
  warnings : List JsString := []
  scanned : Nat := 0
  textBytes : Nat := 0
  repoBytes : Nat := 0
  deriving DecidableEq, Repr

section Scan
variable (policy : GithubClonePolicy)

def pushWarning (state : CloneScanState) (formatted : JsString) : CloneScanState :=
  if formatted ∈ state.warnings then state
  else if state.warnings.length ≥ policy .maxTreeEntries then state
  else { state with warnings := state.warnings ++ [formatted] }

def warn (state : CloneScanState) (message rel : JsString) : CloneScanState :=
  pushWarning policy state (message ++ js ": " ++ rel.take 64)

def onlyMetadata (state : CloneScanState) (rel : JsString) : CloneScanState :=
  { state with metadataOnly := state.metadataOnly ++ [rel] }

def scanSymlinkEntry (state : CloneScanState) (rel target : JsString) (within : Bool) : CloneScanState :=
  if isGithubCloneSymlinkEscape rel target || !within then warn policy state (js "symlink escape rejected") rel
  else
    let verdict := classifyGithubCloneEntry { path := rel, isSymlink := true, symlinkTarget := some target } defaultGithubClonePolicy
    if verdict.decision = .reject then warn policy state (js "symlink rejected") rel
    else onlyMetadata state rel

def sniffBytes : Nat := 8192

def isBinarySample (sample : Bytes) : Bool := sample.contains 0

def scanFileEntry (state : CloneScanState) (rel : JsString) (size : Nat) (content : Bytes) : CloneScanState :=
  if !admitsPath rel then warn policy state (js "path rejected") rel
  else if size > policy .maxFileBytes then onlyMetadata state rel
  else if content.length > policy .maxFileBytes then onlyMetadata state rel
  else if isBinarySample (content.take sniffBytes) then onlyMetadata state rel
  else
    let text := Utf8.decode content
    let bytes := byteLength text
    if state.textBytes + bytes > policy .maxTextBytes then
      onlyMetadata (pushWarning policy state (js "text budget exhausted, remaining files metadata-only")) rel
    else { state with textBytes := state.textBytes + bytes, files := state.files ++ [⟨rel,size,text⟩] }

def fileCeilingError : CloneError :=
  ⟨.upstreamError,js "clone exceeds file scan ceiling of " ++ js (toString (policy .maxFilesScanned))⟩

def cloneCeilingError : CloneError :=
  ⟨.upstreamError,js "clone exceeds repo ceiling of " ++ js (toString (policy .maxRepoBytes)) ++ js " bytes"⟩

def scanOneEntry (state : CloneScanState) (entry : JsString × CloneLeaf) : Except CloneError CloneScanState :=
  match entry.2 with
  | .symlink target within => .ok (scanSymlinkEntry policy state entry.1 target within)
  | .special => .ok (warn policy state (js "special file rejected") entry.1)
  | .file size content =>
      let state := { state with scanned := state.scanned + 1 }
      if state.scanned > policy .maxFilesScanned then .error (fileCeilingError policy)
      else
        let state := { state with repoBytes := state.repoBytes + size }
        if state.repoBytes > policy .maxRepoBytes then .error (cloneCeilingError policy)
        else .ok (scanFileEntry policy state entry.1 size content)

end Scan

def childPath (relative name : JsString) : JsString := if relative.length = 0 then name else relative ++ [47] ++ name

def touchesGit (rel : JsString) : Bool := (rel.splitOn 47).contains (js ".git")

def scanCloneTree (policy : GithubClonePolicy) (tree : CloneDir) : Except CloneError CloneScanState :=
  walk childPath touchesGit (scanOneEntry policy) [] tree {}

/- What a clone holds outside of .git, every entry under its path. -/
def cloneEntries (tree : CloneDir) : List (JsString × CloneLeaf) := leaves childPath touchesGit [] tree

def CloneLeaf.files : CloneLeaf → Nat
  | .file _ _ => 1
  | _ => 0

def CloneLeaf.bytes : CloneLeaf → Nat
  | .file size _ => size
  | _ => 0

def fileCount (entries : List (JsString × CloneLeaf)) : Nat := (entries.map fun entry => entry.2.files).sum

def repoSize (entries : List (JsString × CloneLeaf)) : Nat := (entries.map fun entry => entry.2.bytes).sum

/- What a scan tells of at all: a file or a link inside of the clone, under a path that is let through. -/
def listed (entry : JsString × CloneLeaf) : Bool := match entry.2 with
  | .file _ _ => admitsPath entry.1
  | .symlink target within => admitsPath entry.1 && !isGithubCloneSymlinkEscape entry.1 target && within
  | .special => false

/- What a scan may give the text of. -/
def readable (policy : GithubClonePolicy) (entry : JsString × CloneLeaf) : Bool := match entry.2 with
  | .file size content => admitsPath entry.1 && decide (size ≤ policy .maxFileBytes) &&
      decide (content.length ≤ policy .maxFileBytes) && !isBinarySample (content.take sniffBytes)
  | _ => false

def scanFile (entry : JsString × CloneLeaf) : GithubCloneScanFile := match entry.2 with
  | .file size content => ⟨entry.1,size,Utf8.decode content⟩
  | _ => ⟨entry.1,0,[]⟩

def textSize (entries : List (JsString × CloneLeaf)) : Nat := (entries.map fun entry => byteLength (scanFile entry).text).sum

/- What one entry adds to the lists of a scan. -/
inductive Placed (policy : GithubClonePolicy) (state : CloneScanState) (entry : JsString × CloneLeaf) (next : CloneScanState) : Prop where
  | text (told : listed entry) (may : readable policy entry)
      (fits : state.textBytes + byteLength (scanFile entry).text ≤ policy .maxTextBytes)
      (files : next.files = state.files ++ [scanFile entry]) (others : next.metadataOnly = state.metadataOnly)
      (bytes : next.textBytes = state.textBytes + byteLength (scanFile entry).text)
  | metadata (told : listed entry)
      (cannot : readable policy entry → policy .maxTextBytes < state.textBytes + byteLength (scanFile entry).text)
      (files : next.files = state.files) (others : next.metadataOnly = state.metadataOnly ++ [entry.1])
      (bytes : next.textBytes = state.textBytes)
  | nothing (untold : listed entry = false) (unread : readable policy entry = false)
      (files : next.files = state.files) (others : next.metadataOnly = state.metadataOnly)
      (bytes : next.textBytes = state.textBytes)

section Steps
variable {policy : GithubClonePolicy}

/- A warning changes nothing else of a scan. -/
theorem pushed (policy : GithubClonePolicy) (state : CloneScanState) (formatted : JsString) :
    ∃ warnings, pushWarning policy state formatted = { state with warnings } := by
  rw [pushWarning]
  split
  · exact ⟨state.warnings,rfl⟩
  · split
    · exact ⟨state.warnings,rfl⟩
    · exact ⟨state.warnings ++ [formatted],rfl⟩

def Same (state next : CloneScanState) : Prop := next.scanned = state.scanned ∧ next.repoBytes = state.repoBytes

theorem symlinkScanned (policy : GithubClonePolicy) (state : CloneScanState) (rel target : JsString) (within : Bool) :
    Same state (scanSymlinkEntry policy state rel target within) ∧
      Placed policy state (rel,.symlink target within) (scanSymlinkEntry policy state rel target within) := by
  rw [scanSymlinkEntry]
  split
  · rename_i escaped
    obtain ⟨warnings,pushes⟩ := pushed policy state (js "symlink escape rejected" ++ js ": " ++ rel.take 64)
    rw [warn,pushes]
    have untold : listed (rel,.symlink target within) = false := by
      cases within <;> simp_all [listed]
    exact ⟨⟨rfl,rfl⟩,.nothing untold rfl rfl rfl rfl⟩
  · rename_i inside
    simp only [Bool.not_eq_true,Bool.or_eq_false_iff,Bool.not_eq_false'] at inside
    have told : listed (rel,.symlink target within) = admitsPath rel := by simp [listed,inside]
    dsimp only
    split
    · rename_i refused
      obtain ⟨warnings,pushes⟩ := pushed policy state (js "symlink rejected" ++ js ": " ++ rel.take 64)
      rw [warn,pushes]
      exact ⟨⟨rfl,rfl⟩,.nothing (told.trans ((linkRejected inside.1 _).mp refused)) rfl rfl rfl rfl⟩
    · rename_i let_
      have admits : admitsPath rel = true := by simpa using mt (linkRejected inside.1 _).mpr let_
      exact ⟨⟨rfl,rfl⟩,.metadata (told.trans admits) (fun may => absurd may (by simp [readable])) rfl rfl rfl⟩

theorem fileScanned (policy : GithubClonePolicy) (state : CloneScanState) (rel : JsString) (size : Nat) (content : Bytes) :
    Same state (scanFileEntry policy state rel size content) ∧
      Placed policy state (rel,.file size content) (scanFileEntry policy state rel size content) := by
  rw [scanFileEntry]
  split
  · rename_i refused
    obtain ⟨warnings,pushes⟩ := pushed policy state (js "path rejected" ++ js ": " ++ rel.take 64)
    rw [warn,pushes]
    have bad : admitsPath rel = false := by simpa using refused
    exact ⟨⟨rfl,rfl⟩,.nothing bad (by simp [readable,bad]) rfl rfl rfl⟩
  · rename_i admits
    have told : listed (rel,.file size content) = true := by simpa [listed] using admits
    split
    · rename_i large
      exact ⟨⟨rfl,rfl⟩,.metadata told (fun may => absurd may (by simp [readable,large])) rfl rfl rfl⟩
    · rename_i small
      split
      · rename_i long
        exact ⟨⟨rfl,rfl⟩,.metadata told (fun may => absurd may (by simp [readable,long])) rfl rfl rfl⟩
      · rename_i short
        split
        · rename_i binary
          exact ⟨⟨rfl,rfl⟩,.metadata told (fun may => absurd may (by simp [readable,binary])) rfl rfl rfl⟩
        · rename_i plain
          dsimp only
          split
          · rename_i beyond
            obtain ⟨warnings,pushes⟩ := pushed policy state (js "text budget exhausted, remaining files metadata-only")
            rw [pushes]
            exact ⟨⟨rfl,rfl⟩,.metadata told (fun _ => beyond) rfl rfl rfl⟩
          · rename_i fits
            have may : readable policy (rel,.file size content) = true := by
              simp_all [readable]
            exact ⟨⟨rfl,rfl⟩,.text told may (Nat.le_of_not_lt fits) rfl rfl rfl⟩

/- One entry is counted and put in its place, or ends the scan where it is one too many or too large. -/
theorem entryScanned {state : CloneScanState} (entry : JsString × CloneLeaf) (few : state.scanned ≤ policy .maxFilesScanned)
    (small : state.repoBytes ≤ policy .maxRepoBytes) :
    (state.scanned + entry.2.files ≤ policy .maxFilesScanned ∧ state.repoBytes + entry.2.bytes ≤ policy .maxRepoBytes ∧
      ∃ next, scanOneEntry policy state entry = .ok next ∧ next.scanned = state.scanned + entry.2.files ∧
        next.repoBytes = state.repoBytes + entry.2.bytes ∧ Placed policy state entry next) ∨
    (policy .maxFilesScanned < state.scanned + entry.2.files ∧ scanOneEntry policy state entry = .error (fileCeilingError policy)) ∨
    (policy .maxRepoBytes < state.repoBytes + entry.2.bytes ∧ scanOneEntry policy state entry = .error (cloneCeilingError policy)) := by
  obtain ⟨rel,leaf⟩ := entry
  cases leaf with
  | symlink target within =>
    obtain ⟨same,placed⟩ := symlinkScanned policy state rel target within
    exact .inl ⟨few,small,_,rfl,same.1,same.2,placed⟩
  | special =>
    obtain ⟨warnings,pushes⟩ := pushed policy state (js "special file rejected" ++ js ": " ++ rel.take 64)
    refine .inl ⟨few,small,_,rfl,?_,?_,?_⟩
    · rw [warn,pushes]
      rfl
    · rw [warn,pushes]
      rfl
    · rw [warn,pushes]
      exact .nothing rfl rfl rfl rfl rfl
  | file size content =>
    simp only [scanOneEntry,CloneLeaf.files,CloneLeaf.bytes]
    split
    · rename_i beyond
      exact .inr (.inl ⟨beyond,rfl⟩)
    · rename_i fewer
      split
      · rename_i beyond
        exact .inr (.inr ⟨beyond,rfl⟩)
      · rename_i smaller
        obtain ⟨same,placed⟩ := fileScanned policy
          { state with scanned := state.scanned + 1, repoBytes := state.repoBytes + size } rel size content
        refine .inl ⟨Nat.le_of_not_lt fewer,Nat.le_of_not_lt smaller,_,rfl,same.1,same.2,?_⟩
        cases placed with
        | text told may fits files others bytes => exact .text told may fits files others bytes
        | metadata told cannot files others bytes => exact .metadata told cannot files others bytes
        | nothing untold unread files others bytes => exact .nothing untold unread files others bytes

end Steps

/- What a scan holds of the entries it went through. -/
structure Scanned (policy : GithubClonePolicy) (entries : List (JsString × CloneLeaf)) (state : CloneScanState) : Prop where
  scanned : state.scanned = fileCount entries
  repoBytes : state.repoBytes = repoSize entries
  few : state.scanned ≤ policy .maxFilesScanned
  small : state.repoBytes ≤ policy .maxRepoBytes
  paths : (state.files.map GithubCloneScanFile.path ++ state.metadataOnly).Perm ((entries.filter listed).map Prod.fst)
  kept : ∃ kept : List (JsString × CloneLeaf), kept.Sublist (entries.filter (readable policy)) ∧ state.files = kept.map scanFile
  texts : state.textBytes = (state.files.map fun file => byteLength file.text).sum
  budget : state.textBytes ≤ policy .maxTextBytes
  greedy : ∀ entry ∈ entries, readable policy entry →
    scanFile entry ∈ state.files ∨ policy .maxTextBytes < state.textBytes + byteLength (scanFile entry).text
  whole : textSize (entries.filter (readable policy)) ≤ policy .maxTextBytes →
    state.files = (entries.filter (readable policy)).map scanFile

section Run
variable {policy : GithubClonePolicy} {entries : List (JsString × CloneLeaf)} {state next : CloneScanState}

theorem scannedNone (policy : GithubClonePolicy) : Scanned policy [] {} where
  scanned := rfl
  repoBytes := rfl
  few := Nat.zero_le _
  small := Nat.zero_le _
  paths := .refl _
  kept := ⟨[],.slnil,rfl⟩
  texts := rfl
  budget := Nat.zero_le _
  greedy := fun _ member => absurd member List.not_mem_nil
  whole := fun _ => rfl

theorem fileAt {entry : JsString × CloneLeaf} : (scanFile entry).path = entry.1 := by
  obtain ⟨rel,leaf⟩ := entry
  cases leaf <;> rfl

theorem scannedNext (before : Scanned policy entries state) {entry : JsString × CloneLeaf} (placed : Placed policy state entry next)
    (scanned : next.scanned = state.scanned + entry.2.files) (repoBytes : next.repoBytes = state.repoBytes + entry.2.bytes)
    (few : state.scanned + entry.2.files ≤ policy .maxFilesScanned) (small : state.repoBytes + entry.2.bytes ≤ policy .maxRepoBytes) :
    Scanned policy (entries ++ [entry]) next := by
  obtain ⟨kept,within,filed⟩ := before.kept
  have counts : next.scanned = fileCount (entries ++ [entry]) := by simp [scanned,before.scanned,fileCount]
  have sizes : next.repoBytes = repoSize (entries ++ [entry]) := by simp [repoBytes,before.repoBytes,repoSize]
  cases placed with
  | text told may fits files others bytes =>
    have listedLast : (entries ++ [entry]).filter listed = entries.filter listed ++ [entry] := by simp [told]
    have readableLast : (entries ++ [entry]).filter (readable policy) = entries.filter (readable policy) ++ [entry] := by simp [may]
    refine ⟨counts,sizes,scanned ▸ few,repoBytes ▸ small,?_,?_,?_,?_,?_,?_⟩
    · rw [files,others,listedLast,List.map_append,List.map_append,List.append_assoc]
      refine (List.perm_append_comm.append_left _).trans ?_
      rw [← List.append_assoc]
      exact before.paths.append (by simp [fileAt])
    · exact ⟨kept ++ [entry],readableLast ▸ within.append_right _,by rw [files,filed,List.map_append]; rfl⟩
    · simp [bytes,files,before.texts]
    · exact bytes ▸ fits
    · intro one member can
      rw [files,bytes]
      rcases List.mem_append.mp member with earlier | last
      · rcases before.greedy one earlier can with there | beyond
        · exact .inl (List.mem_append_left _ there)
        · exact .inr (by omega)
      · rw [List.mem_singleton.mp last]
        exact .inl List.mem_concat_self
    · intro all
      rw [readableLast] at all ⊢
      simp only [textSize,List.map_append,List.sum_append] at all
      rw [files,before.whole (by simp only [textSize]; omega),List.map_append]
      rfl
  | metadata told cannot files others bytes =>
    have listedLast : (entries ++ [entry]).filter listed = entries.filter listed ++ [entry] := by simp [told]
    refine ⟨counts,sizes,scanned ▸ few,repoBytes ▸ small,?_,?_,?_,?_,?_,?_⟩
    · rw [files,others,listedLast,List.map_append,← List.append_assoc]
      exact before.paths.append_right _
    · refine ⟨kept,?_,files.trans filed⟩
      rw [List.filter_append]
      exact within.trans (List.sublist_append_left ..)
    · rw [bytes,files,before.texts]
    · exact bytes ▸ before.budget
    · intro one member can
      rw [files,bytes]
      rcases List.mem_append.mp member with earlier | last
      · exact before.greedy one earlier can
      · rw [List.mem_singleton.mp last] at can ⊢
        exact .inr (cannot can)
    · intro all
      cases may : readable policy entry with
      | false =>
        have same : (entries ++ [entry]).filter (readable policy) = entries.filter (readable policy) := by simp [may]
        rw [same] at all ⊢
        rw [files,before.whole all]
      | true =>
        have readableLast : (entries ++ [entry]).filter (readable policy) = entries.filter (readable policy) ++ [entry] := by simp [may]
        rw [readableLast] at all
        simp only [textSize,List.map_append,List.map_singleton,List.sum_append,List.sum_singleton] at all
        have filled := before.whole (by simp only [textSize]; omega)
        have beyond := cannot may
        have total := before.texts
        rw [filled,List.map_map] at total
        simp only [Function.comp_def] at total
        omega
  | nothing untold unread files others bytes =>
    have listedSame : (entries ++ [entry]).filter listed = entries.filter listed := by simp [untold]
    have readableSame : (entries ++ [entry]).filter (readable policy) = entries.filter (readable policy) := by simp [unread]
    refine ⟨counts,sizes,scanned ▸ few,repoBytes ▸ small,?_,?_,?_,?_,?_,?_⟩
    · rw [files,others,listedSame]
      exact before.paths
    · exact ⟨kept,readableSame ▸ within,files.trans filed⟩
    · rw [bytes,files,before.texts]
    · exact bytes ▸ before.budget
    · intro one member can
      rw [files,bytes]
      rcases List.mem_append.mp member with earlier | last
      · exact before.greedy one earlier can
      · rw [List.mem_singleton.mp last,unread] at can
        contradiction
    · rw [files,readableSame]
      exact before.whole

theorem scannedAll (rest : List (JsString × CloneLeaf)) (before : Scanned policy entries state) :
    (fileCount (entries ++ rest) ≤ policy .maxFilesScanned ∧ repoSize (entries ++ rest) ≤ policy .maxRepoBytes ∧
      ∃ last, rest.foldlM (scanOneEntry policy) state = .ok last ∧ Scanned policy (entries ++ rest) last) ∨
    (policy .maxFilesScanned < fileCount (entries ++ rest) ∧ rest.foldlM (scanOneEntry policy) state = .error (fileCeilingError policy)) ∨
    (policy .maxRepoBytes < repoSize (entries ++ rest) ∧ rest.foldlM (scanOneEntry policy) state = .error (cloneCeilingError policy)) := by
  induction rest generalizing entries state with
  | nil =>
    rw [List.append_nil]
    exact .inl ⟨before.scanned ▸ before.few,before.repoBytes ▸ before.small,state,rfl,before⟩
  | cons entry rest ih =>
    have parts : entries ++ entry :: rest = entries ++ [entry] ++ rest := by simp
    have files : fileCount (entries ++ entry :: rest) = state.scanned + entry.2.files + fileCount rest := by
      simp [before.scanned,fileCount,Nat.add_assoc]
    have bytes : repoSize (entries ++ entry :: rest) = state.repoBytes + entry.2.bytes + repoSize rest := by
      simp [before.repoBytes,repoSize,Nat.add_assoc]
    rw [List.foldlM_cons]
    rcases entryScanned entry before.few before.small with ⟨few,small,next,one,counted,sized,placed⟩ | ⟨many,one⟩ | ⟨large,one⟩
    · rw [one,parts]
      exact ih (scannedNext before placed counted sized few small)
    · rw [one]
      exact .inr (.inl ⟨by omega,rfl⟩)
    · rw [one]
      exact .inr (.inr ⟨by omega,rfl⟩)

theorem scanOrder (policy : GithubClonePolicy) (tree : CloneDir) : ∃ order : List (JsString × CloneLeaf),
    order.Perm (cloneEntries tree) ∧ scanCloneTree policy tree = order.foldlM (scanOneEntry policy) {} := by
  have once : ∃ order : List (JsString × CloneLeaf), order.Perm (cloneEntries tree) ∧
      ∀ state, walk childPath touchesGit (scanOneEntry policy) [] tree state = order.foldlM (scanOneEntry policy) state := walkOnce [] tree
  obtain ⟨order,same,walks⟩ := once
  exact ⟨order,same,walks {}⟩

theorem scanScanned {tree : CloneDir} (ok : scanCloneTree policy tree = .ok state) :
    ∃ order : List (JsString × CloneLeaf), order.Perm (cloneEntries tree) ∧ Scanned policy order state := by
  obtain ⟨order,same,scans⟩ := scanOrder policy tree
  have ran := scans.symm.trans ok
  rcases scannedAll order (scannedNone policy) with ⟨_,_,last,ends,scanned⟩ | ⟨_,fails⟩ | ⟨_,fails⟩
  · rw [ends] at ran
    cases Except.ok.inj ran
    exact ⟨order,same,scanned⟩
  · exact absurd (fails.symm.trans ran) (by simp)
  · exact absurd (fails.symm.trans ran) (by simp)

end Run

theorem countSame {a b : List (JsString × CloneLeaf)} (same : a.Perm b) : fileCount a = fileCount b := (same.map _).sum_eq

theorem sizeSame {a b : List (JsString × CloneLeaf)} (same : a.Perm b) : repoSize a = repoSize b := (same.map _).sum_eq

theorem scanParted (policy : GithubClonePolicy) (tree : CloneDir) :
    (fileCount (cloneEntries tree) ≤ policy .maxFilesScanned ∧ repoSize (cloneEntries tree) ≤ policy .maxRepoBytes ∧
      ∃ state, scanCloneTree policy tree = .ok state) ∨
    (policy .maxFilesScanned < fileCount (cloneEntries tree) ∧ scanCloneTree policy tree = .error (fileCeilingError policy)) ∨
    (policy .maxRepoBytes < repoSize (cloneEntries tree) ∧ scanCloneTree policy tree = .error (cloneCeilingError policy)) := by
  obtain ⟨order,same,scans⟩ := scanOrder policy tree
  have parted := scannedAll order (scannedNone policy)
  rw [List.nil_append,countSame same,sizeSame same,← scans] at parted
  rcases parted with ⟨few,small,last,ends,_⟩ | failed
  · exact .inl ⟨few,small,last,ends⟩
  · exact .inr failed

/- A scan fails exactly where the files outside of .git are too many or too large in all, and names a ceiling that
they pass. -/
theorem scanBounded (policy : GithubClonePolicy) (tree : CloneDir) :
    ((∃ state, scanCloneTree policy tree = .ok state) ↔ fileCount (cloneEntries tree) ≤ policy .maxFilesScanned ∧
      repoSize (cloneEntries tree) ≤ policy .maxRepoBytes) ∧
    ∀ e, scanCloneTree policy tree = .error e →
      (e = fileCeilingError policy ∧ policy .maxFilesScanned < fileCount (cloneEntries tree)) ∨
        (e = cloneCeilingError policy ∧ policy .maxRepoBytes < repoSize (cloneEntries tree)) := by
  rcases scanParted policy tree with ⟨few,small,last,ends⟩ | ⟨many,fails⟩ | ⟨large,fails⟩
  · refine ⟨⟨fun _ => ⟨few,small⟩,fun _ => ⟨last,ends⟩⟩,?_⟩
    intro e failed
    exact absurd (ends.symm.trans failed) (by simp)
  · refine ⟨⟨?_,fun within => absurd within.1 (by omega)⟩,?_⟩
    · rintro ⟨state,ok⟩
      exact absurd (fails.symm.trans ok) (by simp)
    · intro e failed
      exact .inl ⟨(Except.error.inj (fails.symm.trans failed)).symm,many⟩
  · refine ⟨⟨?_,fun within => absurd within.2 (by omega)⟩,?_⟩
    · rintro ⟨state,ok⟩
      exact absurd (fails.symm.trans ok) (by simp)
    · intro e failed
      exact .inr ⟨(Except.error.inj (fails.symm.trans failed)).symm,large⟩

/- Every entry that may be told of is told of once, and nothing else is. -/
theorem scanTold {policy : GithubClonePolicy} {tree : CloneDir} {state : CloneScanState} (ok : scanCloneTree policy tree = .ok state) :
    (state.files.map GithubCloneScanFile.path ++ state.metadataOnly).Perm (((cloneEntries tree).filter listed).map Prod.fst) := by
  obtain ⟨order,same,scanned⟩ := scanScanned ok
  exact scanned.paths.trans ((same.filter listed).map Prod.fst)

/- The texts are those of readable files, each given at most once; they stay within the budget, no text that is left
out would have fit, and none is left out where all of them fit. -/
theorem scanRead {policy : GithubClonePolicy} {tree : CloneDir} {state : CloneScanState} (ok : scanCloneTree policy tree = .ok state) :
    let may := (cloneEntries tree).filter (readable policy)
    let used := (state.files.map fun file => byteLength file.text).sum
    (∃ kept, List.Subperm kept may ∧ state.files = kept.map scanFile) ∧ used ≤ policy .maxTextBytes ∧
      (∀ entry ∈ may, scanFile entry ∈ state.files ∨ policy .maxTextBytes < used + byteLength (scanFile entry).text) ∧
      (textSize may ≤ policy .maxTextBytes → state.files.Perm (may.map scanFile)) := by
  obtain ⟨order,same,scanned⟩ := scanScanned ok
  obtain ⟨kept,within,filed⟩ := scanned.kept
  have chosen := same.filter (readable policy)
  intro may used
  have total : used = state.textBytes := scanned.texts.symm
  rw [total]
  refine ⟨⟨kept,within.subperm.trans chosen.subperm,filed⟩,scanned.budget,?_,?_⟩
  · intro entry member
    obtain ⟨there,can⟩ := List.mem_filter.mp member
    exact scanned.greedy entry (same.mem_iff.mpr there) can
  · intro all
    have all : textSize (order.filter (readable policy)) ≤ policy .maxTextBytes := by
      rwa [textSize,(chosen.map _).sum_eq]
    rw [scanned.whole all]
    exact chosen.map scanFile

/- A clone with a text, a link to it, a link out of the clone and its own .git. -/
def smallClone : CloneDir :=
  .dir (js ".git") (.leaf (js "HEAD") (.file 4 [114,101,102,58]) .done)
    (.dir (js "docs") (.leaf (js "a") (.file 2 [104,105]) (.leaf (js "b") (.symlink (js "a") true) .done))
      (.leaf (js "up") (.symlink (js "../x") true) .done))

def smallScan : CloneScanState :=
  ⟨[⟨js "docs/a",2,js "hi"⟩],[js "docs/b"],[js "symlink escape rejected: up"],1,2,2⟩

theorem smallScanned : scanCloneTree defaultGithubClonePolicy smallClone = .ok smallScan := by decide +kernel

theorem smallTold : (smallScan.files.map GithubCloneScanFile.path ++ smallScan.metadataOnly).Perm
    (((cloneEntries smallClone).filter listed).map Prod.fst) := scanTold smallScanned

theorem smallRead :
    let may := (cloneEntries smallClone).filter (readable defaultGithubClonePolicy)
    let used := (smallScan.files.map fun file => byteLength file.text).sum
    (∃ kept, List.Subperm kept may ∧ smallScan.files = kept.map scanFile) ∧ used ≤ defaultGithubClonePolicy .maxTextBytes ∧
      (∀ entry ∈ may, scanFile entry ∈ smallScan.files ∨
        defaultGithubClonePolicy .maxTextBytes < used + byteLength (scanFile entry).text) ∧
      (textSize may ≤ defaultGithubClonePolicy .maxTextBytes → smallScan.files.Perm (may.map scanFile)) := scanRead smallScanned

end Northstar.Github.Clone
