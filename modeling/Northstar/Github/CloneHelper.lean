import Northstar.Github.ClonePolicy
import Northstar.Shell

/-! The credential helper of a clone (writeCredentialHelper in github-clone.ts): the script that is written for a
token, and what git reads of it, through the shell, as a credential helper and as GIT_ASKPASS. -/
namespace Northstar.Github.Clone
open Shell (readWords readFrom readQuoted readBlank readBare readAppend quoteBody printf)

def controlUnit (u : UInt16) : Bool := u < 32 || u = 127

def validateCloneToken (token : Option JsString) : Except CloneError Unit :=
  if token.any (·.any controlUnit) then .error ⟨.invalidRequest,js "GitHub clone token contains forbidden control characters"⟩
  else .ok ()

def getTest : JsString := js "if [ \"$1\" = \"get\" ]; then"

def helperBody : Option JsString → JsString
  | none => js "#!/bin/sh\nexit 1\n"
  | some token =>
      let quoted := quoteBody 39 92 token
      js "#!/bin/sh\n" ++ getTest ++ js "\nprintf 'username=%s\\npassword=%s\\n\\n' 'x-access-token' '" ++ quoted ++
        js "'\nelse\nprintf '%s' '" ++ quoted ++ js "'\nfi\n"

def shellBlank (u : UInt16) : Bool := u = 32 || u = 9

def shellSpecial (u : UInt16) : Bool := u ∈ js "\"$;&|<>()\n#*?[~" ++ [96]

def shellWords (line : JsString) : Option (List JsString) := readWords 39 92 shellBlank shellSpecial line

def runPrintf (line : JsString) : Option JsString := match shellWords line with
  | some (command :: format :: args) => if command = js "printf" then some (printf 37 115 92 110 10 format args) else none
  | _ => none

/- What a script of the helper's shape prints for its first argument. -/
def runHelper (body arg : JsString) : Option JsString := match body.splitOn 10 with
  | [first,test,get,other,ask,last,rest] =>
      if first = js "#!/bin/sh" ∧ test = getTest ∧ other = js "else" ∧ last = js "fi" ∧ rest = [] then
        runPrintf (if arg = js "get" then get else ask)
      else none
  | _ => none

/- The credential that git reads: a key and a value in each line before the first empty one. -/
def credentialFields (output : JsString) : List (JsString × JsString) :=
  ((output.splitOn 10).takeWhile (· ≠ [])).map fun line => (line.takeWhile (· ≠ 61),(line.dropWhile (· ≠ 61)).drop 1)

def quotedWord (text : JsString) : JsString := 39 :: (quoteBody 39 92 text ++ [39])

def getLine (token : JsString) : JsString := js "printf 'username=%s\\npassword=%s\\n\\n' 'x-access-token' " ++ quotedWord token

def askLine (token : JsString) : JsString := js "printf '%s' " ++ quotedWord token

theorem wordRead (line : JsString) (words : List JsString) (text : JsString)
    (before : readFrom 39 92 shellBlank shellSpecial ⟨[],none,.plain⟩ line = some ⟨words,none,.plain⟩) :
    shellWords (line ++ quotedWord text) = some (words ++ [text]) := by
  rw [shellWords,readWords,readAppend,before,Option.bind_some,quotedWord,readQuoted (by decide)]
  rfl

theorem getPrints (token : JsString) : runPrintf (getLine token) =
    some (js "username=x-access-token\npassword=" ++ token ++ [10,10]) := by
  have words := wordRead (js "printf 'username=%s\\npassword=%s\\n\\n' 'x-access-token' ")
    [js "printf",js "username=%s\\npassword=%s\\n\\n",js "x-access-token"] token (by decide +kernel)
  rw [runPrintf,getLine,words]
  rfl

theorem askPrints (token : JsString) : runPrintf (askLine token) = some token := by
  have words := wordRead (js "printf '%s' ") [js "printf",js "%s"] token (by decide +kernel)
  rw [runPrintf,askLine,words]
  simp [printf,js,utf16Char]

theorem plainToken {token : JsString} (ok : validateCloneToken (some token) = .ok ()) : ∀ u ∈ token, controlUnit u = false := by
  intro u member
  by_contra control
  have found : (some token).any (·.any controlUnit) = true := List.any_eq_true.mpr ⟨u,member,by simpa using control⟩
  rw [validateCloneToken,if_pos found] at ok
  contradiction

theorem unbrokenQuoted {token : JsString} (unbroken : 10 ∉ token) : 10 ∉ quotedWord token := by
  have body : 10 ∉ quoteBody 39 92 token := by
    intro member
    obtain ⟨u,there,within⟩ := List.mem_flatMap.mp member
    by_cases same : u = 39
    · rw [if_pos same] at within
      exact absurd within (by decide)
    · rw [if_neg same] at within
      exact unbroken (List.mem_singleton.mp within ▸ there)
  simp [quotedWord,body]

theorem helperLines (token : JsString) : helperBody (some token) =
    [10].intercalate [js "#!/bin/sh",getTest,getLine token,js "else",askLine token,js "fi",[]] := by
  simp [helperBody,List.intercalate_cons_cons,getLine,askLine,quotedWord,js,utf16Char]

theorem helperSplit {token : JsString} (unbroken : 10 ∉ token) : (helperBody (some token)).splitOn 10 =
    [js "#!/bin/sh",getTest,getLine token,js "else",askLine token,js "fi",[]] := by
  rw [helperLines]
  refine List.splitOn_intercalate 10 ?_ (List.cons_ne_nil _ _)
  have quoted := unbrokenQuoted unbroken
  have get : 10 ∉ getLine token := by
    rw [getLine,List.mem_append,not_or]
    exact ⟨by decide +kernel,quoted⟩
  have ask : 10 ∉ askLine token := by
    rw [askLine,List.mem_append,not_or]
    exact ⟨by decide +kernel,quoted⟩
  simp only [List.mem_cons,List.not_mem_nil,or_false,forall_eq_or_imp,forall_eq]
  exact ⟨by decide +kernel,by decide +kernel,get,by decide +kernel,ask,by decide +kernel,by decide +kernel⟩

theorem credentialRead {token : JsString} (unbroken : 10 ∉ token) :
    credentialFields (js "username=x-access-token\npassword=" ++ token ++ [10,10]) =
      [(js "username",js "x-access-token"),(js "password",token)] := by
  have parts : js "username=x-access-token\npassword=" ++ token ++ [10,10] =
      [10].intercalate [js "username=x-access-token",js "password=" ++ token,[],[]] := by
    simp [List.intercalate_cons_cons,js,utf16Char]
  have password : 10 ∉ js "password=" ++ token := by
    rw [List.mem_append,not_or]
    exact ⟨by decide +kernel,unbroken⟩
  have plain : ∀ line ∈ [js "username=x-access-token",js "password=" ++ token,[],[]], 10 ∉ line := by
    simp only [List.mem_cons,List.not_mem_nil,or_false,forall_eq_or_imp,forall_eq]
    exact ⟨by decide +kernel,password,by decide,by decide⟩
  rw [credentialFields,parts,List.splitOn_intercalate 10 plain (List.cons_ne_nil _ _)]
  rfl

/- For every token that is let through, git reads that token: as the password of the credential it asks for, and as the
answer to anything else it asks. -/
theorem helperAnswers {token : JsString} (ok : validateCloneToken (some token) = .ok ()) :
    (runHelper (helperBody (some token)) (js "get")).map credentialFields =
      some [(js "username",js "x-access-token"),(js "password",token)] ∧
    ∀ arg, arg ≠ js "get" → runHelper (helperBody (some token)) arg = some token := by
  have unbroken : 10 ∉ token := fun member => absurd (plainToken ok 10 member) (by decide)
  constructor
  · rw [runHelper,helperSplit unbroken]
    simp only [and_self,if_true,getPrints,Option.map_some]
    rw [credentialRead unbroken]
  · intro arg other
    rw [runHelper,helperSplit unbroken]
    simp only [and_self,if_true,if_neg other,askPrints]

theorem quotedTokenAnswers :
    (runHelper (helperBody (some (js "it's $1"))) (js "get")).map credentialFields =
      some [(js "username",js "x-access-token"),(js "password",js "it's $1")] ∧
    ∀ arg, arg ≠ js "get" → runHelper (helperBody (some (js "it's $1"))) arg = some (js "it's $1") :=
  helperAnswers (by decide)

end Northstar.Github.Clone
