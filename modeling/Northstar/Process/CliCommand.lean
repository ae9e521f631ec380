import Northstar.CommandLine
import Northstar.Script

/-! Starting a command line tool (cli-command.ts): where its file is looked for, and how its arguments go
through cmd.exe where the file is a batch file. -/
namespace Northstar.Process
open CommandLine

inductive OsPlatform where
  | win32
  | posix
  deriving DecidableEq

abbrev ChildEnv := JsString → Option JsString

/- This process: its platform and environment, existsSync and win32.join. -/
structure CliHost where
  platform : OsPlatform
  env : ChildEnv
  existsSync : JsString → Bool
  join : JsString → JsString → JsString

structure CliSpawnOptions where
  platform : Option OsPlatform := none
  pathValue : Option JsString := none
  pathext : Option JsString := none
  exists_ : Option (JsString → Bool) := none
  env : Option ChildEnv := none

def defaultPathext : JsString := js ".COM;.EXE;.BAT;.CMD"

def filled (value : Option JsString) : Option JsString := value.filter (· ≠ [])

def childPathValue (spawnEnv : Option ChildEnv) : Option JsString :=
  spawnEnv.bind fun env => [js "PATH",js "Path",js "path"].findSome? fun key => filled (env key)

def windowsPathValue (env : ChildEnv) : JsString := (childPathValue (some env)).getD []

def windowsCmdExe (env : ChildEnv) : JsString :=
  match filled ((env (js "COMSPEC") <|> env (js "ComSpec")) <|> env (js "comspec")) with
  | some comspec => comspec
  | none => match filled ((env (js "SystemRoot") <|> env (js "systemroot")) <|> env (js "windir")) with
    | some root => root ++ js "\\System32\\cmd.exe"
    | none => js "C:\\Windows\\System32\\cmd.exe"

def stripSurroundingQuotes (dir : JsString) : JsString :=
  if 2 ≤ dir.length ∧ dir.head? = some 34 ∧ dir.getLast? = some 34 then dir.tail.dropLast else dir

/- In each directory the command with each extension, then the bare name. -/
def candidates (join : JsString → JsString → JsString) (command : JsString) (dirs extensions : List JsString) : List JsString :=
  dirs.flatMap fun dir => (extensions.map fun extension => join dir (command ++ extension)) ++ [join dir command]

def resolveCliCommand (host : CliHost) (command : JsString) (options : CliSpawnOptions) : JsString :=
  if options.platform.getD host.platform ≠ .win32 then command
  else if command = [] ∨ 47 ∈ command ∨ 92 ∈ command then command
  else
    let pathValue := options.pathValue.getD (windowsPathValue host.env)
    let pathext := (options.pathext <|> host.env (js "PATHEXT")).getD defaultPathext
    let extensions := ((pathext.splitOn 59).map trim).filter fun entry => entry.head? = some 46
    let dirs := ((pathValue.splitOn 59).map fun dir => stripSurroundingQuotes (trim dir)).filter (· ≠ [])
    if pathValue = [] ∨ extensions = [] then command
    else ((candidates host.join command dirs extensions).find? (options.exists_.getD host.existsSync)).getD command

/- The backslashes before a character are written when it is known: twice before a quote. -/
def quoteFrom : Nat → JsString → JsString
  | run, [] => List.replicate (2 * run) 92
  | run, u :: rest =>
      if u = 92 then quoteFrom (run + 1) rest
      else if u = 34 then List.replicate (2 * run) 92 ++ [34,34] ++ quoteFrom 0 rest
      else if u = 37 then List.replicate (2 * run) 92 ++ [34,37,34] ++ quoteFrom 0 rest
      else List.replicate run 92 ++ [u] ++ quoteFrom 0 rest

def quoteCmdArg (value : JsString) : JsString := [34] ++ quoteFrom 0 value ++ [34]

def cmdLineOf (resolved : JsString) (args : List JsString) : JsString := [32].intercalate ((resolved :: args).map quoteCmdArg)

def buildCmdArgv (resolved : JsString) (args : List JsString) : List JsString :=
  [js "/d",js "/s",js "/c",[34] ++ cmdLineOf resolved args ++ [34]]

/- /\.(?:cmd|bat)$/i -/
def isBatchFile (resolved : JsString) : Bool :=
  let ending := (resolved.drop (resolved.length - 4)).map fun u => if 65 ≤ u ∧ u ≤ 90 then u + 32 else u
  ending = js ".cmd" || ending = js ".bat"

def cmdExeForSpawn (host : CliHost) (spawnEnv : Option ChildEnv) : JsString := match spawnEnv with
  | some env => windowsCmdExe fun key => env key <|> host.env key
  | none => windowsCmdExe host.env

structure Spawned where
  file : JsString
  args : List JsString
  verbatim : Bool
  deriving DecidableEq

/- The file that is looked for, where the child's PATH counts and not this process's. -/
def spawnTarget (host : CliHost) (command : JsString) (options : CliSpawnOptions) : JsString :=
  let platform := options.platform.getD host.platform
  let pathValue := options.pathValue <|> if platform = .win32 then childPathValue options.env else none
  resolveCliCommand host command { options with platform := some platform, pathValue }

def spawnCliCommand (host : CliHost) (command : JsString) (args : List JsString) (options : CliSpawnOptions) : Spawned :=
  let resolved := spawnTarget host command options
  if options.platform.getD host.platform = .win32 ∧ isBatchFile resolved then
    ⟨cmdExeForSpawn host options.env,buildCmdArgv resolved args,true⟩
  else ⟨resolved,args,false⟩

example : quoteCmdArg (js "\"%A%\\") = js "\"\"\"\"%\"A\"%\"\\\\\"" := by decide

/- What cmd.exe /s runs of the last argument: all but its first and last quote. -/
def cmdRuns (argv : List JsString) : JsString :=
  let line := argv.getLast?.getD []
  if line.head? = some 34 ∧ line.getLast? = some 34 then line.tail.dropLast else line

/- Spaces and tabs part the words of a command line. -/
def wordBlank (u : UInt16) : Bool := u = 32 || u = 9

/- The words of what follows the program in a command line. -/
def argvOf (line : JsString) : List JsString := readWords 92 34 wordBlank line

theorem bodyRead (words : List JsString) (word : JsString) (run : Nat) (value : JsString) :
    readFrom 92 34 wordBlank ⟨words,some word,.inside,0⟩ (quoteFrom run value ++ [34]) =
      ⟨words,some (word ++ List.replicate run 92 ++ value),.closed,0⟩ := by
  have apart : (34 : UInt16) ≠ 92 := by decide
  induction value generalizing run word with
  | nil => rw [quoteFrom,readClosing words word apart,List.append_nil]
  | cons u rest ih =>
    rw [quoteFrom]
    split
    · rename_i slashed
      subst slashed
      rw [ih,List.replicate_succ']
      simp
    · rename_i unslashed
      split
      · rename_i quoted
        subst quoted
        have parts : List.replicate (2 * run) 92 ++ [34,34] ++ quoteFrom 0 rest ++ [34] =
            (List.replicate (2 * run) 92 ++ [34]) ++ (34 :: (quoteFrom 0 rest ++ [34])) := by simp
        rw [parts,readAppend,readClosing words word apart,readCons,readAgain words _ apart,ih]
        simp
      · rename_i unquoted
        split
        · rename_i percent
          subst percent
          have parts : List.replicate (2 * run) 92 ++ [34,37,34] ++ quoteFrom 0 rest ++ [34] =
              (List.replicate (2 * run) 92 ++ [34]) ++ (37 :: 34 :: (quoteFrom 0 rest ++ [34])) := by simp
          rw [parts,readAppend,readClosing words word apart,readCons,readOutside words _ unslashed unquoted (by decide),readCons,
            readOpening words _ apart,ih]
          simp
        · have parts : List.replicate run 92 ++ [u] ++ quoteFrom 0 rest ++ [34] =
              (List.replicate run 92 ++ [u]) ++ (quoteFrom 0 rest ++ [34]) := by simp
          rw [parts,readAppend,readPlain words word unslashed unquoted,ih]
          simp

theorem argRead (words : List JsString) (value : JsString) :
    readFrom 92 34 wordBlank ⟨words,none,.outside,0⟩ (quoteCmdArg value) = ⟨words,some value,.closed,0⟩ := by
  rw [quoteCmdArg,List.append_assoc,List.singleton_append,readCons,readFirst words (by decide),bodyRead]
  simp

theorem argsRead (args : List JsString) : argvOf ([32].intercalate (args.map quoteCmdArg)) = args :=
  readJoined (by decide) (by decide) (by decide) argRead args

theorem lineRuns (resolved : JsString) (args : List JsString) : cmdRuns (buildCmdArgv resolved args) = cmdLineOf resolved args := by
  have ends : ([34] ++ cmdLineOf resolved args ++ [34]).getLast? = some 34 := List.getLast?_concat
  simp only [cmdRuns,buildCmdArgv,List.getLast?_cons_cons,List.getLast?_singleton,Option.getD_some]
  rw [if_pos ⟨rfl,ends⟩]
  simp

/- The blanks that follow the program are part of what it reads. -/
theorem lineParts (resolved : JsString) (args : List JsString) :
    ∃ rest, cmdLineOf resolved args = quoteCmdArg resolved ++ rest ∧ argvOf rest = args := by
  cases args with
  | nil => exact ⟨[],by simp [cmdLineOf],rfl⟩
  | cons arg more =>
    refine ⟨32 :: [32].intercalate ((arg :: more).map quoteCmdArg),by simp [cmdLineOf,List.intercalate_cons_cons],?_⟩
    exact argsRead (arg :: more)

theorem percentFollowed : Followed (37 : UInt16) 34 [34,37,34] := by
  intro before after same
  cases before with
  | nil => exact absurd (List.cons.inj same).1 (by decide)
  | cons first more => cases more with
    | nil =>
      obtain ⟨_,same⟩ := List.cons.inj same
      rw [← (List.cons.inj same).2]
      rfl
    | cons second most =>
      obtain ⟨_,same⟩ := List.cons.inj same
      obtain ⟨_,same⟩ := List.cons.inj same
      have member : (37 : UInt16) ∈ [34] := same ▸ List.mem_append_right most List.mem_cons_self
      exact absurd member (by decide)

/- A body toggles nothing but around its percent signs, and each of these stands right before a quote. -/
theorem bodyOutside (run : Nat) (value : JsString) :
    (∀ u ∈ outside 34 true (quoteFrom run value), u = 37) ∧ toggled 34 true (quoteFrom run value) = true ∧
      Followed 37 34 (quoteFrom run value) := by
  have unquoted (n : Nat) : (34 : UInt16) ∉ List.replicate n 92 := by simp
  have within (n : Nat) : outside (34 : UInt16) true (List.replicate n 92) = [] := outsideWithin (unquoted n)
  have still (n : Nat) : toggled (34 : UInt16) true (List.replicate n 92) = true := toggledFree true (unquoted n)
  have slashes (n : Nat) : Followed (37 : UInt16) 34 (List.replicate n 92) := followedFree (by simp)
  induction value generalizing run with
  | nil => simp [quoteFrom,within,still,slashes]
  | cons u rest ih =>
    obtain ⟨marks,inside,followed⟩ := ih 0
    rw [quoteFrom]
    split
    · exact ih (run + 1)
    · split
      · refine ⟨?_,?_,?_⟩
        · simpa [outsideAppend,toggledAppend,within,still,outside] using marks
        · simpa [toggledAppend,still] using inside
        · exact followedAppend (followedAppend (slashes _) (followedFree (by decide))) followed
      · rename_i unquoted
        split
        · refine ⟨?_,?_,?_⟩
          · simpa [outsideAppend,toggledAppend,within,still,outside] using marks
          · simpa [toggledAppend,still] using inside
          · exact followedAppend (followedAppend (slashes _) percentFollowed) followed
        · rename_i unmarked
          refine ⟨?_,?_,?_⟩
          · simpa [outsideAppend,toggledAppend,within,still,outside,unquoted] using marks
          · simpa [toggledAppend,still,unquoted] using inside
          · exact followedAppend (followedAppend (slashes _) (followedFree (by simpa using Ne.symm unmarked))) followed

structure Inert (line : JsString) : Prop where
  marks : ∀ u ∈ outside 34 false line, u = 32 ∨ u = 37
  closed : toggled 34 false line = false
  followed : Followed 37 34 line

theorem argInert (value : JsString) : Inert (quoteCmdArg value) := by
  obtain ⟨marks,inside,followed⟩ := bodyOutside 0 value
  have written : quoteCmdArg value = 34 :: (quoteFrom 0 value ++ [34]) := rfl
  constructor
  · have sheds : outside 34 false (quoteCmdArg value) = outside 34 true (quoteFrom 0 value) := by
      simp [written,outside,outsideAppend]
    exact fun u member => .inr (marks u (sheds ▸ member))
  · simp [written,toggledAppend,inside]
  · exact followedAppend (followedAppend (followedFree (by decide)) followed) (followedFree (by decide))

theorem joinInert {first rest : JsString} (one : Inert first) (two : Inert rest) : Inert (first ++ [32] ++ rest) := by
  have gap : toggled 34 false (first ++ [32]) = false := by simp [toggledAppend,one.closed]
  constructor
  · have parts : outside 34 false (first ++ [32] ++ rest) = outside 34 false first ++ [32] ++ outside 34 false rest := by
      simp [outsideAppend,one.closed,outside]
    simp only [parts,List.mem_append,List.mem_singleton]
    rintro u ((member | same) | member)
    · exact one.marks u member
    · exact .inl same
    · exact two.marks u member
  · rw [toggledAppend,gap,two.closed]
  · exact followedAppend (followedAppend one.followed (followedFree (by decide))) two.followed

theorem lineInert (resolved : JsString) (args : List JsString) : Inert (cmdLineOf resolved args) := by
  induction args generalizing resolved with
  | nil => simpa [cmdLineOf] using argInert resolved
  | cons arg more ih =>
    have joined : cmdLineOf resolved (arg :: more) = quoteCmdArg resolved ++ [32] ++ cmdLineOf arg more := by
      simp [cmdLineOf,List.intercalate_cons_cons]
    exact joined ▸ joinInert (argInert resolved) (ih arg)

/- Every started program reads its arguments as they were given, through cmd.exe or not. -/
theorem argvDelivered (host : CliHost) (command : JsString) (args : List JsString) (options : CliSpawnOptions) :
    let resolved := spawnTarget host command options
    let spawned := spawnCliCommand host command args options
    (spawned.verbatim = false ∧ spawned.file = resolved ∧ spawned.args = args) ∨
      (spawned.verbatim = true ∧ spawned.file = cmdExeForSpawn host options.env ∧ isBatchFile resolved = true ∧
        ∃ rest, cmdRuns spawned.args = quoteCmdArg resolved ++ rest ∧ argvOf rest = args) := by
  intro resolved spawned
  by_cases batch : options.platform.getD host.platform = .win32 ∧ isBatchFile resolved = true
  · have started : spawned = ⟨cmdExeForSpawn host options.env,buildCmdArgv resolved args,true⟩ := if_pos batch
    rw [started,lineRuns]
    exact .inr ⟨rfl,rfl,batch.2,lineParts resolved args⟩
  · have started : spawned = ⟨resolved,args,false⟩ := if_neg batch
    rw [started]
    exact .inl ⟨rfl,rfl,rfl⟩

/- cmd.exe sees nothing but blanks and percent signs outside of quotes, and finds no name to replace. -/
theorem lineUntouched (host : CliHost) (command : JsString) (args : List JsString) (options : CliSpawnOptions)
    (value : JsString → Option JsString) (unnamed : ∀ name, value (34 :: name) = none)
    (shelled : (spawnCliCommand host command args options).verbatim = true) :
    let line := cmdRuns (spawnCliCommand host command args options).args
    expand 37 value none line = line ∧ toggled 34 false line = false ∧ ∀ u ∈ outside 34 false line, u = 32 ∨ u = 37 := by
  have started : (spawnCliCommand host command args options).args = buildCmdArgv (spawnTarget host command options) args := by
    by_cases batch : options.platform.getD host.platform = .win32 ∧ isBatchFile (spawnTarget host command options) = true
    · rw [spawnCliCommand,if_pos batch]
    · rw [spawnCliCommand,if_neg batch] at shelled
      contradiction
  obtain ⟨marks,closed,followed⟩ := lineInert (spawnTarget host command options) args
  intro line
  have same : line = cmdLineOf (spawnTarget host command options) args := by rw [← lineRuns,← started]
  rw [same]
  exact ⟨expandNothing unnamed (by decide) followed,closed,marks⟩

/- A token in the child's environment, and an argument that names it. -/
def shimHost : CliHost := ⟨.win32,fun _ => none,fun path => path = js "C:\\s\\o.CMD",fun dir file => dir ++ [92] ++ file⟩

def tokenValue (name : JsString) : Option JsString := if name = js "TOKEN" then some (js "canary") else none

theorem tokenUnnamed (name : JsString) : tokenValue (34 :: name) = none := by
  refine if_neg fun same => ?_
  have first : some 34 = (js "TOKEN").head? := congrArg List.head? same
  exact absurd first (by decide)

theorem tokenUntouched :
    let line := cmdRuns (spawnCliCommand shimHost (js "o") [js "%TOKEN%&"] { pathValue := some (js "C:\\s") }).args
    expand 37 tokenValue none line = line ∧ toggled 34 false line = false ∧ ∀ u ∈ outside 34 false line, u = 32 ∨ u = 37 :=
  lineUntouched shimHost (js "o") [js "%TOKEN%&"] { pathValue := some (js "C:\\s") } tokenValue tokenUnnamed (by decide)

end Northstar.Process
