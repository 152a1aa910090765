import KoreanScript.Repl

/-!
The command line: `run FILE` runs a file, no command starts the dialogue, and
`-q` or `--quiet`, once before and once behind the command, keeps values from
being shown. Behind `--` nothing is an option or a command any more. `help`,
`--help` and `--version` are answered as soon as they are read, whatever stands
behind them.
-/
namespace KoreanScript

/-- What help is wanted about. -/
inductive HelpPage where
  | program | run | help
deriving DecidableEq

/-- What is said about arguments instead of running anything. -/
inductive Notice where
  | help (page : HelpPage)
  | version
  | misuse
deriving DecidableEq

/-- What the arguments ask for. -/
inductive Command where
  | converse (quiet : Bool)
  | runFile (name : String) (quiet : Bool)
  | notice (notice : Notice)
deriving DecidableEq

namespace Command

/-- The options. -/
inductive Flag where
  | quiet | help | version
deriving DecidableEq

/-- Whether an argument is read as an option. -/
def isOption (s : String) : Bool := s.startsWith "-" && s != "-"
/-- The options of an argument, by their name or by a letter each; `none` where there is no such option. -/
def flags (s : String) : List (Option Flag) :=
  if s = "--quiet" then [some .quiet]
  else if s = "--help" then [some .help]
  else if s = "--version" then [some .version]
  else if s.startsWith "--" then [none]
  else (s.toList.drop 1).map fun c =>
    if c = 'q' then some .quiet else if c = 'h' then some .help else if c = 'V' then some .version else none
/-- Whether to be quiet behind some options on a page, which asks for the version only for the program. -/
def readFlags (page : HelpPage) (quiet : Bool) : List (Option Flag) → Except Notice Bool
  | [] => .ok quiet
  | some .quiet :: rest => if quiet then .error .misuse else readFlags page true rest
  | some .help :: _ => .error (.help page)
  | some .version :: _ => .error (if page = .program then .version else .misuse)
  | none :: _ => .error .misuse
/-- The arguments behind `run` and `--`, given the file if it stood before. -/
def ofOperands (file : Option String) (quiet : Bool) (operands : List String) : Except Notice Command :=
  match file.toList ++ operands with
  | [name] => if name.isEmpty then .error .misuse else .ok (.runFile name quiet)
  | _ => .error .misuse
/-- The arguments behind `run`: one file and at most one option. -/
def ofRun (outer : Bool) (file : Option String) (quiet : Bool) : List String → Except Notice Command
  | [] => ofOperands file (outer || quiet) []
  | a :: rest =>
    if a = "--" then ofOperands file (outer || quiet) rest
    else if isOption a then do ofRun outer file (← readFlags .run quiet (flags a)) rest
    else if a.isEmpty ∨ file.isSome then .error .misuse
    else ofRun outer (some a) quiet rest
/-- The arguments behind `help`. -/
def ofHelp : List String → Notice
  | [] => .help .program
  | ["run"] => .help .run
  | ["help"] => .help .help
  | _ => .misuse
/-- The arguments before a command; `quiet` says whether the option was among them. -/
def ofStart (quiet : Bool) : List String → Except Notice Command
  | [] => .ok (.converse quiet)
  | a :: rest =>
    if a = "run" then ofRun quiet none false rest
    else if a = "help" then .error (ofHelp rest)
    else if a = "--" then (if rest.isEmpty then .ok (.converse quiet) else .error .misuse)
    else if isOption a then do ofStart (← readFlags .program quiet (flags a)) rest
    else .error .misuse
/-- The command that some arguments give. -/
def ofArguments (arguments : List String) : Command :=
  match ofStart false arguments with
  | .ok command => command
  | .error said => .notice said

end Command

/-- What a process leaves behind. -/
structure Exit where
  code : Nat
  stdout : String
  stderr : String

/-- Why a file cannot be read. -/
inductive FileFault where
  | absent | directory | notText
  /-- Any other reason, in the words of the system. -/
  | other (text : String)

def FileFault.text : FileFault → String
  | absent => "No such file or directory (os error 2)"
  | directory => "Is a directory (os error 21)"
  | notText => "stream did not contain valid UTF-8"
  | other s => s

namespace CommandLine

/-- A text whose lines but the first are set in by some blanks. -/
def indented (blanks : String) (s : String) : String :=
  String.join (s.toList.map fun c => if c = '\n' then "\n" ++ blanks else String.singleton c)
/-- The report of a failure with one cause. -/
def report (headline cause : String) : String :=
  "Error: " ++ headline ++ "\n\nCaused by:\n    " ++ indented "    " cause ++ "\n"
/-- The report of a failure whose cause has a cause in turn. -/
def reportBoth (headline cause root : String) : String :=
  "Error: " ++ headline ++ "\n\nCaused by:\n    0: " ++ indented "       " cause ++
    "\n    1: " ++ indented "       " root ++ "\n"

def helpText : HelpPage → String
  | .program => "A tree-walking interpreter for a small Korean-keyword scripting language.\n\n" ++
    "Usage: hanlang [OPTIONS] [COMMAND]\n\nCommands:\n  run   run a file\n" ++
    "  help  Print this message or the help of the given subcommand(s)\n\nOptions:\n" ++
    "  -q, --quiet    don't print the value of the last statement\n" ++
    "  -h, --help     Print help\n  -V, --version  Print version\n"
  | .run => "run a file\n\nUsage: hanlang run [OPTIONS] <FILE>\n\nArguments:\n  <FILE>\n\nOptions:\n" ++
    "  -q, --quiet  don't print the value of the last statement\n  -h, --help   Print help\n"
  | .help => "Print this message or the help of the given subcommand(s)\n\nUsage: hanlang help [COMMAND]...\n\n" ++
    "Arguments:\n  [COMMAND]...  Print help for the subcommand(s)\n"
/-- The exit of a process that only says something about its arguments. -/
def inform : Notice → Exit
  | .help page => ⟨0, helpText page, ""⟩
  | .version => ⟨0, "hanlang 0.1.0\n", ""⟩
  | .misuse => ⟨2, "", "error: expected `run FILE` or no command, and at most the option `--quiet`\n"⟩
/-- The exit of an evaluation whose calls nest too deep. -/
def overflow : Exit := ⟨134, "", "Error: calls nest too deep\n"⟩
/-- The exit of running a file of some contents. -/
def runFile (depth : Nat) (quiet : Bool) (name : String) (contents : Except FileFault (List UInt8)) :
    Exit :=
  match contents with
  | .error fault => ⟨1, "", report ("failed to read " ++ name) fault.text⟩
  | .ok bytes =>
    match String.fromUTF8? ⟨bytes.toArray⟩ with
    | none => ⟨1, "", report ("failed to read " ++ name) FileFault.notText.text⟩
    | some source =>
      match Session.initial.execute depth source with
      | none => overflow
      | some ⟨.ok v, output, _⟩ => ⟨0, Repl.lines (output ++ Repl.shown quiet (.ok v)), ""⟩
      | some ⟨.error e, output, _⟩ =>
        ⟨1, Repl.lines output, reportBoth ("failed to run " ++ name) e.message e.inner⟩

section
variable {m : Type → Type} [Monad m]

/-- Holds a dialogue; the exit is what is left behind that. -/
def converse (console : Repl.Console m) (depth : Nat) (quiet : Bool) : m Exit := do
  match ← Repl.dialogue console depth quiet .initial with
  | .finished => return ⟨0, "", ""⟩
  | .unreadable => return ⟨1, "", report "failed to read line" FileFault.notText.text⟩
  | .tooDeep => return overflow
/-- Does what the arguments ask for, given how files are read. -/
def perform (console : Repl.Console m) (read : String → m (Except FileFault (List UInt8))) (depth : Nat)
    (arguments : List String) : m Exit :=
  match Command.ofArguments arguments with
  | .converse quiet => converse console depth quiet
  | .runFile name quiet => do return runFile depth quiet name (← read name)
  | .notice said => return inform said

end

/-- All that a process leaves behind whose input is at hand. -/
def unattended (stdin : List UInt8) (process : StateM Repl.Script Exit) : Exit :=
  let (exit, script) := process.run ⟨Repl.split stdin, ""⟩
  { exit with stdout := script.shown ++ exit.stdout }
/-- The exit of the program, given how files are read and all of its input. -/
def run (depth : Nat) (arguments : List String) (read : String → Except FileFault (List UInt8))
    (stdin : List UInt8) : Exit :=
  unattended stdin (perform Repl.scripted (fun name => return read name) depth arguments)

end CommandLine
end KoreanScript
