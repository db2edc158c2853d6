import BasicScript.Script
import BasicScript.Shell

/-! The command line: which arguments are accepted, and what they make the program do. -/

set_option autoImplicit false

namespace BasicScript

structure Request where
  file : Option String := none
  interactive : Bool := false
  level : Option LogLevel := none
  time : Bool := false
  root : Option String := none
  maxDepth : Option Nat := none
  deriving DecidableEq, Inhabited

inductive CommandLine where
  | run (request : Request)
  | showVersion
  | showHelp
  | misused
  deriving DecidableEq, Inhabited

namespace CommandLine

inductive Switch where
  | interactive | time | version | help
  deriving DecidableEq

inductive Setting where
  | level | root | maxDepth
  deriving DecidableEq

def switch? : String → Option Switch
  | "interactive" => some .interactive
  | "time" => some .time
  | "version" => some .version
  | "help" => some .help
  | _ => none

def letter? : Char → Option Switch
  | 'i' => some .interactive
  | 'V' => some .version
  | 'h' => some .help
  | _ => none

def setting? : String → Option Setting
  | "debug" => some .level
  | "root" => some .root
  | "max-depth" => some .maxDepth
  | _ => none

/-- Decimal digits, with a plus sign in front if wanted, below `2 ^ 64`. -/
def count? (text : String) : Option Nat :=
  let digits := match text.toList with
    | '+' :: rest => rest
    | cs => cs
  if digits.isEmpty ∨ ¬ digits.all Char.isDigit then none
  else
    let n := Number.ofDigits digits
    if n < UInt64.size then some n else none

def level? : String → Option LogLevel
  | "stages" => some .stages
  | "all" => some .all
  | _ => none

def set? (request : Request) (setting : Setting) (value : String) : Option Request :=
  match setting with
  | .level =>
    if request.level.isSome then none
    else (level? value).map fun level => { request with level := some level }
  | .root =>
    if request.root.isSome ∨ value.isEmpty then none
    else some { request with root := some value }
  | .maxDepth =>
    if request.maxDepth.isSome then none
    else (count? value).map fun depth => { request with maxDepth := some depth }

/-- What a switch does: it changes the request, or it ends the reading of arguments. A switch that
is already on is refused. -/
def flip (request : Request) : Switch → Except CommandLine Request
  | .interactive =>
    if request.interactive then .error .misused else .ok { request with interactive := true }
  | .time => if request.time then .error .misused else .ok { request with time := true }
  | .version => .error .showVersion
  | .help => .error .showHelp

def flipAll (request : Request) : List Char → Except CommandLine Request
  | [] => .ok request
  | c :: rest =>
    match letter? c with
    | none => .error .misused
    | some switch => do flipAll (← flip request switch) rest

def place? (request : Request) (name : String) : Option Request :=
  if request.file.isSome then none else some { request with file := some name }

def placeAll (request : Request) : List String → CommandLine
  | [] => .run request
  | name :: rest =>
    match place? request name with
    | some request => placeAll request rest
    | none => .misused

/-- An argument that is an option: two dashes, or one dash and something behind it. -/
def isOption (arg : String) : Bool := arg.startsWith "-" && arg != "-"

def read (request : Request) : List String → CommandLine
  | [] => .run request
  | "--" :: rest => placeAll request rest
  | arg :: rest =>
    match arg.toList with
    | '-' :: '-' :: option =>
      let name := String.ofList (option.takeWhile (· != '='))
      match switch? name, setting? name, option.dropWhile (· != '=') with
      | some switch, _, [] =>
        match flip request switch with
        | .ok request => read request rest
        | .error answer => answer
      | none, some setting, _ :: value =>
        match set? request setting (String.ofList value) with
        | some request => read request rest
        | none => .misused
      | none, some setting, [] =>
        match rest with
        | [] => .misused
        | value :: rest =>
          if isOption value then .misused
          else
            match set? request setting value with
            | some request => read request rest
            | none => .misused
      | _, _, _ => .misused
    | '-' :: first :: letters =>
      match flipAll request (first :: letters) with
      | .ok request => read request rest
      | .error answer => answer
    | _ =>
      match place? request arg with
      | some request => read request rest
      | none => .misused

def parse (args : List String) : CommandLine := read {} args

def configure (request : Request) (config : Config) : Config :=
  { config with
    root := (request.root.map Path.mk).getD config.root
    maxCallDepth := request.maxDepth.getD config.maxCallDepth }

structure Outcome where
  status : Nat
  /-- What belongs on the error stream in front of the first fault. -/
  log : List String
  faults : List Interrupt
  /-- The time that the script took is wanted. -/
  timed : Bool
  session : Session
  deriving Inhabited

def runScript (host : Host) (fuel : Nat) (request : Request) (path : Path) (session : Session) :
    Outcome :=
  if (host.files.locate? path).isNone then
    ⟨1, ["Error: File '" ++ path.text ++ "' not found"], [], false, session⟩
  else
    match host.files.read path with
    | .error reason =>
      ⟨1, ["Error reading file '" ++ path.text ++ "': " ++ reason], [], false, session⟩
    | .ok text =>
      let (report, session) := Script.run host fuel (request.level.getD .off) path text session
      let status := if report.fault.isNone then 0 else 1
      ⟨status, report.log, report.fault.toList, request.time, session⟩

/-- Do what a request asks for: run its file, or start the shell if there is none or if that is
wanted instead. -/
def serve (host : Host) (fuel : Nat) (request : Request) (session : Session) : Outcome :=
  let host := { host with config := configure request host.config }
  let shell : Outcome :=
    let (faults, session) := Shell.start host fuel session
    ⟨0, [], faults, false, session⟩
  match request.file, request.interactive with
  | some file, false => runScript host fuel request ⟨file⟩ session
  | _, _ => shell

def versionLine : String := "vlb " ++ Shell.version ++ "\n"

def usage : String :=
  "\n".intercalate
    ["Usage: vlb [OPTIONS] [FILE]",
     "",
     "  FILE                 The script file to execute",
     "  -i, --interactive    Start in interactive REPL mode",
     "  --debug LEVEL        Dump pipeline stages to stderr: stages or all",
     "  --time               Print how long the script took",
     "  --root DIR           Directory used as the module search root",
     "  --max-depth N        Deepest allowed nesting of function calls",
     "  -h, --help           Print help",
     "  -V, --version        Print version"]

def execute (host : Host) (fuel : Nat) (args : List String) (session : Session) : Outcome :=
  match parse args with
  | .run request => serve host fuel request session
  | .showVersion => ⟨0, [], [], false, session.print versionLine⟩
  | .showHelp => ⟨0, [], [], false, session.print (usage ++ "\n")⟩
  | .misused => ⟨2, [usage], [], false, session⟩

end CommandLine

end BasicScript
