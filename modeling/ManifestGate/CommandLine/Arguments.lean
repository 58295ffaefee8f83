import ManifestGate.Access.Basic
import ManifestGate.Path

/-!
# Command line arguments

A command line names a command with its options, given as `--name value` or `--name=value`, and
perhaps a file. The option `--config` may stand before the command or among its options.
-/

namespace ManifestGate.CommandLine

inductive Command where
  | compile (manifest : String) (dump : Bool)
  | execute (manifest : String) (data : Option String)
  | authorize (store path : String) (method : Method) (group : String)
  | request (store path : String) (method : Method) (user group data : Option String)

structure Invocation where
  config : Option String
  command : Command

inductive Reading where
  | invocation (invocation : Invocation)
  | text (text : String)
  | misuse

inductive OptionKind where
  | flag
  | text
  | file
  | method
  deriving DecidableEq

structure OptionSpec where
  name : String
  kind : OptionKind
  help : String

/-- Whether an option can have a value; a flag stands for an empty one. -/
def OptionKind.accepts : OptionKind → String → Bool
  | .flag, value => value.isEmpty
  | .text, _ => true
  | .file, value => !value.isEmpty
  | .method, value => (Method.parse value).isOk

structure CommandSpec where
  name : String
  help : String
  takesManifest : Bool
  options : List OptionSpec
  usage : String

def configOption : OptionSpec :=
  ⟨"config", .file, "Config file (defaults to \x60$LENSE_CONFIG_PATH\x60 or \x60./lense.toml\x60)"⟩

def storeOption : OptionSpec := ⟨"store", .file, "Permission store TOML file"⟩

def pathOption : OptionSpec := ⟨"path", .text, "Handler path"⟩

def methodOption : OptionSpec := ⟨"method", .method, "Handler method"⟩

def dataOption : OptionSpec := ⟨"data", .text, "Request data as a JSON object"⟩

def commands : List CommandSpec :=
  [{ name := "compile"
     help := "Compile a manifest and report its objects"
     takesManifest := true
     options := [configOption, ⟨"dump", .flag, "Print the compiled objects"⟩]
     usage := "compile [OPTIONS] <MANIFEST>" },
   { name := "execute"
     help := "Execute a manifest with the built-in capabilities"
     takesManifest := true
     options := [configOption, dataOption]
     usage := "execute [OPTIONS] <MANIFEST>" },
   { name := "authorize"
     help := "Decide whether a group may invoke a handler"
     takesManifest := false
     options := [configOption, storeOption, pathOption, methodOption,
       ⟨"group", .text, "Requesting group id"⟩]
     usage :=
      "authorize [OPTIONS] --store <STORE> --path <PATH> --method <METHOD> --group <GROUP>" },
   { name := "request"
     help := "Run a full request through the gateway"
     takesManifest := false
     options := [configOption, storeOption, pathOption, methodOption,
       ⟨"user", .text, "User id; anonymous when omitted"⟩,
       ⟨"group", .text, "Group the user acts as"⟩, dataOption]
     usage := "request [OPTIONS] --store <STORE> --path <PATH> --method <METHOD>" }]

def helpPurpose : String := "Print this message or the help of the given subcommand(s)"

/-! ## Help -/

/-- A column of names with the text of each beside it. -/
def columns (rows : List (String × String)) : String :=
  let width := rows.foldl (fun n row => max n row.1.length) 0
  String.join (rows.map fun row =>
    "  " ++ row.1 ++ String.ofList (List.replicate (width - row.1.length + 2) ' ') ++ row.2 ++ "\n")

def OptionSpec.label (option : OptionSpec) : String :=
  let name := "    --" ++ option.name
  if option.kind = .flag then name else name ++ " <" ++ upperAscii option.name ++ ">"

def optionRows (options : List OptionSpec) : List (String × String) :=
  options.map (fun option => (option.label, option.help)) ++ [("-h, --help", "Print help")]

/-- A purpose, and how the program is called by its name to serve it. -/
def usageText (program purpose usage : String) : String :=
  purpose ++ "\n\nUsage: " ++ program ++ " " ++ usage ++ "\n\n"

def CommandSpec.helpText (command : CommandSpec) (program : String) : String :=
  usageText program command.help command.usage ++
    (if command.takesManifest then
      "Arguments:\n" ++ columns [("<MANIFEST>", "Manifest JSON file")] ++ "\n"
    else "") ++
    "Options:\n" ++ columns (optionRows command.options)

def helpText (program : String) : String :=
  usageText program "Lense — manifest interpreter and ACL gateway" "[OPTIONS] <COMMAND>" ++
    "Commands:\n" ++
    columns (commands.map (fun command => (command.name, command.help)) ++
      [("help", helpPurpose)]) ++
    "\nOptions:\n" ++
    columns (optionRows [configOption] ++ [("-V, --version", "Print version")])

def helpHelpText (program : String) : String :=
  usageText program helpPurpose "help [COMMAND]..." ++
    "Arguments:\n" ++ columns [("[COMMAND]...", "Print help for the subcommand(s)")]

def versionText : String := "lense 0.1.0\n"

/-! ## Reading -/

/-- The name and the value of `--name=value`, without the dashes. -/
def splitOption (text : List Char) : String × Option String :=
  match text.span (· ≠ '=') with
  | (name, '=' :: value) => (String.ofList name, some (String.ofList value))
  | (name, _) => (String.ofList name, none)

def isValue (text : String) : Bool :=
  match text.toList with
  | '-' :: _ :: _ => false
  | _ => true

/-- One step through the arguments of a level. -/
inductive Step where
  /-- An option with its value, which may stand in an argument of its own, and what is left. -/
  | option (option : OptionSpec) (value : String) (apart : Bool) (rest : List String)
  | alone
  | escape
  | help
  | version
  | misuse

/-- Takes an option, with its value from the next argument if it has none of its own. -/
def takeOption (options : List OptionSpec) (name : String) (value : Option String)
    (rest : List String) : Step :=
  match options.find? fun option => option.name = name with
  | none => .misuse
  | some option =>
    match option.kind, value, rest with
    | .flag, none, _ => .option option "" false rest
    | .flag, some _, _ => .misuse
    | _, some value, _ => .option option value false rest
    | _, none, value :: rest => if isValue value then .option option value true rest else .misuse
    | _, none, [] => .misuse

def nextStep (options : List OptionSpec) (outer : Bool) (text : String) (rest : List String) :
    Step :=
  match text.toList with
  | ['-', '-'] => .escape
  | '-' :: '-' :: name =>
    let (name, value) := splitOption name
    if name = "help" then (if value.isNone then .help else .misuse)
    else if outer ∧ name = "version" then (if value.isNone then .version else .misuse)
    else takeOption options name value rest
  | '-' :: 'h' :: _ => .help
  | '-' :: 'V' :: _ => if outer then .version else .misuse
  | '-' :: _ :: _ => .misuse
  | _ => .alone

/-- What a command has been given so far: options with their values, and a manifest file. -/
structure Given where
  options : List (String × String)
  manifest : Option String

namespace Given

def get? (given : Given) (name : String) : Option String :=
  (given.options.find? fun option => option.1 = name).map Prod.snd

/-- Adds an option, which may be given once and has to accept its value. -/
def addOption? (given : Given) (option : OptionSpec) (value : String) : Option Given :=
  if option.kind.accepts value ∧ (given.get? option.name).isNone then
    some { given with options := (option.name, value) :: given.options }
  else none

/-- Adds an argument that belongs to no option. It can only be the manifest file. -/
def addAlone? (given : Given) (command : CommandSpec) (text : String) : Option Given :=
  if command.takesManifest ∧ given.manifest.isNone ∧ !text.isEmpty then
    some { given with manifest := some text }
  else none

/-- The command with this name, if all that it requires is given. -/
def command? (given : Given) (name : String) : Option Command :=
  if name = "compile" then do
    return .compile (← given.manifest) (given.get? "dump").isSome
  else if name = "execute" then do
    return .execute (← given.manifest) (given.get? "data")
  else do
    let store ← given.get? "store"
    let path ← given.get? "path"
    let method ← (given.get? "method").bind fun text => (Method.parse text).toOption
    if name = "authorize" then
      return .authorize store path method (← given.get? "group")
    else
      return .request store path method (given.get? "user") (given.get? "group")
        (given.get? "data")

end Given

/-- How the arguments of a command end. -/
inductive Level where
  | given (given : Given)
  | help
  | misuse

/-- Reads the arguments of a command. The first thing that is wrong or asks for help decides; the
fuel bounds the number of arguments. -/
def readLevel (command : CommandSpec) : Nat → Given → List String → Level
  | _, given, [] => .given given
  | 0, _, _ => .misuse
  | fuel + 1, given, text :: rest =>
    match nextStep command.options false text rest with
    | .option option value _ rest =>
      match given.addOption? option value with
      | some given => readLevel command fuel given rest
      | none => .misuse
    | .alone =>
      match given.addAlone? command text with
      | some given => readLevel command fuel given rest
      | none => .misuse
    | .escape =>
      match rest.foldlM (fun given text => given.addAlone? command text) given with
      | some given => .given given
      | none => .misuse
    | .help => .help
    | .version | .misuse => .misuse

def readCommand (program name : String) (rest : List String) : Reading :=
  match commands.find? fun command => command.name = name with
  | none => .misuse
  | some command =>
    match readLevel command (rest.length + 1) ⟨[], none⟩ rest with
    | .help => .text (command.helpText program)
    | .misuse => .misuse
    | .given given =>
      match given.command? name with
      | some found => .invocation ⟨given.get? configOption.name, found⟩
      | none => .misuse

def readHelp (program : String) : List String → Reading
  | [] => .text (helpText program)
  | ["help"] => .text (helpHelpText program)
  | [name] =>
    match commands.find? fun command => command.name = name with
    | some command => .text (command.helpText program)
    | none => .misuse
  | _ => .misuse

/-- What stands before the command. A value in an argument of its own waits until an option follows
or the command has been read; only then is it looked at. -/
structure Outer where
  given : Given
  waiting : Option String

namespace Outer

def settle? (outer : Outer) : Option Given :=
  match outer.waiting with
  | none => some outer.given
  | some value => outer.given.addOption? configOption value

/-- Completes the reading of the command. A help text stands whatever waits. -/
def complete (outer : Outer) : Reading → Reading
  | .invocation invocation =>
    match outer.settle? with
    | some given =>
      .invocation { invocation with config := invocation.config.or (given.get? configOption.name) }
    | none => .misuse
  | reading => reading

end Outer

/-- Reads what stands before the command, then the command. -/
def readOuter (program : String) : Nat → Outer → List String → Reading
  | 0, _, _ => .misuse
  | _, _, [] => .misuse
  | fuel + 1, outer, text :: rest =>
    match nextStep [configOption] true text rest, outer.settle? with
    | .alone, _ =>
      if text = "help" then readHelp program rest
      else outer.complete (readCommand program text rest)
    | .option _ value true rest, some given => readOuter program fuel ⟨given, some value⟩ rest
    | .option option value false rest, some given =>
      match given.addOption? option value with
      | some given => readOuter program fuel ⟨given, none⟩ rest
      | none => .misuse
    | .help, some _ => .text (helpText program)
    | .version, some _ => .text versionText
    | _, _ => .misuse

/-- Reads a command line. The program is called by the given name. -/
def read (program : String) (arguments : List String) : Reading :=
  readOuter program (arguments.length + 1) ⟨⟨[], none⟩, none⟩ arguments

end ManifestGate.CommandLine
