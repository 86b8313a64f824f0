import Jukebox.Assoc

/-!
# Command lines

A command line names one of three commands. Options with values come before or behind the name;
`--config` may stand in both places, and the one behind the name counts.

A value follows its option as the next argument, which must not look like an option, or in the same
argument: `--output=out.json`, `-o=out.json`, `-oout.json`. No option is given twice in one place,
and no path is empty. Arguments are read from left to right; the first that makes no sense, or that
asks for help or the version, ends the reading.
-/

set_option autoImplicit false
set_option relaxedAutoImplicit false

namespace Jukebox.CommandLine

/-- What is to be done. -/
inductive Command where
  /-- Report on a snapshot of a library, at the present or another instant. -/
  | run (library : String) (now output : Option String)
  /-- Check the settings. -/
  | check (now : Option String)
  /-- Write the settings file that a user starts from. -/
  | config (output : Option String)
  deriving DecidableEq, Repr

/-- A command, and the file that its settings are in, if one is named. -/
structure Request where
  config : Option String
  command : Command
  deriving DecidableEq, Repr

/-- Why a command line makes no request. -/
inductive Stop where
  /-- Arguments are missing or make no sense. -/
  | usage
  | help
  | version
  deriving DecidableEq, Repr

/-! ### Options -/

/-- An option that takes a value. -/
structure Flag where
  name : String
  letter : Option Char
  /-- Whether the value is a path, which must not be empty. -/
  isPath : Bool
  deriving DecidableEq, Repr

def Flag.config : Flag := ⟨"config", some 'c', true⟩
def Flag.library : Flag := ⟨"library", some 'l', true⟩
def Flag.now : Flag := ⟨"now", none, false⟩
def Flag.output : Flag := ⟨"output", some 'o', true⟩

/-- The values of options, by name. -/
abbrev Values := Assoc String String

/-- Gives an option its value. -/
def Values.put (values : Values) (flag : Flag) (value : String) : Except Stop Values :=
  if (Assoc.get? values flag.name).isSome ∨ (flag.isPath ∧ value = "") then .error .usage
  else .ok (Assoc.set values flag.name value)

/-- The value of an option. -/
def Values.get? (values : Values) (flag : Flag) : Option String := Assoc.get? values flag.name

/-! ### Arguments -/

/-- What can be read at one place: before the name of the command, or behind it. -/
structure Place where
  flags : List Flag
  /-- Names that end the place. -/
  commands : List String := []
  /-- Whether the version may be asked for. -/
  tellsVersion : Bool := false

/-- An argument by its form. -/
inductive Argument where
  /-- Two dashes alone: only plain arguments follow. -/
  | divider
  /-- Two dashes, a name, and a value behind an equals sign. -/
  | named (name : String) (value : Option String)
  /-- One dash and letters. -/
  | letters (letters : List Char)
  | plain (text : String)
  deriving DecidableEq, Repr

/-- The form of an argument; a dash alone is plain. -/
def Argument.of (arg : String) : Argument :=
  match arg.toList with
  | ['-', '-'] => .divider
  | '-' :: '-' :: rest =>
    .named (String.ofList (rest.takeWhile (· ≠ '=')))
      (match rest.dropWhile (· ≠ '=') with
        | [] => none
        | _ :: value => some (String.ofList value))
  | '-' :: c :: rest => .letters (c :: rest)
  | _ => .plain arg

namespace Place

/-- Letters behind a dash: the values they give, and an option that still waits for its value. -/
def readLetters (p : Place) (values : Values) : List Char → Except Stop (Values × Option Flag)
  | [] => .ok (values, none)
  | c :: rest =>
    if c = 'h' then .error .help
    else if c = 'V' ∧ p.tellsVersion then .error .version
    else match p.flags.find? (fun f ↦ f.letter == some c), rest with
      | none, _ => .error .usage
      | some flag, [] => .ok (values, some flag)
      | some flag, '=' :: value | some flag, value =>
        (values.put flag (String.ofList value)).map fun values ↦ (values, none)

/-- An option by its name, like `readLetters`. -/
def readNamed (p : Place) (values : Values) (name : String) (value : Option String) :
    Except Stop (Values × Option Flag) :=
  if name = "help" then .error (if value.isNone then .help else .usage)
  else if name = "version" ∧ p.tellsVersion then
    .error (if value.isNone then .version else .usage)
  else match p.flags.find? (fun f ↦ f.name == name), value with
    | none, _ => .error .usage
    | some flag, none => .ok (values, some flag)
    | some flag, some value => (values.put flag value).map fun values ↦ (values, none)

/--
The values of the options at a place, and the arguments from the name of the command on. `waiting`
is an option whose value comes next.
-/
def read (p : Place) (values : Values) (waiting : Option Flag) :
    List String → Except Stop (Values × List String)
  | [] => if waiting.isNone then .ok (values, []) else .error .usage
  | arg :: rest =>
    match Argument.of arg, waiting with
    | .plain text, some flag => do
      let values ← values.put flag text
      read p values none rest
    | _, some _ => .error .usage
    | .plain text, none =>
      if p.commands.contains text then .ok (values, arg :: rest) else .error .usage
    | .divider, none => if rest.isEmpty then .ok (values, []) else .error .usage
    | .named name value, none => do
      let (values, waiting) ← p.readNamed values name value
      read p values waiting rest
    | .letters letters, none => do
      let (values, waiting) ← p.readLetters values letters
      read p values waiting rest

/-- Before the name of the command. -/
def front : Place := ⟨[.config], ["run", "check", "config", "help"], true⟩

/-- Behind the name `run`. -/
def ofRun : Place := { flags := [.library, .now, .output, .config] }

/-- Behind the name `check`. -/
def ofCheck : Place := { flags := [.now, .config] }

/-- Behind the name `config`. -/
def ofConfig : Place := { flags := [.output, .config] }

end Place

/-! ### Requests -/

/-- The command of a given name with its options. -/
def Command.read (name : String) (args : List String) : Except Stop (Command × Values) := do
  match name with
  | "run" =>
    let (values, _) ← Place.ofRun.read [] none args
    match values.get? .library with
    | none => .error .usage
    | some library => .ok (.run library (values.get? .now) (values.get? .output), values)
  | "check" =>
    let (values, _) ← Place.ofCheck.read [] none args
    .ok (.check (values.get? .now), values)
  | "config" =>
    let (values, _) ← Place.ofConfig.read [] none args
    .ok (.config (values.get? .output), values)
  | "help" =>
    match args with
    | [] => .error .help
    | [topic] => .error (if Place.front.commands.contains topic then .help else .usage)
    | _ => .error .usage
  | _ => .error .usage

/-- The request of a command line. -/
def Request.ofArgs (args : List String) : Except Stop Request := do
  match ← Place.front.read [] none args with
  | (_, []) => .error .usage
  | (values, name :: rest) =>
    let (command, inner) ← Command.read name rest
    .ok ⟨inner.get? .config <|> values.get? .config, command⟩

end Jukebox.CommandLine
