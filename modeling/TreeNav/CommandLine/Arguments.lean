import TreeNav.Settings

/-!
The arguments of the command: options with one or two dashes, some of which take a value
and some of which may stand before or after the name of the subcommand. Left out are the
layout of help texts, proposals for misspelt options and everything about terminals.
-/
namespace TreeNav.CommandLine

/-- What the value of an option has to look like. -/
inductive ValueKind where
  | path
  | offset
  | format
  | text
deriving DecidableEq, Repr

/-- The number that decimal digits spell, with or without a plus before them, if it fits
64 bits. -/
def offsetOf? (text : String) : Option Nat :=
  let digits :=
    match text.toList with
    | '+' :: rest => rest
    | digits => digits
  if digits.isEmpty || !digits.all Char.isDigit then none
  else
    let n := digits.foldl (fun n c => n * 10 + (c.toNat - '0'.toNat)) 0
    if n < UInt64.size then some n else none

def ValueKind.accepts : ValueKind → String → Bool
  | path, value => !value.isEmpty
  | offset, value => (offsetOf? value).isSome
  | format, value => (Format.ofName? value).isSome
  | text, _ => true

/-- An option. One without a value is a flag. -/
structure OptionSpec where
  name : String
  short : Option Char := none
  value : Option ValueKind := none
deriving DecidableEq, Repr

/-- What is wrong with the arguments. -/
inductive UsageError where
  | unexpected (argument : String)
  | missingValue (option : String)
  | unneededValue (option : String)
  | badValue (option value : String)
  | repeated (option : String)
  | missingOption (option : String)
  | missingCommand
deriving DecidableEq, Repr

def UsageError.message : UsageError → String
  | unexpected argument => "unexpected argument '" ++ argument ++ "' found"
  | missingValue option => "a value is required for '--" ++ option ++ "'"
  | unneededValue option => "no value is taken by '--" ++ option ++ "'"
  | badValue option value => "invalid value '" ++ value ++ "' for '--" ++ option ++ "'"
  | repeated option => "the argument '--" ++ option ++ "' cannot be used multiple times"
  | missingOption option => "the argument '--" ++ option ++ "' is required"
  | missingCommand => "a subcommand is required"

/-- Why reading the arguments came to an end before the command was known. -/
inductive Halt where
  | usage (error : UsageError)
  | version
  | help
deriving DecidableEq, Repr

def helpOption : OptionSpec := { name := "help", short := some 'h' }

def versionOption : OptionSpec := { name := "version", short := some 'V' }

/-- Options that may stand before or after the name of the subcommand. -/
def globalOptions : List OptionSpec :=
  [{ name := "verbose", short := some 'v' },
    { name := "config", short := some 'c', value := some .path },
    { name := "format", value := some .format }]

/-- The options before the name of the subcommand. -/
def mainOptions : List OptionSpec := globalOptions ++ [helpOption, versionOption]

/-- The options that were given, with their values. -/
abbrev Given := List (String × String)

/-- Takes in an option. None may be given twice, and help and version end the reading. -/
def give (given : Given) (option : OptionSpec) (value : String) : Except Halt Given :=
  if option = helpOption then .error .help
  else if option = versionOption then .error .version
  else if (given.lookup option.name).isSome then .error (.usage (.repeated option.name))
  else if option.value.any fun kind => !kind.accepts value then
    .error (.usage (.badValue option.name value))
  else .ok ((option.name, value) :: given)

/-- The argument could be an option, so it is not taken for the value of another one. -/
def looksLikeOption (argument : String) : Bool :=
  match argument.toList with
  | '-' :: _ :: _ => true
  | _ => false

/-- What an option is followed by inside its own argument: nothing, or a value. -/
inductive Attached where
  | nothing
  | value (value : String)
deriving DecidableEq, Repr

/-- The name of a long option and the value after its equals sign, if it has one. -/
def splitLong (text : List Char) : String × Attached :=
  let name := String.ofList (text.takeWhile (· != '='))
  match text.dropWhile (· != '=') with
  | [] => (name, .nothing)
  | _ :: value => (name, .value (String.ofList value))

/-- Reads the letters of an argument with one dash. Flags may follow each other; a letter
that takes a value takes the other letters for it, after an equals sign or not. Gives the
option that still needs a value, if the letters end there. -/
def readLetters (options : List OptionSpec) (argument : String) (given : Given) :
    List Char → Except Halt (Given × Option OptionSpec)
  | [] => .ok (given, none)
  | letter :: rest =>
    match options.find? fun option => option.short = some letter with
    | none => .error (.usage (.unexpected argument))
    | some option =>
      if option.value.isNone then do
        let given ← give given option ""
        readLetters options argument given rest
      else
        match rest with
        | [] => .ok (given, some option)
        | '=' :: value => (give given option (String.ofList value)).map fun given => (given, none)
        | value => (give given option (String.ofList value)).map fun given => (given, none)

/-- Reads one argument that is an option, up to a value that may follow it. -/
def readOption (options : List OptionSpec) (given : Given) (argument : String) :
    Except Halt (Given × Option OptionSpec) :=
  match argument.toList with
  | '-' :: '-' :: text =>
    let (name, attached) := splitLong text
    match options.find? fun option => option.name = name with
    | none => .error (.usage (.unexpected argument))
    | some option =>
      match option.value, attached with
      | none, .nothing => (give given option "").map fun given => (given, none)
      | none, .value _ => .error (.usage (.unneededValue name))
      | some _, .nothing => .ok (given, some option)
      | some _, .value value => (give given option value).map fun given => (given, none)
  | _ :: letters => readLetters options argument given letters
  | [] => .ok (given, none)

/-- Reads options up to the first argument that is none, or that cannot be one because two
dashes alone came before it. `waiting` is an option whose value comes next. -/
def readOptions (options : List OptionSpec) (given : Given) (waiting : Option OptionSpec) :
    List String → Except Halt (Given × List String)
  | [] =>
    match waiting with
    | some option => .error (.usage (.missingValue option.name))
    | none => .ok (given, [])
  | argument :: rest =>
    match waiting with
    | some option =>
      if looksLikeOption argument then .error (.usage (.missingValue option.name))
      else do
        let given ← give given option argument
        readOptions options given none rest
    | none =>
      if argument = "--" then
        match rest with
        | [] => .ok (given, [])
        | next :: _ => .error (.usage (.unexpected next))
      else if looksLikeOption argument then do
        let (given, waiting) ← readOption options given argument
        readOptions options given waiting rest
      else .ok (given, argument :: rest)

end TreeNav.CommandLine
