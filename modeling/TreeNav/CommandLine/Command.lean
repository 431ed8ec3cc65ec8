import TreeNav.CommandLine.Arguments

/-!
Commands: what the arguments ask for, and a reader of arguments that makes commands of
them. Left out are the help texts of single subcommands and arguments that spell no text;
the files that a command names are bytes all the same, so another reader may give them.
-/
namespace TreeNav.CommandLine

/-- A subcommand with its options. -/
inductive Command where
  /-- Run one motion in a file. -/
  | move (file : RawPath) (offset : Nat) (motion : String) (upTo : Option Nat)
      (language : Option String) (select : Bool)
  /-- Print the tree of a file, or the path to one offset in it. -/
  | tree (file : RawPath) (offset : Option Nat) (language : Option String)
  /-- List the languages. -/
  | languages
  /-- Write a settings file. -/
  | init (force : Bool)
deriving DecidableEq, Repr

/-- What the arguments ask for, with the options that all subcommands share. -/
structure Invocation where
  verbose : Bool
  config : Option RawPath
  format : Option Format
  command : Command
deriving DecidableEq, Repr

/-- Where the settings of an invocation are kept. -/
def Invocation.settingsPath (invocation : Invocation) : RawPath :=
  invocation.config.getD Settings.defaultPath

def fileOption : OptionSpec := { name := "file", short := some 'f', value := some .path }

def offsetOption : OptionSpec := { name := "offset", short := some 'o', value := some .offset }

def languageOption : OptionSpec := { name := "language", short := some 'l', value := some .text }

def moveOptions : List OptionSpec :=
  [fileOption, offsetOption,
    { name := "motion", short := some 'm', value := some .text },
    { name := "to", value := some .offset },
    languageOption,
    { name := "select", short := some 's' }]

def treeOptions : List OptionSpec := [fileOption, offsetOption, languageOption]

def initOptions : List OptionSpec := [{ name := "force" }]

/-- The names of the subcommands with their own options. -/
def subcommands : List (String × List OptionSpec) :=
  [("move", moveOptions), ("tree", treeOptions), ("languages", []), ("init", initOptions)]

/-- The value of an option that has to be given. -/
def required (given : Given) (option : String) : Except Halt String :=
  match given.lookup option with
  | some value => .ok value
  | none => .error (.usage (.missingOption option))

/-- The value of an option as an offset. -/
def offset? (given : Given) (option : String) : Option Nat := (given.lookup option).bind offsetOf?

def isGiven (given : Given) (option : String) : Bool := (given.lookup option).isSome

/-- The subcommand of a name, from the options that were given for it. -/
def commandOf (name : String) (given : Given) : Except Halt Command :=
  match name with
  | "move" => do
    let file ← required given "file"
    let offset ← required given "offset"
    let motion ← required given "motion"
    return .move file ((offsetOf? offset).getD 0) motion (offset? given "to")
      (given.lookup "language") (isGiven given "select")
  | "tree" => do
    let file ← required given "file"
    return .tree file (offset? given "offset") (given.lookup "language")
  | "languages" => .ok .languages
  | "init" => .ok (.init (isGiven given "force"))
  | _ => .error (.usage (.unexpected name))

/-- Help may be asked for as a subcommand too, also about another subcommand. -/
def helpOn : List String → Halt
  | [] => .help
  | [name] =>
    if name = "help" || (subcommands.lookup name).isSome then .help
    else .usage (.unexpected name)
  | _ :: name :: _ => .usage (.unexpected name)

/-- What the arguments ask for. Shared options count where they stand last, that is, after
the name of the subcommand rather than before it. -/
def parse (arguments : List String) : Except Halt Invocation := do
  let (before, rest) ← readOptions mainOptions [] none arguments
  match rest with
  | [] => .error (.usage .missingCommand)
  | name :: rest =>
    if name = "help" then .error (helpOn rest)
    else
      match subcommands.lookup name with
      | none => .error (.usage (.unexpected name))
      | some options =>
        let (after, rest) ← readOptions (options ++ globalOptions ++ [helpOption]) [] none rest
        match rest with
        | argument :: _ => .error (.usage (.unexpected argument))
        | [] =>
          let command ← commandOf name after
          let shared := fun option => (after.lookup option).or (before.lookup option)
          return {
            verbose := (shared "verbose").isSome
            config := (shared "config").map fun path => (path : RawPath)
            format := (shared "format").bind Format.ofName?
            command }

end TreeNav.CommandLine
