import AriaLocator.Cli.Config
import AriaLocator.Cli.Usage
import AriaLocator.Generator.Options
import AriaLocator.Lookup.Options

/-!
# The commands of the program

The five commands with their words and options, and the reading of a command line into one of them.
The options that every command knows may stand before the command or behind it; where they stand on
both sides, those behind count.
-/

namespace AriaLocator.Cli

/-- Where a document is read from. -/
inductive Source where
  | standardInput
  | file (path : String)
deriving DecidableEq, Repr

/-- The parts of a path between slashes. -/
def pathParts : List Char → List (List Char)
  | [] => [[]]
  | c :: cs =>
    match pathParts cs with
    | [] => [[c]]
    | part :: rest => if c = '/' then [] :: part :: rest else (c :: part) :: rest

/-- A path that is a hyphen, with nothing behind it that means anything in a path, stands for
standard input. -/
def Source.ofPath (path : String) : Source :=
  match pathParts path.toList with
  | ['-'] :: rest =>
    if rest.all fun part => part == [] || part == ['.'] then standardInput else file path
  | _ => file path

/-- What `find` is asked. -/
structure FindRequest where
  source : Source
  locator : String
  /-- A selector of the element to search in. -/
  root? : Option String
  /-- Whether only the first match is wanted. -/
  isOne : Bool
  options : SearchOptions
deriving DecidableEq, Repr

/-- What `generate` and `batch` are asked. -/
structure GenerateRequest where
  source : Source
  /-- A selector of the elements to describe. -/
  selector : String
  mode : GeneratorMode
  /-- A selector of the element to generate relative to. -/
  root? : Option String
  mark : Option QuoteMark
deriving DecidableEq, Repr

/-- A command. -/
inductive Command where
  /-- Finds the elements that a locator matches. -/
  | find (request : FindRequest)
  /-- Generates the locator of the first element that a selector matches. -/
  | generate (request : GenerateRequest)
  /-- Generates the locators of all elements that a selector matches. -/
  | batch (request : GenerateRequest) (timeLimit : Option Nat)
  /-- Shows the roles and names of the elements that a selector matches. -/
  | role (source : Source) (selector : String)
  /-- Shows the parts of a locator. -/
  | parse (locator : String) (mark : Option QuoteMark)
deriving DecidableEq, Repr

/-- The document that a command reads. -/
def Command.source? : Command → Option Source
  | find request => some request.source
  | generate request => some request.source
  | batch request _ => some request.source
  | role source _ => some source
  | parse _ _ => none

/-- A command with the options that every command knows. -/
structure Invocation where
  config : Config
  command : Command
deriving DecidableEq, Repr

/-! ## Levels -/

/-- A word that names a file. -/
def fileWord : WordSpec := { mayBeEmpty := false }

/-- The options that every command knows. -/
def globalOptions : List OptionSpec :=
  [⟨"verbose", some 'v', .counted⟩, ⟨"quiet", some 'q', .flag⟩,
    ⟨"color", none, .choice ["auto", "always", "never"]⟩,
    ⟨"format", none, .choice ["text", "json"]⟩, ⟨"json-logs", none, .flag⟩,
    ⟨"help", some 'h', .help⟩, ⟨"version", some 'V', .version⟩]

/-- The option for the root of a search. -/
def rootOption : OptionSpec := ⟨"root", none, .text⟩

/-- The option for the quotes around names. -/
def quoteOption : OptionSpec := ⟨"quote", none, .choice ["single", "double"]⟩

/-- The option for the mode of a generator. -/
def modeOption (modes : List GeneratorMode) : OptionSpec :=
  ⟨"mode", some 'm', .choice (modes.map GeneratorMode.name)⟩

/-- The levels of the commands. -/
def commandLevels : List (String × Level) :=
  [("find",
      ⟨[rootOption, ⟨"one", none, .flag⟩, ⟨"include-hidden", none, .flag⟩,
          ⟨"include-presentational", none, .flag⟩] ++ globalOptions, [fileWord, {}], []⟩),
    ("generate",
      ⟨[modeOption GeneratorMode.all, rootOption, quoteOption] ++ globalOptions,
        [fileWord, {}], []⟩),
    ("batch",
      ⟨[modeOption [.precise, .closestPrecise, .closestSimple], rootOption, quoteOption,
          ⟨"timeout-ms", none, .number⟩] ++ globalOptions,
        [fileWord, { isRequired := false }], []⟩),
    ("role", ⟨globalOptions, [fileWord, {}], []⟩),
    ("parse", ⟨[quoteOption] ++ globalOptions, [{}], []⟩)]

/-- The command that shows help. -/
def helpCommand : String := "help"

/-- The level of the program itself. -/
def programLevel : Level := ⟨globalOptions, [], commandLevels.map (·.1) ++ [helpCommand]⟩

/-! ## Reading -/

/-- The mode that has been given, or else the usual one. -/
def givenMode (given : Given) : GeneratorMode :=
  ((given.value? "mode").bind GeneratorMode.ofName?).getD .closestPrecise

/-- The quotes that have been given. -/
def givenMark (given : Given) : Option QuoteMark :=
  (given.value? "quote").bind QuoteMark.ofText?

/-- What a generator is asked, with a selector to use where none is given. -/
def givenRequest (given : Given) (usual : String) : GenerateRequest :=
  { source := Source.ofPath (given.word 0)
    selector := given.words[1]?.getD usual
    mode := givenMode given
    root? := given.value? "root"
    mark := givenMark given }

/-- The command with a name. -/
def commandOf (name : String) (given : Given) : Command :=
  match name with
  | "find" =>
    .find
      { source := Source.ofPath (given.word 0)
        locator := given.word 1
        root? := given.value? "root"
        isOne := given.has "one"
        options := ⟨given.has "include-hidden", given.has "include-presentational"⟩ }
  | "generate" => .generate (givenRequest given "")
  | "batch" =>
    .batch (givenRequest given "body *")
      ((given.value? "timeout-ms").bind fun limit =>
        Text.readNat? (Text.largestWord 64) limit.toList)
  | "role" => .role (Source.ofPath (given.word 0)) (given.word 1)
  | _ => .parse (given.word 0) (givenMark given)

/-- The configuration from what has been given behind the command and in front of it. -/
def configOf (behind before : Given) : Config :=
  let value? (name : String) := (behind.value? name).or (before.value? name)
  let isGiven (name : String) := (value? name).isSome
  { verbosity :=
      Verbosity.ofOptions (isGiven "quiet")
        (if behind.has "verbose" then behind.count "verbose" else before.count "verbose")
    color :=
      match value? "color" with
      | some "always" => .always
      | some "never" => .never
      | _ => .auto
    format := if value? "format" == some "json" then .json else .text
    jsonLogs := isGiven "json-logs" }

/-- What the help command comes to: help on the program or on one command. -/
def helpOn : List String → UsageProblem
  | [] => .helpWanted
  | [name] => if programLevel.commands.contains name then .helpWanted else .unknownCommand
  | _ => .unknownCommand

/-- Reads a command whose name has come, behind what `r` holds. -/
def readCommand (r : Reading) (name : String) (tokens : List String) :
    Except UsageProblem Invocation :=
  match commandLevels.lookup name with
  | none => .error (helpOn tokens)
  | some level =>
    match readLevel level tokens with
    | .error problem => .error problem
    | .ok behind =>
      match settle programLevel r with
      | .error problem => .error problem
      | .ok before => .ok ⟨configOf behind before, commandOf name behind⟩

/-- Reads a command line, without the name of the program. -/
def Invocation.ofTokens (tokens : List String) : Except UsageProblem Invocation :=
  match scan programLevel {} tokens with
  | .error problem => .error problem
  | .ok (r, some (name, rest)) => readCommand r name rest
  | .ok (r, none) =>
    match settle programLevel r with
    | .error problem => .error problem
    | .ok given => .error (if given.options.isEmpty then .nothingGiven else .missingCommand)

end AriaLocator.Cli
