import AriaLocator.Text.Natural

/-!
# Command lines

A command line is read token by token against a level: the program itself, or one of its commands.
A level has options, words that are given by position, and possibly commands of its own, the first
of which ends the level.

An option or word is settled, which checks it, when the next one comes or the level ends; until then
it is pending. An option that takes a value and has none takes the next token that does not begin
with a hyphen, whatever it is. Behind `--` every token is a word.
-/

namespace AriaLocator.Cli

/-- Why a command line does not lead to a command. -/
inductive UsageProblem where
  /-- Help is asked for. -/
  | helpWanted
  /-- The version is asked for. -/
  | versionWanted
  /-- Nothing is given at all. -/
  | nothingGiven
  /-- A command is missing. -/
  | missingCommand
  /-- A word is no command. -/
  | unknownCommand
  /-- An option is not known, or there are too many words. -/
  | unknownArgument
  /-- A word is missing. -/
  | missingWord
  /-- A value is missing, or it is none of those that are allowed. -/
  | invalidValue
  /-- A value that should be a number is none. -/
  | invalidNumber
  /-- A value is given to an option that takes none. -/
  | unwantedValue
  /-- An option is repeated. -/
  | repeatedOption
deriving DecidableEq, Repr

/-- The exit code of the program: asking for help or the version is no failure. -/
def UsageProblem.exitCode : UsageProblem → Nat
  | helpWanted => 0
  | versionWanted => 0
  | _ => 2

/-- What an option takes and does. -/
inductive OptionKind where
  /-- It is given or not. -/
  | flag
  /-- It counts how often it is given. -/
  | counted
  /-- It asks for help. -/
  | help
  /-- It asks for the version. -/
  | version
  /-- It takes any text. -/
  | text
  /-- It takes one of some words. -/
  | choice (words : List String)
  /-- It takes a natural number that fits a machine word. -/
  | number
deriving DecidableEq, Repr

/-- An option: its name behind two hyphens, its letter behind one. -/
structure OptionSpec where
  name : String
  letter? : Option Char
  kind : OptionKind
deriving DecidableEq, Repr

/-- Whether an option takes a value. -/
def OptionSpec.takesValue (spec : OptionSpec) : Bool :=
  match spec.kind with
  | .text => true
  | .choice _ => true
  | .number => true
  | _ => false

/-- A word given by position. -/
structure WordSpec where
  isRequired : Bool := true
  mayBeEmpty : Bool := true
deriving DecidableEq, Repr

/-- What a command line can hold at one level. -/
structure Level where
  options : List OptionSpec
  words : List WordSpec
  commands : List String

/-- What has been given at a level: options with their values, and words. -/
structure Given where
  options : List (String × String) := []
  words : List String := []
deriving DecidableEq, Repr

/-- What waits to be settled. -/
inductive Pending where
  | nothing
  /-- An option, with its value if that has come. -/
  | option (spec : OptionSpec) (value? : Option String)
  | word (value : String)
deriving DecidableEq, Repr

/-- How far a level has been read. -/
structure Reading where
  given : Given := {}
  pending : Pending := .nothing
  /-- The number of words so far, the pending one included. -/
  wordCount : Nat := 0
  /-- Whether `--` has come. -/
  isTrailing : Bool := false
deriving DecidableEq, Repr

/-! ## Settling -/

/-- Whether an option can have a value. -/
def OptionSpec.check (spec : OptionSpec) (value : String) : Except UsageProblem Unit :=
  match spec.kind with
  | .choice words => if words.contains value then .ok () else .error .invalidValue
  | .number =>
    if (Text.readNat? (Text.largestWord 64) value.toList).isSome then .ok ()
    else .error .invalidNumber
  | _ => .ok ()

/-- Adds an option with its value; it must not have been given before. -/
def Given.addOption (given : Given) (spec : OptionSpec) (value : String) :
    Except UsageProblem Given :=
  if (given.options.lookup spec.name).isSome then .error .repeatedOption
  else
    match spec.check value with
    | .error problem => .error problem
    | .ok () => .ok { given with options := given.options ++ [(spec.name, value)] }

/-- Adds a word. -/
def Given.addWord (given : Given) (level : Level) (value : String) : Except UsageProblem Given :=
  match level.words[given.words.length]? with
  | none => .error .unknownArgument
  | some spec =>
    if value = "" ∧ spec.mayBeEmpty = false then .error .invalidValue
    else .ok { given with words := given.words ++ [value] }

/-- Checks what is pending and adds it to what has been given. -/
def settle (level : Level) (r : Reading) : Except UsageProblem Given :=
  match r.pending with
  | .nothing => .ok r.given
  | .option _ none => .error .invalidValue
  | .option spec (some value) => r.given.addOption spec value
  | .word value => r.given.addWord level value

/-- Settles, then goes on with what has been given. -/
def settled (level : Level) (r : Reading) (next : Given → Except UsageProblem Given) :
    Except UsageProblem Reading :=
  match settle level r with
  | .error problem => .error problem
  | .ok given =>
    match next given with
    | .error problem => .error problem
    | .ok given => .ok { r with given, pending := .nothing }

/-- Settles, then leaves something else pending. -/
def thenPending (level : Level) (r : Reading) (pending : Pending) :
    Except UsageProblem Reading :=
  match settle level r with
  | .error problem => .error problem
  | .ok given => .ok { r with given, pending }

/-! ## Tokens -/

/-- Takes in an option without a value. -/
def takeFlag (level : Level) (r : Reading) (spec : OptionSpec) : Except UsageProblem Reading :=
  settled level r fun given =>
    match spec.kind with
    | .help => .error .helpWanted
    | .version => .error .versionWanted
    | .counted => .ok { given with options := given.options ++ [(spec.name, "")] }
    | _ => given.addOption spec ""

/-- Takes in an option with a value that is joined to it. -/
def takeJoined (level : Level) (r : Reading) (spec : OptionSpec) (value : String) :
    Except UsageProblem Reading :=
  settled level r fun given => given.addOption spec value

/-- Takes in an option by its name, with a value if one is joined to it. -/
def takeNamed (level : Level) (r : Reading) (name : String) (value? : Option String) :
    Except UsageProblem Reading :=
  match level.options.find? fun spec => spec.name == name with
  | none => .error .unknownArgument
  | some spec =>
    match spec.takesValue, value? with
    | true, some value => takeJoined level r spec value
    | true, none => thenPending level r (.option spec none)
    | false, some _ => .error .unwantedValue
    | false, none => takeFlag level r spec

/-- Takes in options by their letters; the rest behind one that takes a value is its value. -/
def takeLetters (level : Level) (r : Reading) : List Char → Except UsageProblem Reading
  | [] => .ok r
  | c :: rest =>
    match level.options.find? fun spec => spec.letter? == some c with
    | none => .error .unknownArgument
    | some spec =>
      if spec.takesValue then
        match rest with
        | [] => thenPending level r (.option spec none)
        | '=' :: value => takeJoined level r spec (String.ofList value)
        | value => takeJoined level r spec (String.ofList value)
      else
        match takeFlag level r spec with
        | .error problem => .error problem
        | .ok r => takeLetters level r rest

/-- Takes in a word. -/
def takeWord (level : Level) (r : Reading) (token : String) : Except UsageProblem Reading :=
  if r.wordCount < level.words.length then
    thenPending level { r with wordCount := r.wordCount + 1 } (.word token)
  else if level.commands.isEmpty || (r.isTrailing && level.commands.contains token) then
    .error .unknownArgument
  else .error .unknownCommand

/-- Splits the name of an option from a value joined to it by an equals sign. -/
def splitValue (cs : List Char) : String × Option String :=
  match cs.dropWhile (· != '=') with
  | [] => (String.ofList cs, none)
  | _ :: value => (String.ofList (cs.takeWhile (· != '=')), some (String.ofList value))

/-- Takes in a token that is no command. -/
def takeToken (level : Level) (r : Reading) (token : String) : Except UsageProblem Reading :=
  if r.isTrailing then takeWord level r token
  else
    match token.toList with
    | ['-', '-'] => .ok { r with isTrailing := true }
    | '-' :: '-' :: rest => takeNamed level r (splitValue rest).1 (splitValue rest).2
    | '-' :: c :: rest => takeLetters level r (c :: rest)
    | _ =>
      match r.pending with
      | .option spec none => .ok { r with pending := .option spec (some token) }
      | _ => takeWord level r token

/-- Whether an option waits for its value. -/
def Reading.isAwaiting (r : Reading) : Bool :=
  match r.pending with
  | .option _ none => true
  | _ => false

/-- Reads the tokens of a level up to its command, if one comes. -/
def scan (level : Level) (r : Reading) :
    List String → Except UsageProblem (Reading × Option (String × List String))
  | [] => .ok (r, none)
  | token :: rest =>
    if !r.isTrailing && !r.isAwaiting && level.commands.contains token then
      .ok (r, some (token, rest))
    else
      match takeToken level r token with
      | .error problem => .error problem
      | .ok r => scan level r rest

/-- Reads the tokens of a level that has no commands. -/
def readLevel (level : Level) (tokens : List String) : Except UsageProblem Given :=
  match scan level {} tokens with
  | .error problem => .error problem
  | .ok (r, _) =>
    match settle level r with
    | .error problem => .error problem
    | .ok given =>
      if given.words.length < (level.words.filter WordSpec.isRequired).length then
        .error .missingWord
      else .ok given

/-! ## What has been given -/

namespace Given

/-- The value of an option. -/
def value? (given : Given) (name : String) : Option String := given.options.lookup name

/-- Whether an option has been given. -/
def has (given : Given) (name : String) : Bool := (given.value? name).isSome

/-- How often an option has been given. -/
def count (given : Given) (name : String) : Nat :=
  (given.options.filter fun entry => entry.1 == name).length

/-- The word at a position. -/
def word (given : Given) (i : Nat) : String := given.words[i]?.getD ""

end Given

end AriaLocator.Cli
