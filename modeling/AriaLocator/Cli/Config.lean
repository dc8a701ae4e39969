/-!
# How the program reports

The options that every command knows: how much is said, in which form, and whether in colour.
Standard output is never a terminal here, so automatic colour is none.
-/

namespace AriaLocator.Cli

/-- How much is said besides the results. -/
inductive Verbosity where
  | quiet
  | normal
  | verbose
  | debug
deriving DecidableEq, Repr

namespace Verbosity

/-- The verbosity that the options ask for; being quiet goes first. -/
def ofOptions (isQuiet : Bool) (count : Nat) : Verbosity :=
  if isQuiet then quiet
  else
    match count with
    | 0 => normal
    | 1 => verbose
    | _ => debug

/-- Whether only results and errors are shown. -/
def isQuiet (v : Verbosity) : Bool := v == quiet

/-- Whether more than usual is shown. -/
def isVerbose (v : Verbosity) : Bool := v == verbose || v == debug

/-- Whether everything is shown. -/
def isDebug (v : Verbosity) : Bool := v == debug

/-- Which log messages are kept. -/
def logDirective : Verbosity → String
  | quiet => "semloc=error"
  | normal => "semloc=warn"
  | verbose => "semloc=info,semloc_cli=info"
  | debug => "semloc=debug,semloc_cli=debug"

end Verbosity

/-- Whether results are coloured. -/
inductive ColorChoice where
  | auto
  | always
  | never
deriving DecidableEq, Repr

/-- The form of a report. -/
inductive OutputFormat where
  | text
  | json
deriving DecidableEq, Repr

/-- The options that every command knows. -/
structure Config where
  verbosity : Verbosity := .normal
  color : ColorChoice := .auto
  format : OutputFormat := .text
  jsonLogs : Bool := false
deriving DecidableEq, Repr

/-- Whether results are styled: only text, and only if colour is asked for. -/
def Config.useColor (c : Config) : Bool := c.format == .text && c.color == .always

end AriaLocator.Cli
