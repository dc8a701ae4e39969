import AriaLocator.Cli.Run
import AriaLocator.Document.Reader

/-!
# The program

Finds and generates locators in documents, from the command line. Results go to standard output,
warnings and errors to standard error. The exit code is zero if the command succeeds, one if it
fails, and two if the command line is no command.
-/

namespace AriaLocator.Cli

/-- How the program is called. -/
def usage : String :=
  "Usage: aria-locator [OPTIONS] COMMAND\n\n" ++
    "Commands:\n" ++
    "  find FILE LOCATOR       the elements that a locator matches\n" ++
    "  generate FILE SELECTOR  the locator of an element\n" ++
    "  batch FILE [SELECTOR]   the locators of many elements\n" ++
    "  role FILE SELECTOR      the roles and names of elements\n" ++
    "  parse LOCATOR           the canonical form of a locator\n\n" ++
    "FILE is a hyphen for standard input.\n"

/-- Reads the document of a command, or tells why it cannot be read. -/
def readSource (source : Source) : IO (Except String Document) := do
  try
    let text ←
      match source with
      | .standardInput => do (← IO.getStdin).readToEnd
      | .file path => IO.FS.readFile path
    pure (.ok (Document.ofText text))
  catch e => pure (.error (toString e))

/-- Runs a command with the documents that it may read. -/
def runWith (i : Invocation) : IO UInt32 := do
  let document ←
    match i.command.source? with
    | none => pure (.error "")
    | some source => readSource source
  let outcome := run (fun _ => document) i
  (← IO.getStderr).putStr outcome.warnings
  (← IO.getStdout).putStr outcome.output
  match outcome.error? with
  | none => pure 0
  | some e =>
    (← IO.getStderr).putStr ("Error: " ++ e.message ++ "\n")
    pure 1

end AriaLocator.Cli

open AriaLocator.Cli in
/-- The program. -/
def main (arguments : List String) : IO UInt32 := do
  match Invocation.ofTokens arguments with
  | .ok i => runWith i
  | .error .versionWanted =>
    (← IO.getStdout).putStr "aria-locator\n"
    pure 0
  | .error problem =>
    let stream ← if problem.exitCode = 0 then IO.getStdout else IO.getStderr
    stream.putStr usage
    pure problem.exitCode.toUInt32
