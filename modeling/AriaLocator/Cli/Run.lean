import AriaLocator.Cli.Arguments
import AriaLocator.Cli.Report
import AriaLocator.Css.Parser
import AriaLocator.Generator.Batch

/-!
# Running a command

A command reads its document, looks up what it is asked and makes a report. The report goes to
standard output, its warning to standard error, unless only results are wanted. A command that fails
writes nothing.
-/

namespace AriaLocator.Cli

/-- Why a command fails. -/
inductive CommandError where
  /-- A locator cannot be read, resolved or generated. -/
  | locator (e : Error)
  /-- The document cannot be read. -/
  | input (path reason : String)
  /-- No element matches a selector. -/
  | noMatch (selector : String)
deriving DecidableEq, Repr

namespace CommandError

/-- What an error says. -/
def message : CommandError → String
  | locator e => e.message
  | input path reason => "Failed to read " ++ path ++ ": " ++ reason
  | noMatch selector => "No element matches selector " ++ selector

/-- A result whose error is one of locators. -/
def ofLocator {α : Type} : Except Error α → Except CommandError α
  | .ok a => .ok a
  | .error e => .error (locator e)

end CommandError

open CommandError

/-! ## Selecting elements -/

/-- The elements that the selector in a text matches. -/
def select (d : Document) (selector : String) : Except CommandError (List Element) :=
  match Css.Selector.parse? selector with
  | some s => .ok (d.select s)
  | none => .error (locator (.html ("Invalid selector " ++ Text.escaped selector)))

/-- The first element that the selector in a text matches. -/
def selectOne (d : Document) (selector : String) : Except CommandError Element := do
  match ← select d selector with
  | e :: _ => pure e
  | [] => throw (noMatch selector)

/-- The element to search in: the one that a selector matches first, or the usual one. -/
def selectRoot (d : Document) : Option String → Except CommandError Element
  | none => pure d.defaultRoot
  | some selector => selectOne d selector

/-! ## Commands -/

/-- The result of a lookup, and the explanation if it missed, in one batch. -/
def explainedLookup (p : Page) (l : Locator) (root : Element) (options : SearchOptions) :
    BatchM (Except Error (List Element × Option String)) := do
  match ← BatchContext.find p l root options with
  | .error e => pure (.error e)
  | .ok (.found elements) => pure (.ok (elements, none))
  | .ok (.missed miss) =>
    match ← BatchContext.failureMessage p l root miss with
    | .error e => pure (.error e)
    | .ok message => pure (.ok ([], some message))

/-- Finds the elements that a locator matches. -/
def find (d : Document) (request : FindRequest) : Except CommandError Report := do
  let l ← ofLocator (Locator.ofText request.locator)
  let root ← selectRoot d request.root?
  let result ← ofLocator
    (BatchContext.run (explainedLookup d.alone l root request.options) BatchContext.new).1
  let (elements, explanation?) ← ofLocator result
  match request.isOne, explanation? with
  | true, some explanation => throw (locator (.noSuchElement explanation))
  | isOne, explanation? =>
    let shown := if isOne then elements.take 1 else elements
    pure (.found l.canonical (shown.map (ElementSummary.ofElement d)) explanation?)

/-- The options of a generator. -/
def generatorOptions (d : Document) (request : GenerateRequest) :
    Except CommandError GeneratorOptions :=
  match request.root? with
  | none => pure { mark := request.mark }
  | some selector => do pure { root := .element (← selectOne d selector), mark := request.mark }

/-- Generates the locator of one element. -/
def generate (d : Document) (request : GenerateRequest) : Except CommandError Report := do
  let e ← selectOne d request.selector
  let options ← generatorOptions d request
  let locator? ← ofLocator (d.generate e request.mode options)
  pure (.generated request.mode ⟨ElementSummary.ofElement d e, locator?⟩)

/-- Generates the locators of several elements. -/
def batch (d : Document) (request : GenerateRequest) (timeLimit : Option Nat) :
    Except CommandError Report := do
  let elements ← select d request.selector
  let options ← generatorOptions d request
  let entries ← ofLocator (d.generateAll elements request.mode options timeLimit)
  pure (.batch request.mode elements.length (elements.filterMap fun e =>
    (entries.lookup e).map fun locator? => ⟨ElementSummary.ofElement d e, locator?⟩))

/-- The attributes of an element that have a value other than false, as constraints. -/
def shownAttributes (d : Document) (e : Element) : List String :=
  AriaAttribute.all.filterMap fun a =>
    ((d.ariaValue? e a).filter (· != "false")).map fun value => (Constraint.mk a value).text

/-- Shows the roles of elements. -/
def role (d : Document) (selector : String) : Except CommandError Report := do
  let elements ← select d selector
  pure (.roles (elements.map fun e =>
    ⟨ElementSummary.ofElement d e, d.simpleLocator? e none, shownAttributes d e⟩))

/-- Shows the parts of a locator. -/
def parse (text : String) (mark : Option QuoteMark) : Except CommandError Report := do
  let l ← ofLocator (Locator.ofText text)
  pure (.parsed (l.text mark) l)

/-! ## Running -/

/-- A way to read documents: a document, or the reason why there is none. -/
abbrev DocumentReader := Source → Except String Document

/-- Reads the document of a command. -/
def load (read : DocumentReader) (source : Source) : Except CommandError Document :=
  match read source with
  | .ok d => .ok d
  | .error reason =>
    match source with
    | .standardInput => .error (input "<stdin>" reason)
    | .file path => .error (input path reason)

/-- The report of a command. -/
def Command.report (read : DocumentReader) : Command → Except CommandError Report
  | .find request => do Cli.find (← load read request.source) request
  | .generate request => do Cli.generate (← load read request.source) request
  | .batch request timeLimit => do Cli.batch (← load read request.source) request timeLimit
  | .role source selector => do Cli.role (← load read source) selector
  | .parse text mark => Cli.parse text mark

/-- What a command writes, and how it ends. -/
structure Outcome where
  /-- What goes to standard output. -/
  output : String
  /-- What goes to standard error. -/
  warnings : String
  /-- Why it has failed, if it has. -/
  error? : Option CommandError
deriving DecidableEq, Repr

/-- A text as lines, each with an end; no text makes no line. -/
def asLines (text : String) : String := if text = "" then "" else text ++ "\n"

/-- A warning as a line. -/
def warningLine (c : Config) (warning : String) : String :=
  (if c.useColor then "⚠ " else "WARN ") ++ warning ++ "\n"

/-- Runs a command. -/
def run (read : DocumentReader) (i : Invocation) : Outcome :=
  match i.command.report read with
  | .error e => ⟨"", "", some e⟩
  | .ok report =>
    { output := asLines (report.render i.config.format)
      warnings :=
        if i.config.verbosity.isQuiet then ""
        else ((report.warning?.map (warningLine i.config)).getD "")
      error? := none }

end AriaLocator.Cli
