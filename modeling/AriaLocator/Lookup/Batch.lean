import AriaLocator.Locator.Parser
import AriaLocator.Lookup.Message
import AriaLocator.Lookup.Search
import AriaLocator.Name.Accessible
import Std.Data.HashMap

/-!
# Batches

While a batch runs, no document changes, so accessible names and the results of lookups are kept and
used again. They are told apart by the page they belong to; a lookup also by its root, the canonical
text of its locator and its options. When the batch ends, everything kept is forgotten. Errors are
never kept.

Outside a batch, a lookup runs in a batch of its own, and a name is worked out anew.

## Main results

* `start_of_active`, `start_of_inactive`: a batch begins exactly when none is running.
* `finish_eq`: after a batch nothing is kept.
-/

namespace AriaLocator

/-- A document together with the number that tells it apart from others. -/
structure Page where
  number : Nat
  document : Document

/-- What tells lookups apart. -/
structure LookupKey where
  page : Nat
  root : Element
  locator : String
  options : SearchOptions
deriving DecidableEq, Hashable

/-- Whether a batch is running, and what it has kept. -/
structure BatchContext where
  /-- Whether a batch is running. -/
  isActive : Bool := false
  /-- The accessible names that have been worked out, by page and element. -/
  names : Std.HashMap (Nat × Element) String := ∅
  /-- The results of lookups. -/
  lookups : Std.HashMap LookupKey LookupResult := ∅

/-- Work that may use what a batch has kept. -/
abbrev BatchM := StateM BatchContext

namespace BatchContext

/-- The context in which no batch has been begun. -/
def new : BatchContext := {}

/-! ## Life of a batch -/

/-- Begins a batch, unless one is running. -/
def start : BatchM (Except Error Unit) := fun context =>
  if context.isActive then (.error .batchInProgress, context)
  else (.ok (), { context with isActive := true })

/-- Ends the batch and forgets what it has kept. -/
def finish : BatchM Unit := fun _ => ((), new)

/-- Does some work in a batch, unless one is running. -/
def run {α : Type} (work : BatchM α) : BatchM (Except Error α) := do
  match ← start with
  | .error e => pure (.error e)
  | .ok () =>
    let result ← work
    finish
    pure (.ok result)

theorem start_of_active {context : BatchContext} (h : context.isActive = true) :
    start context = (.error .batchInProgress, context) := by
  simp [start, h]

theorem start_of_inactive {context : BatchContext} (h : context.isActive = false) :
    start context = (.ok (), { context with isActive := true }) := by
  simp [start, h]

theorem finish_eq (context : BatchContext) : finish context = ((), new) := rfl

/-! ## What a batch keeps -/

/-- The accessible name of an element. -/
def accessibleName (p : Page) (e : Element) : BatchM String := do
  let context ← get
  if !context.isActive then pure (p.document.accessibleName e)
  else
    match context.names[(p.number, e)]? with
    | some name => pure name
    | none =>
      let name := p.document.accessibleName e
      set { context with names := context.names.insert (p.number, e) name }
      pure name

/-- The key of a lookup. -/
def keyOf (p : Page) (l : Locator) (root : Element) (options : SearchOptions) : LookupKey :=
  ⟨p.number, root, l.canonical, options⟩

/-- The result of a lookup in a running batch. -/
def findKept (p : Page) (l : Locator) (root : Element) (options : SearchOptions) :
    BatchM (Except Error LookupResult) := do
  match (← get).lookups[keyOf p l root options]? with
  | some result => pure (.ok result)
  | none =>
    match ← (p.document.resolve (accessibleName p) l root options).run with
    | .error e => pure (.error e)
    | .ok result =>
      modify fun context =>
        { context with lookups := context.lookups.insert (keyOf p l root options) result }
      pure (.ok result)

/-- The result of a lookup. -/
def find (p : Page) (l : Locator) (root : Element) (options : SearchOptions) :
    BatchM (Except Error LookupResult) := do
  if (← get).isActive then findKept p l root options
  else
    modify fun context => { context with isActive := true }
    let result ← findKept p l root options
    finish
    pure result

/-- The message for a lookup that missed. Two more lookups tell whether hidden elements, or elements
below one with presentational children, would have matched. -/
def failureMessage (p : Page) (l : Locator) (root : Element) (miss : Miss) :
    BatchM (Except Error String) := do
  match ← find p l root { includeHidden := true } with
  | .error e => pure (.error e)
  | .ok hidden =>
    match ← find p l root { includePresentational := true } with
    | .error e => pure (.error e)
    | .ok presentational =>
      pure (.ok (p.document.missMessage l miss hidden.elements presentational.elements))

end BatchContext

/-! ## Lookups on their own -/

namespace Document

/-- The page of a document that is the only one in use. -/
def alone (d : Document) : Page := ⟨0, d⟩

/-- The result of a lookup that shares nothing with others. -/
def lookup (d : Document) (l : Locator) (root : Element) (options : SearchOptions) :
    Except Error LookupResult :=
  (BatchContext.find d.alone l root options BatchContext.new).1

/-- The elements below `root` that the locator in a text matches. -/
def findElements (d : Document) (text : String) (root : Element) : Except Error (List Element) :=
  match Locator.ofText text with
  | .error e => .error e
  | .ok l =>
    match d.lookup l root {} with
    | .error e => .error e
    | .ok result => .ok result.elements

/-- The first element below `root` that the locator in a text matches; that there is none is an
error with an explanation. -/
def findElement (d : Document) (text : String) (root : Element) : Except Error Element :=
  match Locator.ofText text with
  | .error e => .error e
  | .ok l =>
    match d.lookup l root {} with
    | .error e => .error e
    | .ok (.found (e :: _)) => .ok e
    | .ok (.found []) => .error (.noSuchElement ("No elements match " ++ l.canonical))
    | .ok (.missed miss) =>
      match (BatchContext.failureMessage d.alone l root miss BatchContext.new).1 with
      | .error e => .error e
      | .ok message => .error (.noSuchElement message)

end Document

end AriaLocator
