import AriaLocator.Generator.Precise
import AriaLocator.Lookup.Batch

/-!
# Locators for elements of a page

One locator is generated in a batch of its own. Locators for many elements share a batch, so that
what is found out for one helps with the next; an element for which an error arises has none.

Work takes no time here. So a time limit of zero has passed before the first element, and any other
limit is never reached.

## Main results

* `mem_keys_insertEntry`: an entry adds its own key and no other.
-/

namespace AriaLocator

/-- Locators by element, in the order of the elements. -/
abbrev LocatorEntries := List (Element × Option String)

/-- Puts in an entry, in place of the one that its element had. -/
def insertEntry (e : Element) (locator : Option String) : LocatorEntries → LocatorEntries
  | [] => [(e, locator)]
  | (a, old) :: rest =>
    if a < e then (a, old) :: insertEntry e locator rest
    else if a = e then (e, locator) :: rest
    else (e, locator) :: (a, old) :: rest

theorem mem_keys_insertEntry {e a : Element} {locator : Option String} {entries : LocatorEntries} :
    a ∈ (insertEntry e locator entries).map (·.1) ↔ a = e ∨ a ∈ entries.map (·.1) := by
  induction entries with
  | nil => simp [insertEntry]
  | cons entry rest ih =>
    obtain ⟨b, old⟩ := entry
    simp only [insertEntry]
    split
    · simp only [List.map_cons, List.mem_cons, ih]
      grind
    · split
      · next h => subst h; simp
      · simp

namespace BatchContext

/-- Names and lookups of a page, with what the batch keeps. -/
def resolver (p : Page) : Resolver BatchM where
  nameOf := accessibleName p
  find l root := ExceptT.mk (find p l root {})

/-- The locator of an element, in the batch that is running. -/
def generate (p : Page) (e : Element) (mode : GeneratorMode) (options : GeneratorOptions) :
    BatchM (Except Error (Option String)) :=
  (p.document.generateWith (resolver p) e mode options).run

/-- The locators of several elements, in the batch that is running. -/
def generateEach (p : Page) (mode : GeneratorMode) (options : GeneratorOptions) :
    LocatorEntries → List Element → BatchM LocatorEntries
  | entries, [] => pure entries
  | entries, e :: rest => do
    let locator :=
      match ← generate p e mode options with
      | .ok locator => locator
      | .error _ => none
    generateEach p mode options (insertEntry e locator entries) rest

end BatchContext

namespace Document

/-- The locator of an element, generated in a batch of its own. -/
def generate (d : Document) (e : Element) (mode : GeneratorMode) (options : GeneratorOptions) :
    Except Error (Option String) :=
  match (BatchContext.run (BatchContext.generate d.alone e mode options) BatchContext.new).1 with
  | .error e => .error e
  | .ok result => result

/-- A single node for an element, generated outside any batch. -/
def simpleLocator? (d : Document) (e : Element) (mark : Option QuoteMark) : Option String :=
  ((d.nodeOf? (BatchContext.resolver d.alone) e BatchContext.new).1).map (·.text mark)

/-- The locators of several elements, generated in one batch, as far as the time limit in
milliseconds allows. -/
def generateAll (d : Document) (elements : List Element) (mode : GeneratorMode)
    (options : GeneratorOptions) (timeLimit : Option Nat) : Except Error LocatorEntries :=
  let inTime := if timeLimit = some 0 then [] else elements
  (BatchContext.run (BatchContext.generateEach d.alone mode options [] inTime)
    BatchContext.new).1

end Document

end AriaLocator
