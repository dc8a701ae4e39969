import AriaLocator.Document.Basic
import AriaLocator.Error
import AriaLocator.Text.Quoted

/-!
# What is generated

A locator can be generated for an element itself or for the nearest element around it that has a
role, and it can be precise, so that it matches as little else as possible, or simple, a single
node.
-/

namespace AriaLocator

/-- Which locator is generated for an element. -/
inductive GeneratorMode where
  /-- A precise one for the element itself. -/
  | precise
  /-- A precise one for the nearest element with a role. -/
  | closestPrecise
  /-- A single node for the element itself. -/
  | simple
  /-- A single node for the nearest element with a role. -/
  | closestSimple
deriving DecidableEq, Repr

namespace GeneratorMode

/-- Every mode. -/
def all : List GeneratorMode := [precise, closestPrecise, simple, closestSimple]

/-- The name of a mode. -/
def name : GeneratorMode → String
  | precise => "precise"
  | closestPrecise => "closest-precise"
  | simple => "simple"
  | closestSimple => "closest-simple"

/-- The mode with a name. -/
def ofName? (s : String) : Option GeneratorMode := all.find? fun mode => mode.name == s

/-- The mode with a name; that there is none is an error. -/
def ofText (s : String) : Except Error GeneratorMode :=
  match ofName? s with
  | some mode => .ok mode
  | none => .error (.value ("Unknown generator mode: " ++ s))

end GeneratorMode

/-- The mark given by its character or its name; that there is none is an error. -/
def QuoteMark.ofText (s : String) : Except Error QuoteMark :=
  match QuoteMark.ofText? s with
  | some mark => .ok mark
  | none => .error (.value ("Invalid quote character: " ++ s ++ ". Expected ' or \""))

/-- What generated locators are relative to. -/
inductive RootChoice where
  /-- The `body`, or the document element where there is none. -/
  | standard
  /-- An element. -/
  | element (e : Element)
  /-- The document itself, which is no element. -/
  | document
deriving DecidableEq, Repr

/-- How locators are generated. -/
structure GeneratorOptions where
  /-- What they are relative to. -/
  root : RootChoice := .standard
  /-- The quotes around names, if they are prescribed. -/
  mark : Option QuoteMark := none
deriving DecidableEq, Repr

end AriaLocator
