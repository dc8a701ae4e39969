/-!
# CSS selectors

The selectors that the role table and the command line use: type, universal, id, class and
attribute tests, `:not`, the four combinators, and lists. A chain of combinators is kept with its
last compound outermost, since that one describes the element itself and the rest what is around
it.

A selector has one written form, `Selector.text`, in which values are bare where they can be.

## Main results

* `Simple.same_iff`: tests can be compared, and with them whole selectors.
-/

namespace AriaLocator.Css

/-- How an attribute's value is compared. -/
inductive Operator where
  /-- The whole value. -/
  | equals
  /-- One of the words of the value. -/
  | includes
  /-- The whole value, or its part before a hyphen. -/
  | dash
  /-- The start of the value. -/
  | starts
  /-- The end of the value. -/
  | ends
  /-- Any part of the value. -/
  | substring
deriving DecidableEq, Repr

/-- The sign that stands for a comparison. -/
def Operator.sign : Operator → String
  | equals => "="
  | includes => "~="
  | dash => "|="
  | starts => "^="
  | ends => "$="
  | substring => "*="

/-- A test on one element. -/
inductive Simple where
  /-- `*` -/
  | universal
  /-- A tag name, in small letters. -/
  | type (name : String)
  /-- `#name` -/
  | id (name : String)
  /-- `.name` -/
  | hasClass (name : String)
  /-- `[name]`, the name in small letters. -/
  | hasAttribute (name : String)
  /-- `[name=value]` and its variants, the name in small letters. -/
  | hasValue (name : String) (operator : Operator) (value : String)
  /-- `:not(...)`: not all of these tests hold. -/
  | not (tests : List Simple)

/-- Tests that one element has to pass together. -/
abbrev Compound := List Simple

/-- Where an element stands relative to another. -/
inductive Combinator where
  /-- Below it. -/
  | descendant
  /-- Directly below it. -/
  | child
  /-- Right behind it, under one parent. -/
  | next
  /-- Somewhere behind it, under one parent. -/
  | later
deriving DecidableEq, Repr

/-- The text between two compounds. -/
def Combinator.text : Combinator → String
  | descendant => " "
  | child => " > "
  | next => " + "
  | later => " ~ "

/-- Compounds joined by combinators. -/
inductive Chain where
  /-- A compound alone. -/
  | only (subject : Compound)
  /-- A compound for an element that stands in a relation to one matching `left`. -/
  | combined (left : Chain) (relation : Combinator) (subject : Compound)

/-- The compound that describes the element itself. -/
def Chain.subject : Chain → Compound
  | only subject => subject
  | combined _ _ subject => subject

/-- A list of selectors, any of which may match. -/
structure Selector where
  /-- The members of the list. -/
  members : List Chain

/-- The tag name that a compound asks for, if it names one. -/
def Compound.tag? (c : Compound) : Option String :=
  c.findSome? fun test =>
    match test with
    | .type name => some name
    | _ => none

/-- The tag names that the elements matched by a selector can have, where a member names one. -/
def Selector.subjectTags (s : Selector) : List String :=
  s.members.filterMap fun member => Compound.tag? member.subject

/-! ## Comparison -/

mutual

/-- Whether two tests are the same. -/
def Simple.same : Simple → Simple → Bool
  | .universal, .universal => true
  | .type name, .type other => name == other
  | .id name, .id other => name == other
  | .hasClass name, .hasClass other => name == other
  | .hasAttribute name, .hasAttribute other => name == other
  | .hasValue name operator value, .hasValue other sign text =>
    name == other && operator == sign && value == text
  | .not tests, .not others => sameTests tests others
  | _, _ => false

/-- Whether two rows of tests are the same. -/
def sameTests : List Simple → List Simple → Bool
  | [], [] => true
  | test :: rest, other :: others => test.same other && sameTests rest others
  | _, _ => false

end

mutual

theorem Simple.same_iff : ∀ test other : Simple, test.same other = true ↔ test = other
  | .not tests, other => by cases other <;> simp [Simple.same, sameTests_iff tests]
  | .universal, other => by cases other <;> simp [Simple.same]
  | .type name, other => by cases other <;> simp [Simple.same]
  | .id name, other => by cases other <;> simp [Simple.same]
  | .hasClass name, other => by cases other <;> simp [Simple.same]
  | .hasAttribute name, other => by cases other <;> simp [Simple.same]
  | .hasValue name operator value, other => by
    cases other <;> simp [Simple.same, and_assoc]

theorem sameTests_iff : ∀ tests others : List Simple, sameTests tests others = true ↔ tests = others
  | [], others => by cases others <;> simp [sameTests]
  | test :: rest, [] => by simp [sameTests]
  | test :: rest, other :: others => by
    simp [sameTests, Simple.same_iff test other, sameTests_iff rest others]

end

instance : DecidableEq Simple := fun test other =>
  decidable_of_iff (test.same other = true) (test.same_iff other)

deriving instance DecidableEq for Chain, Selector

/-! ## Written form -/

/-- Whether a value can stand without quotes: a letter, then letters, digits and hyphens. -/
def isBareValue : List Char → Bool
  | [] => false
  | c :: cs => c.isAlpha && cs.all fun c => c.isAlphanum || c == '-'

/-- A value of an attribute test, in double quotes if it needs any. -/
def valueText (value : String) : String :=
  if isBareValue value.toList then value else "\"" ++ value ++ "\""

mutual

/-- The written form of a test. -/
def Simple.text : Simple → String
  | .universal => "*"
  | .type name => name
  | .id name => "#" ++ name
  | .hasClass name => "." ++ name
  | .hasAttribute name => "[" ++ name ++ "]"
  | .hasValue name operator value => "[" ++ name ++ operator.sign ++ valueText value ++ "]"
  | .not tests => ":not(" ++ testsText tests ++ ")"

/-- The written form of tests in a row. -/
def testsText : List Simple → String
  | [] => ""
  | test :: rest => test.text ++ testsText rest

end

/-- The written form of a chain. -/
def Chain.text : Chain → String
  | only subject => testsText subject
  | combined left relation subject => left.text ++ relation.text ++ testsText subject

/-- The written form of a list. -/
def Selector.text (s : Selector) : String := ", ".intercalate (s.members.map Chain.text)

end AriaLocator.Css
