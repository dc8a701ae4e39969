/-!
# Errors

What can go wrong when a locator is read, resolved or generated. Every error has a kind, the kind
has a name, and the extended message of an error puts that name in front of its message, so that
text alone can carry an error. Reading an extended message back splits it at the first `": "`.

## Main results

* `ErrorKind.ofName?_name`: the kinds have different names.
-/

namespace AriaLocator

/-- The kinds of errors. -/
inductive ErrorKind where
  | invalidLocator
  | noSuchElement
  | value
  | batchInProgress
  | html
deriving DecidableEq, Repr

namespace ErrorKind

/-- Every kind. -/
def all : List ErrorKind := [invalidLocator, noSuchElement, value, batchInProgress, html]

/-- The name of a kind in an extended message. -/
def name : ErrorKind → String
  | invalidLocator => "InvalidLocatorError"
  | noSuchElement => "NoSuchElementError"
  | value => "ValueError"
  | batchInProgress => "BatchInProgressError"
  | html => "HtmlError"

/-- The kind with a name. -/
def ofName? (s : String) : Option ErrorKind := all.find? fun kind => kind.name == s

theorem ofName?_name (kind : ErrorKind) : ofName? kind.name = some kind := by
  cases kind <;> decide

end ErrorKind

/-- An error. -/
inductive Error where
  /-- The text of a locator is malformed, or asks for something that cannot be. -/
  | invalidLocator (message : String)
  /-- Nothing matches the locator. -/
  | noSuchElement (message : String)
  /-- An argument is misused. -/
  | value (message : String)
  /-- A batch is begun while another one is running. -/
  | batchInProgress
  /-- A document or a selector cannot be read. -/
  | html (message : String)
deriving DecidableEq, Repr

namespace Error

/-- The kind of an error. -/
def kind : Error → ErrorKind
  | invalidLocator _ => .invalidLocator
  | noSuchElement _ => .noSuchElement
  | value _ => .value
  | batchInProgress => .batchInProgress
  | html _ => .html

/-- The error of a kind with a message; one kind has a message of its own. -/
def ofKind (kind : ErrorKind) (message : String) : Error :=
  match kind with
  | .invalidLocator => invalidLocator message
  | .noSuchElement => noSuchElement message
  | .value => value message
  | .batchInProgress => batchInProgress
  | .html => html message

/-- What an error says. -/
def message : Error → String
  | invalidLocator message => message
  | noSuchElement message => message
  | value message => message
  | batchInProgress => "Already in a batch operation"
  | html message => message

/-- The message with the name of the kind in front. -/
def extendedMessage (e : Error) : String := e.kind.name ++ ": " ++ e.message

/-- Splits a text at the first colon with a space behind it. -/
def splitAtColon? : List Char → Option (List Char × List Char)
  | ':' :: ' ' :: rest => some ([], rest)
  | [] => none
  | c :: cs => (splitAtColon? cs).map fun (left, right) => (c :: left, right)

/-- Reads an extended message. -/
def ofExtendedMessage? (s : String) : Option Error :=
  (splitAtColon? s.toList).bind fun (name, message) =>
    (ErrorKind.ofName? (String.ofList name)).map fun kind => ofKind kind (String.ofList message)

theorem kind_ofKind (kind : ErrorKind) (message : String) : (ofKind kind message).kind = kind := by
  cases kind <;> rfl

end Error

end AriaLocator
