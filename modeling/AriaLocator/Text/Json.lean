import AriaLocator.Text.Digits

/-!
# JSON values

Reports and failure messages hold JSON, and locators can be read from it. A value is kept as it is
written: the members of an object in their order, a number as its digits.

There are two written forms. The compact one has no blanks; the indented one puts every element and
member on a line of its own, two spaces further in than its container. Both escape the quote, the
backslash and the control characters and nothing else.
-/

namespace AriaLocator

/-- A JSON value. -/
inductive Json where
  | null
  | bool (value : Bool)
  /-- A number, as it is written. -/
  | number (written : String)
  | string (value : String)
  | array (elements : List Json)
  /-- The members in order. -/
  | object (members : List (String × Json))
deriving Inhabited

namespace Json

/-- A natural number. -/
def natural (n : Nat) : Json := number (toString n)

/-- A list of texts. -/
def strings (values : List String) : Json := array (values.map string)

/-- A text or nothing. -/
def ofString? (value : Option String) : Json := (value.map string).getD null

/-- The value of a member of an object. -/
def member? (members : List (String × Json)) (key : String) : Option Json := members.lookup key

/-! ## Texts -/

/-- How a character is written inside quotes. -/
def escapeJsonChar (c : Char) : List Char :=
  if c = '"' then ['\\', '"']
  else if c = '\\' then ['\\', '\\']
  else if c = '\x08' then ['\\', 'b']
  else if c = '\x0c' then ['\\', 'f']
  else if c = '\n' then ['\\', 'n']
  else if c = '\r' then ['\\', 'r']
  else if c = '\t' then ['\\', 't']
  else if c.toNat < 0x20 then
    ['\\', 'u', '0', '0', Text.hexDigit (c.toNat / 16), Text.hexDigit (c.toNat % 16)]
  else [c]

/-- How a text is written inside quotes. -/
def escapeJson (cs : List Char) : List Char := cs.flatMap escapeJsonChar

/-- A text in quotes. -/
def quoted (s : String) : String := "\"" ++ String.ofList (escapeJson s.toList) ++ "\""

/-! ## Compact form -/

mutual

/-- The written form without blanks. -/
def compact : Json → String
  | null => "null"
  | bool value => if value then "true" else "false"
  | number written => written
  | string value => quoted value
  | array elements => "[" ++ ",".intercalate (compactAll elements) ++ "]"
  | object members => "\x7b" ++ ",".intercalate (compactMembers members) ++ "\x7d"

/-- The compact forms of the elements of an array. -/
def compactAll : List Json → List String
  | [] => []
  | value :: rest => value.compact :: compactAll rest

/-- The compact forms of the members of an object. -/
def compactMembers : List (String × Json) → List String
  | [] => []
  | (key, value) :: rest => (quoted key ++ ":" ++ value.compact) :: compactMembers rest

end

/-! ## Indented form -/

/-- The spaces in front of a line. -/
def indentation (level : Nat) : String := String.ofList (List.replicate (2 * level) ' ')

/-- A container over several lines, or on one if it holds nothing. -/
def block (opening closing : String) (level : Nat) (items : List String) : String :=
  if items.isEmpty then opening ++ closing
  else
    opening ++ "\n" ++
      ",\n".intercalate (items.map fun item => indentation (level + 1) ++ item) ++
      "\n" ++ indentation level ++ closing

mutual

/-- The written form with a line for each element and member, inside `level` containers. -/
def indented (level : Nat) : Json → String
  | null => "null"
  | bool value => if value then "true" else "false"
  | number written => written
  | string value => quoted value
  | array elements => block "[" "]" level (indentedAll (level + 1) elements)
  | object members => block "\x7b" "\x7d" level (indentedMembers (level + 1) members)

/-- The indented forms of the elements of an array. -/
def indentedAll (level : Nat) : List Json → List String
  | [] => []
  | value :: rest => value.indented level :: indentedAll level rest

/-- The indented forms of the members of an object. -/
def indentedMembers (level : Nat) : List (String × Json) → List String
  | [] => []
  | (key, value) :: rest =>
    (quoted key ++ ": " ++ value.indented level) :: indentedMembers level rest

end

/-- The written form of a whole report. -/
def pretty (value : Json) : String := value.indented 0

end Json

end AriaLocator
