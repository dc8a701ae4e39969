import AriaLocator.Css.Selector
import AriaLocator.Text.Ascii

/-!
# Reading CSS selectors

A selector is first cut into tokens: identifiers, hashes, strings, blanks and single signs, with
escapes resolved and comments dropped. The grammar of selectors is then read off the tokens. Blocks
and strings that are still open at the end of the text count as closed there. The names of tags and
attributes are put into small letters.

Whatever the grammar does not know is refused as a whole: `Selector.parse?` gives no result.
-/

namespace AriaLocator.Css

/-- A token of a selector. -/
inductive Token where
  /-- A name. -/
  | ident (name : String)
  /-- `#` with a name. -/
  | hash (name : String)
  /-- A quoted text. -/
  | quoted (value : String)
  /-- A name with an opening parenthesis right behind it. -/
  | function (name : String)
  /-- A comparison other than `=`. -/
  | comparison (operator : Operator)
  /-- One or more blanks. -/
  | blank
  /-- Any other character that selectors use. -/
  | sign (c : Char)
  /-- Something that no selector holds. -/
  | foreign
deriving DecidableEq, Repr

/-! ## Characters -/

/-- The blanks of CSS. -/
def isCssBlank (c : Char) : Bool := c == ' ' || c == '\t' || c == '\n' || c == '\r' || c == '\x0c'

/-- The characters that end a line. -/
def isLineEnd (c : Char) : Bool := c == '\n' || c == '\r' || c == '\x0c'

/-- The characters that can start a name. -/
def isNameStart (c : Char) : Bool := c.isAlpha || c == '_' || c == '\x00' || 0x80 ≤ c.toNat

/-- The characters that can go on with a name. -/
def isNameChar (c : Char) : Bool := isNameStart c || c.isDigit || c == '-'

/-- Whether a backslash before this text starts an escape: no line ends here. -/
def isEscaped : List Char → Bool
  | [] => true
  | c :: _ => !isLineEnd c

/-- Whether a text starts with a name. -/
def startsName : List Char → Bool
  | '-' :: '-' :: _ => true
  | '-' :: '\\' :: rest => isEscaped rest
  | '-' :: c :: _ => isNameStart c
  | '\\' :: rest => isEscaped rest
  | c :: _ => isNameStart c
  | [] => false

/-- Whether a text starts with a number, after an optional sign. -/
def startsNumber : List Char → Bool
  | '+' :: '.' :: c :: _ => c.isDigit
  | '-' :: '.' :: c :: _ => c.isDigit
  | '+' :: c :: _ => c.isDigit
  | '-' :: c :: _ => c.isDigit
  | '.' :: c :: _ => c.isDigit
  | c :: _ => c.isDigit
  | [] => false

/-- The value of a hexadecimal digit. -/
def hexValue (c : Char) : Nat :=
  if c.isDigit then c.toNat - 48 else if c.isLower then c.toNat - 87 else c.toNat - 55

/-- Whether a character is a hexadecimal digit. -/
def isHexDigit (c : Char) : Bool :=
  c.isDigit || ('a' ≤ c && c ≤ 'f') || ('A' ≤ c && c ≤ 'F')

/-- The character with a code, or the replacement character if there is none. -/
def charOfCode (code : Nat) : Char :=
  if code ≠ 0 ∧ code.isValidChar then Char.ofNat code else '\ufffd'

/-- Drops the one blank that may end a hexadecimal escape. -/
def dropOneBlank : List Char → List Char
  | '\r' :: '\n' :: rest => rest
  | c :: rest => if isCssBlank c then rest else c :: rest
  | [] => []

/-- The replacement character stands for NUL. -/
def replaceNul (c : Char) : Char := if c = '\x00' then '\ufffd' else c

/-- Reads what follows a backslash: up to six hexadecimal digits, or any character. -/
def readEscape (cs : List Char) : Char × List Char :=
  let digits := (cs.take 6).takeWhile isHexDigit
  match digits, cs with
  | [], [] => ('\ufffd', [])
  | [], c :: rest => (replaceNul c, rest)
  | _, _ =>
    (charOfCode (digits.foldl (fun code c => code * 16 + hexValue c) 0),
      dropOneBlank (cs.drop digits.length))

/-- Reads the longest name at the start of a text. -/
def readName : Nat → List Char → List Char × List Char
  | 0, cs => ([], cs)
  | _ + 1, [] => ([], [])
  | fuel + 1, '\\' :: rest =>
    if isEscaped rest then
      let (c, rest) := readEscape rest
      let (name, rest) := readName fuel rest
      (c :: name, rest)
    else ([], '\\' :: rest)
  | fuel + 1, c :: rest =>
    if isNameChar c then
      let (name, rest) := readName fuel rest
      (replaceNul c :: name, rest)
    else ([], c :: rest)

/-- Reads a string up to its quote or the end of the text; a bare line end spoils it. -/
def readString? (quote : Char) : Nat → List Char → Option (List Char × List Char)
  | 0, _ => none
  | _ + 1, [] => some ([], [])
  | _ + 1, ['\\'] => some ([], [])
  | fuel + 1, '\\' :: '\r' :: '\n' :: rest => readString? quote fuel rest
  | fuel + 1, '\\' :: c :: rest =>
    if isLineEnd c then readString? quote fuel rest
    else
      let (c, rest) := readEscape (c :: rest)
      (readString? quote fuel rest).map fun (value, rest) => (c :: value, rest)
  | fuel + 1, c :: rest =>
    if c = quote then some ([], rest)
    else if isLineEnd c then none
    else (readString? quote fuel rest).map fun (value, rest) => (replaceNul c :: value, rest)

/-- Drops a comment whose opening sign has been read. -/
def dropComment : List Char → List Char
  | '*' :: '/' :: rest => rest
  | _ :: rest => dropComment rest
  | [] => []

/-! ## Tokens -/

/-- The comparison that a sign forms with an equals sign behind it. -/
def comparison? : Char → Option Operator
  | '~' => some .includes
  | '|' => some .dash
  | '^' => some .starts
  | '$' => some .ends
  | '*' => some .substring
  | _ => none

/-- The signs that selectors use alone. -/
def isSign (c : Char) : Bool := ['>', '+', '~', '*', '.', ':', ',', '[', ']', '=', ')'].contains c

/-- Reads a token that begins with the character `c`, which starts neither a comment, nor a blank,
nor a string. -/
def readToken (c : Char) (rest : List Char) : Token × List Char :=
  let cs := c :: rest
  if startsNumber cs || ['-', '-', '>'].isPrefixOf cs then (.foreign, rest)
  else if startsName cs then
    let (name, rest) := readName cs.length cs
    match rest with
    | '(' :: rest => (.function (String.ofList name), rest)
    | _ => (.ident (String.ofList name), rest)
  else if c = '#' ∧ startsName rest = true then
    let (name, rest) := readName rest.length rest
    (.hash (String.ofList name), rest)
  else
    match comparison? c, rest with
    | some operator, '=' :: rest => (.comparison operator, rest)
    | _, _ => if isSign c then (.sign c, rest) else (.foreign, rest)

/-- Cuts a text into tokens. -/
def tokens : Nat → List Char → List Token
  | 0, _ => []
  | _ + 1, [] => []
  | fuel + 1, '/' :: '*' :: rest => tokens fuel (dropComment rest)
  | fuel + 1, c :: rest =>
    if isCssBlank c then .blank :: tokens fuel (rest.dropWhile isCssBlank)
    else if c = '"' ∨ c = '\'' then
      match readString? c (rest.length + 1) rest with
      | some (value, rest) => .quoted (String.ofList value) :: tokens fuel rest
      | none => [.foreign]
    else
      let (token, rest) := readToken c rest
      token :: tokens fuel rest

/-! ## Grammar -/

/-- Drops blanks from the front. -/
def skipBlanks : List Token → List Token
  | .blank :: rest => skipBlanks rest
  | ts => ts

/-- The end of a block: its closing sign, or the end of the text. -/
def closeBlock? (closing : Char) (ts : List Token) : Option (List Token) :=
  match skipBlanks ts with
  | [] => some []
  | .sign c :: rest => if c = closing then some rest else none
  | _ => none

/-- The value of an attribute test, and the end of its bracket. -/
def readValue? (name : String) (operator : Operator) (ts : List Token) :
    Option (Simple × List Token) :=
  match skipBlanks ts with
  | .ident value :: rest | .quoted value :: rest =>
    (closeBlock? ']' rest).map fun rest => (.hasValue (Text.lower name) operator value, rest)
  | _ => none

/-- An attribute test whose opening bracket has been read. -/
def readAttribute? (ts : List Token) : Option (Simple × List Token) :=
  match skipBlanks ts with
  | .ident name :: rest =>
    match skipBlanks rest with
    | .sign '=' :: rest => readValue? name .equals rest
    | .comparison operator :: rest => readValue? name operator rest
    | rest => (closeBlock? ']' rest).map fun rest => (.hasAttribute (Text.lower name), rest)
  | _ => none

/-- The tag test at the start of a compound, if there is one. -/
def readTag : List Token → List Simple × List Token
  | .ident name :: rest => ([.type (Text.lower name)], rest)
  | .sign '*' :: rest => ([.universal], rest)
  | ts => ([], ts)

mutual

/-- Reads a compound: an optional tag test and further tests; blanks before it are dropped. -/
def readCompound? : Nat → List Token → Option (Compound × List Token)
  | 0, _ => none
  | fuel + 1, ts =>
    let (tag, rest) := readTag (skipBlanks ts)
    (readTests? fuel rest).bind fun (tests, rest) =>
      if tag ++ tests = [] then none else some (tag ++ tests, rest)

/-- Reads the tests of a compound that follow its tag test. -/
def readTests? : Nat → List Token → Option (List Simple × List Token)
  | 0, _ => none
  | fuel + 1, ts =>
    match ts with
    | .hash name :: rest => andTests? fuel (.id name) rest
    | .sign '.' :: .ident name :: rest => andTests? fuel (.hasClass name) rest
    | .sign '.' :: _ => none
    | .sign '[' :: rest =>
      (readAttribute? rest).bind fun (test, rest) => andTests? fuel test rest
    | .sign ':' :: .function name :: rest =>
      if name.toList.map Char.toLower = ['n', 'o', 't'] then
        (readCompound? fuel rest).bind fun (inner, rest) =>
          (closeBlock? ')' rest).bind fun rest => andTests? fuel (.not inner) rest
      else none
    | .sign ':' :: _ => none
    | _ => some ([], ts)

/-- Goes on reading tests behind one that has been read. -/
def andTests? : Nat → Simple → List Token → Option (List Simple × List Token)
  | 0, _, _ => none
  | fuel + 1, test, ts =>
    (readTests? fuel ts).map fun (tests, rest) => (test :: tests, rest)

end

/-- The combinator that a sign stands for. -/
def combinator? : Char → Option Combinator
  | '>' => some .child
  | '+' => some .next
  | '~' => some .later
  | _ => none

/-- Reads the rest of a list whose current member begins with `left`. -/
def readMembers? : Nat → Chain → List Token → Option (List Chain)
  | 0, _, _ => none
  | fuel + 1, left, ts =>
    match skipBlanks ts with
    | [] => some [left]
    | .sign c :: rest =>
      if c = ',' then
        (readCompound? fuel rest).bind fun (first, rest) =>
          (readMembers? fuel (.only first) rest).map (left :: ·)
      else
        match combinator? c, ts with
        | some relation, _ =>
          (readCompound? fuel rest).bind fun (next, rest) =>
            readMembers? fuel (.combined left relation next) rest
        | none, .blank :: _ =>
          (readCompound? fuel ts).bind fun (next, rest) =>
            readMembers? fuel (.combined left .descendant next) rest
        | none, _ => none
    | _ =>
      match ts with
      | .blank :: _ =>
        (readCompound? fuel ts).bind fun (next, rest) =>
          readMembers? fuel (.combined left .descendant next) rest
      | _ => none

/-- Reads a selector list. -/
def Selector.parse? (s : String) : Option Selector :=
  let cs := s.toList
  let ts := tokens (cs.length + 1) cs
  let fuel := 3 * ts.length + 3
  (readCompound? fuel ts).bind fun (first, rest) =>
    (readMembers? fuel (.only first) rest).map Selector.mk

end AriaLocator.Css
