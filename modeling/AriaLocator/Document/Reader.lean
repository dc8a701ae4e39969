import AriaLocator.Document.Basic
import AriaLocator.Text.Ascii
import AriaLocator.Text.Blank

/-!
# Reading documents from text

The program reads its documents as markup in which elements are nested and closed. A text is cut
into tags, comments and characters between them; the tags are then matched up. Elements that never
have content need no closing tag. A closing tag closes everything that is still open inside its
element, and counts for nothing if its element is not open. What is inside a `template` hangs in a
fragment.

What is not inside an `html` element is put into the `body` of one.
-/

namespace AriaLocator

/-- A piece of markup. -/
inductive MarkupToken where
  | text (content : String)
  | comment (content : String)
  /-- A tag that opens an element; the flag tells whether it closes it as well. -/
  | opening (tag : String) (attributes : Attributes) (isClosed : Bool)
  | closing (tag : String)
deriving DecidableEq, Repr

namespace MarkupToken

/-! ## Characters -/

/-- The characters that have a name. -/
def namedCharacters : List (String × Char) :=
  [("amp", '&'), ("lt", '<'), ("gt", '>'), ("quot", '"'), ("apos", '\''), ("nbsp", '\u00a0')]

/-- The character that a reference between `&` and `;` stands for. -/
def referenced? (name : List Char) : Option Char :=
  match name with
  | '#' :: digits =>
    if digits.isEmpty || !digits.all Char.isDigit then none
    else some (Char.ofNat (digits.foldl (fun n c => n * 10 + (c.toNat - 48)) 0))
  | name => namedCharacters.lookup (String.ofList name)

/-- Puts in the characters that references stand for. -/
def resolve : List Char → List Char
  | [] => []
  | '&' :: rest =>
    match referenced? (rest.takeWhile (· != ';')) with
    | some c => c :: resolve ((rest.dropWhile (· != ';')).drop 1)
    | none => '&' :: resolve rest
  | c :: rest => c :: resolve rest
termination_by cs => cs.length
decreasing_by
  all_goals
    have := (List.dropWhile_sublist (· != ';') (l := rest)).length_le
    simp only [List.length_cons, List.length_drop] at *
    omega

/-! ## Tags -/

/-- The characters that end a name inside a tag. -/
def endsName (c : Char) : Bool := Text.isAsciiBlank c || c == '=' || c == '>' || c == '/'

/-- The value of an attribute behind its equals sign, and what follows. -/
def readValue (cs : List Char) : List Char × List Char :=
  match cs.dropWhile Text.isAsciiBlank with
  | '"' :: rest => (rest.takeWhile (· != '"'), (rest.dropWhile (· != '"')).drop 1)
  | '\'' :: rest => (rest.takeWhile (· != '\''), (rest.dropWhile (· != '\'')).drop 1)
  | rest =>
    let endsValue (c : Char) := Text.isAsciiBlank c || c == '>'
    (rest.takeWhile (!endsValue ·), rest.dropWhile (!endsValue ·))

/-- Reads the attributes of a tag up to its end, the first of each name. -/
def readAttributes : Nat → Attributes → List Char → Attributes × Bool × List Char
  | 0, found, cs => (found, false, cs)
  | fuel + 1, found, cs =>
    match cs.dropWhile Text.isAsciiBlank with
    | [] => (found, false, [])
    | '>' :: rest => (found, false, rest)
    | '/' :: '>' :: rest => (found, true, rest)
    | c :: rest =>
      let name := Text.lower (String.ofList (c :: rest.takeWhile (!endsName ·)))
      let rest := rest.dropWhile (!endsName ·)
      let (value, rest) :=
        match rest.dropWhile Text.isAsciiBlank with
        | '=' :: rest => readValue rest
        | _ => ([], rest)
      if c = '/' then readAttributes fuel found rest
      else
        let found :=
          if (found.lookup name).isSome then found
          else found ++ [(name, String.ofList (resolve value))]
        readAttributes fuel found rest

/-- The text up to the end of a comment, and what follows. -/
def readComment : List Char → List Char × List Char
  | '-' :: '-' :: '>' :: rest => ([], rest)
  | [] => ([], [])
  | c :: rest =>
    let (content, rest) := readComment rest
    (c :: content, rest)

/-- Cuts markup into pieces. -/
def pieces : Nat → List Char → List MarkupToken
  | 0, _ => []
  | _ + 1, [] => []
  | fuel + 1, '<' :: '!' :: '-' :: '-' :: rest =>
    let (content, rest) := readComment rest
    comment (String.ofList content) :: pieces fuel rest
  | fuel + 1, '<' :: '!' :: rest => pieces fuel ((rest.dropWhile (· != '>')).drop 1)
  | fuel + 1, '<' :: '/' :: rest =>
    closing (Text.lower (String.ofList (rest.takeWhile (!endsName ·)))) ::
      pieces fuel ((rest.dropWhile (· != '>')).drop 1)
  | fuel + 1, '<' :: c :: rest =>
    if c.isAlpha then
      let tag := Text.lower (String.ofList (c :: rest.takeWhile (!endsName ·)))
      let (attributes, isClosed, rest) :=
        readAttributes rest.length [] (rest.dropWhile (!endsName ·))
      opening tag attributes isClosed :: pieces fuel rest
    else text "<" :: pieces fuel (c :: rest)
  | fuel + 1, c :: rest =>
    text (String.ofList (resolve (c :: rest.takeWhile (· != '<')))) ::
      pieces fuel (rest.dropWhile (· != '<'))

end MarkupToken

/-! ## Nesting -/

/-- The elements that never have content. -/
def voidTags : List String :=
  ["area", "base", "br", "col", "embed", "hr", "img", "input", "link", "meta", "source", "track",
    "wbr"]

/-- Nodes under construction, the last one first: those at the top, or inside an open element. -/
structure OpenElement where
  tag : String
  attributes : Attributes
  /-- What stands before the element, the last node first. -/
  before : List Markup

/-- An element that has been closed, with what has been read inside it. -/
def Markup.closed (tag : String) (attributes : Attributes) (inside : List Markup) : Markup :=
  if tag = "template" then .template attributes inside else .element tag attributes inside

/-- Closes open elements up to the innermost one with a tag. -/
def closeTo (tag : String) : List OpenElement → List Markup → List OpenElement × List Markup
  | [], inside => ([], inside)
  | o :: rest, inside =>
    let inside' := Markup.closed o.tag o.attributes inside.reverse :: o.before
    if o.tag = tag then (rest, inside') else closeTo tag rest inside'

/-- Closes all open elements. -/
def closeAll : List OpenElement → List Markup → List Markup
  | [], inside => inside.reverse
  | o :: rest, inside => closeAll rest (Markup.closed o.tag o.attributes inside.reverse :: o.before)

/-- Matches up the tags among pieces of markup. -/
def nest : List OpenElement → List Markup → List MarkupToken → List Markup
  | stack, inside, [] => closeAll stack inside
  | stack, inside, .text content :: rest => nest stack (.text content :: inside) rest
  | stack, inside, .comment content :: rest => nest stack (.comment content :: inside) rest
  | stack, inside, .opening tag attributes isClosed :: rest =>
    if isClosed || voidTags.contains tag then
      nest stack (Markup.closed tag attributes [] :: inside) rest
    else nest (⟨tag, attributes, inside⟩ :: stack) [] rest
  | stack, inside, .closing tag :: rest =>
    if stack.any fun o => o.tag == tag then
      let (stack, inside) := closeTo tag stack inside
      nest stack inside rest
    else nest stack inside rest

/-- The nodes that a text holds. -/
def Markup.ofText (s : String) : List Markup :=
  nest [] [] (MarkupToken.pieces (s.toList.length + 1) s.toList)

/-- The document that some nodes make: their `html` element, or one with the nodes in its `body`. -/
def Document.ofMarkup (nodes : List Markup) : Document :=
  let found := nodes.findSome? fun node =>
    match node with
    | .element "html" attributes children => some (Document.ofElement "html" attributes children)
    | _ => none
  found.getD (Document.ofElement "html" [] [.element "head" [] [], .element "body" [] nodes])

/-- The document that a text holds. -/
def Document.ofText (s : String) : Document := Document.ofMarkup (Markup.ofText s)

end AriaLocator
