import AriaLocator.Generator.Options
import AriaLocator.Lookup.Result
import AriaLocator.Role.Resolve

/-!
# Generating locators

A visible element with a role gives a node: its role and its accessible name. A precise locator
starts from that node and walks up. The node of an ancestor is put in front if that leaves fewer
matches, until all matches lie in the ancestor at hand. Then nodes that make no difference are
dropped from the left, and `outer` is put in front of all if it leaves fewer matches.

Elements below one with presentational children cannot be located; the outermost element of that
kind stands in for them.

Names and lookups come from a `Resolver`, in any monad.
-/

namespace AriaLocator

/-- Where accessible names and lookups come from. -/
structure Resolver (m : Type → Type) where
  /-- The accessible name of an element. -/
  nameOf : Element → m String
  /-- The result of a lookup below an element. -/
  find : Locator → Element → ExceptT Error m LookupResult

/-- An element and the node that describes it. -/
structure Located where
  node : Node
  element : Element
deriving DecidableEq, Repr

namespace Document

/-! ## Nodes of elements -/

/-- An element and the elements around it that are strictly inside `root`, nearest first; none if
`root` does not contain the element. -/
def candidates (d : Document) (root e : Element) : List Element :=
  if d.contains root e then (d.lineage e).takeWhile (· != root) else []

variable {m : Type → Type} [Monad m]

/-- The node of an element, if it is visible and has a role. -/
def nodeOf? (d : Document) (r : Resolver m) (e : Element) : m (Option Node) := do
  if d.isHidden e then pure none
  else
    match d.role? e with
    | none => pure none
    | some role => do
      let name ← r.nameOf e
      pure (some ((Node.ofRole role).withName name))

/-- The first of several elements that has a node. -/
def firstLocated? (d : Document) (r : Resolver m) : List Element → m (Option Located)
  | [] => pure none
  | e :: rest => do
    match ← d.nodeOf? r e with
    | some node => pure (some ⟨node, e⟩)
    | none => d.firstLocated? r rest

/-- The nearest element of the lineage strictly inside `root` that has a node. -/
def closestLocated? (d : Document) (r : Resolver m) (root e : Element) : m (Option Located) :=
  d.firstLocated? r (d.candidates root e)

/-- The outermost ancestor strictly inside `root` whose role has presentational children. -/
def outermostPresentational? (d : Document) (root e : Element) : Option Element :=
  (((d.ancestors e).takeWhile (· != root)).filter fun a =>
    (d.role? a).any Role.hasPresentationalChildren).getLast?

/-- The element that a precise locator for `e` is for, with its node. -/
def target? (d : Document) (r : Resolver m) (root e : Element) : m (Option Located) := do
  match ← d.closestLocated? r root e with
  | none => pure none
  | some first =>
    match d.outermostPresentational? root first.element with
    | none => pure (some first)
    | some a =>
      match ← d.closestLocated? r root a with
      | none => pure (some first)
      | some outer => pure (some outer)

/-! ## Narrowing -/

/-- The elements below `root` that a chain of nodes matches. -/
def matchesOf (r : Resolver m) (root : Element) (l : Locator) : ExceptT Error m (List Element) := do
  pure (← r.find l root).elements

/-- Puts the nodes of ancestors in front as long as that narrows the matches. -/
def ascend (d : Document) (r : Resolver m) (root : Element) (nodes : List Node)
    (found : List Element) : List Element → ExceptT Error m (List Node)
  | [] => pure nodes
  | a :: rest => do
    match ← (d.nodeOf? r a : m (Option Node)) with
    | none => d.ascend r root nodes found rest
    | some node =>
      if found.all (d.contains a) then pure nodes
      else
        let narrower ← matchesOf r root ⟨node :: nodes, []⟩
        if narrower.length < found.length then d.ascend r root (node :: nodes) narrower rest
        else d.ascend r root nodes found rest

/-- Goes through the nodes left to right and drops each whose absence leaves no more than `count`
matches; `kept` are the nodes that have stayed. The last node always stays. -/
def dropRedundantAfter (r : Resolver m) (root : Element) (count : Nat) (kept : List Node) :
    List Node → ExceptT Error m (List Node)
  | [] => pure kept
  | [last] => pure (kept ++ [last])
  | n :: next :: rest => do
    let without ← matchesOf r root ⟨kept ++ next :: rest, []⟩
    if count < without.length then
      dropRedundantAfter r root count (kept ++ [n]) (next :: rest)
    else dropRedundantAfter r root count kept (next :: rest)

/-- Drops the nodes that make no difference to the number of matches. With `pinFirst` the first node
stays as well as the last. -/
def dropRedundant (r : Resolver m) (root : Element) (pinFirst : Bool) (nodes : List Node) :
    ExceptT Error m (List Node) := do
  if nodes.length ≤ 1 then pure nodes
  else
    let found ← matchesOf r root ⟨nodes, []⟩
    let pinned := pinFirst.toNat
    dropRedundantAfter r root found.length (nodes.take pinned) (nodes.drop pinned)

/-- Puts `outer` in front of the nodes if that still matches `e` and matches less. -/
def addOuter (r : Resolver m) (root : Element) (nodes : List Node) (e : Element) :
    ExceptT Error m Locator := do
  let without ← matchesOf r root ⟨nodes, []⟩
  let outer ← matchesOf r root ⟨[], nodes⟩
  if outer.contains e ∧ outer.length < without.length then pure ⟨[], nodes⟩
  else pure ⟨nodes, []⟩

/-- The chain of nodes for a target, before it is pruned. -/
def fullChain (d : Document) (r : Resolver m) (root : Element) (target : Located) :
    ExceptT Error m (List Node) := do
  let found ← matchesOf r root ⟨[target.node], []⟩
  d.ascend r root [target.node] found ((d.candidates root target.element).drop 1)

/-! ## The modes -/

/-- The root that is chosen for an element. -/
def chosenRoot (d : Document) (e : Element) : RootChoice → Except Error Element
  | .standard => .ok (d.defaultRootOf e)
  | .document =>
    .error (.value "The root is not an element of the element's document.")
  | .element root =>
    if d.contains root e then .ok root
    else
      .error (.value ("Can't generate locator for element that is not contained within the root " ++
        "element."))

/-- A precise locator for an element, or for the nearest element around it. -/
def preciseLocator? (d : Document) (r : Resolver m) (root e : Element) (onlyItself : Bool) :
    ExceptT Error m (Option Locator) := do
  match ← (d.target? r root e : m (Option Located)) with
  | none => pure none
  | some target =>
    let nodes ← d.fullChain r root target
    if onlyItself && target.element != e then pure none
    else
      let required ← dropRedundant r root false nodes
      pure (some (← addOuter r root required target.element))

/-- The written form of the locator that a mode generates for an element. -/
def generateWith (d : Document) (r : Resolver m) (e : Element) (mode : GeneratorMode)
    (options : GeneratorOptions) : ExceptT Error m (Option String) := do
  match mode with
  | .simple => pure ((← (d.nodeOf? r e : m (Option Node))).map (·.text options.mark))
  | .closestSimple =>
    let root ← d.chosenRoot e options.root
    let located ← (d.closestLocated? r root e : m (Option Located))
    pure (located.map (·.node.text options.mark))
  | .precise =>
    let root ← d.chosenRoot e options.root
    pure ((← d.preciseLocator? r root e true).map (·.text options.mark))
  | .closestPrecise =>
    let root ← d.chosenRoot e options.root
    pure ((← d.preciseLocator? r root e false).map (·.text options.mark))

end Document

end AriaLocator
