import AriaLocator.Attribute.Value
import AriaLocator.Lookup.Result
import AriaLocator.Name.Pattern

/-!
# Resolving a locator

A node is looked for below each base in turn: the elements with its role, of these the ones that
meet its constraints, of these the ones with its name. A base inside another base adds nothing, so
only the outermost bases are searched, and the results come out in document order by themselves, as long
as no fragment hangs between the bases.
What a node finds are the bases of the next one.

Where the chain has an `outer`, each base in front of it is searched on its own, and of its results
only the outermost count.

A search needs accessible names, and where they come from is left open: `nameOf` may work a name out
or look it up, in any monad.
-/

namespace AriaLocator

namespace Document

/-- Keeps the elements that meet each constraint in turn, those in `met` having been met. -/
def narrow (d : Document) (role : Role) (met : List Constraint) :
    List Constraint → List Element → LookupResult
  | [], elements => .found elements
  | c :: rest, elements =>
    match elements.filter fun e => d.meets e c with
    | [] => .missed ⟨[], some ⟨role, met⟩, elements, .constraint c⟩
    | next => d.narrow role (met ++ [c]) rest next

variable {m : Type → Type} [Monad m]

/-- Keeps the elements whose names fit a pattern. -/
def filterNamed (nameOf : Element → m String) (pattern : String) :
    List Element → ExceptT Error m (List Element)
  | [] => pure []
  | e :: rest => do
    let actual ← nameOf e
    let fits ← nameMatches pattern actual
    let more ← filterNamed nameOf pattern rest
    pure (if fits then e :: more else more)

/-- Looks for a node below the bases, which are in document order. -/
def findNode (d : Document) (nameOf : Element → m String) (options : SearchOptions) (n : Node)
    (bases : List Element) : ExceptT Error m LookupResult := do
  let bases := d.outermost bases
  match bases.flatMap fun base => d.findByRole n.role base options with
  | [] => pure (.missed ⟨[], none, bases, .role n.role⟩)
  | elements =>
    match d.narrow n.role [] n.constraints elements with
    | .missed miss => pure (.missed miss)
    | .found elements =>
      match n.filledName? with
      | none => pure (.found elements)
      | some name =>
        match ← filterNamed nameOf name elements with
        | [] => pure (.missed ⟨[], some ⟨n.role, n.constraints⟩, elements, .name name⟩)
        | named => pure (.found named)

/-- Looks for a chain of nodes below the bases, behind the nodes `passed`. -/
def findChain (d : Document) (nameOf : Element → m String) (options : SearchOptions)
    (passed : List Node) : List Node → List Element → ExceptT Error m LookupResult
  | [], bases => pure (.found bases)
  | n :: rest, bases => do
    match ← d.findNode nameOf options n bases with
    | .found elements => d.findChain nameOf options (passed ++ [n]) rest elements
    | .missed miss => pure (.missed { miss with closestFind := passed })

/-- Puts together what the part of a locator after `outer` comes to below each base. -/
def joinBranches (d : Document) (preOuter : List Node) (results : List LookupResult) :
    LookupResult :=
  match results.flatMap fun result => d.outermost result.elements with
  | [] =>
    match Miss.mostSpecific? d (results.filterMap LookupResult.miss?) with
    | none => .found []
    | some miss => .missed { miss with closestFind := preOuter ++ miss.closestFind }
  | found => .found (d.sorted found)

/-- Looks for what a locator describes below `root`, which itself never matches. -/
def resolve (d : Document) (nameOf : Element → m String) (l : Locator) (root : Element)
    (options : SearchOptions) : ExceptT Error m LookupResult := do
  match ← d.findChain nameOf options [] l.preOuter [root] with
  | .missed miss => pure (.missed miss)
  | .found bases =>
    if l.postOuter.isEmpty then pure (.found bases)
    else do
      let results ← bases.mapM fun base => d.findChain nameOf options [] l.postOuter [base]
      pure (d.joinBranches l.preOuter results)

end Document

end AriaLocator
