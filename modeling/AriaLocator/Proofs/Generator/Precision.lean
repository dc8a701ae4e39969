import AriaLocator.Proofs.Generator.Relocation
import AriaLocator.Proofs.Lookup.FirstMatch

/-!
# Precise locators against single nodes

Whatever the generator does to a chain of nodes, the node of its target stays last.  So all that a
precise locator matches, that node matches alone, and the locator never widens what the node
finds.  It is counts of matches that the generator compares, but no count enters here: the chain
only ever has fewer nodes in front of its last one, or more.

Nor does the locator lose the element, if the node alone finds it.  An element that is found is
locatable, and locatable elements are found again.

## Main results

* `preciseLocator?_getLast?`: the node of the target stays last.
* `precise_within_simple`: a precise locator finds its element and nothing beyond its single node.
-/

namespace AriaLocator

namespace Document

variable {d : Document} {root : Element}

/-! ## The last node -/

/-- The ascent puts nodes in front only. -/
theorem ascend_getLast? {r : Resolver Id} {nodes result : List Node} {found ahead : List Element}
    {n : Node} (hLast : nodes.getLast? = some n)
    (h : (d.ascend r root nodes found ahead).run = .ok result) : result.getLast? = some n := by
  obtain ⟨-, hResult⟩ := ascend_invariant (fun _ nodes => nodes.getLast? = some n)
    (fun hNodes => hNodes)
    (fun hNodes _ _ => by rw [List.getLast?_cons, hNodes]; rfl)
    hLast h
  exact hResult

theorem fullChain_getLast? {r : Resolver Id} {target : Located} {nodes : List Node}
    (h : (d.fullChain r root target).run = .ok nodes) : nodes.getLast? = some target.node := by
  obtain ⟨found, -, hAscend⟩ := exists_of_run_bind h
  exact ascend_getLast? rfl hAscend

theorem dropRedundant_getLast? {r : Resolver Id} {pinFirst : Bool} {nodes required : List Node}
    {n : Node} (hLast : nodes.getLast? = some n)
    (h : (dropRedundant r root pinFirst nodes).run = .ok required) :
    required.getLast? = some n := by
  refine dropRedundant_invariant (fun nodes => nodes.getLast? = some n) (fun hNodes => ?_) hLast h
  rw [List.getLast?_append, List.getLast?_cons_cons] at hNodes
  rw [List.getLast?_append]
  exact hNodes

/-- The node of the target stays last. -/
theorem preciseLocator?_getLast? {r : Resolver Id} {e : Element} {onlyItself : Bool} {l : Locator}
    (h : (d.preciseLocator? r root e onlyItself).run = .ok (some l)) :
    ∃ target, d.target? r root e = some target ∧ (onlyItself = true → target.element = e) ∧
      l.nodes.getLast? = some target.node := by
  obtain ⟨target, nodes, required, hTarget, hItself, hNodes, hRequired, hLocator⟩ :=
    preciseLocator?_eq_some_iff.mp h
  have hLast := dropRedundant_getLast? (fullChain_getLast? hNodes) hRequired
  have hParts : l.nodes = required := by
    obtain ⟨plain, outer, -, -, ⟨rfl, -, -⟩ | ⟨rfl, -⟩⟩ := addOuter_cases hLocator
    · rfl
    · exact List.append_nil required
  exact ⟨target, hTarget, hItself, hParts ▸ hLast⟩

/-! ## Single nodes -/

theorem simpleLocator?_eq (d : Document) (e : Element) (mark : Option QuoteMark) :
    d.simpleLocator? e mark =
      (d.nodeOf? d.plainResolver e : Option Node).map (·.text mark) := by
  unfold simpleLocator? nodeOf?
  cases d.isHidden e with
  | true => rfl
  | false =>
      cases d.role? e with
      | none => rfl
      | some role => rfl

/-- A node alone is a locator, and its text reads as that. -/
theorem parse_node_text {n : Node} (hBuilt : n.Built) (mark : Option QuoteMark) :
    Locator.parse (n.text mark) = .ok ⟨[n], []⟩ := by
  have hAccepted : (⟨[n], []⟩ : Locator).Accepted := by
    refine ⟨Locator.make_eq_ok_iff.mpr ⟨rfl, List.cons_ne_nil n [], ?_⟩, ?_⟩
    · exact fun n' hn' => absurd hn' List.not_mem_nil
    · exact fun n' hn' => List.mem_singleton.mp hn' ▸ hBuilt
  exact Locator.parse_text hAccepted mark

/-- What is found for a text is what the generator counts as its matches. -/
theorem exists_of_findElements {text : String} {l : Locator} {es : List Element}
    (hRead : Locator.parse text = .ok l) (h : d.findElements text root = .ok es) :
    ∃ result, d.resolved l root {} = .ok result ∧ result.elements = es := by
  rw [findElements_of_parse hRead] at h
  cases hResult : d.resolved l root {} with
  | error error =>
      rw [hResult] at h
      cases h
  | ok result =>
      rw [hResult] at h
      exact ⟨result, rfl, Except.ok.inj h⟩

/-- If the single node of an element finds it, a precise locator finds it as well, and finds nothing
that the single node does not find. -/
theorem precise_within_simple (d : Document) (e root : Element) (options : GeneratorOptions)
    (mark : Option QuoteMark) (text simple : String) (es : List Element)
    (hRoot : d.chosenRoot e options.root = .ok root)
    (hText : d.generate e .precise options = .ok (some text))
    (hSimple : d.simpleLocator? e mark = some simple)
    (hFinds : d.findElements simple root = .ok es) (he : e ∈ es) :
    ∃ found, d.findElements text root = .ok found ∧ e ∈ found ∧ found ⊆ es := by
  obtain ⟨l, hLocator, rfl⟩ := (generate_eq_some_iff (Or.inl rfl) hRoot).mp hText
  obtain ⟨target, hTarget, hItself, hLast⟩ := preciseLocator?_getLast? hLocator
  obtain ⟨hInside, hNode⟩ := (targets_of_target? hTarget).located
  rw [hItself rfl] at hInside hNode
  -- the single node is the last node of the precise locator
  rw [simpleLocator?_eq, hNode] at hSimple
  obtain rfl : target.node.text mark = simple := Option.some.inj hSimple
  obtain ⟨result, hResult, rfl⟩ :=
    exists_of_findElements (parse_node_text (nodeOf?_built hNode) mark) hFinds
  have hLocatable : d.IsLocatable e := by
    have hSome : (⟨[target.node], []⟩ : Locator).nodes ≠ [] := List.cons_ne_nil target.node []
    cases result with
    | missed miss => exact absurd he List.not_mem_nil
    | found es => exact isLocatable_of_found hSome hResult he
  obtain ⟨hAccepted, found, t, hFound, ht, -, hSame⟩ :=
    preciseLocator?_finds hLocator hInside hLocatable
  have hRead := Locator.parse_text hAccepted options.mark
  refine ⟨found, ?_, hSame rfl ▸ ht, fun x hx => ?_⟩
  · rw [findElements_of_parse hRead, hFound]
    rfl
  · have hChain := chain_of_matchesOf (matchesOf_of_resolved hFound) hx
    obtain ⟨front, hFront⟩ := List.getLast?_eq_some_iff.mp hLast
    rw [hFront] at hChain
    exact (mem_matchesOf_chain (matchesOf_of_resolved hResult)).mpr hChain.of_last

/-- Of two buttons with one name, the one in a list has a locator that leaves out the other. -/
theorem precise_within_simple_in_list :
    let button := Markup.element "button" [("aria-label", "OK")] []
    let list := Markup.element "ul" [] [.element "li" [] [button]]
    let d := Document.ofElement "body" [] [button, list]
    let text := "\x7blistitem\x7d \x7bbutton 'OK'\x7d"
    d.chosenRoot 4 .standard = .ok 0 ∧ d.generate 4 .precise {} = .ok (some text) ∧
      d.simpleLocator? 4 none = some "\x7bbutton 'OK'\x7d" ∧
      d.findElements "\x7bbutton 'OK'\x7d" 0 = .ok [1, 4] ∧
      ∃ found, d.findElements text 0 = .ok found ∧ 4 ∈ found ∧ found ⊆ [1, 4] := by
  intro button list d text
  have hRoot : d.chosenRoot 4 .standard = .ok 0 := by decide +kernel
  have hText : d.generate 4 .precise {} = .ok (some text) := by
    rw [generate_eq_plain]
    decide +kernel
  have hSimple : d.simpleLocator? 4 none = some "\x7bbutton 'OK'\x7d" := by
    rw [simpleLocator?_eq]
    decide +kernel
  have hFinds : d.findElements "\x7bbutton 'OK'\x7d" 0 = .ok [1, 4] := by
    have hRead : Locator.parse "\x7bbutton 'OK'\x7d" =
        .ok ⟨[(Node.ofRole .button).withName "OK"], []⟩ := by
      decide +kernel
    rw [findElements_of_parse hRead]
    decide +kernel
  refine ⟨hRoot, hText, hSimple, hFinds, ?_⟩
  exact precise_within_simple d 4 0 {} none text _ [1, 4] hRoot hText hSimple hFinds (by decide)

end Document

end AriaLocator
