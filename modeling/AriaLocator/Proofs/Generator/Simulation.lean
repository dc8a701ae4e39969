import AriaLocator.Generator.Batch
import AriaLocator.Proofs.Generator.Narrowing

/-!
# Generation with notes

A generator asks for names and for lookups, and in a batch it asks the notes.  What it generates is
what it would generate without them.  Two sources of names and lookups agree if they agree on every
name and on every lookup for built nodes; those are the only ones that a generator looks for, as it
builds every node itself.

## Main results

* `generateWith_agrees`: a generator agrees with itself under any two sources that agree.
* `generate_eq_plain`: on its own it generates what it generates without any notes.
-/

namespace AriaLocator

/-- Two sources have the same names and the same lookups for built nodes. -/
structure Resolver.AgreesWith {σ : Type} (inv : σ → Prop) (r : Resolver (StateM σ))
    (plain : Resolver Id) : Prop where
  names : ∀ e, Yields inv (r.nameOf e) (plain.nameOf e)
  lookups : ∀ (l : Locator) (root : Element), (∀ n ∈ l.nodes, n.Built) →
    Agrees inv (r.find l root) (plain.find l root)

namespace Document

section Sources

variable {σ : Type} {inv : σ → Prop} {r : Resolver (StateM σ)} {plain : Resolver Id}
  (hSources : r.AgreesWith inv plain) (d : Document) (root : Element)

include hSources

/-! ## The target -/

theorem nodeOf?_yields (e : Element) : Yields inv (d.nodeOf? r e) (d.nodeOf? plain e) := by
  unfold nodeOf?
  split
  · exact Yields.pure _
  · split
    · exact Yields.pure _
    · exact Yields.bind (hSources.names e) (Yields.pure _)

theorem firstLocated?_yields (es : List Element) :
    Yields inv (d.firstLocated? r es) (d.firstLocated? plain es) := by
  induction es with
  | nil => exact Yields.pure _
  | cons e rest ih =>
      rw [firstLocated?_cons]
      apply Yields.bind (nodeOf?_yields hSources d e)
      cases d.nodeOf? plain e with
      | some node => exact Yields.pure _
      | none => exact ih

theorem closestLocated?_yields (e : Element) :
    Yields inv (d.closestLocated? r root e) (d.closestLocated? plain root e) :=
  firstLocated?_yields hSources d _

theorem target?_yields (e : Element) :
    Yields inv (d.target? r root e) (d.target? plain root e) := by
  rw [target?_eq]
  apply Yields.bind (closestLocated?_yields hSources d root e)
  cases d.closestLocated? plain root e with
  | none => exact Yields.pure _
  | some first =>
      simp only
      cases d.outermostPresentational? root first.element with
      | none => exact Yields.pure _
      | some a =>
          simp only
          apply Yields.bind (closestLocated?_yields hSources d root a)
          cases d.closestLocated? plain root a with
          | none => exact Yields.pure _
          | some outer => exact Yields.pure _

/-! ## Narrowing -/

theorem matchesOf_agrees {l : Locator} (hBuilt : ∀ n ∈ l.nodes, n.Built) :
    Agrees inv (matchesOf r root l) (matchesOf plain root l) :=
  Agrees.bind (hSources.lookups l root hBuilt) fun _ => Agrees.pure _

/-- The same for a chain without `outer`. -/
theorem matchesOf_chain_agrees {nodes : List Node} (hBuilt : ∀ n ∈ nodes, n.Built) :
    Agrees inv (matchesOf r root ⟨nodes, []⟩) (matchesOf plain root ⟨nodes, []⟩) :=
  matchesOf_agrees hSources root fun n hn => hBuilt n (by simpa [Locator.nodes] using hn)

theorem ascend_agrees {nodes : List Node} (hBuilt : ∀ n ∈ nodes, n.Built)
    (found ahead : List Element) :
    Agrees inv (d.ascend r root nodes found ahead) (d.ascend plain root nodes found ahead) := by
  induction ahead generalizing nodes found with
  | nil => exact Agrees.pure _
  | cons a rest ih =>
      apply Agrees.bind_run (Agrees.lift (nodeOf?_yields hSources d a))
      intro node? hNode?
      obtain rfl : d.nodeOf? plain a = node? := Except.ok.inj hNode?
      cases hNode : d.nodeOf? plain a with
      | none => exact ih hBuilt found
      | some node =>
          have hMore : ∀ n ∈ node :: nodes, n.Built :=
            List.forall_mem_cons.mpr ⟨nodeOf?_built hNode, hBuilt⟩
          simp only
          split
          · exact Agrees.pure _
          · apply Agrees.bind (matchesOf_chain_agrees hSources root hMore)
            intro narrower
            split
            · exact ih hMore narrower
            · exact ih hBuilt found

theorem fullChain_agrees {target : Located} (hBuilt : target.node.Built) :
    Agrees inv (d.fullChain r root target) (d.fullChain plain root target) := by
  have hOne : ∀ n ∈ [target.node], n.Built := fun n hn => List.mem_singleton.mp hn ▸ hBuilt
  exact Agrees.bind (matchesOf_chain_agrees hSources root hOne) fun found =>
    ascend_agrees hSources d root hOne found _

omit hSources in
/-- The pruning looks up parts of the chain and nothing else. -/
theorem dropRedundantAfter_agrees (count : Nat) {kept nodes : List Node}
    (hParts : ∀ part, part.Sublist (kept ++ nodes) →
      Agrees inv (matchesOf r root ⟨part, []⟩) (matchesOf plain root ⟨part, []⟩)) :
    Agrees inv (dropRedundantAfter r root count kept nodes)
      (dropRedundantAfter plain root count kept nodes) := by
  induction nodes generalizing kept with
  | nil => exact Agrees.pure _
  | cons n rest ih =>
      cases rest with
      | nil => exact Agrees.pure _
      | cons next rest =>
          have hFewer : (kept ++ next :: rest).Sublist (kept ++ n :: next :: rest) :=
            (List.sublist_cons_self n _).append_left kept
          apply Agrees.bind (hParts _ hFewer)
          intro without
          split
          · refine ih ?_
            rwa [List.append_assoc]
          · exact ih fun part hPart => hParts part (hPart.trans hFewer)

omit hSources in
theorem dropRedundant_agrees (pinFirst : Bool) {nodes : List Node}
    (hParts : ∀ part, part.Sublist nodes →
      Agrees inv (matchesOf r root ⟨part, []⟩) (matchesOf plain root ⟨part, []⟩)) :
    Agrees inv (dropRedundant r root pinFirst nodes) (dropRedundant plain root pinFirst nodes) := by
  unfold dropRedundant
  split
  · exact Agrees.pure _
  · apply Agrees.bind (hParts nodes (List.Sublist.refl nodes))
    intro found
    refine dropRedundantAfter_agrees root _ ?_
    rwa [List.take_append_drop]

theorem addOuter_agrees {nodes : List Node} (hBuilt : ∀ n ∈ nodes, n.Built) (e : Element) :
    Agrees inv (addOuter r root nodes e) (addOuter plain root nodes e) := by
  apply Agrees.bind (matchesOf_chain_agrees hSources root hBuilt)
  intro without
  have hAll : ∀ n ∈ (⟨[], nodes⟩ : Locator).nodes, n.Built := hBuilt
  apply Agrees.bind (matchesOf_agrees hSources root hAll)
  intro outer
  split
  · exact Agrees.pure _
  · exact Agrees.pure _

/-! ## The modes -/

theorem preciseLocator?_agrees (e : Element) (onlyItself : Bool) :
    Agrees inv (d.preciseLocator? r root e onlyItself)
      (d.preciseLocator? plain root e onlyItself) := by
  apply Agrees.bind_run (Agrees.lift (target?_yields hSources d root e))
  intro target? hTarget?
  obtain rfl : d.target? plain root e = target? := Except.ok.inj hTarget?
  cases hTarget : d.target? plain root e with
  | none => exact Agrees.pure _
  | some target =>
      have hBuilt := target?_built hTarget
      apply Agrees.bind_run (fullChain_agrees hSources d root hBuilt)
      intro nodes hNodes
      have hNodesBuilt := fullChain_forall nodeOf?_built hBuilt hNodes
      split
      · exact Agrees.pure _
      · have hParts (part : List Node) (hPart : part.Sublist nodes) :=
          matchesOf_chain_agrees hSources root fun n hn => hNodesBuilt n (hPart.subset hn)
        apply Agrees.bind_run (dropRedundant_agrees root false hParts)
        intro required hRequired
        have hRequiredBuilt := dropRedundant_forall hNodesBuilt hRequired
        exact Agrees.bind (addOuter_agrees hSources root hRequiredBuilt target.element) fun _ =>
          Agrees.pure _

omit hSources in
theorem chosenRoot_agrees (e : Element) (choice : RootChoice) :
    Agrees inv (liftM (d.chosenRoot e choice)) (liftM (d.chosenRoot e choice)) := by
  cases d.chosenRoot e choice with
  | error error => exact Agrees.throw _
  | ok root => exact Agrees.pure _

/-- A generator agrees with itself under any two sources that agree. -/
theorem generateWith_agrees (e : Element) (mode : GeneratorMode) (options : GeneratorOptions) :
    Agrees inv (d.generateWith r e mode options) (d.generateWith plain e mode options) := by
  cases mode with
  | simple =>
      exact Agrees.bind (Agrees.lift (nodeOf?_yields hSources d e)) fun _ => Agrees.pure _
  | closestSimple =>
      apply Agrees.bind (chosenRoot_agrees d e options.root)
      intro root
      exact Agrees.bind (Agrees.lift (closestLocated?_yields hSources d root e)) fun _ =>
        Agrees.pure _
  | precise =>
      apply Agrees.bind (chosenRoot_agrees d e options.root)
      intro root
      exact Agrees.bind (preciseLocator?_agrees hSources d root e true) fun _ => Agrees.pure _
  | closestPrecise =>
      apply Agrees.bind (chosenRoot_agrees d e options.root)
      intro root
      exact Agrees.bind (preciseLocator?_agrees hSources d root e false) fun _ => Agrees.pure _

end Sources

/-! ## Without notes -/

/-- Names that are worked out anew, and searches without notes. -/
def plainResolver (d : Document) : Resolver Id where
  nameOf := d.accessibleName
  find l root := ExceptT.mk (d.resolved l root {})

/-- What is generated without notes. -/
def plainGenerate (d : Document) (e : Element) (mode : GeneratorMode)
    (options : GeneratorOptions) : Except Error (Option String) :=
  (d.generateWith d.plainResolver e mode options).run

end Document

namespace BatchContext

variable {pages : Nat → Document}

theorem resolver_agreesWith (number : Nat) :
    (resolver (pageOf pages number)).AgreesWith (Running pages) (pages number).plainResolver where
  names := accessibleName_yields number
  lookups _ root hBuilt := find_yields number hBuilt root {}

/-- In a running batch a generator comes to what it generates without notes. -/
theorem generate_yields (number : Nat) (e : Element) (mode : GeneratorMode)
    (options : GeneratorOptions) :
    Yields (Running pages) (generate (pageOf pages number) e mode options)
      ((pages number).plainGenerate e mode options) :=
  Document.generateWith_agrees (resolver_agreesWith number) (pages number) e mode options

end BatchContext

namespace Document

/-- On its own a generator comes to what it generates without notes. -/
theorem generate_eq_plain (d : Document) (e : Element) (mode : GeneratorMode)
    (options : GeneratorOptions) :
    d.generate e mode options = d.plainGenerate e mode options := by
  have hYields : Yields (BatchContext.Running fun _ => d)
      (BatchContext.generate d.alone e mode options) (d.plainGenerate e mode options) :=
    BatchContext.generate_yields 0 e mode options
  have hValue := (hYields _ BatchContext.running_start).1
  rw [← hValue]
  unfold generate BatchContext.run
  rfl

end Document

end AriaLocator
