import AriaLocator.Lookup.Batch
import AriaLocator.Proofs.Locator.RoundTrip

/-!
# Work with notes

A lookup asks for accessible names, and in a batch it asks the notes that the batch keeps.  What
comes of it is what comes of the same lookup without any notes, as long as the notes are right.

To say so once for every step of a lookup, `Yields` relates work that reads and writes a state to
the value that it comes to from any state with an invariant, and `Agrees` relates two runs of one
search, one with a state and one without.  Both are closed under sequencing, so each function of
the search agrees with itself as soon as the names agree.

The notes are right if every name is the name that its page gives, and every result is what some
locator with the noted text comes to on its page.  Since a text belongs to one locator only, a note
that is found under the text of a locator is a note about that locator.

## Main results

* `resolve_agrees`: a search agrees with itself under any two sources of the same names.
* `find_yields`: in a running batch with right notes, a lookup comes to what a plain search comes
  to.
* `lookup_eq_resolved`: so does a lookup on its own.
-/

namespace AriaLocator

/-! ## Work in a state -/

section Work

variable {σ α β : Type} {inv : σ → Prop}

/-- From every state with the invariant, the work comes to the value and keeps the invariant. -/
def Yields (inv : σ → Prop) (work : StateM σ α) (value : α) : Prop :=
  ∀ s, inv s → (work s).1 = value ∧ inv (work s).2

/-- Work in sequence passes its value and its state on. -/
theorem run_bind (work : StateM σ α) (next : α → StateM σ β) (s : σ) :
    (work >>= next) s = next (work s).1 (work s).2 := rfl

/-- Reading the state does not change it. -/
theorem run_get (s : σ) : (get : StateM σ σ) s = (s, s) := rfl

namespace Yields

theorem pure (value : α) : Yields inv (Pure.pure value) value :=
  fun _ hs => ⟨rfl, hs⟩

theorem bind {work : StateM σ α} {value : α} {next : α → StateM σ β} {result : β}
    (hWork : Yields inv work value) (hNext : Yields inv (next value) result) :
    Yields inv (work >>= next) result := by
  intro s hs
  obtain ⟨hValue, hKept⟩ := hWork s hs
  rw [run_bind, hValue]
  exact hNext _ hKept

end Yields

/-- Work that may fail agrees with a computation without a state. -/
def Agrees (inv : σ → Prop) (work : ExceptT Error (StateM σ) α) (plain : ExceptT Error Id α) :
    Prop :=
  Yields inv work.run plain.run

namespace Agrees

theorem pure (value : α) : Agrees inv (Pure.pure value) (Pure.pure value) :=
  Yields.pure _

theorem throw (error : Error) :
    Agrees inv (MonadExcept.throw error : ExceptT Error (StateM σ) α) (MonadExcept.throw error) :=
  Yields.pure _

/-- Work that cannot fail, put where work may fail. -/
theorem lift {work : StateM σ α} {value : Id α} (h : Yields inv work value) :
    Agrees inv (liftM work) (liftM value) := by
  intro s hs
  obtain ⟨hValue, hKept⟩ := h s hs
  exact ⟨congrArg Except.ok hValue, hKept⟩

/-- Of a value that is passed on, it is known that the computation without a state comes to it. -/
theorem bind_run {work : ExceptT Error (StateM σ) α} {plain : ExceptT Error Id α}
    {next : α → ExceptT Error (StateM σ) β} {plainNext : α → ExceptT Error Id β}
    (hWork : Agrees inv work plain)
    (hNext : ∀ value, plain.run = .ok value → Agrees inv (next value) (plainNext value)) :
    Agrees inv (work >>= next) (plain >>= plainNext) := by
  have hSequence : Yields inv (work.run >>= ExceptT.bindCont next)
      (ExceptT.bindCont plainNext plain.run) := by
    apply Yields.bind hWork
    cases hPlain : plain.run with
    | error e => exact Yields.pure _
    | ok value => exact hNext value hPlain
  exact hSequence

theorem bind {work : ExceptT Error (StateM σ) α} {plain : ExceptT Error Id α}
    {next : α → ExceptT Error (StateM σ) β} {plainNext : α → ExceptT Error Id β}
    (hWork : Agrees inv work plain) (hNext : ∀ value, Agrees inv (next value) (plainNext value)) :
    Agrees inv (work >>= next) (plain >>= plainNext) :=
  bind_run hWork fun value _ => hNext value

theorem mapM {work : α → ExceptT Error (StateM σ) β} {plain : α → ExceptT Error Id β}
    (h : ∀ value, Agrees inv (work value) (plain value)) (values : List α) :
    Agrees inv (values.mapM work) (values.mapM plain) := by
  induction values with
  | nil => exact pure []
  | cons value rest ih =>
      rw [List.mapM_cons, List.mapM_cons]
      refine bind (h value) ?_
      intro first
      refine bind ih ?_
      intro others
      exact pure _

end Agrees

end Work

/-! ## The search -/

namespace Document

variable {σ : Type} {inv : σ → Prop} {nameOf : Element → StateM σ String}
  {plainName : Element → Id String}

theorem nameMatches_agrees (expected actual : String) :
    Agrees inv (liftM (nameMatches expected actual)) (liftM (nameMatches expected actual)) := by
  rw [nameMatches]
  split
  · exact Agrees.throw _
  · exact Agrees.pure _

theorem filterNamed_agrees (h : ∀ e, Yields inv (nameOf e) (plainName e)) (pattern : String)
    (es : List Element) :
    Agrees inv (filterNamed nameOf pattern es) (filterNamed plainName pattern es) := by
  induction es with
  | nil => exact Agrees.pure []
  | cons e rest ih =>
      apply Agrees.bind (Agrees.lift (h e))
      intro actual
      apply Agrees.bind (nameMatches_agrees pattern actual)
      intro fits
      apply Agrees.bind ih
      intro more
      exact Agrees.pure _

variable (d : Document) (options : SearchOptions)

theorem findNode_agrees (h : ∀ e, Yields inv (nameOf e) (plainName e)) (n : Node)
    (bases : List Element) :
    Agrees inv (d.findNode nameOf options n bases) (d.findNode plainName options n bases) := by
  unfold findNode
  simp only
  split
  · exact Agrees.pure _
  · split
    · exact Agrees.pure _
    · split
      · exact Agrees.pure _
      · apply Agrees.bind (filterNamed_agrees h _ _)
        intro named
        split
        · exact Agrees.pure _
        · exact Agrees.pure _

theorem findChain_agrees (h : ∀ e, Yields inv (nameOf e) (plainName e)) (passed nodes : List Node)
    (bases : List Element) :
    Agrees inv (d.findChain nameOf options passed nodes bases)
      (d.findChain plainName options passed nodes bases) := by
  induction nodes generalizing passed bases with
  | nil => exact Agrees.pure _
  | cons n rest ih =>
      unfold findChain
      apply Agrees.bind (findNode_agrees d options h n bases)
      intro result
      cases result with
      | found elements => exact ih (passed ++ [n]) elements
      | missed miss => exact Agrees.pure _

/-- A search agrees with itself under any two sources of the same names. -/
theorem resolve_agrees (h : ∀ e, Yields inv (nameOf e) (plainName e)) (l : Locator)
    (root : Element) :
    Agrees inv (d.resolve nameOf l root options) (d.resolve plainName l root options) := by
  unfold resolve
  apply Agrees.bind (findChain_agrees d options h [] l.preOuter [root])
  intro result
  cases result with
  | missed miss => exact Agrees.pure _
  | found bases =>
      simp only
      split
      · exact Agrees.pure _
      · apply Agrees.bind (Agrees.mapM (findChain_agrees d options h [] l.postOuter [·]) bases)
        intro results
        exact Agrees.pure _

end Document

/-- What a search comes to when every name is worked out anew. -/
def Document.resolved (d : Document) (l : Locator) (root : Element) (options : SearchOptions) :
    Except Error LookupResult :=
  (d.resolve (m := Id) d.accessibleName l root options).run

/-! ## The notes of a batch -/

namespace BatchContext

/-- The page under a number. -/
def pageOf (pages : Nat → Document) (number : Nat) : Page := ⟨number, pages number⟩

/-- Every note says what is the case on its page. -/
structure Faithful (pages : Nat → Document) (context : BatchContext) : Prop where
  /-- Names are those that the pages give. -/
  names : ∀ number e name, context.names[(number, e)]? = some name →
    name = (pages number).accessibleName e
  /-- Results are those of a locator with the noted text. -/
  lookups : ∀ (key : LookupKey) (result : LookupResult),
    context.lookups[key]? = some result →
    ∃ l : Locator, (∀ n ∈ l.nodes, n.Built) ∧ l.canonical = key.locator ∧
      (pages key.page).resolved l key.root key.options = .ok result

/-- A batch is running and its notes are right. -/
structure Running (pages : Nat → Document) (context : BatchContext) : Prop where
  active : context.isActive = true
  faithful : Faithful pages context

variable {pages : Nat → Document}

theorem faithful_new : Faithful pages new := by
  constructor
  · intro number e name h
    simp [new] at h
  · intro key result h
    simp [new] at h

theorem running_start : Running pages { new with isActive := true } := by
  refine ⟨rfl, ?_, ?_⟩
  · exact faithful_new.names
  · exact faithful_new.lookups

/-- A name that the page gives may be noted. -/
theorem Running.insert_name {context : BatchContext} (h : Running pages context) (number : Nat)
    (e : Element) :
    Running pages { context with
      names := context.names.insert (number, e) ((pages number).accessibleName e) } := by
  refine ⟨h.active, fun number' e' name hNote => ?_, h.faithful.lookups⟩
  rw [Std.HashMap.getElem?_insert] at hNote
  split at hNote
  · next hKey =>
    have hKey : (number, e) = (number', e') := by simpa using hKey
    obtain ⟨rfl, rfl⟩ := Prod.mk.inj hKey
    exact (Option.some.inj hNote).symm
  · exact h.faithful.names number' e' name hNote

/-- A result may be noted under the text of its locator. -/
theorem Running.insert_lookup {context : BatchContext} (h : Running pages context) {number : Nat}
    {l : Locator} (hBuilt : ∀ n ∈ l.nodes, n.Built) {root : Element} {options : SearchOptions}
    {result : LookupResult} (hResult : (pages number).resolved l root options = .ok result) :
    Running pages { context with
      lookups := context.lookups.insert (keyOf (pageOf pages number) l root options) result } := by
  refine ⟨h.active, h.faithful.names, fun key found hNote => ?_⟩
  rw [Std.HashMap.getElem?_insert] at hNote
  split at hNote
  · next hKey =>
    have hKey : keyOf (pageOf pages number) l root options = key := by simpa using hKey
    subst hKey
    rw [← Option.some.inj hNote]
    exact ⟨l, hBuilt, rfl, hResult⟩
  · exact h.faithful.lookups key found hNote

/-- A name that is noted is not worked out. -/
theorem accessibleName_noted {p : Page} {e : Element} {name : String} {context : BatchContext}
    (hActive : context.isActive = true) (h : context.names[(p.number, e)]? = some name) :
    accessibleName p e context = (name, context) := by
  rw [accessibleName, run_bind, run_get]
  simp only
  rw [if_neg (by simp [hActive]), h]
  rfl

/-- A name that is not noted is worked out and noted. -/
theorem accessibleName_anew {p : Page} {e : Element} {context : BatchContext}
    (hActive : context.isActive = true) (h : context.names[(p.number, e)]? = none) :
    accessibleName p e context = (p.document.accessibleName e, { context with
      names := context.names.insert (p.number, e) (p.document.accessibleName e) }) := by
  rw [accessibleName, run_bind, run_get]
  simp only
  rw [if_neg (by simp [hActive]), h]
  rfl

/-- Outside a batch, a name is worked out and nothing is noted. -/
theorem accessibleName_of_inactive {p : Page} {e : Element} {context : BatchContext}
    (h : context.isActive = false) :
    accessibleName p e context = (p.document.accessibleName e, context) := by
  rw [accessibleName, run_bind, run_get]
  simp only
  rw [h, Bool.not_false, if_pos rfl]
  rfl

theorem accessibleName_yields (number : Nat) (e : Element) :
    Yields (Running pages) (accessibleName (pageOf pages number) e)
      ((pages number).accessibleName e) := by
  intro context h
  cases hNote : context.names[(number, e)]? with
  | some name =>
      rw [accessibleName_noted (p := pageOf pages number) h.active hNote]
      exact ⟨h.faithful.names number e name hNote, h⟩
  | none =>
      rw [accessibleName_anew (p := pageOf pages number) h.active hNote]
      exact ⟨rfl, h.insert_name number e⟩

/-- A search with the notes of a batch comes to what a search without them comes to. -/
theorem resolve_yields (number : Nat) (l : Locator) (root : Element) (options : SearchOptions) :
    Yields (Running pages)
      ((pages number).resolve (accessibleName (pageOf pages number)) l root options).run
      ((pages number).resolved l root options) :=
  Document.resolve_agrees (pages number) options (accessibleName_yields number) l root

section Lookup

variable {p : Page} {l : Locator} {root : Element} {options : SearchOptions}
  {context : BatchContext}

/-- A lookup that is noted comes to what the note says. -/
theorem findKept_noted {result : LookupResult}
    (h : context.lookups[keyOf p l root options]? = some result) :
    findKept p l root options context = (.ok result, context) := by
  rw [findKept, run_bind, run_get]
  simp only
  rw [h]
  rfl

/-- A lookup that is not noted is a search. Its result is noted, and its error is not. -/
theorem findKept_anew (h : context.lookups[keyOf p l root options]? = none) :
    findKept p l root options context =
      match (p.document.resolve (accessibleName p) l root options).run context with
      | (.error e, after) => (.error e, after)
      | (.ok result, after) => (.ok result, { after with
          lookups := after.lookups.insert (keyOf p l root options) result }) := by
  rw [findKept, run_bind, run_get]
  simp only
  rw [h]
  simp only
  rw [run_bind]
  generalize (p.document.resolve (accessibleName p) l root options).run context = searched
  obtain ⟨outcome, after⟩ := searched
  cases outcome <;> rfl

theorem find_of_active (h : context.isActive = true) :
    find p l root options context = findKept p l root options context := by
  rw [find, run_bind, run_get]
  simp only
  rw [if_pos h]

/-- Outside a batch, a lookup runs in one of its own. -/
theorem find_of_inactive (h : context.isActive = false) :
    find p l root options context =
      ((findKept p l root options { context with isActive := true }).1, new) := by
  rw [find, run_bind, run_get]
  simp only
  rw [h, if_neg Bool.false_ne_true]
  rfl

end Lookup

/-- In a running batch, a lookup comes to what a search without notes comes to. -/
theorem findKept_yields (number : Nat) {l : Locator} (hBuilt : ∀ n ∈ l.nodes, n.Built)
    (root : Element) (options : SearchOptions) :
    Yields (Running pages) (findKept (pageOf pages number) l root options)
      ((pages number).resolved l root options) := by
  intro context h
  cases hNote : context.lookups[keyOf (pageOf pages number) l root options]? with
  | some result =>
      obtain ⟨l', hBuilt', hText, hResult⟩ := h.faithful.lookups _ _ hNote
      obtain rfl : l' = l := Locator.canonical_inj hBuilt' hBuilt hText
      rw [findKept_noted hNote]
      exact ⟨hResult.symm, h⟩
  | none =>
      obtain ⟨hValue, hKept⟩ := resolve_yields number l root options context h
      rw [findKept_anew hNote]
      generalize hSearch : ((pageOf pages number).document.resolve
        (accessibleName (pageOf pages number)) l root options).run context = searched
      have hSearch' : ((pages number).resolve (accessibleName (pageOf pages number)) l root
        options).run context = searched := hSearch
      rw [hSearch'] at hValue hKept
      obtain ⟨outcome, after⟩ := searched
      cases outcome with
      | error e => exact ⟨hValue, hKept⟩
      | ok result => exact ⟨hValue, hKept.insert_lookup hBuilt hValue.symm⟩

theorem find_yields (number : Nat) {l : Locator} (hBuilt : ∀ n ∈ l.nodes, n.Built)
    (root : Element) (options : SearchOptions) :
    Yields (Running pages) (find (pageOf pages number) l root options)
      ((pages number).resolved l root options) := by
  intro context h
  rw [find_of_active h.active]
  exact findKept_yields number hBuilt root options context h

/-- Without a batch, a lookup comes to what a plain search comes to, whatever its nodes, and leaves
nothing behind. -/
theorem find_new (pages : Nat → Document) (number : Nat) (l : Locator) (root : Element)
    (options : SearchOptions) :
    find (pageOf pages number) l root options new =
      ((pages number).resolved l root options, new) := by
  have hNote : ({ new with isActive := true } : BatchContext).lookups[keyOf
      (pageOf pages number) l root options]? = none := by
    simp [new]
  have hStart : Running pages { new with isActive := true } := running_start
  have hValue := (resolve_yields number l root options _ hStart).1
  rw [find_of_inactive rfl, findKept_anew hNote, ← hValue]
  generalize hSearch : ((pageOf pages number).document.resolve
    (accessibleName (pageOf pages number)) l root options).run
      { new with isActive := true } = searched
  have hSearch' : ((pages number).resolve (accessibleName (pageOf pages number)) l root
    options).run { new with isActive := true } = searched := hSearch
  rw [hSearch']
  obtain ⟨outcome, after⟩ := searched
  cases outcome <;> rfl

end BatchContext

namespace Document

theorem lookup_eq_resolved (d : Document) (l : Locator) (root : Element)
    (options : SearchOptions) : d.lookup l root options = d.resolved l root options :=
  congrArg Prod.fst (BatchContext.find_new (fun _ => d) 0 l root options)

end Document

end AriaLocator
