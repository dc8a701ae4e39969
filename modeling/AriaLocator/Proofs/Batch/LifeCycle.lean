import AriaLocator.Proofs.Batch.Simulation

/-!
# Life of a batch

A context is either idle, and then it keeps nothing, or a batch is running.  A batch begins and ends
in three ways: on its own, around some work, and around a lookup that finds no batch running.  Each way
of beginning is refused while a batch is running, and the refusal leaves everything as it is.

That an idle context keeps nothing is an invariant of single operations, whether they succeed or not.
An operation may contain others, those of the work that a batch is begun for.  They are met in a
running batch, and what they leave behind is forgotten with it, so that a run of operations is
followed into the work as well as past it.

## Main results

* `find_keeps_active`: a lookup in a running batch leaves it running, also if it fails.
* `perform_keeps_tidy`: no operation leaves anything behind in an idle context.
* `batch_life`: so it is in every context met on the way, and batches begin exactly when none runs.
-/

namespace AriaLocator

/-! ## Work that keeps a property of its state -/

section Work

variable {σ α β : Type} {inv : σ → Prop}

/-- Whatever the work comes to, a property of the state outlives it. -/
def Keeps (inv : σ → Prop) (work : StateM σ α) : Prop :=
  ∀ s, inv s → inv (work s).2

namespace Keeps

theorem pure (value : α) : Keeps inv (Pure.pure value) :=
  fun _ hs => hs

theorem bind {work : StateM σ α} {next : α → StateM σ β} (hWork : Keeps inv work)
    (hNext : ∀ value, Keeps inv (next value)) : Keeps inv (work >>= next) := by
  intro s hs
  rw [run_bind]
  exact hNext _ _ (hWork s hs)

/-- Work that may fail goes on only if it has not failed, and keeps the property either way. -/
theorem bind_run {work : ExceptT Error (StateM σ) α} {next : α → ExceptT Error (StateM σ) β}
    (hWork : Keeps inv work.run) (hNext : ∀ value, Keeps inv (next value).run) :
    Keeps inv (work >>= next).run := by
  have hSequence : Keeps inv (work.run >>= ExceptT.bindCont next) := by
    apply bind hWork
    intro outcome
    cases outcome with
    | error e => exact pure _
    | ok value => exact hNext value
  exact hSequence

/-- Work that cannot fail, put where work may fail. -/
theorem lift {work : StateM σ α} (h : Keeps inv work) :
    Keeps inv (liftM work : ExceptT Error (StateM σ) α).run :=
  fun s hs => h s hs

theorem mapM {work : α → ExceptT Error (StateM σ) β} (h : ∀ value, Keeps inv (work value).run)
    (values : List α) : Keeps inv (values.mapM work).run := by
  induction values with
  | nil => exact pure _
  | cons value rest ih =>
      rw [List.mapM_cons]
      apply bind_run (h value)
      intro first
      apply bind_run ih
      intro others
      exact pure _

end Keeps

end Work

/-! ## The search -/

namespace Document

variable {σ : Type} {inv : σ → Prop} {nameOf : Element → StateM σ String}

theorem filterNamed_keeps (h : ∀ e, Keeps inv (nameOf e)) (pattern : String) (es : List Element) :
    Keeps inv (filterNamed nameOf pattern es).run := by
  induction es with
  | nil => exact Keeps.pure _
  | cons e rest ih =>
      apply Keeps.bind_run (Keeps.lift (h e))
      intro actual
      have hMatches : Keeps inv
          (liftM (nameMatches pattern actual) : ExceptT Error (StateM σ) Bool).run := by
        rw [nameMatches]
        split
        · exact Keeps.pure _
        · exact Keeps.pure _
      apply Keeps.bind_run hMatches
      intro fits
      apply Keeps.bind_run ih
      intro more
      exact Keeps.pure _

variable (d : Document) (options : SearchOptions)

theorem findNode_keeps (h : ∀ e, Keeps inv (nameOf e)) (n : Node) (bases : List Element) :
    Keeps inv (d.findNode nameOf options n bases).run := by
  unfold findNode
  simp only
  split
  · exact Keeps.pure _
  · split
    · exact Keeps.pure _
    · split
      · exact Keeps.pure _
      · apply Keeps.bind_run (filterNamed_keeps h _ _)
        intro named
        split
        · exact Keeps.pure _
        · exact Keeps.pure _

theorem findChain_keeps (h : ∀ e, Keeps inv (nameOf e)) (passed nodes : List Node)
    (bases : List Element) : Keeps inv (d.findChain nameOf options passed nodes bases).run := by
  induction nodes generalizing passed bases with
  | nil => exact Keeps.pure _
  | cons n rest ih =>
      unfold findChain
      apply Keeps.bind_run (findNode_keeps d options h n bases)
      intro result
      cases result with
      | found elements => exact ih (passed ++ [n]) elements
      | missed miss => exact Keeps.pure _

/-- A search keeps what asking for names keeps. -/
theorem resolve_keeps (h : ∀ e, Keeps inv (nameOf e)) (l : Locator) (root : Element) :
    Keeps inv (d.resolve nameOf l root options).run := by
  unfold resolve
  apply Keeps.bind_run (findChain_keeps d options h [] l.preOuter [root])
  intro result
  cases result with
  | missed miss => exact Keeps.pure _
  | found bases =>
      simp only
      split
      · exact Keeps.pure _
      · apply Keeps.bind_run (Keeps.mapM (findChain_keeps d options h [] l.postOuter [·]) bases)
        intro results
        exact Keeps.pure _

end Document

namespace BatchContext

/-! ## Running batches go on -/

/-- A batch is running. -/
def IsRunning (context : BatchContext) : Prop := context.isActive = true

theorem accessibleName_keeps_active (p : Page) (e : Element) :
    Keeps IsRunning (accessibleName p e) := by
  intro context hActive
  cases hNote : context.names[(p.number, e)]? with
  | some name =>
      rw [accessibleName_noted hActive hNote]
      exact hActive
  | none =>
      rw [accessibleName_anew hActive hNote]
      exact hActive

theorem findKept_keeps_active (p : Page) (l : Locator) (root : Element) (options : SearchOptions) :
    Keeps IsRunning (findKept p l root options) := by
  intro context hActive
  cases hNote : context.lookups[keyOf p l root options]? with
  | some result =>
      rw [findKept_noted hNote]
      exact hActive
  | none =>
      have hSearch := p.document.resolve_keeps options (accessibleName_keeps_active p) l root
        context hActive
      rw [findKept_anew hNote]
      generalize (p.document.resolve (accessibleName p) l root options).run context = searched
        at hSearch
      obtain ⟨outcome, after⟩ := searched
      cases outcome with
      | error e => exact hSearch
      | ok result => exact hSearch

/-- A lookup in a running batch leaves it running, whatever comes of it. -/
theorem find_keeps_active (p : Page) (l : Locator) (root : Element) (options : SearchOptions) :
    Keeps IsRunning (find p l root options) := by
  intro context hActive
  rw [find_of_active hActive]
  exact findKept_keeps_active p l root options context hActive

/-! ## Work in a batch of its own -/

section Run

variable {α : Type} {context : BatchContext}

theorem run_of_active (work : BatchM α) (h : context.isActive = true) :
    run work context = (.error .batchInProgress, context) := by
  rw [run, run_bind, start_of_active h]
  rfl

/-- The work is done in a running batch that keeps nothing but what was kept, and that ends with it. -/
theorem run_of_inactive (work : BatchM α) (h : context.isActive = false) :
    run work context = (.ok (work { context with isActive := true }).1, new) := by
  rw [run, run_bind, start_of_inactive h]
  rfl

end Run

/-! ## Operations -/

/-- What can be done with a context.  The work that a batch is begun for does such things again. -/
inductive Operation where
  /-- Begins a batch. -/
  | start
  /-- Ends the batch that was begun. -/
  | finish
  /-- Does some work in a batch. -/
  | run (work : List Operation)
  /-- Asks for the accessible name of an element. -/
  | name (p : Page) (e : Element)
  /-- Looks up a locator. -/
  | find (p : Page) (l : Locator) (root : Element) (options : SearchOptions)
  /-- Asks why a lookup missed. -/
  | explain (p : Page) (l : Locator) (root : Element) (miss : Miss)

mutual

/-- Does an operation; what it gives back is not looked at here. -/
def perform : Operation → BatchM Unit
  | .start => discard start
  | .finish => finish
  | .run work => discard (run (performAll work))
  | .name p e => discard (accessibleName p e)
  | .find p l root options => discard (find p l root options)
  | .explain p l root miss => discard (failureMessage p l root miss)

/-- Does operations one after the other. -/
def performAll : List Operation → BatchM Unit
  | [] => pure ()
  | operation :: rest => do
    perform operation
    performAll rest

end

/-- A context is met on the way through operations that are done from another one on, either between
them or inside the work that one of them does. -/
inductive Meets : BatchContext → List Operation → BatchContext → Prop where
  | here (context : BatchContext) (operations : List Operation) : Meets context operations context
  | inside {context met : BatchContext} {work rest : List Operation}
      (hIdle : context.isActive = false) (h : Meets { context with isActive := true } work met) :
      Meets context (.run work :: rest) met
  | later {context met : BatchContext} {operation : Operation} {rest : List Operation}
      (h : Meets (perform operation context).2 rest met) :
      Meets context (operation :: rest) met

/-! ## The invariant -/

/-- No batch is running, and nothing is kept. -/
structure IsIdle (context : BatchContext) : Prop where
  inactive : context.isActive = false
  names : context.names = ∅
  lookups : context.lookups = ∅

theorem isIdle_new : IsIdle new := ⟨rfl, rfl, rfl⟩

/-- Where no batch is running, nothing is kept. -/
def Tidy (context : BatchContext) : Prop := context.isActive = false → IsIdle context

theorem tidy_of_active {context : BatchContext} (h : context.isActive = true) : Tidy context := by
  intro hIdle
  rw [h] at hIdle
  exact absurd hIdle (by decide)

theorem start_keeps_tidy : Keeps Tidy start := by
  intro context h
  cases hActive : context.isActive with
  | true =>
      rw [start_of_active hActive]
      exact h
  | false =>
      rw [start_of_inactive hActive]
      exact tidy_of_active rfl

theorem run_keeps_tidy {α : Type} (work : BatchM α) : Keeps Tidy (run work) := by
  intro context h
  cases hActive : context.isActive with
  | true =>
      rw [run_of_active work hActive]
      exact h
  | false =>
      rw [run_of_inactive work hActive]
      exact fun _ => isIdle_new

theorem accessibleName_keeps_tidy (p : Page) (e : Element) : Keeps Tidy (accessibleName p e) := by
  intro context h
  cases hActive : context.isActive with
  | true => exact tidy_of_active (accessibleName_keeps_active p e context hActive)
  | false =>
      rw [accessibleName_of_inactive hActive]
      exact h

theorem find_keeps_tidy (p : Page) (l : Locator) (root : Element) (options : SearchOptions) :
    Keeps Tidy (find p l root options) := by
  intro context h
  cases hActive : context.isActive with
  | true => exact tidy_of_active (find_keeps_active p l root options context hActive)
  | false =>
      rw [find_of_inactive hActive]
      exact fun _ => isIdle_new

theorem failureMessage_keeps_tidy (p : Page) (l : Locator) (root : Element) (miss : Miss) :
    Keeps Tidy (failureMessage p l root miss) := by
  apply Keeps.bind (find_keeps_tidy p l root { includeHidden := true })
  intro hidden
  cases hidden with
  | error e => exact Keeps.pure _
  | ok hidden =>
      apply Keeps.bind (find_keeps_tidy p l root { includePresentational := true })
      intro presentational
      cases presentational with
      | error e => exact Keeps.pure _
      | ok presentational => exact Keeps.pure _

/-- No operation leaves anything behind in an idle context. -/
theorem perform_keeps_tidy (operation : Operation) : Keeps Tidy (perform operation) := by
  intro context h
  cases operation with
  | start => exact start_keeps_tidy context h
  | finish => exact fun _ => isIdle_new
  | run work => exact run_keeps_tidy (performAll work) context h
  | name p e => exact accessibleName_keeps_tidy p e context h
  | find p l root options => exact find_keeps_tidy p l root options context h
  | explain p l root miss => exact failureMessage_keeps_tidy p l root miss context h

theorem Meets.tidy {context met : BatchContext} {operations : List Operation}
    (hMeets : Meets context operations met) (h : Tidy context) : Tidy met := by
  induction hMeets with
  | here context operations => exact h
  | inside hIdle hInside ih => exact ih (tidy_of_active rfl)
  | later hLater ih => exact ih (perform_keeps_tidy _ _ h)

/-- To begin a batch fails in one way, which changes nothing. -/
theorem start_refused {context : BatchContext} {e : Error} (h : (start context).1 = .error e) :
    e = .batchInProgress ∧ (start context).2 = context := by
  cases hActive : context.isActive with
  | true =>
      rw [start_of_active hActive] at h ⊢
      exact ⟨(Except.error.inj h).symm, rfl⟩
  | false =>
      rw [start_of_inactive hActive] at h
      exact absurd h (by simp)

theorem run_refused {α : Type} {work : BatchM α} {context : BatchContext} {e : Error}
    (h : (run work context).1 = .error e) :
    e = .batchInProgress ∧ (run work context).2 = context := by
  cases hActive : context.isActive with
  | true =>
      rw [run_of_active work hActive] at h ⊢
      exact ⟨(Except.error.inj h).symm, rfl⟩
  | false =>
      rw [run_of_inactive work hActive] at h
      exact absurd h (by simp)

/-- In every context met on the way through operations that are done from a new one on, inside the
work of a batch as well: nothing is kept while no batch is running; a batch is refused exactly while
one is running, and a refusal changes nothing; and a lookup, whatever comes of it, leaves an idle
context idle and a running batch running.  A batch may be ended anywhere here, also where none was
begun. -/
theorem batch_life {operations : List Operation} {context : BatchContext}
    (h : Meets new operations context) :
    (context.isActive = false → context.names = ∅ ∧ context.lookups = ∅) ∧
      ((start context).1 = .error .batchInProgress ↔ context.isActive = true) ∧
      (∀ e, (start context).1 = .error e → e = .batchInProgress ∧ (start context).2 = context) ∧
      (∀ (α : Type) (work : BatchM α),
        ((run work context).1 = .error .batchInProgress ↔ context.isActive = true) ∧
          ∀ e, (run work context).1 = .error e →
            e = .batchInProgress ∧ (run work context).2 = context) ∧
      ∀ p l root options,
        (context.isActive = false → IsIdle (find p l root options context).2) ∧
          (context.isActive = true → (find p l root options context).2.isActive = true) := by
  have hTidy : Tidy context := h.tidy fun _ => isIdle_new
  refine ⟨fun hIdle => ⟨(hTidy hIdle).names, (hTidy hIdle).lookups⟩, ?_,
    fun e => start_refused, fun α work => ⟨?_, fun e => run_refused⟩, fun p l root options => ?_⟩
  · cases hActive : context.isActive with
    | true => simp [start_of_active hActive]
    | false => simp [start_of_inactive hActive]
  · cases hActive : context.isActive with
    | true => simp [run_of_active work hActive]
    | false => simp [run_of_inactive work hActive]
  · refine ⟨fun hIdle => ?_, fun hActive => find_keeps_active p l root options context hActive⟩
    rw [find_of_inactive hIdle]
    exact isIdle_new

/-- After a lookup that is refused for its name, a batch is begun for some work, which asks for a name
and then tries to begin another batch.  There the name is kept, and a third batch is refused. -/
theorem batch_life_in_work :
    let d := Document.ofElement "body" [] [.element "button" [("aria-label", "OK")] []]
    let star : Locator := ⟨[(Node.ofRole .button).withName "*"], []⟩
    let operations : List Operation :=
      [.find d.alone star 0 {}, .run [.name d.alone 1, .run [.start], .finish]]
    let kept : BatchContext := { isActive := true, names := Std.HashMap.insert ∅ (0, 1) "OK" }
    (find d.alone star 0 {} new).1 = .error (.value loneStarMessage) ∧
      Meets new operations kept ∧
      (start kept).1 = .error .batchInProgress ∧ (start kept).2 = kept ∧
      (find d.alone star 0 {} kept).2.isActive = true := by
  intro d star operations kept
  have hRefused : d.resolved star 0 {} = .error (.value loneStarMessage) := by decide +kernel
  have hFind : find d.alone star 0 {} new = (d.resolved star 0 {}, new) :=
    find_new (fun _ => d) 0 star 0 {}
  have hName : d.accessibleName 1 = "OK" := by decide +kernel
  have hNamed : accessibleName d.alone 1 { new with isActive := true } = ("OK", kept) := by
    rw [accessibleName_anew rfl (by simp [new])]
    show (d.accessibleName 1, { new with
      isActive := true, names := Std.HashMap.insert ∅ (0, 1) (d.accessibleName 1) }) = _
    rw [hName]
    rfl
  have hMeets : Meets new operations kept := by
    apply Meets.later
    have hAfter : (perform (.find d.alone star 0 {}) new).2 = new := congrArg Prod.snd hFind
    rw [hAfter]
    apply Meets.inside rfl
    apply Meets.later
    have hThen : (perform (.name d.alone 1) { new with isActive := true }).2 = kept :=
      congrArg Prod.snd hNamed
    rw [hThen]
    apply Meets.later
    have hRun : run (performAll [.start]) kept = (.error .batchInProgress, kept) :=
      run_of_active (performAll [.start]) rfl
    have hTried : (perform (.run [.start]) kept).2 = kept := congrArg Prod.snd hRun
    rw [hTried]
    exact Meets.here kept _
  obtain ⟨-, hStart, hSame, -, hLookup⟩ := batch_life hMeets
  have hAgain : (start kept).1 = .error .batchInProgress := hStart.mpr rfl
  refine ⟨?_, hMeets, hAgain, (hSame _ hAgain).2, (hLookup _ _ _ _).2 rfl⟩
  rw [hFind]
  exact hRefused

end BatchContext

end AriaLocator
