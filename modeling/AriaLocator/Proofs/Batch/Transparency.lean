import AriaLocator.Proofs.Batch.Simulation

/-!
# Batches change no answer

One context serves any number of pages, in and out of batches, and pages change between batches.
Notes that outlive what they say would show up as a wrong answer somewhere in such a session: a name
from before an attribute was set, a result that belongs to another page or to another locator.

A session is a run of single steps.  Each step keeps the invariant `Sound`: outside a batch nothing
is noted at all, and in a batch every note says what is the case.  So each answer is the one that a
context without notes gives at that moment.

## Main results

* `Sound.step`: each step keeps the notes sound.
* `answers_as_fresh`: in every run, every answer is that of a fresh context.
-/

namespace AriaLocator

/-! ## Sessions -/

namespace BatchContext

/-- What can be done with one context and the pages it serves. -/
inductive Event where
  /-- Begins a batch, which fails while one is running. -/
  | start
  /-- Ends the batch that is running. -/
  | finish
  /-- Looks up a locator on a page. -/
  | find (number : Nat) (l : Locator) (root : Element) (options : SearchOptions)
  /-- Asks for the accessible name of an element of a page. -/
  | name (number : Nat) (e : Element)
  /-- Changes a page. -/
  | change (number : Nat) (change : Change)

/-- What an event gives back. -/
inductive Answer where
  | begun (outcome : Except Error Unit)
  | found (outcome : Except Error LookupResult)
  | named (name : String)
  | silent

/-- The pages as they are, and the context that serves them. -/
structure Session where
  pages : Nat → Document
  context : BatchContext

/-- One event: locators have been read from some text, a batch that ends has begun, and pages change
only while no batch is running. -/
inductive Step : Session → Event → Answer → Session → Prop where
  | start (s : Session) :
      Step s .start (.begun (start s.context).1) { s with context := (start s.context).2 }
  | finish (s : Session) (hActive : s.context.isActive = true) :
      Step s .finish .silent { s with context := (finish s.context).2 }
  | find (s : Session) (number : Nat) {l : Locator} {text : String}
      (hRead : Locator.parse text = .ok l) (root : Element) (options : SearchOptions) :
      Step s (.find number l root options)
        (.found (find (pageOf s.pages number) l root options s.context).1)
        { s with context := (find (pageOf s.pages number) l root options s.context).2 }
  | name (s : Session) (number : Nat) (e : Element) :
      Step s (.name number e) (.named (accessibleName (pageOf s.pages number) e s.context).1)
        { s with context := (accessibleName (pageOf s.pages number) e s.context).2 }
  | change (s : Session) (number : Nat) (change : Change)
      (hIdle : s.context.isActive = false) :
      Step s (.change number change) .silent
        { s with pages := fun other =>
            if other = number then (s.pages number).after change else s.pages other }

/-- An event of a run, with the pages as they were and the answer. -/
structure Moment where
  pages : Nat → Document
  event : Event
  answer : Answer

/-- One event after another. -/
inductive Run : Session → List Moment → Session → Prop where
  | nil (s : Session) : Run s [] s
  | cons {s s' s'' : Session} {event : Event} {answer : Answer} {rest : List Moment}
      (first : Step s event answer s') (others : Run s' rest s'') :
      Run s (⟨s.pages, event, answer⟩ :: rest) s''

/-- What a context without notes answers to an event that asks for something. -/
def Event.fresh? (pages : Nat → Document) : Event → Option Answer
  | .find number l root options =>
    some (.found (BatchContext.find (pageOf pages number) l root options new).1)
  | .name number e => some (.named (accessibleName (pageOf pages number) e new).1)
  | _ => none

/-! ## The invariant -/

/-- Outside a batch nothing is noted, and what is noted is the case. -/
structure Sound (s : Session) : Prop where
  idle : s.context.isActive = false → s.context = new
  faithful : Faithful s.pages s.context

theorem sound_new (pages : Nat → Document) : Sound ⟨pages, new⟩ :=
  ⟨fun _ => rfl, faithful_new⟩

theorem Sound.running {s : Session} (h : Sound s) (hActive : s.context.isActive = true) :
    Running s.pages s.context :=
  ⟨hActive, h.faithful⟩

theorem Running.sound {pages : Nat → Document} {context : BatchContext}
    (h : Running pages context) : Sound ⟨pages, context⟩ := by
  refine ⟨fun hIdle => ?_, h.faithful⟩
  have hActive := h.active
  rw [hIdle] at hActive
  exact absurd hActive Bool.false_ne_true

/-- A lookup answers as a search without notes does, and leaves sound notes behind. -/
theorem Sound.find {s : Session} (h : Sound s) (number : Nat) {l : Locator}
    (hBuilt : ∀ n ∈ l.nodes, n.Built) (root : Element) (options : SearchOptions) :
    (BatchContext.find (pageOf s.pages number) l root options s.context).1 =
        (s.pages number).resolved l root options ∧
      Sound ⟨s.pages,
        (BatchContext.find (pageOf s.pages number) l root options s.context).2⟩ := by
  cases hActive : s.context.isActive with
  | true =>
      obtain ⟨hAnswer, hAfter⟩ :=
        find_yields number hBuilt root options s.context (h.running hActive)
      exact ⟨hAnswer, hAfter.sound⟩
  | false =>
      rw [h.idle hActive, find_new]
      exact ⟨rfl, sound_new s.pages⟩

theorem Sound.accessibleName {s : Session} (h : Sound s) (number : Nat) (e : Element) :
    (BatchContext.accessibleName (pageOf s.pages number) e s.context).1 =
        (s.pages number).accessibleName e ∧
      Sound ⟨s.pages, (BatchContext.accessibleName (pageOf s.pages number) e s.context).2⟩ := by
  cases hActive : s.context.isActive with
  | true =>
      obtain ⟨hAnswer, hAfter⟩ :=
        accessibleName_yields number e s.context (h.running hActive)
      exact ⟨hAnswer, hAfter.sound⟩
  | false =>
      rw [accessibleName_of_inactive hActive]
      exact ⟨rfl, h⟩

/-- Each step keeps the notes sound. -/
theorem Sound.step {s s' : Session} {event : Event} {answer : Answer} (h : Sound s)
    (hStep : Step s event answer s') : Sound s' := by
  cases hStep with
  | start =>
      cases hActive : s.context.isActive with
      | true =>
          rw [start_of_active hActive]
          exact h
      | false =>
          rw [start_of_inactive hActive, h.idle hActive]
          exact running_start.sound
  | finish hActive =>
      rw [finish_eq]
      exact sound_new s.pages
  | find number hRead root options =>
      exact (h.find number (Locator.parse_accepted hRead).built root options).2
  | name number e => exact (h.accessibleName number e).2
  | change number change hIdle =>
      -- Nothing is noted now, so nothing can become wrong.
      rw [h.idle hIdle]
      exact sound_new _

/-- With sound notes, a step answers as a fresh context does. -/
theorem Sound.answer {s s' : Session} {event : Event} {answer : Answer} (h : Sound s)
    (hStep : Step s event answer s') {fresh : Answer} (hFresh : event.fresh? s.pages = some fresh) :
    answer = fresh := by
  cases hStep with
  | start => simp [Event.fresh?] at hFresh
  | finish hActive => simp [Event.fresh?] at hFresh
  | change number change hIdle => simp [Event.fresh?] at hFresh
  | find number hRead root options =>
      have hHere := (h.find number (Locator.parse_accepted hRead).built root options).1
      rw [← Option.some.inj hFresh, hHere, find_new]
  | name number e =>
      have hHere := (h.accessibleName number e).1
      rw [← Option.some.inj hFresh, hHere, accessibleName_of_inactive rfl]
      rfl

theorem Sound.run {s s' : Session} {moments : List Moment} (h : Sound s)
    (hRun : Run s moments s') :
    ∀ m ∈ moments, ∀ fresh, m.event.fresh? m.pages = some fresh → m.answer = fresh := by
  induction hRun with
  | nil s => simp
  | cons first others ih =>
      intro m hm fresh hFresh
      rcases List.mem_cons.mp hm with rfl | hm
      · exact h.answer first hFresh
      · exact ih (h.step first) m hm fresh hFresh

/-- In every run that starts with a new context, every lookup and every name is answered as a fresh
context answers it on the pages as they are at that moment. -/
theorem answers_as_fresh {pages : Nat → Document} {s : Session} {moments : List Moment}
    (h : Run ⟨pages, new⟩ moments s) :
    ∀ m ∈ moments, ∀ fresh, m.event.fresh? m.pages = some fresh → m.answer = fresh :=
  (sound_new pages).run h

/-- A button is found in a batch, and no longer found after it has become a link between two
lookups. -/
theorem answers_as_fresh_after_change :
    let d := Document.ofElement "body" [] [.element "button" [] []]
    let changed := d.setAttribute 1 "role" "link"
    let l : Locator := ⟨[Node.ofRole .button], []⟩
    ∃ (moments : List Moment) (s : Session), Run ⟨fun _ => d, new⟩ moments s ∧
      (∃ m ∈ moments, m.pages 0 = d ∧ m.event = .find 0 l 0 {} ∧
        m.answer = .found (.ok (.found [1]))) ∧
      ∃ m ∈ moments, m.pages 0 = changed ∧ m.event = .find 0 l 0 {} ∧
        m.answer = .found (.ok (.missed ⟨[], none, [0], .role .button⟩)) := by
  intro d changed l
  have hRead : Locator.parse "\x7bbutton\x7d" = .ok l := by decide +kernel
  have hBefore : d.resolved l 0 {} = .ok (.found [1]) := by decide +kernel
  have hAfter : changed.resolved l 0 {} = .ok (.missed ⟨[], none, [0], .role .button⟩) := by
    decide +kernel
  let running : Session := ⟨fun _ => d, { new with isActive := true }⟩
  let looked : Session :=
    { running with context := (find (pageOf running.pages 0) l 0 {} running.context).2 }
  have hActive : looked.context.isActive = true :=
    (find_yields 0 (Locator.parse_accepted hRead).built 0 {} running.context running_start).2.active
  have hRun := Run.cons (.start ⟨fun _ => d, new⟩) (.cons (.find running 0 hRead 0 {})
    (.cons (.finish looked hActive) (.cons (.change _ 0 (.setAttribute 1 "role" "link") rfl)
      (.cons (.find _ 0 hRead 0 {}) (.nil _)))))
  have hAnswers := answers_as_fresh hRun
  refine ⟨_, _, hRun, ⟨_, List.mem_of_getElem? (i := 1) rfl, rfl, rfl, ?_⟩,
    ⟨_, List.mem_of_getElem? (i := 4) rfl, rfl, rfl, ?_⟩⟩
  · refine hAnswers _ (List.mem_of_getElem? (i := 1) rfl) _ ?_
    simp only [Event.fresh?]
    rw [find_new]
    exact congrArg (fun outcome => some (Answer.found outcome)) hBefore
  · refine hAnswers _ (List.mem_of_getElem? (i := 4) rfl) _ ?_
    simp only [Event.fresh?]
    rw [find_new]
    exact congrArg (fun outcome => some (Answer.found outcome)) hAfter

end BatchContext

end AriaLocator
