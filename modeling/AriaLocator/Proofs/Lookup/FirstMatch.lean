import AriaLocator.Proofs.Lookup.Meaning

/-!
# The first match and all matches

A locator can be looked up for all of its matches or for the first one.  Both searches are the
same, and they differ in what they make of a search that finds nothing: one hands out an empty
list, the other an error that explains.

For the explanation the locator is looked up twice more, with hidden elements and with elements
below one with presentational children.  These lookups may come where the search itself did not:
to an element that suits a node whose name is a lone asterisk.  That is refused, and then the
refusal stands in place of the explanation.  Nothing else can go wrong on the way, since a lone
asterisk is all that a search ever refuses.

## Main results

* `resolved_error`: the only error of a search is the refusal of a lone asterisk.
* `findElement_follows`: how the first match follows from all matches.
* `findElement_agrees`: the two agree in everything, but where nothing matches and that cannot be
  explained.
* `findElement_refuses_hidden_star`: the page of a hidden button, where it cannot.
-/

namespace AriaLocator

namespace Document

/-! ## What a search refuses -/

section Refusal

variable {α β : Type}

/-- A search fails at most since it refuses a lone asterisk. -/
def OnlyRefusesStar (search : ExceptT Error Id α) : Prop :=
  ∀ error, search.run = .error error → error = .value loneStarMessage

namespace OnlyRefusesStar

theorem pure (value : α) : OnlyRefusesStar (Pure.pure value) :=
  fun _ h => nomatch (show Except.ok value = Except.error _ from h)

theorem lift (value : Id α) : OnlyRefusesStar (liftM value) :=
  fun _ h => nomatch (show Except.ok value = Except.error _ from h)

theorem bind {search : ExceptT Error Id α} {next : α → ExceptT Error Id β}
    (hSearch : OnlyRefusesStar search) (hNext : ∀ value, OnlyRefusesStar (next value)) :
    OnlyRefusesStar (search >>= next) := by
  intro error h
  cases hRun : search.run with
  | error first =>
      rw [run_bind_of_error next hRun] at h
      exact Except.error.inj h ▸ hSearch first hRun
  | ok value =>
      rw [run_bind_of_ok next hRun] at h
      exact hNext value error h

theorem mapM {search : α → ExceptT Error Id β} (h : ∀ value, OnlyRefusesStar (search value))
    (values : List α) : OnlyRefusesStar (values.mapM search) := by
  induction values with
  | nil => exact pure []
  | cons value rest ih =>
      rw [List.mapM_cons]
      refine bind (h value) fun first => bind ih fun others => ?_
      exact pure _

end OnlyRefusesStar

theorem nameMatches_refuses (expected actual : String) :
    OnlyRefusesStar (liftM (nameMatches expected actual)) := by
  rw [nameMatches]
  cases NamePattern.ofText? expected with
  | none => exact fun error h => (Except.error.inj h).symm
  | some pattern => exact OnlyRefusesStar.pure _

theorem filterNamed_refuses (nameOf : Element → Id String) (pattern : String)
    (es : List Element) : OnlyRefusesStar (filterNamed nameOf pattern es) := by
  induction es with
  | nil => exact OnlyRefusesStar.pure []
  | cons e rest ih =>
      refine OnlyRefusesStar.bind (OnlyRefusesStar.lift _) fun actual => ?_
      refine OnlyRefusesStar.bind (nameMatches_refuses pattern actual) fun fits => ?_
      exact OnlyRefusesStar.bind ih fun more => OnlyRefusesStar.pure _

variable (d : Document) (nameOf : Element → Id String) (options : SearchOptions)

theorem findNode_refuses (n : Node) (bases : List Element) :
    OnlyRefusesStar (d.findNode nameOf options n bases) := by
  unfold findNode
  simp only
  split
  · exact OnlyRefusesStar.pure _
  · split
    · exact OnlyRefusesStar.pure _
    · split
      · exact OnlyRefusesStar.pure _
      · refine OnlyRefusesStar.bind (filterNamed_refuses nameOf _ _) fun named => ?_
        split
        · exact OnlyRefusesStar.pure _
        · exact OnlyRefusesStar.pure _

theorem findChain_refuses (passed nodes : List Node) (bases : List Element) :
    OnlyRefusesStar (d.findChain nameOf options passed nodes bases) := by
  induction nodes generalizing passed bases with
  | nil => exact OnlyRefusesStar.pure _
  | cons n rest ih =>
      refine OnlyRefusesStar.bind (findNode_refuses d nameOf options n bases) fun result => ?_
      cases result with
      | found es => exact ih (passed ++ [n]) es
      | missed miss => exact OnlyRefusesStar.pure _

theorem resolve_refuses (l : Locator) (root : Element) :
    OnlyRefusesStar (d.resolve nameOf l root options) := by
  unfold resolve
  refine OnlyRefusesStar.bind (findChain_refuses d nameOf options [] _ _) fun result => ?_
  cases result with
  | missed miss => exact OnlyRefusesStar.pure _
  | found bases =>
      simp only
      split
      · exact OnlyRefusesStar.pure _
      · refine OnlyRefusesStar.bind (OnlyRefusesStar.mapM
          (fun base => findChain_refuses d nameOf options [] l.postOuter [base]) bases) ?_
        exact fun results => OnlyRefusesStar.pure _

end Refusal

variable {d : Document} {l : Locator} {root : Element} {text : String}

/-- The only error of a search is the refusal of a lone asterisk, which is then in the locator. -/
theorem resolved_error {options : SearchOptions} {error : Error}
    (h : d.resolved l root options = .error error) :
    error = .value loneStarMessage ∧ ∃ n ∈ l.nodes, n.name? = some "*" := by
  have hComes := resolved_comes d options l root
  rw [h] at hComes
  exact ⟨resolve_refuses d d.accessibleName options l root error h, hComes⟩

/-! ## Both lookups as searches -/

/-- The explanation of a miss, for which the locator is looked up with hidden elements and with
elements below one with presentational children. -/
def explanation (d : Document) (l : Locator) (root : Element) (miss : Miss) :
    Except Error String := do
  let hidden ← d.resolved l root { includeHidden := true }
  let presentational ← d.resolved l root { includePresentational := true }
  pure (d.missMessage l miss hidden.elements presentational.elements)

theorem failureMessage_new (d : Document) (l : Locator) (root : Element) (miss : Miss) :
    (BatchContext.failureMessage d.alone l root miss BatchContext.new).1 =
      d.explanation l root miss := by
  have hFind (options : SearchOptions) :
      BatchContext.find d.alone l root options BatchContext.new =
        (d.resolved l root options, BatchContext.new) :=
    BatchContext.find_new (fun _ => d) 0 l root options
  rw [BatchContext.failureMessage, explanation, run_bind, hFind]
  cases d.resolved l root { includeHidden := true } with
  | error error => rfl
  | ok hidden =>
      simp only
      rw [run_bind, hFind]
      cases d.resolved l root { includePresentational := true } with
      | error error => rfl
      | ok presentational => rfl

theorem findElements_of_parse (h : Locator.parse text = .ok l) :
    d.findElements text root = (d.resolved l root {}).map LookupResult.elements := by
  rw [findElements, Locator.ofText, h]
  simp only [lookup_eq_resolved]
  cases d.resolved l root {} <;> rfl

theorem findElement_of_missed {miss : Miss} (h : Locator.parse text = .ok l)
    (hMissed : d.resolved l root {} = .ok (.missed miss)) :
    d.findElement text root =
      match d.explanation l root miss with
      | .error error => .error error
      | .ok message => .error (.noSuchElement message) := by
  rw [findElement, Locator.ofText, h]
  cases hExplanation : d.explanation l root miss with
  | error error => simp only [lookup_eq_resolved, hMissed, failureMessage_new, hExplanation]
  | ok message => simp only [lookup_eq_resolved, hMissed, failureMessage_new, hExplanation]

/-- A search that finds something finds a first element. -/
theorem exists_first_of_found {options : SearchOptions} {es : List Element}
    (h : d.resolved l root options = .ok (.found es)) : ∃ e rest, es = e :: rest := by
  have hComes := resolved_comes d options l root
  rw [h] at hComes
  exact List.exists_cons_of_ne_nil hComes.1

/-! ## The first match -/

/-- The searches of an explanation: one takes in hidden elements, the other elements below one with
presentational children. -/
def widerOptions : List SearchOptions :=
  [{ includeHidden := true }, { includePresentational := true }]

/-- That the locator in a text matches nothing can be explained: both wider searches come to a
result. -/
def IsExplained (d : Document) (text : String) (root : Element) : Prop :=
  ∀ l, Locator.parse text = .ok l →
    ∀ options ∈ widerOptions, ∃ result, d.lookup l root options = .ok result

/-- What a lookup of the first match comes to, given what a lookup of all matches comes to. -/
inductive Follows (d : Document) (text : String) (root : Element) :
    Except Error (List Element) → Except Error Element → Prop where
  | failed (error : Error) (hKind : error.kind ≠ .noSuchElement) :
      Follows d text root (.error error) (.error error)
  | first (e : Element) (others : List Element) :
      Follows d text root (.ok (e :: others)) (.ok e)
  | explained (message : String) (hExplained : d.IsExplained text root) :
      Follows d text root (.ok []) (.error (.noSuchElement message))
  | refused (hNot : ¬ d.IsExplained text root)
      (hStar : ∃ l, Locator.parse text = .ok l ∧ ∃ n ∈ l.nodes, n.name? = some "*") :
      Follows d text root (.ok []) (.error (.value loneStarMessage))

theorem isExplained_iff (hRead : Locator.parse text = .ok l) :
    d.IsExplained text root ↔
      (∃ result, d.resolved l root { includeHidden := true } = .ok result) ∧
        ∃ result, d.resolved l root { includePresentational := true } = .ok result := by
  have hOnly (l' : Locator) : Locator.parse text = .ok l' ↔ l' = l := by
    rw [hRead]
    exact ⟨fun h => (Except.ok.inj h).symm, fun h => h ▸ rfl⟩
  simp only [IsExplained, hOnly, forall_eq, widerOptions, lookup_eq_resolved, List.mem_cons,
    List.not_mem_nil, or_false, forall_eq_or_imp]

/-- An explanation succeeds with both of its searches and fails with the refusal of one of them. -/
theorem explanation_cases (hRead : Locator.parse text = .ok l) (miss : Miss) :
    (d.IsExplained text root ∧ ∃ message, d.explanation l root miss = .ok message) ∨
      (¬ d.IsExplained text root ∧ d.explanation l root miss = .error (.value loneStarMessage) ∧
        ∃ n ∈ l.nodes, n.name? = some "*") := by
  rw [isExplained_iff hRead, explanation]
  cases hHidden : d.resolved l root { includeHidden := true } with
  | error error =>
      obtain ⟨rfl, hStar⟩ := resolved_error hHidden
      exact Or.inr ⟨by simp, rfl, hStar⟩
  | ok hidden =>
      cases hPresentational : d.resolved l root { includePresentational := true } with
      | error error =>
          obtain ⟨rfl, hStar⟩ := resolved_error hPresentational
          exact Or.inr ⟨by simp, rfl, hStar⟩
      | ok presentational => exact Or.inl ⟨by simp, _, rfl⟩

/-- How the first match follows from all matches. -/
theorem findElement_follows (d : Document) (text : String) (root : Element) :
    d.Follows text root (d.findElements text root) (d.findElement text root) := by
  cases hRead : Locator.parse text with
  | error malformed =>
      rw [findElements, findElement, Locator.ofText, hRead]
      exact Follows.failed malformed.error (fun h => nomatch h)
  | ok l =>
      rw [findElements_of_parse hRead]
      cases hSearch : d.resolved l root {} with
      | error error =>
          obtain ⟨rfl, -⟩ := resolved_error hSearch
          rw [findElement, Locator.ofText, hRead]
          simp only [lookup_eq_resolved, hSearch]
          exact Follows.failed _ (fun h => nomatch h)
      | ok result =>
          cases result with
          | missed miss =>
              rw [findElement_of_missed hRead hSearch]
              rcases explanation_cases hRead miss with
                ⟨hExplained, message, hMessage⟩ | ⟨hNot, hRefusal, hStar⟩
              · rw [hMessage]
                exact Follows.explained message hExplained
              · rw [hRefusal]
                exact Follows.refused hNot ⟨l, hRead, hStar⟩
          | found es =>
              obtain ⟨e, others, rfl⟩ := exists_first_of_found hSearch
              rw [findElement, Locator.ofText, hRead]
              simp only [lookup_eq_resolved, hSearch]
              exact Follows.first e others

/-- The first match is the first of all matches, and an error of one lookup is an error of the
other.  Where nothing matches, the error says that there is no such element exactly if that can be
explained.  If it cannot, the locator has a lone asterisk for a name, and its refusal is the
error. -/
theorem findElement_agrees (d : Document) (text : String) (root : Element) :
    (∀ e, d.findElement text root = .ok e ↔
        ∃ others, d.findElements text root = .ok (e :: others)) ∧
      (∀ error, d.findElements text root = .error error →
        d.findElement text root = .error error) ∧
      ((∃ message, d.findElement text root = .error (.noSuchElement message)) ↔
        d.findElements text root = .ok [] ∧ d.IsExplained text root) ∧
      (d.findElements text root = .ok [] → ¬ d.IsExplained text root →
        d.findElement text root = .error (.value loneStarMessage) ∧
          ∃ l, Locator.parse text = .ok l ∧ ∃ n ∈ l.nodes, n.name? = some "*") := by
  have hFollows := findElement_follows d text root
  generalize d.findElements text root = all at hFollows ⊢
  generalize d.findElement text root = one at hFollows ⊢
  cases hFollows with
  | failed error hKind =>
      refine ⟨by simp, by simp, ?_, by simp⟩
      constructor
      · rintro ⟨message, h⟩
        obtain rfl := Except.error.inj h
        exact absurd rfl hKind
      · simp
  | first e others => simp
  | explained message hExplained => simp [hExplained]
  | refused hNot hStar => simp [hNot, hStar]

/-- A hidden button is not found, and the explanation says that it is there. -/
theorem findElement_agrees_hidden_button :
    let button := Markup.element "button" [("aria-label", "OK"), ("style", "display:none")] []
    let d := Document.ofElement "body" [] [button]
    d.findElements "\x7bbutton 'OK'\x7d" 0 = .ok [] ∧ d.IsExplained "\x7bbutton 'OK'\x7d" 0 ∧
      ∃ message, d.findElement "\x7bbutton 'OK'\x7d" 0 = .error (.noSuchElement message) := by
  intro button d
  let l : Locator := ⟨[(Node.ofRole .button).withName "OK"], []⟩
  have hRead : Locator.parse "\x7bbutton 'OK'\x7d" = .ok l := by decide +kernel
  have hMissed : d.resolved l 0 {} = .ok (.missed ⟨[], none, [0], .role .button⟩) := by
    decide +kernel
  have hHidden : d.resolved l 0 { includeHidden := true } = .ok (.found [1]) := by decide +kernel
  have hPresentational : d.resolved l 0 { includePresentational := true } =
      .ok (.missed ⟨[], none, [0], .role .button⟩) := by
    decide +kernel
  have hNone : d.findElements "\x7bbutton 'OK'\x7d" 0 = .ok [] := by
    rw [findElements_of_parse hRead, hMissed]
    rfl
  have hExplained : d.IsExplained "\x7bbutton 'OK'\x7d" 0 :=
    (isExplained_iff hRead).mpr ⟨⟨_, hHidden⟩, _, hPresentational⟩
  exact ⟨hNone, hExplained, (findElement_agrees d _ 0).2.2.1.mpr ⟨hNone, hExplained⟩⟩

/-- With a lone asterisk for its name the hidden button is in the way of the explanation: nothing
matches, but the error is not that there is no such element. -/
theorem findElement_refuses_hidden_star :
    let button := Markup.element "button" [("aria-label", "OK"), ("style", "display:none")] []
    let d := Document.ofElement "html" [] [.element "head" [] [], .element "body" [] [button]]
    d.findElements "\x7bbutton '*'\x7d" 2 = .ok [] ∧
      d.findElement "\x7bbutton '*'\x7d" 2 = .error (.value loneStarMessage) ∧
      ¬ ∃ message, d.findElement "\x7bbutton '*'\x7d" 2 = .error (.noSuchElement message) := by
  intro button d
  let l : Locator := ⟨[(Node.ofRole .button).withName "*"], []⟩
  have hRead : Locator.parse "\x7bbutton '*'\x7d" = .ok l := by decide +kernel
  have hMissed : d.resolved l 2 {} = .ok (.missed ⟨[], none, [2], .role .button⟩) := by
    decide +kernel
  have hRefused : d.explanation l 2 ⟨[], none, [2], .role .button⟩ =
      .error (.value loneStarMessage) := by
    decide +kernel
  have hError : d.findElement "\x7bbutton '*'\x7d" 2 = .error (.value loneStarMessage) := by
    rw [findElement_of_missed hRead hMissed, hRefused]
  refine ⟨?_, hError, ?_⟩
  · rw [findElements_of_parse hRead, hMissed]
    rfl
  · rintro ⟨message, hOther⟩
    rw [hError] at hOther
    cases hOther

end Document

end AriaLocator
