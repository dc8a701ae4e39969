import AriaLocator.Proofs.Generator.Target
import AriaLocator.Proofs.Lookup.Meaning

/-!
# What narrowing keeps

The chain of a precise locator grows and shrinks: the ascent puts the node of an ancestor in front
or leaves it out, and the pruning drops a node or keeps it.  Which of the two happens depends on
numbers of matches.  What holds of a chain in either case survives the whole of it, whatever the
numbers are.

So there is one induction over the ascent and one over the pruning, each for any invariant that its
single step keeps.  An invariant of the ascent may speak of the ancestors that are still ahead.

## Main results

* `ascend_step`: what a step of the ascent does, and why.
* `ascend_invariant`: what a step of the ascent keeps holds of the chain in the end.
* `dropRedundant_invariant`: so does what is kept when a node is dropped, unless it is the last.
* `dropRedundant_length_le`: the pruning leaves no more matches than there were.
* `fullChain_forall`, `dropRedundant_forall`: what holds of every node of an element holds of the
  nodes of a chain.
-/

namespace AriaLocator

namespace Document

/-- A plain search that comes to a value has come to a value in its first part. -/
theorem exists_of_run_bind {α β : Type} {search : ExceptT Error Id α}
    {next : α → ExceptT Error Id β} {result : β} (h : (search >>= next).run = .ok result) :
    ∃ value, search.run = .ok value ∧ (next value).run = .ok result := by
  cases hRun : search.run with
  | error error =>
      rw [run_bind_of_error next hRun] at h
      cases h
  | ok value =>
      rw [run_bind_of_ok next hRun] at h
      exact ⟨value, rfl, h⟩

variable {d : Document} {r : Resolver Id} {root : Element}

theorem nodeOf?_built {e : Element} {n : Node} (h : d.nodeOf? r e = some n) : n.Built := by
  obtain ⟨-, role, -, rfl⟩ := nodeOf?_eq_some_iff.mp h
  exact Node.Built.withName _ (Node.Built.ofRole role)

/-! ## The ascent -/

/-- All that one step of the ascent can do at an ancestor, with the reasons. -/
inductive AscentStep (d : Document) (r : Resolver Id) (root : Element) (nodes : List Node)
    (found : List Element) (a : Element) (rest : List Element) (result : List Node) : Prop where
  /-- The ancestor has no node. -/
  | unnamed (hNode : d.nodeOf? r a = none)
      (hRest : (d.ascend r root nodes found rest).run = .ok result)
  /-- All matches lie in the ancestor, and the ascent ends. -/
  | ended {n : Node} (hNode : d.nodeOf? r a = some n)
      (hAll : ∀ x ∈ found, d.contains a x = true) (hResult : result = nodes)
  /-- Some match lies elsewhere, but the node of the ancestor would not narrow the matches, and
  stays out. -/
  | passed {n : Node} {narrower : List Element} (hNode : d.nodeOf? r a = some n)
      (hFound : (matchesOf r root ⟨n :: nodes, []⟩).run = .ok narrower)
      (hCount : found.length ≤ narrower.length)
      (hRest : (d.ascend r root nodes found rest).run = .ok result)
      (hOutside : ∃ x ∈ found, d.contains a x = false)
  /-- Some match lies elsewhere, and the node of the ancestor narrows the matches and goes in
  front. -/
  | taken {n : Node} {narrower : List Element} (hNode : d.nodeOf? r a = some n)
      (hFound : (matchesOf r root ⟨n :: nodes, []⟩).run = .ok narrower)
      (hCount : narrower.length < found.length)
      (hRest : (d.ascend r root (n :: nodes) narrower rest).run = .ok result)
      (hOutside : ∃ x ∈ found, d.contains a x = false)

theorem ascend_step {nodes result : List Node} {found : List Element} {a : Element}
    {rest : List Element} (h : (d.ascend r root nodes found (a :: rest)).run = .ok result) :
    d.AscentStep r root nodes found a rest result := by
  rw [ascend] at h
  obtain ⟨node?, hNode?, h⟩ := exists_of_run_bind h
  obtain rfl : d.nodeOf? r a = node? := Except.ok.inj hNode?
  cases hNode : d.nodeOf? r a with
  | none =>
      rw [hNode] at h
      exact AscentStep.unnamed hNode h
  | some n =>
      rw [hNode] at h
      simp only at h
      split at h
      · next hAll =>
        exact AscentStep.ended hNode (List.all_eq_true.mp hAll) (Except.ok.inj h).symm
      · next hNotAll =>
        have hOutside : ∃ x ∈ found, d.contains a x = false := by
          simpa using hNotAll
        obtain ⟨narrower, hFound, hNext⟩ := exists_of_run_bind h
        split at hNext
        · next hCount => exact AscentStep.taken hNode hFound hCount hNext hOutside
        · next hCount =>
          exact AscentStep.passed hNode hFound (Nat.le_of_not_lt hCount) hNext hOutside

/-- What every step of the ascent keeps holds in the end, of the chain and of the ancestors that are
then still ahead. -/
theorem ascend_invariant (inv : List Element → List Node → Prop)
    (hPass : ∀ {a rest nodes}, inv (a :: rest) nodes → inv rest nodes)
    (hTake : ∀ {a rest nodes n narrower}, inv (a :: rest) nodes → d.nodeOf? r a = some n →
      (matchesOf r root ⟨n :: nodes, []⟩).run = .ok narrower → inv rest (n :: nodes))
    {ahead found : List Element} {nodes result : List Node} (h : inv ahead nodes)
    (hRun : (d.ascend r root nodes found ahead).run = .ok result) :
    ∃ left, inv left result := by
  induction ahead generalizing nodes found with
  | nil =>
      obtain rfl : nodes = result := Except.ok.inj hRun
      exact ⟨[], h⟩
  | cons a rest ih =>
      cases ascend_step hRun with
      | unnamed _ hRest => exact ih (hPass h) hRest
      | ended _ _ hResult => exact ⟨a :: rest, hResult ▸ h⟩
      | passed _ _ _ hRest => exact ih (hPass h) hRest
      | taken hNode hFound _ hRest => exact ih (hTake h hNode hFound) hRest

/-! ## The pruning -/

/-- What is kept when a node before another one is dropped survives the pruning. A node is only
dropped where that leaves no more than `count` matches. -/
theorem dropRedundantAfter_invariant (inv : List Node → Prop) {count : Nat}
    (hDrop : ∀ {kept n next rest without}, inv (kept ++ n :: next :: rest) →
      (matchesOf r root ⟨kept ++ next :: rest, []⟩).run = .ok without → without.length ≤ count →
      inv (kept ++ next :: rest))
    {kept nodes result : List Node} (h : inv (kept ++ nodes))
    (hRun : (dropRedundantAfter r root count kept nodes).run = .ok result) : inv result := by
  induction nodes generalizing kept with
  | nil =>
      obtain rfl : kept = result := Except.ok.inj hRun
      rwa [List.append_nil] at h
  | cons n rest ih =>
      cases rest with
      | nil =>
          obtain rfl : kept ++ [n] = result := Except.ok.inj hRun
          exact h
      | cons next rest =>
          rw [dropRedundantAfter] at hRun
          obtain ⟨without, hWithout, hNext⟩ := exists_of_run_bind hRun
          split at hNext
          · have hKept : inv ((kept ++ [n]) ++ next :: rest) := by
              rw [List.append_assoc]
              exact h
            exact ih hKept hNext
          · next hCount => exact ih (hDrop h hWithout (Nat.le_of_not_lt hCount)) hNext

/-- Of the nodes before the last one, too, only a node is dropped. -/
theorem dropLast_sublist_of_drop (kept rest : List Node) (n next : Node) :
    (kept ++ next :: rest).dropLast.Sublist (kept ++ n :: next :: rest).dropLast := by
  rw [List.dropLast_append_cons, List.dropLast_append_cons, List.dropLast_cons_cons]
  exact (List.sublist_cons_self n _).append_left kept

/-- So it holds of the chain in the end, whatever the matches are. -/
theorem dropRedundant_invariant (inv : List Node → Prop)
    (hDrop : ∀ {kept n next rest}, inv (kept ++ n :: next :: rest) → inv (kept ++ next :: rest))
    {pinFirst : Bool} {nodes result : List Node} (h : inv nodes)
    (hRun : (dropRedundant r root pinFirst nodes).run = .ok result) : inv result := by
  unfold dropRedundant at hRun
  split at hRun
  · obtain rfl : nodes = result := Except.ok.inj hRun
    exact h
  · obtain ⟨found, -, hNext⟩ := exists_of_run_bind hRun
    have hAll : inv (nodes.take pinFirst.toNat ++ nodes.drop pinFirst.toNat) := by
      rwa [List.take_append_drop]
    exact dropRedundantAfter_invariant inv (fun hInv _ _ => hDrop hInv) hAll hNext

/-- The pruning leaves no more matches than there were. -/
theorem dropRedundant_length_le {pinFirst : Bool} {nodes result : List Node} {found : List Element}
    (hFound : (matchesOf r root ⟨nodes, []⟩).run = .ok found)
    (hRun : (dropRedundant r root pinFirst nodes).run = .ok result) :
    ∃ left, (matchesOf r root ⟨result, []⟩).run = .ok left ∧ left.length ≤ found.length := by
  unfold dropRedundant at hRun
  split at hRun
  · obtain rfl : nodes = result := Except.ok.inj hRun
    exact ⟨found, hFound, Nat.le_refl _⟩
  · obtain ⟨again, hAgain, hNext⟩ := exists_of_run_bind hRun
    obtain rfl : found = again := Except.ok.inj (hFound.symm.trans hAgain)
    have hStart : ∃ left, (matchesOf r root
        ⟨nodes.take pinFirst.toNat ++ nodes.drop pinFirst.toNat, []⟩).run = .ok left ∧
        left.length ≤ found.length := by
      rw [List.take_append_drop]
      exact ⟨found, hFound, Nat.le_refl _⟩
    exact dropRedundantAfter_invariant
      (fun chain => ∃ left, (matchesOf r root ⟨chain, []⟩).run = .ok left ∧
        left.length ≤ found.length)
      (fun _ hWithout hCount => ⟨_, hWithout, hCount⟩) hStart hNext

/-- In the end `outer` goes in front of all nodes, if that leaves the element among fewer matches,
or stays away. -/
theorem addOuter_cases {nodes : List Node} {e : Element} {l : Locator}
    (h : (addOuter r root nodes e).run = .ok l) :
    ∃ plain outer, (matchesOf r root ⟨nodes, []⟩).run = .ok plain ∧
      (matchesOf r root ⟨[], nodes⟩).run = .ok outer ∧
      (l = ⟨[], nodes⟩ ∧ e ∈ outer ∧ outer.length < plain.length ∨
        l = ⟨nodes, []⟩ ∧ (e ∈ outer → plain.length ≤ outer.length)) := by
  obtain ⟨plain, hPlain, h⟩ := exists_of_run_bind h
  obtain ⟨outer, hOuter, h⟩ := exists_of_run_bind h
  refine ⟨plain, outer, hPlain, hOuter, ?_⟩
  split at h
  · next hBoth =>
    exact Or.inl ⟨(Except.ok.inj h).symm, List.contains_iff_mem.mp hBoth.1, hBoth.2⟩
  · next hNot =>
    refine Or.inr ⟨(Except.ok.inj h).symm, fun he => Nat.le_of_not_lt fun hLess => ?_⟩
    exact hNot ⟨List.contains_iff_mem.mpr he, hLess⟩

/-! ## Built nodes -/

theorem target?_built {e : Element} {t : Located} (h : d.target? r root e = some t) :
    t.node.Built :=
  nodeOf?_built (targets_of_target? h).located.2

/-- A chain consists of nodes of elements, so what holds of all of these holds of its nodes. -/
theorem fullChain_forall {P : Node → Prop} (hOwn : ∀ {a n}, d.nodeOf? r a = some n → P n)
    {target : Located} {nodes : List Node} (hTarget : P target.node)
    (h : (d.fullChain r root target).run = .ok nodes) : ∀ n ∈ nodes, P n := by
  obtain ⟨found, -, hAscend⟩ := exists_of_run_bind h
  obtain ⟨-, hNodes⟩ := ascend_invariant (fun _ nodes => ∀ n ∈ nodes, P n)
    (fun hNodes => hNodes)
    (fun hNodes hNode _ => List.forall_mem_cons.mpr ⟨hOwn hNode, hNodes⟩)
    (fun n hn => List.mem_singleton.mp hn ▸ hTarget) hAscend
  exact hNodes

theorem forall_of_drop {P : Node → Prop} {kept rest : List Node} {n next : Node}
    (h : ∀ n' ∈ kept ++ n :: next :: rest, P n') : ∀ n' ∈ kept ++ next :: rest, P n' := by
  intro n' hn'
  exact h n' (((List.sublist_cons_self n (next :: rest)).append_left kept).subset hn')

theorem dropRedundant_forall {P : Node → Prop} {pinFirst : Bool} {nodes required : List Node}
    (hNodes : ∀ n ∈ nodes, P n) (h : (dropRedundant r root pinFirst nodes).run = .ok required) :
    ∀ n ∈ required, P n :=
  dropRedundant_invariant (fun nodes => ∀ n ∈ nodes, P n) forall_of_drop hNodes h

end Document

end AriaLocator
