import AriaLocator.Error

/-!
# Errors as texts

The extended message of an error is the name of its kind, a colon with a space behind it, and what
the error says.  Reading takes such a text apart at the first colon that a space follows.  The
message may hold further ones, and also names of kinds, line breaks or nothing at all.  The first
colon is the right one because no name of a kind holds any.

One kind has a message of its own, so that its text is read whatever it goes on with.  Every other
error is read from its extended message and from no other text.

## Main results

* `ofExtendedMessage?_eq_some_iff`: the texts from which an error is read.
* `extendedMessage_inverse`: putting an error into a text and reading it back are inverse.
-/

namespace AriaLocator

namespace ErrorKind

theorem name_of_ofName? {s : String} {kind : ErrorKind} (h : ofName? s = some kind) :
    kind.name = s := by
  simpa using List.find?_some h

theorem colon_not_mem_name (kind : ErrorKind) : ':' ∉ kind.name.toList := by
  cases kind <;> decide

end ErrorKind

namespace Error

variable {e : Error} {t : String}

/-! ## Cutting at the first colon -/

/-- Nothing is lost where a text is cut, but for the colon and the space. -/
theorem append_of_splitAtColon? {cs left right : List Char}
    (h : splitAtColon? cs = some (left, right)) : cs = left ++ ':' :: ' ' :: right := by
  fun_induction splitAtColon? cs generalizing left with
  | case1 rest =>
      obtain ⟨rfl, rfl⟩ := Prod.mk.inj (Option.some.inj h)
      rfl
  | case2 => cases h
  | case3 c cs _ ih =>
      obtain ⟨⟨left', right'⟩, hSplit, hSame⟩ := Option.map_eq_some_iff.mp h
      obtain ⟨rfl, rfl⟩ := Prod.mk.inj hSame
      rw [ih hSplit, List.cons_append]

/-- A part without a colon is not cut. -/
theorem splitAtColon?_append {left : List Char} (h : ':' ∉ left) (right : List Char) :
    splitAtColon? (left ++ ':' :: ' ' :: right) = some (left, right) := by
  induction left with
  | nil => rfl
  | cons c left ih =>
      obtain ⟨hHead, hTail⟩ := not_or.mp (mt List.mem_cons.mpr h)
      have hOther : ∀ rest, c = ':' → left ++ ':' :: ' ' :: right = ' ' :: rest → False :=
        fun _ hColon _ => hHead hColon.symm
      rw [List.cons_append, splitAtColon?.eq_3 _ _ hOther, ih hTail, Option.map_some]

/-! ## Reading errors -/

theorem ofKind_kind (e : Error) : ofKind e.kind e.message = e := by
  cases e <;> rfl

/-- All kinds but one keep the message that they are given. -/
theorem message_ofKind {kind : ErrorKind} (h : kind ≠ .batchInProgress) (message : String) :
    (ofKind kind message).message = message := by
  cases kind with
  | batchInProgress => exact absurd rfl h
  | invalidLocator | noSuchElement | value | html => rfl

/-- An error is read from the name of a kind with a message behind it, and from nothing else. -/
theorem ofExtendedMessage?_eq_some_iff :
    ofExtendedMessage? t = some e ↔
      ∃ kind message, t = kind.name ++ ": " ++ message ∧ ofKind kind message = e := by
  unfold ofExtendedMessage?
  constructor
  · intro h
    obtain ⟨⟨name, message⟩, hSplit, hRead⟩ := Option.bind_eq_some_iff.mp h
    obtain ⟨kind, hKind, hError⟩ := Option.map_eq_some_iff.mp hRead
    have hName := ErrorKind.name_of_ofName? hKind
    refine ⟨kind, String.ofList message, ?_, hError⟩
    rw [String.ext_iff, append_of_splitAtColon? hSplit, hName]
    simp
  · rintro ⟨kind, message, rfl, rfl⟩
    have hText : (kind.name ++ ": " ++ message).toList =
        kind.name.toList ++ ':' :: ' ' :: message.toList := by simp
    rw [hText, splitAtColon?_append kind.colon_not_mem_name]
    simp [ErrorKind.ofName?_name]

/--
Every error is read back from its extended message, whatever it says.  A text from which an error is
read is its extended message, unless the kind of the error has a message of its own.
-/
theorem extendedMessage_inverse (e : Error) :
    ofExtendedMessage? e.extendedMessage = some e ∧
      ∀ t, ofExtendedMessage? t = some e → e ≠ .batchInProgress → e.extendedMessage = t := by
  constructor
  · rw [ofExtendedMessage?_eq_some_iff]
    exact ⟨e.kind, e.message, rfl, ofKind_kind e⟩
  · intro t h hOther
    obtain ⟨kind, message, rfl, rfl⟩ := ofExtendedMessage?_eq_some_iff.mp h
    have hKind : kind ≠ .batchInProgress := by
      rintro rfl
      exact hOther rfl
    rw [extendedMessage, kind_ofKind, message_ofKind hKind]

/-- A message may begin like an extended message, and hold a line break and further colons. -/
theorem extendedMessage_inverse_nested :
    let e := Error.value "ValueError: none: \nHtmlError: "
    ofExtendedMessage? e.extendedMessage = some e ∧
      ofExtendedMessage? "ValueError: ValueError: none: \nHtmlError: " = some e ∧
      e ≠ .batchInProgress ∧
      e.extendedMessage = "ValueError: ValueError: none: \nHtmlError: " := by
  intro e
  have hRead : ofExtendedMessage? "ValueError: ValueError: none: \nHtmlError: " = some e := by
    decide +kernel
  have hOther : e ≠ .batchInProgress := by decide
  exact ⟨(extendedMessage_inverse e).1, hRead, hOther,
    (extendedMessage_inverse e).2 _ hRead hOther⟩

end Error

end AriaLocator
