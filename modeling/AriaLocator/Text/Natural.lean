/-!
# Bounded natural numbers

Sizes and spans are written as decimal digits, with an optional plus sign in front. A number that
does not fit the word it is read into is no number at all, so the reader takes the largest value
that the word can hold.

## Main results

* `readNat?_eq_some_iff`: what is read is a non-empty run of digits with a value in range.
-/

namespace AriaLocator.Text

/-- The value of a digit. -/
def digitValue (c : Char) : Nat := c.toNat - '0'.toNat

/-- The number that a list of digits denotes. -/
def digitsValue (cs : List Char) : Nat :=
  cs.foldl (fun value c => value * 10 + digitValue c) 0

/-- Drops one plus sign from the front. -/
def dropPlus : List Char → List Char
  | '+' :: rest => rest
  | cs => cs

/-- Reads a natural number of at most `largest`: an optional `+`, then digits and nothing else. -/
def readNat? (largest : Nat) (cs : List Char) : Option Nat :=
  if dropPlus cs ≠ [] ∧ (dropPlus cs).all Char.isDigit = true ∧
      digitsValue (dropPlus cs) ≤ largest then
    some (digitsValue (dropPlus cs))
  else none

theorem readNat?_eq_some_iff {largest value : Nat} {cs : List Char} :
    readNat? largest cs = some value ↔
      dropPlus cs ≠ [] ∧ (dropPlus cs).all Char.isDigit = true ∧
        digitsValue (dropPlus cs) = value ∧ value ≤ largest := by
  rw [readNat?]
  split
  · next h =>
    simp only [Option.some.injEq]
    exact ⟨fun hv => ⟨h.1, h.2.1, hv, hv ▸ h.2.2⟩, fun hv => hv.2.2.1⟩
  · next h =>
    simp only [reduceCtorEq, false_iff]
    rintro ⟨hne, hall, rfl, hle⟩
    exact h ⟨hne, hall, hle⟩

/-- The largest value of an unsigned word of `bits` bits. -/
def largestWord (bits : Nat) : Nat := Nat.pow 2 bits - 1

end AriaLocator.Text
