/-!
# Hexadecimal digits

Escapes write the code of a character in hexadecimal digits, with small letters and without leading
zeros.
-/

namespace AriaLocator.Text

/-- The hexadecimal digit of a number below sixteen. -/
def hexDigit (n : Nat) : Char := if n < 10 then Char.ofNat (48 + n) else Char.ofNat (87 + n)

/-- The hexadecimal digits of a number. -/
def hexDigits (n : Nat) : List Char :=
  if n < 16 then [hexDigit n] else hexDigits (n / 16) ++ [hexDigit (n % 16)]

end AriaLocator.Text
