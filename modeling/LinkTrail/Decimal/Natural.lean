import LinkTrail.Text.Digit

namespace LinkTrail.Decimal

def maxDigits : Nat := 4300

def ofDigits (digits : List Nat) : Nat :=
  digits.foldl (fun n d => 10 * n + d) 0

def natural? (s : List Char) : Option Nat :=
  match s.mapM Text.asciiDigit? with
  | none => none
  | some digits =>
      if digits = [] ∨ maxDigits < digits.length then none else some (ofDigits digits)

end LinkTrail.Decimal
