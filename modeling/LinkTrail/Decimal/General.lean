/-! Numbers in general form: six significant digits, and an exponent only where it is needed. -/

namespace LinkTrail.Decimal

/-- The quotient rounded to the nearest natural number, a half to the even one. -/
def roundQuotient (num den : Nat) : Nat :=
  let q := num / den
  let r := num % den
  if 2 * r < den ∨ (2 * r = den ∧ q % 2 = 0) then q else q + 1

def digitCount (n : Nat) : Nat := (Nat.toDigits 10 n).length

def leadingPower (num den : Nat) : Int :=
  if den ≤ num then digitCount (num / den) - 1
  else
    let shift := digitCount (den / num) - 1
    if den ≤ num * Nat.pow 10 shift then -shift else -(shift + 1)

def significantDigits : Nat := 6

def significant (num den : Nat) : Nat × Int :=
  let power := leadingPower num den
  let scale := significantDigits - 1 - power
  let n :=
    if 0 ≤ scale then roundQuotient (num * Nat.pow 10 scale.toNat) den
    else roundQuotient num (den * Nat.pow 10 (-scale).toNat)
  if n = Nat.pow 10 significantDigits then (n / 10, power + 1) else (n, power)

def withoutTrailingZeros (digits : List Char) : List Char :=
  (digits.reverse.dropWhile (· = '0')).reverse

def withPoint (whole : Nat) (digits : List Char) : List Char :=
  match withoutTrailingZeros (digits.drop whole) with
  | [] => digits.take whole
  | rest => digits.take whole ++ '.' :: rest

def renderExponent (power : Int) : List Char :=
  (if power < 0 then '-' else '+') ::
    ((if power.natAbs < 10 then ['0'] else []) ++ Nat.toDigits 10 power.natAbs)

/-- A positive quotient: positional from ten thousandths up to a million. -/
def renderQuotient (num den : Nat) : List Char :=
  let (n, power) := significant num den
  let digits := Nat.toDigits 10 n
  if power < -4 ∨ (significantDigits : Int) ≤ power then
    withPoint 1 digits ++ 'e' :: renderExponent power
  else if power < 0 then
    withPoint 1 (List.replicate (-power).toNat '0' ++ digits)
  else withPoint (power.toNat + 1) digits

/-- A floating-point number: sign, exponent and fraction bits decide the exact value. -/
def renderFloat (x : Float) : String :=
  let bits := x.toBits.toNat
  let sign := if Nat.pow 2 63 ≤ bits then "-" else ""
  let exponent := bits / Nat.pow 2 52 % Nat.pow 2 11
  let fraction := bits % Nat.pow 2 52
  if exponent = Nat.pow 2 11 - 1 then
    if fraction = 0 then sign ++ "inf" else "nan"
  else if exponent = 0 ∧ fraction = 0 then sign ++ "0"
  else
    let mantissa := if exponent = 0 then fraction else fraction + Nat.pow 2 52
    -- the value is `mantissa * 2 ^ (max exponent 1 - 1075)`
    let power := max exponent 1
    sign ++ String.ofList
      (if 1075 ≤ power then renderQuotient (mantissa * Nat.pow 2 (power - 1075)) 1
      else renderQuotient mantissa (Nat.pow 2 (1075 - power)))

end LinkTrail.Decimal
