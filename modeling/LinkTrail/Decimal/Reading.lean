import LinkTrail.Decimal.Natural
import LinkTrail.Text.Blank
import LinkTrail.Text.Cut

namespace LinkTrail.Decimal

open LinkTrail.Text

/-- Beyond the basic set, digits of all scripts count as digits and white space as spaces. -/
def plainChar (c : Char) : Char :=
  if c.toNat < 0x7f then c
  else
    match digit? c with
    | some d => Char.ofNat ('0'.toNat + d)
    | none => if isBlank c then ' ' else c

def bare (s : List Char) : List Char := trim isAsciiBlank (s.map plainChar)

def cutSign : List Char → Bool × List Char
  | '-' :: rest => (true, rest)
  | '+' :: rest => (false, rest)
  | s => (false, s)

/-- The text without underscores, each of which has to stand between two digits. -/
def withoutUnderscores? : List Char → Option (List Char)
  | [] => some []
  | [c] => if c = '_' then none else some [c]
  | c :: d :: rest =>
      if c = '_' then none
      else if d = '_' then
        match rest with
        | e :: _ =>
            if c.isDigit ∧ e.isDigit then (withoutUnderscores? rest).map (c :: ·) else none
        | [] => none
      else (withoutUnderscores? (d :: rest)).map (c :: ·)

def integer? (word : String) : Option Int := do
  let (negative, rest) := cutSign (bare word.toList)
  let n ← natural? (← withoutUnderscores? rest)
  return if negative then -n else n

def infinity : Float := 1 / 0

/-- The value `digits * 10 ^ power`, where out of reach of the exponent zero or infinity. -/
def scaled (digits : List Nat) (power : Int) : Float :=
  let n := ofDigits digits
  let length : Int := (digits.dropWhile (· = 0)).length
  if n = 0 ∨ length + power < -400 then 0
  else if 400 < length + power then infinity
  else Float.ofScientific n (power < 0) power.natAbs

def exponent? : Option (List Char) → Option Int
  | none => some 0
  | some s => do
      let (negative, rest) := cutSign s
      if rest = [] then none
      else
        let n := ofDigits (← rest.mapM asciiDigit?)
        return if negative then -n else n

def unsignedFloat? (s : List Char) : Option Float := do
  let (mantissa, exponent) :=
    match cut? 'e' (s.map Char.toLower) with
    | some (mantissa, exponent) => (mantissa, some exponent)
    | none => (s, none)
  let (whole, fraction) := cut '.' mantissa
  let digits ← (whole ++ fraction).mapM asciiDigit?
  if digits = [] then none
  else return scaled digits ((← exponent? exponent) - fraction.length)

def float? (word : String) : Option Float := do
  let (negative, rest) := cutSign (← withoutUnderscores? (bare word.toList))
  let name := String.ofList (rest.map Char.toLower)
  let x ←
    if name = "inf" ∨ name = "infinity" then some infinity
    else if name = "nan" then some (0 / 0)
    else unsignedFloat? rest
  return if negative then -x else x

def isNegativeNumber (s : List Char) : Bool :=
  let s := if s.getLast? = some '\n' then s.dropLast else s
  match s with
  | '-' :: rest =>
      match cut? '.' rest with
      | none => rest ≠ [] && rest.all fun c => (digit? c).isSome
      | some (whole, fraction) =>
          fraction ≠ [] && (whole ++ fraction).all fun c => (digit? c).isSome
  | _ => false

end LinkTrail.Decimal
