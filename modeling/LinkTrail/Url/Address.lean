import LinkTrail.Decimal.Natural
import LinkTrail.Text.Cut

namespace LinkTrail.Address

open LinkTrail.Text

def isHexDigit (c : Char) : Bool :=
  c.isDigit || ('a' ≤ c && c ≤ 'f') || ('A' ≤ c && c ≤ 'F')

/-- At most three digits without a leading zero, and at most 255. -/
def isOctet (s : List Char) : Bool :=
  s.length ≤ 3 && (s = ['0'] || s.head? ≠ some '0') &&
    (Decimal.natural? s).any (· ≤ 255)

def isIpv4 (s : List Char) : Bool :=
  (split '.' s).length = 4 && (split '.' s).all isOctet

def isHextet (s : List Char) : Bool :=
  s ≠ [] && s.length ≤ 4 && s.all isHexDigit

/-- The groups with a dotted last group counted as two; `none` if that group is not an address. -/
def expandDotted? : List (List Char) → Option (List (List Char))
  | [] => some []
  | [last] =>
      if '.' ∈ last then if isIpv4 last then some [['0'], ['0']] else none else some [last]
  | group :: groups => (expandDotted? groups).map (group :: ·)

def sideLength? (groups : List (List Char)) : Option Nat :=
  if groups = [[]] then some 0
  else if groups.all isHextet then some groups.length
  else none

def cutSkipped? : List (List Char) → Option (List (List Char) × List (List Char))
  | [] => none
  | first :: rest =>
      match cut? [] rest.dropLast with
      | none => none
      | some (before, after) => some (first :: before, after ++ rest.drop (rest.length - 1))

/-- Eight groups, or fewer around one double colon. -/
def areIpv6Groups (groups : List (List Char)) : Bool :=
  groups.length ≤ 9 &&
    match cutSkipped? groups with
    | none => groups.length = 8 && groups.all isHextet
    | some (high, low) =>
        match sideLength? high, sideLength? low with
        | some m, some n => m + n ≤ 7
        | _, _ => false

/-- An address, and after a percent sign a zone that is neither empty nor has another such sign. -/
def isIpv6 (s : List Char) : Bool :=
  let (address, zoneOk) :=
    match cut? '%' s with
    | none => (s, true)
    | some (address, zone) => (address, zone ≠ [] && '%' ∉ zone)
  let groups := split ':' address
  zoneOk && 3 ≤ groups.length && (expandDotted? groups).any areIpv6Groups

/-- The form reserved for later versions: a `v`, a hexadecimal number, a dot and more text. -/
def isFuture : List Char → Bool
  | 'v' :: rest =>
      match cut? '.' rest with
      | none => false
      | some (version, text) =>
          version ≠ [] && version.all isHexDigit && text ≠ [] && '\n' ∉ text
  | _ => false

end LinkTrail.Address
