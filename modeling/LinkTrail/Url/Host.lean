import LinkTrail.Decimal.Natural
import LinkTrail.Text.Cut
import LinkTrail.Text.Lower
import LinkTrail.Url.Basic

namespace LinkTrail.Url

open LinkTrail.Text

def hostAndPort (authority : List Char) : List Char × List Char :=
  let place := afterLast '@' authority
  match cut? '[' place with
  | some (_, rest) =>
      let (host, after) := cut ']' rest
      (host, (cut ':' after).2)
  | none => cut ':' place

/-- The host in lower case, apart from a zone. -/
def lowerHost (host : List Char) : List Char :=
  match cut? '%' host with
  | none => lower host
  | some (address, zone) => lower address ++ '%' :: zone

def host? (u : Url) : Option (List Char) :=
  match (hostAndPort u.authority).1 with
  | [] => none
  | host => some (lowerHost host)

/-- Nothing need stand behind the host; what stands there is a number up to 65535. -/
def hasValidPort (u : Url) : Bool :=
  match (hostAndPort u.authority).2 with
  | [] => true
  | digits => (Decimal.natural? digits).any (· ≤ 65535)

def userInfo (u : Url) : List Char :=
  ((cutLast? '@' u.authority).map Prod.fst).getD []

end LinkTrail.Url
