import LinkTrail.Candidate
import LinkTrail.Text.Blank
import LinkTrail.Url.Host
import LinkTrail.Url.Split

/-! The form of a URL in which it is compared with others. -/

namespace LinkTrail.Url

open LinkTrail.Text

def specialSchemes : List (List Char) := schemeList ["http", "https", "ws", "wss", "ftp"]

def renderHost (host : List Char) : List Char :=
  if ':' ∈ host then '[' :: (host ++ [']']) else host

def normalAuthority (u : Url) : List Char :=
  match u.host? with
  | none => u.authority
  | some host =>
      if u.userInfo = [] then renderHost host else u.userInfo ++ '@' :: renderHost host

def normal? (u : Url) : Option Url :=
  if u.hasValidPort = false ∨ u.scheme = [] then none
  else if specialSchemes.contains u.scheme then
    if u.host? = none then none
    else
      some
        { scheme := u.scheme, authority := u.normalAuthority
          path := if u.path = [] then ['/'] else u.path }
  else if u.authority = [] ∧ u.path = [] then none
  else some { scheme := u.scheme, authority := u.normalAuthority, path := u.path }

def normalText? (s : List Char) : Option (List Char) :=
  match Url.split (strip s) with
  | .error _ => none
  | .ok u => u.normal?.map render

structure NotAbsolute where
  value : Candidate
deriving DecidableEq, Repr

def NotAbsolute.message (e : NotAbsolute) : String :=
  "Invalid absolute URL: " ++ e.value.shown

/-- Lowers the scheme and the host, and drops the query, the fragment and the number behind the
host. -/
def normalize (value : Candidate) : Except NotAbsolute String :=
  match value.text?.bind fun s => normalText? s.toList with
  | some normal => .ok (String.ofList normal)
  | none => .error ⟨value⟩

end LinkTrail.Url
