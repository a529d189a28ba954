import LinkTrail.Url.Address
import LinkTrail.Url.Basic

namespace LinkTrail.Url

open LinkTrail.Text

/-! Characters without a place in a URL are dropped first. -/

/-- Controls and the space do not count at the start, tabs and line ends nowhere. -/
def cleaned (s : List Char) : List Char :=
  (s.dropWhile (· ≤ ' ')).filter fun c => c ≠ '\t' ∧ c ≠ '\r' ∧ c ≠ '\n'

def isSchemeChar (c : Char) : Bool :=
  c.isAlphanum || c = '+' || c = '-' || c = '.'

def isSchemeName : List Char → Bool
  | [] => false
  | c :: rest => c.isAlpha && rest.all isSchemeChar

def cutScheme (default s : List Char) : List Char × List Char :=
  match cut? ':' s with
  | none => (default, s)
  | some (name, rest) =>
      if isSchemeName name then (name.map Char.toLower, rest) else (default, s)

def endsAuthority (c : Char) : Bool := c = '/' || c = '?' || c = '#'

def cutAuthority : List Char → List Char × List Char
  | '/' :: '/' :: rest => rest.span fun c => !endsAuthority c
  | s => ([], s)

/-- The host between the brackets of an authority that has some; without an opening bracket
behind the user information, what stands before the first colon. -/
def bracketedHost (authority : List Char) : Except Error (List Char) :=
  let place := afterLast '@' authority
  match cut? '[' place with
  | none => .ok (cut ':' place).1
  | some ([], rest) =>
      let (host, after) := cut ']' rest
      if after = [] ∨ after.head? = some ':' then .ok host else .error .brackets
  | some _ => .error .brackets

def checkBracketedHost (host : List Char) : Except Error Unit :=
  if host.head? = some 'v' then
    if Address.isFuture host then .ok () else .error .futureAddress
  else if Address.isIpv4 host then .error .bracketedIpv4
  else if Address.isIpv6 host then .ok ()
  else .error (.notAnAddress host)

def checkBrackets (authority : List Char) : Except Error Unit :=
  if '[' ∈ authority ∧ ']' ∈ authority then
    bracketedHost authority >>= checkBracketedHost
  else if '[' ∈ authority ∨ ']' ∈ authority then .error .brackets
  else .ok ()

/-- The characters whose compatibility decomposition holds a slash, a question mark, a number
sign, an at sign or a colon, and which could pass for one. -/
def lookAlikes : List Char :=
  ['\u2047', '\u2048', '\u2049', '\u2100', '\u2101', '\u2105', '\u2106', '\u2a74', '\ufe13',
  '\ufe16', '\ufe55', '\ufe56', '\ufe5f', '\ufe6b', '\uff03', '\uff0f', '\uff1a', '\uff1f',
  '\uff20']

def checkLookAlikes (authority : List Char) : Except Error Unit :=
  if authority.any (· ∈ lookAlikes) then .error (.lookAlike authority) else .ok ()

def checkAuthority (authority : List Char) : Except Error Unit :=
  checkBrackets authority >>= fun _ => checkLookAlikes authority

/-- The parts of a text before they are checked; `default` is the scheme of one that names none. -/
def cutParts (default text : List Char) : Url :=
  let (scheme, rest) := cutScheme default (cleaned text)
  let (authority, rest) := cutAuthority rest
  let (rest, fragment) := cut '#' rest
  let (path, query) := cut '?' rest
  ⟨scheme, authority, path, query, fragment⟩

def splitWith (default text : List Char) : Except Error Url :=
  let u := cutParts default text
  (checkAuthority u.authority).map fun _ => u

def split (text : List Char) : Except Error Url := splitWith [] text

end LinkTrail.Url
