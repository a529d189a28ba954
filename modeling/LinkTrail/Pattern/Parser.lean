import LinkTrail.Pattern.Basic
import LinkTrail.Text.Cut
import LinkTrail.Text.Quoted

namespace LinkTrail.Pattern

open LinkTrail.Text

def Error.message (e : Error) : String :=
  "Invalid match pattern, " ++ e.fault.message ++ ": " ++ quoted e.text

/-! The shape of a text is looked at without regard to case, and some letters beyond the basic
alphabet count as an `s`, an `i` or a `k` there. -/

def looseLower (c : Char) : Char :=
  if c = 'ſ' then 's'
  else if c = 'İ' ∨ c = 'ı' then 'i'
  else if c = '\u212a' then 'k'
  else c.toLower

def looksLike (word : String) (s : List Char) : Bool :=
  s.map looseLower = word.toList

/-- A host is `*`, or a text without `*`; a leading `*.` stands for any subdomain. -/
def readHost? : List Char → Option (Bool × List Char)
  | ['*'] => some (false, ['*'])
  | '*' :: '.' :: host => if host = [] ∨ '*' ∈ host then none else some (true, host)
  | host => if host = [] ∨ '*' ∈ host then none else some (false, host)

/-- A host and a path in one line; only files may lack the host. -/
def readHostAndPath? (file : Bool) : List Char → Option (Bool × List Char × List Char)
  | '/' :: '/' :: rest =>
      match cut? '/' rest with
      | none => none
      | some (host, path) =>
          if '\n' ∈ path then none
          else if file ∧ host = [] then some (false, [], '/' :: path)
          else (readHost? host).map fun (subdomains, host) => (subdomains, host, '/' :: path)
  | _ => none

def readParts? (scheme rest : List Char) : Option Parts :=
  let lowered := String.ofList (scheme.map Char.toLower)
  if looksLike "data" scheme then
    if '\n' ∈ rest then none else some { scheme := lowered, path := String.ofList rest }
  else if scheme = ['*'] ∨
      ["http", "https", "ws", "wss", "file", "ftp"].any (looksLike · scheme) then
    (readHostAndPath? (looksLike "file" scheme) rest).map fun (subdomains, host, path) =>
      { scheme := lowered, subdomains := subdomains
        host := String.ofList host, path := String.ofList path }
  else none

def Parts.fault? (p : Parts) : Option Fault :=
  if p.scheme ∉ knownSchemes then some .unsupportedScheme
  else if p.path = "" then some .missingPath
  else none

def read (s : List Char) : Except Fault Pattern :=
  if s = allUrlsText.toList then .ok .allUrls
  else if looksLike allUrlsText s then .error .missingColon
  else
    match (cut? ':' s).bind fun (scheme, rest) => readParts? scheme rest with
    | none => .error .malformed
    | some p =>
        match p.fault? with
        | some fault => .error fault
        | none => .ok (.parts p)

def parse (text : String) : Except Error Pattern :=
  (read text.toList).mapError fun fault => ⟨text, fault⟩

end LinkTrail.Pattern
