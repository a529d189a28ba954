import LinkTrail.Text.Quoted

namespace LinkTrail

/-- The parts without the marks between them; a part that is missing is empty. -/
structure Url where
  scheme : List Char := []
  authority : List Char := []
  path : List Char := []
  query : List Char := []
  fragment : List Char := []
deriving DecidableEq, Repr

namespace Url

def schemeList (names : List String) : List (List Char) := names.map String.toList

def relativeSchemes : List (List Char) :=
  schemeList
    ["", "ftp", "http", "gopher", "nntp", "imap", "wais", "file", "https", "shttp", "mms",
    "prospero", "rtsp", "rtspu", "sftp", "svn", "svn+ssh", "ws", "wss"]

def authoritySchemes : List (List Char) :=
  schemeList
    ["", "ftp", "http", "gopher", "nntp", "telnet", "imap", "wais", "file", "mms", "https",
    "shttp", "snews", "prospero", "rtsp", "rtspu", "rsync", "svn", "svn+ssh", "sftp", "nfs",
    "git", "git+ssh", "ws", "wss"]

def parameterSchemes : List (List Char) :=
  schemeList
    ["", "ftp", "hdl", "prospero", "http", "imap", "https", "shttp", "rtsp", "rtspu", "sip",
    "sips", "mms", "sftp", "tel"]

def startsWithTwoSlashes : List Char → Bool
  | '/' :: '/' :: _ => true
  | _ => false

def rootedPath (path : List Char) : List Char :=
  if path = [] ∨ path.head? = some '/' then path else '/' :: path

def renderBody (u : Url) : List Char :=
  if u.authority ≠ [] ∨
      (u.scheme ≠ [] ∧ authoritySchemes.contains u.scheme ∧
        startsWithTwoSlashes u.path = false) then
    '/' :: '/' :: (u.authority ++ rootedPath u.path)
  else u.path

def render (u : Url) : List Char :=
  (if u.scheme = [] then [] else u.scheme ++ [':']) ++ u.renderBody ++
    (if u.query = [] then [] else '?' :: u.query) ++
    (if u.fragment = [] then [] else '#' :: u.fragment)

inductive Error where
  | brackets
  | futureAddress
  | notAnAddress (host : List Char)
  | bracketedIpv4
  | lookAlike (authority : List Char)
deriving DecidableEq, Repr

def Error.message : Error → String
  | brackets => "Invalid IPv6 URL"
  | futureAddress => "IPvFuture address is invalid"
  | notAnAddress host =>
      Text.quoted (String.ofList host) ++ " does not appear to be an IPv4 or IPv6 address"
  | bracketedIpv4 => "An IPv4 address cannot be in brackets"
  | lookAlike authority =>
      "netloc '" ++ String.ofList authority ++
        "' contains invalid characters under NFKC normalization"

end Url

end LinkTrail
