import LinkTrail.Pattern.Basic
import LinkTrail.Regex.Basic
import LinkTrail.Text.Cut

namespace LinkTrail.Pattern

open LinkTrail.Text

def digits : List Regex.Item := [.range '0' '9']

def labelItems : List Regex.Item :=
  [.range 'a' 'z', .range 'A' 'Z', .range '0' '9', .one '-']

def word (s : String) : Regex := Regex.literal s.toList

def anyHost : Regex :=
  .concat [.opt (.char '['), .plus (.oneOf (labelItems ++ [.one '.'])), .opt (.char ']')]

def anySubdomains : Regex :=
  .star (.group (.concat [.plus (.oneOf labelItems), .char '.']))

def anyPort : Regex :=
  .opt (.group (.concat [.char ':', .plus (.oneOf digits)]))

def anyPath : Regex :=
  .opt (.group (.concat [.char '/', .anyText]))

def anyQuery : Regex :=
  .opt (.group (.concat [.char '?', .anyText]))

def anyFragment : Regex :=
  .opt (.group (.concat [.char '#', .anyText]))

def http : Regex := .concat [word "http", .opt (.char 's')]

def webSocket : Regex := .concat [word "ws", .opt (.char 's')]

def allUrlsRegex : Regex :=
  .anyOf
    [.group (.concat
      [.group (.anyOf [http, webSocket, word "ftp"]), word "://", anyHost, anyPort, anyPath]),
    .group (.concat [word "file:///", .anyText]),
    .group (.concat [word "data:", .anyText])]

namespace Parts

def schemeRegex (p : Parts) : Regex :=
  if p.scheme = "*" then .group (.anyOf [http, webSocket]) else word p.scheme

def hostRegex (p : Parts) : Regex :=
  if p.hasHost then
    .concat
      [if p.host = "*" then anyHost
        else .concat [if p.subdomains then anySubdomains else .empty, word p.host],
      if p.scheme = "file" then .empty else anyPort]
  else .empty

def wildcardPath : List (List Char) → Regex
  | [] => .empty
  | [piece] => .literal piece
  | piece :: pieces => .concat [.literal piece, .anyText, wildcardPath pieces]

/-- The root path may be left out. -/
def pathRegex (p : Parts) : Regex :=
  if p.path = "/" then .opt (.char '/')
  else if p.path = "/*" then anyPath
  else wildcardPath (split '*' p.path.toList)

def regex (p : Parts) : Regex :=
  .concat
    [p.schemeRegex, word p.separator, p.hostRegex, p.pathRegex, anyQuery, anyFragment]

end Parts

def regex : Pattern → Regex
  | allUrls => allUrlsRegex
  | parts p => p.regex

end LinkTrail.Pattern
