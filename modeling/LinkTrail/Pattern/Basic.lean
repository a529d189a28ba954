namespace LinkTrail

/-- The parts of a pattern. The host stands without its leading `*.`, which is `subdomains`. -/
structure Pattern.Parts where
  scheme : String := ""
  subdomains : Bool := false
  host : String := ""
  path : String := ""
deriving DecidableEq, Repr

inductive Pattern where
  | allUrls
  | parts (parts : Pattern.Parts)
deriving DecidableEq, Repr

namespace Pattern

def allUrlsText : String := "<all_urls>"

def knownSchemes : List String :=
  ["*", "data", "file", "ftp", "http", "https", "ws", "wss"]

def hostSchemes : List String :=
  ["*", "file", "ftp", "http", "https", "ws", "wss"]

namespace Parts

def hasHost (p : Parts) : Bool := p.scheme ∈ hostSchemes

def separator (p : Parts) : String := if p.hasHost then "://" else ":"

def render (p : Parts) : String :=
  p.scheme ++ p.separator ++ (if p.subdomains then "*." else "") ++ p.host ++ p.path

end Parts

def render : Pattern → String
  | allUrls => allUrlsText
  | parts p => p.render

def domainText (subdomains : Bool) (domain : String) : String :=
  "*://" ++ (if subdomains then "*." else "") ++ domain ++ "/*"

def ofDomain (subdomains : Bool) (domain : String) : Pattern :=
  parts { scheme := "*", subdomains := subdomains, host := domain, path := "/*" }

inductive Fault where
  | malformed
  | missingColon
  | unsupportedScheme
  | missingPath
deriving DecidableEq, Repr

def Fault.message : Fault → String
  | malformed => "failed validation"
  | missingColon => "missing colon"
  | unsupportedScheme => "unsupported scheme"
  | missingPath => "missing path"

structure Error where
  text : String
  fault : Fault
deriving DecidableEq, Repr

end Pattern

end LinkTrail
