import LinkTrail.PatternSet
import LinkTrail.Url.Host
import LinkTrail.Url.Split

namespace LinkTrail.AmpCache

def domains : List String :=
  ["cdn.ampproject.org", "amp.cloudflare.com", "bing-amp.com"]

def urls : PatternSet :=
  ⟨domains.map fun domain => (Pattern.ofDomain true domain).regex⟩

theorem ofDomains_domains : PatternSet.ofDomains domains true = .ok urls := by rfl

def serves (url : String) : Bool := urls.accepts url

/-- A domain as the label of a cache host: a hyphen is doubled, a dot becomes a hyphen. -/
def encode : List Char → List Char
  | [] => []
  | c :: rest =>
      if c = '-' then '-' :: '-' :: encode rest
      else if c = '.' then '-' :: encode rest
      else c :: encode rest

def decode : List Char → List Char
  | '-' :: '-' :: rest => '-' :: decode rest
  | '-' :: rest => '.' :: decode rest
  | c :: rest => c :: decode rest
  | [] => []

/-- The domain in the first label of a host; the cache's own host has none. -/
def publisherAt? (host : List Char) : Option String :=
  if String.ofList host ∈ domains then none
  else some (String.ofList (decode (Text.cut '.' host).1))

def publisher? (url : String) : Except Url.Error (Option String) :=
  if serves url then
    (Url.split url.toList).map fun u => publisherAt? (u.host?.getD [])
  else .ok none

end LinkTrail.AmpCache
