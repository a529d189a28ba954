import LinkTrail.Candidate
import LinkTrail.Pattern.Parser
import LinkTrail.Pattern.Regex
import LinkTrail.Regex.Derivative

namespace LinkTrail

structure PatternSet where
  members : List Regex := []
deriving DecidableEq, Repr

namespace PatternSet

/-- Fails with the first invalid pattern. -/
def ofPatterns (texts : List String) : Except Pattern.Error PatternSet :=
  (texts.mapM Pattern.parse).map fun patterns => ⟨patterns.map Pattern.regex⟩

def domainTexts (domains : List String) (subdomains : Bool) : List String :=
  domains.map (Pattern.domainText subdomains)

def ofDomains (domains : List String) (subdomains : Bool) : Except Pattern.Error PatternSet :=
  ofPatterns (domainTexts domains subdomains)

def regex (set : PatternSet) : Regex := Regex.union set.members

def regexText (set : PatternSet) : String :=
  Regex.unionText (set.members.map fun member => String.ofList member.render)

def accepts (set : PatternSet) (url : String) : Bool :=
  set.regex.accepts .ignoreAsciiCase url.toList

def contains (set : PatternSet) (value : Candidate) : Bool :=
  value.text?.any set.accepts

def filter (set : PatternSet) (urls : List String) : List String :=
  urls.filter set.accepts

def describe (set : PatternSet) : String :=
  "MatchSet(" ++ Text.quoted set.regexText ++ ")"

def allUrls : PatternSet := ⟨[Pattern.allUrlsRegex]⟩

theorem regexText_eq (set : PatternSet) :
    set.regexText = "^" ++ String.ofList set.regex.render ++ "$" :=
  Regex.unionText_render set.members

theorem ofPatterns_allUrls : ofPatterns [Pattern.allUrlsText] = .ok allUrls := by rfl

end PatternSet

end LinkTrail
