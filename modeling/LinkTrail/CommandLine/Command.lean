import LinkTrail.CommandLine.Words
import LinkTrail.Settings

namespace LinkTrail.CommandLine

structure PatternWords where
  words : List String
  areDomains : Bool := false
  subdomains : Bool := true
deriving DecidableEq, Repr

inductive Command where
  | testUrls (patterns : PatternWords) (urls : List String)
  | showRegex (patterns : PatternWords)
  | normalize (urls : List String)
  | publishers (urls : List String)
  | resolve (urls : List String) (settings : Settings) (shortOnly : Bool)
deriving DecidableEq, Repr

def mainSwitches : List Switch :=
  [helpSwitch, { names := ["-v", "--verbose"] }, versionSwitch]

def domainSwitches : List Switch :=
  [{ names := ["--domains"] }, { names := ["--no-subdomains"] }]

def testSwitches : List Switch :=
  helpSwitch :: { names := ["-u", "--url"], value? := some .text } :: domainSwitches

def regexSwitches : List Switch := helpSwitch :: domainSwitches

def resolveSwitches : List Switch :=
  [helpSwitch, { names := ["--timeout"], value? := some .number },
    { names := ["--request-timeout"], value? := some .integer },
    { names := ["--max-redirects"], value? := some .integer }, { names := ["--get"] },
    { names := ["--short-only"] }]

def Given.patternWords (g : Given) : PatternWords where
  words := g.positional
  areDomains := g.has "--domains"
  subdomains := !g.has "--no-subdomains"

/-- The value of the last of several options of one name. -/
def Given.valueOr {α : Type} (g : Given) (key : String) (read? : String → Option α)
    (default : α) : α :=
  ((g.last? key).bind read?).getD default

def Given.settings (g : Given) : Settings where
  timeout :=
    some (g.valueOr "--timeout" (fun word => (Decimal.float? word).map Seconds.mk) 30)
  requestTimeout := g.valueOr "--request-timeout" Decimal.integer? 10
  maxRedirects := g.valueOr "--max-redirects" Decimal.integer? 30
  method := if g.has "--get" then "GET" else "HEAD"

/-- A command with its words; `strays` of its own make it unreadable like any others. -/
def readCommand (name : String) (words : List String) : Except Stop (Command × Bool) :=
  match name with
  | "match" => do
      let g ← given testSwitches words
      let urls := g.all "--url"
      if urls = [] then throw .misuse
      return (.testUrls g.patternWords urls, g.strays)
  | "regex" => do
      let g ← given regexSwitches words
      return (.showRegex g.patternWords, g.strays)
  | "normalize" => do
      let g ← given [helpSwitch] words
      return (.normalize g.positional, g.strays)
  | "amp" => do
      let g ← given [helpSwitch] words
      return (.publishers g.positional, g.strays)
  | "resolve" => do
      let g ← given resolveSwitches words
      return (.resolve g.positional g.settings (g.has "--short-only"), g.strays)
  | _ => .error .misuse

def Command.ofWords (words : List String) : Except Stop Command := do
  let (g, name, rest) ← cutCommand mainSwitches {} (← readWords mainSwitches words)
  let (command, strays) ← readCommand name rest
  if g.strays ∨ strays then throw .misuse
  return command

end LinkTrail.CommandLine
