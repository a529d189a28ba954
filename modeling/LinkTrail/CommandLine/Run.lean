import LinkTrail.AmpCache
import LinkTrail.CommandLine.Command
import LinkTrail.CommandLine.Record
import LinkTrail.Shortener
import LinkTrail.Transport
import LinkTrail.Url.Normal

namespace LinkTrail.CommandLine

def version : String := "0.1.0"

def versionLine : String := "linkscope " ++ version ++ "\n"

def usageCode : Nat := 2

structure Errand where
  settings : Settings
  fetched : List String
deriving DecidableEq, Repr

structure Report where
  code : Nat := 0
  output : String := ""
  errors : String := ""
  errand? : Option Errand := none
deriving DecidableEq, Repr

def Report.refusal (output message : String) : Report :=
  { code := usageCode, output, errors := "error: " ++ message ++ "\n" }

def PatternWords.patternSet (p : PatternWords) : Except Pattern.Error PatternSet :=
  if p.areDomains then PatternSet.ofDomains p.words p.subdomains else PatternSet.ofPatterns p.words

/-- Prints from left to right what `line` makes of the words, up to the first refusal. -/
def printEach {ε : Type} (line : String → Except ε String) (message : ε → String) :
    String → List String → Report
  | output, [] => { output := output }
  | output, word :: rest =>
      match line word with
      | .ok text => printEach line message (output ++ text) rest
      | .error e => .refusal output (message e)

def testUrls (patterns : PatternWords) (urls : List String) : Report :=
  match patterns.patternSet with
  | .error e => .refusal "" e.message
  | .ok set =>
      { output := String.join (urls.map fun url =>
          recordLine [("url", .text url), ("match", .flag (set.accepts url))]) }

def showRegex (patterns : PatternWords) : Report :=
  match patterns.patternSet with
  | .error e => .refusal "" e.message
  | .ok set => { output := set.regexText ++ "\n" }

def normalLine (url : String) : Except Url.NotAbsolute String :=
  (Url.normalize (.text url)).map fun normal =>
    recordLine [("url", .text url), ("normalized", .text normal)]

def publisherLine (url : String) : Except Url.Error String :=
  (AmpCache.publisher? url).map fun publisher =>
    recordLine [("url", .text url), ("publisher", .textOrNull publisher)]

def outcomeLine (url : String) : Outcome → String
  | .arrived a => recordLine [("source", .text a.source), ("destination", .text a.destination)]
  | .failed failure =>
      recordLine
        [("source", .text url), ("destination", .null), ("error", .text failure.message)]

/-- The lines for the outcomes. A failure that belongs to no URL has no line and ends the report. -/
def outcomeLines : List (String × Outcome) → Except Failure (List String)
  | [] => .ok []
  | (url, outcome) :: rest =>
      match outcome.strayFailure? with
      | some failure => .error failure
      | none => (outcomeLines rest).map (outcomeLine url outcome :: ·)

def wanted (urls : List String) (shortOnly : Bool) : List String :=
  if shortOnly then urls.eraseDups.filter Shortener.serves else urls.eraseDups

def outcomes? (p : Pathfinder) (urls : List String) : Option (List (String × Outcome)) :=
  urls.zipIdx.mapM fun (url, ticket) => (Transport.outcome? p ticket).map (url, ·)

def resolve (reply : String → Reply) (urls : List String) (settings : Settings)
    (shortOnly : Bool) : Option (Except Failure Report) :=
  let urls := wanted urls shortOnly
  if urls = [] then some (.ok {})
  else
    let transport : Transport := { settings := settings, reply := reply }
    let (p, _) := transport.resolveAll urls
    (outcomes? p urls).map fun outcomes =>
      (outcomeLines outcomes).map fun lines =>
        { code := if outcomes.any fun (_, outcome) => outcome.isFailed then 1 else 0
          output := String.join lines
          errand? := some { settings, fetched := p.web.fetched.eraseDups.mergeSort } }

/-- How the command ends. One that has to wait for an outcome which never comes does not. -/
def Command.run (reply : String → Reply) : Command → Option (Except Failure Report)
  | testUrls patterns urls => some (.ok (CommandLine.testUrls patterns urls))
  | showRegex patterns => some (.ok (CommandLine.showRegex patterns))
  | normalize urls => some (.ok (printEach normalLine Url.NotAbsolute.message "" urls))
  | publishers urls =>
      some (((urls.mapM publisherLine).mapError Failure.badUrl).map fun lines =>
        { output := String.join lines })
  | resolve urls settings shortOnly => CommandLine.resolve reply urls settings shortOnly

/-- The whole program on its words. A failure that no report covers is passed on. -/
def run (reply : String → Reply) (words : List String) : Option (Except Failure Report) :=
  match Command.ofWords words with
  | .ok command => command.run reply
  | .error .misuse => some (.ok { code := usageCode })
  | .error .help => some (.ok {})
  | .error .version => some (.ok { output := versionLine })

end LinkTrail.CommandLine
