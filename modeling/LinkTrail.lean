import LinkTrail.AmpCache
import LinkTrail.Candidate
import LinkTrail.CommandLine.Command
import LinkTrail.CommandLine.Record
import LinkTrail.CommandLine.Run
import LinkTrail.CommandLine.Words
import LinkTrail.Decimal.General
import LinkTrail.Decimal.Natural
import LinkTrail.Decimal.Reading
import LinkTrail.Headers
import LinkTrail.Hub
import LinkTrail.Listeners
import LinkTrail.Main
import LinkTrail.Outcome
import LinkTrail.Pathfinder.Action
import LinkTrail.Pathfinder.Basic
import LinkTrail.Pathfinder.Turn
import LinkTrail.Pathfinder.Walker
import LinkTrail.Pathfinder.Web
import LinkTrail.Pattern.Basic
import LinkTrail.Pattern.Parser
import LinkTrail.Pattern.Regex
import LinkTrail.PatternSet
import LinkTrail.Regex.Basic
import LinkTrail.Regex.Derivative
import LinkTrail.Regex.Lemmas
import LinkTrail.Regex.Parser
import LinkTrail.Response
import LinkTrail.Seconds
import LinkTrail.Settings
import LinkTrail.Shortener
import LinkTrail.Table
import LinkTrail.Text.Blank
import LinkTrail.Text.Cut
import LinkTrail.Text.Digit
import LinkTrail.Text.Graphic
import LinkTrail.Text.Lower
import LinkTrail.Text.Quoted
import LinkTrail.Text.Ranges
import LinkTrail.Text.Upper
import LinkTrail.Trail
import LinkTrail.Transport
import LinkTrail.Url.Address
import LinkTrail.Url.Basic
import LinkTrail.Url.Host
import LinkTrail.Url.Join
import LinkTrail.Url.Normal
import LinkTrail.Url.Split
import LinkTrail.Proofs.Trail.Straight
import LinkTrail.Proofs.Hub.Snapshot
import LinkTrail.Proofs.Pathfinder.Waiters
import LinkTrail.Proofs.Pathfinder.Walk
import LinkTrail.Proofs.Pathfinder.Frame
import LinkTrail.Proofs.Pathfinder.Kept
import LinkTrail.Proofs.Pathfinder.Calls
import LinkTrail.Proofs.Pathfinder.Turns
import LinkTrail.Proofs.Pathfinder.Runs
import LinkTrail.Proofs.Pathfinder.Record
import LinkTrail.Proofs.Pathfinder.Callers
import LinkTrail.Proofs.Pathfinder.Destiny
import LinkTrail.Proofs.Pathfinder.Requests
import LinkTrail.Proofs.Pathfinder.Race
import LinkTrail.Proofs.Pathfinder.Clash
import LinkTrail.Proofs.Pathfinder.Outstanding
import LinkTrail.Proofs.Pathfinder.Past
import LinkTrail.Proofs.Pathfinder.Close
import LinkTrail.Proofs.Pathfinder.Reset
import LinkTrail.Proofs.Regex.Language
import LinkTrail.Proofs.Regex.Written
import LinkTrail.Proofs.Text.Letters
import LinkTrail.Proofs.Pattern.Covers
import LinkTrail.Proofs.Pattern.Matching
import LinkTrail.Proofs.Pattern.Grammar
import LinkTrail.Proofs.Url.Located
import LinkTrail.Proofs.PatternSet.Union
import LinkTrail.Proofs.PatternSet.Host
import LinkTrail.Proofs.Pathfinder.Settling
import LinkTrail.Proofs.Pathfinder.Attended
import LinkTrail.Proofs.Pathfinder.Guest
import LinkTrail.Proofs.Pathfinder.Company
import LinkTrail.Proofs.Pathfinder.Course
import LinkTrail.Proofs.Pathfinder.Deadlines
import LinkTrail.Proofs.Pathfinder.Expiry
import LinkTrail.Proofs.Transport.Lone
import LinkTrail.Proofs.Transport.Rounds
import LinkTrail.Proofs.Transport.Together
import LinkTrail.Proofs.Transport.Service
import LinkTrail.Proofs.CommandLine.Reports
import LinkTrail.Proofs.Pathfinder.TurnedDown
import LinkTrail.Proofs.PatternSet.Observed
import LinkTrail.Proofs.Text.Cut
import LinkTrail.Proofs.Text.Lowered
import LinkTrail.Proofs.Url.Address
import LinkTrail.Proofs.Url.Written
import LinkTrail.Proofs.Url.Reread
import LinkTrail.Proofs.Url.Authority
import LinkTrail.Proofs.Url.Canonical
import LinkTrail.Proofs.Url.Renormal
import LinkTrail.Proofs.Regex.Letters
import LinkTrail.Proofs.Pattern.Respelled
import LinkTrail.Proofs.PatternSet.Letters
import LinkTrail.Proofs.Url.Location
import LinkTrail.Proofs.PatternSet.Domains
import LinkTrail.Proofs.AmpCache.Publisher
import LinkTrail.Proofs.PatternSet.Normal
import LinkTrail.Proofs.Regex.Escaped
import LinkTrail.Proofs.Pattern.Segments
import LinkTrail.Proofs.Headers.Spelling
