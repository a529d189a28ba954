import LinkTrail.Seconds
import LinkTrail.Url.Basic

namespace LinkTrail

structure Arrival where
  source : String
  destination : String
deriving DecidableEq, Repr

inductive Failure where
  | timedOut (source : String) (limit : Seconds)
  | loop (source : String) (path : List String)
  | tooManyRedirects (source : String) (limit : Int)
  | requestFailed (source url detail : String)
  | cancelled (source : String)
  | badUrl (cause : Url.Error)
  | refused
deriving DecidableEq, Repr

namespace Failure

/-- What a request meets once the web has been shut off. -/
def refusal : String := "cannot schedule new futures after shutdown"

def message : Failure → String
  | timedOut source limit =>
      "Resolution of " ++ source ++ " timed out after " ++ limit.render ++ "s"
  | loop _ path => "Redirect loop: " ++ " -> ".intercalate path
  | tooManyRedirects source limit =>
      "Exceeded " ++ toString limit ++ " redirects resolving " ++ source
  | requestFailed _ url detail =>
      "Request for " ++ url ++ " failed" ++ (if detail = "" then "" else ": " ++ detail)
  | cancelled source => "Resolution of " ++ source ++ " was cancelled"
  | badUrl cause => cause.message
  | refused => refusal

/-- The URL whose resolution failed; faults of the web and of a location belong to none. -/
def source? : Failure → Option String
  | timedOut source _ => some source
  | loop source _ => some source
  | tooManyRedirects source _ => some source
  | requestFailed source _ _ => some source
  | cancelled source => some source
  | badUrl _ => none
  | refused => none

end Failure

inductive Outcome where
  | arrived (arrival : Arrival)
  | failed (failure : Failure)
deriving DecidableEq, Repr

namespace Outcome

def ofResult (source : String) : Except Failure String → Outcome
  | .ok destination => .arrived ⟨source, destination⟩
  | .error failure => .failed failure

def isFailed : Outcome → Bool
  | failed _ => true
  | arrived _ => false

/-- A failure that belongs to no URL. -/
def strayFailure? : Outcome → Option Failure
  | failed failure => if failure.source?.isNone then some failure else none
  | arrived _ => none

end Outcome

end LinkTrail
