import LinkTrail.Proofs.Pathfinder.Walk
import LinkTrail.Proofs.Seconds.Grain
import LinkTrail.Transport
import Mathlib.Logic.Function.Iterate

/-!
The chain of a URL by itself, as the answers of a transport lead it turn by turn. Main statement:
whatever the answers are, it ends with an outcome of its own URL if it ends (`Transport.isOf_fate`).
-/

namespace LinkTrail

/-- The outcome tells where the chain from the URL has led, or why it has led nowhere. Only a location
that cannot be read is told without the URL. -/
inductive Outcome.IsOf (url : String) : Outcome → Prop where
  | arrived (destination : String) : IsOf url (.arrived ⟨url, destination⟩)
  | failed {failure : Failure} (source : failure.source? = some url) : IsOf url (.failed failure)
  | badUrl (cause : Url.Error) : IsOf url (.failed (.badUrl cause))

theorem Failure.message_ne_empty {failure : Failure} {url : String}
    (h : failure.source? = some url) : failure.message ≠ "" := by
  cases failure with
  | timedOut source limit =>
      change "Resolution of " ++ source ++ " timed out after " ++ limit.render ++ "s" ≠ ""
      simp
  | loop source path =>
      change "Redirect loop: " ++ " -> ".intercalate path ≠ ""
      simp
  | tooManyRedirects source limit =>
      change "Exceeded " ++ toString limit ++ " redirects resolving " ++ source ≠ ""
      simp
  | requestFailed source url detail =>
      change "Request for " ++ url ++ " failed" ++ (if detail = "" then "" else ": " ++ detail) ≠ ""
      simp
  | cancelled source =>
      change "Resolution of " ++ source ++ " was cancelled" ≠ ""
      simp
  | badUrl cause => contradiction
  | refused => contradiction

theorem Outcome.IsOf.timedOut {url : String} (limit : Seconds) :
    (Outcome.failed (.timedOut url limit)).IsOf url := .failed rfl

theorem Rules.isOf_verdict {rules : Rules} {trail : Trail} {response : Response} {failure : Failure}
    (h : rules.verdict trail response = .failed failure) :
    (Outcome.failed failure).IsOf trail.origin := by
  unfold verdict at h
  split at h
  · cases h
    exact .failed rfl
  · split at h
    · contradiction
    · split at h
      · cases h
        exact .badUrl _
      · split at h
        · contradiction
        · split at h
          · cases h
            exact .failed rfl
          · split at h
            · cases h
              exact .failed rfl
            · contradiction

inductive Stand where
  | going (trail : Trail)
  | ended (outcome : Outcome)

inductive Stand.IsOf (url : String) : Stand → Prop where
  | going {trail : Trail} (origin : trail.origin = url) : IsOf url (.going trail)
  | ended {outcome : Outcome} (known : outcome.IsOf url) : IsOf url (.ended outcome)

def Stand.onward (limit : Seconds) (trail : Trail) : Stand :=
  if Timer.strict.isDue (0 + limit) 0 then .ended (.failed (.timedOut trail.origin limit))
  else .going trail

def Stand.read (limit : Seconds) (trail : Trail) : Verdict → Stand
  | .arrived => .ended (.arrived ⟨trail.origin, trail.tip⟩)
  | .failed failure => .ended (.failed failure)
  | .redirect next => onward limit ((trail.extend next trail.tip).visit next)

/-- A chain that has no end after all turns waits for its deadline, which may never come. -/
def Stand.outcome? (url : String) (limit : Seconds) : Stand → Option Outcome
  | .going _ =>
      if Timer.strict.isDue (0 + limit) .endOfTime then some (.failed (.timedOut url limit)) else none
  | .ended outcome => some outcome

theorem Trail.origin_extend_visit (t : Trail) (next previous url : String) :
    ((t.extend next previous).visit url).origin = t.origin :=
  origin_visit _ _

theorem Stand.isOf_onward (limit : Seconds) (trail : Trail) :
    (onward limit trail).IsOf trail.origin := by
  unfold onward
  split
  · exact .ended (.timedOut limit)
  · exact .going rfl

theorem Stand.isOf_read {rules : Rules} {trail : Trail} {response : Response} (limit : Seconds) :
    (read limit trail (rules.verdict trail response)).IsOf trail.origin := by
  cases hverdict : rules.verdict trail response with
  | arrived => exact .ended (.arrived trail.tip)
  | failed failure => exact .ended (Rules.isOf_verdict hverdict)
  | redirect next =>
      rw [← Trail.origin_extend_visit trail next trail.tip next]
      exact isOf_onward limit _

theorem Stand.IsOf.outcome {url : String} {stand : Stand} {limit : Seconds} {outcome : Outcome}
    (h : stand.IsOf url) (houtcome : stand.outcome? url limit = some outcome) :
    outcome.IsOf url := by
  cases h with
  | going horigin =>
      obtain ⟨-, heq⟩ := Option.ite_none_right_eq_some.1 houtcome
      obtain rfl := Option.some.inj heq
      exact .timedOut limit
  | ended known =>
      obtain rfl := Option.some.inj houtcome
      exact known

namespace Transport

variable (t : Transport) (limit : Seconds)

def turn : Stand → Stand
  | .ended outcome => .ended outcome
  | .going trail =>
      if limit ≤ 0 then .ended (.failed (.timedOut trail.origin limit))
      else if PatternSet.allUrls.accepts trail.tip then
        .read limit trail (t.settings.rules.verdict trail ((t.reply trail.tip).response trail.tip))
      else .onward limit trail

def start (url : String) : Trail := ({ origin := url } : Trail).visit url

/-- How the chain from a URL ends, if it does. -/
def fate? (url : String) : Option Outcome :=
  ((t.turn limit)^[t.settings.rules.maxRedirects.toNat + 1] (.going (start url))).outcome? url limit

theorem isOf_turn {url : String} {stand : Stand} (h : stand.IsOf url) :
    (t.turn limit stand).IsOf url := by
  cases h with
  | ended houtcome => exact .ended houtcome
  | @going trail horigin =>
      subst horigin
      rw [turn]
      split
      · exact .ended (.timedOut limit)
      · split
        · exact Stand.isOf_read limit
        · exact Stand.isOf_onward limit trail

theorem isOf_fate {url : String} {outcome : Outcome} (h : t.fate? limit url = some outcome) :
    outcome.IsOf url := by
  refine Stand.IsOf.outcome ?_ h
  exact Function.Iterate.rec (Stand.IsOf url) (.going (Trail.origin_visit _ _))
    (fun _ hstand => t.isOf_turn limit hstand) _

/-- Only without a limit of time does a chain not end. -/
theorem endless_of_fate {url : String} (h : t.fate? limit url = none) : Seconds.endOfTime ≤ limit := by
  by_contra hfinite
  have hdue := Timer.isDue_endOfTime hfinite
  unfold fate? at h
  generalize (t.turn limit)^[t.settings.rules.maxRedirects.toNat + 1] (.going (start url)) = stand at h
  cases stand with
  | going trail => simp [Stand.outcome?, hdue] at h
  | ended outcome => contradiction

theorem turn_of_unheard {trail : Trail} (htimely : ¬ limit ≤ 0)
    (hleft : ¬ Timer.strict.isDue (0 + limit) 0 = true)
    (hunheard : PatternSet.allUrls.accepts trail.tip = false) :
    t.turn limit (.going trail) = .going trail := by
  rw [turn, if_neg htimely, hunheard, if_neg Bool.false_ne_true, Stand.onward, if_neg hleft]

end Transport

end LinkTrail
