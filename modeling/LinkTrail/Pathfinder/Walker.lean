import LinkTrail.Outcome
import LinkTrail.Pathfinder.Web
import LinkTrail.Trail

namespace LinkTrail

abbrev WalkerId := Nat

/-- What bounds a walk, and how a location is read at the URL that sent it. -/
structure Rules where
  timeout : Option Seconds
  timer : Timer := .strict
  maxRedirects : Int
  join : String → String → Except Url.Error String

/-- A walker with a deadline that is dismissed between the arrival of a response and its next turn
still takes that turn: it is `leaving`. -/
inductive Stage where
  | fresh
  | walking (deadline : Option Seconds)
  | leaving
  | gone
deriving DecidableEq, Repr

structure Walker where
  trail : Trail
  inbox : List Response := []
  stage : Stage := .fresh
deriving DecidableEq, Repr

namespace Walker

def isWaiting (w : Walker) : Bool :=
  match w.stage with
  | .walking _ => w.inbox = []
  | _ => false

def isOverdue (rules : Rules) (w : Walker) (clock : Seconds) : Bool :=
  match w.stage with
  | .walking (some deadline) => rules.timer.isDue deadline clock
  | _ => false

def dismissedStage (w : Walker) : Stage :=
  match w.stage with
  | .walking (some _) => if w.inbox = [] then .gone else .leaving
  | _ => .gone

end Walker

/-- What walkers share: the web, and for each URL that is asked for, who waits for it. -/
structure Traffic where
  awaiting : Table String (List WalkerId) := .empty
  web : Web := {}

inductive Verdict where
  | arrived
  | redirect (next : String)
  | failed (failure : Failure)
deriving DecidableEq, Repr

namespace Rules

/-- A missing or empty location, or one that leads back to its own URL, ends the walk. -/
def verdict (rules : Rules) (trail : Trail) (response : Response) : Verdict :=
  match response.error with
  | some detail => .failed (.requestFailed trail.origin response.url detail)
  | none =>
      match response.location?.filter (· ≠ "") with
      | none => .arrived
      | some location =>
          match rules.join response.url location with
          | .error cause => .failed (.badUrl cause)
          | .ok next =>
              if next = response.url then .arrived
              else if next ∈ trail.visited then
                .failed (.loop trail.origin (trail.path ++ [next]))
              else if rules.maxRedirects ≤ trail.hops.size then
                .failed (.tooManyRedirects trail.origin rules.maxRedirects)
              else .redirect next

theorem of_verdict_redirect {rules : Rules} {trail : Trail} {response : Response}
    {next : String} (h : rules.verdict trail response = .redirect next) :
    next ∉ trail.visited ∧ (trail.hops.size : Int) < rules.maxRedirects := by
  simp only [verdict] at h
  split at h <;> try contradiction
  split at h <;> try contradiction
  split at h <;> try contradiction
  split at h <;> try contradiction
  split at h <;> try contradiction
  split at h <;> try contradiction
  rename_i hvisited hsize
  cases h
  exact ⟨hvisited, by omega⟩

end Rules

namespace Traffic

/-- Waits for the response of a URL and asks for it, unless someone waits for it already. A
response that is there at once goes to the walker that asked. The request may be refused. -/
def ask (t : Traffic) (id : WalkerId) (w : Walker) (url : String) :
    Traffic × Walker × Option Failure :=
  let w := { w with trail := w.trail.visit url }
  match t.awaiting.get? url with
  | some waiting => ({ t with awaiting := t.awaiting.insert url (waiting ++ [id]) }, w, none)
  | none =>
      match t.web.fetch? url with
      | none => ({ t with awaiting := t.awaiting.insert url [id] }, w, some .refused)
      | some (web, none) => ({ awaiting := t.awaiting.insert url [id], web }, w, none)
      | some (web, some response) =>
          ({ t with web }, { w with inbox := w.inbox ++ [response] }, none)

def withdraw (t : Traffic) (id : WalkerId) (urls : List String) : Traffic :=
  { t with
    awaiting := t.awaiting.filterMap fun url waiting =>
      if url ∈ urls then
        let others := waiting.erase id
        if others = [] then none else some others
      else some waiting }

theorem trail_ask (t : Traffic) (id : WalkerId) (w : Walker) (url : String) :
    (t.ask id w url).2.1.trail = w.trail.visit url := by
  simp only [ask]
  repeat' split
  all_goals rfl

end Traffic

/-- Takes up responses as long as there are some. The walk may go on, waiting, or end at its
destination or in a failure. -/
def Walker.proceed (rules : Rules) (id : WalkerId) (t : Traffic) (w : Walker) :
    Traffic × Walker × Option (Except Failure String) :=
  match w.inbox with
  | [] => (t, w, none)
  | response :: inbox =>
      match _verdict : rules.verdict w.trail response with
      | .failed failure => (t, { w with inbox }, some (.error failure))
      | .arrived =>
          let (stop, trail) := w.trail.retrace response.url
          (t, { w with trail, inbox },
            some (match stop with
              | .ok _ => .ok response.url
              | .error walk => .error (.loop w.trail.origin walk)))
      | .redirect next =>
          match _answer : t.ask id
              { w with trail := w.trail.extend next response.url, inbox } next with
          | (t, w, some failure) => (t, w, some (.error failure))
          | (t, w, none) => w.proceed rules id t
termination_by (rules.maxRedirects - w.trail.hops.size).toNat + w.trail.unvisited.length
decreasing_by
  have htrail := congrArg (fun result => result.2.1.trail) _answer
  simp only [Traffic.trail_ask] at htrail
  rw [← htrail]
  obtain ⟨hnext, hsize⟩ := Rules.of_verdict_redirect _verdict
  exact Trail.extend_visit_lt hnext hsize

end LinkTrail
