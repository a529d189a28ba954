import LinkTrail.Pathfinder.Turn
import LinkTrail.Settings
import LinkTrail.Text.Upper

/-! Requests over a web session, one response per request. -/

namespace LinkTrail

/-- Why a session has no answer. A transport error is told by its text alone; any other error
that has no text is told by its kind. -/
inductive Trouble where
  | transport (text : String)
  | other (kind text : String)
deriving DecidableEq, Repr

def Trouble.text : Trouble → String
  | transport text => text
  | other kind text => if text = "" then kind else text

inductive Reply where
  | answered (status : Int) (headers : Headers)
  | troubled (trouble : Trouble)
deriving DecidableEq, Repr

namespace Reply

def response (url : String) : Reply → Response
  | answered status headers => { url := url, status := status, headers := headers }
  | troubled trouble => { url, error := some trouble.text }

def isAnswer : Reply → Bool
  | answered _ _ => true
  | troubled _ => false

end Reply

structure Call where
  method : String
  url : String
  followsRedirects : Bool := false
  streamed : Bool := true
  timeout : Int
deriving DecidableEq, Repr

/-- Requests that no worker has taken up are `queued`, those that one is at `running`, or `abandoned`
when nobody waits for them any more. When the session is done with one its result is on its way back
(`returned`), and when it has come in (`done`) it is still to be passed on. What has gone to the
session, what has been passed on and the URLs whose answers were closed are kept in `calls`, `responses`
and `released`. -/
structure Transport where
  settings : Settings := {}
  reply : String → Reply
  shut : Bool := false
  queued : List String := []
  running : List String := []
  abandoned : List String := []
  returned : List String := []
  done : List String := []
  calls : List Call := []
  responses : List Response := []
  released : List String := []

namespace Transport

def call (t : Transport) (url : String) : Call where
  method := String.ofList (Text.upper t.settings.method.toList)
  url := url
  timeout := t.settings.requestTimeout

def issue? (t : Transport) (url : String) : Option Transport :=
  if t.shut then none else some { t with queued := t.queued ++ [url] }

/-- A worker takes the request up and calls the session. -/
def takeUp (t : Transport) (url : String) : Transport :=
  if url ∈ t.queued then
    { t with
      queued := t.queued.erase url
      running := t.running ++ [url]
      calls := t.calls ++ [t.call url] }
  else t

/-- An answer is closed once its headers have been read. -/
def release (t : Transport) (url : String) : Transport :=
  if (t.reply url).isAnswer then { t with released := t.released ++ [url] } else t

def finish (t : Transport) (url : String) : Transport :=
  if url ∈ t.running then
    { t with running := t.running.erase url, returned := t.returned ++ [url] }.release url
  else if url ∈ t.abandoned then { t with abandoned := t.abandoned.erase url }.release url
  else t

def settle (t : Transport) (url : String) : Transport :=
  if url ∈ t.returned then
    { t with returned := t.returned.erase url, done := t.done ++ [url] }
  else t

def dispatch (t : Transport) (url : String) : Transport :=
  if url ∈ t.done then
    { t with
      done := t.done.erase url
      responses := t.responses ++ [(t.reply url).response url] }
  else t

/-- Takes no more requests and gives up those whose results have not come in. The session is not told
of those that are running; what has come in is still passed on. -/
def close (t : Transport) : Transport :=
  { t with
    shut := true
    queued := []
    running := []
    abandoned := t.abandoned ++ t.running
    returned := [] }

/-- Lets all that nobody has given up come to its end. -/
def complete (t : Transport) : Transport :=
  let t := t.queued.foldl takeUp t
  let t := t.running.foldl finish t
  let t := t.returned.foldl settle t
  t.done.foldl dispatch t

def fetch? (t : Transport) (url : String) : Option Transport := (t.issue? url).map complete

def heard (t : Transport) : List Response :=
  t.responses.filter fun response => PatternSet.allUrls.accepts response.url

/-- The web of a pathfinder over this transport; no response is there at once. -/
def web (t : Transport) : Web where
  refusing := t.shut

def outcome? (p : Pathfinder) (ticket : Ticket) : Option Outcome :=
  match p.callers[ticket]? with
  | some { progress := .done outcome, .. } => some outcome
  | _ => none

/-- Brings the responses of all requests but the first `served` ones and lets a turn follow, and
goes on with the requests of that turn until there are none. -/
def serve (t : Transport) (rules : Rules) : (rounds served : Nat) → Pathfinder → Pathfinder
  | 0, _, p => p
  | rounds + 1, served, p =>
      match p.web.fetched.drop served with
      | [] => p
      | asked =>
          let p := asked.foldl (fun p url => p.deliver ((t.reply url).response url)) p
          serve t rules rounds (served + asked.length) (p.drain rules)

/-- A pathfinder over this transport that has been asked for all `urls`, with the refusal of the
first call that was turned down. -/
def askAll (t : Transport) (urls : List String) : Pathfinder × Option Refusal :=
  urls.foldl
    (fun state url =>
      match state with
      | (p, some refusal) => (p, some refusal)
      | (p, none) =>
          match p.resolve url with
          | (.ok _, p) => (p, none)
          | (.error refusal, p) => (p, some refusal))
    ((Pathfinder.onWeb t.web).attach, none)

/-- The same pathfinder when all requests have been answered and no more time is to come. -/
def resolveAll (t : Transport) (urls : List String) : Pathfinder × Option Refusal :=
  let rules := t.settings.rules
  let (p, refusal?) := t.askAll urls
  -- a walk makes one request and at most one more for each redirect
  let p := t.serve rules (rules.maxRedirects.toNat + 1) 0 p
  -- what has no end by now waits for its deadline, and forever if that never comes
  let p := { p with clock := .endOfTime }.drain rules
  (p, refusal?)

/-- Resolves one URL with a pathfinder of its own. It may never come to an outcome. -/
def resolve (t : Transport) (url : String) : Except Refusal (Option Outcome) × Transport :=
  match t.resolveAll [url] with
  | (_, some refusal) => (.error refusal, t)
  | (p, none) =>
      (.ok (outcome? p 0), p.web.fetched.foldl (fun t url => (t.fetch? url).getD t) t)

end Transport

end LinkTrail
