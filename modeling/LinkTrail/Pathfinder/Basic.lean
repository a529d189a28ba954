import LinkTrail.Pathfinder.Walker

namespace LinkTrail

/-- The place of a call in the order of the calls. -/
abbrev Ticket := Nat

inductive Progress where
  | pending
  | cancelled
  | done (outcome : Outcome)
deriving DecidableEq, Repr

structure Caller where
  url : String
  progress : Progress := .pending
deriving DecidableEq, Repr

namespace Caller

/-- An answer that has come, or that its caller has given up, stays as it is. -/
def complete (outcome : Outcome) (caller : Caller) : Caller :=
  match caller.progress with
  | .pending => { caller with progress := .done outcome }
  | _ => caller

def cancel (caller : Caller) : Caller :=
  match caller.progress with
  | .pending => { caller with progress := .cancelled }
  | _ => caller

end Caller

/-- Here `waiting` holds the callers of each URL under resolution, `registered` its walker. Walkers
keep their place in `walkers` after their end. `queue` are those with something to do in the next
turn, in the order in which it came up: a new one has to set out, one that waited has a response. -/
structure Pathfinder where
  attached : Bool := false
  waiting : Table String (List Ticket) := .empty
  registered : Table String WalkerId := .empty
  traffic : Traffic := {}
  walkers : List Walker := []
  queue : List WalkerId := []
  callers : List Caller := []
  clock : Seconds := 0

inductive Refusal where
  | notAttached
  | refused
deriving DecidableEq, Repr

def Refusal.message : Refusal → String
  | notAttached => "RedirectResolver.initialize() must be called before resolve()"
  | refused => Failure.refusal

namespace Pathfinder

def onWeb (web : Web) : Pathfinder := { traffic := { web := web } }

def web (p : Pathfinder) : Web := p.traffic.web

def mapListeners (p : Pathfinder) (f : Listeners Unit → Listeners Unit) : Pathfinder :=
  { p with traffic.web.listeners := f p.web.listeners }

def mapWalker (p : Pathfinder) (id : WalkerId) (f : Walker → Walker) : Pathfinder :=
  { p with walkers := p.walkers.modify id f }

def stage? (p : Pathfinder) (id : WalkerId) : Option Stage :=
  p.walkers[id]?.map Walker.stage

def openUrls (p : Pathfinder) : List String := p.waiting.keys

def activeWalkers (p : Pathfinder) : List Walker :=
  p.registered.values.filterMap fun id => p.walkers[id]?

def visitedUrls (p : Pathfinder) : List String :=
  (p.activeWalkers.flatMap fun w => w.trail.visited).eraseDups

/-- All hops together; where two trails share a target, the later walker's hop counts. -/
def hops (p : Pathfinder) : Table String String :=
  .ofList (p.activeWalkers.flatMap fun w => w.trail.hops.entries)

def isListening (p : Pathfinder) : Bool := p.web.listeners.has ()

def forget (p : Pathfinder) (id : WalkerId) : Pathfinder × List Ticket :=
  match p.walkers[id]? with
  | none => (p, [])
  | some w =>
      let origin := w.trail.origin
      if p.registered.get? origin = some id then
        ({ p with
            registered := p.registered.erase origin
            waiting := p.waiting.erase origin
            traffic := p.traffic.withdraw id w.trail.visited
            walkers := p.walkers.set id { w with trail := w.trail.cleared } },
          (p.waiting.get? origin).getD [])
      else (p, [])

def complete (p : Pathfinder) (tickets : List Ticket) (outcome : Outcome) : Pathfinder :=
  { p with
    callers := tickets.foldl (fun cs ticket => cs.modify ticket (Caller.complete outcome))
      p.callers }

/-- The walk is over; unless it was given up before, its callers learn the outcome. -/
def finish (p : Pathfinder) (id : WalkerId) (result : Except Failure String) : Pathfinder :=
  match p.walkers[id]? with
  | none => p
  | some w =>
      let outcome := Outcome.ofResult w.trail.origin result
      let (p, tickets) := p.forget id
      (p.complete tickets outcome).mapWalker id fun w => { w with stage := .gone }

def attach (p : Pathfinder) : Pathfinder :=
  if p.attached then p
  else { p.mapListeners (·.addForAll ()) with attached := true }

def dismiss (p : Pathfinder) (id : WalkerId) : Pathfinder :=
  match p.walkers[id]? with
  | none => p
  | some w =>
      (p.finish id (.error (.cancelled w.trail.origin))).mapWalker id fun after =>
        { after with stage := w.dismissedStage }

def close (p : Pathfinder) : Pathfinder :=
  let p := p.registered.values.foldl dismiss p
  if p.attached then { p.mapListeners (·.remove ()) with attached := false } else p

def joinWaiting (p : Pathfinder) (url : String) (tickets : List Ticket) : Pathfinder :=
  { p with
    waiting := p.waiting.insert url (tickets ++ [p.callers.length])
    callers := p.callers ++ [{ url := url }] }

def register (p : Pathfinder) (url : String) : Pathfinder :=
  { p with
    waiting := p.waiting.insert url [p.callers.length]
    registered := p.registered.insert url p.walkers.length
    walkers := p.walkers ++ [{ trail := { origin := url } }] }

def ask (p : Pathfinder) (id : WalkerId) (url : String) : Pathfinder × Option Failure :=
  match p.walkers[id]? with
  | none => (p, none)
  | some w =>
      let (traffic, w, failure?) := p.traffic.ask id w url
      ({ p with traffic, walkers := p.walkers.set id w }, failure?)

/-- Starts to resolve a URL. When its request is refused, nothing of the call remains. -/
def start (p : Pathfinder) (url : String) : Except Refusal Ticket × Pathfinder :=
  let id := p.walkers.length
  match (p.register url).ask id url with
  | (p, some _) =>
      let (p, _) := p.forget id
      (.error .refused, { p with walkers := p.walkers.take id })
  | (p, none) =>
      (.ok p.callers.length,
        { p with queue := p.queue ++ [id], callers := p.callers ++ [{ url := url }] })

/-- A caller asks where a URL leads. Callers of one URL share one walk. -/
def resolve (p : Pathfinder) (url : String) : Except Refusal Ticket × Pathfinder :=
  if p.attached then
    match p.waiting.get? url with
    | some tickets => (.ok p.callers.length, p.joinWaiting url tickets)
    | none => p.start url
  else (.error .notAttached, p)

/-- One caller gives up; the walk goes on. -/
def cancel (p : Pathfinder) (ticket : Ticket) : Pathfinder :=
  { p with callers := p.callers.modify ticket Caller.cancel }

def receive (response : Response) (p : Pathfinder) (id : WalkerId) : Pathfinder :=
  match p.walkers[id]? with
  | none => p
  | some w =>
      { p.mapWalker id fun w => { w with inbox := w.inbox ++ [response] } with
        queue := if w.isWaiting then p.queue ++ [id] else p.queue }

/-- A response comes in from the web. It goes to all who wait for its URL, and none of them waits
for that URL any longer. -/
def deliver (p : Pathfinder) (response : Response) : Pathfinder :=
  if p.web.listeners.hears response.url then
    match p.traffic.awaiting.get? response.url with
    | none => p
    | some waiting =>
        waiting.foldl (receive response)
          { p with traffic.awaiting := p.traffic.awaiting.erase response.url }
  else p

end Pathfinder

end LinkTrail
