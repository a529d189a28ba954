import LinkTrail.Pathfinder.Turn

namespace LinkTrail.Pathfinder

inductive Action where
  | attach
  | close
  | resolve (url : String)
  | deliver (response : Response)
  | cancel (ticket : Ticket)
  | refuseRequests (refusing : Bool)
  | answerAtOnce (url : String) (response? : Option Response)
  | advance (span : Seconds)
  | drain
deriving DecidableEq, Repr

def act (rules : Rules) (p : Pathfinder) : Action → Pathfinder × Option Refusal
  | .attach => (p.attach, none)
  | .close => (p.close, none)
  | .resolve url =>
      match p.resolve url with
      | (.ok _, p) => (p, none)
      | (.error refusal, p) => (p, some refusal)
  | .deliver response => (p.deliver response, none)
  | .cancel ticket => (p.cancel ticket, none)
  | .refuseRequests refusing => ({ p with traffic.web.refusing := refusing }, none)
  | .answerAtOnce url response? =>
      ({ p with traffic.web.answer? := fun other =>
          if other = url then response? else p.web.answer? other },
        none)
  | .advance span => ({ p with clock := p.clock + span }, none)
  | .drain => (p.drain rules, none)

def run (rules : Rules) (p : Pathfinder) (actions : List Action) : Pathfinder :=
  actions.foldl (fun p action => (p.act rules action).1) p

end LinkTrail.Pathfinder
