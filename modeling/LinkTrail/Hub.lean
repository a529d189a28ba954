import LinkTrail.Listeners

namespace LinkTrail

variable {κ : Type}

inductive Hub.Command (κ : Type) where
  | add (callback : κ) (patterns : List String) (withHeaders : Bool)
  | remove (callback : κ)
  | dispatch (response : Response)
  | fetch (url : String)
  | close
deriving DecidableEq, Repr

inductive Hub.Error where
  | invalidPattern (cause : Pattern.Error)
  | noTransport
  | tooDeep
deriving DecidableEq, Repr

structure Hub.Notice (κ : Type) where
  callback : κ
  response : Response
deriving DecidableEq, Repr

structure Hub (κ : Type) where
  listeners : Listeners κ := {}
  notices : List (Hub.Notice κ) := []
deriving DecidableEq, Repr

namespace Hub

/-- Does one thing after the other until one of them fails. -/
def inTurn {σ α : Type} (f : σ → α → σ × Option Error) : σ → List α → σ × Option Error
  | s, [] => (s, none)
  | s, x :: rest =>
      match f s x with
      | (s, some e) => (s, some e)
      | (s, none) => inTurn f s rest

def notify (react : Hub κ → κ → Hub κ × Option Error) (response : Response) (hub : Hub κ)
    (l : Listener κ) : Hub κ × Option Error :=
  react { hub with notices := hub.notices ++ [⟨l.callback, l.view response⟩] } l.callback

variable [DecidableEq κ]

/-- One command. A response goes to the registrations that are there when it comes in. -/
def step (react : Hub κ → κ → Hub κ × Option Error) (hub : Hub κ) :
    Command κ → Hub κ × Option Error
  | .add callback patterns withHeaders =>
      match hub.listeners.add callback patterns withHeaders with
      | .ok listeners => ({ hub with listeners }, none)
      | .error cause => (hub, some (.invalidPattern cause))
  | .remove callback => ({ hub with listeners := hub.listeners.remove callback }, none)
  | .dispatch response =>
      inTurn (notify react response) hub (hub.listeners.hearing response.url)
  | .fetch _ => (hub, some .noTransport)
  | .close => (hub, none)

/-- A command whose callbacks run their programs, with dispatches inside dispatches up to the
given depth. -/
def perform (programs : κ → List (Command κ)) :
    (depth : Nat) → Hub κ → Command κ → Hub κ × Option Error
  | 0 => step fun hub _ => (hub, some .tooDeep)
  | depth + 1 => step fun hub callback => inTurn (perform programs depth) hub (programs callback)

end Hub

end LinkTrail
