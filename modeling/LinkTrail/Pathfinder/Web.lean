import LinkTrail.Listeners

namespace LinkTrail

/-- Field `answer?` gives the responses that arrive while they are being asked for; all others are
brought to the pathfinder later. The pathfinder is the only listener. -/
structure Web where
  answer? : String → Option Response := fun _ => none
  refusing : Bool := false
  listeners : Listeners Unit := {}
  fetched : List String := []

namespace Web

def answerAtOnce? (w : Web) (url : String) : Option Response :=
  if w.listeners.hears url then (w.answer? url).map fun response => { response with url := url }
  else none

def fetch? (w : Web) (url : String) : Option (Web × Option Response) :=
  if w.refusing then none
  else some ({ w with fetched := w.fetched ++ [url] }, w.answerAtOnce? url)

end Web

end LinkTrail
