import LinkTrail.Pathfinder.Basic

namespace LinkTrail.Pathfinder

structure Ending where
  id : WalkerId
  result : Except Failure String

structure Turn where
  pathfinder : Pathfinder
  endings : List Ending := []

namespace Turn

def ended (t : Turn) (id : WalkerId) (result : Except Failure String) : Turn :=
  { t with endings := t.endings ++ [⟨id, result⟩] }

def move (rules : Rules) (t : Turn) (id : WalkerId) : Turn :=
  match t.pathfinder.walkers[id]? with
  | none => t
  | some w =>
      let (traffic, w, result?) := w.proceed rules id t.pathfinder.traffic
      let w := if w.stage = .leaving then { w with stage := .gone } else w
      let walkers := t.pathfinder.walkers.set id w
      let t := { t with pathfinder := { t.pathfinder with traffic, walkers } }
      match result? with
      | none => t
      | some result => t.ended id result

/-- The walker sets out; its time runs from now on. Without any time it fails at once. -/
def setOut (rules : Rules) (t : Turn) (id : WalkerId) : Turn :=
  match t.pathfinder.walkers[id]? with
  | none => t
  | some w =>
      match rules.timeout.filter (· ≤ 0) with
      | some limit => t.ended id (.error (.timedOut w.trail.origin limit))
      | none =>
          let deadline := rules.timeout.map (t.pathfinder.clock + ·)
          let pathfinder :=
            t.pathfinder.mapWalker id fun w => { w with stage := .walking deadline }
          { t with pathfinder }.move rules id

def step (rules : Rules) (t : Turn) (id : WalkerId) : Turn :=
  match t.pathfinder.stage? id with
  | some .fresh => t.setOut rules id
  | some (.walking _) => t.move rules id
  | some .leaving => t.move rules id
  | _ => t

def conclude (t : Turn) : Pathfinder :=
  t.endings.foldl (fun p ending => p.finish ending.id ending.result) t.pathfinder

end Turn

def expire (rules : Rules) (p : Pathfinder) (id : WalkerId) : Pathfinder :=
  match p.walkers[id]?, rules.timeout with
  | some w, some limit =>
      if w.isOverdue rules p.clock then p.finish id (.error (.timedOut w.trail.origin limit)) else p
  | _, _ => p

/-- Walkers under way move before new ones set out. -/
def turnOrder (p : Pathfinder) : List WalkerId :=
  let (fresh, others) := p.queue.partition fun id => p.stage? id = some .fresh
  others ++ fresh

/-- Walks with deadlines: all walkers move, ended walks are concluded after that, and then those
whose deadline has come fail. -/
def drainTimed (rules : Rules) (p : Pathfinder) : Pathfinder :=
  let t := p.turnOrder.foldl (Turn.step rules) { pathfinder := p }
  let p := t.conclude
  p.registered.values.foldl (expire rules) p

/-- Walks without deadlines: one moves after the other and is concluded before the next. -/
def drainUntimed (rules : Rules) (p : Pathfinder) : Pathfinder :=
  p.queue.foldl (fun p id => (Turn.step rules { pathfinder := p } id).conclude) p

def drain (rules : Rules) (p : Pathfinder) : Pathfinder :=
  let p := if rules.timeout.isSome then p.drainTimed rules else p.drainUntimed rules
  { p with queue := [] }

end LinkTrail.Pathfinder
