import LinkTrail.Proofs.Pathfinder.Frame

namespace LinkTrail

def Walker.started (rules : Rules) (clock : Seconds) (w : Walker) : Walker :=
  if w.stage = .fresh then { w with stage := .walking (rules.timeout.map (clock + ·)) } else w

def Walker.settled (w : Walker) : Walker :=
  if w.stage = .leaving then { w with stage := .gone } else w

@[simp] theorem Walker.trail_started (rules : Rules) (clock : Seconds) (w : Walker) :
    (w.started rules clock).trail = w.trail := by
  unfold started
  split <;> rfl

@[simp] theorem Walker.inbox_started (rules : Rules) (clock : Seconds) (w : Walker) :
    (w.started rules clock).inbox = w.inbox := by
  unfold started
  split <;> rfl

namespace Pathfinder.Turn

inductive Stepped (rules : Rules) (t : Turn) (id : WalkerId) : Turn → Prop where
  | idle (stage : ∀ w, t.pathfinder.walkers[id]? = some w → w.stage = .gone) : Stepped rules t id t
  | late {w : Walker} {limit : Seconds} (walker : t.pathfinder.walkers[id]? = some w)
      (stage : w.stage = .fresh) (untimely : rules.timeout.filter (· ≤ 0) = some limit) :
      Stepped rules t id (t.ended id (.error (.timedOut w.trail.origin limit)))
  | moved {w after : Walker} {traffic : Traffic} {result? : Option (Except Failure String)}
      (walker : t.pathfinder.walkers[id]? = some w) (stage : w.stage ≠ .gone)
      (timely : w.stage = .fresh → rules.timeout.filter (· ≤ 0) = none)
      (proceed : (w.started rules t.pathfinder.clock).proceed rules id t.pathfinder.traffic =
        (traffic, after, result?)) :
      Stepped rules t id
        { pathfinder :=
            { t.pathfinder with
              traffic := traffic
              walkers := t.pathfinder.walkers.set id after.settled }
          endings := t.endings ++ (result?.map (Ending.mk id)).toList }

variable {rules : Rules} {t u : Turn} {id : WalkerId}

theorem move_of_some {w after : Walker} {traffic : Traffic}
    {result? : Option (Except Failure String)} (hw : t.pathfinder.walkers[id]? = some w)
    (hproceed : w.proceed rules id t.pathfinder.traffic = (traffic, after, result?)) :
    t.move rules id =
      { pathfinder :=
          { t.pathfinder with
            traffic := traffic
            walkers := t.pathfinder.walkers.set id after.settled }
        endings := t.endings ++ (result?.map (Ending.mk id)).toList } := by
  simp only [move, hw, hproceed, Walker.settled]
  cases result? with
  | none => simp
  | some result => rfl

theorem stepped_step (rules : Rules) (t : Turn) (id : WalkerId) :
    Stepped rules t id (t.step rules id) := by
  cases hw : t.pathfinder.walkers[id]? with
  | none =>
      have hstep : t.step rules id = t := by simp [step, stage?, hw]
      rw [hstep]
      exact .idle (by simp [hw])
  | some w =>
      rcases hproceed : (w.started rules t.pathfinder.clock).proceed rules id
        t.pathfinder.traffic with ⟨traffic, after, result?⟩
      cases hstage : w.stage with
      | fresh =>
          cases htimeout : rules.timeout.filter (· ≤ 0) with
          | some limit =>
              have hstep : t.step rules id =
                  t.ended id (.error (.timedOut w.trail.origin limit)) := by
                simp [step, stage?, setOut, hw, hstage, htimeout]
              rw [hstep]
              exact .late hw hstage htimeout
          | none =>
              have hstep : t.step rules id =
                  { t with pathfinder := t.pathfinder.mapWalker id fun w => { w with
                      stage := .walking (rules.timeout.map (t.pathfinder.clock + ·)) } }.move
                    rules id := by
                simp [step, stage?, setOut, hw, hstage, htimeout]
              have hmoved := Stepped.moved hw (by simp [hstage]) (fun _ => htimeout) hproceed
              simp only [Walker.started, hstage, if_true] at hproceed
              have hwalker : (t.pathfinder.mapWalker id fun w => { w with
                  stage := .walking (rules.timeout.map (t.pathfinder.clock + ·)) }).walkers[id]? =
                  some { w with
                    stage := .walking (rules.timeout.map (t.pathfinder.clock + ·)) } := by
                rw [getElem?_mapWalker_self, hw]
                rfl
              have hmove := @move_of_some rules
                { t with pathfinder := t.pathfinder.mapWalker id fun w => { w with
                    stage := .walking (rules.timeout.map (t.pathfinder.clock + ·)) } }
                id _ _ _ _ hwalker hproceed
              rw [hstep, hmove]
              simp only [mapWalker, set_modify_self]
              exact hmoved
      | walking deadline =>
          have hmoved := Stepped.moved hw (by simp [hstage]) (by simp [hstage]) hproceed
          simp only [Walker.started, hstage, reduceCtorEq, if_false] at hproceed
          have hstep : t.step rules id = t.move rules id := by simp [step, stage?, hw, hstage]
          rw [hstep, move_of_some hw hproceed]
          exact hmoved
      | leaving =>
          have hmoved := Stepped.moved hw (by simp [hstage]) (by simp [hstage]) hproceed
          simp only [Walker.started, hstage, reduceCtorEq, if_false] at hproceed
          have hstep : t.step rules id = t.move rules id := by simp [step, stage?, hw, hstage]
          rw [hstep, move_of_some hw hproceed]
          exact hmoved
      | gone =>
          have hstep : t.step rules id = t := by simp [step, stage?, hw, hstage]
          rw [hstep]
          exact .idle (by simp [hw, hstage])

namespace Stepped

theorem moves (h : Stepped rules t id u) : Moves id t.pathfinder u.pathfinder := by
  cases h with
  | idle stage => exact .refl id t.pathfinder
  | late walker stage untimely => exact .refl id t.pathfinder
  | @moved w after traffic result? walker stage timely proceed =>
      have walk := (w.started rules t.pathfinder.clock).walk_proceed rules id t.pathfinder.traffic
      rw [proceed] at walk
      exact {
        web := walk.isAskedMore
        crowded := walk.crowded
        matched := fun h => h
        walker_eq := fun other hne => List.getElem?_set_ne (Ne.symm hne)
        places_eq := fun other hne => walk.places_of_ne hne
        registered_iff := fun _ _ _ => Iff.rfl }

theorem endings_eq (h : Stepped rules t id u) :
    ∃ result? : Option (Except Failure String),
      u.endings = t.endings ++ (result?.map (Ending.mk id)).toList := by
  cases h with
  | idle stage => exact ⟨none, by simp⟩
  | @late w limit walker stage untimely =>
      exact ⟨some (.error (.timedOut w.trail.origin limit)), rfl⟩
  | @moved w after traffic result? walker stage timely proceed => exact ⟨result?, rfl⟩

theorem pathfinder_eq (h : Stepped rules t id u) :
    u.pathfinder =
      { t.pathfinder with traffic := u.pathfinder.traffic, walkers := u.pathfinder.walkers } := by
  cases h <;> rfl

end Stepped

theorem web_foldl_step (rules : Rules) (ids : List WalkerId) (t : Turn) :
    t.pathfinder.web.IsAskedMore (ids.foldl (Turn.step rules) t).pathfinder.web := by
  induction ids generalizing t with
  | nil => exact .refl _
  | cons id ids ih => exact (stepped_step rules t id).moves.web.trans (ih (t.step rules id))

theorem pathfinder_foldl_step (rules : Rules) (ids : List WalkerId) (t : Turn) :
    (ids.foldl (Turn.step rules) t).pathfinder =
      { t.pathfinder with
        traffic := (ids.foldl (Turn.step rules) t).pathfinder.traffic
        walkers := (ids.foldl (Turn.step rules) t).pathfinder.walkers } := by
  induction ids generalizing t with
  | nil => rfl
  | cons id ids ih =>
      rw [List.foldl_cons, ih, (stepped_step rules t id).pathfinder_eq]

end Pathfinder.Turn

end LinkTrail
