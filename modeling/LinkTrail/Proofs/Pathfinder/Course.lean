import LinkTrail.Proofs.Pathfinder.Record
import LinkTrail.Proofs.Pathfinder.Settling

/-!
One walker in a turn with deadlines. Main statements: the walker ends in the turn exactly with that to
which its responses lead, or at once if it sets out without any time (`allMoved_of_next`,
`ends_iff_of_late`), and otherwise keeps its deadline (`stage_allMoved`).
-/

namespace LinkTrail

def Walker.IsGoing (w : Walker) : Prop :=
  w.stage = .fresh ∨ ∃ deadline, w.stage = .walking deadline

theorem Walker.IsGoing.ne_gone {w : Walker} (h : w.IsGoing) : w.stage ≠ .gone := by
  rcases h with hfresh | ⟨deadline, hwalking⟩
  · simp [hfresh]
  · simp [hwalking]

namespace Pathfinder

variable {rules : Rules} {heard : Response → Prop} {closed : Prop} {p m : Pathfinder}
  {id : WalkerId} {w : Walker} {limit : Seconds}

namespace Turn

variable {ids : List WalkerId} {t : Turn}

theorem walker_foldl_step (hid : id ∉ ids) :
    (ids.foldl (Turn.step rules) t).pathfinder.walkers[id]? = t.pathfinder.walkers[id]? := by
  induction ids generalizing t with
  | nil => rfl
  | cons first ids ih =>
      obtain ⟨hne, hrest⟩ := not_or.1 (mt List.mem_cons.2 hid)
      exact (ih hrest).trans ((stepped_step rules t first).moves.walker_eq id hne)

theorem mem_endings_foldl_step {ending : Ending} (hid : ending.id ∉ ids) :
    ending ∈ (ids.foldl (Turn.step rules) t).endings ↔ ending ∈ t.endings := by
  induction ids generalizing t with
  | nil => rfl
  | cons first ids ih =>
      obtain ⟨hne, hrest⟩ := not_or.1 (mt List.mem_cons.2 hid)
      obtain ⟨result?, hendings⟩ := (stepped_step rules t first).endings_eq
      rw [List.foldl_cons, ih hrest, hendings, List.mem_append]
      refine or_iff_left ?_
      intro hmem
      obtain ⟨result, -, rfl⟩ := Option.map_eq_some_iff.1 (Option.mem_toList.1 hmem)
      exact hne rfl

theorem clock_foldl_step : (ids.foldl (Turn.step rules) t).pathfinder.clock = t.pathfinder.clock := by
  rw [pathfinder_foldl_step]

end Turn

def allMoved (rules : Rules) (p : Pathfinder) : Turn :=
  p.turnOrder.foldl (Turn.step rules) { pathfinder := p }

theorem clock_allMoved (rules : Rules) (p : Pathfinder) :
    (p.allMoved rules).pathfinder.clock = p.clock :=
  Turn.clock_foldl_step

theorem walker_allMoved_of_not_mem (hid : id ∉ p.queue) :
    (p.allMoved rules).pathfinder.walkers[id]? = p.walkers[id]? :=
  Turn.walker_foldl_step (mt (mem_turnOrder_iff p id).1 hid)

theorem not_mem_endings_of_not_mem (hid : id ∉ p.queue) (result : Except Failure String) :
    ⟨id, result⟩ ∉ (p.allMoved rules).endings := by
  intro hmem
  have hnone := (@Turn.mem_endings_foldl_step rules p.turnOrder { pathfinder := p } ⟨id, result⟩
    (mt (mem_turnOrder_iff p id).1 hid)).1 hmem
  exact List.not_mem_nil hnone

/-- The walker moves once, from the state in which it is the next to move. -/
theorem exists_stepped (htimed : rules.timeout = some limit) (hnodup : p.queue.Nodup)
    (hnext : p.NextToMove rules id m) :
    m.walkers[id]? = p.walkers[id]? ∧ m.clock = p.clock ∧
      ∃ t u : Turn, t.pathfinder = m ∧ id ∉ t.endedIds ∧ Turn.Stepped rules t id u ∧
        (p.allMoved rules).pathfinder.walkers[id]? = u.pathfinder.walkers[id]? ∧
        ∀ result, ⟨id, result⟩ ∈ (p.allMoved rules).endings ↔ ⟨id, result⟩ ∈ u.endings := by
  simp only [NextToMove, htimed, Option.isSome_some, if_true] at hnext
  obtain ⟨moved, rest, horder, rfl⟩ := hnext
  have horders := nodup_turnOrder hnodup
  rw [horder] at horders
  have hmoved : id ∉ moved := fun hmem =>
    (List.nodup_append.1 horders).2.2 id hmem id List.mem_cons_self rfl
  have hrest : id ∉ rest := (List.nodup_cons.1 (List.nodup_append.1 horders).2.1).1
  have hsplit : p.allMoved rules =
      rest.foldl (Turn.step rules)
        ((moved.foldl (Turn.step rules) { pathfinder := p }).step rules id) := by
    rw [allMoved, horder, List.foldl_append, List.foldl_cons]
  refine ⟨Turn.walker_foldl_step hmoved, Turn.clock_foldl_step, _, _, rfl, ?_,
    Turn.stepped_step rules _ id, ?_, ?_⟩
  · intro hmem
    obtain ⟨ending, hending, rfl⟩ := List.mem_map.1 hmem
    exact List.not_mem_nil ((Turn.mem_endings_foldl_step hmoved).1 hending)
  · rw [hsplit]
    exact Turn.walker_foldl_step hrest
  · intro result
    rw [hsplit]
    exact @Turn.mem_endings_foldl_step rules rest _ ⟨id, result⟩ hrest

theorem exists_next (htimed : rules.timeout = some limit) (hid : id ∈ p.queue) :
    ∃ m, p.NextToMove rules id m := by
  obtain ⟨moved, rest, horder⟩ := List.append_of_mem ((mem_turnOrder_iff p id).2 hid)
  simp only [NextToMove, htimed, Option.isSome_some, if_true]
  exact ⟨_, moved, rest, horder, rfl⟩

theorem filter_timeout_eq_none_iff (htimed : rules.timeout = some limit) :
    rules.timeout.filter (· ≤ 0) = none ↔ ¬ limit ≤ 0 := by
  simp [htimed, Option.filter]

theorem mem_append_singleton_ending {t : Turn} (hid : id ∉ t.endedIds)
    (result? : Option (Except Failure String)) (result : Except Failure String) :
    ⟨id, result⟩ ∈ t.endings ++ (result?.map (Ending.mk id)).toList ↔ result? = some result := by
  have hold : ⟨id, result⟩ ∉ t.endings := fun hmem => hid (List.mem_map.2 ⟨_, hmem, rfl⟩)
  rw [List.mem_append, or_iff_right hold]
  cases result? with
  | none => simp
  | some other => simp [eq_comm]

theorem ends_iff_of_late (htimed : rules.timeout = some limit) (hnodup : p.queue.Nodup)
    (hid : id ∈ p.queue) (hw : p.walkers[id]? = some w) (hstage : w.stage = .fresh)
    (hlate : limit ≤ 0) (result : Except Failure String) :
    ⟨id, result⟩ ∈ (p.allMoved rules).endings ↔
      result = .error (.timedOut w.trail.origin limit) := by
  obtain ⟨m, hnext⟩ := exists_next htimed hid
  obtain ⟨hwalker, -, t, u, rfl, hgoing, hstepped, -, hendings⟩ :=
    exists_stepped htimed hnodup hnext
  have hw' := hwalker.trans hw
  rw [hendings]
  cases hstepped with
  | idle stage => exact absurd (stage w hw') (by simp [hstage])
  | @late w' limit' walker stage untimely =>
      obtain rfl := Option.some.inj (hw'.symm.trans walker)
      obtain rfl : limit = limit' := by simpa [htimed] using (Option.filter_eq_some_iff.1 untimely).1
      have hended := mem_append_singleton_ending hgoing
        (some (.error (.timedOut w.trail.origin limit))) result
      rw [Option.some.injEq, eq_comm] at hended
      exact hended
  | @moved w' after traffic result? walker stage timely proceed =>
      obtain rfl := Option.some.inj (hw'.symm.trans walker)
      exact absurd hlate ((filter_timeout_eq_none_iff htimed).1 (timely hstage))

theorem stage_started_of_fresh (htimed : rules.timeout = some limit) (hstage : w.stage = .fresh)
    (clock : Seconds) : (w.started rules clock).stage = .walking (some (clock + limit)) := by
  simp [Walker.started, hstage, htimed]

theorem started_of_walking {deadline : Option Seconds} (hstage : w.stage = .walking deadline)
    (clock : Seconds) : w.started rules clock = w := by
  simp [Walker.started, hstage]

theorem isOverdue_of_walking {deadline : Seconds} (hstage : w.stage = .walking (some deadline))
    (clock : Seconds) : w.isOverdue rules clock = rules.timer.isDue deadline clock := by
  rw [Walker.isOverdue, hstage]

theorem settled_proceed (hgoing : w.IsGoing) (clock : Seconds) (t : Traffic) :
    ((w.started rules clock).proceed rules id t).2.1.settled =
      ((w.started rules clock).proceed rules id t).2.1 := by
  have hsame := (Walker.walk_proceed rules id t (w.started rules clock)).stage_eq
  rw [Walker.settled, if_neg]
  rw [hsame, Walker.started]
  split
  · simp
  · rename_i hfresh
    obtain ⟨deadline, hwalking⟩ := hgoing.resolve_left hfresh
    simp [hwalking]

/-- A walker with time is left where its responses lead it, and ends exactly with that to which they
lead. -/
theorem allMoved_of_next (htimed : rules.timeout = some limit) (hnodup : p.queue.Nodup)
    (hnext : p.NextToMove rules id m) (hw : m.walkers[id]? = some w) (hgoing : w.IsGoing)
    (htimely : w.stage = .fresh → ¬ limit ≤ 0) :
    (p.allMoved rules).pathfinder.walkers[id]? =
        some ((w.started rules m.clock).proceed rules id m.traffic).2.1 ∧
      ∀ result, ⟨id, result⟩ ∈ (p.allMoved rules).endings ↔
        ((w.started rules m.clock).proceed rules id m.traffic).2.2 = some result := by
  obtain ⟨-, -, t, u, rfl, hunended, hstepped, hmoved, hendings⟩ :=
    exists_stepped htimed hnodup hnext
  have hsettled := @settled_proceed rules id w hgoing t.pathfinder.clock t.pathfinder.traffic
  cases hstepped with
  | idle stage => exact absurd (stage w hw) hgoing.ne_gone
  | @late w' limit' walker stage untimely =>
      obtain rfl := Option.some.inj (hw.symm.trans walker)
      rw [(filter_timeout_eq_none_iff htimed).2 (htimely stage)] at untimely
      contradiction
  | @moved w' after traffic result? walker stage timely proceed =>
      obtain rfl := Option.some.inj (hw.symm.trans walker)
      rw [proceed] at hsettled ⊢
      constructor
      · rw [hmoved, ← hsettled]
        exact List.getElem?_set_self (List.getElem?_eq_some_iff.1 walker).1
      · intro result
        rw [hendings]
        exact mem_append_singleton_ending hunended result? result

theorem stage_allMoved (htimed : rules.timeout = some limit) (hnodup : p.queue.Nodup)
    (hw : p.walkers[id]? = some w) (hgoing : w.IsGoing) (hdue : w.stage = .fresh → id ∈ p.queue)
    (htimely : w.stage = .fresh → ¬ limit ≤ 0) :
    ∃ after, (p.allMoved rules).pathfinder.walkers[id]? = some after ∧
      after.stage = (w.started rules p.clock).stage := by
  by_cases hid : id ∈ p.queue
  · obtain ⟨m, hnext⟩ := exists_next htimed hid
    obtain ⟨hsame, hclock, -⟩ := exists_stepped htimed hnodup hnext
    obtain ⟨hmoved, -⟩ := allMoved_of_next htimed hnodup hnext (hsame.trans hw) hgoing htimely
    rw [hclock] at hmoved
    exact ⟨_, hmoved, (Walker.walk_proceed _ _ _ _).stage_eq⟩
  · obtain ⟨deadline, hwalking⟩ := hgoing.resolve_left fun hfresh => hid (hdue hfresh)
    exact ⟨w, (walker_allMoved_of_not_mem hid).trans hw, by rw [started_of_walking hwalking]⟩

structure Vanished (p : Pathfinder) (id : WalkerId) : Prop where
  unregistered : ¬ p.IsRegistered id
  unlisted : ∀ url, id ∉ p.traffic.waiters url
  cleared : ∃ w, p.walkers[id]? = some w ∧ w.trail = w.trail.cleared

theorem Vanished.of_spares {q : Pathfinder} (h : p.Vanished id) (hspares : Spares id p q) :
    q.Vanished id where
  unregistered := mt hspares.registered_iff.1 h.unregistered
  unlisted url := mt (hspares.mem_waiters_iff url).1 (h.unlisted url)
  cleared := by
    rw [hspares.walker_eq]
    exact h.cleared

theorem Kept.vanished_finish {ended todo : List WalkerId}
    (h : Kept rules heard closed ended todo p) (other : WalkerId)
    (result : Except Failure String) (hid : p.IsRegistered id ∨ p.Vanished id) :
    (p.finish other result).IsRegistered id ∨ (p.finish other result).Vanished id := by
  by_cases hne : id = other
  · rw [← hne]
    right
    rcases hid with ⟨origin, horigin⟩ | hvanished
    · obtain ⟨w, hw, rfl, hended, hiff⟩ := h.exists_of_registered horigin
      obtain ⟨hlt, -⟩ := List.getElem?_eq_some_iff.1 hw
      obtain ⟨-, hunlisted⟩ := forget_of_ended hw hiff hended
      refine ⟨h.not_isRegistered_finish id result, ?_, ?_⟩
      · intro url
        rw [Traffic.mem_waiters_iff, traffic_finish, hunlisted url]
        exact Nat.lt_irrefl 0
      · rw [finish_of_registered hw horigin]
        exact ⟨{ w with trail := w.trail.cleared, stage := .gone }, by simp [complete, hlt], rfl⟩
    · obtain ⟨w, hw, hcleared⟩ := hvanished.cleared
      have hnot : p.registered.get? w.trail.origin ≠ some id := fun horigin =>
        hvanished.unregistered ⟨_, horigin⟩
      rw [finish_of_not_registered hw hnot]
      refine ⟨hvanished.unregistered, hvanished.unlisted, { w with stage := .gone }, ?_, hcleared⟩
      rw [getElem?_mapWalker_self, hw]
      rfl
  · have hspares := (moves_finish p other result).spares hne
    exact hid.imp hspares.registered_iff.2 fun hvanished => hvanished.of_spares hspares

theorem Kept.vanished_expire {ended todo : List WalkerId}
    (h : Kept rules heard closed ended todo p) (other : WalkerId)
    (hid : p.IsRegistered id ∨ p.Vanished id) :
    (p.expire rules other).IsRegistered id ∨ (p.expire rules other).Vanished id := by
  unfold Pathfinder.expire
  split
  · split
    · exact h.vanished_finish other _ hid
    · exact hid
  · exact hid

theorem Turn.Kept.vanished_or_registered {t : Turn} {todo : List WalkerId}
    (h : t.Kept rules heard closed todo) (hid : t.pathfinder.IsRegistered id) (ids : List WalkerId) :
    (ids.foldl (Pathfinder.expire rules) t.conclude).IsRegistered id ∨
      (ids.foldl (Pathfinder.expire rules) t.conclude).Vanished id := by
  have hconcluded := List.foldlRecOn (motive := fun q : Pathfinder =>
      q.Kept rules heard closed t.endedIds todo ∧ (q.IsRegistered id ∨ q.Vanished id))
    t.endings (fun q ending => q.finish ending.id ending.result) ⟨h.kept, Or.inl hid⟩
    fun q hq ending _ => ⟨hq.1.finish ending.id ending.result, hq.1.vanished_finish _ _ hq.2⟩
  have hexpired := List.foldlRecOn (motive := fun q : Pathfinder =>
      q.Kept rules heard closed [] todo ∧ (q.IsRegistered id ∨ q.Vanished id))
    ids (Pathfinder.expire rules) ⟨h.conclude, hconcluded.2⟩
    fun q hq other _ => ⟨hq.1.expire other, hq.1.vanished_expire other hq.2⟩
  exact hexpired.2

end Pathfinder

end LinkTrail
