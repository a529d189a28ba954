import LinkTrail.Proofs.Pathfinder.Attended
import LinkTrail.Proofs.Pathfinder.Deadlines

/-!
One registered walker in a turn with deadlines. Main statement: it moves once, over the traffic of
others; with its end, or with its deadline, its callers learn the outcome, and otherwise it goes on
as it was left (`Attended.headway_drain`).
-/

namespace LinkTrail.Pathfinder

variable {rules : Rules} {heard : Response → Prop} {closed : Prop} {p q m : Pathfinder}
  {id : WalkerId} {w : Walker} {limit : Seconds} {origin : String}

structure Concludes (origin : String) (outcome : Outcome) (p q : Pathfinder) : Prop where
  gone : origin ∉ q.registered
  told : ∀ (ticket : Ticket) (caller : Caller), p.callers[ticket]? = some caller →
    caller.url = origin → q.callers[ticket]? = some (caller.complete outcome)

structure GoesOn (origin : String) (id : WalkerId) (after : Walker) (p q : Pathfinder) : Prop where
  registered : q.registered.get? origin = some id
  walker : q.walkers[id]? = some after
  same : ∀ (ticket : Ticket) (caller : Caller), p.callers[ticket]? = some caller →
    caller.url = origin → q.callers[ticket]? = some caller

/-- What becomes from `p` to `q` of a walk with this time, told by the walker when it has moved and by
the result of the walk. -/
inductive Headway (rules : Rules) (limit : Seconds) (origin : String) (id : WalkerId)
    (p q : Pathfinder) :
    Walker × Option (Except Failure String) → Prop where
  | ended {after : Walker} {result : Except Failure String}
      (concludes : Concludes origin (.ofResult origin result) p q) :
      Headway rules limit origin id p q (after, some result)
  | overdue {after : Walker} (overdue : after.isOverdue rules p.clock = true)
      (concludes : Concludes origin (.failed (.timedOut origin limit)) p q) :
      Headway rules limit origin id p q (after, none)
  | onward {after : Walker} (timely : ¬ after.isOverdue rules p.clock = true)
      (goesOn : GoesOn origin id after p q) : Headway rules limit origin id p q (after, none)

theorem Headway.concludes {after : Walker} {result : Except Failure String}
    (h : Headway rules limit origin id p q (after, some result)) :
    Concludes origin (.ofResult origin result) p q := by
  cases h with
  | ended concludes => exact concludes

theorem clock_drain (rules : Rules) (p : Pathfinder) : (p.drain rules).clock = p.clock := by
  unfold drain drainTimed drainUntimed
  dsimp only
  split
  · refine List.foldlRecOn (motive := fun q : Pathfinder => q.clock = p.clock) _ _ ?_
      fun _ hq _ _ => clock_expire.trans hq
    exact (clock_foldl_finish _ _).trans Turn.clock_foldl_step
  · refine List.foldlRecOn (motive := fun q : Pathfinder => q.clock = p.clock) _ _ rfl
      fun q hq id _ => ?_
    exact (clock_foldl_finish _ _).trans
      ((@Turn.clock_foldl_step rules [id] { pathfinder := q }).trans hq)

theorem Attended.drain_of_timed (h : Attended p) (hresting : Resting rules heard closed p)
    (htimed : rules.timeout = some limit) :
    Attended (p.drain rules) ∧ Settles ((p.allMoved rules).Tells rules) p (p.drain rules) := by
  obtain ⟨hdrained, hsettles⟩ := h.drainTimed hresting.kept hresting.paced.nodup
  rw [Pathfinder.drain_of_timed htimed]
  exact ⟨hdrained.congr rfl rfl rfl rfl rfl, hsettles.trans (.of_eq _ rfl rfl rfl)⟩

theorem Attended.exists_concludes (h : Attended p) (hresting : Resting rules heard closed p)
    (htimed : rules.timeout = some limit) (horigin : p.registered.get? origin = some id)
    (hgone : ¬ (p.drain rules).IsRegistered id) :
    ∃ outcome, (p.allMoved rules).Tells rules origin id outcome ∧
      Concludes origin outcome p (p.drain rules) := by
  obtain ⟨-, hsettles⟩ := h.drain_of_timed hresting htimed
  have hnot : origin ∉ (p.drain rules).registered := fun hmem =>
    hgone ⟨origin, hsettles.get?_of_mem horigin hmem⟩
  obtain ⟨outcome, hcause, htold⟩ := hsettles.told origin id horigin hnot
  exact ⟨outcome, hcause, hnot, htold⟩

theorem Attended.concludes_of_ending (h : Attended p) (hresting : Resting rules heard closed p)
    (htimed : rules.timeout = some limit) {result : Except Failure String}
    (horigin : p.registered.get? origin = some id)
    (hending : ∀ other, ⟨id, other⟩ ∈ (p.allMoved rules).endings ↔ other = result) :
    Concludes origin (.ofResult origin result) p (p.drain rules) := by
  have hended : id ∈ (p.allMoved rules).endedIds := List.mem_map.2 ⟨_, (hending result).2 rfl, rfl⟩
  have hgone : ¬ (p.drain rules).IsRegistered id := by
    obtain ⟨w, hw, -⟩ := hresting.kept_allMoved.kept.exists_of_registered
      ((registered_allMoved rules p).symm ▸ horigin)
    intro hregistered
    exact ((hresting.isRegistered_drain_iff htimed horigin hw).1.1 hregistered).1 hended
  obtain ⟨outcome, hcause, hconcludes⟩ := h.exists_concludes hresting htimed horigin hgone
  rcases hcause with ⟨⟨other, result'⟩, hmem, rfl, rfl⟩ | ⟨hgoing, -⟩
  · rw [← (hending result').1 hmem]
    exact hconcludes
  · exact absurd hended hgoing

theorem Attended.concludes_of_late (h : Attended p) (hresting : Resting rules heard closed p)
    (htimed : rules.timeout = some limit) (horigin : p.registered.get? origin = some id)
    (hw : p.walkers[id]? = some w) (hstage : w.stage = .fresh) (hlate : limit ≤ 0) :
    Concludes origin (.failed (.timedOut origin limit)) p (p.drain rules) := by
  obtain ⟨w', hw', rfl, -, hdue⟩ := hresting.exists_stage horigin
  obtain rfl := Option.some.inj (hw.symm.trans hw')
  exact h.concludes_of_ending hresting htimed horigin fun other =>
    ends_iff_of_late htimed hresting.paced.nodup (hdue hstage) hw hstage hlate other

theorem Attended.concludes_of_overdue (h : Attended p) (hresting : Resting rules heard closed p)
    (htimed : rules.timeout = some limit) (horigin : p.registered.get? origin = some id)
    (hgoing : id ∉ (p.allMoved rules).endedIds)
    (hw : (p.allMoved rules).pathfinder.walkers[id]? = some w)
    (hoverdue : w.isOverdue rules p.clock = true) :
    Concludes origin (.failed (.timedOut origin limit)) p (p.drain rules) := by
  have hgone : ¬ (p.drain rules).IsRegistered id := fun hregistered =>
    ((hresting.isRegistered_drain_iff htimed horigin hw).1.1 hregistered).2 hoverdue
  obtain ⟨outcome, hcause, hconcludes⟩ := h.exists_concludes hresting htimed horigin hgone
  rcases hcause with ⟨ending, hmem, rfl, -⟩ | ⟨-, -, limit', -, -, htimeout, rfl⟩
  · exact absurd (List.mem_map.2 ⟨ending, hmem, rfl⟩) hgoing
  · obtain rfl := Option.some.inj (htimed.symm.trans htimeout)
    exact hconcludes

theorem Attended.goesOn_drain (h : Attended p) (hresting : Resting rules heard closed p)
    (htimed : rules.timeout = some limit) (horigin : p.registered.get? origin = some id)
    (hgoing : id ∉ (p.allMoved rules).endedIds)
    (hw : (p.allMoved rules).pathfinder.walkers[id]? = some w)
    (htimely : ¬ w.isOverdue rules p.clock = true) : GoesOn origin id w p (p.drain rules) := by
  obtain ⟨-, hsettles⟩ := h.drain_of_timed hresting htimed
  obtain ⟨hremains, hwalker⟩ := hresting.isRegistered_drain_iff htimed horigin hw
  have hlast := hremains.2 ⟨hgoing, htimely⟩
  have hregistered := hsettles.get?_of_isRegistered hresting.kept horigin hlast
  refine ⟨hregistered, hwalker hlast, ?_⟩
  rintro ticket caller hcaller rfl
  exact hsettles.same ticket caller hcaller fun _ => Table.mem_of_get? hregistered

theorem web_of_next (htimed : rules.timeout = some limit) (hnext : p.NextToMove rules id m) :
    p.web.IsAskedMore m.web := by
  simp only [NextToMove, htimed, Option.isSome_some, if_true] at hnext
  obtain ⟨moved, rest, -, rfl⟩ := hnext
  exact Turn.web_foldl_step rules moved { pathfinder := p }

theorem Attended.headway_of_moved (h : Attended p) (hresting : Resting rules heard closed p)
    (htimed : rules.timeout = some limit) (horigin : p.registered.get? origin = some id)
    {after : Walker} {result? : Option (Except Failure String)}
    (hafter : (p.allMoved rules).pathfinder.walkers[id]? = some after)
    (hending : ∀ result, ⟨id, result⟩ ∈ (p.allMoved rules).endings ↔ result? = some result) :
    Headway rules limit origin id p (p.drain rules) (after, result?) := by
  cases result? with
  | some result =>
      refine .ended (h.concludes_of_ending hresting htimed horigin fun other => ?_)
      rw [hending, Option.some.injEq, eq_comm]
  | none =>
      have hgoing : id ∉ (p.allMoved rules).endedIds := by
        intro hmem
        obtain ⟨⟨other, result⟩, hended, rfl⟩ := List.mem_map.1 hmem
        simpa using (hending result).1 hended
      by_cases hoverdue : after.isOverdue rules p.clock = true
      · exact .overdue hoverdue
          (h.concludes_of_overdue hresting htimed horigin hgoing hafter hoverdue)
      · exact .onward hoverdue (h.goesOn_drain hresting htimed horigin hgoing hafter hoverdue)

theorem Attended.headway_of_next (h : Attended p) (hresting : Resting rules heard closed p)
    (htimed : rules.timeout = some limit) (horigin : p.registered.get? origin = some id)
    (hnext : p.NextToMove rules id m) (hw : m.walkers[id]? = some w)
    (htimely : w.stage = .fresh → ¬ limit ≤ 0) :
    Headway rules limit origin id p (p.drain rules)
      ((w.started rules m.clock).proceed rules id m.traffic).2 := by
  have hnodup := hresting.paced.nodup
  obtain ⟨hsame, -⟩ := exists_stepped htimed hnodup hnext
  obtain ⟨w', hw', -, hgoing, -⟩ := hresting.exists_stage horigin
  obtain rfl := Option.some.inj (hw.symm.trans (hsame.trans hw'))
  obtain ⟨hmoved, hending⟩ := allMoved_of_next htimed hnodup hnext hw hgoing htimely
  exact h.headway_of_moved hresting htimed horigin hmoved hending

/-- In a turn a walker with time moves once, over what others have left of the traffic. -/
theorem Attended.headway_drain (h : Attended p) (hresting : Resting rules heard closed p)
    (htimed : rules.timeout = some limit) (horigin : p.registered.get? origin = some id)
    (hw : p.walkers[id]? = some w) (htimely : w.stage = .fresh → ¬ limit ≤ 0) :
    ∃ t : Traffic, p.web.IsAskedMore t.web ∧
      Headway rules limit origin id p (p.drain rules)
        ((w.started rules p.clock).proceed rules id t).2 := by
  by_cases hid : id ∈ p.queue
  · obtain ⟨m, hnext⟩ := exists_next htimed hid
    obtain ⟨hsame, hclock, -⟩ := exists_stepped htimed hresting.paced.nodup hnext
    rw [← hclock]
    exact ⟨m.traffic, web_of_next htimed hnext,
      h.headway_of_next hresting htimed horigin hnext (hsame.trans hw) htimely⟩
  -- Who is not in the queue has nothing to take up.
  · obtain ⟨w', hw', -, hgoing, hdue⟩ := hresting.exists_stage horigin
    obtain rfl := Option.some.inj (hw.symm.trans hw')
    obtain ⟨deadline, hwalking⟩ := hgoing.resolve_left fun hfresh => hid (hdue hfresh)
    have hinbox := hresting.inbox_of_not_mem_queue ⟨origin, horigin⟩ hw hid
    refine ⟨p.traffic, .refl p.web, ?_⟩
    rw [started_of_walking hwalking, Walker.proceed, hinbox]
    refine h.headway_of_moved hresting htimed horigin
      ((walker_allMoved_of_not_mem hid).trans hw) fun result => ?_
    exact iff_of_false (not_mem_endings_of_not_mem hid result) (by simp)

end LinkTrail.Pathfinder
