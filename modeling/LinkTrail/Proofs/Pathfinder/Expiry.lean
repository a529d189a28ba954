import LinkTrail.Proofs.Pathfinder.Headway
import LinkTrail.Proofs.Seconds.Grain

/-!
How walks with deadlines end. Main statement: a walk ends in time or in the first turn in which its
deadline is due, and what has come in for it up to then counts (`walks_end_on_time`).
-/

namespace LinkTrail

theorem Rules.verdict_ne_timedOut (rules : Rules) (trail : Trail) (response : Response)
    (source : String) (limit : Seconds) :
    rules.verdict trail response ≠ .failed (.timedOut source limit) := by
  unfold verdict
  split
  · simp
  · split
    · simp
    · split
      · simp
      · split
        · simp
        · split
          · simp
          · split <;> simp

theorem Walker.Walk.ne_timedOut {rules : Rules} {id : WalkerId} {t : Traffic} {w : Walker}
    {result : Traffic × Walker × Option (Except Failure String)} (h : Walk rules id t w result)
    (source : String) (limit : Seconds) : result.2.2 ≠ some (.error (.timedOut source limit)) := by
  induction h with
  | idle => simp
  | failed read verdict =>
      intro heq
      obtain rfl := Except.error.inj (Option.some.inj heq)
      exact rules.verdict_ne_timedOut _ _ _ _ verdict
  | arrived read verdict =>
      unfold concludeArrival
      split <;> simp
  | refused read verdict asked =>
      cases asked with
      | refused => simp
  | onward read verdict asked rest ih => exact ih

namespace Pathfinder

variable {rules : Rules} {heard : Response → Prop} {closed : Prop} {start p q m : Pathfinder}
  {id : WalkerId} {w : Walker} {limit : Seconds} {actions : List Action} {action : Action}
  {ticket : Ticket} {caller after : Caller} {outcome : Outcome}

/-- Outside of turns a caller can only learn that the walk was ended before its time. -/
theorem Attended.told_of_act (h : Attended p) (hresting : Resting rules heard True p)
    (hdrain : action ≠ .drain) (hcaller : p.callers[ticket]? = some caller)
    (hpending : caller.progress = .pending)
    (hafter : (p.act rules action).1.callers[ticket]? = some after)
    (hdone : after.progress = .done outcome) : outcome = .failed (.cancelled caller.url) := by
  have hsame : (p.act rules action).1.callers[ticket]? ≠ some caller := by
    intro hsame
    obtain rfl := Option.some.inj (hsame.symm.trans hafter)
    simp [hpending] at hdone
  by_cases hclose : action = .close
  · subst hclose
    obtain ⟨-, hsettles⟩ := h.close hresting.kept
    obtain ⟨id, hid⟩ := h.exists_registered hcaller hpending
    by_cases hstays : caller.url ∈ p.close.registered
    · exact absurd (hsettles.same ticket caller hcaller fun _ => hstays) hsame
    · obtain ⟨told, rfl, htold⟩ := hsettles.told caller.url id hid hstays
      obtain rfl := Option.some.inj ((htold ticket caller hcaller rfl).symm.trans hafter)
      exact (Caller.outcome_eq_of_complete hpending hdone).symm
  · by_cases hcancel : action = .cancel ticket
    · subst hcancel
      simp only [Pathfinder.act, Pathfinder.cancel, List.getElem?_modify_eq, hcaller] at hafter
      obtain rfl := Option.some.inj hafter
      simp [Caller.progress_cancel hpending] at hdone
    · exact absurd (h.callers_act hresting.kept hdrain hclose hcancel hcaller) hsame

/-- Only the end of its time makes a walk time out that does not fail so of itself. -/
theorem Headway.overdue_of_timedOut {result : Walker × Option (Except Failure String)}
    (h : Headway rules limit caller.url id p q result)
    (hwalk : ∀ source limit, result.2 ≠ some (.error (.timedOut source limit)))
    (hcaller : p.callers[ticket]? = some caller) (hpending : caller.progress = .pending)
    (hafter : q.callers[ticket]? = some after) {source : String} {limit' : Seconds}
    (hdone : after.progress = .done (.failed (.timedOut source limit'))) :
    source = caller.url ∧ limit' = limit ∧ result.2 = none ∧
      result.1.isOverdue rules p.clock = true := by
  cases h with
  | @ended moved ended concludes =>
      obtain rfl := Option.some.inj ((concludes.told ticket caller hcaller rfl).symm.trans hafter)
      have hresult := Caller.outcome_eq_of_complete hpending hdone
      cases ended with
      | ok destination => contradiction
      | error failure =>
          obtain rfl : failure = .timedOut source limit' := Outcome.failed.inj hresult
          exact absurd rfl (hwalk source limit')
  | overdue overdue concludes =>
      obtain rfl := Option.some.inj ((concludes.told ticket caller hcaller rfl).symm.trans hafter)
      cases Caller.outcome_eq_of_complete hpending hdone
      exact ⟨rfl, rfl, rfl, overdue⟩
  | onward timely goesOn =>
      obtain rfl := Option.some.inj ((goesOn.same ticket caller hcaller rfl).symm.trans hafter)
      simp [hpending] at hdone

/-- Who learns in a turn that time has run out waits for a walk whose deadline is due and that has
not ended of itself. -/
theorem Attended.timedOut_drain (h : Attended p) (hresting : Resting rules heard closed p)
    (htimed : rules.timeout = some limit) (hcaller : p.callers[ticket]? = some caller)
    (hpending : caller.progress = .pending)
    (hafter : (p.drain rules).callers[ticket]? = some after) {source : String} {limit' : Seconds}
    (hdone : after.progress = .done (.failed (.timedOut source limit'))) :
    source = caller.url ∧ limit' = limit ∧
      ∃ id w, p.registered.get? caller.url = some id ∧ p.walkers[id]? = some w ∧
        (w.stage = .fresh ∧ limit ≤ 0 ∨
          (w.started rules p.clock).isOverdue rules p.clock = true ∧
            ∀ m w, p.NextToMove rules id m → m.walkers[id]? = some w →
              ((w.started rules m.clock).proceed rules id m.traffic).2.2 = none) := by
  obtain ⟨id, hid⟩ := h.exists_registered hcaller hpending
  obtain ⟨w, hw, -⟩ := hresting.exists_stage hid
  by_cases hlate : w.stage = .fresh ∧ limit ≤ 0
  -- A walk that sets out without any time ends with its failure.
  · have hconcludes := h.concludes_of_late hresting htimed hid hw hlate.1 hlate.2
    obtain rfl := Option.some.inj ((hconcludes.told ticket caller hcaller rfl).symm.trans hafter)
    cases Caller.outcome_eq_of_complete hpending hdone
    exact ⟨rfl, rfl, id, w, hid, hw, Or.inl hlate⟩
  -- A walk with time ends of itself or goes on until its deadline is due.
  · have htimely : w.stage = .fresh → ¬ limit ≤ 0 := fun hfresh hle => hlate ⟨hfresh, hle⟩
    obtain ⟨t, -, hheadway⟩ := h.headway_drain hresting htimed hid hw htimely
    have hwalk := Walker.walk_proceed rules id t (w.started rules p.clock)
    obtain ⟨hsource, hlimit, -, hoverdue⟩ :=
      hheadway.overdue_of_timedOut hwalk.ne_timedOut hcaller hpending hafter hdone
    refine ⟨hsource, hlimit, id, w, hid, hw, Or.inr ⟨?_, ?_⟩⟩
    · rw [Walker.isOverdue, hwalk.stage_eq] at hoverdue
      exact hoverdue
    · intro m w' hnext hw'
      obtain ⟨hsame, -⟩ := exists_stepped htimed hresting.paced.nodup hnext
      obtain rfl := Option.some.inj ((hsame.trans hw).symm.trans hw')
      have hmoves := h.headway_of_next hresting htimed hid hnext hw' htimely
      obtain ⟨-, -, hnone, -⟩ := hmoves.overdue_of_timedOut
        (Walker.walk_proceed rules id m.traffic (w.started rules m.clock)).ne_timedOut hcaller
        hpending hafter hdone
      exact hnone

/-- How walks with this time end in the turn from `p` to `q`, told by when their walkers set out. -/
structure EndsOnTime (rules : Rules) (limit : Seconds) (setOutOnce : WalkerId → Seconds → Prop)
    (p q : Pathfinder) : Prop where
  timely : ∀ id, q.IsRegistered id → ∃ clock, setOutOnce id clock ∧
    q.stage? id = some (.walking (some (clock + limit))) ∧
      q.clock + Seconds.grain ≤ clock + limit ∧ q.clock ≤ clock + limit ∧
        (clock + limit ≤ q.clock → rules.timer = .strict ∧ q.clock + Seconds.grain ≤ q.clock)
  justified : ∀ (ticket : Ticket) (caller after : Caller) (source : String) (limit' : Seconds),
    p.callers[ticket]? = some caller → caller.progress = .pending →
      q.callers[ticket]? = some after → after.progress = .done (.failed (.timedOut source limit')) →
        source = caller.url ∧ limit' = limit ∧ ∃ id, p.registered.get? caller.url = some id ∧
          (limit ≤ 0 ∨
            (∃ clock, setOutOnce id clock ∧ rules.timer.isDue (clock + limit) p.clock = true) ∧
              ∀ m w, p.NextToMove rules id m → m.walkers[id]? = some w →
                ((w.started rules m.clock).proceed rules id m.traffic).2.2 = none)
  heeded : ¬ limit ≤ 0 → ∀ origin id, p.registered.get? origin = some id →
    ∀ m w result, p.NextToMove rules id m → m.walkers[id]? = some w →
      ((w.started rules m.clock).proceed rules id m.traffic).2.2 = some result →
        ∀ (ticket : Ticket) (caller : Caller), p.callers[ticket]? = some caller →
          caller.url = origin →
            q.callers[ticket]? = some (caller.complete (.ofResult origin result))
  untimed : limit ≤ 0 → ∀ origin id, p.registered.get? origin = some id →
    origin ∉ q.registered ∧ ∀ (ticket : Ticket) (caller : Caller),
      p.callers[ticket]? = some caller → caller.url = origin →
        q.callers[ticket]? = some (caller.complete (.failed (.timedOut origin limit)))
  vanished : ∀ origin id, p.registered.get? origin = some id → origin ∉ q.registered →
    origin ∉ q.openUrls ∧ q.Vanished id
  listed : ∀ id, q.IsRegistered id → ∃ w, q.walkers[id]? = some w ∧ w.inbox = [] ∧
    ∀ url, q.traffic.places id url = if w.trail.path.getLast? = some url then 1 else 0

/-- In the next turn a registered walker has set out once and has the deadline of that time. -/
theorem Dated.started (h : Dated rules limit start actions) (htimed : rules.timeout = some limit)
    (hregistered : (start.run rules actions).IsRegistered id)
    (hw : (start.run rules actions).walkers[id]? = some w)
    (hgoing : w.IsGoing) :
    ∃ clock, SetsOutOnce rules start (actions ++ [.drain]) id clock ∧
      (w.started rules (start.run rules actions).clock).stage = .walking (some (clock + limit)) := by
  have hget : (start.run rules actions).stage? id = some w.stage := by simp [stage?, hw]
  rcases hgoing with hfresh | ⟨deadline, hwalking⟩
  · rw [hfresh] at hget
    exact ⟨_, setsOutOnce_drain hregistered hget (h.fresh id hregistered hget),
      stage_started_of_fresh htimed hfresh _⟩
  · rw [hwalking] at hget
    obtain ⟨-, clock, rfl, honce⟩ := h.walking id deadline hregistered hget
    refine ⟨clock, honce.concat fun _ => by simp [hget], ?_⟩
    rw [started_of_walking hwalking]
    exact hwalking

theorem Resting.vanished_drain (h : Resting rules heard closed p)
    (htimed : rules.timeout = some limit) (hid : p.IsRegistered id) :
    (p.drain rules).IsRegistered id ∨ (p.drain rules).Vanished id := by
  have hregistered : (p.allMoved rules).pathfinder.IsRegistered id := by
    obtain ⟨origin, horigin⟩ := hid
    exact ⟨origin, (registered_allMoved rules p).symm ▸ horigin⟩
  rw [drain_eq_of_timed htimed]
  refine (h.kept_allMoved.vanished_or_registered hregistered
    (p.allMoved rules).conclude.registered.values).imp_right ?_
  exact fun hvanished => ⟨hvanished.unregistered, hvanished.unlisted, hvanished.cleared⟩

theorem Resting.listed_drain (h : Resting rules heard True p)
    (hregistered : (p.drain rules).IsRegistered id) :
    ∃ w, (p.drain rules).walkers[id]? = some w ∧ w.inbox = [] ∧
      ∀ url, (p.drain rules).traffic.places id url =
        if w.trail.path.getLast? = some url then 1 else 0 := by
  have hdrained : Resting rules heard True (p.drain rules) :=
    @Resting.act rules heard True p h .drain trivial
  obtain ⟨origin, horigin⟩ := hregistered
  obtain ⟨w, hw, -, hunderway⟩ := hdrained.kept.underway List.not_mem_nil horigin
  have hempty := hdrained.inbox_of_not_mem_queue ⟨origin, horigin⟩ hw List.not_mem_nil
  refine ⟨w, hw, hempty, ?_⟩
  rcases hunderway.record.waits with ⟨⟨response, hinbox, -⟩, -⟩ | ⟨⟨-, hplaces⟩, -⟩
  · rw [hempty] at hinbox
    contradiction
  · exact hplaces

theorem Attended.endsOnTime (h : Attended (start.run rules actions))
    (hresting : Resting rules heard True (start.run rules actions))
    (htimed : rules.timeout = some limit) (hdated : Dated rules limit start actions) :
    EndsOnTime rules limit (SetsOutOnce rules start (actions ++ [.drain]))
      (start.run rules actions) ((start.run rules actions).drain rules) := by
  have hdrained := hresting.dated_concat htimed hdated .drain
  have hclock := clock_drain rules (start.run rules actions)
  obtain ⟨hattended, hsettles⟩ := h.drain_of_timed hresting htimed
  refine ⟨?_, ?_, ?_, ?_, ?_, fun id => hresting.listed_drain⟩
  · intro id hregistered
    obtain ⟨-, deadline, hstage, htimely, -⟩ := hresting.stage_drain htimed hregistered
    have hwalking := hdrained.walking id deadline
    rw [run_concat] at hwalking
    obtain ⟨-, clock, rfl, honce⟩ := hwalking hregistered hstage
    rw [hclock]
    exact ⟨clock, honce, hstage, Timer.ahead_of_not_isDue (htimely _ rfl)⟩
  · intro ticket caller after source limit' hcaller hpending hafter hdone
    obtain ⟨hsource, hlimit, id, w, hid, hw, hcase⟩ :=
      h.timedOut_drain hresting htimed hcaller hpending hafter hdone
    refine ⟨hsource, hlimit, id, hid, hcase.imp (fun hlate => hlate.2) ?_⟩
    rintro ⟨hoverdue, hnone⟩
    obtain ⟨w', hw', -, hgoing, -⟩ := hresting.exists_stage hid
    obtain rfl := Option.some.inj (hw.symm.trans hw')
    obtain ⟨clock, honce, hstarted⟩ := hdated.started htimed ⟨_, hid⟩ hw hgoing
    rw [isOverdue_of_walking hstarted] at hoverdue
    exact ⟨⟨clock, honce, hoverdue⟩, hnone⟩
  · intro htimely origin id horigin m w result hnext hw hproceed
    have hheadway := h.headway_of_next hresting htimed horigin hnext hw fun _ => htimely
    generalize ((w.started rules m.clock).proceed rules id m.traffic).2 = moved
      at hheadway hproceed
    obtain ⟨moved, result?⟩ := moved
    obtain rfl : result? = some result := hproceed
    exact hheadway.concludes.told
  · intro hlate origin id horigin
    obtain ⟨w, hw, rfl, hgoing, -⟩ := hresting.exists_stage horigin
    have hfresh : w.stage = .fresh := by
      refine hgoing.resolve_right ?_
      rintro ⟨deadline, hwalking⟩
      exact (hdated.walking id deadline ⟨_, horigin⟩ (by simp [stage?, hw, hwalking])).1 hlate
    have hconcludes := h.concludes_of_late hresting htimed horigin hw hfresh hlate
    exact ⟨hconcludes.gone, hconcludes.told⟩
  · intro origin id horigin hgone
    refine ⟨?_, (hresting.vanished_drain htimed ⟨origin, horigin⟩).resolve_left ?_⟩
    · rw [openUrls, hattended.keys_eq]
      exact mt Table.mem_iff.2 hgone
    · intro hlast
      exact hgone (Table.mem_of_get? (hsettles.get?_of_isRegistered hresting.kept horigin hlast))

/-- After any run, the walks with deadlines end on time in a turn, and no walk times out otherwise. -/
theorem walks_end_on_time (rules : Rules) (limit : Seconds) (htimed : rules.timeout = some limit)
    (answer? : String → Option Response) (actions : List Action) :
    let start := onWeb { answer? := answer? }
    let p := start.run rules actions
    EndsOnTime rules limit (SetsOutOnce rules start (actions ++ [.drain])) p (p.drain rules) ∧
      ∀ action, action ≠ .drain → ∀ (ticket : Ticket) (caller after : Caller),
        p.callers[ticket]? = some caller → caller.progress = .pending →
          (p.act rules action).1.callers[ticket]? = some after →
            ∀ source limit', after.progress ≠ .done (.failed (.timedOut source limit')) := by
  intro start p
  have hresting : Resting rules (fun _ => True) True p :=
    resting_run rules answer? fun _ => trivial
  have hattended : Attended p := attended_run rules answer? actions
  refine ⟨hattended.endsOnTime hresting htimed (dated_run htimed answer? actions), ?_⟩
  intro action hdrain ticket caller after hcaller hpending hafter source limit' hdone
  have hcancelled := hattended.told_of_act hresting hdrain hcaller hpending hafter hdone
  simp at hcancelled

/-- Two walkers wait at one URL when the time of the first is up. -/
theorem walk_ends_beside_another :
    let rules := ({} : Settings).rules
    let p := (onWeb {}).run rules
      [.attach, .resolve "http://a/", .drain, .advance 20, .resolve "http://b/", .drain,
        .deliver (.redirect "http://a/" "http://c/"), .deliver (.redirect "http://b/" "http://c/"),
        .drain, .advance 10]
    let q := p.drain rules
    q.callers[0]? = some ⟨"http://a/", .done (.failed (.timedOut "http://a/" 30))⟩ ∧
      (∃ clock : Seconds, rules.timer.isDue (clock + 30) p.clock = true) ∧ q.Vanished 0 ∧
        ∃ w, q.walkers[1]? = some w ∧ w.inbox = [] ∧
          ∀ url, q.traffic.places 1 url = if w.trail.path.getLast? = some url then 1 else 0 := by
  intro rules p q
  obtain ⟨hends, -⟩ := walks_end_on_time rules 30 (by decide +kernel) (fun _ => none)
    [.attach, .resolve "http://a/", .drain, .advance 20, .resolve "http://b/", .drain,
      .deliver (.redirect "http://a/" "http://c/"), .deliver (.redirect "http://b/" "http://c/"),
      .drain, .advance 10]
  obtain ⟨hbefore, hregistered⟩ : p.callers[0]? = some ⟨"http://a/", .pending⟩ ∧
      p.registered.get? "http://a/" = some 0 := by decide +kernel
  obtain ⟨hafter, hgone, hstays⟩ :
      q.callers[0]? = some ⟨"http://a/", .done (.failed (.timedOut "http://a/" 30))⟩ ∧
        "http://a/" ∉ q.registered ∧ q.registered.get? "http://b/" = some 1 := by decide +kernel
  refine ⟨hafter, ?_, (hends.vanished _ _ hregistered hgone).2, hends.listed 1 ⟨_, hstays⟩⟩
  obtain ⟨-, -, id, -, hlate | ⟨⟨clock, -, hdue⟩, -⟩⟩ :=
    hends.justified 0 _ _ _ _ hbefore rfl hafter rfl
  · exact absurd hlate (by decide +kernel)
  · exact ⟨clock, hdue⟩

/-- A deadline that is less than a grain ahead is due already; and a strict timer lets a deadline pass
where the clock does not tell a grain. -/
theorem walks_end_off_deadlines :
    let limit : Seconds := ⟨3.861825e-10⟩
    let rules := { ({} : Settings).rules with timeout := some limit }
    let actions : List Action := [.attach, .advance 1, .resolve "http://a/"]
    let p := (onWeb {}).run rules actions
    let rules' := { ({} : Settings).rules with timeout := some 1 }
    let actions' : List Action := [.attach, .advance 16777216, .resolve "http://a/"]
    let p' := (onWeb {}).run rules' actions'
    let q' := (onWeb {}).run rules' (actions' ++ [.drain] ++ [.advance 1] ++ [.drain])
    (p.callers[0]? = some ⟨"http://a/", .pending⟩ ∧
      (p.drain rules).callers[0]? =
        some ⟨"http://a/", .done (.failed (.timedOut "http://a/" limit))⟩ ∧
      p.registered.get? "http://a/" = some 0 ∧
      SetsOutOnce rules (onWeb {}) (actions ++ [.drain]) 0 p.clock ∧
      ¬ p.clock + limit ≤ p.clock ∧ ¬ limit ≤ 0) ∧
    q'.callers[0]? = some ⟨"http://a/", .pending⟩ ∧ q'.registered.get? "http://a/" = some 0 ∧
      SetsOutOnce rules' (onWeb {}) (actions' ++ [.drain] ++ [.advance 1] ++ [.drain]) 0 p'.clock ∧
      p'.clock + 1 ≤ q'.clock := by
  intro limit rules actions p rules' actions' p' q'
  have hregistered : p.registered.get? "http://a/" = some 0 := by decide +kernel
  have hfresh : p.stage? 0 = some .fresh := by decide +kernel
  have hregistered' : p'.registered.get? "http://a/" = some 0 := by decide +kernel
  have hfresh' : p'.stage? 0 = some .fresh := by decide +kernel
  have hdated : Dated rules limit (onWeb {}) actions := dated_run rfl (fun _ => none) actions
  have hdated' : Dated rules' 1 (onWeb {}) actions' := dated_run rfl (fun _ => none) actions'
  have honce := setsOutOnce_drain ⟨_, hregistered⟩ hfresh (hdated.fresh 0 ⟨_, hregistered⟩ hfresh)
  have honce' := setsOutOnce_drain ⟨_, hregistered'⟩ hfresh'
    (hdated'.fresh 0 ⟨_, hregistered'⟩ hfresh')
  have hstill : SetsOutOnce rules' (onWeb {}) (actions' ++ [.drain] ++ [.advance 1]) 0 p'.clock :=
    honce'.concat nofun
  have hlater : SetsOutOnce rules' (onWeb {}) (actions' ++ [.drain] ++ [.advance 1] ++ [.drain]) 0
    p'.clock := hstill.concat fun _ => by decide +kernel
  exact ⟨⟨by decide +kernel, by decide +kernel, hregistered, honce, by decide +kernel,
    by decide +kernel⟩, by decide +kernel, by decide +kernel, hlater, by decide +kernel⟩

end Pathfinder

end LinkTrail
