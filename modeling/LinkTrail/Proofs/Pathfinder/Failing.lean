import LinkTrail.Proofs.Pathfinder.Headway
import LinkTrail.Proofs.Pathfinder.Residue

/-!
A walker that has come to a URL whose response makes it fail. Main statements: its callers wait, or
learn of that failure, unless they give up, the time runs out or the walk is ended before
(`Failing.run`); and they wait no longer than to the turn after that response
(`Failing.told_of_deliver`).
-/

namespace LinkTrail

theorem Walker.Walk.of_failing {rules : Rules} {id : WalkerId} {t : Traffic} {w : Walker}
    {result : Traffic × Walker × Option (Except Failure String)} {failure : Failure}
    (h : Walk rules id t w result)
    (hfails : ∀ response inbox, w.inbox = response :: inbox →
      rules.verdict w.trail response = .failed failure) :
    (w.inbox = [] ∧ result.2 = (w, none)) ∨
      (w.inbox ≠ [] ∧ result.2.2 = some (.error failure)) := by
  cases h with
  | idle empty => exact Or.inl ⟨empty, rfl⟩
  | failed read verdict =>
      obtain rfl := Verdict.failed.inj (verdict.symm.trans (hfails _ _ read))
      exact Or.inr ⟨by simp [read], rfl⟩
  | arrived read verdict =>
      rw [hfails _ _ read] at verdict
      contradiction
  | refused read verdict asked =>
      rw [hfails _ _ read] at verdict
      contradiction
  | onward read verdict asked rest =>
      rw [hfails _ _ read] at verdict
      contradiction

namespace Pathfinder

variable {rules : Rules} {heard : Response → Prop} {closed : Prop} {p q m n : Pathfinder}
  {id : WalkerId} {w : Walker} {origin : String} {outcome : Outcome} {failure : Failure}
  {ended todo : List WalkerId}

def moveAlone (rules : Rules) (p : Pathfinder) (id : WalkerId) : Pathfinder :=
  (Turn.step rules { pathfinder := p } id).conclude

theorem drain_of_untimed (huntimed : rules.timeout = none) :
    p.drain rules = { p.queue.foldl (moveAlone rules) p with queue := [] } := by
  simp only [drain, huntimed, Option.isSome_none, Bool.false_eq_true, if_false]
  rfl

theorem foldl_moveAlone_of_not_mem {ids : List WalkerId} (hid : id ∉ ids) :
    (ids.foldl (moveAlone rules) p).walkers[id]? = p.walkers[id]? ∧
      ∀ origin, (ids.foldl (moveAlone rules) p).registered.get? origin = some id ↔
        p.registered.get? origin = some id := by
  induction ids generalizing p with
  | nil => exact ⟨rfl, fun _ => Iff.rfl⟩
  | cons first ids ih =>
      obtain ⟨hne, hrest⟩ := not_or.1 (mt List.mem_cons.2 hid)
      have hmoves := Turn.moves_step_conclude rules p first
      obtain ⟨hwalker, hregistered⟩ := @ih (moveAlone rules p first) hrest
      exact ⟨hwalker.trans (hmoves.walker_eq id hne), fun origin =>
        (hregistered origin).trans (hmoves.registered_iff id hne origin)⟩

theorem GoesOn.of_settles {cause : String → WalkerId → Outcome → Prop} {after : Walker}
    (h : Settles cause p q) (hregistered : q.registered.get? origin = some id)
    (hwalker : q.walkers[id]? = some after) : GoesOn origin id after p q where
  registered := hregistered
  walker := hwalker
  same := by
    rintro ticket caller hcaller rfl
    exact h.same ticket caller hcaller fun _ => Table.mem_of_get? hregistered

theorem GoesOn.trans {before after : Walker} (h : GoesOn origin id before p q)
    (h' : GoesOn origin id after q n) : GoesOn origin id after p n where
  registered := h'.registered
  walker := h'.walker
  same := fun ticket caller hcaller hurl =>
    h'.same ticket caller (h.same ticket caller hcaller hurl) hurl

theorem GoesOn.concludes {before : Walker} (h : GoesOn origin id before p q)
    (h' : Concludes origin outcome q n) : Concludes origin outcome p n where
  gone := h'.gone
  told := fun ticket caller hcaller hurl =>
    h'.told ticket caller (h.same ticket caller hcaller hurl) hurl

theorem Concludes.settles {cause : String → WalkerId → Outcome → Prop}
    (h : Concludes origin outcome p q) (h' : Settles cause q n) : Concludes origin outcome p n where
  gone := fun hmem => h.gone (h'.mem hmem)
  told := fun ticket caller hcaller hurl =>
    h'.settled (h.told ticket caller hcaller hurl) (caller.complete_ne_pending outcome)

/-- The walkers that move alone leave one that is not among them as it is. -/
theorem Attended.goesOn_foldl_moveAlone (h : Attended p) {ids : List WalkerId} (hid : id ∉ ids)
    (horigin : p.registered.get? origin = some id) (hw : p.walkers[id]? = some w) :
    Attended (ids.foldl (moveAlone rules) p) ∧
      GoesOn origin id w p (ids.foldl (moveAlone rules) p) := by
  obtain ⟨hwalker, hregistered⟩ := @foldl_moveAlone_of_not_mem rules p id ids hid
  obtain ⟨hafter, hsettles⟩ := @Attended.foldl_step_conclude p rules h ids
  exact ⟨hafter, .of_settles hsettles ((hregistered origin).2 horigin) (hwalker.trans hw)⟩

theorem Attended.moveAlone_of_failing (h : Attended p) (huntimed : rules.timeout = none)
    (horigin : p.registered.get? origin = some id) (hw : p.walkers[id]? = some w)
    (hname : w.trail.origin = origin) (hgoing : w.IsGoing)
    (hfails : ∀ response inbox, w.inbox = response :: inbox →
      rules.verdict w.trail response = .failed failure) :
    (w.inbox = [] ∧ ∃ after, after.trail = w.trail ∧
      GoesOn origin id after p (moveAlone rules p id)) ∨
    (w.inbox ≠ [] ∧ Concludes origin (.failed failure) p (moveAlone rules p id)) := by
  have hstepped := Turn.stepped_step rules { pathfinder := p } id
  obtain ⟨hsteady, -⟩ := @Attended.foldl_step (fun _ _ _ => True) p rules h [id]
  obtain ⟨-, hsettles⟩ := @Attended.foldl_step_conclude p rules h [id]
  simp only [List.foldl_cons, List.foldl_nil] at hsteady hsettles
  unfold moveAlone
  generalize Turn.step rules { pathfinder := p } id = u at *
  cases hstepped with
  | idle stage => exact absurd (stage w hw) hgoing.ne_gone
  | late walker stage untimely => simp [huntimed] at untimely
  | @moved w' after traffic result? walker stage timely proceed =>
      obtain rfl := Option.some.inj (hw.symm.trans walker)
      obtain ⟨hlt, -⟩ := List.getElem?_eq_some_iff.1 hw
      have hsettled := @settled_proceed rules id w hgoing p.clock p.traffic
      have walk := Walker.walk_proceed rules id p.traffic (w.started rules p.clock)
      rw [proceed] at hsettled walk
      have hlast : (p.walkers.set id after.settled)[id]? = some after := by
        rw [List.getElem?_set_self hlt, hsettled]
      rcases walk.of_failing (by simpa using hfails) with ⟨hinbox, hresult⟩ | ⟨hinbox, hresult⟩
      · obtain ⟨rfl, rfl⟩ := Prod.ext_iff.1 hresult
        exact Or.inl ⟨by simpa using hinbox, _, w.trail_started rules p.clock,
          .of_settles hsettles horigin hlast⟩
      · obtain rfl : result? = some (.error failure) := hresult
        refine Or.inr ⟨by simpa using hinbox, ?_⟩
        have hsame : after.trail.origin = origin := by
          rw [walk.origin_eq, w.trail_started, hname]
        have hgivesUp := @givesUp_finish
          { p with traffic := traffic, walkers := p.walkers.set id after.settled } id after hlast
          (hsame.symm ▸ horigin) (.error failure)
        rw [hsame] at hgivesUp
        refine ⟨?_, ?_⟩
        · intro hmem
          have herased := hgivesUp.registered_eq ▸ hmem
          exact (Table.mem_erase_iff.1 herased).2 rfl
        · rintro ticket caller hcaller rfl
          refine (hgivesUp.getElem?_callers hsteady ticket).trans ?_
          simp [hcaller, Outcome.ofResult]

inductive Ceases (rules : Rules) (failure : Failure) (origin : String) : Outcome → Prop where
  | failed : Ceases rules failure origin (.failed failure)
  | timedOut {limit : Seconds} (timed : rules.timeout = some limit) :
      Ceases rules failure origin (.failed (.timedOut origin limit))

theorem Attended.drain_of_failing_untimed (h : Attended p)
    (hresting : Resting rules heard closed p) (huntimed : rules.timeout = none)
    (horigin : p.registered.get? origin = some id) (hw : p.walkers[id]? = some w)
    (hfails : ∀ response inbox, w.inbox = response :: inbox →
      rules.verdict w.trail response = .failed failure) :
    (w.inbox = [] ∧ ∃ after, after.trail = w.trail ∧ GoesOn origin id after p (p.drain rules)) ∨
      Concludes origin (.failed failure) p (p.drain rules) := by
  obtain ⟨w', hw', hname, hgoing, -⟩ := hresting.exists_stage horigin
  obtain rfl := Option.some.inj (hw.symm.trans hw')
  rw [drain_of_untimed huntimed]
  have hrest : ∀ q : Pathfinder,
      ((w.inbox = [] ∧ ∃ after, after.trail = w.trail ∧ GoesOn origin id after p q) ∨
        Concludes origin (.failed failure) p q) →
      (w.inbox = [] ∧ ∃ after, after.trail = w.trail ∧
          GoesOn origin id after p { q with queue := [] }) ∨
        Concludes origin (.failed failure) p { q with queue := [] } := by
    rintro q (⟨hinbox, after, htrail, hgoes⟩ | hconcludes)
    · exact Or.inl ⟨hinbox, after, htrail, hgoes.registered, hgoes.walker, hgoes.same⟩
    · exact Or.inr ⟨hconcludes.gone, hconcludes.told⟩
  apply hrest
  by_cases hid : id ∈ p.queue
  · obtain ⟨before, later, hqueue⟩ := List.append_of_mem hid
    have hnodup := hqueue ▸ hresting.paced.nodup
    have hbefore : id ∉ before := fun hmem =>
      (List.nodup_append.1 hnodup).2.2 id hmem id List.mem_cons_self rfl
    have hlater : id ∉ later := (List.nodup_cons.1 (List.nodup_append.1 hnodup).2.1).1
    rw [hqueue, List.foldl_append, List.foldl_cons]
    obtain ⟨hmiddle, hfirst⟩ := @goesOn_foldl_moveAlone rules p id w origin h before hbefore
      horigin hw
    generalize before.foldl (moveAlone rules) p = m at hmiddle hfirst
    obtain ⟨hmoved, -⟩ := @Attended.foldl_step_conclude m rules hmiddle [id]
    rcases hmiddle.moveAlone_of_failing huntimed hfirst.registered hfirst.walker hname hgoing
      hfails with ⟨hinbox, after, htrail, hgoes⟩ | ⟨-, hconcludes⟩
    · obtain ⟨-, hlast⟩ := @goesOn_foldl_moveAlone rules (moveAlone rules m id) id after origin
        hmoved later hlater hgoes.registered hgoes.walker
      exact Or.inl ⟨hinbox, after, htrail, (hfirst.trans hgoes).trans hlast⟩
    · obtain ⟨-, hsettles⟩ := @Attended.foldl_step_conclude (moveAlone rules m id) rules hmoved
        later
      exact Or.inr ((hfirst.concludes hconcludes).settles hsettles)
  -- Who is not in the queue has nothing to take up.
  · have hinbox := hresting.inbox_of_not_mem_queue ⟨origin, horigin⟩ hw hid
    obtain ⟨-, hgoes⟩ := @goesOn_foldl_moveAlone rules p id w origin h p.queue hid horigin hw
    exact Or.inl ⟨hinbox, w, rfl, hgoes⟩

/-- In a turn a walker that has got the response that makes it fail, and no other walker, fails with
it or with the end of its time. -/
theorem Attended.drain_of_failing (h : Attended p) (hresting : Resting rules heard closed p)
    (horigin : p.registered.get? origin = some id) (hw : p.walkers[id]? = some w)
    (hfails : ∀ response inbox, w.inbox = response :: inbox →
      rules.verdict w.trail response = .failed failure) :
    (w.inbox = [] ∧ ∃ after, after.trail = w.trail ∧ GoesOn origin id after p (p.drain rules)) ∨
      ∃ outcome, Ceases rules failure origin outcome ∧ Concludes origin outcome p (p.drain rules) := by
  cases htimed : rules.timeout with
  | none =>
      exact (h.drain_of_failing_untimed hresting htimed horigin hw hfails).imp_right
        fun hconcludes => ⟨_, .failed, hconcludes⟩
  | some limit =>
      by_cases hlate : w.stage = .fresh ∧ limit ≤ 0
      · exact Or.inr ⟨_, .timedOut htimed,
          h.concludes_of_late hresting htimed horigin hw hlate.1 hlate.2⟩
      · obtain ⟨t, -, hheadway⟩ := h.headway_drain hresting htimed horigin hw
          fun hfresh hle => hlate ⟨hfresh, hle⟩
        have walk := Walker.walk_proceed rules id t (w.started rules p.clock)
        generalize (w.started rules p.clock).proceed rules id t = result at hheadway walk
        obtain ⟨after, moved, result?⟩ := result
        rcases walk.of_failing (by simpa using hfails) with ⟨hinbox, hresult⟩ | ⟨-, hresult⟩
        · obtain ⟨rfl, rfl⟩ := Prod.ext_iff.1 hresult
          cases hheadway with
          | overdue overdue concludes => exact Or.inr ⟨_, .timedOut htimed, concludes⟩
          | onward timely goesOn =>
              exact Or.inl ⟨by simpa using hinbox, _, w.trail_started rules p.clock, goesOn⟩
        · obtain rfl : result? = some (.error failure) := hresult
          exact Or.inr ⟨_, .failed, hheadway.concludes⟩

def Reads (p : Pathfinder) (id : WalkerId) : Prop :=
  ∃ w, p.walkers[id]? = some w ∧ w.inbox ≠ []

/-- What a caller of a walk that fails in its turn can come to, who may have given up or whose walk may
have been ended before that. -/
inductive ComesTo (rules : Rules) (failure : Failure) (origin : String) (givenUp closed : Prop) :
    Progress → Prop where
  | ceased {outcome : Outcome} (ceases : Ceases rules failure origin outcome) :
      ComesTo rules failure origin givenUp closed (.done outcome)
  | cancelled (cancelled : givenUp) : ComesTo rules failure origin givenUp closed .cancelled
  | dismissed (dismissed : closed) :
      ComesTo rules failure origin givenUp closed (.done (.failed (.cancelled origin)))

structure Failing (rules : Rules) (heard : Response → Prop) (failure : Failure) (origin : String)
    (id : WalkerId) (trail : Trail) (ticket : Ticket) (p : Pathfinder) : Prop where
  attended : Attended p
  resting : Resting rules heard True p
  registered : p.registered.get? origin = some id
  walker : ∃ w, p.walkers[id]? = some w ∧ w.trail = trail
  fails : ∀ response, heard response → response.url = trail.tip →
    rules.verdict trail response = .failed failure
  caller : p.callers[ticket]? = some ⟨origin, .pending⟩

variable {trail : Trail} {ticket : Ticket} {givenUp : Prop} {progress : Progress}

theorem ComesTo.mono {givenUp' closed' : Prop}
    (h : ComesTo rules failure origin givenUp closed progress) (hgivenUp : givenUp → givenUp')
    (hclosed : closed → closed') : ComesTo rules failure origin givenUp' closed' progress := by
  cases h with
  | ceased ceases => exact .ceased ceases
  | cancelled cancelled => exact .cancelled (hgivenUp cancelled)
  | dismissed dismissed => exact .dismissed (hclosed dismissed)

theorem ComesTo.ne_pending (h : ComesTo rules failure origin givenUp closed progress) :
    progress ≠ .pending := by
  cases h <;> simp

namespace Failing

theorem exists_underway (h : Failing rules heard failure origin id trail ticket p) :
    ∃ w, p.walkers[id]? = some w ∧ w.trail = trail ∧
      w.Underway rules heard (p.traffic.places id) := by
  obtain ⟨w, hw, -, hunderway⟩ := h.resting.kept.underway List.not_mem_nil h.registered
  obtain ⟨w', hw', htrail⟩ := h.walker
  obtain rfl := Option.some.inj (hw.symm.trans hw')
  exact ⟨w, hw, htrail, hunderway⟩

theorem hears_eq (h : Failing rules heard failure origin id trail ticket p) (url : String) :
    p.web.listeners.hears url = PatternSet.allUrls.accepts url := by
  cases hattached : p.attached with
  | true => exact h.attended.hears_eq hattached url
  | false =>
      have hregistered := h.registered
      rw [h.attended.detached hattached] at hregistered
      contradiction

/-- A turn ends the walk if its response is there, and otherwise may end it for want of time. -/
theorem drain (h : Failing rules heard failure origin id trail ticket p) :
    (Failing rules heard failure origin id trail ticket (p.drain rules) ∧ ¬ p.Reads id) ∨
      ∃ outcome, (p.drain rules).callers[ticket]? = some ⟨origin, .done outcome⟩ ∧
        Ceases rules failure origin outcome := by
  obtain ⟨w, hw, rfl, hunderway⟩ := h.exists_underway
  have hread : ∀ response inbox, w.inbox = response :: inbox →
      rules.verdict w.trail response = .failed failure := by
    intro response inbox read
    obtain ⟨-, known, here, -⟩ := hunderway.of_read read
    exact h.fails response known here
  rcases h.attended.drain_of_failing h.resting h.registered hw hread with
    ⟨hinbox, after, htrail, hgoes⟩ | ⟨outcome, hceases, hconcludes⟩
  · obtain ⟨hattended, -⟩ := h.attended.drain h.resting
    have hresting := @Resting.act rules heard True p h.resting .drain trivial
    refine Or.inl ⟨⟨hattended, hresting, hgoes.registered, ⟨after, hgoes.walker, htrail⟩, h.fails,
      hgoes.same ticket _ h.caller rfl⟩, ?_⟩
    rintro ⟨w', hw', hreads⟩
    obtain rfl := Option.some.inj (hw.symm.trans hw')
    exact hreads hinbox
  · exact Or.inr ⟨outcome, hconcludes.told ticket _ h.caller rfl, hceases⟩

theorem close (h : Failing rules heard failure origin id trail ticket p) :
    p.close.callers[ticket]? = some ⟨origin, .done (.failed (.cancelled origin))⟩ := by
  obtain ⟨-, hsettles⟩ := h.attended.close h.resting.kept
  have hgone : origin ∉ p.close.registered := by
    rw [h.resting.kept.registered_close trivial]
    exact List.not_mem_nil
  obtain ⟨outcome, rfl, htold⟩ := hsettles.told origin id h.registered hgone
  exact htold ticket _ h.caller rfl

theorem stay (h : Failing rules heard failure origin id trail ticket p) {action : Action}
    (haction : action.IsWithin heard True) (hdrain : action ≠ .drain) (hclose : action ≠ .close)
    (hcancel : action ≠ .cancel ticket) :
    Failing rules heard failure origin id trail ticket (p.act rules action).1 ∧
      (p.Reads id → (p.act rules action).1.Reads id) := by
  obtain ⟨w, hw, htrail, -⟩ := h.exists_underway
  have hcaller := h.attended.callers_act h.resting.kept hdrain hclose hcancel h.caller
  obtain ⟨hattended, htogether⟩ := h.attended.act h.resting action
  obtain ⟨responses, hwalker⟩ := h.resting.walker_act hdrain hclose hw
  have hregistered : (p.act rules action).1.registered.get? origin = some id := by
    rcases htogether.fate origin id h.registered with ⟨hstays, -⟩ | ⟨hgone, -⟩
    · exact hstays
    · obtain ⟨other, hother⟩ := hattended.exists_registered hcaller rfl
      exact absurd (Table.mem_of_get? hother) hgone
  refine ⟨⟨hattended, h.resting.act haction, hregistered, ⟨_, hwalker, htrail⟩, h.fails, hcaller⟩, ?_⟩
  rintro ⟨w', hw', hreads⟩
  obtain rfl := Option.some.inj (hw.symm.trans hw')
  exact ⟨_, hwalker, by simp [hreads]⟩

theorem act (h : Failing rules heard failure origin id trail ticket p) {action : Action}
    (haction : action.IsWithin heard True) :
    (Failing rules heard failure origin id trail ticket (p.act rules action).1 ∧
      (p.Reads id → action ≠ .drain ∧ (p.act rules action).1.Reads id)) ∨
    ∃ progress, (p.act rules action).1.callers[ticket]? = some ⟨origin, progress⟩ ∧
      ComesTo rules failure origin (action = .cancel ticket) (action = .close) progress := by
  by_cases hdrain : action = .drain
  · subst hdrain
    rcases h.drain with ⟨hafter, hempty⟩ | ⟨outcome, htold, hceases⟩
    · exact Or.inl ⟨hafter, fun hreads => absurd hreads hempty⟩
    · exact Or.inr ⟨_, htold, .ceased hceases⟩
  by_cases hclose : action = .close
  · subst hclose
    exact Or.inr ⟨_, h.close, .dismissed rfl⟩
  by_cases hcancel : action = .cancel ticket
  · subst hcancel
    refine Or.inr ⟨.cancelled, ?_, .cancelled rfl⟩
    simp [Pathfinder.act, Pathfinder.cancel, h.caller, Caller.cancel]
  · obtain ⟨hafter, hreads⟩ := h.stay haction hdrain hclose hcancel
    exact Or.inl ⟨hafter, fun hread => ⟨hdrain, hreads hread⟩⟩

theorem deliver (h : Failing rules heard failure origin id trail ticket p) {response : Response}
    (hresponse : heard response) (hurl : response.url = trail.tip)
    (haccepts : PatternSet.allUrls.accepts response.url = true) :
    Failing rules heard failure origin id trail ticket (p.deliver response) ∧
      (p.deliver response).Reads id := by
  obtain ⟨hafter, hreads⟩ := @stay rules heard p id origin failure trail ticket h
    (.deliver response) hresponse (by simp) (by simp) (by simp)
  refine ⟨hafter, ?_⟩
  obtain ⟨w, hw, rfl, hunderway⟩ := h.exists_underway
  rcases hunderway.place with ⟨waiting, hinbox, -⟩ | ⟨-, hplaces⟩
  · exact hreads ⟨w, hw, by simp [hinbox]⟩
  · have hplace := hplaces response.url
    rw [if_pos hurl] at hplace
    cases hwaiting : p.traffic.awaiting.get? response.url with
    | none =>
        rw [Traffic.places, Traffic.waiters_of_get?_none hwaiting] at hplace
        contradiction
    | some waiting =>
        rw [Traffic.places, Traffic.waiters_of_get? hwaiting] at hplace
        rw [Reads, deliver_of_awaited ((h.hears_eq _).trans haccepts) hwaiting,
          getElem?_foldl_receive, hplace, hw]
        exact ⟨_, rfl, by simp⟩

/-- As long as its callers wait the walker stays where it is; and when it has got its response, they
wait until the next turn at the longest. -/
theorem run (h : Failing rules heard failure origin id trail ticket p) {actions : List Action}
    (hactions : ∀ action ∈ actions, action.IsWithin heard True) :
    (Failing rules heard failure origin id trail ticket (p.run rules actions) ∧
      (p.Reads id → .drain ∉ actions)) ∨
    ∃ progress, (p.run rules actions).callers[ticket]? = some ⟨origin, progress⟩ ∧
      ComesTo rules failure origin (.cancel ticket ∈ actions) (.close ∈ actions) progress := by
  induction actions generalizing p with
  | nil => exact Or.inl ⟨h, fun _ => List.not_mem_nil⟩
  | cons action later ih =>
      obtain ⟨haction, hlater⟩ := List.forall_mem_cons.1 hactions
      rcases h.act haction with ⟨hafter, hreads⟩ | ⟨progress, htold, hcomes⟩
      · rcases ih hafter hlater with ⟨hlast, hnone⟩ | ⟨progress, htold, hcomes⟩
        · refine Or.inl ⟨hlast, fun hread => ?_⟩
          obtain ⟨hdrain, hmiddle⟩ := hreads hread
          simp [Ne.symm hdrain, hnone hmiddle]
        · exact Or.inr ⟨progress, htold,
            hcomes.mono (List.mem_cons_of_mem action) (List.mem_cons_of_mem action)⟩
      · obtain ⟨hattended, -⟩ := h.attended.act h.resting action
        obtain ⟨-, hsettled⟩ := hattended.run_within (h.resting.act haction) hlater
        exact Or.inr ⟨progress, hsettled ticket _ htold hcomes.ne_pending,
          hcomes.mono (fun heq => by simp [heq]) fun heq => by simp [heq]⟩

end Failing

end Pathfinder

end LinkTrail
