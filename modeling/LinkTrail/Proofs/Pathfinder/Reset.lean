import LinkTrail.Proofs.Pathfinder.Close
import LinkTrail.Proofs.Pathfinder.Past
import LinkTrail.Proofs.Pathfinder.Residue
import LinkTrail.Settings

/-!
Closes that leave nothing behind. Main statement: a close resets a pathfinder if and only if nobody
from an earlier close is listed and no walker has a redirect to take up yet
(`close_resets_iff_quiet`).
-/

namespace LinkTrail.Pathfinder

def onWebAt (web : Web) (clock : Seconds) : Pathfinder := { onWeb web with clock := clock }

/-- The action neither attaches a pathfinder nor gives it anything to do. -/
def Action.IsPassive : Action → Prop
  | attach => False
  | resolve _ => False
  | _ => True

/-- After a close nothing is left of what was asked for and nothing is asked for any more; and when
it is attached again, the pathfinder does what a new one does, for which a call that has to wait for
nobody makes a request. -/
structure Resets (rules : Rules) (p : Pathfinder) : Prop where
  blank : ∀ between : List Action, (∀ action ∈ between, action.IsPassive) →
    let c := p.close.run rules between
    c.waiting = .empty ∧ c.registered = .empty ∧ c.traffic.awaiting = .empty ∧
      c.isListening = false ∧ c.web.fetched = p.web.fetched
  asNew : ∀ between : List Action, (∀ action ∈ between, action.IsPassive) →
    ∀ actions : List Action,
      let c := p.close.run rules between
      let again := c.attach.run rules (actions.map (.later c.callers.length))
      let new := (onWebAt c.web c.clock).attach.run rules actions
      again.web.fetched = new.web.fetched ∧
        again.callers.drop c.callers.length = new.callers
  asks : ∀ between : List Action, (∀ action ∈ between, action.IsPassive) →
    ∀ actions : List Action, .close ∉ actions →
      let c := p.close.run rules between
      let again := c.attach.run rules (actions.map (.later c.callers.length))
      again.attached = true → again.waiting = .empty → ∀ url,
        if again.web.refusing then (again.resolve url).1 = .error .refused
        else (again.resolve url).2.web.fetched = again.web.fetched ++ [url]

/-- Everyone who is listed is registered, and no walker with a deadline has a response that would
redirect it without its trail. -/
structure Quiet (rules : Rules) (p : Pathfinder) : Prop where
  listed : ∀ url, ∀ id ∈ p.traffic.waiters url, p.IsRegistered id
  settled : ∀ (id : WalkerId) (w : Walker) response inbox next, p.walkers[id]? = some w →
    (w.stage = .leaving ∨ ∃ deadline, w.stage = .walking (some deadline)) →
      w.inbox = response :: inbox → rules.verdict w.trail.cleared response ≠ .redirect next

variable {rules : Rules} {heard : Response → Prop} {p : Pathfinder} {id : WalkerId}
  {past : Past} {web : Web} {clock : Seconds}

theorem stage_of_dismissedStage {w : Walker} (h : w.dismissedStage = .leaving) :
    ∃ deadline, w.stage = .walking (some deadline) := by
  unfold Walker.dismissedStage at h
  split at h
  · rename_i deadline hstage
    exact ⟨deadline, hstage⟩
  · contradiction

theorem dismissedStage_of_read {w : Walker} {deadline : Seconds} {response : Response}
    {inbox : List Response} (hstage : w.stage = .walking (some deadline))
    (read : w.inbox = response :: inbox) : w.dismissedStage = .leaving := by
  simp [Walker.dismissedStage, hstage, read]

theorem Resting.close (h : Resting rules heard True p) : Resting rules heard True p.close :=
  @Resting.act rules heard True p h .close trivial

theorem Resting.awaiting_close (h : Resting rules heard True p) (hquiet : p.Quiet rules) :
    p.close.traffic.awaiting = .empty := by
  apply Table.eq_empty_of_forall
  intro url hmem
  obtain ⟨id, hid⟩ := h.close.kept.crowded.mem_awaiting_iff.1 hmem
  by_cases hregistered : p.IsRegistered id
  · have hunlisted := (h.kept.dismissed_close trivial hregistered).unlisted url
    rw [Traffic.mem_waiters_iff, hunlisted] at hid
    contradiction
  · have hspared := h.kept.spares_close trivial hregistered
    exact hregistered (hquiet.listed url id ((hspared.mem_waiters_iff url).1 hid))

theorem Resting.settled_close (h : Resting rules heard True p) (hquiet : p.Quiet rules)
    {w : Walker} (hw : p.close.walkers[id]? = some w) (hstage : w.stage = .leaving)
    {response : Response} {inbox : List Response} (read : w.inbox = response :: inbox)
    (next : String) : rules.verdict w.trail response ≠ .redirect next := by
  by_cases hregistered : p.IsRegistered id
  · obtain ⟨origin, horigin⟩ := hregistered
    obtain ⟨before, hbefore, -⟩ := h.kept.exists_of_registered horigin
    have hafter := (h.kept.dismissed_close trivial ⟨origin, horigin⟩).walker_eq before hbefore
    obtain rfl := Option.some.inj (hw.symm.trans hafter)
    exact hquiet.settled id before response inbox next hbefore
      (Or.inr (stage_of_dismissedStage hstage)) read
  · have hbefore := (h.kept.spares_close trivial hregistered).walker_eq.symm.trans hw
    have hsettled := hquiet.settled id w response inbox next hbefore (Or.inl hstage) read
    obtain ⟨-, cleared, -⟩ := (h.close.kept.fits id).of_leaving List.not_mem_nil hw hstage
    rw [cleared]
    exact hsettled

/-- The pathfinder is a new one with an idle past, on a web that stands where `web` does. -/
def IsSpent (rules : Rules) (web : Web) (q : Pathfinder) : Prop :=
  ∃ (past : Past) (now : Web) (clock : Seconds), past.IsIdle rules ∧
    now.fetched = web.fetched ∧ now.listeners = web.listeners ∧
      q = past.followedBy (onWebAt now clock)

theorem Resting.isSpent_close (h : Resting rules heard True p) (hquiet : p.Quiet rules) :
    IsSpent rules p.close.web p.close := by
  have hblank : ∀ c : Pathfinder, c.attached = false → c.waiting = .empty →
      c.registered = .empty → c.traffic.awaiting = .empty →
        c = Past.followedBy ⟨c.walkers, c.callers, c.queue⟩ (onWebAt c.web c.clock) := by
    intro c hattached hwaiting hregistered hawaiting
    obtain ⟨attached, waiting, registered, ⟨awaiting, web⟩, walkers, queue, callers, clock⟩ := c
    dsimp only at *
    rw [hattached, hwaiting, hregistered, hawaiting]
    simp [Past.followedBy, onWebAt, Pathfinder.onWeb, Traffic.renumber, Pathfinder.web]
  refine ⟨⟨p.close.walkers, p.close.callers, p.close.queue⟩, p.close.web, p.close.clock,
    ⟨?_, h.close.paced.lt⟩, rfl, rfl, ?_⟩
  · intro w hmem
    obtain ⟨id, hw⟩ := List.mem_iff_getElem?.1 hmem
    by_cases hgone : w.stage = .gone
    · exact Or.inl hgone
    · right
      rcases (h.close.kept.fits id).of_not_gone List.not_mem_nil hw hgone with
        ⟨hstage, -⟩ | ⟨-, hregistered, -⟩
      · exact ⟨hstage, fun response inbox next read =>
          h.settled_close hquiet hw hstage read next⟩
      · exact absurd ⟨_, (hregistered _).2 rfl⟩ (h.kept.not_isRegistered_close trivial id)
  · exact hblank p.close (attached_close p) (h.kept.waiting_close trivial)
      (h.kept.registered_close trivial) (h.awaiting_close hquiet)

theorem drain_onWebAt : (onWebAt web clock).drain rules = onWebAt web clock := by
  unfold drain
  split <;> rfl

theorem deliver_onWebAt (response : Response) :
    (onWebAt web clock).deliver response = onWebAt web clock := deliver_of_unawaited rfl

theorem IsSpent.act (h : IsSpent rules web p) {action : Action} (hpassive : action.IsPassive) :
    IsSpent rules web (p.act rules action).1 := by
  obtain ⟨past, now, clock, hidle, hfetched, hlisteners, rfl⟩ := h
  obtain ⟨past', hfades, hact⟩ := hidle.exists_act (onWebAt now clock) action
  have hpast := hfades.idle hidle
  cases action with
  | attach => exact hpassive.elim
  | resolve url => exact hpassive.elim
  | close => exact ⟨past', now, clock, hpast, hfetched, hlisteners, hact⟩
  | deliver response =>
      refine ⟨past', now, clock, hpast, hfetched, hlisteners, hact.trans ?_⟩
      exact congrArg past'.followedBy (deliver_onWebAt response)
  | cancel ticket =>
      refine ⟨{ past with callers := past.callers.modify ticket Caller.cancel }, now, clock,
        ⟨hidle.idle, hidle.lt⟩, hfetched, hlisteners, ?_⟩
      simp [Pathfinder.act, Pathfinder.cancel, Past.followedBy, onWebAt, Pathfinder.onWeb]
  | refuseRequests refusing =>
      exact ⟨past', { now with refusing := refusing }, clock, hpast, hfetched, hlisteners, hact⟩
  | answerAtOnce url response? =>
      exact ⟨past', { now with answer? := fun other =>
        if other = url then response? else now.answer? other }, clock, hpast, hfetched,
        hlisteners, hact⟩
  | advance span => exact ⟨past', now, _, hpast, hfetched, hlisteners, hact⟩
  | drain =>
      refine ⟨past', now, clock, hpast, hfetched, hlisteners, hact.trans ?_⟩
      exact congrArg past'.followedBy drain_onWebAt

theorem IsSpent.run (h : IsSpent rules web p) {between : List Action}
    (hpassive : ∀ action ∈ between, action.IsPassive) :
    IsSpent rules web (p.run rules between) := by
  induction between generalizing p with
  | nil => exact h
  | cons action between ih =>
      obtain ⟨haction, hrest⟩ := List.forall_mem_cons.1 hpassive
      exact ih (h.act haction) hrest

/-- When it is attached again, it goes on as a new pathfinder would, and keeps its past. -/
theorem IsSpent.exists_again (h : IsSpent rules web p) (actions : List Action) :
    ∃ past : Past, past.callers.length = p.callers.length ∧
      p.attach.run rules (actions.map (.later p.callers.length)) =
        past.followedBy ((onWebAt p.web p.clock).attach.run rules actions) := by
  obtain ⟨past, now, clock, hidle, -, -, rfl⟩ := h
  have hcallers : (past.followedBy (onWebAt now clock)).callers.length = past.callers.length := by
    simp [Past.followedBy, onWebAt, Pathfinder.onWeb]
  obtain ⟨past', hfades, hrun⟩ := hidle.exists_run (onWebAt now clock).attach actions
  rw [hcallers, Past.attach_followedBy]
  exact ⟨past', hfades.callers, hrun⟩

theorem start_of_unawaited {url : String} (hnone : p.traffic.awaiting.get? url = none) :
    if p.web.refusing then (p.start url).1 = .error .refused
    else (p.start url).2.web.fetched = p.web.fetched ++ [url] := by
  have asked := p.traffic.asked_ask p.walkers.length { trail := { origin := url } } url
  have hrequested := p.requested_eq url
  generalize p.traffic.ask p.walkers.length { trail := { origin := url } } url = result at *
  cases asked with
  | joined found => simp [hnone] at found
  | refused absent refusing =>
      have hweb : p.web.refusing = true := refusing
      rw [if_pos hweb, start_of_refused (by rw [hrequested])]
  | issued absent serving later =>
      rw [if_neg (by simp [Pathfinder.web, serving]), start_of_granted (by rw [hrequested]),
        hrequested]
      rfl
  | answered absent serving atOnce =>
      rw [if_neg (by simp [Pathfinder.web, serving]), start_of_granted (by rw [hrequested]),
        hrequested]
      rfl

theorem Resting.get?_awaiting_of_waiting (h : Resting rules heard False p)
    (hwaiting : p.waiting = .empty) (url : String) : p.traffic.awaiting.get? url = none := by
  apply Table.get?_eq_none_iff.2
  intro hmem
  obtain ⟨id, hid⟩ := h.kept.crowded.mem_awaiting_iff.1 hmem
  have hunregistered : ¬ p.IsRegistered id := by
    intro ⟨origin, horigin⟩
    have hcaller := (h.kept.matched origin).1 (Table.mem_of_get? horigin)
    rw [hwaiting] at hcaller
    exact absurd hcaller List.not_mem_nil
  exact h.kept.not_mem_waiters hunregistered url hid

theorem resting_again {actions : List Action} (hopen : .close ∉ actions) :
    Resting rules (fun _ => True) False ((onWebAt web clock).attach.run rules actions) := by
  have hnew : Resting rules (fun _ => True) False (Pathfinder.onWeb web) :=
    .onWeb fun _ _ _ => trivial
  have hresting : Resting rules (fun _ => True) False (onWebAt web clock) :=
    ⟨hnew.kept.congr rfl rfl rfl hnew.kept.matched hnew.kept.answers fun _ hmem => hmem,
      hnew.paced.congr rfl rfl⟩
  have hattach : Action.attach.IsWithin (fun _ => True) False := trivial
  refine (hresting.act hattach).run ?_
  intro action hmem
  cases action with
  | close => exact absurd hmem hopen
  | _ => simp [Action.IsWithin]

theorem Resting.resets (h : Resting rules heard True p) (hattached : p.attached = true)
    (hquiet : p.Quiet rules) : p.Resets rules where
  blank between hpassive := by
    obtain ⟨past, now, clock, hidle, hfetched, hlisteners, hspent⟩ :=
      (h.isSpent_close hquiet).run hpassive
    rw [hspent]
    refine ⟨rfl, rfl, rfl, ?_, hfetched.trans (fetched_close p)⟩
    have hlistening := isListening_close hattached
    unfold isListening at hlistening
    rw [← hlisteners] at hlistening
    exact hlistening
  asNew between hpassive actions := by
    obtain ⟨past, hcallers, hagain⟩ :=
      ((h.isSpent_close hquiet).run hpassive).exists_again actions
    dsimp only
    rw [hagain, ← hcallers]
    exact ⟨rfl, List.drop_left⟩
  asks between hpassive actions hopen := by
    obtain ⟨past, -, hagain⟩ := ((h.isSpent_close hquiet).run hpassive).exists_again actions
    dsimp only
    rw [hagain]
    intro hattached hwaiting url
    have hresting := @resting_again rules (p.close.run rules between).web
      (p.close.run rules between).clock actions hopen
    generalize (onWebAt (p.close.run rules between).web
      (p.close.run rules between).clock).attach.run rules actions = q at *
    have hnone := hresting.get?_awaiting_of_waiting (Table.eq_empty_of_map hwaiting) url
    have hstart : (past.followedBy q).resolve url = (past.followedBy q).start url := by
      unfold Pathfinder.resolve
      rw [if_pos hattached, hwaiting]
      rfl
    have hmap : (past.followedBy q).traffic.awaiting.get? url =
        (q.traffic.awaiting.get? url).map (List.map (past.walkers.length + ·)) :=
      Table.get?_map url
    rw [hstart]
    apply start_of_unawaited
    rw [hmap, hnone]
    rfl

theorem Resting.quiet (h : Resting rules heard True p) (hresets : p.Resets rules) :
    p.Quiet rules where
  listed url id hid := by
    by_contra hregistered
    obtain ⟨-, -, hawaiting, -⟩ := hresets.blank [] (by simp)
    have hlisted := ((h.kept.spares_close trivial hregistered).mem_waiters_iff url).2 hid
    have hmem := h.close.kept.crowded.mem_awaiting_iff.2 ⟨id, hlisted⟩
    have hempty : p.close.traffic.awaiting = .empty := hawaiting
    rw [hempty] at hmem
    exact absurd hmem List.not_mem_nil
  settled id w response inbox next hw hstage read verdict := by
    -- After the close the walker is leaving and has its response still to take up.
    have hleaving : ∃ after : Walker, p.close.walkers[id]? = some after ∧
        after.stage = .leaving ∧ after.inbox = w.inbox ∧ after.trail = w.trail.cleared := by
      rcases hstage with hstage | ⟨deadline, hstage⟩
      · obtain ⟨hregistered, cleared, -⟩ :=
          (h.kept.fits id).of_leaving List.not_mem_nil hw hstage
        have hspared := h.kept.spares_close trivial hregistered
        exact ⟨w, hspared.walker_eq.trans hw, hstage, rfl, cleared⟩
      · rcases (h.kept.fits id).of_not_gone List.not_mem_nil hw (by simp [hstage]) with
          ⟨hleaving, -⟩ | ⟨-, hregistered, -⟩
        · simp [hstage] at hleaving
        · have hdismissed := h.kept.dismissed_close trivial ⟨_, (hregistered _).2 rfl⟩
          exact ⟨_, hdismissed.walker_eq w hw, dismissedStage_of_read hstage read, rfl, rfl⟩
    obtain ⟨after, hafter, hstage, hinbox, htrail⟩ := hleaving
    obtain ⟨-, -, hdue⟩ := (h.close.kept.fits id).of_leaving List.not_mem_nil hafter hstage
    rw [← hinbox] at read
    rw [← htrail] at verdict
    have hdisturbs := disturbs_drain (h.kept.registered_close trivial) hdue hafter hstage read
      verdict
    obtain ⟨-, -, hawaiting, -, hfetched⟩ := hresets.blank [.drain] (by simp [Action.IsPassive])
    exact hdisturbs.not_still (hfetched.trans (fetched_close p).symm) hawaiting

/-- At any time in a run, a close resets an attached pathfinder if and only if the pathfinder is
quiet. -/
theorem close_resets_iff_quiet (rules : Rules) (answer? : String → Option Response)
    (actions : List Action)
    (hattached : ((onWeb { answer? := answer? }).run rules actions).attached = true) :
    ((onWeb { answer? := answer? }).run rules actions).Resets rules ↔
      ((onWeb { answer? := answer? }).run rules actions).Quiet rules := by
  have hresting : Resting rules (fun _ => True) True
      ((onWeb { answer? := answer? }).run rules actions) :=
    resting_run rules answer? fun _ => trivial
  constructor
  · exact hresting.quiet
  · exact hresting.resets hattached

/-- A close while a walker waits at the target of a redirect. -/
theorem resets_of_waiting_walker :
    let p := (onWeb {}).run ({} : Settings).rules
      [.attach, .resolve "http://a/", .drain, .deliver (.redirect "http://a/" "http://b/"), .drain]
    p.attached = true ∧ p.Resets ({} : Settings).rules := by
  intro p
  have hattached : p.attached = true := by decide +kernel
  have hresting : Resting ({} : Settings).rules (fun _ => True) False p :=
    resting_run _ _ (by simp)
  have hread : ∀ w ∈ p.walkers, w.inbox = [] := by decide +kernel
  refine ⟨hattached, (close_resets_iff_quiet _ _ _ hattached).2 ⟨?_, ?_⟩⟩
  · intro url id hid
    by_contra hregistered
    exact hresting.kept.not_mem_waiters hregistered url hid
  · intro id w response inbox next hw _ read
    rw [hread w (List.mem_of_getElem? hw)] at read
    contradiction

/-- A close before a walker has taken up a redirect. In its next turn the walker asks for the target
of the redirect. -/
theorem not_resets_of_unread_redirect :
    let p := (onWeb {}).run ({} : Settings).rules
      [.attach, .resolve "http://a/", .drain, .deliver (.redirect "http://a/" "http://b/")]
    p.attached = true ∧ ¬ p.Resets ({} : Settings).rules := by
  intro p
  refine ⟨by decide +kernel, ?_⟩
  intro hresets
  obtain ⟨-, -, -, -, hfetched⟩ := hresets.blank [.drain] (by simp [Action.IsPassive])
  exact absurd hfetched (by decide +kernel)

end LinkTrail.Pathfinder
