import LinkTrail.Proofs.Pathfinder.Callers
import LinkTrail.Proofs.Pathfinder.Close
import LinkTrail.Proofs.Pathfinder.Clash

namespace LinkTrail

namespace Caller

variable {outcome : Outcome} {caller : Caller}

theorem complete_of_settled (h : caller.progress ≠ .pending) : caller.complete outcome = caller := by
  unfold complete
  split
  · contradiction
  · rfl

theorem progress_complete (h : caller.progress = .pending) :
    (caller.complete outcome).progress = .done outcome := by
  simp [complete, h]

theorem outcome_eq_of_complete (h : caller.progress = .pending) {other : Outcome}
    (hdone : (caller.complete outcome).progress = .done other) : outcome = other := by
  rw [progress_complete h] at hdone
  exact Progress.done.inj hdone

theorem complete_ne_pending (outcome : Outcome) (caller : Caller) :
    (caller.complete outcome).progress ≠ .pending := by
  unfold complete
  split
  · simp
  · assumption

theorem complete_complete (outcome : Outcome) (caller : Caller) :
    (caller.complete outcome).complete outcome = caller.complete outcome :=
  complete_of_settled (caller.complete_ne_pending outcome)

theorem cancel_of_settled (h : caller.progress ≠ .pending) : caller.cancel = caller := by
  unfold cancel
  split
  · contradiction
  · rfl

theorem progress_cancel (h : caller.progress = .pending) :
    caller.cancel.progress = .cancelled := by
  simp [cancel, h]

theorem cancel_ne_pending (caller : Caller) : caller.cancel.progress ≠ .pending := by
  unfold cancel
  split
  · simp
  · assumption

end Caller

namespace Pathfinder

def ticketsFor (p : Pathfinder) (url : String) : List Ticket := (p.waiting.get? url).getD []

/-- Every pending caller waits, once, under the URL of its call, and nobody who has an outcome does;
a walker is registered for each URL under which callers wait; and the pathfinder listens as long as
it is attached. -/
structure Attended (p : Pathfinder) : Prop where
  keys_eq : p.waiting.keys = p.registered.keys
  waits : ∀ (ticket : Ticket) (caller : Caller), p.callers[ticket]? = some caller →
    caller.progress = .pending → ticket ∈ p.ticketsFor caller.url
  nodup : ∀ url, (p.ticketsFor url).Nodup
  named : ∀ url, ∀ ticket ∈ p.ticketsFor url, ∃ caller, p.callers[ticket]? = some caller ∧
    caller.url = url ∧ ∀ outcome, caller.progress ≠ .done outcome
  detached : p.attached = false → p.registered = .empty
  listeners_eq : p.web.listeners = if p.attached then ({} : Listeners Unit).addForAll () else {}

/-- From `p` to `q` walkers are given up, each for a cause. The callers of its URL all learn the same
outcome; nothing changes for any other caller. -/
structure Settles (cause : String → WalkerId → Outcome → Prop) (p q : Pathfinder) : Prop where
  registered : ∀ origin id, q.registered.get? origin = some id →
    p.registered.get? origin = some id ∧ q.ticketsFor origin = p.ticketsFor origin
  same : ∀ (ticket : Ticket) (caller : Caller), p.callers[ticket]? = some caller →
    (caller.url ∈ p.registered → caller.url ∈ q.registered) → q.callers[ticket]? = some caller
  told : ∀ origin id, p.registered.get? origin = some id → origin ∉ q.registered →
    ∃ outcome, cause origin id outcome ∧
      ∀ (ticket : Ticket) (caller : Caller), p.callers[ticket]? = some caller →
        caller.url = origin → q.callers[ticket]? = some (caller.complete outcome)

variable {cause cause' : String → WalkerId → Outcome → Prop} {p q r : Pathfinder}

theorem Attended.congr (h : Attended p) (hwaiting : q.waiting = p.waiting)
    (hregistered : q.registered = p.registered) (hcallers : q.callers = p.callers)
    (hattached : q.attached = p.attached) (hlisteners : q.web.listeners = p.web.listeners) :
    Attended q := by
  obtain ⟨keys_eq, waits, nodup, named, detached, listeners_eq⟩ := h
  simp only [ticketsFor, ← hwaiting, ← hregistered, ← hcallers, ← hattached, ← hlisteners]
    at keys_eq waits nodup named detached listeners_eq
  exact ⟨keys_eq, waits, nodup, named, detached, listeners_eq⟩

theorem Attended.hears_eq (h : Attended p) (hattached : p.attached = true) (url : String) :
    p.web.listeners.hears url = PatternSet.allUrls.accepts url := by
  rw [h.listeners_eq, hattached]
  simp [Listeners.hears, Listeners.addForAll]

namespace Settles

theorem of_eq (cause : String → WalkerId → Outcome → Prop) (hwaiting : q.waiting = p.waiting)
    (hregistered : q.registered = p.registered) (hcallers : q.callers = p.callers) :
    Settles cause p q where
  registered origin id horigin := by
    rw [hregistered] at horigin
    exact ⟨horigin, by rw [ticketsFor, hwaiting, ticketsFor]⟩
  same ticket caller hcaller _ := hcallers ▸ hcaller
  told origin id horigin hnot := by
    rw [hregistered] at hnot
    exact absurd (Table.mem_of_get? horigin) hnot

theorem refl (cause : String → WalkerId → Outcome → Prop) (p : Pathfinder) : Settles cause p p :=
  .of_eq cause rfl rfl rfl

theorem mem (h : Settles cause p q) {origin : String} (hmem : origin ∈ q.registered) :
    origin ∈ p.registered := by
  obtain ⟨id, hid⟩ := Table.mem_iff_get?.1 hmem
  exact Table.mem_of_get? (h.registered origin id hid).1

theorem get?_of_mem (h : Settles cause p q) {origin : String} {id : WalkerId}
    (horigin : p.registered.get? origin = some id) (hmem : origin ∈ q.registered) :
    q.registered.get? origin = some id := by
  obtain ⟨other, hother⟩ := Table.mem_iff_get?.1 hmem
  obtain rfl : id = other := Option.some.inj (horigin.symm.trans (h.registered origin other hother).1)
  exact hother

theorem mono (h : Settles cause p q)
    (hcause : ∀ origin id outcome, p.registered.get? origin = some id →
      cause origin id outcome → cause' origin id outcome) : Settles cause' p q where
  registered := h.registered
  same := h.same
  told origin id horigin hnot := by
    obtain ⟨outcome, hfor, htold⟩ := h.told origin id horigin hnot
    exact ⟨outcome, hcause origin id outcome horigin hfor, htold⟩

theorem trans (h : Settles cause p q) (h' : Settles cause q r) : Settles cause p r where
  registered origin id horigin := by
    obtain ⟨hmiddle, htickets⟩ := h'.registered origin id horigin
    obtain ⟨hfirst, hsame⟩ := h.registered origin id hmiddle
    exact ⟨hfirst, htickets.trans hsame⟩
  same ticket caller hcaller hstays := by
    refine h'.same ticket caller (h.same ticket caller hcaller ?_) ?_
    · exact fun hmem => h'.mem (hstays hmem)
    · exact fun hmem => hstays (h.mem hmem)
  told origin id horigin hnot := by
    by_cases hmem : origin ∈ q.registered
    -- It is given up later: its callers are the same up to then.
    · obtain ⟨outcome, hfor, htold⟩ := h'.told origin id (h.get?_of_mem horigin hmem) hnot
      refine ⟨outcome, hfor, ?_⟩
      intro ticket caller hcaller hurl
      refine htold ticket caller (h.same ticket caller hcaller ?_) hurl
      exact fun _ => hurl ▸ hmem
    -- It has been given up: nobody is told anything after that.
    · obtain ⟨outcome, hfor, htold⟩ := h.told origin id horigin hmem
      refine ⟨outcome, hfor, ?_⟩
      intro ticket caller hcaller hurl
      refine h'.same ticket _ (htold ticket caller hcaller hurl) ?_
      rw [Caller.url_complete, hurl]
      exact fun hregistered => absurd hregistered hmem

theorem settled (h : Settles cause p q) {ticket : Ticket} {caller : Caller}
    (hcaller : p.callers[ticket]? = some caller) (hsettled : caller.progress ≠ .pending) :
    q.callers[ticket]? = some caller := by
  by_cases hstays : caller.url ∈ p.registered → caller.url ∈ q.registered
  · exact h.same ticket caller hcaller hstays
  · push Not at hstays
    obtain ⟨id, hid⟩ := Table.mem_iff_get?.1 hstays.1
    obtain ⟨outcome, -, htold⟩ := h.told caller.url id hid hstays.2
    rw [htold ticket caller hcaller rfl, Caller.complete_of_settled hsettled]

end Settles

theorem getElem?_complete (p : Pathfinder) (tickets : List Ticket) (outcome : Outcome)
    (ticket : Ticket) :
    (p.complete tickets outcome).callers[ticket]? =
      p.callers[ticket]?.map fun caller =>
        if ticket ∈ tickets then caller.complete outcome else caller := by
  unfold complete
  dsimp only
  generalize p.callers = callers
  induction tickets generalizing callers with
  | nil => simp
  | cons first tickets ih =>
      rw [List.foldl_cons, ih, List.getElem?_modify]
      by_cases hfirst : first = ticket
      · subst hfirst
        cases callers[first]? <;> simp [Caller.complete_complete]
      · simp [hfirst, Ne.symm hfirst]

/-- To tell those who wait under a URL is to tell all who have called for it. -/
theorem Attended.callers_complete (h : Attended p) (url : String) (outcome : Outcome) :
    (p.complete (p.ticketsFor url) outcome).callers =
      p.callers.map fun caller => if caller.url = url then caller.complete outcome else caller := by
  apply List.ext_getElem?
  intro ticket
  rw [getElem?_complete, List.getElem?_map]
  cases hcaller : p.callers[ticket]? with
  | none => rfl
  | some caller =>
      by_cases hurl : caller.url = url
      · by_cases hmem : ticket ∈ p.ticketsFor url
        · simp [hurl, hmem]
        · have hsettled : caller.progress ≠ .pending := by
            intro hpending
            exact hmem (hurl ▸ h.waits ticket caller hcaller hpending)
          simp [hurl, hmem, Caller.complete_of_settled hsettled]
      · have hmem : ticket ∉ p.ticketsFor url := by
          intro hmem
          obtain ⟨named, hnamed, hname, -⟩ := h.named url ticket hmem
          obtain rfl := Option.some.inj (hcaller.symm.trans hnamed)
          exact hurl hname
        simp [hurl, hmem]

structure GivesUp (origin : String) (outcome : Outcome) (p q : Pathfinder) : Prop where
  waiting_eq : q.waiting = p.waiting.erase origin
  registered_eq : q.registered = p.registered.erase origin
  callers_eq : q.callers = (p.complete (p.ticketsFor origin) outcome).callers
  attached_eq : q.attached = p.attached
  listeners_eq : q.web.listeners = p.web.listeners

namespace GivesUp

variable {origin : String} {id : WalkerId} {outcome : Outcome}

theorem ticketsFor_eq (h : GivesUp origin outcome p q) (url : String) :
    q.ticketsFor url = if url = origin then [] else p.ticketsFor url := by
  rw [ticketsFor, h.waiting_eq, Table.get?_erase]
  split <;> rfl

theorem getElem?_callers (h : GivesUp origin outcome p q) (hattended : Attended p) (ticket : Ticket) :
    q.callers[ticket]? = p.callers[ticket]?.map fun caller =>
      if caller.url = origin then caller.complete outcome else caller := by
  rw [h.callers_eq, hattended.callers_complete, List.getElem?_map]

theorem attended (h : GivesUp origin outcome p q) (hattended : Attended p) : Attended q := by
  refine ⟨?_, ?_, ?_, ?_, ?_, ?_⟩
  · rw [h.waiting_eq, h.registered_eq, Table.keys_erase, Table.keys_erase, hattended.keys_eq]
  · intro ticket after hafter hpending
    rw [h.getElem?_callers hattended] at hafter
    obtain ⟨caller, hbefore, rfl⟩ := Option.map_eq_some_iff.1 hafter
    by_cases hurl : caller.url = origin
    · rw [if_pos hurl] at hpending
      exact absurd hpending (caller.complete_ne_pending outcome)
    · rw [if_neg hurl] at hpending ⊢
      rw [h.ticketsFor_eq, if_neg hurl]
      exact hattended.waits ticket caller hbefore hpending
  · intro url
    rw [h.ticketsFor_eq]
    split
    · exact List.nodup_nil
    · exact hattended.nodup url
  · intro url ticket hmem
    rw [h.ticketsFor_eq] at hmem
    split at hmem
    · exact absurd hmem List.not_mem_nil
    · rename_i hurl
      obtain ⟨caller, hbefore, rfl, hopen⟩ := hattended.named url ticket hmem
      exact ⟨caller, by simp [h.getElem?_callers hattended, hbefore, hurl], rfl, hopen⟩
  · intro hdetached
    rw [h.registered_eq, hattended.detached (h.attached_eq ▸ hdetached)]
    rfl
  · rw [h.listeners_eq, h.attached_eq]
    exact hattended.listeners_eq

theorem settles (h : GivesUp origin outcome p q) (hattended : Attended p)
    (hregistered : p.registered.get? origin = some id) (hcause : cause origin id outcome) :
    Settles cause p q := by
  refine ⟨?_, ?_, ?_⟩
  · intro other id hother
    rw [h.registered_eq, Table.get?_erase] at hother
    split at hother
    · contradiction
    · rename_i hne
      exact ⟨hother, by rw [h.ticketsFor_eq, if_neg hne]⟩
  · intro ticket caller hbefore hstays
    have hurl : caller.url ≠ origin := by
      intro hurl
      have hmem := hstays (hurl ▸ Table.mem_of_get? hregistered)
      rw [h.registered_eq, Table.mem_erase_iff] at hmem
      exact hmem.2 hurl
    simp [h.getElem?_callers hattended, hbefore, hurl]
  · intro other id' hother hnot
    obtain rfl : other = origin := by
      by_contra hne
      rw [h.registered_eq, Table.mem_erase_iff] at hnot
      exact hnot ⟨Table.mem_of_get? hother, hne⟩
    obtain rfl := Option.some.inj (hregistered.symm.trans hother)
    refine ⟨outcome, hcause, ?_⟩
    intro ticket caller hbefore hurl
    simp [h.getElem?_callers hattended, hbefore, hurl]

end GivesUp

theorem givesUp_finish {id : WalkerId} {w : Walker} (hw : p.walkers[id]? = some w)
    (hregistered : p.registered.get? w.trail.origin = some id) (result : Except Failure String) :
    GivesUp w.trail.origin (.ofResult w.trail.origin result) p (p.finish id result) := by
  rw [finish_of_registered hw hregistered]
  exact ⟨rfl, rfl, rfl, rfl, rfl⟩

theorem givesUp_dismiss {id : WalkerId} {w : Walker} (hw : p.walkers[id]? = some w)
    (hregistered : p.registered.get? w.trail.origin = some id) :
    GivesUp w.trail.origin (.failed (.cancelled w.trail.origin)) p (p.dismiss id) := by
  rw [dismiss_of_registered hw hregistered]
  exact ⟨rfl, rfl, rfl, rfl, rfl⟩

theorem Attended.finish (h : Attended p) {id : WalkerId} {result : Except Failure String}
    (hcause : ∀ origin, p.registered.get? origin = some id →
      cause origin id (.ofResult origin result)) :
    Attended (p.finish id result) ∧ Settles cause p (p.finish id result) := by
  cases hw : p.walkers[id]? with
  | none =>
      rw [finish_of_none hw]
      exact ⟨h, .refl cause p⟩
  | some w =>
      by_cases hregistered : p.registered.get? w.trail.origin = some id
      · have hgivesUp := givesUp_finish hw hregistered result
        exact ⟨hgivesUp.attended h, hgivesUp.settles h hregistered (hcause _ hregistered)⟩
      · rw [finish_of_not_registered hw hregistered]
        exact ⟨h.congr rfl rfl rfl rfl rfl, .of_eq cause rfl rfl rfl⟩

theorem Attended.dismiss (h : Attended p) {id : WalkerId}
    (hcause : ∀ origin, p.registered.get? origin = some id →
      cause origin id (.failed (.cancelled origin))) :
    Attended (p.dismiss id) ∧ Settles cause p (p.dismiss id) := by
  cases hw : p.walkers[id]? with
  | none =>
      rw [dismiss_of_none hw]
      exact ⟨h, .refl cause p⟩
  | some w =>
      by_cases hregistered : p.registered.get? w.trail.origin = some id
      · have hgivesUp := givesUp_dismiss hw hregistered
        exact ⟨hgivesUp.attended h, hgivesUp.settles h hregistered (hcause _ hregistered)⟩
      · rw [dismiss_of_not_registered hw hregistered]
        exact ⟨h.congr rfl rfl rfl rfl rfl, .of_eq cause rfl rfl rfl⟩

theorem Attended.foldl {α : Type} {f : Pathfinder → α → Pathfinder} (h : Attended p) {items : List α}
    (hf : ∀ q, ∀ item ∈ items, Attended q → Attended (f q item) ∧ Settles cause q (f q item)) :
    Attended (items.foldl f p) ∧ Settles cause p (items.foldl f p) := by
  refine List.foldlRecOn (motive := fun q => Attended q ∧ Settles cause p q) items f
    ⟨h, .refl cause p⟩ ?_
  intro q ⟨hq, hsettles⟩ item hmem
  obtain ⟨hafter, hstep⟩ := hf q item hmem hq
  exact ⟨hafter, hsettles.trans hstep⟩

theorem Attended.close {rules : Rules} {heard : Response → Prop} {todo : List WalkerId}
    (h : Attended p) (hkept : Kept rules heard True [] todo p) :
    Attended p.close ∧
      Settles (fun origin _ outcome => outcome = .failed (.cancelled origin)) p p.close := by
  obtain ⟨hdismissed, hsettles⟩ := @Attended.foldl
    (fun origin _ outcome => outcome = .failed (.cancelled origin)) p _ Pathfinder.dismiss h
    p.registered.values fun q id _ hq => hq.dismiss fun _ _ => rfl
  have hempty := hkept.registered_close trivial
  unfold Pathfinder.close at hempty ⊢
  dsimp only at hempty ⊢
  split
  · rename_i hattached
    rw [if_pos hattached] at hempty
    refine ⟨⟨hdismissed.keys_eq, hdismissed.waits, hdismissed.nodup, hdismissed.named,
      fun _ => hempty, ?_⟩, hsettles.trans (.of_eq _ rfl rfl rfl)⟩
    simp [mapListeners, web, Listeners.remove]
  · exact ⟨hdismissed, hsettles⟩

variable {rules : Rules} {heard : Response → Prop} {closed : Prop} {ended todo : List WalkerId}

theorem Attended.foldl_finish (h : Attended p) (endings : List Ending) :
    Attended (endings.foldl (fun p ending => p.finish ending.id ending.result) p) ∧
      Settles (fun origin id outcome =>
          ∃ ending ∈ endings, ending.id = id ∧ outcome = .ofResult origin ending.result) p
        (endings.foldl (fun p ending => p.finish ending.id ending.result) p) :=
  h.foldl fun _ ending hmem hq => hq.finish fun _ _ => ⟨ending, hmem, rfl, rfl⟩

def TimesOut (rules : Rules) (p : Pathfinder) (origin : String) (id : WalkerId) (outcome : Outcome) :
    Prop :=
  ∃ w limit, p.walkers[id]? = some w ∧ w.isOverdue rules p.clock = true ∧ rules.timeout = some limit ∧
    outcome = .failed (.timedOut origin limit)

theorem TimesOut.of_eq {origin : String} {id : WalkerId} {outcome : Outcome}
    (h : q.TimesOut rules origin id outcome) (hwalker : q.walkers[id]? = p.walkers[id]?)
    (hclock : q.clock = p.clock) : p.TimesOut rules origin id outcome := by
  rw [TimesOut, hwalker, hclock] at h
  exact h

theorem Attended.expire (h : Attended p) (hkept : Kept rules heard closed ended todo p)
    (id : WalkerId) :
    Attended (p.expire rules id) ∧ Settles (p.TimesOut rules) p (p.expire rules id) := by
  unfold Pathfinder.expire
  cases hw : p.walkers[id]? with
  | none => exact ⟨h, .refl _ p⟩
  | some w =>
      cases htimeout : rules.timeout with
      | none => exact ⟨h, .refl _ p⟩
      | some limit =>
          dsimp only
          split
          · rename_i hoverdue
            refine h.finish fun origin horigin => ?_
            obtain ⟨w', hw', rfl, -⟩ := hkept.exists_of_registered horigin
            obtain rfl := Option.some.inj (hw.symm.trans hw')
            exact ⟨w, limit, hw, hoverdue, htimeout, rfl⟩
          · exact ⟨h, .refl _ p⟩

theorem Settles.get?_of_isRegistered (h : Settles cause p q)
    (hkept : Kept rules heard closed ended todo p) {origin : String} {id : WalkerId}
    (horigin : p.registered.get? origin = some id) (hlast : q.IsRegistered id) :
    q.registered.get? origin = some id := by
  obtain ⟨other, hother⟩ := hlast
  obtain ⟨w, -, -, -, honly⟩ := hkept.exists_of_registered horigin
  rw [(honly origin).1 horigin, ← (honly other).1 (h.registered other id hother).1]
  exact hother

theorem Kept.walker_expire (h : Kept rules heard closed ended todo p) {id other : WalkerId}
    (hregistered : (p.expire rules id).IsRegistered other) :
    (p.expire rules id).walkers[other]? = p.walkers[other]? := by
  by_cases hne : other = id
  · subst hne
    unfold Pathfinder.expire at hregistered ⊢
    split
    · split
      · rename_i walker timeout hoverdue
        rw [walker, timeout] at hregistered
        simp only [hoverdue, if_true] at hregistered
        exact absurd hregistered (h.not_isRegistered_finish other _)
      · rfl
    · rfl
  · exact (moves_expire p id rules).walker_eq other hne

theorem Attended.foldl_expire (h : Attended p) (hkept : Kept rules heard closed ended todo p)
    (ids : List WalkerId) :
    Attended (ids.foldl (Pathfinder.expire rules) p) ∧
      Settles (p.TimesOut rules) p (ids.foldl (Pathfinder.expire rules) p) := by
  induction ids generalizing p with
  | nil => exact ⟨h, .refl _ p⟩
  | cons first ids ih =>
      obtain ⟨hfirst, hsettles⟩ := h.expire hkept first
      obtain ⟨hafter, hrest⟩ := ih hfirst (hkept.expire first)
      refine ⟨hafter, hsettles.trans (hrest.mono ?_)⟩
      intro origin id outcome horigin hlate
      exact hlate.of_eq (hkept.walker_expire ⟨origin, horigin⟩) clock_expire

def Turn.Tells (rules : Rules) (t : Turn) (origin : String) (id : WalkerId) (outcome : Outcome) :
    Prop :=
  (∃ ending ∈ t.endings, ending.id = id ∧ outcome = .ofResult origin ending.result) ∨
    id ∉ t.endedIds ∧ t.pathfinder.TimesOut rules origin id outcome

theorem Attended.foldl_step (h : Attended p) (ids : List WalkerId) :
    Attended (ids.foldl (Turn.step rules) { pathfinder := p }).pathfinder ∧
      Settles cause p (ids.foldl (Turn.step rules) { pathfinder := p }).pathfinder := by
  have hweb := (Turn.web_foldl_step rules ids { pathfinder := p }).listeners_eq
  rw [Turn.pathfinder_foldl_step]
  exact ⟨h.congr rfl rfl rfl rfl hweb, .of_eq cause rfl rfl rfl⟩

theorem Attended.drainTimed (h : Attended p) (hkept : Kept rules heard closed [] p.queue p)
    (hnodup : p.queue.Nodup) :
    Attended (p.drainTimed rules) ∧
      Settles ((p.turnOrder.foldl (Turn.step rules) { pathfinder := p }).Tells rules) p
        (p.drainTimed rules) := by
  obtain ⟨hmoved, -⟩ := hkept.moved hnodup (List.append_nil _).symm
  unfold Pathfinder.drainTimed
  dsimp only
  generalize hturn : p.turnOrder.foldl (Turn.step rules) { pathfinder := p } = t at hmoved
  obtain ⟨hstepped, hsame⟩ := @Attended.foldl_step (t.Tells rules) p rules h p.turnOrder
  rw [hturn] at hstepped hsame
  obtain ⟨hconcluded, hended⟩ := hstepped.foldl_finish t.endings
  obtain ⟨hexpired, hlate⟩ := hconcluded.foldl_expire hmoved.conclude t.conclude.registered.values
  refine ⟨hexpired, hsame.trans ((hended.mono ?_).trans (hlate.mono ?_))⟩
  · exact fun origin id outcome _ hending => Or.inl hending
  · intro origin id outcome horigin htimesOut
    have hgoing : id ∉ t.endedIds := by
      intro hmem
      obtain ⟨ending, hending, rfl⟩ := List.mem_map.1 hmem
      exact (hmoved.kept.foldl_finish t.endings).2.1 ending hending ⟨origin, horigin⟩
    exact Or.inr ⟨hgoing, htimesOut.of_eq (spares_foldl_finish hgoing).walker_eq
      (clock_foldl_finish t.endings t.pathfinder)⟩

theorem Attended.foldl_step_conclude (h : Attended p) (ids : List WalkerId) :
    Attended (ids.foldl (fun p id => (Turn.step rules { pathfinder := p } id).conclude) p) ∧
      Settles (fun _ _ _ => True) p
        (ids.foldl (fun p id => (Turn.step rules { pathfinder := p } id).conclude) p) := by
  refine h.foldl fun q id _ hq => ?_
  obtain ⟨hstepped, hsame⟩ := @Attended.foldl_step (fun _ _ _ => True) q rules hq [id]
  obtain ⟨hconcluded, hended⟩ :=
    hstepped.foldl_finish (Turn.step rules { pathfinder := q } id).endings
  exact ⟨hconcluded, hsame.trans (hended.mono fun _ _ _ _ _ => trivial)⟩

theorem Attended.drain (h : Attended p) (hresting : Resting rules heard closed p) :
    Attended (p.drain rules) ∧ Settles (fun _ _ _ => True) p (p.drain rules) := by
  have hrest : ∀ q : Pathfinder, Attended q ∧ Settles (fun _ _ _ => True) p q →
      Attended { q with queue := [] } ∧
        Settles (fun _ _ _ => True) p { q with queue := [] } := fun q ⟨hq, hsettles⟩ =>
    ⟨hq.congr rfl rfl rfl rfl rfl, hsettles.trans (.of_eq _ rfl rfl rfl)⟩
  apply hrest
  split
  · obtain ⟨hdrained, hsettles⟩ := h.drainTimed hresting.kept hresting.paced.nodup
    exact ⟨hdrained, hsettles.mono fun _ _ _ _ _ => trivial⟩
  · exact h.foldl_step_conclude p.queue

end Pathfinder

end LinkTrail
