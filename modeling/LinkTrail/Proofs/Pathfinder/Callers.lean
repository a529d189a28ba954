import LinkTrail.Proofs.Pathfinder.Runs

/-!
What callers are told. Main statement: if every end of a walk is told fairly, then so is every
caller, after any number of actions (`Served.run`).
-/

namespace LinkTrail

def Told (fair : String → Outcome → Prop) (callers : List Caller) : Prop :=
  ∀ (ticket : Ticket) (caller : Caller) (outcome : Outcome),
    callers[ticket]? = some caller → caller.progress = .done outcome → fair caller.url outcome

variable {fair : String → Outcome → Prop} {callers : List Caller}

theorem Caller.url_complete (outcome : Outcome) (caller : Caller) :
    (caller.complete outcome).url = caller.url := by
  unfold complete
  split <;> rfl

theorem Caller.url_cancel (caller : Caller) : caller.cancel.url = caller.url := by
  unfold cancel
  split <;> rfl

theorem map_url_modify (callers : List Caller) (ticket other : Ticket) {f : Caller → Caller}
    (hf : ∀ caller, (f caller).url = caller.url) :
    (callers.modify ticket f)[other]?.map Caller.url = callers[other]?.map Caller.url := by
  rw [List.getElem?_modify]
  cases callers[other]? with
  | none => rfl
  | some caller =>
      by_cases heq : ticket = other
      · simp [heq, hf]
      · simp [heq]

theorem Told.modify (h : Told fair callers) (ticket : Ticket) {f : Caller → Caller}
    (hf : ∀ caller outcome, callers[ticket]? = some caller →
      (f caller).progress = .done outcome → fair (f caller).url outcome) :
    Told fair (callers.modify ticket f) := by
  intro other after outcome hafter hdone
  rw [List.getElem?_modify] at hafter
  obtain ⟨caller, hcaller, rfl⟩ := Option.map_eq_some_iff.1 hafter
  by_cases heq : ticket = other
  · subst heq
    simp only [if_true] at hdone ⊢
    exact hf caller outcome hcaller hdone
  · simp only [heq, if_false] at hdone ⊢
    exact h other caller outcome hcaller hdone

theorem Told.complete (h : Told fair callers) {origin : String} {outcome : Outcome}
    {tickets : List Ticket} (hfair : fair origin outcome)
    (hnamed : ∀ ticket ∈ tickets, callers[ticket]?.map Caller.url = some origin) :
    Told fair (tickets.foldl (fun cs ticket => cs.modify ticket (Caller.complete outcome)) callers) ∧
      ∀ other : Ticket, (tickets.foldl (fun cs ticket => cs.modify ticket (Caller.complete outcome))
        callers)[other]?.map Caller.url = callers[other]?.map Caller.url := by
  induction tickets generalizing callers with
  | nil => exact ⟨h, fun _ => rfl⟩
  | cons ticket tickets ih =>
      have hurls := fun other => map_url_modify callers ticket other (Caller.url_complete outcome)
      have htold : Told fair (callers.modify ticket (Caller.complete outcome)) := by
        apply h.modify
        intro caller told hcaller hdone
        have hname := hnamed ticket List.mem_cons_self
        rw [hcaller] at hname
        obtain rfl : caller.url = origin := Option.some.inj hname
        rw [Caller.url_complete]
        unfold Caller.complete at hdone
        split at hdone
        · cases hdone
          exact hfair
        · exact h ticket caller told hcaller hdone
      obtain ⟨hafter, hsame⟩ := ih htold fun other hmem => by
        rw [hurls]
        exact hnamed other (List.mem_cons_of_mem ticket hmem)
      exact ⟨hafter, fun other => (hsame other).trans (hurls other)⟩

namespace Pathfinder

structure Served (fair : String → Outcome → Prop) (p : Pathfinder) : Prop where
  told : Told fair p.callers
  named : ∀ url tickets, p.waiting.get? url = some tickets →
    ∀ ticket ∈ tickets, p.callers[ticket]?.map Caller.url = some url

variable {rules : Rules} {heard : Response → Prop} {closed : Prop}
  {ended todo : List WalkerId} {p q : Pathfinder} {id : WalkerId}

theorem Served.congr (h : Served fair p) (hwaiting : q.waiting = p.waiting)
    (hcallers : q.callers = p.callers) : Served fair q := by
  obtain ⟨told, named⟩ := h
  rw [← hwaiting, ← hcallers] at *
  exact ⟨told, named⟩

theorem Served.conclude (h : Served fair p) {origin : String} {outcome : Outcome}
    (hfair : fair origin outcome) (hwaiting : q.waiting = p.waiting.erase origin)
    (hcallers : q.callers =
      (p.complete ((p.waiting.get? origin).getD []) outcome).callers) : Served fair q := by
  have hnamed : ∀ ticket ∈ (p.waiting.get? origin).getD [],
      p.callers[ticket]?.map Caller.url = some origin := by
    cases hget : p.waiting.get? origin with
    | none => simp
    | some tickets => exact h.named origin tickets hget
  obtain ⟨htold, hurls⟩ := h.told.complete hfair hnamed
  refine ⟨?_, ?_⟩
  · rw [hcallers]
    exact htold
  · intro url tickets htickets ticket hmem
    rw [hwaiting, Table.get?_erase] at htickets
    split at htickets
    · contradiction
    · rw [hcallers]
      exact (hurls ticket).trans (h.named url tickets htickets ticket hmem)

theorem Served.finish (h : Served fair p) (id : WalkerId) (result : Except Failure String)
    (hfair : ∀ w, p.walkers[id]? = some w → p.registered.get? w.trail.origin = some id →
      fair w.trail.origin (.ofResult w.trail.origin result)) : Served fair (p.finish id result) := by
  cases hw : p.walkers[id]? with
  | none =>
      rw [finish_of_none hw]
      exact h
  | some w =>
      by_cases hregistered : p.registered.get? w.trail.origin = some id
      · rw [finish_of_registered hw hregistered]
        exact h.conclude (hfair w hw hregistered) rfl rfl
      · rw [finish_of_not_registered hw hregistered]
        exact h.congr rfl rfl

theorem Served.dismiss (h : Served fair p) (id : WalkerId)
    (hfair : ∀ origin, fair origin (.failed (.cancelled origin))) :
    Served fair (p.dismiss id) := by
  cases hw : p.walkers[id]? with
  | none =>
      rw [dismiss_of_none hw]
      exact h
  | some w =>
      by_cases hregistered : p.registered.get? w.trail.origin = some id
      · rw [dismiss_of_registered hw hregistered]
        exact h.conclude (hfair w.trail.origin) rfl rfl
      · rw [dismiss_of_not_registered hw hregistered]
        exact h.congr rfl rfl

theorem Served.close (h : Served fair p)
    (hfair : ∀ origin, fair origin (.failed (.cancelled origin))) : Served fair p.close := by
  apply close_induction p h
  · exact fun q id hq => hq.dismiss id hfair
  · exact fun q hq => hq.congr rfl rfl

theorem Served.cancel (h : Served fair p) (ticket : Ticket) : Served fair (p.cancel ticket) where
  told := by
    apply h.told.modify
    intro caller outcome hcaller hdone
    rw [Caller.url_cancel]
    unfold Caller.cancel at hdone
    split at hdone
    · contradiction
    · exact h.told ticket caller outcome hcaller hdone
  named := by
    intro url tickets htickets other hmem
    exact (map_url_modify p.callers ticket other Caller.url_cancel).trans
      (h.named url tickets htickets other hmem)

theorem Served.call (h : Served fair p) {url : String} {tickets : List Ticket}
    (htickets : ∀ ticket ∈ tickets, p.callers[ticket]?.map Caller.url = some url)
    (hwaiting : q.waiting = p.waiting.insert url (tickets ++ [p.callers.length]))
    (hcallers : q.callers = p.callers ++ [{ url := url }]) : Served fair q := by
  have hold : ∀ (ticket : Ticket) (name : String),
      p.callers[ticket]?.map Caller.url = some name →
        (p.callers ++ [{ url := url }])[ticket]?.map Caller.url = some name := by
    intro ticket name hname
    obtain ⟨caller, hcaller, rfl⟩ := Option.map_eq_some_iff.1 hname
    obtain ⟨hlt, -⟩ := List.getElem?_eq_some_iff.1 hcaller
    rw [List.getElem?_append_left hlt]
    exact hname
  constructor
  · rw [hcallers]
    intro ticket caller outcome hcaller hdone
    rw [List.getElem?_append] at hcaller
    split at hcaller
    · exact h.told ticket caller outcome hcaller hdone
    · obtain rfl := List.mem_singleton.1 (List.mem_of_getElem? hcaller)
      contradiction
  · rw [hwaiting, hcallers]
    intro other others hothers ticket hmem
    rw [Table.get?_insert] at hothers
    split at hothers
    · rename_i heq
      obtain rfl := Option.some.inj hothers
      rw [heq]
      rcases List.mem_append.1 hmem with hmem | hmem
      · exact hold ticket url (htickets ticket hmem)
      · simp [List.mem_singleton.1 hmem]
    · exact hold ticket other (h.named other others hothers ticket hmem)

theorem callers_requested (p : Pathfinder) (url : String) :
    (p.requested url).1.callers = p.callers := by
  unfold requested ask
  split <;> rfl

theorem waiting_requested (p : Pathfinder) (url : String) :
    (p.requested url).1.waiting = p.waiting.insert url [p.callers.length] := by
  unfold requested ask
  split <;> rfl

theorem Served.start (h : Served fair p) (hkept : Kept rules heard closed ended todo p)
    (url : String) : Served fair (p.start url).2 := by
  cases hfailure : (p.requested url).2 with
  | none =>
      rw [start_of_granted hfailure]
      refine @Served.call fair p _ h url [] (by simp) ?_ ?_
      · rw [waiting_requested]
        rfl
      · rw [callers_requested]
  | some failure =>
      obtain ⟨w, hw, horigin, -, hregistered, -⟩ := hkept.requested url
      rw [start_of_refused hfailure, forget_of_registered hw ((hregistered _).2 rfl), horigin]
      constructor
      · rw [callers_requested]
        exact h.told
      · rw [callers_requested, waiting_requested]
        intro other tickets htickets ticket hmem
        rw [Table.get?_erase, Table.get?_insert] at htickets
        split at htickets
        · contradiction
        · exact h.named other tickets htickets ticket hmem

theorem Served.resolve (h : Served fair p) (hkept : Kept rules heard closed ended todo p)
    (url : String) : Served fair (p.resolve url).2 := by
  unfold Pathfinder.resolve
  split
  · cases hwaiting : p.waiting.get? url with
    | none => exact h.start hkept url
    | some tickets => exact h.call (h.named url tickets hwaiting) rfl rfl
  · exact h

theorem Served.deliver (h : Served fair p) (response : Response) :
    Served fair (p.deliver response) := by
  cases hheard : p.web.listeners.hears response.url with
  | false =>
      rw [deliver_of_unheard hheard]
      exact h
  | true =>
      cases hwaiting : p.traffic.awaiting.get? response.url with
      | none =>
          rw [deliver_of_unawaited hwaiting]
          exact h
      | some waiting =>
          rw [deliver_of_awaited hheard hwaiting, foldl_receive_eq]
          exact h.congr rfl rfl

theorem Served.foldl_finish (h : Served fair p) (endings : List Ending)
    (hfair : ∀ ending ∈ endings, ∀ origin, p.registered.get? origin = some ending.id →
      fair origin (.ofResult origin ending.result)) :
    Served fair (endings.foldl (fun p ending => p.finish ending.id ending.result) p) := by
  induction endings generalizing p with
  | nil => exact h
  | cons first endings ih =>
      apply ih
      · exact h.finish first.id first.result fun w _ => hfair first List.mem_cons_self _
      · intro ending hmem origin horigin
        exact hfair ending (List.mem_cons_of_mem first hmem) origin (registered_of_finish horigin)

theorem Served.expire (h : Served fair p) (id : WalkerId)
    (hfair : ∀ origin limit, rules.timeout = some limit →
      fair origin (.failed (.timedOut origin limit))) : Served fair (p.expire rules id) := by
  unfold Pathfinder.expire
  cases hw : p.walkers[id]? with
  | none => exact h
  | some w =>
      cases htimeout : rules.timeout with
      | none => exact h
      | some limit =>
          dsimp only
          split
          · apply h.finish
            intro w' hw' _
            obtain rfl : w = w' := Option.some.inj (hw.symm.trans hw')
            exact hfair w.trail.origin limit htimeout
          · exact h

theorem Served.step {t : Turn} (h : Served fair t.pathfinder) (id : WalkerId) :
    Served fair (t.step rules id).pathfinder := by
  rw [(Turn.stepped_step rules t id).pathfinder_eq]
  exact h.congr rfl rfl

theorem Served.drainTimed (h : Served fair p)
    (hkept : Kept rules heard closed [] p.queue p) (hnodup : p.queue.Nodup)
    (hfair : ∀ origin result, Ends rules heard p.web.refusing origin result →
      fair origin (.ofResult origin result)) : Served fair (p.drainTimed rules) := by
  obtain ⟨hmoved, -⟩ := hkept.moved hnodup (List.append_nil _).symm
  have hserved : Served fair
      (p.turnOrder.foldl (Turn.step rules) { pathfinder := p }).pathfinder := by
    rw [Turn.pathfinder_foldl_step]
    exact h.congr rfl rfl
  have hconcluded : Served fair
      (p.turnOrder.foldl (Turn.step rules) { pathfinder := p }).conclude := by
    apply hserved.foldl_finish
    intro ending hmem origin horigin
    have hends := hmoved.ends ending hmem origin horigin
    rw [(Turn.web_foldl_step rules p.turnOrder { pathfinder := p }).refusing_eq] at hends
    exact hfair origin ending.result hends
  refine List.foldlRecOn _ _ hconcluded ?_
  intro q hq id _
  apply hq.expire id
  intro origin limit htimeout
  exact hfair origin _ (Or.inr ⟨limit, htimeout, rfl⟩)

theorem Served.foldl_step_conclude {ids : List WalkerId} (h : Served fair p)
    (hkept : Kept rules heard closed [] ids p)
    (hfair : ∀ origin result, Ends rules heard p.web.refusing origin result →
      fair origin (.ofResult origin result)) :
    Served fair
      (ids.foldl (fun p id => (Turn.step rules { pathfinder := p } id).conclude) p) := by
  induction ids generalizing p with
  | nil => exact h
  | cons id ids ih =>
      have hstep := hkept.begin.step List.not_mem_nil
      have hrefusing := (Turn.stepped_step rules { pathfinder := p } id).moves.web.refusing_eq
      apply ih _ hstep.conclude
      · rw [web_conclude, hrefusing]
        exact hfair
      · apply (h.step id).foldl_finish
        intro ending hmem origin horigin
        have hends := hstep.ends ending hmem origin horigin
        rw [hrefusing] at hends
        exact hfair origin ending.result hends

theorem Served.drain (h : Served fair p) (hresting : Resting rules heard closed p)
    (hfair : ∀ origin result, Ends rules heard p.web.refusing origin result →
      fair origin (.ofResult origin result)) : Served fair (p.drain rules) := by
  unfold Pathfinder.drain
  dsimp only
  split
  · exact (h.drainTimed hresting.kept hresting.paced.nodup hfair).congr rfl rfl
  · exact (h.foldl_step_conclude hresting.kept hfair).congr rfl rfl

theorem Served.act (h : Served fair p) (hresting : Resting rules heard closed p)
    {action : Action} (haction : action.IsWithin heard closed)
    (hclose : closed → ∀ origin, fair origin (.failed (.cancelled origin)))
    (hfair : ∀ origin result, Ends rules heard p.web.refusing origin result →
      fair origin (.ofResult origin result)) : Served fair (p.act rules action).1 := by
  cases action with
  | attach =>
      simp only [Pathfinder.act, Pathfinder.attach]
      split
      · exact h
      · exact h.congr rfl rfl
  | close => exact h.close (hclose haction)
  | resolve url =>
      rw [act_resolve]
      exact h.resolve hresting.kept url
  | deliver response => exact h.deliver response
  | cancel ticket => exact h.cancel ticket
  | refuseRequests refusing => exact h.congr rfl rfl
  | answerAtOnce url response? => exact h.congr rfl rfl
  | advance span => exact h.congr rfl rfl
  | drain => exact h.drain hresting hfair

/-- Here `refused` tells whether requests may have been refused. -/
theorem Served.run {refused : Prop} (h : Served fair p) (hresting : Resting rules heard closed p)
    (hrefusing : p.web.refusing = true → refused) {actions : List Action}
    (hactions : ∀ action ∈ actions, action.IsWithin heard closed)
    (hrefused : .refuseRequests true ∈ actions → refused)
    (hclose : closed → ∀ origin, fair origin (.failed (.cancelled origin)))
    (hfair : ∀ refusing, (refusing = true → refused) → ∀ origin result,
      Ends rules heard refusing origin result → fair origin (.ofResult origin result)) :
    Served fair (p.run rules actions) := by
  induction actions generalizing p with
  | nil => exact h
  | cons action actions ih =>
      obtain ⟨haction, hrest⟩ := List.forall_mem_cons.1 hactions
      refine ih (h.act hresting haction hclose (hfair p.web.refusing hrefusing))
        (hresting.act haction) ?_ hrest fun hmem => hrefused (List.mem_cons_of_mem action hmem)
      intro hafter
      rcases refusing_act rules p action with hsame | ⟨refusing, rfl, hset⟩
      · exact hrefusing (hsame ▸ hafter)
      · rw [hset] at hafter
        exact hrefused (hafter ▸ List.mem_cons_self)

end Pathfinder

end LinkTrail
