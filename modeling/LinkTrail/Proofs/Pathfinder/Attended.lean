import LinkTrail.Proofs.Pathfinder.Record
import LinkTrail.Proofs.Pathfinder.Settling

/-!
No caller is forgotten and none is told twice. Main statement: at any time every pending caller waits
for one registered walker, and with that walker's end all who wait for it learn one outcome that
stays (`callers_settled_together`).
-/

namespace LinkTrail.Pathfinder

variable {rules : Rules} {heard : Response → Prop} {closed : Prop} {ended todo : List WalkerId}
  {p q : Pathfinder}

/-- With the action, who has an outcome or has given up stays so. Of each registered walker either
nothing changes for its callers, unless one gives up, or all of them learn one outcome. Who is
registered after it is new, or has been registered and has kept those who waited. -/
structure SettlesTogether (action : Action) (p q : Pathfinder) : Prop where
  settled : ∀ (ticket : Ticket) (caller : Caller), p.callers[ticket]? = some caller →
    caller.progress ≠ .pending → q.callers[ticket]? = some caller
  fate : ∀ origin id, p.registered.get? origin = some id →
    (q.registered.get? origin = some id ∧
      ∀ (ticket : Ticket) (caller : Caller), p.callers[ticket]? = some caller →
        caller.url = origin → action ≠ .cancel ticket → q.callers[ticket]? = some caller) ∨
    (origin ∉ q.registered ∧ ∃ outcome, ∀ (ticket : Ticket) (caller : Caller),
      p.callers[ticket]? = some caller → caller.url = origin →
        q.callers[ticket]? = some (caller.complete outcome))
  registered : ∀ origin id, q.registered.get? origin = some id → id = p.walkers.length ∨
    p.registered.get? origin = some id ∧ p.ticketsFor origin ⊆ q.ticketsFor origin

variable {action : Action}

theorem Settles.together {cause : String → WalkerId → Outcome → Prop} (h : Settles cause p q) :
    SettlesTogether action p q where
  settled _ _ hcaller hsettled := h.settled hcaller hsettled
  fate origin id horigin := by
    by_cases hmem : origin ∈ q.registered
    · refine Or.inl ⟨h.get?_of_mem horigin hmem, ?_⟩
      rintro ticket caller hcaller rfl -
      exact h.same ticket caller hcaller fun _ => hmem
    · obtain ⟨outcome, -, htold⟩ := h.told origin id horigin hmem
      exact Or.inr ⟨hmem, outcome, htold⟩
  registered origin id horigin := by
    obtain ⟨hbefore, htickets⟩ := h.registered origin id horigin
    exact Or.inr ⟨hbefore, htickets ▸ List.Subset.refl _⟩

theorem SettlesTogether.of_append {callers : List Caller} (hcallers : q.callers = p.callers ++ callers)
    (hregistered : ∀ origin id, p.registered.get? origin = some id →
      q.registered.get? origin = some id)
    (hafter : ∀ origin id, q.registered.get? origin = some id → id = p.walkers.length ∨
      p.registered.get? origin = some id ∧ p.ticketsFor origin ⊆ q.ticketsFor origin) :
    SettlesTogether action p q := by
  have hsame : ∀ (ticket : Ticket) (caller : Caller), p.callers[ticket]? = some caller →
      q.callers[ticket]? = some caller := by
    intro ticket caller hcaller
    obtain ⟨hlt, -⟩ := List.getElem?_eq_some_iff.1 hcaller
    rw [hcallers, List.getElem?_append_left hlt]
    exact hcaller
  exact ⟨fun ticket caller hcaller _ => hsame ticket caller hcaller, fun origin id horigin =>
    Or.inl ⟨hregistered origin id horigin, fun ticket caller hcaller _ _ =>
      hsame ticket caller hcaller⟩, hafter⟩

theorem SettlesTogether.of_eq (hcallers : q.callers = p.callers) (hwaiting : q.waiting = p.waiting)
    (hregistered : q.registered = p.registered) : SettlesTogether action p q := by
  refine .of_append (hcallers.trans (List.append_nil _).symm) ?_ ?_
  · exact fun _ _ horigin => hregistered ▸ horigin
  · intro origin id horigin
    rw [ticketsFor, ticketsFor, hwaiting]
    exact Or.inr ⟨hregistered ▸ horigin, List.Subset.refl _⟩

theorem settlesTogether_cancel (p : Pathfinder) (ticket : Ticket) :
    SettlesTogether (.cancel ticket) p (p.cancel ticket) := by
  have hcallers : ∀ other : Ticket, (p.cancel ticket).callers[other]? =
      p.callers[other]?.map fun caller => if ticket = other then caller.cancel else caller := by
    intro other
    rw [Pathfinder.cancel, List.getElem?_modify]
    rfl
  refine ⟨?_, ?_, fun _ _ horigin => Or.inr ⟨horigin, List.Subset.refl _⟩⟩
  · intro other caller hcaller hsettled
    simp [hcallers, hcaller, Caller.cancel_of_settled hsettled]
  · intro origin id horigin
    refine Or.inl ⟨horigin, ?_⟩
    intro other caller hcaller _ hother
    have hne : ticket ≠ other := fun heq => hother (heq ▸ rfl)
    simp [hcallers, hcaller, hne]

theorem attended_onWeb (answer? : String → Option Response) :
    Attended (onWeb { answer? := answer? }) := by
  refine ⟨rfl, ?_, ?_, ?_, fun _ => rfl, rfl⟩
  · intro ticket caller hcaller
    simp [onWeb] at hcaller
  · intro url
    simp [ticketsFor, onWeb]
  · intro url ticket hmem
    simp [ticketsFor, onWeb] at hmem

theorem Attended.attach (h : Attended p) : Attended p.attach := by
  unfold Pathfinder.attach
  split
  · exact h
  · rename_i hattached
    have hlisteners := h.listeners_eq
    rw [if_neg hattached] at hlisteners
    refine ⟨h.keys_eq, h.waits, h.nodup, h.named, fun hdetached => absurd hdetached (by simp), ?_⟩
    simp [mapListeners, web] at hlisteners ⊢
    rw [hlisteners]

theorem Attended.cancel (h : Attended p) (ticket : Ticket) : Attended (p.cancel ticket) := by
  refine ⟨h.keys_eq, ?_, h.nodup, ?_, h.detached, h.listeners_eq⟩
  · intro other after hafter hpending
    simp only [Pathfinder.cancel, List.getElem?_modify] at hafter
    obtain ⟨caller, hcaller, rfl⟩ := Option.map_eq_some_iff.1 hafter
    by_cases heq : ticket = other
    · rw [if_pos heq] at hpending
      exact absurd hpending caller.cancel_ne_pending
    · rw [if_neg heq] at hpending ⊢
      exact h.waits other caller hcaller hpending
  · intro url other hmem
    obtain ⟨caller, hcaller, hname, hopen⟩ := h.named url other hmem
    have hafter : (p.cancel ticket).callers[other]? =
        some (if ticket = other then caller.cancel else caller) := by
      rw [Pathfinder.cancel, List.getElem?_modify, hcaller]
      rfl
    refine ⟨_, hafter, ?_, ?_⟩
    · split
      · exact caller.url_cancel.trans hname
      · exact hname
    · intro outcome
      split
      · unfold Caller.cancel
        split
        · simp
        · exact hopen outcome
      · exact hopen outcome

theorem getElem?_concat_cases {α : Type} {items : List α} {last item : α} {place : Nat}
    (h : (items ++ [last])[place]? = some item) :
    items[place]? = some item ∨ place = items.length ∧ item = last := by
  rcases Nat.lt_trichotomy place items.length with hlt | rfl | hgt
  · rw [List.getElem?_append_left hlt] at h
    exact Or.inl h
  · rw [List.getElem?_concat_length] at h
    exact Or.inr ⟨rfl, (Option.some.inj h).symm⟩
  · rw [List.getElem?_eq_none (by simpa using Nat.succ_le_of_lt hgt)] at h
    contradiction

theorem Attended.lt_length (h : Attended p) {url : String} {ticket : Ticket}
    (hmem : ticket ∈ p.ticketsFor url) : ticket < p.callers.length := by
  obtain ⟨caller, hcaller, -⟩ := h.named url ticket hmem
  exact (List.getElem?_eq_some_iff.1 hcaller).1

theorem Attended.call (h : Attended p) {url : String} (hattached : p.attached = true)
    (hwaiting : q.waiting = p.waiting.insert url (p.ticketsFor url ++ [p.callers.length]))
    (hkeys : q.waiting.keys = q.registered.keys)
    (hcallers : q.callers = p.callers ++ [{ url := url }]) (hsame : q.attached = p.attached)
    (hlisteners : q.web.listeners = p.web.listeners) : Attended q := by
  have htickets : ∀ other, q.ticketsFor other =
      if other = url then p.ticketsFor url ++ [p.callers.length] else p.ticketsFor other := by
    intro other
    rw [ticketsFor, hwaiting, Table.get?_insert]
    split <;> rfl
  refine ⟨hkeys, ?_, ?_, ?_, ?_, ?_⟩
  · intro ticket caller hcaller hpending
    rw [htickets]
    rw [hcallers] at hcaller
    rcases getElem?_concat_cases hcaller with hold | ⟨rfl, rfl⟩
    · have hmem := h.waits ticket caller hold hpending
      split
      · rename_i heq
        exact List.mem_append_left _ (heq ▸ hmem)
      · exact hmem
    · simp
  · intro other
    rw [htickets]
    split
    · rw [← List.concat_eq_append]
      exact (h.nodup url).concat fun hmem => Nat.lt_irrefl _ (h.lt_length hmem)
    · exact h.nodup other
  · intro other ticket hmem
    have hold : ∀ url, ticket ∈ p.ticketsFor url → ∃ caller, q.callers[ticket]? = some caller ∧
        caller.url = url ∧ ∀ outcome, caller.progress ≠ .done outcome := by
      intro url hticket
      rw [hcallers, List.getElem?_append_left (h.lt_length hticket)]
      exact h.named url ticket hticket
    rw [htickets] at hmem
    split at hmem
    · rename_i heq
      rcases List.mem_append.1 hmem with hmem | hmem
      · exact heq ▸ hold url hmem
      · exact ⟨{ url := url }, by simp [hcallers, List.mem_singleton.1 hmem], heq.symm, by simp⟩
    · exact hold other hmem
  · intro hdetached
    rw [hsame, hattached] at hdetached
    contradiction
  · rw [hlisteners, hsame]
    exact h.listeners_eq

theorem Attended.mem_iff (h : Attended p) (url : String) : url ∈ p.waiting ↔ url ∈ p.registered := by
  rw [Table.mem_iff, h.keys_eq, Table.mem_iff]

theorem mem_waiting_of_mem_ticketsFor {url : String} {ticket : Ticket}
    (hmem : ticket ∈ p.ticketsFor url) : url ∈ p.waiting := by
  apply Decidable.byContradiction
  intro hnot
  rw [ticketsFor, Table.get?_eq_none_iff.2 hnot] at hmem
  exact List.not_mem_nil hmem

theorem Attended.exists_registered (h : Attended p) {ticket : Ticket} {caller : Caller}
    (hcaller : p.callers[ticket]? = some caller) (hpending : caller.progress = .pending) :
    ∃ id, p.registered.get? caller.url = some id := by
  have hmem := h.waits ticket caller hcaller hpending
  exact Table.mem_iff_get?.1 ((h.mem_iff caller.url).1 (mem_waiting_of_mem_ticketsFor hmem))

theorem attached_requested (p : Pathfinder) (url : String) :
    (p.requested url).1.attached = p.attached := by
  unfold requested ask
  split <;> rfl

theorem Attended.start_of_refused (h : Attended p) (hkept : Kept rules heard closed ended todo p)
    {url : String} (habsent : url ∉ p.waiting) {failure : Failure}
    (hfailure : (p.requested url).2 = some failure) :
    (p.start url).2.waiting = p.waiting ∧ (p.start url).2.registered = p.registered ∧
      (p.start url).2.callers = p.callers ∧ (p.start url).2.attached = p.attached ∧
        (p.start url).2.web.listeners = p.web.listeners := by
  obtain ⟨w, hw, horigin, -, hregistered, -⟩ := hkept.requested url
  have hweb := (moves_ask (p.register url) p.walkers.length url).web.listeners_eq
  rw [Pathfinder.start_of_refused hfailure, forget_of_registered hw ((hregistered _).2 rfl), horigin]
  refine ⟨?_, ?_, callers_requested p url, attached_requested p url, hweb⟩
  · rw [waiting_requested]
    exact Table.erase_insert_of_not_mem habsent _
  · rw [registered_requested]
    exact Table.erase_insert_of_not_mem (mt (h.mem_iff url).2 habsent) _

theorem Attended.callers_resolve (h : Attended p) (hkept : Kept rules heard closed ended todo p)
    (url : String) : ∃ callers, (p.resolve url).2.callers = p.callers ++ callers := by
  unfold Pathfinder.resolve
  split
  · cases hwaiting : p.waiting.get? url with
    | some tickets => exact ⟨_, rfl⟩
    | none =>
        dsimp only
        cases hfailure : (p.requested url).2 with
        | none =>
            rw [start_of_granted hfailure]
            exact ⟨_, congrArg (· ++ _) (callers_requested p url)⟩
        | some failure =>
            obtain ⟨-, -, hcallers, -⟩ :=
              h.start_of_refused hkept (Table.get?_eq_none_iff.1 hwaiting) hfailure
            exact ⟨[], hcallers.trans (List.append_nil _).symm⟩
  · exact ⟨[], (List.append_nil _).symm⟩

theorem Attended.join (h : Attended p) {url : String} {tickets : List Ticket}
    (hattached : p.attached = true) (hwaiting : p.waiting.get? url = some tickets) :
    Attended (p.joinWaiting url tickets) ∧
      SettlesTogether (.resolve url) p (p.joinWaiting url tickets) := by
  have hjoined : p.ticketsFor url = tickets := by simp [ticketsFor, hwaiting]
  refine ⟨h.call hattached (hjoined ▸ rfl) ?_ rfl rfl rfl,
    .of_append rfl (fun _ _ horigin => horigin) ?_⟩
  · dsimp only [joinWaiting]
    rw [Table.keys_insert, if_pos (Table.mem_of_get? hwaiting), h.keys_eq]
  · intro origin id horigin
    refine Or.inr ⟨horigin, ?_⟩
    simp only [ticketsFor, joinWaiting, Table.get?_insert]
    split
    · rename_i heq
      rw [heq, hwaiting]
      exact List.subset_append_left tickets _
    · exact List.Subset.refl _

theorem Attended.start_of_granted (h : Attended p) {url : String} (hattached : p.attached = true)
    (habsent : url ∉ p.waiting) (hgranted : (p.requested url).2 = none) :
    Attended (p.start url).2 ∧ SettlesTogether (.resolve url) p (p.start url).2 := by
  have hnew : url ∉ p.registered := mt (h.mem_iff url).2 habsent
  have hnobody : p.ticketsFor url = [] := by simp [ticketsFor, Table.get?_eq_none_iff.2 habsent]
  have hweb := (moves_ask (p.register url) p.walkers.length url).web.listeners_eq
  have hcallers := callers_requested p url
  rw [Pathfinder.start_of_granted hgranted]
  refine ⟨@Attended.call p _ h url hattached ?_ ?_ ?_ (attached_requested p url) hweb,
    @SettlesTogether.of_append p _ _ [{ url := url }] ?_ ?_ ?_⟩
  · rw [waiting_requested, hnobody]
    rfl
  · dsimp only
    rw [waiting_requested, registered_requested, Table.keys_insert, Table.keys_insert,
      if_neg habsent, if_neg hnew, h.keys_eq]
  · rw [hcallers]
  · rw [hcallers]
  · intro origin id horigin
    dsimp only
    rw [registered_requested, Table.get?_insert, if_neg]
    · exact horigin
    · intro heq
      exact hnew (heq ▸ Table.mem_of_get? horigin)
  · intro origin id horigin
    simp only [ticketsFor, waiting_requested, registered_requested,
      Table.get?_insert] at horigin ⊢
    split at horigin
    · exact Or.inl (Option.some.inj horigin).symm
    · rename_i hne
      rw [if_neg hne]
      exact Or.inr ⟨horigin, List.Subset.refl _⟩

theorem Attended.resolve (h : Attended p) (hkept : Kept rules heard closed ended todo p)
    (url : String) :
    Attended (p.resolve url).2 ∧ SettlesTogether (.resolve url) p (p.resolve url).2 := by
  unfold Pathfinder.resolve
  split
  · rename_i hattached
    cases hwaiting : p.waiting.get? url with
    | some tickets => exact h.join hattached hwaiting
    | none =>
        have habsent := Table.get?_eq_none_iff.1 hwaiting
        cases hfailure : (p.requested url).2 with
        | none => exact h.start_of_granted hattached habsent hfailure
        | some failure =>
            obtain ⟨hwaiting, hregistered, hcallers, hsame, hlisteners⟩ :=
              h.start_of_refused hkept habsent hfailure
            exact ⟨h.congr hwaiting hregistered hcallers hsame hlisteners,
              .of_eq hcallers hwaiting hregistered⟩
  · exact ⟨h, .of_eq rfl rfl rfl⟩

theorem Attended.callers_act (h : Attended p) (hkept : Kept rules heard closed ended todo p)
    {ticket : Ticket} {caller : Caller} (hdrain : action ≠ .drain) (hclose : action ≠ .close)
    (hcancel : action ≠ .cancel ticket) (hcaller : p.callers[ticket]? = some caller) :
    (p.act rules action).1.callers[ticket]? = some caller := by
  cases action with
  | attach =>
      simp only [Pathfinder.act, Pathfinder.attach]
      split
      · exact hcaller
      · exact hcaller
  | close => contradiction
  | resolve url =>
      obtain ⟨callers, hcallers⟩ := h.callers_resolve hkept url
      obtain ⟨hlt, -⟩ := List.getElem?_eq_some_iff.1 hcaller
      rw [act_resolve, hcallers, List.getElem?_append_left hlt]
      exact hcaller
  | deliver response =>
      rw [Pathfinder.act]
      dsimp only
      rw [deliver_eq]
      exact hcaller
  | cancel other =>
      have hne : other ≠ ticket := fun heq => hcancel (heq ▸ rfl)
      simp [Pathfinder.act, Pathfinder.cancel, hcaller, hne]
  | refuseRequests refusing => exact hcaller
  | answerAtOnce url response? => exact hcaller
  | advance span => exact hcaller
  | drain => contradiction

theorem Attended.act (h : Attended p) (hresting : Resting rules heard True p) (action : Action) :
    Attended (p.act rules action).1 ∧ SettlesTogether action p (p.act rules action).1 := by
  cases action with
  | attach =>
      refine ⟨h.attach, ?_⟩
      simp only [Pathfinder.act, Pathfinder.attach]
      split
      · exact .of_eq rfl rfl rfl
      · exact .of_eq rfl rfl rfl
  | close =>
      obtain ⟨hclosed, hsettles⟩ := h.close hresting.kept
      exact ⟨hclosed, hsettles.together⟩
  | resolve url =>
      rw [act_resolve]
      exact h.resolve hresting.kept url
  | deliver response =>
      have hlisteners := congrArg Web.listeners (web_deliver p response)
      rw [Pathfinder.act]
      dsimp only
      rw [deliver_eq]
      exact ⟨h.congr rfl rfl rfl rfl hlisteners, .of_eq rfl rfl rfl⟩
  | cancel ticket => exact ⟨h.cancel ticket, settlesTogether_cancel p ticket⟩
  | refuseRequests refusing => exact ⟨h.congr rfl rfl rfl rfl rfl, .of_eq rfl rfl rfl⟩
  | answerAtOnce url response? => exact ⟨h.congr rfl rfl rfl rfl rfl, .of_eq rfl rfl rfl⟩
  | advance span => exact ⟨h.congr rfl rfl rfl rfl rfl, .of_eq rfl rfl rfl⟩
  | drain =>
      obtain ⟨hdrained, hsettles⟩ := h.drain hresting
      exact ⟨hdrained, hsettles.together⟩

theorem Attended.run_within (h : Attended p) (hresting : Resting rules heard True p)
    {actions : List Action} (hactions : ∀ action ∈ actions, action.IsWithin heard True) :
    Attended (p.run rules actions) ∧
      ∀ (ticket : Ticket) (caller : Caller), p.callers[ticket]? = some caller →
        caller.progress ≠ .pending → (p.run rules actions).callers[ticket]? = some caller := by
  induction actions generalizing p with
  | nil => exact ⟨h, fun _ _ hcaller _ => hcaller⟩
  | cons action actions ih =>
      obtain ⟨haction, hactions⟩ := List.forall_mem_cons.1 hactions
      obtain ⟨hacted, htogether⟩ := h.act hresting action
      obtain ⟨hrun, hsettled⟩ := ih hacted (hresting.act haction) hactions
      refine ⟨hrun, ?_⟩
      intro ticket caller hcaller hdone
      exact hsettled ticket caller (htogether.settled ticket caller hcaller hdone) hdone

theorem Attended.run (h : Attended p) (hresting : Resting rules (fun _ => True) True p)
    (actions : List Action) :
    Attended (p.run rules actions) ∧
      ∀ (ticket : Ticket) (caller : Caller), p.callers[ticket]? = some caller →
        caller.progress ≠ .pending → (p.run rules actions).callers[ticket]? = some caller :=
  h.run_within hresting fun action _ => isWithin_all action

theorem attended_run (rules : Rules) (answer? : String → Option Response) (actions : List Action) :
    Attended ((onWeb { answer? := answer? }).run rules actions) :=
  ((attended_onWeb answer?).run (.onWeb fun _ _ _ => trivial) actions).1

/-- What can be told of a pathfinder at any time. Every pending caller is listed once, under the URL
of its call, and a walker from there is registered. -/
structure Accounted (p : Pathfinder) : Prop where
  pending_listed : ∀ (ticket : Ticket) (caller : Caller), p.callers[ticket]? = some caller →
    caller.progress = .pending →
      (∀ url, (p.ticketsFor url).count ticket = if url = caller.url then 1 else 0) ∧
      ∃ id w, p.registered.get? caller.url = some id ∧ p.walkers[id]? = some w ∧
        w.trail.origin = caller.url
  openUrls_eq : p.openUrls = p.registered.keys
  quiet : p.openUrls = [] → p.visitedUrls = [] ∧ p.hops = .empty
  attached_of_open : p.openUrls ≠ [] → p.attached = true
  listeners_eq : p.web.listeners = if p.attached then ({} : Listeners Unit).addForAll () else {}

theorem Attended.accounted (h : Attended p) (hkept : Kept rules heard closed ended todo p) :
    Accounted p := by
  refine ⟨?_, h.keys_eq, ?_, ?_, h.listeners_eq⟩
  · intro ticket caller hcaller hpending
    have hmem := h.waits ticket caller hcaller hpending
    constructor
    · intro url
      split
      · rename_i heq
        rw [heq]
        exact List.count_eq_one_of_mem (h.nodup caller.url) hmem
      · rename_i hne
        apply List.count_eq_zero.2
        intro hother
        obtain ⟨named, hnamed, hname, -⟩ := h.named url ticket hother
        obtain rfl := Option.some.inj (hcaller.symm.trans hnamed)
        exact hne hname.symm
    · obtain ⟨id, hid⟩ := h.exists_registered hcaller hpending
      obtain ⟨w, hw, horigin, -⟩ := hkept.exists_of_registered hid
      exact ⟨id, w, hid, hw, horigin⟩
  · intro hnone
    have hentries : p.registered.entries = [] := by
      rw [openUrls, h.keys_eq, Table.keys, List.map_eq_nil_iff] at hnone
      exact hnone
    simp [visitedUrls, hops, activeWalkers, Table.values, hentries, Table.ofList]
  · intro hsome
    apply Decidable.byContradiction
    intro hdetached
    rw [openUrls, h.keys_eq, h.detached (by simpa using hdetached)] at hsome
    exact hsome rfl

/-- At any time, between actions and within a turn, every pending caller is accounted for. An answer
that has come stays, and whatever happens the callers of one walker learn one outcome together. -/
theorem callers_settled_together (rules : Rules) (answer? : String → Option Response)
    (actions : List Action) :
    let p := (onWeb { answer? := answer? }).run rules actions
    p.Accounted ∧ (∀ id q, p.NextToMove rules id q → q.Accounted) ∧
    (∀ action, p.SettlesTogether action (p.act rules action).1) ∧
    ∀ later (ticket : Ticket) (caller : Caller), p.callers[ticket]? = some caller →
      caller.progress ≠ .pending → (p.run rules later).callers[ticket]? = some caller := by
  intro p
  have hresting : Resting rules (fun _ => True) True p :=
    resting_run rules answer? fun _ => trivial
  have hattended : Attended p := attended_run rules answer? actions
  refine ⟨hattended.accounted hresting.kept, ?_, fun action => (hattended.act hresting action).2,
    fun later => (hattended.run hresting later).2⟩
  intro id q hnext
  unfold NextToMove at hnext
  split at hnext
  · obtain ⟨moved, rest, horder, rfl⟩ := hnext
    obtain ⟨hkept, -⟩ := hresting.kept.moved hresting.paced.nodup horder
    obtain ⟨hstepped, -⟩ := @Attended.foldl_step (fun _ _ _ => True) p rules hattended moved
    exact hstepped.accounted hkept.kept
  · obtain ⟨moved, rest, horder, rfl⟩ := hnext
    have hkept : Kept rules (fun _ => True) True [] (moved ++ id :: rest) p := by
      rw [← horder]
      exact hresting.kept
    exact (hattended.foldl_step_conclude moved).1.accounted hkept.foldl_step_conclude

/-- A close between two walks from one URL, each with two callers. -/
theorem callers_settled_around_close :
    let rules := ({} : Settings).rules
    let actions : List Action :=
      [.attach, .resolve "http://a/", .resolve "http://a/", .drain, .cancel 0,
        .deliver (.redirect "http://a/" "http://b/"), .close, .attach, .resolve "http://a/",
        .resolve "http://a/"]
    let p := (onWeb {}).run rules actions
    let cancelled : Outcome := .failed (.cancelled "http://a/")
    (p.callers[1]? = some ⟨"http://a/", .done cancelled⟩ ∧
      ∀ later, (p.run rules later).callers[1]? = some ⟨"http://a/", .done cancelled⟩) ∧
    p.registered.get? "http://a/" = some 1 ∧ "http://a/" ∉ (p.act rules .close).1.registered ∧
      ∃ outcome, (p.act rules .close).1.callers[2]? = some ⟨"http://a/", .done outcome⟩ ∧
        (p.act rules .close).1.callers[3]? = some ⟨"http://a/", .done outcome⟩ := by
  intro rules actions p cancelled
  obtain ⟨-, -, htogether, hsettled⟩ := callers_settled_together rules (fun _ => none) actions
  have hcaller : p.callers[1]? = some ⟨"http://a/", .done cancelled⟩ := by decide +kernel
  have hregistered : p.registered.get? "http://a/" = some 1 := by decide +kernel
  have hgone : "http://a/" ∉ (p.act rules .close).1.registered := by decide +kernel
  have hthird : p.callers[2]? = some ⟨"http://a/", .pending⟩ := by decide +kernel
  have hfourth : p.callers[3]? = some ⟨"http://a/", .pending⟩ := by decide +kernel
  refine ⟨⟨hcaller, fun later => hsettled later 1 _ hcaller (by simp)⟩, hregistered, hgone, ?_⟩
  rcases (htogether .close).fate "http://a/" 1 hregistered with ⟨hstays, -⟩ | ⟨-, outcome, htold⟩
  · exact absurd (Table.mem_of_get? hstays) hgone
  · exact ⟨outcome, htold 2 _ hthird rfl, htold 3 _ hfourth rfl⟩

end LinkTrail.Pathfinder
