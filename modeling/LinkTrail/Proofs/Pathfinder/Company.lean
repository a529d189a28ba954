import LinkTrail.Proofs.Pathfinder.Attended
import LinkTrail.Proofs.Pathfinder.Guest

/-!
Guests. Main statement: one more call for a URL under resolution is seen by nobody, and who makes it
shares the fate of the others who wait there (`guest_unseen_in_company`).
-/

namespace LinkTrail.Pathfinder

variable {rules : Rules} {p q : Pathfinder} {url : String} {id : WalkerId}
  {guest first second : Ticket}

theorem Attended.caller_act (h : Attended p) (hresting : Resting rules (fun _ => True) True p)
    (action : Action) {ticket : Ticket} {caller : Caller}
    (hcaller : p.callers[ticket]? = some caller) :
    ∃ after, (p.act rules action).1.callers[ticket]? = some after ∧ after.url = caller.url ∧
      (action = .cancel ticket → after = caller.cancel) := by
  by_cases hcancel : action = .cancel ticket
  · refine ⟨caller.cancel, ?_, caller.url_cancel, fun _ => rfl⟩
    simp [hcancel, Pathfinder.act, Pathfinder.cancel, hcaller]
  · have htogether := (h.act hresting action).2
    by_cases hpending : caller.progress = .pending
    · obtain ⟨id, hid⟩ := h.exists_registered hcaller hpending
      rcases htogether.fate caller.url id hid with ⟨-, hsame⟩ | ⟨-, outcome, htold⟩
      · exact ⟨caller, hsame ticket caller hcaller rfl hcancel, rfl,
          fun heq => absurd heq hcancel⟩
      · exact ⟨caller.complete outcome, htold ticket caller hcaller rfl,
          caller.url_complete outcome, fun heq => absurd heq hcancel⟩
    · exact ⟨caller, htogether.settled ticket caller hcaller hpending, rfl,
        fun heq => absurd heq hcancel⟩

theorem Attended.lt_length_act (h : Attended p) (hresting : Resting rules (fun _ => True) True p)
    (action : Action) {ticket : Ticket} (hlt : ticket < p.callers.length) :
    ticket < (p.act rules action).1.callers.length := by
  obtain ⟨after, hafter, -⟩ := h.caller_act hresting action (List.getElem?_eq_getElem hlt)
  exact (List.getElem?_eq_some_iff.1 hafter).1

/-- The two callers are equally far unless one of them has given up. -/
def GoTogether (p : Pathfinder) (first second : Ticket) : Prop :=
  ∃ caller other, p.callers[first]? = some caller ∧ p.callers[second]? = some other ∧
    caller.url = other.url ∧
      (caller.progress = .cancelled ∨ other.progress = .cancelled ∨
        caller.progress = other.progress)

theorem Attended.goTogether_act (h : Attended p) (hresting : Resting rules (fun _ => True) True p)
    (htogether : p.GoTogether first second) (action : Action) :
    (p.act rules action).1.GoTogether first second := by
  obtain ⟨caller, other, hcaller, hother, hurl, hprogress⟩ := htogether
  obtain ⟨caller', hcaller', hurl', hcancel⟩ := h.caller_act hresting action hcaller
  obtain ⟨other', hother', hurl'', hcancel'⟩ := h.caller_act hresting action hother
  have hact := (h.act hresting action).2
  refine ⟨caller', other', hcaller', hother', hurl'.trans (hurl.trans hurl''.symm), ?_⟩
  have hstays : ∀ {ticket : Ticket} {before after : Caller}, p.callers[ticket]? = some before →
      (p.act rules action).1.callers[ticket]? = some after → before.progress ≠ .pending →
        after = before := by
    intro ticket before after hbefore hafter hsettled
    exact Option.some.inj (hafter.symm.trans (hact.settled ticket before hbefore hsettled))
  rcases hprogress with hgone | hgone | hsame
  · rw [hstays hcaller hcaller' (by simp [hgone])]
    exact Or.inl hgone
  · rw [hstays hother hother' (by simp [hgone])]
    exact Or.inr (Or.inl hgone)
  · by_cases hpending : caller.progress = .pending
    · obtain ⟨id, hid⟩ := h.exists_registered hcaller hpending
      rcases hact.fate caller.url id hid with ⟨-, hkeeps⟩ | ⟨-, outcome, htold⟩
      -- The walk goes on: nothing has changed unless one of the two gives up.
      · by_cases hfirst : action = .cancel first
        · left
          rw [hcancel hfirst]
          exact Caller.progress_cancel hpending
        · by_cases hsecond : action = .cancel second
          · right
            left
            rw [hcancel' hsecond]
            exact Caller.progress_cancel (hsame ▸ hpending)
          · obtain rfl := Option.some.inj
              (hcaller'.symm.trans (hkeeps first caller hcaller rfl hfirst))
            obtain rfl := Option.some.inj
              (hother'.symm.trans (hkeeps second other hother hurl.symm hsecond))
            exact Or.inr (Or.inr hsame)
      -- The walk has ended: both are told the same.
      · obtain rfl := Option.some.inj (hcaller'.symm.trans (htold first caller hcaller rfl))
        obtain rfl := Option.some.inj
          (hother'.symm.trans (htold second other hother hurl.symm))
        right
        right
        rw [Caller.progress_complete hpending, Caller.progress_complete (hsame ▸ hpending)]
    · rw [hstays hcaller hcaller' hpending, hstays hother hother' (hsame ▸ hpending)]
      exact Or.inr (Or.inr hsame)

theorem Attended.goTogether (h : Attended p) (hfirst : first ∈ p.ticketsFor url)
    (hsecond : second ∈ p.ticketsFor url) : p.GoTogether first second := by
  obtain ⟨caller, hcaller, hname, hopen⟩ := h.named url first hfirst
  obtain ⟨other, hother, hname', hopen'⟩ := h.named url second hsecond
  refine ⟨caller, other, hcaller, hother, hname.trans hname'.symm, ?_⟩
  cases hprogress : caller.progress with
  | cancelled => exact Or.inl rfl
  | done outcome => exact absurd hprogress (hopen outcome)
  | pending =>
      cases hprogress' : other.progress with
      | cancelled => exact Or.inr (Or.inl rfl)
      | done outcome => exact absurd hprogress' (hopen' outcome)
      | pending => exact Or.inr (Or.inr rfl)

structure IsCompany (p : Pathfinder) (url : String) (id : WalkerId) (guest : Ticket) : Prop where
  lt : id < p.walkers.length
  mem : p.registered.get? url = some id → guest ∈ p.ticketsFor url

theorem Attended.isCompany_act (h : Attended p) (hresting : Resting rules (fun _ => True) True p)
    (hcompany : p.IsCompany url id guest) (action : Action) :
    (p.act rules action).1.IsCompany url id guest := by
  refine ⟨Nat.lt_of_lt_of_le hcompany.lt (length_walkers_le_act rules p action), ?_⟩
  intro hregistered
  rcases (h.act hresting action).2.registered url id hregistered with heq | ⟨hbefore, hsubset⟩
  · exact absurd heq (Nat.ne_of_lt hcompany.lt)
  · exact hsubset (hcompany.mem hbefore)

inductive Beside (guest : Ticket) : List Action → List Action → Prop where
  | nil : Beside guest [] []
  | shared {actions actions' : List Action} (action : Action) (rest : Beside guest actions actions') :
      Beside guest (action :: actions) (action.beside guest :: actions')
  | leaves {actions actions' : List Action} (rest : Beside guest actions actions') :
      Beside guest actions (.cancel guest :: actions')

theorem Attended.run_without (h : Attended p) (hresting : Resting rules (fun _ => True) True p)
    (hguest : guest < p.callers.length) {actions actions' : List Action}
    (hbeside : Beside guest actions actions') :
    (p.without guest).run rules actions = (p.run rules actions').without guest := by
  induction hbeside generalizing p with
  | nil => rfl
  | @shared actions actions' action rest ih =>
      have hact := congrArg Prod.fst (@act_without rules guest p hguest action)
      have hlt := h.lt_length_act hresting (action.beside guest) hguest
      have hafter := ih (h.act hresting (action.beside guest)).1 (hresting.act (isWithin_all _)) hlt
      rw [Pathfinder.run, List.foldl_cons, hact]
      exact hafter
  | @leaves actions actions' rest ih =>
      have hlt := h.lt_length_act hresting (.cancel guest) hguest
      have hafter := ih (h.act hresting (.cancel guest)).1 (hresting.act (isWithin_all _)) hlt
      rw [← cancel_guest_without]
      exact hafter

theorem Attended.run_invariant {motive : Pathfinder → Prop} (h : Attended p)
    (hresting : Resting rules (fun _ => True) True p) (hbegin : motive p)
    (hact : ∀ q action, Attended q → Resting rules (fun _ => True) True q → motive q →
      motive (q.act rules action).1) (actions : List Action) : motive (p.run rules actions) := by
  induction actions generalizing p with
  | nil => exact hbegin
  | cons action actions ih =>
      exact ih (h.act hresting action).1 (hresting.act (isWithin_all action))
        (hact p action h hresting hbegin)

theorem Attended.lt_length_run (h : Attended p) (hresting : Resting rules (fun _ => True) True p)
    (hguest : guest < p.callers.length) (actions : List Action) :
    guest < (p.run rules actions).callers.length :=
  h.run_invariant (motive := fun q => guest < q.callers.length) hresting hguest
    (fun _ action hq hrest hlt => hq.lt_length_act hrest action hlt) actions

theorem Attended.goTogether_run (h : Attended p) (hresting : Resting rules (fun _ => True) True p)
    (htogether : p.GoTogether first second) (actions : List Action) :
    (p.run rules actions).GoTogether first second :=
  h.run_invariant (motive := fun q => q.GoTogether first second) hresting htogether
    (fun _ action hq hrest hstill => hq.goTogether_act hrest hstill action) actions

theorem Attended.isCompany_run (h : Attended p) (hresting : Resting rules (fun _ => True) True p)
    (hcompany : p.IsCompany url id guest) (actions : List Action) :
    (p.run rules actions).IsCompany url id guest :=
  h.run_invariant (motive := fun q => q.IsCompany url id guest) hresting hcompany
    (fun _ action hq hrest hstill => hq.isCompany_act hrest hstill action) actions

structure SeesNoGuest (rules : Rules) (guest : Ticket) (p q : Pathfinder) : Prop where
  fetched_eq : q.web.fetched = p.web.fetched
  openUrls_eq : q.openUrls = p.openUrls
  visitedUrls_eq : q.visitedUrls = p.visitedUrls
  hops_eq : q.hops = p.hops
  isListening_eq : q.isListening = p.isListening
  caller_eq : ∀ ticket : Ticket, q.callers[Ticket.beside guest ticket]? = p.callers[ticket]?
  refusal_eq : ∀ action, (q.act rules (action.beside guest)).2 = (p.act rules action).2

theorem seesNoGuest_without (hguest : guest < p.callers.length) :
    SeesNoGuest rules guest (p.without guest) p where
  fetched_eq := rfl
  openUrls_eq := Table.keys_map.symm
  visitedUrls_eq := rfl
  hops_eq := rfl
  isListening_eq := rfl
  caller_eq ticket := (getElem?_without guest p ticket).symm
  refusal_eq action := (congrArg Prod.snd (@act_without rules guest p hguest action)).symm

theorem resolve_of_open (hattached : p.attached = true) (hopen : url ∈ p.openUrls) :
    p.resolve url = (.ok p.callers.length, p.joinWaiting url (p.ticketsFor url)) := by
  obtain ⟨tickets, htickets⟩ := Table.mem_iff_get?.1 (Table.mem_iff.2 hopen)
  simp [resolve, ticketsFor, hattached, htickets]

theorem Attended.others_ticketsFor (h : Attended p) (url : String) :
    Ticket.others p.callers.length (p.ticketsFor url) = p.ticketsFor url := by
  have hne : ∀ ticket ∈ p.ticketsFor url, ticket ≠ p.callers.length := fun ticket hmem =>
    Nat.ne_of_lt (h.lt_length hmem)
  rw [Ticket.others, List.filter_eq_self.2 (by simpa using hne)]
  exact (List.map_congr_left fun ticket hmem => Ticket.without_of_lt (h.lt_length hmem)).trans
    (List.map_id _)

theorem Attended.joinWaiting_without (h : Attended p) (hopen : url ∈ p.openUrls) :
    (p.joinWaiting url (p.ticketsFor url)).without p.callers.length = p := by
  have hwaiting : p.waiting.map (Ticket.others p.callers.length) = p.waiting := by
    apply Table.map_eq_self
    intro key tickets htickets
    have hothers := h.others_ticketsFor key
    rwa [ticketsFor, htickets] at hothers
  have hjoined : Ticket.others p.callers.length (p.ticketsFor url ++ [p.callers.length]) =
      p.ticketsFor url := by
    refine Eq.trans ?_ (h.others_ticketsFor url)
    simp [Ticket.others]
  have hlisted : p.waiting.get? url = some (p.ticketsFor url) := by
    obtain ⟨tickets, htickets⟩ := Table.mem_iff_get?.1 (Table.mem_iff.2 hopen)
    rw [ticketsFor, htickets]
    rfl
  have hcallers : ∀ caller, (p.callers ++ [caller]).eraseIdx p.callers.length = p.callers := by
    intro caller
    rw [List.eraseIdx_append_of_length_le (Nat.le_refl _)]
    simp
  simp only [without, joinWaiting, Table.map_insert, hwaiting, hjoined, hcallers,
    Table.insert_eq_self hlisted]

theorem Resting.isCompany_joinWaiting (h : Resting rules (fun _ => True) True p)
    (hregistered : p.registered.get? url = some id) :
    (p.joinWaiting url (p.ticketsFor url)).IsCompany url id p.callers.length := by
  obtain ⟨w, hw, -⟩ := h.kept.exists_of_registered hregistered
  refine ⟨(List.getElem?_eq_some_iff.1 hw).1, fun _ => ?_⟩
  simp [ticketsFor, joinWaiting, Table.get?_insert]

/-- At any time in a run, of one more call for a URL under resolution nothing is seen, whether or not
its caller gives up later. As long as the walker of that URL is registered, the caller goes together
with all who wait there. -/
theorem guest_unseen_in_company (rules : Rules) (answer? : String → Option Response)
    (before : List Action) (url : String)
    (hopen : url ∈ ((onWeb { answer? := answer? }).run rules before).openUrls) :
    let p := (onWeb { answer? := answer? }).run rules before
    let guest := p.callers.length
    (p.resolve url).1 = .ok guest ∧
    ∀ actions actions', Beside guest actions actions' →
      let q := (p.resolve url).2.run rules actions'
      SeesNoGuest rules guest (p.run rules actions) q ∧
      ∀ middle last, actions' = middle ++ last →
        let r := (p.resolve url).2.run rules middle
        r.registered.get? url = p.registered.get? url →
          guest ∈ r.ticketsFor url ∧ ∀ ticket ∈ r.ticketsFor url, q.GoTogether guest ticket := by
  intro p guest
  have hresting : Resting rules (fun _ => True) True p := resting_run rules answer? fun _ => trivial
  have hattended : Attended p := attended_run rules answer? before
  have hattached : p.attached = true :=
    (hattended.accounted hresting.kept).attached_of_open (List.ne_nil_of_mem hopen)
  obtain ⟨id, hid⟩ := Table.mem_iff_get?.1 ((hattended.mem_iff url).1 (Table.mem_iff.2 hopen))
  have hresolve := resolve_of_open hattached hopen
  have hjoined := hattended.joinWaiting_without hopen
  have hcompany := hresting.isCompany_joinWaiting hid
  have hafter := (hattended.act hresting (.resolve url)).1
  have hrested := hresting.act (isWithin_all (.resolve url))
  rw [act_resolve, hresolve] at hafter hrested
  rw [hresolve]
  refine ⟨rfl, ?_⟩
  have hguest : guest < (p.joinWaiting url (p.ticketsFor url)).callers.length := by
    simp [joinWaiting, guest]
  dsimp only at hafter hrested ⊢
  generalize p.joinWaiting url (p.ticketsFor url) = called at *
  intro actions actions' hbeside
  constructor
  · have hwithout := hafter.run_without hrested hguest hbeside
    rw [hjoined] at hwithout
    rw [hwithout]
    exact seesNoGuest_without (hafter.lt_length_run hrested hguest actions')
  · rintro middle last rfl hregistered
    obtain ⟨hattended', -⟩ := hafter.run hrested middle
    have hresting' := hrested.run fun action (_ : action ∈ middle) => isWithin_all action
    have hmem := (hafter.isCompany_run hrested hcompany middle).mem (hregistered.trans hid)
    refine ⟨hmem, ?_⟩
    intro ticket hticket
    rw [run, List.foldl_append]
    exact hattended'.goTogether_run hresting' (hattended'.goTogether hmem hticket) last

/-- A guest who gives up, with one caller before and one after. -/
theorem guest_unseen_among_two :
    let rules := ({} : Settings).rules
    let before : List Action := [.attach, .resolve "http://a/", .drain]
    let p := (onWeb {}).run rules before
    let actions : List Action := [.resolve "http://a/", .deliver { url := "http://a/" }, .drain]
    let actions' : List Action :=
      [.resolve "http://a/", .deliver { url := "http://a/" }, .cancel 1, .drain]
    "http://a/" ∈ p.openUrls ∧ Beside p.callers.length actions actions' ∧
      SeesNoGuest rules p.callers.length (p.run rules actions)
        ((p.resolve "http://a/").2.run rules actions') ∧
      ((p.resolve "http://a/").2.run rules actions').GoTogether p.callers.length 2 := by
  intro rules before p actions actions'
  have hopen : "http://a/" ∈ p.openUrls := by decide +kernel
  have hcount : p.callers.length = 1 := by decide +kernel
  have hbeside : Beside p.callers.length actions actions' := by
    rw [hcount]
    exact .shared (.resolve _) (.shared (.deliver _) (.leaves (.shared .drain .nil)))
  obtain ⟨-, hruns⟩ := guest_unseen_in_company rules (fun _ => none) before "http://a/" hopen
  obtain ⟨hunseen, htogether⟩ := hruns actions actions' hbeside
  refine ⟨hopen, hbeside, hunseen, ?_⟩
  exact (htogether [.resolve "http://a/"] _ rfl (by decide +kernel)).2 2 (by decide +kernel)

end LinkTrail.Pathfinder
