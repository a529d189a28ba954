import LinkTrail.Proofs.Transport.Rounds

/-!
URLs that are asked for together. Main statement: the caller of each learns the outcome of its chain by
itself (`Transport.outcome?_resolveAll`).
-/

namespace LinkTrail.Transport

open Pathfinder

variable {t : Transport} {limit : Seconds} {p q : Pathfinder} {ticket : Ticket} {url : String}
  {urls : List String} {served : Nat} {stand : Stand} {stands : String → Stand}

structure Asked (t : Transport) (urls : List String) (limit : Seconds) (p : Pathfinder) : Prop where
  serving : Serving t urls limit 0 (fun url => .going (start url)) p
  length_callers : p.callers.length = urls.length
  mem_registered_iff : ∀ url, url ∈ p.registered ↔ url ∈ urls
  fetched : ∀ url, url ∈ p.traffic.awaiting ∨ url ∈ urls → url ∈ p.web.fetched

theorem asked_onWeb (t : Transport) (limit : Seconds) (hshut : t.shut = false) :
    Asked t [] limit (onWeb t.web).attach := by
  have hweb : t.web = {} := by rw [web, hshut]
  rw [hweb]
  have hresting : Resting t.settings.rules t.Brings False (onWeb {}) := .onWeb (by simp)
  refine ⟨⟨?_, ?_, rfl, rfl, rfl, ?_, Nat.zero_le _, ?_, ?_⟩, rfl, ?_, ?_⟩
  · exact @Resting.act _ _ _ _ hresting .attach trivial
  · exact (attended_onWeb fun _ => none).attach
  · intro url
    simp [Web.answerAtOnce?, attach, onWeb, mapListeners, Pathfinder.web]
  · exact fun url hmem => absurd hmem List.not_mem_nil
  · exact fun ticket url hurl => by simp at hurl
  · exact fun url => iff_of_false List.not_mem_nil List.not_mem_nil
  · exact fun url hmem => (hmem.elim List.not_mem_nil List.not_mem_nil).elim

theorem StandsAt.mono (h : StandsAt limit p ticket url stand)
    (hkept : ∀ (id : WalkerId) (w : Walker), p.registered.get? url = some id →
      p.walkers[id]? = some w → q.registered.get? url = some id ∧ q.walkers[id]? = some w)
    (hcallers : ∀ caller, p.callers[ticket]? = some caller → q.callers[ticket]? = some caller) :
    StandsAt limit q ticket url stand := by
  cases h with
  | fresh registered walker stage caller =>
      obtain ⟨hregistered, hwalker⟩ := hkept _ _ registered walker
      exact .fresh hregistered hwalker stage (hcallers _ caller)
  | walking registered walker stage timely left caller =>
      obtain ⟨hregistered, hwalker⟩ := hkept _ _ registered walker
      exact .walking hregistered hwalker stage timely left (hcallers _ caller)
  | ended caller => exact .ended (hcallers _ caller)

/-- A URL that has not been asked for is granted a walker of its own, at the start of its trail. -/
theorem Serving.requested (h : Serving t urls limit served stands p) (url : String) :
    (p.requested url).2 = none ∧
      (url ∈ p.traffic.awaiting ∨ url ∈ (p.requested url).1.web.fetched) ∧
      ∃ w, (p.requested url).1.walkers[p.walkers.length]? = some w ∧ w.trail = start url ∧
        w.stage = .fresh := by
  have asked := p.traffic.asked_ask p.walkers.length { trail := { origin := url } } url
  have hlt : p.walkers.length < (p.register url).walkers.length := by simp [register]
  rw [requested_eq]
  generalize p.traffic.ask p.walkers.length { trail := { origin := url } } url = result at asked
  have hwalker : ((p.register url).walkers.set p.walkers.length result.2.1)[p.walkers.length]? =
      some result.2.1 := List.getElem?_set_self hlt
  have hanswer : result.2.2 = none ∧
      (url ∈ p.traffic.awaiting ∨ url ∈ result.1.web.fetched) := by
    cases asked with
    | joined found => exact ⟨rfl, Or.inl (Table.mem_of_get? found)⟩
    | refused absent refusing =>
        have hserving := h.serving
        rw [Pathfinder.web, refusing] at hserving
        contradiction
    | issued => exact ⟨rfl, Or.inr (by simp)⟩
    | answered => exact ⟨rfl, Or.inr (by simp)⟩
  exact ⟨hanswer.1, hanswer.2, result.2.1, hwalker, asked.trail_eq, asked.stage_eq⟩

theorem clock_requested (p : Pathfinder) (url : String) : (p.requested url).1.clock = p.clock := by
  unfold requested ask
  split <;> rfl

theorem Serving.resolve_eq (h : Serving t urls limit served stands p) (hnew : url ∉ p.registered) :
    p.resolve url =
      (.ok (p.requested url).1.callers.length,
        { (p.requested url).1 with
          queue := (p.requested url).1.queue ++ [p.walkers.length]
          callers := p.callers ++ [{ url := url }] }) := by
  have hwaiting : p.waiting.get? url = none :=
    Table.get?_eq_none_iff.2 (mt (h.attended.mem_iff url).1 hnew)
  rw [← callers_requested p url, ← start_of_granted (h.requested url).1]
  simp [Pathfinder.resolve, h.attached, hwaiting]

theorem Serving.standsAt_resolve (h : Serving t urls limit served stands p) (hnew : url ∉ p.registered)
    (hlength : p.callers.length = urls.length) {other : String}
    (hother : (urls ++ [url])[ticket]? = some other)
    (hstart : other = url → stands url = .going (start url)) :
    StandsAt limit (p.resolve url).2 ticket other (stands other) := by
  obtain ⟨-, -, w, hw, htrail, hstage⟩ := h.requested url
  have hmoves := moves_requested hnew
  rw [h.resolve_eq hnew]
  rcases getElem?_concat_cases hother with hold | ⟨rfl, rfl⟩
  · refine (h.stands ticket other hold).mono ?_ ?_
    · intro id w hregistered hwalker
      have hid : id ≠ p.walkers.length := Nat.ne_of_lt (List.getElem?_eq_some_iff.1 hwalker).1
      exact ⟨(hmoves.registered_iff id hid other).2 hregistered,
        (hmoves.walker_eq id hid).trans hwalker⟩
    · intro caller hcaller
      dsimp only
      rw [List.getElem?_append_left (List.getElem?_eq_some_iff.1 hcaller).1]
      exact hcaller
  · rw [hstart rfl, ← htrail]
    refine .fresh ?_ hw hstage ?_
    · dsimp only
      rw [registered_requested, Table.get?_insert, if_pos rfl]
    · simp [hlength]

theorem Asked.resolve (h : Asked t urls limit p) (hnew : url ∉ urls) :
    (∃ ticket, (p.resolve url).1 = .ok ticket) ∧ Asked t (urls ++ [url]) limit (p.resolve url).2 := by
  have hserving := h.serving
  have habsent : url ∉ p.registered := mt (h.mem_registered_iff url).1 hnew
  have hresolve := hserving.resolve_eq habsent
  have hresting : Resting t.settings.rules t.Brings False (p.resolve url).2 := by
    rw [← act_resolve t.settings.rules]
    exact hserving.resting.act trivial
  obtain ⟨hattended, -⟩ := hserving.attended.resolve hserving.resting.kept url
  obtain ⟨more, hmore, haccounts⟩ := hserving.resting.kept.accounts_resolve url
  have hweb := web_resolve p url
  have hawaiting : ∀ other ∈ (p.resolve url).2.traffic.awaiting,
      other ∈ (p.resolve url).2.web.fetched := by
    intro other hmem
    rw [hmore, List.mem_append]
    rcases haccounts other hmem with ⟨hbefore, -⟩ | ⟨-, hasked, -⟩
    · exact Or.inl (h.fetched other (Or.inl hbefore))
    · exact Or.inr hasked
  refine ⟨⟨_, congrArg Prod.fst hresolve⟩,
    ⟨⟨hresting, hattended, ?_, ?_, ?_, ?_, Nat.zero_le _, ?_, ?_⟩, ?_, ?_, ?_⟩⟩
  · exact (hserving.attended.attached_eq hattended hweb.listeners_eq).trans hserving.attached
  · rw [hresolve]
    exact (clock_requested p url).trans hserving.clock
  · exact hweb.refusing_eq.trans hserving.serving
  · rw [hweb.answerAtOnce?_eq]
    exact hserving.silent
  · exact fun other hmem _ => hawaiting other hmem
  · exact fun ticket other hother =>
      hserving.standsAt_resolve habsent h.length_callers hother fun _ => rfl
  · simp [hresolve, h.length_callers]
  · intro other
    rw [hresolve]
    dsimp only
    rw [registered_requested, Table.mem_insert_iff, h.mem_registered_iff, List.mem_append,
      List.mem_singleton]
  · rintro other (hmem | hmem)
    · exact hawaiting other hmem
    · have hold : ∀ before, before ∈ p.web.fetched → before ∈ (p.resolve url).2.web.fetched := by
        intro before hbefore
        rw [hmore]
        exact List.mem_append_left more hbefore
      rcases List.mem_append.1 hmem with hmem | hlast
      · exact hold other (h.fetched other (Or.inr hmem))
      · obtain rfl := List.mem_singleton.1 hlast
        rcases (hserving.requested other).2.1 with hjoined | hfetched
        · exact hold other (h.fetched other (Or.inl hjoined))
        · rw [hresolve]
          exact hfetched

theorem askAll_concat (t : Transport) (urls : List String) (url : String)
    (h : (t.askAll urls).2 = none) :
    t.askAll (urls ++ [url]) =
      match (t.askAll urls).1.resolve url with
      | (.ok _, p) => (p, none)
      | (.error refusal, p) => (p, some refusal) := by
  unfold askAll at h ⊢
  rw [List.foldl_append]
  generalize urls.foldl _ _ = state at h ⊢
  obtain ⟨p, refusal?⟩ := state
  cases h
  rfl

theorem asked_askAll (t : Transport) (limit : Seconds) (hshut : t.shut = false)
    (hnodup : urls.Nodup) : (t.askAll urls).2 = none ∧ Asked t urls limit (t.askAll urls).1 := by
  induction urls using List.reverseRecOn with
  | nil => exact ⟨rfl, asked_onWeb t limit hshut⟩
  | append_singleton urls url ih =>
      obtain ⟨hurls, -, hdisjoint⟩ := List.nodup_append.1 hnodup
      obtain ⟨hnone, hasked⟩ := ih hurls
      obtain ⟨⟨ticket, hticket⟩, hafter⟩ := hasked.resolve fun hmem =>
        hdisjoint url hmem url (List.mem_singleton_self url) rfl
      rw [t.askAll_concat urls url hnone]
      rcases hresolved : (t.askAll urls).1.resolve url with ⟨answer, p⟩
      rw [hresolved] at hticket hafter
      obtain rfl : answer = .ok ticket := hticket
      exact ⟨rfl, hafter⟩

/-- What has no end between two turns ends with its deadline, if that ever comes. -/
theorem Serving.outcome?_expired (h : Serving t urls limit served stands p)
    (htimed : t.settings.timeout = some limit) (hqueue : p.queue = [])
    (hstands : StandsAt limit p ticket url stand) :
    outcome? (({ p with clock := .endOfTime } : Pathfinder).drain t.settings.rules) ticket =
      stand.outcome? url limit := by
  have hclock : p.clock + .endOfTime = .endOfTime := by
    rw [h.clock]
    decide +kernel
  have hresting : Resting t.settings.rules t.Brings False { p with clock := .endOfTime } :=
    hclock ▸ @Resting.act _ _ _ _ h.resting (.advance .endOfTime) trivial
  have hattended : Attended { p with clock := .endOfTime } := h.attended.congr rfl rfl rfl rfl rfl
  cases hstands with
  | ended caller =>
      obtain ⟨-, hsettles⟩ := hattended.drain_of_timed hresting htimed
      simp [outcome?, Stand.outcome?, hsettles.settled caller (by simp)]
  | @fresh id w registered walker stage caller =>
      obtain ⟨w', hw', -, -, hdue⟩ := h.resting.exists_stage registered
      obtain rfl := Option.some.inj (walker.symm.trans hw')
      rw [hqueue] at hdue
      exact absurd (hdue stage) List.not_mem_nil
  | @walking id w registered walker stage timely left caller =>
      obtain ⟨traffic, -, hheadway⟩ :=
        hattended.headway_drain hresting htimed registered walker fun _ => timely
      have hinbox := h.resting.inbox_of_not_mem_queue ⟨url, registered⟩ walker
        (hqueue ▸ List.not_mem_nil)
      have hdue : w.isOverdue t.settings.rules .endOfTime =
          Timer.strict.isDue (0 + limit) .endOfTime := isOverdue_of_walking stage _
      rw [started_of_walking stage, Walker.proceed, hinbox] at hheadway
      rw [Stand.outcome?]
      cases hheadway with
      | overdue overdue concludes =>
          rw [if_pos (hdue ▸ overdue)]
          simp [outcome?, concludes.told ticket _ caller rfl, Caller.complete]
      | onward left goesOn =>
          rw [if_neg (hdue ▸ left)]
          simp [outcome?, goesOn.same ticket _ caller rfl]

/-- However many URLs are asked for together, the caller of each learns how its own chain ends. -/
theorem outcome?_resolveAll (t : Transport) (limit : Seconds) (hshut : t.shut = false)
    (htimed : t.settings.timeout = some limit) (hnodup : urls.Nodup) :
    (t.resolveAll urls).2 = none ∧ ∀ (ticket : Ticket) (url : String), urls[ticket]? = some url →
      outcome? (t.resolveAll urls).1 ticket = t.fate? limit url := by
  obtain ⟨hnone, hasked⟩ := asked_askAll t limit hshut hnodup
  refine ⟨hnone, ?_⟩
  intro ticket url hurl
  have hfetched : (t.askAll urls).1.web.fetched.drop 0 ≠ [] :=
    List.ne_nil_of_mem (hasked.fetched url (Or.inr (List.mem_of_getElem? hurl)))
  obtain ⟨served, hserving, hqueue⟩ := hasked.serving.serve htimed
    (t.settings.rules.maxRedirects.toNat + 1) (Or.inr ⟨Nat.succ_ne_zero _, hfetched⟩)
  exact hserving.outcome?_expired htimed hqueue (hserving.stands ticket url hurl)

end LinkTrail.Transport
