import LinkTrail.Proofs.Pathfinder.Runs

/-!
Requests that are out. Main statement: except in a turn with deadlines in which requests are
refused, each action opens a list of those who wait only with a request that is out, and asks for no
URL that has such a list (`Resting.accounts_act`).
-/

namespace LinkTrail

namespace Traffic

structure Extends (urls : List String) (t t' : Traffic) : Prop where
  keeps : ∀ url ∈ t.awaiting, url ∈ t'.awaiting
  asks : t'.web = { t.web with fetched := t.web.fetched ++ urls }
  unlisted : ∀ url ∈ urls, url ∉ t.awaiting

structure Grows (urls : List String) (t t' : Traffic) : Prop extends Extends urls t t' where
  opens : ∀ url ∈ t'.awaiting, url ∉ t.awaiting → url ∈ urls ∧ t.web.answerAtOnce? url = none

variable {t t' t'' : Traffic} {id : WalkerId} {w : Walker} {url : String}
  {urls urls' : List String}

theorem Extends.refl (t : Traffic) : Extends [] t t :=
  ⟨fun _ hmem => hmem, by simp, by simp⟩

theorem Extends.trans (h : Extends urls t t') (h' : Extends urls' t' t'') :
    Extends (urls ++ urls') t t'' where
  keeps url hmem := h'.keeps url (h.keeps url hmem)
  asks := by
    rw [h'.asks, h.asks]
    simp
  unlisted := by
    intro url hmem hold
    rcases List.mem_append.1 hmem with hmem | hmem
    · exact h.unlisted url hmem hold
    · exact h'.unlisted url hmem (h.keeps url hold)

theorem Grows.refl (t : Traffic) : Grows [] t t :=
  ⟨.refl t, fun _ hmem hnew => absurd hmem hnew⟩

theorem Grows.trans (h : Grows urls t t') (h' : Grows urls' t' t'') :
    Grows (urls ++ urls') t t'' where
  toExtends := h.toExtends.trans h'.toExtends
  opens := by
    intro url hmem hnew
    by_cases hmiddle : url ∈ t'.awaiting
    · obtain ⟨hfetched, hlater⟩ := h.opens url hmiddle hnew
      exact ⟨List.mem_append_left urls' hfetched, hlater⟩
    · obtain ⟨hfetched, hlater⟩ := h'.opens url hmem hmiddle
      refine ⟨List.mem_append_right urls hfetched, ?_⟩
      rw [h.asks] at hlater
      exact hlater

theorem Extends.exists_grows {p : Prop} (urls : List String) (h : Extends urls t t')
    (hopens : p → ∀ url ∈ t'.awaiting, url ∉ t.awaiting →
      url ∈ urls ∧ t.web.answerAtOnce? url = none) :
    ∃ urls, Extends urls t t' ∧ (p → Grows urls t t') :=
  ⟨urls, h, fun hp => ⟨h, hopens hp⟩⟩

/-- Unless it is refused, a request opens a list only if it is out. -/
theorem Asked.exists_extends {result : Traffic × Walker × Option Failure}
    (h : Asked t id w url result) :
    ∃ urls, Extends urls t result.1 ∧ (result.2.2 = none → Grows urls t result.1) := by
  have hinsert : ∀ (waiting : List WalkerId) (other : String), other ∈ t.awaiting →
      other ∈ t.awaiting.insert url waiting := fun _ _ hmem =>
    Table.mem_insert_iff.2 (Or.inl hmem)
  have hunlisted : t.awaiting.get? url = none → ∀ other ∈ [url], other ∉ t.awaiting := by
    intro absent other hmem
    rw [List.mem_singleton.1 hmem]
    exact Table.get?_eq_none_iff.1 absent
  cases h with
  | joined found =>
      refine Extends.exists_grows [] ⟨hinsert _, by simp, by simp⟩ ?_
      intro _ other hmem hnew
      rcases Table.mem_insert_iff.1 hmem with hmem | heq
      · exact absurd hmem hnew
      · exact absurd (heq ▸ Table.mem_of_get? found) hnew
  | refused absent refusing =>
      refine Extends.exists_grows [] ⟨hinsert _, by simp, by simp⟩ ?_
      intro hnone
      contradiction
  | issued absent serving later =>
      refine Extends.exists_grows [url] ⟨hinsert _, rfl, hunlisted absent⟩ ?_
      intro _ other hmem hnew
      rcases Table.mem_insert_iff.1 hmem with hmem | heq
      · exact absurd hmem hnew
      · rw [heq]
        exact ⟨List.mem_singleton.2 rfl, later⟩
  | answered absent serving atOnce =>
      refine Extends.exists_grows [url] ⟨fun _ hmem => hmem, rfl, hunlisted absent⟩ ?_
      exact fun _ other hmem hnew => absurd hmem hnew

end Traffic

theorem Walker.Walk.exists_extends {rules : Rules} {id : WalkerId} {t : Traffic} {w : Walker}
    {result : Traffic × Walker × Option (Except Failure String)}
    (h : Walk rules id t w result) :
    ∃ urls, Traffic.Extends urls t result.1 ∧
      (t.web.refusing = false ∨ result.2.2 = none → Traffic.Grows urls t result.1) := by
  induction h with
  | idle => exact ⟨[], .refl _, fun _ => .refl _⟩
  | failed => exact ⟨[], .refl _, fun _ => .refl _⟩
  | arrived => exact ⟨[], .refl _, fun _ => .refl _⟩
  | refused read verdict asked =>
      obtain ⟨urls, hextends, -⟩ := asked.exists_extends
      refine ⟨urls, hextends, ?_⟩
      intro hserving
      cases asked with
      | refused absent refusing => simp [refusing] at hserving
  | onward read verdict asked rest ih =>
      obtain ⟨urls, hfirst, hgrows⟩ := asked.exists_extends
      obtain ⟨urls', hrest, hgrows'⟩ := ih
      rw [asked.isAskedMore.refusing_eq] at hgrows'
      exact ⟨urls ++ urls', hfirst.trans hrest, fun h => (hgrows rfl).trans (hgrows' h)⟩

namespace Pathfinder

variable {rules : Rules} {heard : Response → Prop} {closed : Prop} {p q r : Pathfinder}
  {id : WalkerId}

/-- Every list of those who wait in `q` was there in `p`, and its URL has not been asked for since,
or has been opened with a request that was made since and is out. -/
def Accounts (p q : Pathfinder) : Prop :=
  ∃ urls, q.web.fetched = p.web.fetched ++ urls ∧
    ∀ url ∈ q.traffic.awaiting,
      (url ∈ p.traffic.awaiting ∧ url ∉ urls) ∨
      (url ∉ p.traffic.awaiting ∧ url ∈ urls ∧ p.web.answerAtOnce? url = none)

theorem Accounts.of_subset (hfetched : q.web.fetched = p.web.fetched)
    (hawaiting : ∀ url ∈ q.traffic.awaiting, url ∈ p.traffic.awaiting) : p.Accounts q :=
  ⟨[], by simp [hfetched], fun url hmem => Or.inl ⟨hawaiting url hmem, List.not_mem_nil⟩⟩

theorem Accounts.of_grows {urls : List String} (h : Traffic.Grows urls p.traffic q.traffic)
    (hweb : r.web = q.web)
    (hawaiting : ∀ url ∈ r.traffic.awaiting, url ∈ q.traffic.awaiting) : p.Accounts r := by
  refine ⟨urls, ?_, ?_⟩
  · rw [hweb]
    exact congrArg Web.fetched h.asks
  · intro url hmem
    by_cases hold : url ∈ p.traffic.awaiting
    · exact Or.inl ⟨hold, fun hnew => h.unlisted url hnew hold⟩
    · exact Or.inr ⟨hold, h.opens url (hawaiting url hmem) hold⟩

theorem mem_awaiting_of_withdraw {t : Traffic} {urls : List String} {url : String}
    (h : url ∈ (t.withdraw id urls).awaiting) : url ∈ t.awaiting := by
  obtain ⟨waiting, hwaiting⟩ := Table.mem_iff_get?.1 h
  simp only [Traffic.withdraw, Table.get?_filterMap, Option.bind_eq_some_iff] at hwaiting
  obtain ⟨others, hothers, -⟩ := hwaiting
  exact Table.mem_of_get? hothers

theorem mem_awaiting_of_forget {url : String} (h : url ∈ (p.forget id).1.traffic.awaiting) :
    url ∈ p.traffic.awaiting := by
  cases hw : p.walkers[id]? with
  | none => rwa [forget_of_none hw] at h
  | some w =>
      by_cases hregistered : p.registered.get? w.trail.origin = some id
      · rw [forget_of_registered hw hregistered] at h
        exact mem_awaiting_of_withdraw h
      · rwa [forget_of_not_registered hw hregistered] at h

theorem mem_awaiting_of_finish {result : Except Failure String} {url : String}
    (h : url ∈ (p.finish id result).traffic.awaiting) : url ∈ p.traffic.awaiting := by
  rw [traffic_finish] at h
  exact mem_awaiting_of_forget h

theorem mem_awaiting_of_foldl_finish {endings : List Ending} {url : String}
    (h : url ∈ (endings.foldl (fun p ending => p.finish ending.id ending.result)
      p).traffic.awaiting) : url ∈ p.traffic.awaiting := by
  induction endings generalizing p with
  | nil => exact h
  | cons first endings ih => exact mem_awaiting_of_finish (ih h)

theorem mem_awaiting_of_foldl_expire {ids : List WalkerId} {url : String}
    (h : url ∈ (ids.foldl (expire rules) p).traffic.awaiting) : url ∈ p.traffic.awaiting := by
  induction ids generalizing p with
  | nil => exact h
  | cons id ids ih =>
      have hmem := ih h
      unfold expire at hmem
      split at hmem
      · split at hmem
        · exact mem_awaiting_of_finish hmem
        · exact hmem
      · exact hmem

theorem Turn.exists_extends_step (rules : Rules) (t : Turn) (id : WalkerId) :
    ∃ urls, Traffic.Extends urls t.pathfinder.traffic (t.step rules id).pathfinder.traffic ∧
      (t.pathfinder.web.refusing = false ∨ (t.step rules id).endings = t.endings →
        Traffic.Grows urls t.pathfinder.traffic (t.step rules id).pathfinder.traffic) := by
  have hstepped := stepped_step rules t id
  generalize t.step rules id = u at *
  cases hstepped with
  | idle stage => exact ⟨[], .refl _, fun _ => .refl _⟩
  | late walker stage untimely => exact ⟨[], .refl _, fun _ => .refl _⟩
  | @moved w after traffic result? walker stage timely proceed =>
      obtain ⟨urls, hextends, hgrows⟩ :=
        ((w.started rules t.pathfinder.clock).walk_proceed rules id
          t.pathfinder.traffic).exists_extends
      rw [proceed] at hextends hgrows
      refine ⟨urls, hextends, fun hserving => hgrows (hserving.imp_right ?_)⟩
      intro hnone
      cases result? with
      | none => rfl
      | some result => simp at hnone

theorem Turn.exists_grows_foldl_step (ids : List WalkerId) {t : Turn}
    (hserving : t.pathfinder.web.refusing = false) :
    ∃ urls, Traffic.Grows urls t.pathfinder.traffic
      (ids.foldl (Turn.step rules) t).pathfinder.traffic := by
  induction ids generalizing t with
  | nil => exact ⟨[], .refl _⟩
  | cons id ids ih =>
      obtain ⟨urls, -, hgrows⟩ := exists_extends_step rules t id
      obtain ⟨urls', hrest⟩ := @ih (t.step rules id) (by
        rw [(stepped_step rules t id).moves.web.refusing_eq]
        exact hserving)
      exact ⟨urls ++ urls', (hgrows (Or.inl hserving)).trans hrest⟩

theorem accounts_drainTimed (hserving : p.web.refusing = false) :
    p.Accounts (p.drainTimed rules) := by
  obtain ⟨urls, hgrows⟩ :=
    @Turn.exists_grows_foldl_step rules p.turnOrder { pathfinder := p } hserving
  refine .of_grows hgrows ?_ ?_
  · rw [drainTimed, web_foldl_expire, web_conclude]
  · intro url hmem
    exact mem_awaiting_of_foldl_finish (mem_awaiting_of_foldl_expire hmem)

theorem Turn.endings_step_of_idle {t : Turn} {w : Walker} (huntimed : rules.timeout = none)
    (hw : t.pathfinder.walkers[id]? = some w) (hinbox : w.inbox = []) :
    (t.step rules id).endings = t.endings := by
  have hstepped := stepped_step rules t id
  generalize t.step rules id = u at *
  cases hstepped with
  | idle stage => rfl
  | late walker stage untimely => simp [huntimed] at untimely
  | @moved w' after traffic result? walker stage timely proceed =>
      obtain rfl := Option.some.inj (hw.symm.trans walker)
      have hidle : (w.started rules t.pathfinder.clock).inbox = [] := by
        unfold Walker.started
        split <;> exact hinbox
      rw [Walker.proceed] at proceed
      split at proceed
      · cases proceed
        simp
      · rename_i hread
        rw [hidle] at hread
        contradiction

theorem Kept.grows_step_conclude {todo : List WalkerId}
    (h : Kept rules heard False [] (id :: todo) p) (huntimed : rules.timeout = none) :
    ∃ urls, Traffic.Grows urls p.traffic
      (Turn.step rules { pathfinder := p } id).conclude.traffic := by
  obtain ⟨urls, hextends, hgrows⟩ := Turn.exists_extends_step rules { pathfinder := p } id
  obtain ⟨result?, hendings⟩ := (Turn.stepped_step rules { pathfinder := p } id).endings_eq
  have hstep := h.begin.step List.not_mem_nil
  have hmoves := (Turn.stepped_step rules { pathfinder := p } id).moves
  cases result? with
  | none =>
      have hsame : (Turn.step rules { pathfinder := p } id).endings = [] := by simpa using hendings
      refine ⟨urls, ?_⟩
      rw [Turn.conclude, hsame]
      exact hgrows (Or.inr hsame)
  | some result =>
      have hended : (Turn.step rules { pathfinder := p } id).endings = [⟨id, result⟩] := by
        simpa using hendings
      have hkept := hstep.conclude
      have hconclude : (Turn.step rules { pathfinder := p } id).conclude =
          (Turn.step rules { pathfinder := p } id).pathfinder.finish id result := by
        rw [Turn.conclude, hended]
        rfl
      rw [hconclude] at hkept ⊢
      have hplaces := (hmoves.trans (moves_finish _ id result)).places_eq
      have hunlisted := hkept.not_mem_waiters (hstep.kept.not_isRegistered_finish id result)
      -- Who ends had a response to take up, and so was listed nowhere before; if the step has opened
      -- a list in vain, its only entry is withdrawn now.
      have hbusy : ∀ url, id ∉ p.traffic.waiters url := by
        intro url hmem
        by_cases hregistered : p.IsRegistered id
        · obtain ⟨origin, horigin⟩ := hregistered
          obtain ⟨w, hw, -, hunderway⟩ := h.underway List.not_mem_nil horigin
          have hplace := Traffic.mem_waiters_iff.1 hmem
          rcases hunderway.place with ⟨response, -, -, -, hplaces⟩ | ⟨hinbox, -⟩
          · rw [hplaces] at hplace
            contradiction
          · have hidle := Turn.endings_step_of_idle (t := { pathfinder := p }) huntimed hw hinbox
            rw [hended] at hidle
            contradiction
        · exact h.not_mem_waiters hregistered url hmem
      have hwaiters : ∀ other url, other ≠ id →
          (other ∈ ((Turn.step rules { pathfinder := p } id).pathfinder.finish id
            result).traffic.waiters url ↔ other ∈ p.traffic.waiters url) := by
        intro other url hne
        rw [Traffic.mem_waiters_iff, Traffic.mem_waiters_iff, hplaces other hne]
      refine ⟨urls, ⟨?_, ?_, hextends.unlisted⟩, ?_⟩
      · intro url hmem
        obtain ⟨other, hother⟩ := h.crowded.mem_awaiting_iff.1 hmem
        have hne : other ≠ id := fun heq => hbusy url (heq ▸ hother)
        exact hkept.crowded.mem_awaiting_iff.2 ⟨other, (hwaiters other url hne).2 hother⟩
      · exact (web_finish result).trans hextends.asks
      · intro url hmem hnew
        obtain ⟨other, hother⟩ := hkept.crowded.mem_awaiting_iff.1 hmem
        have hne : other ≠ id := fun heq => hunlisted url (heq ▸ hother)
        exact absurd (h.crowded.mem_awaiting_iff.2 ⟨other, (hwaiters other url hne).1 hother⟩) hnew

theorem Kept.grows_foldl_step_conclude {ids : List WalkerId}
    (h : Kept rules heard False [] ids p) (huntimed : rules.timeout = none) :
    ∃ urls, Traffic.Grows urls p.traffic
      (ids.foldl (fun p id => (Turn.step rules { pathfinder := p } id).conclude) p).traffic := by
  induction ids generalizing p with
  | nil => exact ⟨[], .refl _⟩
  | cons id ids ih =>
      obtain ⟨urls, hfirst⟩ := h.grows_step_conclude huntimed
      obtain ⟨urls', hrest⟩ := ih (h.begin.step List.not_mem_nil).conclude
      exact ⟨urls ++ urls', hfirst.trans hrest⟩

theorem Resting.accounts_drain (h : Resting rules heard False p)
    (hserving : rules.timeout.isSome = true → p.web.refusing = false) :
    p.Accounts (p.drain rules) := by
  unfold Pathfinder.drain
  dsimp only
  split
  · rename_i htimed
    exact accounts_drainTimed (hserving htimed)
  · rename_i huntimed
    obtain ⟨urls, hgrows⟩ := h.kept.grows_foldl_step_conclude (by simpa using huntimed)
    exact .of_grows hgrows rfl fun _ hmem => hmem

theorem Kept.accounts_start (h : Kept rules heard False [] p.queue p) {url : String}
    (habsent : url ∉ p.registered) : p.Accounts (p.start url).2 := by
  have asked := p.traffic.asked_ask p.walkers.length { trail := { origin := url } } url
  cases hfailure : (p.requested url).2 with
  | none =>
      obtain ⟨urls, -, hgrows⟩ := asked.exists_extends
      rw [requested_eq] at hfailure
      rw [start_of_granted (by rw [requested_eq]; exact hfailure), requested_eq]
      exact .of_grows (hgrows hfailure) rfl fun _ hmem => hmem
  | some failure =>
      have hkept := h.start habsent
      have hmoves := (moves_requested habsent).trans (moves_forget _ p.walkers.length)
      rw [start_of_refused hfailure] at hkept ⊢
      have hlast := (hkept.fits p.walkers.length).of_none
        (List.getElem?_eq_none (List.length_take_le _ _))
      refine .of_subset ?_ ?_
      · have hweb := web_forget (p.requested url).1 p.walkers.length
        rw [requested_eq] at hfailure hweb ⊢
        refine (congrArg Web.fetched hweb).trans ?_
        generalize p.traffic.ask p.walkers.length { trail := { origin := url } } url = result at *
        cases asked with
        | refused absent refusing => rfl
        | joined => contradiction
        | issued => contradiction
        | answered => contradiction
      · intro other hmem
        obtain ⟨id, hid⟩ := hkept.crowded.mem_awaiting_iff.1 hmem
        have hplace := Traffic.mem_waiters_iff.1 hid
        have hne : id ≠ p.walkers.length := by
          intro heq
          rw [heq, hlast.2] at hplace
          contradiction
        rw [hmoves.places_eq id hne] at hplace
        exact h.crowded.mem_awaiting_iff.2 ⟨id, Traffic.mem_waiters_iff.2 hplace⟩

theorem Kept.accounts_resolve (h : Kept rules heard False [] p.queue p) (url : String) :
    p.Accounts (p.resolve url).2 := by
  unfold Pathfinder.resolve
  split
  · cases hwaiting : p.waiting.get? url with
    | none =>
        apply h.accounts_start
        rw [h.matched]
        exact Table.get?_eq_none_iff.1 hwaiting
    | some tickets => exact .of_subset rfl fun _ hmem => hmem
  · exact .of_subset rfl fun _ hmem => hmem

theorem mem_awaiting_of_deliver {response : Response} {url : String}
    (h : url ∈ (p.deliver response).traffic.awaiting) : url ∈ p.traffic.awaiting := by
  unfold Pathfinder.deliver at h
  split at h
  · split at h
    · exact h
    · rw [foldl_receive_eq] at h
      exact (Table.mem_erase_iff.1 h).1
  · exact h

theorem accounts_deliver (p : Pathfinder) (response : Response) :
    p.Accounts (p.deliver response) :=
  .of_subset (congrArg Web.fetched (web_deliver p response)) fun _ => mem_awaiting_of_deliver

theorem Resting.accounts_act (h : Resting rules heard False p) {action : Action}
    (hopen : action ≠ .close)
    (hserving : action = .drain → rules.timeout.isSome = true → p.web.refusing = false) :
    p.Accounts (p.act rules action).1 := by
  have hsame : ∀ q : Pathfinder, q.web.fetched = p.web.fetched →
      q.traffic.awaiting = p.traffic.awaiting → p.Accounts q := by
    intro q hfetched hawaiting
    exact .of_subset hfetched fun url hmem => hawaiting ▸ hmem
  cases action with
  | attach =>
      simp only [Pathfinder.act, Pathfinder.attach]
      split
      · exact hsame _ rfl rfl
      · exact hsame _ rfl rfl
  | close => contradiction
  | resolve url =>
      rw [act_resolve]
      exact h.kept.accounts_resolve url
  | deliver response => exact accounts_deliver p response
  | cancel ticket => exact hsame _ rfl rfl
  | refuseRequests refusing => exact hsame _ rfl rfl
  | answerAtOnce url response? => exact hsame _ rfl rfl
  | advance span => exact hsame _ rfl rfl
  | drain => exact h.accounts_drain (hserving rfl)

end Pathfinder

end LinkTrail
