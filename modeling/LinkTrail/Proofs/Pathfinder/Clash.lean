import LinkTrail.Proofs.Pathfinder.Race

/-!
Clashes. Main statement: a turn opens a list of those who wait without a request that is out exactly
if two walkers clash in it (`Resting.accounts_drain_iff`).
-/

namespace LinkTrail.Pathfinder

/-- In the next turn, which has deadlines and in which requests are refused, one walker ends at a URL
that it cannot ask for, and another, whose deadline does not come, joins it there before. -/
def Clashes (rules : Rules) (p : Pathfinder) : Prop :=
  rules.timeout.isSome = true ∧ p.web.refusing = true ∧
    ∃ url first second, [first, second].Sublist p.turnOrder ∧ url ∉ p.traffic.awaiting ∧
      p.HeadsFor rules url first ∧ p.HeadsFor rules url second ∧ ¬ p.RunsOut rules second

variable {rules : Rules} {heard : Response → Prop} {closed : Prop} {p : Pathfinder}
  {ended todo : List WalkerId} {id : WalkerId} {w : Walker}

theorem clock_finish (result : Except Failure String) : (p.finish id result).clock = p.clock := by
  rw [finish_eq]

theorem clock_foldl_finish (endings : List Ending) (p : Pathfinder) :
    (endings.foldl (fun p ending => p.finish ending.id ending.result) p).clock = p.clock := by
  induction endings generalizing p with
  | nil => rfl
  | cons first endings ih => exact (ih _).trans (clock_finish first.result)

theorem clock_expire : (p.expire rules id).clock = p.clock := by
  unfold expire
  split
  · split
    · exact clock_finish _
    · rfl
  · rfl

theorem spares_foldl_finish {endings : List Ending} (hid : id ∉ endings.map Ending.id) :
    Spares id p (endings.foldl (fun p ending => p.finish ending.id ending.result) p) := by
  induction endings generalizing p with
  | nil => exact .refl id p
  | cons first endings ih =>
      obtain ⟨hne, hrest⟩ := not_or.1 (fun h => hid (List.mem_cons.2 h))
      exact ((moves_finish p first.id first.result).spares hne).trans (ih hrest)

theorem expire_of_overdue {limit : Seconds} (htimed : rules.timeout = some limit)
    (hw : p.walkers[id]? = some w) (hoverdue : w.isOverdue rules p.clock = true) :
    p.expire rules id = p.finish id (.error (.timedOut w.trail.origin limit)) := by
  simp [expire, hw, htimed, hoverdue]

theorem expire_of_not_overdue (hw : p.walkers[id]? = some w)
    (hoverdue : ¬ w.isOverdue rules p.clock = true) : p.expire rules id = p := by
  unfold expire
  rw [hw]
  split
  · rename_i heq _
    obtain rfl := Option.some.inj heq
    exact if_neg hoverdue
  · rfl

theorem spares_foldl_expire (hw : p.walkers[id]? = some w) (hoverdue : ¬ w.isOverdue rules p.clock = true)
    (ids : List WalkerId) : Spares id p (ids.foldl (expire rules) p) := by
  induction ids generalizing p with
  | nil => exact .refl id p
  | cons first ids ih =>
      have hfirst : Spares id p (p.expire rules first) := by
        by_cases hne : id = first
        · rw [← hne, expire_of_not_overdue hw hoverdue]
          exact .refl id p
        · exact (moves_expire p first rules).spares hne
      exact hfirst.trans (ih (hfirst.walker_eq.trans hw) (by rwa [clock_expire]))

theorem isRegistered_of_foldl_expire {ids : List WalkerId}
    (h : (ids.foldl (expire rules) p).IsRegistered id) : p.IsRegistered id := by
  induction ids generalizing p with
  | nil => exact h
  | cons first ids ih =>
      obtain ⟨origin, horigin⟩ := ih h
      unfold expire at horigin
      split at horigin
      · split at horigin
        · exact ⟨origin, registered_of_finish horigin⟩
        · exact ⟨origin, horigin⟩
      · exact ⟨origin, horigin⟩

theorem Kept.not_isRegistered_foldl_expire (h : Kept rules heard closed ended todo p)
    {limit : Seconds} (htimed : rules.timeout = some limit) (hw : p.walkers[id]? = some w)
    (hoverdue : w.isOverdue rules p.clock = true) {ids : List WalkerId} (hmem : id ∈ ids) :
    ¬ (ids.foldl (Pathfinder.expire rules) p).IsRegistered id := by
  induction ids generalizing p with
  | nil => exact absurd hmem List.not_mem_nil
  | cons first ids ih =>
      by_cases hne : id = first
      · intro hregistered
        have hfirst : (p.expire rules first).IsRegistered id :=
          isRegistered_of_foldl_expire hregistered
        rw [← hne, expire_of_overdue htimed hw hoverdue] at hfirst
        exact h.not_isRegistered_finish id _ hfirst
      · have hspared := (moves_expire p first rules).spares hne
        exact ih (h.expire first) (hspared.walker_eq.trans hw) (by rwa [clock_expire])
          ((List.mem_cons.1 hmem).resolve_left hne)

/-- Of the registered walkers those remain at the end of a turn with deadlines who have not ended
and whose deadline has not come; nothing changes for them. -/
theorem Turn.Kept.remains_iff {t : Turn} (h : t.Kept rules heard closed todo) {limit : Seconds}
    (htimed : rules.timeout = some limit) (hw : t.pathfinder.walkers[id]? = some w)
    (hregistered : t.pathfinder.IsRegistered id) :
    let q := t.conclude.registered.values.foldl (Pathfinder.expire rules) t.conclude
    (q.IsRegistered id ↔ id ∉ t.endedIds ∧ ¬ w.isOverdue rules t.pathfinder.clock = true) ∧
      (q.IsRegistered id → Spares id t.pathfinder q) := by
  intro q
  have hclock : t.conclude.clock = t.pathfinder.clock := clock_foldl_finish _ _
  have hremains : id ∉ t.endedIds → ¬ w.isOverdue rules t.pathfinder.clock = true →
      Spares id t.pathfinder q := by
    intro hgoing hoverdue
    have hconcluded : Spares id t.pathfinder t.conclude := spares_foldl_finish hgoing
    exact hconcluded.trans
      (spares_foldl_expire (hconcluded.walker_eq.trans hw) (by rwa [hclock]) _)
  -- Whoever ends or runs out of time is given up, and nobody is registered again in a turn.
  have hgoes : q.IsRegistered id →
      id ∉ t.endedIds ∧ ¬ w.isOverdue rules t.pathfinder.clock = true := by
    intro hq
    have hconcluded := isRegistered_of_foldl_expire hq
    have hgoing : id ∉ t.endedIds := by
      intro hmem
      obtain ⟨ending, hending, rfl⟩ := List.mem_map.1 hmem
      exact (h.kept.foldl_finish t.endings).2.1 ending hending hconcluded
    refine ⟨hgoing, ?_⟩
    intro hoverdue
    have hspared : Spares id t.pathfinder t.conclude := spares_foldl_finish hgoing
    refine h.conclude.not_isRegistered_foldl_expire htimed (hspared.walker_eq.trans hw)
      (by rwa [hclock]) ?_ hq
    exact Table.mem_values_iff.2 hconcluded
  refine ⟨⟨hgoes, ?_⟩, ?_⟩
  · intro ⟨hgoing, hoverdue⟩
    exact (hremains hgoing hoverdue).registered_iff.2 hregistered
  · intro hq
    exact hremains (hgoes hq).1 (hgoes hq).2

/-- Who is listed at the end of such a turn for a URL for which nobody waited has joined another. -/
theorem Resting.listed_iff (h : Resting rules heard False p) {limit : Seconds}
    (htimed : rules.timeout = some limit) (hrefusing : p.web.refusing = true) {url : String}
    (hurl : url ∉ p.traffic.awaiting) :
    id ∈ (p.drainTimed rules).traffic.waiters url ↔
      ∃ first, [first, id].Sublist p.turnOrder ∧ p.HeadsFor rules url first ∧
        p.HeadsFor rules url id ∧ ¬ p.RunsOut rules id := by
  have hraced := h.kept.raced h.paced.nodup hrefusing (List.append_nil _).symm
  obtain ⟨hkept, -⟩ := h.kept.moved h.paced.nodup (List.append_nil _).symm
  have hdrained := h.kept.drainTimed h.paced.nodup
  have hregistered : ∀ {r : Pathfinder} {ended todo : List WalkerId},
      Kept rules heard False ended todo r → id ∈ r.traffic.waiters url → r.IsRegistered id := by
    intro r ended todo hr hmem
    by_contra hnot
    exact hr.not_mem_waiters hnot url hmem
  constructor
  · intro hmem
    have hafter := hregistered hdrained hmem
    have hbefore := (hkept.kept.foldl_finish _).2.2 id (isRegistered_of_foldl_expire hafter)
    obtain ⟨origin, horigin⟩ := hbefore
    obtain ⟨w, hw, -⟩ := hkept.kept.exists_of_registered horigin
    obtain ⟨hremains, hspared⟩ := hkept.remains_iff htimed hw ⟨origin, horigin⟩
    obtain ⟨hgoing, hoverdue⟩ := hremains.1 hafter
    have hlisted := ((hspared hafter).mem_waiters_iff url).1 hmem
    have hmoved : id ∈ p.turnOrder := by
      by_contra hnot
      rw [Traffic.mem_waiters_iff, (hraced.same id hnot).2, ← Traffic.mem_waiters_iff] at hlisted
      exact hurl (h.kept.crowded.mem_awaiting_iff.2 ⟨id, hlisted⟩)
    have hheads := (hraced.waits id hmoved url hurl).1 hlisted
    have hnotFirst := mt (hraced.ended id hmoved url hurl hheads).2 hgoing
    push Not at hnotFirst
    obtain ⟨first, hsublist, hfirst⟩ := hnotFirst
    refine ⟨first, hsublist, hfirst, hheads, ?_⟩
    rw [← hraced.overdue id hmoved hgoing w hw, ← hraced.clock]
    exact hoverdue
  · intro ⟨first, hsublist, hfirst, hheads, htimely⟩
    have hmoved : id ∈ p.turnOrder := hsublist.subset (by simp)
    have hlisted := (hraced.waits id hmoved url hurl).2 hheads
    have hgoing := mt (hraced.ended id hmoved url hurl hheads).1 fun hnone =>
      hnone first hsublist hfirst
    obtain ⟨origin, horigin⟩ := hregistered hkept.kept hlisted
    obtain ⟨w, hw, -⟩ := hkept.kept.exists_of_registered horigin
    obtain ⟨hremains, hspared⟩ := hkept.remains_iff htimed hw ⟨origin, horigin⟩
    rw [← hraced.overdue id hmoved hgoing w hw, ← hraced.clock] at htimely
    exact ((hspared (hremains.2 ⟨hgoing, htimely⟩)).mem_waiters_iff url).2 hlisted

theorem Resting.fetched_drainTimed (h : Resting rules heard False p)
    (hrefusing : p.web.refusing = true) : (p.drainTimed rules).web.fetched = p.web.fetched := by
  have hraced := h.kept.raced h.paced.nodup hrefusing (List.append_nil _).symm
  rw [drainTimed, web_foldl_expire, web_conclude, hraced.web]

theorem drain_of_timed {limit : Seconds} (htimed : rules.timeout = some limit) :
    p.drain rules = { p.drainTimed rules with queue := [] } := by
  simp [drain, htimed]

theorem Resting.exists_listed_of_clashes (h : Resting rules heard False p)
    (hclashes : p.Clashes rules) :
    (p.drain rules).web.fetched = p.web.fetched ∧
      ∃ url id, url ∉ p.traffic.awaiting ∧ (p.drain rules).IsRegistered id ∧
        id ∈ (p.drain rules).traffic.waiters url := by
  obtain ⟨htimed, hrefusing, url, first, second, hsublist, hurl, hfirst, hsecond, htimely⟩ :=
    hclashes
  obtain ⟨limit, htimed⟩ := Option.isSome_iff_exists.1 htimed
  have hlisted := (h.listed_iff htimed hrefusing hurl).2
    ⟨first, hsublist, hfirst, hsecond, htimely⟩
  rw [drain_of_timed htimed]
  refine ⟨h.fetched_drainTimed hrefusing, url, second, hurl, ?_, hlisted⟩
  by_contra hnot
  exact (h.kept.drainTimed h.paced.nodup).not_mem_waiters hnot url hlisted

theorem Resting.accounts_drain_iff (h : Resting rules heard False p) :
    p.Accounts (p.drain rules) ↔ ¬ p.Clashes rules := by
  constructor
  · intro ⟨urls, hurls, haccounts⟩ hclashes
    obtain ⟨hfetched, url, id, hurl, -, hlisted⟩ := h.exists_listed_of_clashes hclashes
    have hnone : urls = [] := by simpa [hfetched] using hurls
    have hdrained : Resting rules heard False (p.drain rules) :=
      @Resting.act rules heard False p h .drain trivial
    rcases haccounts url
        (hdrained.kept.crowded.mem_awaiting_iff.2 ⟨id, hlisted⟩) with ⟨hold, -⟩ | ⟨-, hmem, -⟩
    · exact hurl hold
    · simp [hnone] at hmem
  · intro hclashes
    by_cases hserving : rules.timeout.isSome = true → p.web.refusing = false
    · exact h.accounts_drain hserving
    · push Not at hserving
      obtain ⟨htimed, hrefusing⟩ := hserving
      have hrefusing : p.web.refusing = true := by simpa using hrefusing
      obtain ⟨limit, hlimit⟩ := Option.isSome_iff_exists.1 htimed
      rw [drain_of_timed hlimit]
      refine .of_subset (h.fetched_drainTimed hrefusing) ?_
      intro url hmem
      by_contra hurl
      have hcrowded := (h.kept.drainTimed h.paced.nodup).crowded
      obtain ⟨second, hsecond⟩ := hcrowded.mem_awaiting_iff.1 hmem
      obtain ⟨first, hsublist, hfirst, hheads, htimely⟩ :=
        (h.listed_iff hlimit hrefusing hurl).1 hsecond
      exact hclashes ⟨htimed, hrefusing, url, first, second, hsublist, hurl, hfirst, hheads,
        htimely⟩

end LinkTrail.Pathfinder
