import LinkTrail.Proofs.Pathfinder.Requests

/-!
Turns with deadlines in which requests are refused. Main statement: of the walkers that head for a
URL for which nobody waits, the first ends its walk and the others join it (`Kept.raced`).
-/

namespace LinkTrail

namespace Walker.Walk

variable {rules : Rules} {id : WalkerId} {t : Traffic} {w : Walker}
  {result : Traffic × Walker × Option (Except Failure String)}

/-- While requests are refused, a redirected walker can only join those who wait already. -/
theorem redirected_of_refusing (h : Walk rules id t w result) (hrefusing : t.web.refusing = true)
    {response : Response} {next : String} (read : w.inbox = [response])
    (verdict : rules.verdict w.trail response = .redirect next) :
    result.1.web = t.web ∧ (result.2.2 = none ↔ next ∈ t.awaiting) ∧
      ∀ url, result.1.places id url = t.places id url + if url = next then 1 else 0 := by
  cases h with
  | idle empty => simp [empty] at read
  | failed read' verdict' =>
      obtain ⟨rfl, rfl⟩ := List.cons.inj (read.symm.trans read')
      simp [verdict] at verdict'
  | arrived read' verdict' =>
      obtain ⟨rfl, rfl⟩ := List.cons.inj (read.symm.trans read')
      simp [verdict] at verdict'
  | refused read' verdict' asked =>
      obtain ⟨rfl, rfl⟩ := List.cons.inj (read.symm.trans read')
      obtain rfl := Verdict.redirect.inj (verdict.symm.trans verdict')
      have hplaces := asked.places_self
      cases asked with
      | refused absent refusing =>
          refine ⟨rfl, ?_, (hplaces.resolve_left (by simp)).2⟩
          simpa using Table.get?_eq_none_iff.1 absent
  | onward read' verdict' asked rest =>
      obtain ⟨rfl, rfl⟩ := List.cons.inj (read.symm.trans read')
      obtain rfl := Verdict.redirect.inj (verdict.symm.trans verdict')
      have hplaces := asked.places_self
      cases asked with
      | joined found =>
          cases rest with
          | idle empty =>
              refine ⟨rfl, ?_, (hplaces.resolve_left (by simp)).2⟩
              simpa using Table.mem_of_get? found
          | failed read'' => contradiction
          | arrived read'' => contradiction
          | refused read'' => contradiction
          | onward read'' => contradiction
      | issued absent serving => simp [hrefusing] at serving
      | answered absent serving => simp [hrefusing] at serving

end Walker.Walk

namespace Pathfinder

/-- In the next turn the walker takes up a response that redirects it to `url`. -/
def HeadsFor (rules : Rules) (p : Pathfinder) (url : String) (id : WalkerId) : Prop :=
  ∃ w response inbox, p.walkers[id]? = some w ∧ w.stage ≠ .gone ∧
    (w.stage = .fresh → rules.timeout.filter (· ≤ 0) = none) ∧
    w.inbox = response :: inbox ∧ rules.verdict w.trail response = .redirect url

def RunsOut (rules : Rules) (p : Pathfinder) (id : WalkerId) : Prop :=
  ∃ w, p.walkers[id]? = some w ∧ (w.started rules p.clock).isOverdue rules p.clock = true

/-- The state of a turn in which requests are refused, when those in `moved` have moved. Of those
who head for a URL for which nobody waited, all are listed there, and the first has ended. -/
structure Raced (rules : Rules) (p : Pathfinder) (moved : List WalkerId) (t : Turn) : Prop where
  web : t.pathfinder.web = p.web
  clock : t.pathfinder.clock = p.clock
  same : ∀ id, id ∉ moved → t.pathfinder.walkers[id]? = p.walkers[id]? ∧
    t.pathfinder.traffic.places id = p.traffic.places id
  waits : ∀ id ∈ moved, ∀ url, url ∉ p.traffic.awaiting →
    (id ∈ t.pathfinder.traffic.waiters url ↔ p.HeadsFor rules url id)
  ended : ∀ id ∈ moved, ∀ url, url ∉ p.traffic.awaiting → p.HeadsFor rules url id →
    (id ∈ t.endedIds ↔ ∀ other, [other, id].Sublist moved → ¬ p.HeadsFor rules url other)
  overdue : ∀ id ∈ moved, id ∉ t.endedIds → ∀ w, t.pathfinder.walkers[id]? = some w →
    (w.isOverdue rules p.clock = true ↔ p.RunsOut rules id)

variable {rules : Rules} {heard : Response → Prop} {p : Pathfinder} {t : Turn}
  {moved rest : List WalkerId} {id : WalkerId}

theorem pair_sublist_concat_iff {ids : List WalkerId} {first second last : WalkerId} :
    [first, second].Sublist (ids ++ [last]) ↔
      [first, second].Sublist ids ∨ first ∈ ids ∧ second = last := by
  have hreverse : ∀ others : List WalkerId, [first, second].Sublist others ↔
      [second, first].Sublist others.reverse := fun others => List.reverse_sublist.symm
  rw [hreverse, hreverse ids, List.reverse_append, List.reverse_singleton,
    List.singleton_append, List.sublist_cons_iff]
  constructor
  · intro h
    rcases h with hboth | ⟨others, heq, hfirst⟩
    · exact Or.inl hboth
    · cases heq
      exact Or.inr ⟨List.mem_reverse.1 (List.singleton_sublist.1 hfirst), rfl⟩
  · intro h
    rcases h with hboth | ⟨hfirst, heq⟩
    · exact Or.inl hboth
    · rw [heq]
      exact Or.inr ⟨[first], rfl, List.singleton_sublist.2 (List.mem_reverse.2 hfirst)⟩

theorem Raced.mem_awaiting_iff (h : Raced rules p moved t) (hcrowded : p.traffic.Crowded)
    (hcrowded' : t.pathfinder.traffic.Crowded) {url : String} (hurl : url ∉ p.traffic.awaiting) :
    url ∈ t.pathfinder.traffic.awaiting ↔ ∃ other ∈ moved, p.HeadsFor rules url other := by
  rw [hcrowded'.mem_awaiting_iff]
  constructor
  · intro ⟨other, hother⟩
    by_cases hmoved : other ∈ moved
    · exact ⟨other, hmoved, (h.waits other hmoved url hurl).1 hother⟩
    · rw [Traffic.mem_waiters_iff, (h.same other hmoved).2, ← Traffic.mem_waiters_iff] at hother
      exact absurd (hcrowded.mem_awaiting_iff.2 ⟨other, hother⟩) hurl
  · intro ⟨other, hmoved, hheads⟩
    exact ⟨other, (h.waits other hmoved url hurl).2 hheads⟩

theorem Raced.concat (h : Raced rules p moved t) {u : Turn}
    (hstepped : Turn.Stepped rules t id u) (hnew : id ∉ moved)
    (hweb : u.pathfinder.web = t.pathfinder.web)
    (hwaits : ∀ url, url ∉ p.traffic.awaiting →
      (id ∈ u.pathfinder.traffic.waiters url ↔ p.HeadsFor rules url id))
    (hended : ∀ url, url ∉ p.traffic.awaiting → p.HeadsFor rules url id →
      (id ∈ u.endedIds ↔ ∀ other ∈ moved, ¬ p.HeadsFor rules url other))
    (hoverdue : id ∉ u.endedIds → ∀ w, u.pathfinder.walkers[id]? = some w →
      (w.isOverdue rules p.clock = true ↔ p.RunsOut rules id)) :
    Raced rules p (moved ++ [id]) u := by
  have hmoves := hstepped.moves
  have hothers : ∀ other ∈ moved ++ [id], other ≠ id → other ∈ moved := fun other hmem hne =>
    (List.mem_append.1 hmem).resolve_right fun hlast => hne (List.mem_singleton.1 hlast)
  have hendedIds : ∀ other, other ≠ id → (other ∈ u.endedIds ↔ other ∈ t.endedIds) := by
    intro other hne
    obtain ⟨result?, hendings⟩ := hstepped.endings_eq
    cases result? <;> simp [Turn.endedIds, hendings, hne]
  refine ⟨hweb.trans h.web, ?_, ?_, ?_, ?_, ?_⟩
  · rw [hstepped.pathfinder_eq]
    exact h.clock
  · intro other hmem
    have hne : other ≠ id := fun heq => hmem (by simp [heq])
    have hold : other ∉ moved := fun hmoved => hmem (List.mem_append_left [id] hmoved)
    rw [hmoves.walker_eq other hne, hmoves.places_eq other hne]
    exact h.same other hold
  · intro other hmem url hurl
    by_cases hne : other = id
    · rw [hne]
      exact hwaits url hurl
    · rw [Traffic.mem_waiters_iff, hmoves.places_eq other hne, ← Traffic.mem_waiters_iff]
      exact h.waits other (hothers other hmem hne) url hurl
  · intro other hmem url hurl hheads
    by_cases hne : other = id
    · rw [hne] at hheads ⊢
      rw [hended url hurl hheads]
      constructor
      · intro hfirst before hbefore
        rcases pair_sublist_concat_iff.1 hbefore with hbefore | ⟨hbefore, -⟩
        · exact absurd (hbefore.subset (by simp)) hnew
        · exact hfirst before hbefore
      · intro hfirst before hbefore
        exact hfirst before (pair_sublist_concat_iff.2 (Or.inr ⟨hbefore, rfl⟩))
    · rw [hendedIds other hne, h.ended other (hothers other hmem hne) url hurl hheads]
      simp only [pair_sublist_concat_iff, hne, and_false, or_false]
  · intro other hmem hgoing w hw
    by_cases hne : other = id
    · rw [hne] at hgoing hw ⊢
      exact hoverdue hgoing w hw
    · rw [hendedIds other hne] at hgoing
      rw [hmoves.walker_eq other hne] at hw
      exact h.overdue other (hothers other hmem hne) hgoing w hw

theorem HeadsFor.exists_read {url : String} {w : Walker} (h : p.HeadsFor rules url id)
    (hw : p.walkers[id]? = some w) :
    w.stage ≠ .gone ∧ (w.stage = .fresh → rules.timeout.filter (· ≤ 0) = none) ∧
      ∃ response inbox, w.inbox = response :: inbox ∧
        rules.verdict w.trail response = .redirect url := by
  obtain ⟨w', response, inbox, hw', hgone, htimely, read, verdict⟩ := h
  obtain rfl := Option.some.inj (hw.symm.trans hw')
  exact ⟨hgone, htimely, response, inbox, read, verdict⟩

theorem runsOut_iff {w : Walker} (hw : p.walkers[id]? = some w) :
    p.RunsOut rules id ↔ (w.started rules p.clock).isOverdue rules p.clock = true := by
  constructor
  · intro ⟨w', hw', hoverdue⟩
    obtain rfl := Option.some.inj (hw.symm.trans hw')
    exact hoverdue
  · exact fun hoverdue => ⟨w, hw, hoverdue⟩

theorem isOverdue_of_stage {w w' : Walker} (h : w.stage = w'.stage) (clock : Seconds) :
    w.isOverdue rules clock = w'.isOverdue rules clock := by
  unfold Walker.isOverdue
  rw [h]

theorem HeadsFor.unique {url next : String} (h : p.HeadsFor rules url id)
    (h' : p.HeadsFor rules next id) : url = next := by
  obtain ⟨w, response, inbox, hw, -, -, read, verdict⟩ := h
  obtain ⟨-, -, response', inbox', read', verdict'⟩ := h'.exists_read hw
  rw [read] at read'
  obtain ⟨rfl, -⟩ := List.cons.inj read'
  exact Verdict.redirect.inj (verdict.symm.trans verdict')

theorem Raced.concat_of_still (h : Raced rules p moved t) (hcrowded : p.traffic.Crowded) {u : Turn}
    (hstepped : Turn.Stepped rules t id u) (hnew : id ∉ moved)
    (htraffic : u.pathfinder.traffic = t.pathfinder.traffic)
    (hheads : ∀ url, ¬ p.HeadsFor rules url id)
    (hoverdue : id ∉ u.endedIds → ∀ w, u.pathfinder.walkers[id]? = some w →
      (w.isOverdue rules p.clock = true ↔ p.RunsOut rules id)) :
    Raced rules p (moved ++ [id]) u := by
  refine h.concat hstepped hnew (congrArg Traffic.web htraffic) ?_ ?_ hoverdue
  · intro url hurl
    refine iff_of_false ?_ (hheads url)
    rw [htraffic, Traffic.mem_waiters_iff, (h.same id hnew).2, ← Traffic.mem_waiters_iff]
    exact fun hmem => hurl (hcrowded.mem_awaiting_iff.2 ⟨id, hmem⟩)
  · exact fun url _ hurl => absurd hurl (hheads url)

theorem Raced.concat_of_redirected (h : Raced rules p moved t) (hcrowded : p.traffic.Crowded)
    (hcrowded' : t.pathfinder.traffic.Crowded) {u : Turn}
    (hstepped : Turn.Stepped rules t id u) (hnew : id ∉ moved)
    (hweb : u.pathfinder.web = t.pathfinder.web) {next : String}
    (hnext : p.HeadsFor rules next id)
    (hplaces : ∀ url, u.pathfinder.traffic.places id url = if url = next then 1 else 0)
    (hjoins : id ∈ u.endedIds ↔ next ∉ t.pathfinder.traffic.awaiting)
    (hoverdue : id ∉ u.endedIds → ∀ w, u.pathfinder.walkers[id]? = some w →
      (w.isOverdue rules p.clock = true ↔ p.RunsOut rules id)) :
    Raced rules p (moved ++ [id]) u := by
  refine h.concat hstepped hnew hweb ?_ ?_ hoverdue
  · intro url hurl
    rw [Traffic.mem_waiters_iff, hplaces]
    constructor
    · intro hplace
      split at hplace
      · rename_i heq
        rw [heq]
        exact hnext
      · contradiction
    · intro hheads
      rw [if_pos (hheads.unique hnext)]
      exact Nat.one_pos
  · intro url hurl hheads
    obtain rfl := hheads.unique hnext
    rw [hjoins, h.mem_awaiting_iff hcrowded hcrowded' hurl]
    push Not
    rfl

theorem Raced.step (h : Raced rules p moved t) (hp : p.Kept rules heard False [] p.queue)
    (hkept : t.Kept rules heard False (id :: rest)) (hrefusing : p.web.refusing = true)
    (hid : id ∉ t.endedIds) (hnew : id ∉ moved) :
    Raced rules p (moved ++ [id]) (t.step rules id) := by
  obtain ⟨hwalker, -⟩ := h.same id hnew
  have hstepped := Turn.stepped_step rules t id
  generalize t.step rules id = u at *
  cases hstepped with
  | idle stage =>
      refine h.concat_of_still hp.crowded (.idle stage) hnew rfl ?_ ?_
      · intro url ⟨w, _, _, hw, hgone, _⟩
        exact hgone (stage w (hwalker.trans hw))
      · intro _ w hw
        have hgone := stage w hw
        rw [runsOut_iff (hwalker ▸ hw)]
        simp [Walker.isOverdue, Walker.started, hgone]
  | @late w limit walker stage untimely =>
      refine h.concat_of_still hp.crowded (.late walker stage untimely) hnew rfl ?_ ?_
      · intro url hheads
        have htimely := (hheads.exists_read (hwalker ▸ walker)).2.1 stage
        rw [untimely] at htimely
        contradiction
      · intro hgoing
        simp [Turn.endedIds, Turn.ended] at hgoing
  | @moved w after traffic result? walker stage timely proceed =>
      have hmoved := Turn.Stepped.moved walker stage timely proceed
      have walk := (w.started rules t.pathfinder.clock).walk_proceed rules id t.pathfinder.traffic
      rw [proceed] at walk
      obtain ⟨hlt, -⟩ := List.getElem?_eq_some_iff.1 walker
      obtain ⟨hstage, -, hunderway⟩ :=
        ((hkept.kept.fits id).of_not_gone hid walker stage).resolve_left fun hleaving =>
          hleaving.2.1
      obtain ⟨⟨deadline, hwalking⟩, htrail, hstarted⟩ :=
        @Turn.started_of_underway rules heard w _ t.pathfinder.clock hstage hunderway
      have hread : (w.started rules t.pathfinder.clock).inbox = w.inbox := by
        unfold Walker.started
        split <;> rfl
      have hafter : after.stage = .walking deadline := walk.stage_eq.trans hwalking
      have hsettled : after.settled = after := if_neg (by simp [hafter])
      have hoverdue : ∀ w', (t.pathfinder.walkers.set id after.settled)[id]? = some w' →
          (w'.isOverdue rules p.clock = true ↔ p.RunsOut rules id) := by
        intro w' hw'
        rw [List.getElem?_set_self hlt] at hw'
        rw [runsOut_iff (hwalker ▸ walker), ← Option.some.inj hw', hsettled, ← h.clock,
          isOverdue_of_stage (hafter.trans hwalking.symm)]
      -- While requests are refused, a walker changes the lists only where it is redirected, and is
      -- listed there whether it joins others or ends.
      by_cases hheads : ∃ next, p.HeadsFor rules next id
      · obtain ⟨next, hnext⟩ := hheads
        obtain ⟨-, -, response, inbox, read, verdict⟩ := hnext.exists_read (hwalker ▸ walker)
        rw [← hread] at read
        obtain ⟨rfl, -, -, hnowhere⟩ := hstarted.of_read read
        obtain ⟨hweb, hjoins, hplaces⟩ := walk.redirected_of_refusing
          ((congrArg Web.refusing h.web).trans hrefusing) read (htrail ▸ verdict)
        refine h.concat_of_redirected hp.crowded hkept.kept.crowded hmoved hnew hweb hnext ?_ ?_
          fun _ => hoverdue
        · intro url
          rw [hplaces url, hnowhere url, Nat.zero_add]
        · have hended : id ∈ (t.endings ++ (result?.map (Ending.mk id)).toList).map Ending.id ↔
              ¬ result? = none := by
            rw [List.map_append, List.mem_append]
            cases result? with
            | none => simpa [Turn.endedIds] using hid
            | some result => simp
          exact hended.trans (not_congr hjoins)
      · have hnowhere : ∀ url, ¬ p.HeadsFor rules url id := fun url hurl => hheads ⟨url, hurl⟩
        have htraffic : traffic = t.pathfinder.traffic := by
          apply walk.traffic_eq
          intro response inbox next read verdict
          exact hheads ⟨next, w, response, inbox, hwalker ▸ walker, stage, timely,
            hread ▸ read, htrail ▸ verdict⟩
        exact h.concat_of_still hp.crowded hmoved hnew htraffic hnowhere fun _ => hoverdue

/-- Whoever has moved so far, the race among them is decided. -/
theorem Kept.raced (h : p.Kept rules heard False [] p.queue) (hnodup : p.queue.Nodup)
    (hrefusing : p.web.refusing = true) (horder : p.turnOrder = moved ++ rest) :
    Raced rules p moved (moved.foldl (Turn.step rules) { pathfinder := p }) := by
  induction moved using List.reverseRecOn generalizing rest with
  | nil =>
      refine ⟨rfl, rfl, fun _ _ => ⟨rfl, rfl⟩, ?_, ?_, ?_⟩
      · exact fun id hmem => absurd hmem List.not_mem_nil
      · exact fun id hmem => absurd hmem List.not_mem_nil
      · exact fun id hmem => absurd hmem List.not_mem_nil
  | append_singleton moved id ih =>
      rw [List.append_assoc, List.singleton_append] at horder
      obtain ⟨hkept, hgoing⟩ := h.moved hnodup horder
      have horders := nodup_turnOrder hnodup
      rw [horder] at horders
      have hnew : id ∉ moved := fun hmem =>
        (List.nodup_append.1 horders).2.2 id hmem id List.mem_cons_self rfl
      rw [List.foldl_append]
      exact (ih horder).step h hkept hrefusing (hgoing id List.mem_cons_self) hnew

end Pathfinder

end LinkTrail
