import LinkTrail.Proofs.Pathfinder.Requests

/-!
What walkers do that nobody wants any longer. Main statement: when nobody is registered, a walker
that is redirected in a turn asks for a URL or is left waiting (`disturbs_drain`).
-/

namespace LinkTrail

namespace Traffic

def Disturbs (t t' : Traffic) : Prop :=
  ∃ urls, Extends urls t t' ∧ (urls ≠ [] ∨ ∃ url, url ∈ t'.awaiting)

variable {t t' t'' : Traffic} {id : WalkerId} {w : Walker} {url : String} {urls : List String}

theorem Disturbs.of_extends (h : Extends urls t t') (h' : Disturbs t' t'') : Disturbs t t'' := by
  obtain ⟨urls', hextends, hmore⟩ := h'
  refine ⟨urls ++ urls', h.trans hextends, ?_⟩
  rcases hmore with hasked | hwaits
  · exact Or.inl fun hnil => hasked (List.append_eq_nil_iff.1 hnil).2
  · exact Or.inr hwaits

theorem Disturbs.extends (h : Disturbs t t') (h' : Extends urls t' t'') : Disturbs t t'' := by
  obtain ⟨urls', hextends, hmore⟩ := h
  refine ⟨urls' ++ urls, hextends.trans h', ?_⟩
  rcases hmore with hasked | ⟨url, hwaits⟩
  · exact Or.inl fun hnil => hasked (List.append_eq_nil_iff.1 hnil).1
  · exact Or.inr ⟨url, h'.keeps url hwaits⟩

theorem Disturbs.not_still (h : Disturbs t t') (hfetched : t'.web.fetched = t.web.fetched) :
    t'.awaiting ≠ .empty := by
  obtain ⟨urls, hextends, hmore⟩ := h
  have hnone : urls = [] := by
    have hasks := congrArg Web.fetched hextends.asks
    rw [hfetched] at hasks
    simpa using hasks
  obtain ⟨url, hwaits⟩ := hmore.resolve_left (not_not.2 hnone)
  intro hempty
  rw [hempty] at hwaits
  exact absurd hwaits List.not_mem_nil

theorem Asked.disturbs {result : Traffic × Walker × Option Failure}
    (h : Asked t id w url result) : Disturbs t result.1 := by
  obtain ⟨urls, hextends, -⟩ := h.exists_extends
  refine ⟨urls, hextends, ?_⟩
  cases h with
  | joined found => exact Or.inr ⟨url, Table.mem_insert_iff.2 (Or.inr rfl)⟩
  | refused absent refusing => exact Or.inr ⟨url, Table.mem_insert_iff.2 (Or.inr rfl)⟩
  | issued absent serving later => exact Or.inr ⟨url, Table.mem_insert_iff.2 (Or.inr rfl)⟩
  | answered absent serving atOnce =>
      left
      intro hnone
      have hasks := congrArg Web.fetched hextends.asks
      simp [hnone] at hasks

end Traffic

theorem Walker.Walk.disturbs {rules : Rules} {id : WalkerId} {t : Traffic} {w : Walker}
    {result : Traffic × Walker × Option (Except Failure String)} (h : Walk rules id t w result)
    {response : Response} {inbox : List Response} {next : String}
    (read : w.inbox = response :: inbox)
    (verdict : rules.verdict w.trail response = .redirect next) : t.Disturbs result.1 := by
  cases h with
  | idle empty => simp [empty] at read
  | failed read' verdict' =>
      obtain ⟨rfl, rfl⟩ := List.cons.inj (read.symm.trans read')
      simp [verdict] at verdict'
  | arrived read' verdict' =>
      obtain ⟨rfl, rfl⟩ := List.cons.inj (read.symm.trans read')
      simp [verdict] at verdict'
  | refused read' verdict' asked => exact asked.disturbs
  | onward read' verdict' asked rest =>
      obtain ⟨urls, hextends, -⟩ := rest.exists_extends
      exact asked.disturbs.extends hextends

namespace Pathfinder

variable {rules : Rules} {p q : Pathfinder} {id : WalkerId} {w : Walker}

section Fold

variable {State : Type} (view : State → Pathfinder) {f : State → WalkerId → State} {s : State}

theorem exists_extends_foldl
    (hextends : ∀ s id, (view s).registered = .empty → (view (f s id)).registered = .empty ∧
      ∃ urls, Traffic.Extends urls (view s).traffic (view (f s id)).traffic)
    (ids : List WalkerId) (hregistered : (view s).registered = .empty) :
    (view (ids.foldl f s)).registered = .empty ∧
      ∃ urls, Traffic.Extends urls (view s).traffic (view (ids.foldl f s)).traffic := by
  induction ids generalizing s with
  | nil => exact ⟨hregistered, [], .refl _⟩
  | cons first ids ih =>
      obtain ⟨hafter, urls, hfirst⟩ := hextends s first hregistered
      obtain ⟨hlast, urls', hrest⟩ := ih hafter
      exact ⟨hlast, urls ++ urls', hfirst.trans hrest⟩

theorem disturbs_foldl (hmoves : ∀ s id, Moves id (view s) (view (f s id)))
    (hextends : ∀ s id, (view s).registered = .empty → (view (f s id)).registered = .empty ∧
      ∃ urls, Traffic.Extends urls (view s).traffic (view (f s id)).traffic)
    (hdisturbs : ∀ s, (view s).registered = .empty → (view s).walkers[id]? = some w →
      (view s).traffic.Disturbs (view (f s id)).traffic)
    {ids : List WalkerId} (hid : id ∈ ids) (hregistered : (view s).registered = .empty)
    (hw : (view s).walkers[id]? = some w) :
    (view s).traffic.Disturbs (view (ids.foldl f s)).traffic := by
  induction ids generalizing s with
  | nil => exact absurd hid List.not_mem_nil
  | cons first ids ih =>
      obtain ⟨hafter, urls, hfirst⟩ := hextends s first hregistered
      by_cases hne : id = first
      · obtain ⟨-, urls', hrest⟩ := exists_extends_foldl view hextends ids hafter
        rw [← hne] at hrest
        rw [List.foldl_cons, ← hne]
        exact (hdisturbs s hregistered hw).extends hrest
      -- The steps of others neither move the walker nor take back what they add.
      · exact .of_extends hfirst (ih ((List.mem_cons.1 hid).resolve_left hne) hafter
          (((hmoves s first).walker_eq id hne).trans hw))

end Fold

theorem traffic_foldl_finish (endings : List Ending) (hregistered : p.registered = .empty) :
    (endings.foldl (fun p ending => p.finish ending.id ending.result) p).traffic = p.traffic ∧
      (endings.foldl (fun p ending => p.finish ending.id ending.result) p).registered =
        .empty := by
  induction endings generalizing p with
  | nil => exact ⟨rfl, hregistered⟩
  | cons first endings ih =>
      have hforget : (p.forget first.id).1 = p := by
        cases hw : p.walkers[first.id]? with
        | none => rw [forget_of_none hw]
        | some w => rw [forget_of_not_registered hw (by simp [hregistered])]
      obtain ⟨htraffic, hafter⟩ := @ih (p.finish first.id first.result) (by
        rw [registered_finish, hforget, hregistered])
      rw [traffic_finish, hforget] at htraffic
      exact ⟨htraffic, hafter⟩

theorem Turn.disturbs_step {t : Turn} (hw : t.pathfinder.walkers[id]? = some w)
    (hstage : w.stage = .leaving) {response : Response} {inbox : List Response} {next : String}
    (read : w.inbox = response :: inbox)
    (verdict : rules.verdict w.trail response = .redirect next) :
    t.pathfinder.traffic.Disturbs (t.step rules id).pathfinder.traffic := by
  have hstepped := stepped_step rules t id
  generalize t.step rules id = u at *
  cases hstepped with
  | idle stage => simp [stage w hw] at hstage
  | late walker stage untimely =>
      obtain rfl := Option.some.inj (hw.symm.trans walker)
      simp [stage] at hstage
  | @moved w' after traffic result? walker stage timely proceed =>
      obtain rfl := Option.some.inj (hw.symm.trans walker)
      have hstarted : w.started rules t.pathfinder.clock = w := if_neg (by simp [hstage])
      have walk := w.walk_proceed rules id t.pathfinder.traffic
      rw [hstarted] at proceed
      rw [proceed] at walk
      exact walk.disturbs read verdict

theorem Turn.extends_step (rules : Rules) (t : Turn) (id : WalkerId)
    (hregistered : t.pathfinder.registered = .empty) :
    (t.step rules id).pathfinder.registered = .empty ∧
      ∃ urls, Traffic.Extends urls t.pathfinder.traffic
        (t.step rules id).pathfinder.traffic := by
  obtain ⟨urls, hextends, -⟩ := exists_extends_step rules t id
  refine ⟨?_, urls, hextends⟩
  rw [(stepped_step rules t id).pathfinder_eq]
  exact hregistered

theorem Turn.moves_step_conclude (rules : Rules) (p : Pathfinder) (id : WalkerId) :
    Moves id p (Turn.step rules { pathfinder := p } id).conclude := by
  have hstepped := stepped_step rules { pathfinder := p } id
  obtain ⟨result?, hendings⟩ := hstepped.endings_eq
  rw [List.nil_append] at hendings
  rw [Turn.conclude, hendings]
  cases result? with
  | none => exact hstepped.moves
  | some result => exact hstepped.moves.trans (moves_finish _ id result)

/-- A redirected walker that nobody wants leaves a trace of its turn. -/
theorem disturbs_drain (hregistered : p.registered = .empty) (hid : id ∈ p.queue)
    (hw : p.walkers[id]? = some w) (hstage : w.stage = .leaving) {response : Response}
    {inbox : List Response} {next : String} (read : w.inbox = response :: inbox)
    (verdict : rules.verdict w.trail response = .redirect next) :
    p.traffic.Disturbs (p.drain rules).traffic := by
  unfold drain
  dsimp only
  split
  · have hstepped := disturbs_foldl Turn.pathfinder
      (s := { pathfinder := p }) (fun t other => (Turn.stepped_step rules t other).moves)
      (Turn.extends_step rules)
      (fun t _ hwalker => Turn.disturbs_step hwalker hstage read verdict)
      ((mem_turnOrder_iff p id).2 hid) hregistered hw
    obtain ⟨hnobody, -⟩ := exists_extends_foldl Turn.pathfinder (s := { pathfinder := p })
      (Turn.extends_step rules) p.turnOrder hregistered
    obtain ⟨htraffic, hconcluded⟩ := traffic_foldl_finish
      (p.turnOrder.foldl (Turn.step rules) { pathfinder := p }).endings hnobody
    have hdrained : (p.drainTimed rules).traffic =
        (p.turnOrder.foldl (Turn.step rules) { pathfinder := p }).pathfinder.traffic := by
      rw [← htraffic, drainTimed, Turn.conclude, hconcluded]
      rfl
    rw [hdrained]
    exact hstepped
  · refine disturbs_foldl (fun q : Pathfinder => q)
      (fun q other => Turn.moves_step_conclude rules q other) ?_ ?_ hid hregistered hw
    · intro q other hnobody
      obtain ⟨hnobody, urls, hextends⟩ :=
        Turn.extends_step rules { pathfinder := q } other hnobody
      obtain ⟨htraffic, hconcluded⟩ := traffic_foldl_finish
        (Turn.step rules { pathfinder := q } other).endings hnobody
      exact ⟨hconcluded, urls, htraffic ▸ hextends⟩
    · intro q hnobody hwalker
      obtain ⟨hnobody, -⟩ := Turn.extends_step rules { pathfinder := q } id hnobody
      obtain ⟨htraffic, -⟩ := traffic_foldl_finish
        (Turn.step rules { pathfinder := q } id).endings hnobody
      have hstepped := @Turn.disturbs_step rules id w { pathfinder := q } hwalker hstage _ _ _ read
        verdict
      exact htraffic ▸ hstepped

end Pathfinder

end LinkTrail
