import LinkTrail.Proofs.Pathfinder.Frame

/-!
What holds of every walker at any time. Main statements: each change of a pathfinder outside a turn
keeps it (`Kept.finish`, `Kept.dismiss`, `Kept.deliver`, `Kept.start`).
-/

namespace LinkTrail.Pathfinder

/-- What can hold of one walker when those in `ended` have ended their walks in the present turn and
those in `todo` have still to move. Walks may have been dismissed if `closed`. -/
inductive Fits (rules : Rules) (heard : Response → Prop) (closed : Prop)
    (ended todo : List WalkerId) (p : Pathfinder) (id : WalkerId) : Prop where
  | absent (walker : p.walkers[id]? = none) (unregistered : ¬ p.IsRegistered id)
      (unlisted : ∀ url, p.traffic.places id url = 0)
  | gone {w : Walker} (walker : p.walkers[id]? = some w) (unregistered : ¬ p.IsRegistered id)
      (stage : w.stage = .gone) (unlisted : closed ∨ ∀ url, p.traffic.places id url = 0)
  | leaving {w : Walker} (walker : p.walkers[id]? = some w) (unregistered : ¬ p.IsRegistered id)
      (stage : w.stage = .leaving) (dismissed : closed) (cleared : w.trail = w.trail.cleared)
      (due : id ∈ todo)
  | ended {w : Walker} (walker : p.walkers[id]? = some w)
      (registered : ∀ origin, p.registered.get? origin = some id ↔ origin = w.trail.origin)
      (stopped : id ∈ ended) (state : w.Ended (p.traffic.places id))
  | fresh {w : Walker} (walker : p.walkers[id]? = some w)
      (registered : ∀ origin, p.registered.get? origin = some id ↔ origin = w.trail.origin)
      (going : id ∉ ended) (stage : w.stage = .fresh) (due : id ∈ todo)
      (state : w.Underway rules heard (p.traffic.places id))
  | walking {w : Walker} {deadline : Option Seconds} (walker : p.walkers[id]? = some w)
      (registered : ∀ origin, p.registered.get? origin = some id ↔ origin = w.trail.origin)
      (going : id ∉ ended) (stage : w.stage = .walking deadline) (due : w.inbox = [] ∨ id ∈ todo)
      (state : w.Underway rules heard (p.traffic.places id))

structure Kept (rules : Rules) (heard : Response → Prop) (closed : Prop)
    (ended todo : List WalkerId) (p : Pathfinder) : Prop where
  fits : ∀ id, Fits rules heard closed ended todo p id
  crowded : p.traffic.Crowded
  matched : p.Matched
  answers : ∀ url response, p.web.answer? url = some response → heard { response with url := url }

variable {rules : Rules} {heard : Response → Prop} {closed : Prop}
  {ended todo ended' todo' : List WalkerId} {p q : Pathfinder} {id : WalkerId}

theorem Fits.transfer (h : Fits rules heard closed ended todo p id)
    (hwalker : q.walkers[id]? = p.walkers[id]?)
    (hregistered : ∀ origin, q.registered.get? origin = some id ↔
      p.registered.get? origin = some id)
    (hplaces : q.traffic.places id = p.traffic.places id) (hended : id ∈ ended' ↔ id ∈ ended)
    (htodo : id ∈ todo → id ∈ todo') : Fits rules heard closed ended' todo' q id := by
  have hunregistered : ¬ p.IsRegistered id → ¬ q.IsRegistered id := by
    rintro hnot ⟨origin, horigin⟩
    exact hnot ⟨origin, (hregistered origin).1 horigin⟩
  cases h with
  | absent walker unregistered unlisted =>
      exact .absent (hwalker.trans walker) (hunregistered unregistered) (hplaces ▸ unlisted)
  | gone walker unregistered stage unlisted =>
      exact .gone (hwalker.trans walker) (hunregistered unregistered) stage (hplaces ▸ unlisted)
  | leaving walker unregistered stage dismissed cleared due =>
      exact .leaving (hwalker.trans walker) (hunregistered unregistered) stage dismissed cleared
        (htodo due)
  | ended walker registered stopped state =>
      exact .ended (hwalker.trans walker)
        (fun origin => (hregistered origin).trans (registered origin)) (hended.2 stopped)
        (hplaces ▸ state)
  | fresh walker registered going stage due state =>
      exact .fresh (hwalker.trans walker)
        (fun origin => (hregistered origin).trans (registered origin))
        (fun hmem => going (hended.1 hmem)) stage (htodo due) (hplaces ▸ state)
  | walking walker registered going stage due state =>
      exact .walking (hwalker.trans walker)
        (fun origin => (hregistered origin).trans (registered origin))
        (fun hmem => going (hended.1 hmem)) stage (due.imp_right htodo) (hplaces ▸ state)

/-- What is done for one walker has to be shown for that walker only. -/
theorem Kept.of_moves (h : Kept rules heard closed ended todo p) (moves : Moves id p q)
    (hended : ∀ other, other ≠ id → (other ∈ ended' ↔ other ∈ ended))
    (htodo : ∀ other, other ≠ id → other ∈ todo → other ∈ todo')
    (hself : Fits rules heard closed ended' todo' q id) :
    Kept rules heard closed ended' todo' q where
  fits other := by
    by_cases hne : other = id
    · rw [hne]
      exact hself
    · exact (h.fits other).transfer (moves.walker_eq other hne)
        (moves.registered_iff other hne) (moves.places_eq other hne) (hended other hne)
        (htodo other hne)
  crowded := moves.crowded h.crowded
  matched := moves.matched h.matched
  answers := by
    rw [moves.web.answer?_eq]
    exact h.answers

theorem Kept.congr (h : Kept rules heard closed ended todo p) (hwalkers : q.walkers = p.walkers)
    (hregistered : q.registered = p.registered)
    (hawaiting : q.traffic.awaiting = p.traffic.awaiting)
    (hmatched : q.Matched)
    (hanswers : ∀ url response, q.web.answer? url = some response →
      heard { response with url := url })
    (htodo : ∀ other ∈ todo, other ∈ todo') : Kept rules heard closed ended todo' q where
  fits other := by
    refine (h.fits other).transfer ?_ ?_ ?_ Iff.rfl (htodo other)
    · rw [hwalkers]
    · rw [hregistered]
      exact fun _ => Iff.rfl
    · funext url
      simp only [Traffic.places, Traffic.waiters, hawaiting]
  crowded := by
    have hcrowded := h.crowded
    simp only [Traffic.Crowded, hawaiting] at hcrowded ⊢
    exact hcrowded
  matched := hmatched
  answers := hanswers

theorem Kept.answersAtOnce (h : Kept rules heard closed ended todo p) (url : String)
    (response : Response) (hanswer : p.web.answerAtOnce? url = some response) :
    heard response := by
  unfold Web.answerAtOnce? at hanswer
  split at hanswer
  · obtain ⟨answer, hfound, rfl⟩ := Option.map_eq_some_iff.1 hanswer
    exact h.answers url answer hfound
  · contradiction

theorem Kept.forget_ended (h : Kept rules heard closed ended todo p)
    (hended : ∀ id ∈ ended, ¬ p.IsRegistered id) : Kept rules heard closed [] todo p where
  fits id := by
    cases h.fits id with
    | absent walker unregistered unlisted => exact .absent walker unregistered unlisted
    | gone walker unregistered stage unlisted => exact .gone walker unregistered stage unlisted
    | leaving walker unregistered stage dismissed cleared due =>
        exact .leaving walker unregistered stage dismissed cleared due
    | ended walker registered stopped state =>
        exact absurd ⟨_, (registered _).2 rfl⟩ (hended id stopped)
    | fresh walker registered going stage due state =>
        exact .fresh walker registered List.not_mem_nil stage due state
    | walking walker registered going stage due state =>
        exact .walking walker registered List.not_mem_nil stage due state
  crowded := h.crowded
  matched := h.matched
  answers := h.answers

theorem Kept.exists_of_registered (h : Kept rules heard closed ended todo p) {origin : String}
    (hregistered : p.registered.get? origin = some id) :
    ∃ w, p.walkers[id]? = some w ∧ w.trail.origin = origin ∧ w.Ended (p.traffic.places id) ∧
      ∀ other, p.registered.get? other = some id ↔ other = w.trail.origin := by
  cases h.fits id with
  | absent walker unregistered => exact absurd ⟨origin, hregistered⟩ unregistered
  | gone walker unregistered => exact absurd ⟨origin, hregistered⟩ unregistered
  | leaving walker unregistered => exact absurd ⟨origin, hregistered⟩ unregistered
  | ended walker registered stopped state =>
      exact ⟨_, walker, ((registered origin).1 hregistered).symm, state, registered⟩
  | fresh walker registered going stage due state =>
      exact ⟨_, walker, ((registered origin).1 hregistered).symm, state.ended, registered⟩
  | walking walker registered going stage due state =>
      exact ⟨_, walker, ((registered origin).1 hregistered).symm, state.ended, registered⟩

theorem Kept.underway {ended todo : List WalkerId}
    (h : Kept rules heard closed ended todo p) (hgoing : id ∉ ended) {origin : String}
    (registered : p.registered.get? origin = some id) :
    ∃ w, p.walkers[id]? = some w ∧ w.trail.origin = origin ∧
      w.Underway rules heard (p.traffic.places id) := by
  cases h.fits id with
  | absent walker unregistered => exact absurd ⟨origin, registered⟩ unregistered
  | gone walker unregistered => exact absurd ⟨origin, registered⟩ unregistered
  | leaving walker unregistered => exact absurd ⟨origin, registered⟩ unregistered
  | ended walker _ stopped => exact absurd stopped hgoing
  | fresh walker only going stage due state =>
      exact ⟨_, walker, ((only origin).1 registered).symm, state⟩
  | walking walker only going stage due state =>
      exact ⟨_, walker, ((only origin).1 registered).symm, state⟩

theorem Fits.of_gone (h : Fits rules heard closed ended todo p id) (hended : id ∉ ended)
    (hgone : ∀ w, p.walkers[id]? = some w → w.stage = .gone) :
    Fits rules heard closed ended todo' p id := by
  cases h with
  | absent walker unregistered unlisted => exact .absent walker unregistered unlisted
  | gone walker unregistered stage unlisted => exact .gone walker unregistered stage unlisted
  | leaving walker unregistered stage => simp [hgone _ walker] at stage
  | ended walker registered stopped => exact absurd stopped hended
  | fresh walker registered going stage => simp [hgone _ walker] at stage
  | walking walker registered going stage => simp [hgone _ walker] at stage

theorem Fits.of_not_gone (h : Fits rules heard closed ended todo p id) (hended : id ∉ ended)
    {w : Walker} (hw : p.walkers[id]? = some w) (hgone : w.stage ≠ .gone) :
    (w.stage = .leaving ∧ closed ∧ ¬ p.IsRegistered id) ∨
    ((w.stage = .fresh ∨ ∃ deadline, w.stage = .walking deadline) ∧
      (∀ origin, p.registered.get? origin = some id ↔ origin = w.trail.origin) ∧
      w.Underway rules heard (p.traffic.places id)) := by
  cases h with
  | absent walker => simp [hw] at walker
  | gone walker unregistered stage =>
      obtain rfl := Option.some.inj (hw.symm.trans walker)
      contradiction
  | leaving walker unregistered stage dismissed =>
      obtain rfl := Option.some.inj (hw.symm.trans walker)
      exact Or.inl ⟨stage, dismissed, unregistered⟩
  | ended walker registered stopped => exact absurd stopped hended
  | fresh walker registered going stage due state =>
      obtain rfl := Option.some.inj (hw.symm.trans walker)
      exact Or.inr ⟨Or.inl stage, registered, state⟩
  | walking walker registered going stage due state =>
      obtain rfl := Option.some.inj (hw.symm.trans walker)
      exact Or.inr ⟨Or.inr ⟨_, stage⟩, registered, state⟩

theorem Fits.of_leaving (h : Fits rules heard closed ended todo p id) (hended : id ∉ ended)
    {w : Walker} (hw : p.walkers[id]? = some w) (hstage : w.stage = .leaving) :
    ¬ p.IsRegistered id ∧ w.trail = w.trail.cleared ∧ id ∈ todo := by
  cases h with
  | absent walker => simp [hw] at walker
  | gone walker unregistered stage =>
      obtain rfl := Option.some.inj (hw.symm.trans walker)
      simp [hstage] at stage
  | leaving walker unregistered stage dismissed cleared due =>
      obtain rfl := Option.some.inj (hw.symm.trans walker)
      exact ⟨unregistered, cleared, due⟩
  | ended walker registered stopped => exact absurd stopped hended
  | fresh walker registered going stage =>
      obtain rfl := Option.some.inj (hw.symm.trans walker)
      simp [hstage] at stage
  | walking walker registered going stage =>
      obtain rfl := Option.some.inj (hw.symm.trans walker)
      simp [hstage] at stage

theorem Kept.not_mem_waiters (h : Kept rules heard False ended todo p)
    (unregistered : ¬ p.IsRegistered id) (url : String) : id ∉ p.traffic.waiters url := by
  have hunlisted : (∀ url, p.traffic.places id url = 0) → id ∉ p.traffic.waiters url := by
    intro hplaces hmem
    have hplace := Traffic.mem_waiters_iff.1 hmem
    rw [hplaces] at hplace
    contradiction
  cases h.fits id with
  | absent walker _ unlisted => exact hunlisted unlisted
  | gone walker _ stage unlisted => exact hunlisted (unlisted.resolve_left not_false)
  | leaving walker _ stage dismissed => exact dismissed.elim
  | ended walker registered => exact absurd ⟨_, (registered _).2 rfl⟩ unregistered
  | fresh walker registered => exact absurd ⟨_, (registered _).2 rfl⟩ unregistered
  | walking walker registered => exact absurd ⟨_, (registered _).2 rfl⟩ unregistered

theorem Fits.of_none (h : Fits rules heard closed ended todo p id)
    (hw : p.walkers[id]? = none) :
    ¬ p.IsRegistered id ∧ ∀ url, p.traffic.places id url = 0 := by
  cases h with
  | absent walker unregistered unlisted => exact ⟨unregistered, unlisted⟩
  | gone walker => exact absurd (hw.symm.trans walker) (by simp)
  | leaving walker => exact absurd (hw.symm.trans walker) (by simp)
  | ended walker => exact absurd (hw.symm.trans walker) (by simp)
  | fresh walker => exact absurd (hw.symm.trans walker) (by simp)
  | walking walker => exact absurd (hw.symm.trans walker) (by simp)

theorem forget_of_ended {w : Walker} (walker : p.walkers[id]? = some w)
    (registered : ∀ origin, p.registered.get? origin = some id ↔ origin = w.trail.origin)
    (state : w.Ended (p.traffic.places id)) :
    ¬ (p.forget id).1.IsRegistered id ∧ ∀ url, (p.forget id).1.traffic.places id url = 0 := by
  rw [forget_of_registered walker ((registered _).2 rfl)]
  constructor
  · intro ⟨origin, horigin⟩
    rw [Table.get?_erase] at horigin
    split at horigin
    · contradiction
    · rename_i hne
      exact hne ((registered origin).1 horigin)
  · intro url
    have hplaces := state url
    rw [Traffic.places_withdraw_self]
    omega

theorem Fits.finish (h : Fits rules heard closed ended todo p id)
    (result : Except Failure String) :
    Fits rules heard closed ended' todo' (p.finish id result) id := by
  have hregistered : ∀ w, p.walkers[id]? = some w →
      (∀ origin, p.registered.get? origin = some id ↔ origin = w.trail.origin) →
      w.Ended (p.traffic.places id) →
      Fits rules heard closed ended' todo' (p.finish id result) id := by
    intro w walker registered state
    obtain ⟨hlt, -⟩ := List.getElem?_eq_some_iff.1 walker
    obtain ⟨hforgotten, hunlisted⟩ := forget_of_ended walker registered state
    refine .gone (w := { w with trail := w.trail.cleared, stage := .gone }) ?_ ?_ rfl
      (Or.inr ?_)
    · rw [finish_of_registered walker ((registered _).2 rfl)]
      simp [complete, hlt]
    · rw [IsRegistered, registered_finish]
      exact hforgotten
    · rw [traffic_finish]
      exact hunlisted
  have hunregistered : ∀ w, p.walkers[id]? = some w → ¬ p.IsRegistered id →
      (closed ∨ ∀ url, p.traffic.places id url = 0) →
      Fits rules heard closed ended' todo' (p.finish id result) id := by
    intro w walker unregistered unlisted
    rw [finish_of_not_registered walker fun horigin => unregistered ⟨_, horigin⟩]
    refine .gone (w := { w with stage := .gone }) ?_ unregistered rfl unlisted
    rw [getElem?_mapWalker_self, walker]
    rfl
  cases h with
  | absent walker unregistered unlisted =>
      rw [finish_of_none walker]
      exact .absent walker unregistered unlisted
  | gone walker unregistered stage unlisted => exact hunregistered _ walker unregistered unlisted
  | leaving walker unregistered stage dismissed =>
      exact hunregistered _ walker unregistered (Or.inl dismissed)
  | ended walker registered stopped state => exact hregistered _ walker registered state
  | fresh walker registered going stage due state =>
      exact hregistered _ walker registered state.ended
  | walking walker registered going stage due state =>
      exact hregistered _ walker registered state.ended

theorem Kept.finish (h : Kept rules heard closed ended todo p) (id : WalkerId)
    (result : Except Failure String) :
    Kept rules heard closed ended todo (p.finish id result) :=
  h.of_moves (moves_finish p id result) (fun _ _ => Iff.rfl) (fun _ _ hmem => hmem)
    ((h.fits id).finish result)

theorem Kept.not_isRegistered_finish (h : Kept rules heard closed ended todo p) (id : WalkerId)
    (result : Except Failure String) : ¬ (p.finish id result).IsRegistered id := by
  intro ⟨origin, horigin⟩
  obtain ⟨w, hw, -, hended, hiff⟩ := h.exists_of_registered (registered_of_finish horigin)
  apply (forget_of_ended hw hiff hended).1
  exact ⟨origin, registered_finish result ▸ horigin⟩

/-- A walker that has been dismissed is gone, unless it has a response that it takes up yet. -/
theorem Fits.dismiss (h : Fits rules heard closed ended todo p id) (hclosed : closed)
    (hended : id ∉ ended) : Fits rules heard closed ended todo (p.dismiss id) id := by
  have hregistered : ∀ w, p.walkers[id]? = some w →
      (∀ origin, p.registered.get? origin = some id ↔ origin = w.trail.origin) →
      w.Ended (p.traffic.places id) →
      (w.dismissedStage = .gone ∨ w.dismissedStage = .leaving ∧ id ∈ todo) →
      Fits rules heard closed ended todo (p.dismiss id) id := by
    intro w walker registered state stage
    obtain ⟨hlt, -⟩ := List.getElem?_eq_some_iff.1 walker
    have hwalker : (p.dismiss id).walkers[id]? =
        some { w with trail := w.trail.cleared, stage := w.dismissedStage } := by
      rw [dismiss_of_registered walker ((registered _).2 rfl)]
      simp [complete, hlt]
    have hunregistered : ¬ (p.dismiss id).IsRegistered id := by
      have hforgotten := (forget_of_ended walker registered state).1
      rw [forget_of_registered walker ((registered _).2 rfl)] at hforgotten
      rw [dismiss_of_registered walker ((registered _).2 rfl)]
      exact hforgotten
    rcases stage with stage | ⟨stage, due⟩
    · exact .gone hwalker hunregistered stage (Or.inl hclosed)
    · exact .leaving hwalker hunregistered stage hclosed rfl due
  have hunregistered : ∀ w, p.walkers[id]? = some w → ¬ p.IsRegistered id →
      w.dismissedStage = .gone → Fits rules heard closed ended todo (p.dismiss id) id := by
    intro w walker unregistered stage
    rw [dismiss_of_not_registered walker fun horigin => unregistered ⟨_, horigin⟩]
    refine .gone (w := { w with stage := w.dismissedStage }) ?_ unregistered stage
      (Or.inl hclosed)
    rw [getElem?_mapWalker_self, walker]
    rfl
  cases h with
  | absent walker unregistered unlisted =>
      rw [dismiss_of_none walker]
      exact .absent walker unregistered unlisted
  | gone walker unregistered stage unlisted =>
      exact hunregistered _ walker unregistered (by simp [Walker.dismissedStage, stage])
  | leaving walker unregistered stage dismissed =>
      exact hunregistered _ walker unregistered (by simp [Walker.dismissedStage, stage])
  | ended walker registered stopped => exact absurd stopped hended
  | fresh walker registered going stage due state =>
      exact hregistered _ walker registered state.ended (Or.inl (by simp [Walker.dismissedStage, stage]))
  | @walking w deadline walker registered going stage due state =>
      apply hregistered _ walker registered state.ended
      cases hinbox : w.inbox with
      | nil => cases deadline <;> simp [Walker.dismissedStage, stage, hinbox]
      | cons response inbox =>
          have hdue : id ∈ todo := due.resolve_left (by simp [hinbox])
          cases deadline <;> simp [Walker.dismissedStage, stage, hinbox, hdue]

theorem Kept.dismiss (h : Kept rules heard closed ended todo p) (hclosed : closed)
    (id : WalkerId) (hended : id ∉ ended) :
    Kept rules heard closed ended todo (p.dismiss id) :=
  h.of_moves (moves_dismiss p id) (fun _ _ => Iff.rfl) (fun _ _ hmem => hmem)
    ((h.fits id).dismiss hclosed hended)

theorem Kept.close (h : Kept rules heard closed [] todo p) (hclosed : closed) :
    Kept rules heard closed [] todo p.close := by
  apply close_induction p h
  · exact fun q id hq => hq.dismiss hclosed id List.not_mem_nil
  · exact fun q hq => hq.congr rfl rfl rfl hq.matched hq.answers fun _ hmem => hmem

end LinkTrail.Pathfinder
