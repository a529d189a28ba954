import LinkTrail.Proofs.Pathfinder.Course

/-!
Deadlines. Main statement: at any time each registered walker either is still to set out or has the
deadline that it was given when it set out (`dated_run`).
-/

namespace LinkTrail.Pathfinder

def SetsOutAt (rules : Rules) (start : Pathfinder) (actions : List Action) (id : WalkerId)
    (clock : Seconds) : Prop :=
  ∃ before after, actions = before ++ .drain :: after ∧
    (start.run rules before).IsRegistered id ∧ (start.run rules before).stage? id = some .fresh ∧
      (start.run rules before).clock = clock

def SetsOutOnce (rules : Rules) (start : Pathfinder) (actions : List Action) (id : WalkerId)
    (clock : Seconds) : Prop :=
  ∀ other, SetsOutAt rules start actions id other ↔ other = clock

variable {rules : Rules} {heard : Response → Prop} {closed : Prop} {start p q : Pathfinder}
  {id : WalkerId} {w : Walker} {limit clock : Seconds} {actions : List Action} {action : Action}

theorem setsOutAt_concat_iff :
    SetsOutAt rules start (actions ++ [action]) id clock ↔
      SetsOutAt rules start actions id clock ∨
        action = .drain ∧ (start.run rules actions).IsRegistered id ∧
          (start.run rules actions).stage? id = some .fresh ∧
            (start.run rules actions).clock = clock := by
  constructor
  · rintro ⟨before, after, hactions, hfresh⟩
    rcases List.eq_nil_or_concat after with rfl | ⟨rest, last, rfl⟩
    · obtain ⟨rfl, hlast⟩ := List.append_inj' hactions rfl
      exact Or.inr ⟨(List.cons.inj hlast).1, hfresh⟩
    · rw [List.concat_eq_append, ← List.cons_append, ← List.append_assoc] at hactions
      exact Or.inl ⟨before, rest, (List.append_inj' hactions rfl).1, hfresh⟩
  · rintro (⟨before, after, rfl, hfresh⟩ | ⟨rfl, hfresh⟩)
    · exact ⟨before, after ++ [action], by simp, hfresh⟩
    · exact ⟨actions, [], rfl, hfresh⟩

theorem SetsOutOnce.concat (h : SetsOutOnce rules start actions id clock)
    (hunfresh : action = .drain → (start.run rules actions).stage? id ≠ some .fresh) :
    SetsOutOnce rules start (actions ++ [action]) id clock := by
  intro other
  rw [setsOutAt_concat_iff, ← h other]
  exact or_iff_left fun ⟨hdrain, _, hfresh, _⟩ => hunfresh hdrain hfresh

theorem setsOutOnce_drain (hregistered : (start.run rules actions).IsRegistered id)
    (hfresh : (start.run rules actions).stage? id = some .fresh)
    (hnever : ∀ clock, ¬ SetsOutAt rules start actions id clock) :
    SetsOutOnce rules start (actions ++ [.drain]) id (start.run rules actions).clock := by
  intro other
  rw [setsOutAt_concat_iff, or_iff_right (hnever other)]
  exact ⟨fun hnow => hnow.2.2.2.symm, fun heq => ⟨rfl, hregistered, hfresh, heq.symm⟩⟩

theorem Resting.exists_stage (h : Resting rules heard closed p) {origin : String}
    (hregistered : p.registered.get? origin = some id) :
    ∃ w, p.walkers[id]? = some w ∧ w.trail.origin = origin ∧ w.IsGoing ∧
      (w.stage = .fresh → id ∈ p.queue) := by
  cases h.kept.fits id with
  | absent walker unregistered => exact absurd ⟨origin, hregistered⟩ unregistered
  | gone walker unregistered => exact absurd ⟨origin, hregistered⟩ unregistered
  | leaving walker unregistered => exact absurd ⟨origin, hregistered⟩ unregistered
  | ended walker registered stopped => exact absurd stopped List.not_mem_nil
  | fresh walker registered going stage due =>
      exact ⟨_, walker, ((registered origin).1 hregistered).symm, Or.inl stage, fun _ => due⟩
  | walking walker registered going stage =>
      exact ⟨_, walker, ((registered origin).1 hregistered).symm, Or.inr ⟨_, stage⟩,
        fun hfresh => by simp [hfresh] at stage⟩

theorem Resting.inbox_of_not_mem_queue (h : Resting rules heard closed p)
    (hregistered : p.IsRegistered id) (hw : p.walkers[id]? = some w) (hid : id ∉ p.queue) :
    w.inbox = [] := by
  cases h.kept.fits id with
  | absent walker unregistered => exact absurd hregistered unregistered
  | gone walker unregistered => exact absurd hregistered unregistered
  | leaving walker unregistered => exact absurd hregistered unregistered
  | ended walker registered stopped => exact absurd stopped List.not_mem_nil
  | fresh walker registered going stage due => exact absurd due hid
  | walking walker registered going stage due =>
      obtain rfl := Option.some.inj (hw.symm.trans walker)
      exact due.resolve_right hid

theorem Resting.walker_resolve (h : Resting rules heard closed p) (hw : p.walkers[id]? = some w)
    (url : String) : (p.resolve url).2.walkers[id]? = some w := by
  obtain ⟨hlt, -⟩ := List.getElem?_eq_some_iff.1 hw
  have hne : id ≠ p.walkers.length := Nat.ne_of_lt hlt
  unfold Pathfinder.resolve
  split
  · cases hwaiting : p.waiting.get? url with
    | some tickets => exact hw
    | none =>
        have habsent : url ∉ p.registered :=
          mt (h.kept.matched url).1 (Table.get?_eq_none_iff.1 hwaiting)
        have hmoves := moves_requested habsent
        dsimp only
        cases hfailure : (p.requested url).2 with
        | none =>
            rw [start_of_granted hfailure]
            exact (hmoves.walker_eq id hne).trans hw
        | some failure =>
            have hall := hmoves.trans (moves_forget _ p.walkers.length)
            rw [start_of_refused hfailure]
            exact (List.getElem?_take_of_lt hlt).trans ((hall.walker_eq id hne).trans hw)
  · exact hw

/-- Between turns a walker only gets responses, as long as the walks are not ended. -/
theorem Resting.walker_act (h : Resting rules heard closed p)
    (hdrain : action ≠ .drain) (hclose : action ≠ .close) (hw : p.walkers[id]? = some w) :
    ∃ responses, (p.act rules action).1.walkers[id]? =
      some { w with inbox := w.inbox ++ responses } := by
  have hsame : ∀ q : Pathfinder, q.walkers[id]? = some w →
      ∃ responses, q.walkers[id]? = some { w with inbox := w.inbox ++ responses } :=
    fun q hq => ⟨[], by simpa using hq⟩
  cases action with
  | attach =>
      simp only [Pathfinder.act, Pathfinder.attach]
      split
      · exact hsame _ hw
      · exact hsame _ hw
  | close => contradiction
  | resolve url =>
      rw [act_resolve]
      exact hsame _ (h.walker_resolve hw url)
  | deliver response => exact walker_deliver hw response
  | cancel ticket => exact hsame _ hw
  | refuseRequests refusing => exact hsame _ hw
  | answerAtOnce url response? => exact hsame _ hw
  | advance span => exact hsame _ hw
  | drain => contradiction

theorem Resting.isRegistered_of_resolve (h : Resting rules heard closed p) (url : String)
    (hregistered : (p.resolve url).2.IsRegistered id) :
    p.IsRegistered id ∨
      p.walkers.length ≤ id ∧ (p.resolve url).2.stage? id = some .fresh := by
  revert hregistered
  unfold Pathfinder.resolve
  split
  · cases hwaiting : p.waiting.get? url with
    | some tickets => exact fun hregistered => Or.inl hregistered
    | none =>
        have habsent : url ∉ p.registered :=
          mt (h.kept.matched url).1 (Table.get?_eq_none_iff.1 hwaiting)
        have hmoves := moves_requested habsent
        dsimp only
        cases hfailure : (p.requested url).2 with
        | none =>
            rw [start_of_granted hfailure]
            rintro ⟨origin, horigin⟩
            by_cases hne : id = p.walkers.length
            · obtain ⟨new, hnew, -, hfresh, -⟩ := h.kept.requested url
              exact Or.inr ⟨Nat.le_of_eq hne.symm, by simp [stage?, hne, hnew, hfresh]⟩
            · exact Or.inl ⟨origin, (hmoves.registered_iff id hne origin).1 horigin⟩
        | some failure =>
            have hall := hmoves.trans (moves_forget _ p.walkers.length)
            obtain ⟨w, hw, -, -, honly, hunderway⟩ := h.kept.requested url
            obtain ⟨hforgotten, -⟩ := forget_of_ended hw honly hunderway.ended
            rw [start_of_refused hfailure]
            intro hregistered
            have hne : id ≠ p.walkers.length := fun heq => hforgotten (heq ▸ hregistered)
            obtain ⟨origin, horigin⟩ := hregistered
            exact Or.inl ⟨origin, (hall.registered_iff id hne origin).1 horigin⟩
  · exact fun hregistered => Or.inl hregistered

theorem Resting.stage_act (h : Resting rules heard True p) (hdrain : action ≠ .drain)
    (hregistered : (p.act rules action).1.IsRegistered id) :
    (p.IsRegistered id ∧ (p.act rules action).1.stage? id = p.stage? id) ∨
      (p.walkers.length ≤ id ∧ (p.act rules action).1.stage? id = some .fresh) := by
  have hclose : action ≠ .close := by
    rintro rfl
    exact h.kept.not_isRegistered_close trivial id hregistered
  have hbefore : p.IsRegistered id ∨
      p.walkers.length ≤ id ∧ (p.act rules action).1.stage? id = some .fresh := by
    cases action with
    | attach =>
        revert hregistered
        simp only [Pathfinder.act, attach]
        split <;> exact Or.inl
    | close => contradiction
    | resolve url =>
        rw [act_resolve] at hregistered ⊢
        exact h.isRegistered_of_resolve url hregistered
    | deliver response =>
        simp only [Pathfinder.act] at hregistered
        rw [deliver_eq] at hregistered
        exact Or.inl hregistered
    | cancel ticket => exact Or.inl hregistered
    | refuseRequests refusing => exact Or.inl hregistered
    | answerAtOnce url response? => exact Or.inl hregistered
    | advance span => exact Or.inl hregistered
    | drain => contradiction
  refine hbefore.imp_left ?_
  rintro ⟨origin, horigin⟩
  obtain ⟨w, hw, -⟩ := h.kept.exists_of_registered horigin
  obtain ⟨responses, hafter⟩ := @Resting.walker_act rules heard True p id w action h hdrain hclose hw
  exact ⟨⟨origin, horigin⟩, by simp [stage?, hw, hafter]⟩

theorem Resting.kept_allMoved (h : Resting rules heard closed p) :
    (p.allMoved rules).Kept rules heard closed [] :=
  (h.kept.moved h.paced.nodup (List.append_nil _).symm).1

theorem registered_allMoved (rules : Rules) (p : Pathfinder) :
    (p.allMoved rules).pathfinder.registered = p.registered := by
  rw [allMoved, Turn.pathfinder_foldl_step]

theorem drain_eq_of_timed (htimed : rules.timeout = some limit) :
    p.drain rules =
      { (p.allMoved rules).conclude.registered.values.foldl (expire rules)
          (p.allMoved rules).conclude with queue := [] } :=
  drain_of_timed htimed

theorem Resting.isRegistered_drain_iff (h : Resting rules heard closed p)
    (htimed : rules.timeout = some limit) {origin : String}
    (horigin : p.registered.get? origin = some id)
    (hw : (p.allMoved rules).pathfinder.walkers[id]? = some w) :
    ((p.drain rules).IsRegistered id ↔
      id ∉ (p.allMoved rules).endedIds ∧ ¬ w.isOverdue rules p.clock = true) ∧
    ((p.drain rules).IsRegistered id → (p.drain rules).walkers[id]? = some w) := by
  have hregistered : (p.allMoved rules).pathfinder.IsRegistered id :=
    ⟨origin, (registered_allMoved rules p).symm ▸ horigin⟩
  obtain ⟨hremains, hspared⟩ := h.kept_allMoved.remains_iff htimed hw hregistered
  rw [clock_allMoved] at hremains
  rw [drain_eq_of_timed htimed]
  exact ⟨hremains, fun hlast => (hspared hlast).walker_eq.trans hw⟩

theorem Resting.isRegistered_of_drain (h : Resting rules heard closed p)
    (htimed : rules.timeout = some limit) (hregistered : (p.drain rules).IsRegistered id) :
    p.IsRegistered id := by
  rw [drain_eq_of_timed htimed] at hregistered
  obtain ⟨origin, horigin⟩ := (h.kept_allMoved.kept.foldl_finish _).2.2 id
    (isRegistered_of_foldl_expire hregistered)
  exact ⟨origin, registered_allMoved rules p ▸ horigin⟩

theorem Resting.stage_drain (h : Resting rules heard closed p) (htimed : rules.timeout = some limit)
    (hregistered : (p.drain rules).IsRegistered id) :
    p.IsRegistered id ∧ ∃ deadline, (p.drain rules).stage? id = some (.walking deadline) ∧
      (∀ time ∈ deadline, ¬ rules.timer.isDue time p.clock = true) ∧
        (p.stage? id = some (.walking deadline) ∨
          p.stage? id = some .fresh ∧ ¬ limit ≤ 0 ∧ deadline = some (p.clock + limit)) := by
  have hbefore := h.isRegistered_of_drain htimed hregistered
  refine ⟨hbefore, ?_⟩
  obtain ⟨origin, horigin⟩ := hbefore
  obtain ⟨w, hw, -, hgoing, hdue⟩ := h.exists_stage horigin
  obtain ⟨after, hafter, -⟩ := h.kept_allMoved.kept.exists_of_registered
    ((registered_allMoved rules p).symm ▸ horigin)
  obtain ⟨hremains, hlast⟩ := h.isRegistered_drain_iff htimed horigin hafter
  obtain ⟨hunended, htimely⟩ := hremains.1 hregistered
  have hintime : w.stage = .fresh → ¬ limit ≤ 0 := by
    intro hfresh hlate
    have hending := (ends_iff_of_late htimed h.paced.nodup (hdue hfresh) hw hfresh hlate _).2 rfl
    exact hunended (List.mem_map.2 ⟨_, hending, rfl⟩)
  obtain ⟨after', hafter', hstage⟩ := stage_allMoved htimed h.paced.nodup hw hgoing hdue hintime
  obtain rfl := Option.some.inj (hafter.symm.trans hafter')
  have hkeeps : ∀ deadline, (w.started rules p.clock).stage = .walking deadline →
      (p.drain rules).stage? id = some (.walking deadline) ∧
        ∀ time ∈ deadline, ¬ rules.timer.isDue time p.clock = true := by
    intro deadline hstarted
    rw [hstarted] at hstage
    refine ⟨by simp [stage?, hlast hregistered, hstage], ?_⟩
    rintro time rfl
    rw [isOverdue_of_walking hstage] at htimely
    exact htimely
  rcases hgoing with hfresh | ⟨deadline, hwalking⟩
  · obtain ⟨hdrained, hleft⟩ := hkeeps _ (stage_started_of_fresh htimed hfresh p.clock)
    exact ⟨_, hdrained, hleft, Or.inr ⟨by simp [stage?, hw, hfresh], hintime hfresh, rfl⟩⟩
  · have hstarted : (w.started rules p.clock).stage = .walking deadline := by
      rw [started_of_walking hwalking, hwalking]
    obtain ⟨hdrained, hleft⟩ := hkeeps _ hstarted
    exact ⟨_, hdrained, hleft, Or.inl (by simp [stage?, hw, hwalking])⟩

/-- Each registered walker either has not set out so far, or has set out once and has the deadline
that it was given then. -/
structure Dated (rules : Rules) (limit : Seconds) (start : Pathfinder) (actions : List Action) :
    Prop where
  lt : ∀ id clock, SetsOutAt rules start actions id clock →
    id < (start.run rules actions).walkers.length
  fresh : ∀ id, (start.run rules actions).IsRegistered id →
    (start.run rules actions).stage? id = some .fresh →
      ∀ clock, ¬ SetsOutAt rules start actions id clock
  walking : ∀ id deadline, (start.run rules actions).IsRegistered id →
    (start.run rules actions).stage? id = some (.walking deadline) →
      ¬ limit ≤ 0 ∧ ∃ clock, deadline = some (clock + limit) ∧
        SetsOutOnce rules start actions id clock

theorem Resting.dated_concat (h : Resting rules heard True (start.run rules actions))
    (htimed : rules.timeout = some limit) (hdated : Dated rules limit start actions)
    (action : Action) : Dated rules limit start (actions ++ [action]) := by
  have hlength := length_walkers_le_act rules (start.run rules actions) action
  have hlt : ∀ id, (start.run rules actions).IsRegistered id →
      id < (start.run rules actions).walkers.length := by
    intro id ⟨origin, horigin⟩
    obtain ⟨w, hw, -⟩ := h.kept.exists_of_registered horigin
    exact (List.getElem?_eq_some_iff.1 hw).1
  refine ⟨?_, ?_, ?_⟩
  · intro id clock hsets
    rw [run_concat]
    rcases setsOutAt_concat_iff.1 hsets with hbefore | ⟨-, hregistered, -⟩
    · exact Nat.lt_of_lt_of_le (hdated.lt id clock hbefore) hlength
    · exact Nat.lt_of_lt_of_le (hlt id hregistered) hlength
  · intro id hregistered hfresh clock hsets
    rw [run_concat] at hregistered hfresh
    by_cases hdrain : action = .drain
    · rw [hdrain] at hregistered hfresh
      obtain ⟨-, deadline, hwalking, -⟩ := h.stage_drain htimed hregistered
      rw [Pathfinder.act, hwalking] at hfresh
      simp at hfresh
    · have hbefore := (setsOutAt_concat_iff.1 hsets).resolve_right fun hnow => hdrain hnow.1
      rcases h.stage_act hdrain hregistered with ⟨hold, hsame⟩ | ⟨hnew, -⟩
      · exact hdated.fresh id hold (hsame ▸ hfresh) clock hbefore
      · exact absurd (hdated.lt id clock hbefore) (Nat.not_lt.2 hnew)
  · intro id deadline hregistered hwalking
    rw [run_concat] at hregistered hwalking
    by_cases hdrain : action = .drain
    · subst hdrain
      obtain ⟨hold, deadline', hwalking', -, hcase⟩ := h.stage_drain htimed hregistered
      obtain rfl : deadline = deadline' := by
        rw [Pathfinder.act, hwalking'] at hwalking
        simpa using hwalking.symm
      rcases hcase with hsame | ⟨hfresh, htimely, hdeadline⟩
      · obtain ⟨htimely, clock, hdeadline, honce⟩ := hdated.walking id deadline hold hsame
        exact ⟨htimely, clock, hdeadline, honce.concat fun _ => by simp [hsame]⟩
      · exact ⟨htimely, _, hdeadline, setsOutOnce_drain hold hfresh (hdated.fresh id hold hfresh)⟩
    · rcases h.stage_act hdrain hregistered with ⟨hold, hsame⟩ | ⟨-, hfresh⟩
      · obtain ⟨htimely, clock, hdeadline, honce⟩ :=
          hdated.walking id deadline hold (hsame ▸ hwalking)
        exact ⟨htimely, clock, hdeadline, honce.concat fun heq => absurd heq hdrain⟩
      · rw [hwalking] at hfresh
        simp at hfresh

theorem dated_run (htimed : rules.timeout = some limit) (answer? : String → Option Response)
    (actions : List Action) : Dated rules limit (onWeb { answer? := answer? }) actions := by
  induction actions using List.reverseRecOn with
  | nil =>
      refine ⟨?_, ?_, ?_⟩
      · rintro id clock ⟨before, after, hnil, -⟩
        simp at hnil
      · rintro id ⟨origin, horigin⟩
        simp [run, onWeb] at horigin
      · rintro id deadline ⟨origin, horigin⟩
        simp [run, onWeb] at horigin
  | append_singleton actions action ih =>
      have hresting : Resting rules (fun _ => True) True
          ((onWeb { answer? := answer? }).run rules actions) :=
        resting_run rules answer? fun _ => trivial
      exact hresting.dated_concat htimed ih action

end LinkTrail.Pathfinder
