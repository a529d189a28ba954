import LinkTrail.Proofs.Pathfinder.Calls
import LinkTrail.Proofs.Pathfinder.Steps

namespace LinkTrail.Pathfinder

def Ends (rules : Rules) (heard : Response → Prop) (refusing : Bool) (origin : String)
    (result : Except Failure String) : Prop :=
  Walker.Yields rules heard refusing origin result ∨
    ∃ limit, rules.timeout = some limit ∧ result = .error (.timedOut origin limit)

namespace Turn

def endedIds (t : Turn) : List WalkerId := t.endings.map Ending.id

structure Kept (rules : Rules) (heard : Response → Prop) (closed : Prop) (todo : List WalkerId)
    (t : Turn) : Prop where
  kept : t.pathfinder.Kept rules heard closed t.endedIds todo
  ends : ∀ ending ∈ t.endings, ∀ origin,
    t.pathfinder.registered.get? origin = some ending.id →
      Ends rules heard t.pathfinder.web.refusing origin ending.result

variable {rules : Rules} {heard : Response → Prop} {closed : Prop} {todo : List WalkerId}
  {t : Turn} {id : WalkerId} {w : Walker}

theorem Kept.of_moves (h : Kept rules heard closed (id :: todo) t) {after : Turn}
    (result? : Option (Except Failure String))
    (moves : Moves id t.pathfinder after.pathfinder)
    (hendings : after.endings = t.endings ++ (result?.map (Ending.mk id)).toList)
    (hregistered : after.pathfinder.registered = t.pathfinder.registered)
    (hends : ∀ result ∈ result?, ∀ origin, t.pathfinder.registered.get? origin = some id →
      Ends rules heard t.pathfinder.web.refusing origin result)
    (hself : Fits rules heard closed after.endedIds todo after.pathfinder id) :
    Kept rules heard closed todo after where
  kept := by
    refine h.kept.of_moves moves ?_ ?_ hself
    · intro other hne
      simp only [endedIds, hendings, List.map_append, List.mem_append]
      cases result? with
      | none => simp
      | some result => simp [hne]
    · intro other hne hmem
      exact (List.mem_cons.1 hmem).resolve_left hne
  ends := by
    intro ending hmem origin horigin
    rw [moves.web.refusing_eq]
    rw [hregistered] at horigin
    rw [hendings, List.mem_append] at hmem
    rcases hmem with hmem | hmem
    · exact h.ends ending hmem origin horigin
    · obtain ⟨result, hresult, rfl⟩ := Option.map_eq_some_iff.1 (Option.mem_toList.1 hmem)
      exact hends result hresult origin horigin

theorem started_of_underway {places : String → Nat} {clock : Seconds}
    (hstage : w.stage = .fresh ∨ ∃ deadline, w.stage = .walking deadline)
    (h : w.Underway rules heard places) :
    (∃ deadline, (w.started rules clock).stage = .walking deadline) ∧
      (w.started rules clock).trail = w.trail ∧
      (w.started rules clock).Underway rules heard places := by
  unfold Walker.started
  rcases hstage with hfresh | ⟨deadline, hwalking⟩
  · rw [if_pos hfresh]
    exact ⟨⟨_, rfl⟩, rfl, h.led, h.place⟩
  · rw [if_neg (by simp [hwalking])]
    exact ⟨⟨deadline, hwalking⟩, rfl, h⟩

theorem Kept.step (h : Kept rules heard closed (id :: todo) t) (hid : id ∉ t.endedIds) :
    Kept rules heard closed todo (t.step rules id) := by
  have hstepped := stepped_step rules t id
  have hmoves := hstepped.moves
  generalize t.step rules id = u at *
  cases hstepped with
  | idle stage =>
      exact h.of_moves none hmoves (by simp) rfl (by simp) ((h.kept.fits id).of_gone hid stage)
  | @late w limit walker stage untimely =>
      have htimed : rules.timeout = some limit := (Option.filter_eq_some_iff.1 untimely).1
      rcases (h.kept.fits id).of_not_gone hid walker (by simp [stage]) with
        ⟨hleaving, -⟩ | ⟨-, hregistered, hunderway⟩
      · simp [stage] at hleaving
      · refine h.of_moves (some (.error (.timedOut w.trail.origin limit))) hmoves rfl rfl ?_ ?_
        · intro result hmem origin horigin
          cases hmem
          rw [(hregistered origin).1 horigin]
          exact Or.inr ⟨limit, htimed, rfl⟩
        · exact .ended walker hregistered (by simp [endedIds, Turn.ended]) hunderway.ended
  | @moved w after traffic result? walker stage timely proceed =>
      obtain ⟨hlt, -⟩ := List.getElem?_eq_some_iff.1 walker
      have walk := (w.started rules t.pathfinder.clock).walk_proceed rules id t.pathfinder.traffic
      rw [proceed] at walk
      have hafter : (t.pathfinder.walkers.set id after.settled)[id]? = some after.settled :=
        List.getElem?_set_self hlt
      rcases (h.kept.fits id).of_not_gone hid walker stage with
        ⟨hleaving, hclosed, hunregistered⟩ | ⟨hstage, hregistered, hunderway⟩
      -- A walker that was dismissed moves as well, but nobody is registered to be told of it.
      · have hgone : after.settled.stage = .gone := by
          have hstage : after.stage = .leaving := walk.stage_eq.trans (by
            simp [Walker.started, hleaving])
          simp [Walker.settled, hstage]
        refine h.of_moves result? hmoves rfl rfl ?_ ?_
        · intro result _ origin horigin
          exact absurd ⟨origin, horigin⟩ hunregistered
        · exact .gone hafter hunregistered hgone (Or.inl hclosed)
      · obtain ⟨⟨deadline, hwalking⟩, htrail, hstarted⟩ :=
          @started_of_underway rules heard w _ t.pathfinder.clock hstage hunderway
        have hstage : after.stage = .walking deadline := walk.stage_eq.trans hwalking
        have hsettled : after.settled = after := if_neg (by simp [hstage])
        have horigin : after.trail.origin = w.trail.origin :=
          walk.origin_eq.trans (congrArg Trail.origin htrail)
        obtain ⟨hinbox, hresult⟩ := hstarted.walk walk h.kept.answersAtOnce
        rw [hsettled] at hafter
        rw [← horigin] at hregistered
        refine h.of_moves result? hmoves rfl rfl ?_ ?_
        · intro result hmem origin hget
          cases hmem
          rw [(hregistered origin).1 hget, horigin, ← htrail]
          exact Or.inl hresult.2
        · cases result? with
          | none =>
              rw [hsettled]
              refine .walking hafter hregistered ?_ hstage (Or.inl hinbox) hresult
              simpa [endedIds] using hid
          | some result =>
              rw [hsettled]
              exact .ended hafter hregistered (by simp [endedIds]) hresult.1

theorem Kept.foldl_step {moved rest : List WalkerId}
    (h : Kept rules heard closed (moved ++ rest) t) (hnodup : (moved ++ rest).Nodup)
    (hgoing : ∀ id ∈ moved ++ rest, id ∉ t.endedIds) :
    Kept rules heard closed rest (moved.foldl (Turn.step rules) t) ∧
      ∀ id ∈ rest, id ∉ (moved.foldl (Turn.step rules) t).endedIds := by
  induction moved generalizing t with
  | nil => exact ⟨h, hgoing⟩
  | cons id moved ih =>
      obtain ⟨hid, hnodup⟩ := List.nodup_cons.1 hnodup
      apply ih (h.step (hgoing id List.mem_cons_self)) hnodup
      intro other hother hended
      obtain ⟨result?, hendings⟩ := (stepped_step rules t id).endings_eq
      simp only [endedIds, hendings, List.map_append, List.mem_append] at hended
      rcases hended with hmem | hmem
      · exact hgoing other (List.mem_cons_of_mem id hother) hmem
      · cases result? with
        | none => simp at hmem
        | some result =>
            have heq : other = id := List.mem_singleton.1 hmem
            exact hid (heq ▸ hother)

end Turn

variable {rules : Rules} {heard : Response → Prop} {closed : Prop}
  {ended todo : List WalkerId} {p : Pathfinder}

theorem Kept.foldl_finish (h : Kept rules heard closed ended todo p) (endings : List Ending) :
    Kept rules heard closed ended todo
        (endings.foldl (fun p ending => p.finish ending.id ending.result) p) ∧
      (∀ ending ∈ endings, ¬ (endings.foldl
        (fun p ending => p.finish ending.id ending.result) p).IsRegistered ending.id) ∧
      ∀ id, (endings.foldl
        (fun p ending => p.finish ending.id ending.result) p).IsRegistered id →
          p.IsRegistered id := by
  induction endings generalizing p with
  | nil => exact ⟨h, by simp, fun _ hid => hid⟩
  | cons first endings ih =>
      obtain ⟨hkept, hconcluded, hsubset⟩ := ih (h.finish first.id first.result)
      refine ⟨hkept, ?_, ?_⟩
      · intro ending hmem
        rcases List.mem_cons.1 hmem with heq | hrest
        · rw [heq]
          exact fun hid => h.not_isRegistered_finish first.id first.result (hsubset _ hid)
        · exact hconcluded ending hrest
      · intro id hid
        obtain ⟨origin, horigin⟩ := hsubset id hid
        exact ⟨origin, registered_of_finish horigin⟩

theorem web_foldl_finish (endings : List Ending) (p : Pathfinder) :
    (endings.foldl (fun p ending => p.finish ending.id ending.result) p).web = p.web := by
  induction endings generalizing p with
  | nil => rfl
  | cons first endings ih => exact (ih _).trans (web_finish first.result)

theorem web_conclude (t : Turn) : t.conclude.web = t.pathfinder.web :=
  web_foldl_finish t.endings t.pathfinder

theorem Turn.Kept.conclude {t : Turn} (h : t.Kept rules heard closed todo) :
    t.conclude.Kept rules heard closed [] todo := by
  obtain ⟨hkept, hconcluded, -⟩ := h.kept.foldl_finish t.endings
  apply hkept.forget_ended
  intro id hid
  obtain ⟨ending, hmem, rfl⟩ := List.mem_map.1 hid
  exact hconcluded ending hmem

theorem Kept.expire (h : Kept rules heard closed ended todo p) (id : WalkerId) :
    Kept rules heard closed ended todo (p.expire rules id) := by
  unfold Pathfinder.expire
  split
  · split
    · exact h.finish id _
    · exact h
  · exact h

theorem Kept.begin (h : Kept rules heard closed [] todo p) :
    Turn.Kept rules heard closed todo { pathfinder := p } := by
  refine ⟨h, ?_⟩
  intro ending hmem
  exact absurd hmem List.not_mem_nil

theorem mem_turnOrder_iff (p : Pathfinder) (id : WalkerId) :
    id ∈ p.turnOrder ↔ id ∈ p.queue := by
  simp only [turnOrder, List.partition_eq_filter_filter, List.mem_append, List.mem_filter,
    Function.comp_apply, Bool.not_eq_true', decide_eq_false_iff_not, decide_eq_true_eq]
  tauto

theorem nodup_turnOrder (h : p.queue.Nodup) : p.turnOrder.Nodup := by
  simp only [turnOrder, List.partition_eq_filter_filter, List.nodup_append]
  refine ⟨h.filter _, h.filter _, ?_⟩
  intro id hid other hother heq
  simp_all

theorem Kept.foldl_expire (h : Kept rules heard closed ended todo p) (ids : List WalkerId) :
    Kept rules heard closed ended todo (ids.foldl (Pathfinder.expire rules) p) :=
  List.foldlRecOn ids _ h fun _ hq id _ => hq.expire id

theorem Kept.moved (h : Kept rules heard closed [] p.queue p) (hnodup : p.queue.Nodup)
    {moved rest : List WalkerId} (horder : p.turnOrder = moved ++ rest) :
    Turn.Kept rules heard closed rest (moved.foldl (Turn.step rules) { pathfinder := p }) ∧
      ∀ id ∈ rest, id ∉ (moved.foldl (Turn.step rules) { pathfinder := p }).endedIds := by
  have hdue : Kept rules heard closed [] (moved ++ rest) p :=
    h.congr rfl rfl rfl h.matched h.answers fun id hmem =>
      horder ▸ (mem_turnOrder_iff p id).2 hmem
  have hnodup := nodup_turnOrder hnodup
  rw [horder] at hnodup
  exact hdue.begin.foldl_step hnodup fun _ _ => List.not_mem_nil

theorem Kept.drainTimed (h : Kept rules heard closed [] p.queue p) (hnodup : p.queue.Nodup) :
    Kept rules heard closed [] [] (p.drainTimed rules) :=
  (h.moved hnodup (List.append_nil _).symm).1.conclude.foldl_expire _

theorem Kept.foldl_step_conclude {moved rest : List WalkerId}
    (h : Kept rules heard closed [] (moved ++ rest) p) :
    Kept rules heard closed [] rest
      (moved.foldl (fun p id => (Turn.step rules { pathfinder := p } id).conclude) p) := by
  induction moved generalizing p with
  | nil => exact h
  | cons id moved ih => exact ih (h.begin.step List.not_mem_nil).conclude

theorem Kept.drainUntimed (h : Kept rules heard closed [] p.queue p) :
    Kept rules heard closed [] [] (p.drainUntimed rules) := by
  apply Kept.foldl_step_conclude
  rw [List.append_nil]
  exact h

theorem Kept.drain (h : Kept rules heard closed [] p.queue p) (hnodup : p.queue.Nodup) :
    Kept rules heard closed [] (p.drain rules).queue (p.drain rules) := by
  unfold Pathfinder.drain
  dsimp only
  split
  · have hdrained := h.drainTimed hnodup
    exact hdrained.congr rfl rfl rfl hdrained.matched hdrained.answers fun _ hmem => hmem
  · have hdrained := h.drainUntimed
    exact hdrained.congr rfl rfl rfl hdrained.matched hdrained.answers fun _ hmem => hmem

end LinkTrail.Pathfinder
