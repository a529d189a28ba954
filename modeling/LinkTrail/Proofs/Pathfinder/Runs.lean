import LinkTrail.Pathfinder.Action
import LinkTrail.Proofs.Pathfinder.Turns
import Mathlib.Data.List.Nodup

/-!
Runs. Main statement: what holds of a new pathfinder between two actions holds after any number of
actions (`Resting.run`).
-/

namespace LinkTrail

def Response.redirect (url location : String) : Response :=
  { url := url, headers := Table.empty.insert "Location" location }

theorem Response.location?_redirect (url location : String) :
    (redirect url location).location? = some location := by
  simp [redirect, location?, Headers.find?, Table.get?_insert]

namespace Pathfinder

variable {rules : Rules} {heard : Response → Prop} {closed : Prop} {p q : Pathfinder}
  {id : WalkerId}

structure Paced (p : Pathfinder) : Prop where
  nodup : p.queue.Nodup
  lt : ∀ id ∈ p.queue, id < p.walkers.length
  awake : ∀ id ∈ p.queue, ∀ w, p.walkers[id]? = some w → w.isWaiting = false

theorem Paced.of_empty (h : p.queue = []) : p.Paced := by
  refine ⟨?_, ?_, ?_⟩ <;> simp [h]

theorem Paced.congr (h : p.Paced) (hwalkers : q.walkers = p.walkers) (hqueue : q.queue = p.queue) :
    q.Paced := by
  obtain ⟨nodup, lt, awake⟩ := h
  rw [← hwalkers, ← hqueue] at *
  exact ⟨nodup, lt, awake⟩

theorem Paced.of_moves (h : p.Paced) (hqueue : q.queue = p.queue)
    (hlength : q.walkers.length = p.walkers.length)
    (hothers : ∀ other, other ≠ id → q.walkers[other]? = p.walkers[other]?)
    (hself : ∀ w, q.walkers[id]? = some w → w.isWaiting = false) : q.Paced where
  nodup := hqueue ▸ h.nodup
  lt := by
    rw [hqueue, hlength]
    exact h.lt
  awake := by
    intro other hmem w hw
    by_cases hne : other = id
    · exact hself w (hne ▸ hw)
    · exact h.awake other (hqueue ▸ hmem) w (hothers other hne ▸ hw)

theorem isWaiting_of_dismissed (w after : Walker) :
    ({ after with stage := w.dismissedStage } : Walker).isWaiting = false := by
  unfold Walker.dismissedStage Walker.isWaiting
  split
  · rename_i heq
    split at heq
    · split at heq <;> contradiction
    · contradiction
  · rfl

theorem Paced.dismiss (h : p.Paced) (id : WalkerId) : (p.dismiss id).Paced := by
  cases hw : p.walkers[id]? with
  | none =>
      rw [dismiss_of_none hw]
      exact h
  | some w =>
      have hothers := (moves_dismiss p id).walker_eq
      obtain ⟨hlt, -⟩ := List.getElem?_eq_some_iff.1 hw
      by_cases hregistered : p.registered.get? w.trail.origin = some id
      · rw [dismiss_of_registered hw hregistered] at hothers ⊢
        refine h.of_moves rfl ?_ hothers ?_
        · simp [complete]
        · intro after hafter
          simp only [complete, List.getElem?_set_self hlt, Option.some.injEq] at hafter
          rw [← hafter]
          exact isWaiting_of_dismissed w _
      · rw [dismiss_of_not_registered hw hregistered] at hothers ⊢
        refine h.of_moves rfl ?_ hothers ?_
        · simp [mapWalker]
        · intro after hafter
          rw [getElem?_mapWalker_self, hw] at hafter
          rw [← Option.some.inj hafter]
          exact isWaiting_of_dismissed w _

theorem queue_close (p : Pathfinder) : p.close.queue = p.queue := by
  refine close_induction (motive := fun q => q.queue = p.queue) p rfl ?_ ?_
  · intro q id hq
    rw [dismiss_eq]
    exact hq
  · exact fun q hq => hq

theorem Paced.close (h : p.Paced) : p.close.Paced := by
  apply close_induction p h
  · exact fun q id hq => hq.dismiss id
  · exact fun q hq => hq.congr rfl rfl

theorem Paced.receive (h : p.Paced) (response : Response) (id : WalkerId) :
    (p.receive response id).Paced := by
  have hself : ∀ w, (p.receive response id).walkers[id]? = some w → w.isWaiting = false := by
    intro after hafter
    rw [receive_eq, List.getElem?_modify_eq] at hafter
    obtain ⟨w, -, rfl⟩ := Option.map_eq_some_iff.1 hafter
    unfold Walker.isWaiting
    split
    · simp
    · rfl
  have hothers : ∀ other, other ≠ id →
      (p.receive response id).walkers[other]? = p.walkers[other]? := by
    intro other hne
    rw [receive_eq, List.getElem?_modify_ne _ _ (Ne.symm hne)]
  have hlength : (p.receive response id).walkers.length = p.walkers.length := by
    rw [receive_eq, List.length_modify]
  -- A walker comes into the queue only if it waits, and then it was not there.
  cases hwaiting : p.walkers[id]?.any Walker.isWaiting with
  | false =>
      refine h.of_moves ?_ hlength hothers hself
      rw [receive_eq, hwaiting]
      rfl
  | true =>
      obtain ⟨w, hw, hwaits⟩ := (Option.any_eq_true _ _).1 hwaiting
      obtain ⟨hlt, -⟩ := List.getElem?_eq_some_iff.1 hw
      have hnew : id ∉ p.queue := by
        intro hmem
        rw [h.awake id hmem w hw] at hwaits
        contradiction
      have hqueue : (p.receive response id).queue = p.queue ++ [id] := by
        rw [receive_eq, hwaiting]
        rfl
      refine ⟨?_, ?_, ?_⟩
      · rw [hqueue]
        rw [← List.concat_eq_append]
        exact h.nodup.concat hnew
      · rw [hqueue, hlength]
        intro other hmem
        rcases List.mem_append.1 hmem with hmem | hmem
        · exact h.lt other hmem
        · rw [List.mem_singleton.1 hmem]
          exact hlt
      · rw [hqueue]
        intro other hmem after hafter
        by_cases hne : other = id
        · exact hself after (hne ▸ hafter)
        · have hold := (List.mem_append.1 hmem).resolve_right fun hlast =>
            hne (List.mem_singleton.1 hlast)
          exact h.awake other hold after (hothers other hne ▸ hafter)

theorem Paced.deliver (h : p.Paced) (response : Response) : (p.deliver response).Paced := by
  unfold Pathfinder.deliver
  split
  · split
    · exact h
    · refine List.foldlRecOn _ _ (h.congr rfl rfl) ?_
      exact fun q hq id _ => hq.receive response id
  · exact h

theorem Paced.start {ended todo : List WalkerId} (h : p.Paced)
    (hkept : p.Kept rules heard closed ended todo) {url : String} (habsent : url ∉ p.registered) :
    (p.start url).2.Paced := by
  obtain ⟨w, hw, -, hstage, -⟩ := hkept.requested url
  have hmoves := moves_requested habsent
  cases hfailure : (p.requested url).2 with
  | none =>
      rw [start_of_granted hfailure]
      refine ⟨?_, ?_, ?_⟩
      · rw [queue_requested]
        rw [← List.concat_eq_append]
        exact h.nodup.concat fun hmem => Nat.lt_irrefl _ (h.lt _ hmem)
      · intro other hmem
        rw [queue_requested, List.mem_append, List.mem_singleton] at hmem
        rw [length_requested]
        rcases hmem with hmem | heq
        · exact Nat.lt_succ_of_lt (h.lt other hmem)
        · rw [heq]
          exact Nat.lt_succ_self _
      · intro other hmem after hafter
        rw [queue_requested, List.mem_append, List.mem_singleton] at hmem
        rcases hmem with hmem | heq
        · have hold := hmoves.walker_eq other (Nat.ne_of_lt (h.lt other hmem))
          exact h.awake other hmem after (hold ▸ hafter)
        · rw [heq, hw] at hafter
          simp [← Option.some.inj hafter, Walker.isWaiting, hstage]
  | some failure =>
      have hall := hmoves.trans (moves_forget _ p.walkers.length)
      rw [start_of_refused hfailure]
      have hwalkers : ∀ other, other < p.walkers.length →
          (((p.requested url).1.forget p.walkers.length).1.walkers.take
            p.walkers.length)[other]? = p.walkers[other]? := by
        intro other hlt
        rw [List.getElem?_take_of_lt hlt]
        exact hall.walker_eq other (Nat.ne_of_lt hlt)
      have hqueue : ((p.requested url).1.forget p.walkers.length).1.queue = p.queue := by
        rw [queue_forget, queue_requested]
      refine ⟨?_, ?_, ?_⟩
      · rw [hqueue]
        exact h.nodup
      · intro other hmem
        have hlt := h.lt other (hqueue ▸ hmem)
        have hget := hwalkers other hlt
        rw [List.getElem?_eq_getElem hlt] at hget
        exact (List.getElem?_eq_some_iff.1 hget).1
      · intro other hmem after hafter
        have hold := hqueue ▸ hmem
        exact h.awake other hold after (hwalkers other (h.lt other hold) ▸ hafter)

theorem Paced.resolve {ended todo : List WalkerId} (h : p.Paced)
    (hkept : p.Kept rules heard closed ended todo) (url : String) : (p.resolve url).2.Paced := by
  unfold Pathfinder.resolve
  split
  · cases hwaiting : p.waiting.get? url with
    | none =>
        apply h.start hkept
        rw [hkept.matched]
        exact Table.get?_eq_none_iff.1 hwaiting
    | some tickets => exact h.congr rfl rfl
  · exact h

theorem act_resolve (rules : Rules) (p : Pathfinder) (url : String) :
    (p.act rules (.resolve url)).1 = (p.resolve url).2 := by
  unfold act
  dsimp only
  split <;> rename_i hresolved <;> rw [hresolved]

def Action.IsWithin (heard : Response → Prop) (closed : Prop) : Action → Prop
  | deliver response => heard response
  | answerAtOnce url response? =>
      ∀ response ∈ response?, heard { response with url := url }
  | close => closed
  | _ => True

theorem isWithin_all (action : Action) : action.IsWithin (fun _ => True) True := by
  cases action <;> simp [Action.IsWithin]

structure Resting (rules : Rules) (heard : Response → Prop) (closed : Prop) (p : Pathfinder) :
    Prop where
  kept : p.Kept rules heard closed [] p.queue
  paced : p.Paced

theorem Resting.onWeb {web : Web}
    (hweb : ∀ url response, web.answer? url = some response →
      heard { response with url := url }) : Resting rules heard closed (onWeb web) := by
  have hunregistered : ∀ id, ¬ (Pathfinder.onWeb web).IsRegistered id := by
    intro id ⟨origin, horigin⟩
    simp [Pathfinder.onWeb] at horigin
  refine ⟨⟨?_, ?_, fun _ => Iff.rfl, hweb⟩, .of_empty rfl⟩
  · exact fun id => .absent rfl (hunregistered id) fun _ => rfl
  · intro url
    simp [Pathfinder.onWeb]

theorem Resting.act (h : Resting rules heard closed p) {action : Action}
    (haction : action.IsWithin heard closed) :
    Resting rules heard closed (p.act rules action).1 := by
  have hsame : ∀ other ∈ p.queue, other ∈ p.queue := fun _ hmem => hmem
  cases action with
  | attach =>
      simp only [Pathfinder.act, Pathfinder.attach]
      split
      · exact h
      · exact ⟨h.kept.congr rfl rfl rfl h.kept.matched h.kept.answers hsame, h.paced.congr rfl rfl⟩
  | close =>
      have hkept := h.kept.close haction
      refine ⟨hkept.congr rfl rfl rfl hkept.matched hkept.answers ?_, h.paced.close⟩
      rw [Pathfinder.act, queue_close]
      exact hsame
  | resolve url =>
      rw [act_resolve]
      exact ⟨h.kept.resolve url, h.paced.resolve h.kept url⟩
  | deliver response => exact ⟨h.kept.deliver haction, h.paced.deliver response⟩
  | cancel ticket =>
      exact ⟨h.kept.congr rfl rfl rfl h.kept.matched h.kept.answers hsame, h.paced.congr rfl rfl⟩
  | refuseRequests refusing =>
      exact ⟨h.kept.congr rfl rfl rfl h.kept.matched h.kept.answers hsame, h.paced.congr rfl rfl⟩
  | answerAtOnce url response? =>
      refine ⟨h.kept.congr rfl rfl rfl h.kept.matched ?_ hsame, h.paced.congr rfl rfl⟩
      intro other response hanswer
      simp only [Pathfinder.act, Pathfinder.web] at hanswer
      split at hanswer
      · rename_i heq
        rw [heq]
        exact haction response hanswer
      · exact h.kept.answers other response hanswer
  | advance span =>
      exact ⟨h.kept.congr rfl rfl rfl h.kept.matched h.kept.answers hsame, h.paced.congr rfl rfl⟩
  | drain => exact ⟨h.kept.drain h.paced.nodup, .of_empty rfl⟩

theorem length_walkers_finish (result : Except Failure String) :
    (p.finish id result).walkers.length = p.walkers.length := by
  cases hw : p.walkers[id]? with
  | none => rw [finish_of_none hw]
  | some w =>
      by_cases hregistered : p.registered.get? w.trail.origin = some id
      · rw [finish_of_registered hw hregistered]
        simp [complete]
      · rw [finish_of_not_registered hw hregistered]
        simp [mapWalker]

theorem length_walkers_dismiss : (p.dismiss id).walkers.length = p.walkers.length := by
  unfold dismiss
  split
  · rfl
  · simp [mapWalker, length_walkers_finish]

theorem length_walkers_expire : (p.expire rules id).walkers.length = p.walkers.length := by
  unfold expire
  split
  · split
    · exact length_walkers_finish _
    · rfl
  · rfl

theorem length_walkers_conclude (t : Turn) :
    t.conclude.walkers.length = t.pathfinder.walkers.length :=
  List.foldlRecOn (motive := fun q : Pathfinder => q.walkers.length = t.pathfinder.walkers.length)
    t.endings _ rfl fun _ hq _ _ => (length_walkers_finish _).trans hq

theorem length_walkers_step (t : Turn) :
    (t.step rules id).pathfinder.walkers.length = t.pathfinder.walkers.length := by
  have hstepped := Turn.stepped_step rules t id
  generalize t.step rules id = u at hstepped
  cases hstepped with
  | idle => rfl
  | late => rfl
  | moved => simp

theorem length_walkers_drain : (p.drain rules).walkers.length = p.walkers.length := by
  unfold drain drainTimed drainUntimed
  dsimp only
  split
  · refine List.foldlRecOn (motive := fun q : Pathfinder => q.walkers.length = p.walkers.length)
      _ _ ?_ fun _ hq _ _ => length_walkers_expire.trans hq
    rw [length_walkers_conclude]
    exact List.foldlRecOn (motive := fun t : Turn => t.pathfinder.walkers.length = p.walkers.length)
      _ _ rfl fun _ ht _ _ => (length_walkers_step _).trans ht
  · refine List.foldlRecOn (motive := fun q : Pathfinder => q.walkers.length = p.walkers.length)
      _ _ rfl fun _ hq _ _ => ?_
    rw [length_walkers_conclude, length_walkers_step]
    exact hq

theorem length_walkers_le_resolve (url : String) :
    p.walkers.length ≤ (p.resolve url).2.walkers.length := by
  unfold resolve
  split
  · split
    · exact Nat.le_refl _
    · have hrequested := length_requested p url
      cases hfailure : (p.requested url).2 with
      | none =>
          rw [start_of_granted hfailure]
          dsimp only
          omega
      | some failure =>
          have hforgotten : ((p.requested url).1.forget p.walkers.length).1.walkers.length =
              (p.requested url).1.walkers.length := by
            unfold forget
            split
            · rfl
            · dsimp only
              split
              · exact List.length_set
              · rfl
          rw [start_of_refused hfailure, List.length_take, hforgotten]
          omega
  · exact Nat.le_refl _

theorem length_walkers_deliver (response : Response) :
    (p.deliver response).walkers.length = p.walkers.length := by
  unfold deliver
  split
  · split
    · rfl
    · refine List.foldlRecOn (motive := fun q : Pathfinder => q.walkers.length = p.walkers.length)
        _ _ rfl fun q hq id _ => ?_
      rw [receive_eq, List.length_modify]
      exact hq
  · rfl

theorem length_walkers_le_act (rules : Rules) (p : Pathfinder) (action : Action) :
    p.walkers.length ≤ (p.act rules action).1.walkers.length := by
  cases action with
  | attach =>
      simp only [act, attach]
      split <;> exact Nat.le_refl _
  | close =>
      refine close_induction (motive := fun q => p.walkers.length ≤ q.walkers.length) p
        (Nat.le_refl _) ?_ fun _ hq => hq
      intro q id hq
      rw [length_walkers_dismiss]
      exact hq
  | resolve url =>
      rw [act_resolve]
      exact length_walkers_le_resolve url
  | deliver response => exact Nat.le_of_eq (length_walkers_deliver response).symm
  | drain => exact Nat.le_of_eq length_walkers_drain.symm
  | cancel ticket => exact Nat.le_refl _
  | refuseRequests refusing => exact Nat.le_refl _
  | answerAtOnce url response? => exact Nat.le_refl _
  | advance span => exact Nat.le_refl _

theorem web_resolve (p : Pathfinder) (url : String) :
    p.web.IsAskedMore (p.resolve url).2.web := by
  have hrequested : p.web.IsAskedMore (p.requested url).1.web :=
    (moves_ask (p.register url) p.walkers.length url).web
  unfold Pathfinder.resolve
  split
  · split
    · exact .refl p.web
    · cases hfailure : (p.requested url).2 with
      | none =>
          rw [start_of_granted hfailure]
          exact hrequested
      | some failure =>
          rw [start_of_refused hfailure]
          exact hrequested.trans (web_forget (p.requested url).1 p.walkers.length ▸ .refl _)
  · exact .refl p.web

theorem web_deliver (p : Pathfinder) (response : Response) :
    (p.deliver response).web = p.web := by
  unfold Pathfinder.deliver
  split
  · split
    · rfl
    · rw [foldl_receive_eq]
      rfl
  · rfl

theorem web_foldl_dismiss (ids : List WalkerId) (p : Pathfinder) :
    (ids.foldl dismiss p).web = p.web := by
  induction ids generalizing p with
  | nil => rfl
  | cons id ids ih =>
      rw [List.foldl_cons, ih]
      unfold dismiss
      split
      · rfl
      · exact web_finish _

theorem web_foldl_expire (rules : Rules) (ids : List WalkerId) (p : Pathfinder) :
    (ids.foldl (expire rules) p).web = p.web := by
  induction ids generalizing p with
  | nil => rfl
  | cons id ids ih =>
      rw [List.foldl_cons, ih]
      unfold expire
      split
      · split
        · exact web_finish _
        · rfl
      · rfl

theorem web_drain (rules : Rules) (p : Pathfinder) : p.web.IsAskedMore (p.drain rules).web := by
  have huntimed : ∀ (ids : List WalkerId) (q : Pathfinder), q.web.IsAskedMore
      (ids.foldl (fun p id => (Turn.step rules { pathfinder := p } id).conclude) q).web := by
    intro ids
    induction ids with
    | nil => exact fun q => .refl q.web
    | cons id ids ih =>
        intro q
        refine .trans ?_ (ih _)
        rw [web_conclude]
        exact (Turn.stepped_step rules { pathfinder := q } id).moves.web
  unfold Pathfinder.drain
  dsimp only
  split
  · have hweb : (p.drainTimed rules).web =
        (p.turnOrder.foldl (Turn.step rules) { pathfinder := p }).pathfinder.web := by
      rw [drainTimed, web_foldl_expire, web_conclude]
    exact hweb ▸ Turn.web_foldl_step rules p.turnOrder { pathfinder := p }
  · exact huntimed p.queue p

theorem refusing_act (rules : Rules) (p : Pathfinder) (action : Action) :
    (p.act rules action).1.web.refusing = p.web.refusing ∨
      ∃ refusing, action = .refuseRequests refusing ∧
        (p.act rules action).1.web.refusing = refusing := by
  cases action with
  | attach =>
      simp only [Pathfinder.act, attach]
      split <;> exact Or.inl rfl
  | close =>
      have hweb := congrArg Web.refusing (web_foldl_dismiss p.registered.values p)
      simp only [Pathfinder.act, Pathfinder.close]
      split
      · exact Or.inl hweb
      · exact Or.inl hweb
  | resolve url =>
      rw [act_resolve]
      exact Or.inl (web_resolve p url).refusing_eq
  | deliver response => exact Or.inl (congrArg Web.refusing (web_deliver p response))
  | cancel ticket => exact Or.inl rfl
  | refuseRequests refusing => exact Or.inr ⟨refusing, rfl, rfl⟩
  | answerAtOnce url response? => exact Or.inl rfl
  | advance span => exact Or.inl rfl
  | drain => exact Or.inl (web_drain rules p).refusing_eq

theorem run_append (rules : Rules) (p : Pathfinder) (before after : List Action) :
    p.run rules (before ++ after) = (p.run rules before).run rules after :=
  List.foldl_append

theorem run_concat (rules : Rules) (p : Pathfinder) (actions : List Action) (action : Action) :
    p.run rules (actions ++ [action]) = ((p.run rules actions).act rules action).1 :=
  run_append rules p actions [action]

theorem Resting.run (h : Resting rules heard closed p) {actions : List Action}
    (hactions : ∀ action ∈ actions, action.IsWithin heard closed) :
    Resting rules heard closed (p.run rules actions) := by
  induction actions generalizing p with
  | nil => exact h
  | cons action actions ih =>
      obtain ⟨haction, hactions⟩ := List.forall_mem_cons.1 hactions
      exact ih (h.act haction) hactions

theorem resting_run (rules : Rules) (answer? : String → Option Response) {actions : List Action}
    (hclosed : .close ∈ actions → closed) :
    Resting rules (fun _ => True) closed ((onWeb { answer? := answer? }).run rules actions) := by
  apply Resting.run (.onWeb fun _ _ _ => trivial)
  intro action hmem
  cases action with
  | close => exact hclosed hmem
  | _ => simp [Action.IsWithin]

end Pathfinder

end LinkTrail
