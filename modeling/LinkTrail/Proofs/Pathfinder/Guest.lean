import Mathlib.Data.List.Basic
import LinkTrail.Proofs.Pathfinder.Renumber
import LinkTrail.Proofs.Pathfinder.Settling

/-!
A pathfinder without one of its callers. Main statement: whatever happens to a pathfinder happens in
the same way to the pathfinder without a guest, whose giving up goes unnoticed
(`act_without`, `cancel_guest_without`).
-/

namespace LinkTrail

namespace Ticket

def beside (guest ticket : Nat) : Nat := if ticket < guest then ticket else ticket + 1

def without (guest ticket : Nat) : Nat := if ticket < guest then ticket else ticket - 1

theorem without_eq_iff {guest ticket other : Nat} (hne : ticket ≠ guest) :
    without guest ticket = other ↔ ticket = beside guest other := by
  unfold without beside
  split <;> split <;> omega

theorem beside_ne (guest ticket : Nat) : beside guest ticket ≠ guest := by
  unfold beside
  split <;> omega

theorem without_of_lt {guest ticket : Nat} (h : ticket < guest) : without guest ticket = ticket :=
  if_pos h

theorem without_of_gt {guest ticket : Nat} (h : guest < ticket) :
    without guest ticket = ticket - 1 := if_neg (by omega)

def others (guest : Ticket) (tickets : List Ticket) : List Ticket :=
  (tickets.filter (· ≠ guest)).map (without guest)

theorem mem_others_iff {guest ticket : Ticket} {tickets : List Ticket} :
    ticket ∈ others guest tickets ↔ beside guest ticket ∈ tickets := by
  simp only [others, List.mem_map, List.mem_filter, decide_eq_true_eq]
  constructor
  · rintro ⟨other, ⟨hmem, hne⟩, heq⟩
    exact (without_eq_iff hne).1 heq ▸ hmem
  · intro hmem
    exact ⟨_, ⟨hmem, beside_ne guest ticket⟩, (without_eq_iff (beside_ne guest ticket)).2 rfl⟩

end Ticket

namespace Pathfinder

/-- The pathfinder as if the guest had not called. -/
def without (guest : Ticket) (p : Pathfinder) : Pathfinder :=
  { p with
    waiting := p.waiting.map (Ticket.others guest)
    callers := p.callers.eraseIdx guest }

def Action.beside (guest : Ticket) : Action → Action
  | cancel ticket => cancel (Ticket.beside guest ticket)
  | action => action

variable {rules : Rules} {guest : Ticket} {p : Pathfinder} {id : WalkerId}

theorem getElem?_eraseIdx_guest (callers : List Caller) (guest ticket : Ticket) :
    (callers.eraseIdx guest)[ticket]? = callers[Ticket.beside guest ticket]? := by
  rw [List.getElem?_eraseIdx, Ticket.beside]
  split <;> rfl

theorem getElem?_without (guest : Ticket) (p : Pathfinder) (ticket : Ticket) :
    (p.without guest).callers[ticket]? = p.callers[Ticket.beside guest ticket]? :=
  getElem?_eraseIdx_guest p.callers guest ticket

theorem complete_without (tickets : List Ticket) (outcome : Outcome) :
    (p.without guest).complete (Ticket.others guest tickets) outcome =
      (p.complete tickets outcome).without guest := by
  have hcallers : ((p.without guest).complete (Ticket.others guest tickets) outcome).callers =
      ((p.complete tickets outcome).without guest).callers := by
    apply List.ext_getElem?
    intro ticket
    rw [getElem?_complete, getElem?_without, getElem?_without, getElem?_complete]
    simp only [Ticket.mem_others_iff]
  unfold complete without at *
  dsimp only at *
  rw [hcallers]

theorem forget_without :
    (p.without guest).forget id =
      ((p.forget id).1.without guest, Ticket.others guest (p.forget id).2) := by
  cases hw : p.walkers[id]? with
  | none => rw [forget_of_none hw, @forget_of_none (p.without guest) id hw]; rfl
  | some w =>
      by_cases hregistered : p.registered.get? w.trail.origin = some id
      · rw [forget_of_registered hw hregistered,
          @forget_of_registered (p.without guest) id w hw hregistered]
        simp only [without, Table.map_erase, Table.get?_map]
        cases p.waiting.get? w.trail.origin <;> rfl
      · rw [forget_of_not_registered hw hregistered,
          @forget_of_not_registered (p.without guest) id w hw hregistered]
        rfl

theorem finish_without (result : Except Failure String) :
    (p.without guest).finish id result = (p.finish id result).without guest := by
  cases hw : p.walkers[id]? with
  | none => rw [finish_of_none hw, @finish_of_none (p.without guest) id hw]
  | some w =>
      rw [finish_of_some hw, @finish_of_some (p.without guest) id w hw, forget_without]
      dsimp only
      rw [complete_without]
      rfl

theorem dismiss_without : (p.without guest).dismiss id = (p.dismiss id).without guest := by
  have hwalkers : (p.without guest).walkers = p.walkers := rfl
  unfold dismiss
  rw [hwalkers]
  cases p.walkers[id]? with
  | none => rfl
  | some w =>
      dsimp only
      rw [finish_without]
      rfl

theorem expire_without : (p.without guest).expire rules id = (p.expire rules id).without guest := by
  have hwalkers : (p.without guest).walkers = p.walkers := rfl
  unfold expire
  rw [hwalkers]
  cases p.walkers[id]? with
  | none => rfl
  | some w =>
      cases rules.timeout with
      | none => rfl
      | some limit =>
          dsimp only
          rw [finish_without]
          exact (apply_ite (without guest) _ _ _).symm

theorem close_without : (p.without guest).close = p.close.without guest := by
  have hattached : ∀ q : Pathfinder, (q.without guest).attached = q.attached := fun _ => rfl
  have hregistered : (p.without guest).registered = p.registered := rfl
  have hdismissed : p.registered.values.foldl dismiss (p.without guest) =
      (p.registered.values.foldl dismiss p).without guest :=
    List.foldl_hom (without guest) fun _ _ => dismiss_without
  simp only [close, hregistered, hdismissed, hattached]
  split <;> rfl

theorem attach_without : (p.without guest).attach = p.attach.without guest := by
  have hattached : (p.without guest).attached = p.attached := rfl
  unfold attach
  rw [hattached]
  split <;> rfl

theorem length_without (hguest : guest < p.callers.length) :
    (p.without guest).callers.length = Ticket.without guest p.callers.length := by
  rw [without, List.length_eraseIdx_of_lt hguest, Ticket.without_of_gt hguest]

theorem others_singleton_length (hguest : guest < p.callers.length) :
    Ticket.others guest [p.callers.length] = [(p.without guest).callers.length] := by
  have hne : p.callers.length ≠ guest := Nat.ne_of_gt hguest
  simp [Ticket.others, hne, length_without hguest]

theorem requested_without (hguest : guest < p.callers.length) (url : String) :
    (p.without guest).requested url = ((p.requested url).1.without guest, (p.requested url).2) := by
  have hwalkers : (p.without guest).walkers = p.walkers := rfl
  have htraffic : (p.without guest).traffic = p.traffic := rfl
  have hsingle := others_singleton_length hguest
  rw [requested_eq, requested_eq, hwalkers, htraffic]
  simp only [register, without, Table.map_insert] at hsingle ⊢
  rw [hsingle]

theorem start_without (hguest : guest < p.callers.length) (url : String) :
    (p.without guest).start url =
      ((p.start url).1.map (Ticket.without guest), (p.start url).2.without guest) := by
  have hrequested := requested_without hguest url
  have hlength := length_without hguest
  have hcallers := callers_requested p url
  have hwalkers : (p.without guest).walkers = p.walkers := rfl
  cases hfailure : (p.requested url).2 with
  | none =>
      rw [start_of_granted hfailure,
        @start_of_granted (p.without guest) url (by rw [hrequested]; exact hfailure), hrequested,
        hwalkers]
      have heq : ((p.requested url).1.without guest).callers = (p.without guest).callers := by
        simp only [without, hcallers]
      simp only [without, Except.map, hcallers] at heq hlength ⊢
      rw [hlength, List.eraseIdx_append_of_lt_length hguest]
  | some failure =>
      rw [start_of_refused hfailure,
        @start_of_refused (p.without guest) url failure (by rw [hrequested]; exact hfailure),
        hrequested, hwalkers]
      dsimp only
      rw [forget_without]
      rfl

theorem resolve_without (hguest : guest < p.callers.length) (url : String) :
    (p.without guest).resolve url =
      ((p.resolve url).1.map (Ticket.without guest), (p.resolve url).2.without guest) := by
  have hattached : (p.without guest).attached = p.attached := rfl
  have hwaiting : (p.without guest).waiting.get? url =
      (p.waiting.get? url).map (Ticket.others guest) := Table.get?_map url
  simp only [resolve, hattached, hwaiting]
  split
  · cases p.waiting.get? url with
    | none => exact start_without hguest url
    | some tickets =>
        have hlength := length_without hguest
        have hsingle := others_singleton_length hguest
        have happend : Ticket.others guest (tickets ++ [p.callers.length]) =
            Ticket.others guest tickets ++ [(p.without guest).callers.length] := by
          rw [← hsingle]
          simp [Ticket.others]
        simp only [Option.map_some, Except.map, joinWaiting, without, Table.map_insert,
          List.eraseIdx_append_of_lt_length hguest] at hlength happend ⊢
        rw [happend, hlength]
  · rfl

theorem cancel_without (ticket : Ticket) :
    (p.without guest).cancel ticket = (p.cancel (Ticket.beside guest ticket)).without guest := by
  have hcallers : (p.callers.eraseIdx guest).modify ticket Caller.cancel =
      (p.callers.modify (Ticket.beside guest ticket) Caller.cancel).eraseIdx guest := by
    apply List.ext_getElem?
    intro other
    have hplace : Ticket.beside guest ticket = Ticket.beside guest other ↔ ticket = other := by
      rw [← Ticket.without_eq_iff (Ticket.beside_ne guest ticket),
        (Ticket.without_eq_iff (Ticket.beside_ne guest ticket)).2 rfl]
    rw [List.getElem?_modify, getElem?_eraseIdx_guest, getElem?_eraseIdx_guest, List.getElem?_modify]
    simp only [hplace]
  simp only [cancel, without, hcallers]

theorem cancel_guest_without : (p.cancel guest).without guest = p.without guest := by
  have hcallers : (p.callers.modify guest Caller.cancel).eraseIdx guest =
      p.callers.eraseIdx guest := by
    apply List.ext_getElem?
    intro ticket
    rw [getElem?_eraseIdx_guest, getElem?_eraseIdx_guest,
      List.getElem?_modify_ne _ _ (Ticket.beside_ne guest ticket).symm]
  simp only [cancel, without, hcallers]

theorem receive_without (response : Response) :
    (p.without guest).receive response id = (p.receive response id).without guest := by
  rw [receive_eq, receive_eq]
  rfl

theorem deliver_without (response : Response) :
    (p.without guest).deliver response = (p.deliver response).without guest := by
  have hfold : ∀ (ids : List WalkerId) (q : Pathfinder),
      ids.foldl (receive response) (q.without guest) =
        (ids.foldl (receive response) q).without guest := fun ids q =>
    List.foldl_hom (without guest) fun _ _ => receive_without response
  cases hheard : p.web.listeners.hears response.url with
  | false => rw [deliver_of_unheard hheard, @deliver_of_unheard (p.without guest) _ hheard]
  | true =>
      cases hwaiting : p.traffic.awaiting.get? response.url with
      | none => rw [deliver_of_unawaited hwaiting, @deliver_of_unawaited (p.without guest) _ hwaiting]
      | some waiting =>
          rw [deliver_of_awaited hheard hwaiting,
            @deliver_of_awaited (p.without guest) _ _ hheard hwaiting, ← hfold]
          rfl

def Turn.without (guest : Ticket) (t : Turn) : Turn :=
  { t with pathfinder := t.pathfinder.without guest }

theorem move_without (t : Turn) : (t.without guest).move rules id = (t.move rules id).without guest := by
  have hwalkers : (t.without guest).pathfinder.walkers = t.pathfinder.walkers := rfl
  have htraffic : (t.without guest).pathfinder.traffic = t.pathfinder.traffic := rfl
  unfold Turn.move
  rw [hwalkers, htraffic]
  split
  · rfl
  · dsimp only
    split <;> rfl

theorem setOut_without (t : Turn) :
    (t.without guest).setOut rules id = (t.setOut rules id).without guest := by
  have hwalkers : (t.without guest).pathfinder.walkers = t.pathfinder.walkers := rfl
  unfold Turn.setOut
  rw [hwalkers]
  split
  · rfl
  · split
    · rfl
    · dsimp only
      rw [← move_without]
      rfl

theorem step_without (t : Turn) :
    (t.without guest).step rules id = (t.step rules id).without guest := by
  have hstage : (t.without guest).pathfinder.stage? id = t.pathfinder.stage? id := rfl
  unfold Turn.step
  rw [hstage]
  split
  · exact setOut_without t
  · exact move_without t
  · exact move_without t
  · rfl

theorem conclude_without (t : Turn) : (t.without guest).conclude = t.conclude.without guest :=
  List.foldl_hom (without guest) fun _ ending => finish_without ending.result

theorem drainTimed_without :
    (p.without guest).drainTimed rules = (p.drainTimed rules).without guest := by
  have horder : (p.without guest).turnOrder = p.turnOrder := rfl
  have hbegin : ({ pathfinder := p.without guest } : Turn) = Turn.without guest { pathfinder := p } :=
    rfl
  have hmoved : ∀ (ids : List WalkerId) (t : Turn),
      ids.foldl (Turn.step rules) (t.without guest) =
        (ids.foldl (Turn.step rules) t).without guest :=
    fun _ _ => List.foldl_hom (Turn.without guest) fun t _ => step_without t
  have hexpired : ∀ (ids : List WalkerId) (q : Pathfinder),
      ids.foldl (expire rules) (q.without guest) = (ids.foldl (expire rules) q).without guest :=
    fun _ _ => List.foldl_hom (without guest) fun _ _ => expire_without
  unfold drainTimed
  dsimp only
  rw [horder, hbegin, hmoved, conclude_without, hexpired]
  rfl

theorem drainUntimed_without :
    (p.without guest).drainUntimed rules = (p.drainUntimed rules).without guest := by
  refine List.foldl_hom (without guest) fun q id => ?_
  rw [← conclude_without, ← step_without]
  rfl

theorem drain_without : (p.without guest).drain rules = (p.drain rules).without guest := by
  unfold drain
  dsimp only
  rw [drainTimed_without, drainUntimed_without]
  split <;> rfl

theorem act_without (hguest : guest < p.callers.length) (action : Action) :
    (p.without guest).act rules action =
      ((p.act rules (action.beside guest)).1.without guest,
        (p.act rules (action.beside guest)).2) := by
  cases action with
  | attach => exact Prod.ext attach_without rfl
  | close => exact Prod.ext close_without rfl
  | resolve url =>
      simp only [act, Action.beside, resolve_without hguest]
      rcases p.resolve url with ⟨refusal | ticket, q⟩ <;> rfl
  | deliver response => exact Prod.ext (deliver_without response) rfl
  | cancel ticket => exact Prod.ext (cancel_without ticket) rfl
  | refuseRequests refusing => rfl
  | answerAtOnce url response? => rfl
  | advance span => rfl
  | drain => exact Prod.ext drain_without rfl

end Pathfinder

end LinkTrail
