import LinkTrail.Pathfinder.Turn
import LinkTrail.Proofs.Pathfinder.Walk

namespace LinkTrail.Pathfinder

def IsRegistered (p : Pathfinder) (id : WalkerId) : Prop :=
  ∃ origin, p.registered.get? origin = some id

def Matched (p : Pathfinder) : Prop := ∀ url, url ∈ p.registered ↔ url ∈ p.waiting

structure Moves (id : WalkerId) (p q : Pathfinder) : Prop where
  web : p.web.IsAskedMore q.web
  crowded : p.traffic.Crowded → q.traffic.Crowded
  matched : p.Matched → q.Matched
  walker_eq : ∀ other, other ≠ id → q.walkers[other]? = p.walkers[other]?
  places_eq : ∀ other, other ≠ id → q.traffic.places other = p.traffic.places other
  registered_iff : ∀ other, other ≠ id → ∀ origin,
    q.registered.get? origin = some other ↔ p.registered.get? origin = some other

namespace Moves

variable {id : WalkerId} {p q r : Pathfinder}

theorem refl (id : WalkerId) (p : Pathfinder) : Moves id p p :=
  ⟨.refl p.web, fun h => h, fun h => h, fun _ _ => rfl, fun _ _ => rfl, fun _ _ _ => Iff.rfl⟩

theorem trans (h : Moves id p q) (h' : Moves id q r) : Moves id p r where
  web := h.web.trans h'.web
  crowded := fun hcrowded => h'.crowded (h.crowded hcrowded)
  matched := fun hmatched => h'.matched (h.matched hmatched)
  walker_eq other hne := (h'.walker_eq other hne).trans (h.walker_eq other hne)
  places_eq other hne := (h'.places_eq other hne).trans (h.places_eq other hne)
  registered_iff other hne origin :=
    (h'.registered_iff other hne origin).trans (h.registered_iff other hne origin)

theorem congr (h : Moves id p q) (hwaiting : r.waiting = q.waiting)
    (hregistered : r.registered = q.registered) (htraffic : r.traffic = q.traffic)
    (hwalkers : r.walkers = q.walkers) : Moves id p r where
  web := by
    simp only [Pathfinder.web, htraffic]
    exact h.web
  crowded := by
    rw [htraffic]
    exact h.crowded
  matched := by
    simp only [Matched, hwaiting, hregistered]
    exact h.matched
  walker_eq := by
    rw [hwalkers]
    exact h.walker_eq
  places_eq := by
    rw [htraffic]
    exact h.places_eq
  registered_iff := by
    rw [hregistered]
    exact h.registered_iff

end Moves

structure Spares (id : WalkerId) (p q : Pathfinder) : Prop where
  walker_eq : q.walkers[id]? = p.walkers[id]?
  places_eq : q.traffic.places id = p.traffic.places id
  registered_iff : q.IsRegistered id ↔ p.IsRegistered id

section Spares

variable {id : WalkerId} {p q r : Pathfinder}

theorem Spares.refl (id : WalkerId) (p : Pathfinder) : Spares id p p := ⟨rfl, rfl, Iff.rfl⟩

theorem Spares.trans (h : Spares id p q) (h' : Spares id q r) : Spares id p r where
  walker_eq := h'.walker_eq.trans h.walker_eq
  places_eq := h'.places_eq.trans h.places_eq
  registered_iff := h'.registered_iff.trans h.registered_iff

theorem Moves.spares {other : WalkerId} (h : Moves other p q) (hne : id ≠ other) :
    Spares id p q where
  walker_eq := h.walker_eq id hne
  places_eq := h.places_eq id hne
  registered_iff := exists_congr (h.registered_iff id hne)

theorem Spares.mem_waiters_iff (h : Spares id p q) (url : String) :
    id ∈ q.traffic.waiters url ↔ id ∈ p.traffic.waiters url := by
  rw [Traffic.mem_waiters_iff, h.places_eq, ← Traffic.mem_waiters_iff]

end Spares

variable (p : Pathfinder) (id : WalkerId)

theorem getElem?_mapWalker_self (f : Walker → Walker) :
    (p.mapWalker id f).walkers[id]? = p.walkers[id]?.map f := by
  simp [mapWalker]

theorem getElem?_mapWalker_of_ne {other : WalkerId} (hne : other ≠ id) (f : Walker → Walker) :
    (p.mapWalker id f).walkers[other]? = p.walkers[other]? := by
  simp [mapWalker, Ne.symm hne]

theorem modify_set_self (walkers : List Walker) (id : WalkerId) (w : Walker)
    (f : Walker → Walker) : (walkers.set id w).modify id f = walkers.set id (f w) := by
  apply List.ext_getElem?
  intro other
  by_cases hid : id = other
  · subst hid
    rw [List.getElem?_modify_eq, List.getElem?_set_self', List.getElem?_set_self']
    cases walkers[id]? <;> rfl
  · simp [hid]

theorem set_modify_self (walkers : List Walker) (id : WalkerId) (w : Walker)
    (f : Walker → Walker) : (walkers.modify id f).set id w = walkers.set id w := by
  apply List.ext_getElem?
  intro other
  by_cases hid : id = other
  · subst hid
    rw [List.getElem?_set_self', List.getElem?_set_self', List.getElem?_modify_eq]
    cases walkers[id]? <;> rfl
  · simp [hid]

theorem moves_mapWalker (f : Walker → Walker) : Moves id p (p.mapWalker id f) where
  web := .refl p.web
  crowded := fun h => h
  matched := fun h => h
  walker_eq _ hne := getElem?_mapWalker_of_ne p id hne f
  places_eq _ _ := rfl
  registered_iff _ _ _ := Iff.rfl

theorem moves_complete (tickets : List Ticket) (outcome : Outcome) :
    Moves id p (p.complete tickets outcome) := (Moves.refl id p).congr rfl rfl rfl rfl

variable {p id} {w : Walker}

theorem forget_of_none (hw : p.walkers[id]? = none) : p.forget id = (p, []) := by
  simp [forget, hw]

theorem forget_of_registered (hw : p.walkers[id]? = some w)
    (hregistered : p.registered.get? w.trail.origin = some id) :
    p.forget id =
      ({ p with
          registered := p.registered.erase w.trail.origin
          waiting := p.waiting.erase w.trail.origin
          traffic := p.traffic.withdraw id w.trail.visited
          walkers := p.walkers.set id { w with trail := w.trail.cleared } },
        (p.waiting.get? w.trail.origin).getD []) := by
  simp [forget, hw, hregistered]

theorem forget_of_not_registered (hw : p.walkers[id]? = some w)
    (hregistered : p.registered.get? w.trail.origin ≠ some id) : p.forget id = (p, []) := by
  simp [forget, hw, hregistered]

variable (p id)

theorem moves_forget : Moves id p (p.forget id).1 := by
  cases hw : p.walkers[id]? with
  | none =>
      rw [forget_of_none hw]
      exact .refl id p
  | some w =>
      by_cases hregistered : p.registered.get? w.trail.origin = some id
      · rw [forget_of_registered hw hregistered]
        refine ⟨.refl p.web, ?_, ?_, ?_, ?_, ?_⟩
        · exact fun h => h.withdraw id _
        · intro hmatched url
          simp only [Table.mem_erase_iff, hmatched url]
        · intro other hne
          exact List.getElem?_set_ne (Ne.symm hne)
        · intro other hne
          exact Traffic.places_withdraw_of_ne p.traffic hne _
        · intro other hne origin
          rw [Table.get?_erase]
          split
          · rename_i heq
            subst heq
            simp [hregistered, Ne.symm hne]
          · rfl
      · rw [forget_of_not_registered hw hregistered]
        exact .refl id p

variable {p id}

theorem finish_of_none (hw : p.walkers[id]? = none) (result : Except Failure String) :
    p.finish id result = p := by
  simp [finish, hw]

theorem finish_of_some (hw : p.walkers[id]? = some w) (result : Except Failure String) :
    p.finish id result =
      ((p.forget id).1.complete (p.forget id).2 (.ofResult w.trail.origin result)).mapWalker id
        fun w => { w with stage := .gone } := by
  simp [finish, hw]

theorem finish_of_registered (hw : p.walkers[id]? = some w)
    (hregistered : p.registered.get? w.trail.origin = some id) (result : Except Failure String) :
    p.finish id result =
      ({ p with
          registered := p.registered.erase w.trail.origin
          waiting := p.waiting.erase w.trail.origin
          traffic := p.traffic.withdraw id w.trail.visited
          walkers := p.walkers.set id { w with trail := w.trail.cleared, stage := .gone } } :
        Pathfinder).complete ((p.waiting.get? w.trail.origin).getD [])
          (.ofResult w.trail.origin result) := by
  rw [finish_of_some hw, forget_of_registered hw hregistered]
  simp only [complete, mapWalker, modify_set_self]

theorem finish_of_not_registered (hw : p.walkers[id]? = some w)
    (hregistered : p.registered.get? w.trail.origin ≠ some id) (result : Except Failure String) :
    p.finish id result = p.mapWalker id fun w => { w with stage := .gone } := by
  rw [finish_of_some hw, forget_of_not_registered hw hregistered]
  rfl

theorem registered_finish (result : Except Failure String) :
    (p.finish id result).registered = (p.forget id).1.registered := by
  cases hw : p.walkers[id]? with
  | none => rw [finish_of_none hw, forget_of_none hw]
  | some w =>
      rw [finish_of_some hw]
      rfl

theorem registered_of_finish {result : Except Failure String} {origin : String}
    {other : WalkerId} (h : (p.finish id result).registered.get? origin = some other) :
    p.registered.get? origin = some other := by
  rw [registered_finish] at h
  cases hw : p.walkers[id]? with
  | none => rwa [forget_of_none hw] at h
  | some w =>
      by_cases hregistered : p.registered.get? w.trail.origin = some id
      · rw [forget_of_registered hw hregistered, Table.get?_erase] at h
        split at h
        · contradiction
        · exact h
      · rwa [forget_of_not_registered hw hregistered] at h

theorem traffic_finish (result : Except Failure String) :
    (p.finish id result).traffic = (p.forget id).1.traffic := by
  cases hw : p.walkers[id]? with
  | none => rw [finish_of_none hw, forget_of_none hw]
  | some w =>
      rw [finish_of_some hw]
      rfl

theorem web_forget (p : Pathfinder) (id : WalkerId) : (p.forget id).1.web = p.web := by
  cases hw : p.walkers[id]? with
  | none => rw [forget_of_none hw]
  | some w =>
      by_cases hregistered : p.registered.get? w.trail.origin = some id
      · rw [forget_of_registered hw hregistered]
        rfl
      · rw [forget_of_not_registered hw hregistered]

theorem web_finish (result : Except Failure String) : (p.finish id result).web = p.web := by
  rw [web, traffic_finish]
  exact web_forget p id

theorem finish_eq (result : Except Failure String) :
    p.finish id result =
      { p.finish id result with attached := p.attached, queue := p.queue, clock := p.clock } := by
  cases hw : p.walkers[id]? with
  | none => rw [finish_of_none hw]
  | some w =>
      by_cases hregistered : p.registered.get? w.trail.origin = some id
      · rw [finish_of_registered hw hregistered]
        rfl
      · rw [finish_of_not_registered hw hregistered]
        rfl

theorem dismiss_eq :
    p.dismiss id =
      { p.dismiss id with attached := p.attached, queue := p.queue, clock := p.clock } := by
  unfold dismiss
  split
  · rfl
  · rw [finish_eq]
    rfl

theorem dismiss_of_none (hw : p.walkers[id]? = none) : p.dismiss id = p := by
  simp [dismiss, hw]

theorem dismiss_of_registered (hw : p.walkers[id]? = some w)
    (hregistered : p.registered.get? w.trail.origin = some id) :
    p.dismiss id =
      ({ p with
          registered := p.registered.erase w.trail.origin
          waiting := p.waiting.erase w.trail.origin
          traffic := p.traffic.withdraw id w.trail.visited
          walkers := p.walkers.set id
            { w with trail := w.trail.cleared, stage := w.dismissedStage } } :
        Pathfinder).complete ((p.waiting.get? w.trail.origin).getD [])
          (.failed (.cancelled w.trail.origin)) := by
  simp only [dismiss, hw, finish_of_registered hw hregistered, complete, mapWalker,
    modify_set_self]
  rfl

theorem dismiss_of_not_registered (hw : p.walkers[id]? = some w)
    (hregistered : p.registered.get? w.trail.origin ≠ some id) :
    p.dismiss id = p.mapWalker id fun after => { after with stage := w.dismissedStage } := by
  simp only [dismiss, hw, finish_of_not_registered hw hregistered, mapWalker,
    List.modify_modify_eq]
  rfl

variable (p id)

theorem moves_finish (result : Except Failure String) : Moves id p (p.finish id result) := by
  cases hw : p.walkers[id]? with
  | none =>
      rw [finish_of_none hw]
      exact .refl id p
  | some w =>
      rw [finish_of_some hw]
      exact ((moves_forget p id).trans (moves_complete _ id _ _)).trans (moves_mapWalker _ id _)

theorem moves_dismiss : Moves id p (p.dismiss id) := by
  unfold dismiss
  split
  · exact .refl id p
  · exact (moves_finish p id _).trans (moves_mapWalker _ id _)

theorem moves_expire (rules : Rules) : Moves id p (p.expire rules id) := by
  unfold expire
  split
  · split
    · exact moves_finish p id _
    · exact .refl id p
  · exact .refl id p

/-- What holds before a close, and is kept by each dismissal and when the pathfinder is detached,
holds after it. -/
theorem close_induction {motive : Pathfinder → Prop} (h : motive p)
    (hdismiss : ∀ q id, motive q → motive (q.dismiss id))
    (hdetach : ∀ q, motive q → motive { q.mapListeners (·.remove ()) with attached := false }) :
    motive p.close := by
  have hdismissed : motive (p.registered.values.foldl dismiss p) :=
    List.foldlRecOn p.registered.values dismiss h fun q hq id _ => hdismiss q id hq
  unfold close
  dsimp only
  split
  · exact hdetach _ hdismissed
  · exact hdismissed

theorem moves_register {url : String} (habsent : url ∉ p.registered) :
    Moves p.walkers.length p (p.register url) where
  web := .refl p.web
  crowded := fun h => h
  matched := by
    intro hmatched other
    simp only [register, Table.mem_insert_iff, hmatched other]
  walker_eq := by
    intro other hne
    rw [register, List.getElem?_append]
    split
    · rfl
    · rename_i hge
      have hpast := Nat.lt_of_le_of_ne (Nat.le_of_not_lt hge) (Ne.symm hne)
      rw [List.getElem?_eq_none (Nat.le_of_lt hpast), List.getElem?_eq_none]
      exact Nat.sub_pos_of_lt hpast
  places_eq := fun _ _ => rfl
  registered_iff := by
    intro other hne origin
    simp only [register, Table.get?_insert]
    split
    · rename_i heq
      rw [heq, Table.get?_eq_none_iff.2 habsent]
      simpa using Ne.symm hne
    · rfl

theorem registered_ask (url : String) : (p.ask id url).1.registered = p.registered := by
  unfold ask
  split <;> rfl

theorem queue_ask (url : String) : (p.ask id url).1.queue = p.queue := by
  unfold ask
  split <;> rfl

theorem length_ask (url : String) : (p.ask id url).1.walkers.length = p.walkers.length := by
  unfold ask
  split
  · rfl
  · simp

theorem moves_ask (url : String) : Moves id p (p.ask id url).1 := by
  unfold ask
  cases hw : p.walkers[id]? with
  | none => exact .refl id p
  | some w =>
      have asked := p.traffic.asked_ask id w url
      exact {
        web := asked.isAskedMore
        crowded := asked.crowded
        matched := fun h => h
        walker_eq := fun other hne => List.getElem?_set_ne (Ne.symm hne)
        places_eq := fun other hne => asked.places_of_ne hne
        registered_iff := fun _ _ _ => Iff.rfl }

end LinkTrail.Pathfinder
