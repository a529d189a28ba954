import Mathlib.Data.List.Nodup
import LinkTrail.Proofs.Pathfinder.Runs

/-!
What a close does. Main statements: it dismisses every registered walker and spares all others
(`Kept.dismissed_close`, `Kept.spares_close`), so that nobody is registered and no caller waits.
-/

namespace LinkTrail

namespace Pathfinder

structure Dismisses (id : WalkerId) (p q : Pathfinder) : Prop where
  unregistered : ¬ q.IsRegistered id
  unlisted : ∀ url, q.traffic.places id url = 0
  walker_eq : ∀ w, p.walkers[id]? = some w →
    q.walkers[id]? = some { w with trail := w.trail.cleared, stage := w.dismissedStage }

variable {rules : Rules} {heard : Response → Prop} {closed : Prop} {todo : List WalkerId}
  {p q r : Pathfinder} {id : WalkerId}

theorem Dismisses.of_spares (h : Spares id p q) (h' : Dismisses id q r) : Dismisses id p r :=
  ⟨h'.unregistered, h'.unlisted, fun w hw => h'.walker_eq w (h.walker_eq.trans hw)⟩

theorem Dismisses.spares (h : Dismisses id p q) (h' : Spares id q r) : Dismisses id p r where
  unregistered := mt h'.registered_iff.1 h.unregistered
  unlisted := h'.places_eq ▸ h.unlisted
  walker_eq w hw := h'.walker_eq.trans (h.walker_eq w hw)

theorem Kept.dismisses (h : Kept rules heard closed [] todo p) (hregistered : p.IsRegistered id) :
    Dismisses id p (p.dismiss id) := by
  obtain ⟨origin, horigin⟩ := hregistered
  obtain ⟨w, hw, -, hended, hiff⟩ := h.exists_of_registered horigin
  obtain ⟨hlt, -⟩ := List.getElem?_eq_some_iff.1 hw
  obtain ⟨hforgotten, hunlisted⟩ := forget_of_ended hw hiff hended
  rw [forget_of_registered hw ((hiff _).2 rfl)] at hforgotten hunlisted
  rw [dismiss_of_registered hw ((hiff _).2 rfl)]
  refine ⟨hforgotten, hunlisted, ?_⟩
  intro w' hw'
  obtain rfl := Option.some.inj (hw.symm.trans hw')
  simp [complete, hlt]

theorem Kept.nodup_values (h : Kept rules heard closed [] todo p) : p.registered.values.Nodup := by
  have hinjective : ∀ first ∈ p.registered.entries, ∀ second ∈ p.registered.entries,
      first.2 = second.2 → first.1 = second.1 := by
    intro first hfirst second hsecond heq
    obtain ⟨w, -, -, -, hiff⟩ := h.exists_of_registered (Table.get?_eq_some_iff.2 hfirst)
    have hother := Table.get?_eq_some_iff.2 hsecond
    rw [← heq] at hother
    exact ((hiff first.1).1 (Table.get?_eq_some_iff.2 hfirst)).trans ((hiff second.1).1 hother).symm
  have hentries : p.registered.entries.Nodup := .of_map Prod.fst p.registered.nodup_keys
  refine List.Nodup.map_on ?_ hentries
  intro first hfirst second hsecond heq
  exact Prod.ext (hinjective first hfirst second hsecond heq) heq

theorem Kept.foldl_dismiss (h : Kept rules heard closed [] todo p) (hclosed : closed)
    {ids : List WalkerId} (hnodup : ids.Nodup) (hids : ∀ id ∈ ids, p.IsRegistered id) :
    (∀ id ∈ ids, Dismisses id p (ids.foldl Pathfinder.dismiss p)) ∧
      ∀ id, id ∉ ids → Spares id p (ids.foldl Pathfinder.dismiss p) := by
  -- A walker is dismissed once only: a second time would find it leaving and let it go at once.
  induction ids generalizing p with
  | nil => exact ⟨fun id hmem => absurd hmem List.not_mem_nil, fun id _ => .refl id p⟩
  | cons first ids ih =>
      obtain ⟨hfirst, hnodup⟩ := List.nodup_cons.1 hnodup
      have hspares : ∀ id, id ≠ first → Spares id p (p.dismiss first) := fun id hne =>
        (moves_dismiss p first).spares hne
      obtain ⟨hdismissed, hspared⟩ := ih (h.dismiss hclosed first List.not_mem_nil) hnodup (by
        intro id hmem
        have hne : id ≠ first := fun heq => hfirst (heq ▸ hmem)
        exact (hspares id hne).registered_iff.2 (hids id (List.mem_cons_of_mem first hmem)))
      constructor
      · intro id hmem
        by_cases hne : id = first
        · rw [hne]
          exact (h.dismisses (hids first List.mem_cons_self)).spares (hspared first hfirst)
        · exact .of_spares (hspares id hne) (hdismissed id ((List.mem_cons.1 hmem).resolve_left hne))
      · intro id hmem
        obtain ⟨hne, hrest⟩ := not_or.1 (mt List.mem_cons.2 hmem)
        exact (hspares id hne).trans (hspared id hrest)

theorem close_eq (p : Pathfinder) :
    p.close =
      { p.registered.values.foldl dismiss p with
        attached := false
        traffic.web.listeners := p.close.web.listeners } := by
  have hsame : ∀ q : Pathfinder, q.attached = false →
      q = { q with attached := false, traffic.web.listeners := q.web.listeners } := by
    intro q hq
    cases q
    cases hq
    rfl
  unfold close
  dsimp only
  split
  · rfl
  · rename_i hattached
    exact hsame _ (by simpa using hattached)

theorem Kept.dismissed_close (h : Kept rules heard closed [] todo p) (hclosed : closed)
    (hregistered : p.IsRegistered id) : Dismisses id p p.close := by
  obtain ⟨hdismissed, -⟩ := h.foldl_dismiss hclosed h.nodup_values fun id hmem =>
    Table.mem_values_iff.1 hmem
  have hself := hdismissed id (Table.mem_values_iff.2 hregistered)
  rw [close_eq]
  exact ⟨hself.unregistered, hself.unlisted, hself.walker_eq⟩

theorem Kept.spares_close (h : Kept rules heard closed [] todo p) (hclosed : closed)
    (hregistered : ¬ p.IsRegistered id) : Spares id p p.close := by
  obtain ⟨-, hspared⟩ := h.foldl_dismiss hclosed h.nodup_values fun id hmem =>
    Table.mem_values_iff.1 hmem
  have hself := hspared id (mt Table.mem_values_iff.1 hregistered)
  rw [close_eq]
  exact ⟨hself.walker_eq, hself.places_eq, hself.registered_iff⟩

theorem Kept.not_isRegistered_close (h : Kept rules heard closed [] todo p) (hclosed : closed)
    (id : WalkerId) : ¬ p.close.IsRegistered id := by
  by_cases hregistered : p.IsRegistered id
  · exact (h.dismissed_close hclosed hregistered).unregistered
  · exact mt (h.spares_close hclosed hregistered).registered_iff.1 hregistered

theorem Kept.registered_close (h : Kept rules heard closed [] todo p) (hclosed : closed) :
    p.close.registered = .empty := by
  apply Table.eq_empty_of_forall
  intro origin hmem
  obtain ⟨id, hid⟩ := Table.mem_iff_get?.1 hmem
  exact h.not_isRegistered_close hclosed id ⟨origin, hid⟩

theorem Kept.waiting_close (h : Kept rules heard closed [] todo p) (hclosed : closed) :
    p.close.waiting = .empty := by
  apply Table.eq_empty_of_forall
  intro url hmem
  rw [← (h.close hclosed).matched, h.registered_close hclosed] at hmem
  exact absurd hmem List.not_mem_nil

theorem fetched_close (p : Pathfinder) : p.close.web.fetched = p.web.fetched := by
  have hweb := congrArg Web.fetched (web_foldl_dismiss p.registered.values p)
  rw [close_eq]
  exact hweb

theorem attached_close (p : Pathfinder) : p.close.attached = false := by rw [close_eq]

theorem isListening_close (hattached : p.attached = true) : p.close.isListening = false := by
  have hsame : (p.registered.values.foldl dismiss p).attached = true := by
    refine List.foldlRecOn (motive := fun q : Pathfinder => q.attached = true) _ _ hattached ?_
    intro q hq id _
    rw [dismiss_eq]
    exact hq
  simp [close, hsame, mapListeners, isListening, web, Listeners.has, Listeners.remove]

end Pathfinder

end LinkTrail
