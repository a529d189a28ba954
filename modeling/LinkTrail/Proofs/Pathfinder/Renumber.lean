import Mathlib.Data.List.Basic
import LinkTrail.Proofs.Pathfinder.Walk

namespace LinkTrail

namespace Table

variable {κ α β : Type}

def map (f : α → β) (t : Table κ α) : Table κ β where
  entries := t.entries.map fun entry => (entry.1, f entry.2)
  nodup_keys := by
    rw [List.map_map]
    exact t.nodup_keys

variable {f : α → β} {t : Table κ α}

@[simp] theorem map_empty : (empty : Table κ α).map f = empty := rfl

@[simp] theorem keys_map : (t.map f).keys = t.keys := by simp [map, keys]

@[simp] theorem values_map : (t.map f).values = t.values.map f := by simp [map, values]

theorem eq_empty_of_map (h : t.map f = empty) : t = empty := by
  have hkeys := congrArg keys h
  rw [keys_map] at hkeys
  apply eq_empty_of_forall
  intro key hmem
  rw [mem_iff, hkeys] at hmem
  exact absurd hmem List.not_mem_nil

variable [DecidableEq κ] {key : κ}

@[simp] theorem get?_map (key : κ) : (t.map f).get? key = (t.get? key).map f := by
  obtain ⟨entries, hnodup⟩ := t
  simp only [get?, map]
  clear hnodup
  induction entries with
  | nil => rfl
  | cons entry rest ih =>
      rw [List.map_cons, List.lookup_cons, List.lookup_cons, ih]
      split <;> rfl

theorem map_eq_self {f : α → α} (h : ∀ key value, t.get? key = some value → f value = value) :
    t.map f = t := by
  apply eq_of_entries
  refine (List.map_congr_left fun entry hmem => ?_).trans (List.map_id t.entries)
  exact Prod.ext rfl (h entry.1 entry.2 (get?_eq_some_iff.2 hmem))

theorem map_insert (value : α) : (t.insert key value).map f = (t.map f).insert key (f value) := by
  apply eq_of_entries
  unfold insert
  simp only [keys_map]
  split
  · simp only [map, List.map_map]
    apply List.map_congr_left
    intro entry _
    simp only [Function.comp_apply]
    split <;> rfl
  · simp [map]

theorem map_erase (key : κ) : (t.erase key).map f = (t.map f).erase key := by
  apply eq_of_entries
  simp [map, erase, List.filter_map, Function.comp_def]

omit [DecidableEq κ] in
theorem map_filterMap {change : κ → α → Option α} {change' : κ → β → Option β}
    (h : ∀ key value, change' key (f value) = (change key value).map f) :
    (t.filterMap change).map f = (t.map f).filterMap change' := by
  apply eq_of_entries
  simp only [map, filterMap, List.map_filterMap, List.filterMap_map, Function.comp_def, h,
    Option.map_map]

end Table

namespace Traffic

def renumber (n : Nat) (t : Traffic) : Traffic :=
  { t with awaiting := t.awaiting.map (List.map (n + ·)) }

variable {n : Nat} {t : Traffic} {id : WalkerId}

theorem ask_renumber (w : Walker) (url : String) :
    (t.renumber n).ask (n + id) w url =
      ((t.ask id w url).1.renumber n, (t.ask id w url).2) := by
  unfold ask
  simp only [renumber, Table.get?_map]
  cases t.awaiting.get? url with
  | some waiting => simp [Table.map_insert]
  | none =>
      cases t.web.fetch? url with
      | none => simp [Table.map_insert]
      | some fetched =>
          obtain ⟨web, response?⟩ := fetched
          cases response? with
          | none => simp [Table.map_insert]
          | some response => rfl

theorem withdraw_renumber (urls : List String) :
    (t.renumber n).withdraw (n + id) urls = (t.withdraw id urls).renumber n := by
  have hinjective : Function.Injective (n + ·) := fun _ _ => Nat.add_left_cancel
  simp only [withdraw, renumber]
  rw [Table.map_filterMap]
  intro url waiting
  split
  · rw [← List.map_erase hinjective]
    split <;> simp_all
  · rfl

end Traffic

namespace Walker

variable {rules : Rules} {id : WalkerId} {t : Traffic} {w : Walker}

theorem proceed_of_read {response : Response} {inbox : List Response}
    (read : w.inbox = response :: inbox) :
    w.proceed rules id t =
      match rules.verdict w.trail response with
      | .failed failure => (t, { w with inbox := inbox }, some (.error failure))
      | .arrived =>
          (t, { w with trail := (w.trail.retrace response.url).2, inbox := inbox },
            some (concludeArrival w.trail.origin response.url (w.trail.retrace response.url).1))
      | .redirect next =>
          match t.ask id { w with trail := w.trail.extend next response.url, inbox := inbox }
              next with
          | (t, w, some failure) => (t, w, some (.error failure))
          | (t, w, none) => w.proceed rules id t := by
  rw [proceed]
  split
  · rename_i empty
    rw [read] at empty
    contradiction
  · rename_i response' inbox' read'
    obtain ⟨rfl, rfl⟩ := List.cons.inj (read.symm.trans read')
    split
    · rename_i verdict
      rw [verdict]
    · rename_i verdict
      rw [verdict]
      dsimp only
      cases (w.trail.retrace response.url).1 <;> rfl
    · rename_i verdict
      rw [verdict]
      dsimp only
      split <;> rename_i asked <;> rw [asked]

theorem proceed_renumber (rules : Rules) (n : Nat) (id : WalkerId) (t : Traffic) (w : Walker) :
    w.proceed rules (n + id) (t.renumber n) =
      ((w.proceed rules id t).1.renumber n, (w.proceed rules id t).2) := by
  fun_induction proceed rules id t w with
  | case1 t w empty => rw [proceed, empty]
  | case2 t w response inbox read failure verdict => rw [proceed_of_read read, verdict]
  | case3 t w response inbox read verdict stop trail retraced =>
      rw [proceed_of_read read, verdict, retraced]
      cases stop <;> rfl
  | case4 t w response inbox read next verdict after w' failure asked =>
      rw [proceed_of_read read, verdict]
      dsimp only
      rw [Traffic.ask_renumber, asked]
  | case5 t w response inbox read next verdict after w' asked ih =>
      rw [proceed_of_read read, verdict]
      dsimp only
      rw [Traffic.ask_renumber, asked]
      exact ih

end Walker

end LinkTrail
