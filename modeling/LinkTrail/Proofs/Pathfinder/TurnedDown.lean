import Mathlib.Data.List.Basic
import LinkTrail.Proofs.Pathfinder.Runs
import LinkTrail.Settings

/-!
Calls that are turned down. Main statements: a call is turned down for one of two reasons
(`resolve_eq_error_iff`), what it has begun is taken back in full (`resolve_of_error`), and a run
ends as it does without such calls (`Resting.run_heeded`).
-/

namespace LinkTrail

theorem Table.filterMap_insert_of_not_mem {κ α : Type} [DecidableEq κ] {t : Table κ α} {key : κ}
    {value : α} {f : κ → α → Option α} (h : key ∉ t) (hdropped : f key value = none)
    (hothers : ∀ other ≠ key, ∀ value, f other value = some value) :
    (t.insert key value).filterMap f = t := by
  have hkept : ∀ entry ∈ t.entries, (f entry.1 entry.2).map (entry.1, ·) = some entry := by
    intro entry hmem
    have hne : entry.1 ≠ key := fun hkey => h (List.mem_map.2 ⟨entry, hmem, hkey⟩)
    rw [hothers entry.1 hne]
    rfl
  apply eq_of_entries
  simp only [filterMap, entries_insert_of_not_mem h, List.filterMap_append]
  rw [List.filterMap_congr hkept, List.filterMap_some]
  simp [hdropped]

/-- A list that was begun for a single walker goes with this walker, and no other list changes. -/
theorem Traffic.withdraw_insert_of_not_mem (t : Traffic) {url : String} (h : url ∉ t.awaiting)
    (id : WalkerId) :
    withdraw { t with awaiting := t.awaiting.insert url [id] } id [url] = t := by
  unfold withdraw
  dsimp only
  rw [Table.filterMap_insert_of_not_mem h]
  · simp
  · intro other hne waiting
    simp [hne]

namespace Pathfinder

variable {rules : Rules} {heard : Response → Prop} {closed : Prop} {p : Pathfinder}
  {url : String} {refusal : Refusal}

inductive TurnsDown (p : Pathfinder) (url : String) : Refusal → Prop where
  | notAttached (detached : p.attached = false) : TurnsDown p url .notAttached
  | refused (attached : p.attached = true) (fresh : url ∉ p.waiting)
      (unasked : url ∉ p.traffic.awaiting) (refusing : p.web.refusing = true) :
      TurnsDown p url .refused

theorem requested_snd_eq_some_iff {failure : Failure} :
    (p.requested url).2 = some failure ↔
      url ∉ p.traffic.awaiting ∧ p.web.refusing = true ∧ failure = .refused := by
  have asked := p.traffic.asked_ask p.walkers.length { trail := { origin := url } } url
  rw [requested_eq]
  generalize p.traffic.ask p.walkers.length { trail := { origin := url } } url = result at asked
  cases asked with
  | joined found => simp [Table.mem_of_get? found]
  | refused absent refusing =>
      simp [Table.get?_eq_none_iff.1 absent, show p.web.refusing = true from refusing, eq_comm]
  | issued absent serving later => simp [show p.web.refusing = false from serving]
  | answered absent serving atOnce => simp [show p.web.refusing = false from serving]

/-- The walker is registered, waits for its own URL and is given up again, all in one call. -/
theorem start_of_refusing (hfresh : url ∉ p.waiting) (hmatched : p.Matched)
    (hunasked : url ∉ p.traffic.awaiting) (hrefusing : p.web.refusing = true) :
    p.start url = (.error .refused, p) := by
  have hunregistered : url ∉ p.registered := mt (hmatched url).1 hfresh
  have hask : p.traffic.ask p.walkers.length { trail := { origin := url } } url =
      ({ p.traffic with awaiting := p.traffic.awaiting.insert url [p.walkers.length] },
        { trail := { origin := url, visited := [url] } }, some .refused) := by
    simp only [Traffic.ask, Table.get?_eq_none_iff.2 hunasked,
      Web.fetch?_of_refusing (show p.traffic.web.refusing = true from hrefusing)]
    rfl
  have hrefused : (p.requested url).2 = some .refused :=
    requested_snd_eq_some_iff.2 ⟨hunasked, hrefusing, rfl⟩
  have hrequested := congrArg Prod.fst (requested_eq p url)
  rw [hask] at hrequested
  have hwalker : (p.requested url).1.walkers[p.walkers.length]? =
      some { trail := { origin := url, visited := [url] } } := by
    simp [hrequested, register]
  have hregistered : (p.requested url).1.registered.get? url = some p.walkers.length := by
    simp [registered_requested, Table.get?_insert]
  rw [start_of_refused hrefused, forget_of_registered hwalker hregistered, hrequested]
  simp [register, Table.erase_insert_of_not_mem hunregistered,
    Table.erase_insert_of_not_mem hfresh, Traffic.withdraw_insert_of_not_mem _ hunasked]

theorem resolve_of_detached (h : p.attached = false) (url : String) :
    p.resolve url = (.error .notAttached, p) := by
  simp [resolve, h]

theorem resolve_of_fresh (hattached : p.attached = true) (hfresh : url ∉ p.waiting) :
    p.resolve url = p.start url := by
  simp [resolve, hattached, Table.get?_eq_none_iff.2 hfresh]

theorem TurnsDown.resolve_eq (h : p.TurnsDown url refusal) (hmatched : p.Matched) :
    p.resolve url = (.error refusal, p) := by
  cases h with
  | notAttached detached => exact resolve_of_detached detached url
  | refused attached fresh unasked refusing =>
      rw [resolve_of_fresh attached fresh, start_of_refusing fresh hmatched unasked refusing]

theorem turnsDown_of_resolve (h : (p.resolve url).1 = .error refusal) :
    p.TurnsDown url refusal := by
  cases hattached : p.attached with
  | false =>
      rw [resolve_of_detached hattached] at h
      cases h
      exact .notAttached hattached
  | true =>
      cases hwaiting : p.waiting.get? url with
      | some tickets => simp [resolve, hattached, hwaiting] at h
      | none =>
          have hfresh := Table.get?_eq_none_iff.1 hwaiting
          rw [resolve_of_fresh hattached hfresh] at h
          cases hfailure : (p.requested url).2 with
          | none =>
              rw [start_of_granted hfailure] at h
              contradiction
          | some failure =>
              obtain ⟨hunasked, hrefusing, -⟩ := requested_snd_eq_some_iff.1 hfailure
              rw [start_of_refused hfailure] at h
              cases h
              exact .refused hattached hfresh hunasked hrefusing

theorem resolve_eq_error_iff (hmatched : p.Matched) :
    (p.resolve url).1 = .error refusal ↔ p.TurnsDown url refusal :=
  ⟨turnsDown_of_resolve, fun h => congrArg Prod.fst (h.resolve_eq hmatched)⟩

theorem resolve_of_error (hmatched : p.Matched) (h : (p.resolve url).1 = .error refusal) :
    p.resolve url = (.error refusal, p) :=
  (turnsDown_of_resolve h).resolve_eq hmatched

def heeded (rules : Rules) (p : Pathfinder) : List Action → List Action
  | [] => []
  | action :: actions =>
      let rest := (p.act rules action).1.heeded rules actions
      if (p.act rules action).2 = none then action :: rest else rest

theorem act_of_refusal {action : Action} (hmatched : p.Matched)
    (h : (p.act rules action).2 = some refusal) : p.act rules action = (p, some refusal) := by
  cases action with
  | resolve url =>
      have herror : (p.resolve url).1 = .error refusal := by
        unfold act at h
        rcases hresolve : p.resolve url with ⟨ticket | other, q⟩ <;> simp_all
      simp only [act, resolve_of_error hmatched herror]
  | attach => contradiction
  | close => contradiction
  | deliver response => contradiction
  | cancel ticket => contradiction
  | refuseRequests refusing => contradiction
  | answerAtOnce url response? => contradiction
  | advance span => contradiction
  | drain => contradiction

theorem Resting.run_heeded (h : Resting rules heard closed p) {actions : List Action}
    (hactions : ∀ action ∈ actions, action.IsWithin heard closed) :
    p.run rules (p.heeded rules actions) = p.run rules actions := by
  induction actions generalizing p with
  | nil => rfl
  | cons action actions ih =>
      obtain ⟨haction, hactions⟩ := List.forall_mem_cons.1 hactions
      have hrest := ih (h.act haction) hactions
      change _ = (p.act rules action).1.run rules actions
      rw [← hrest, heeded]
      cases hrefusal : (p.act rules action).2 with
      | none => rfl
      | some refusal => simp [act_of_refusal h.kept.matched hrefusal]

/-- At any time a call that is turned down hands out no ticket and leaves everything as it is: the
URLs under resolution, the walkers with their trails, those who wait, and all earlier callers.
Whatever comes later comes as if the call had not been made. -/
theorem turned_down_call_leaves_no_trace (rules : Rules) (answer? : String → Option Response)
    (actions : List Action) (url : String) :
    let start := onWeb { answer? := answer? }
    let p := start.run rules actions
    (∀ refusal, (p.resolve url).1 = .error refusal ↔ p.TurnsDown url refusal) ∧
      (∀ refusal, (p.resolve url).1 = .error refusal → (p.resolve url).2 = p) ∧
      start.run rules (start.heeded rules actions) = p := by
  intro start p
  have hstart : Resting rules (fun _ => True) True start := .onWeb fun _ _ _ => trivial
  have hmatched : p.Matched := (resting_run rules answer? fun _ => trivial).kept.matched
  refine ⟨fun refusal => resolve_eq_error_iff hmatched, ?_, ?_⟩
  · intro refusal hrefusal
    rw [resolve_of_error hmatched hrefusal]
  · exact hstart.run_heeded fun action _ => isWithin_all action

/-- A call is refused between a dismissed walker with an unread redirect and a new one. -/
theorem turned_down_beside_walkers :
    let start := onWeb {}
    let actions := [Action.attach, .resolve "http://a/", .drain,
      .deliver (.redirect "http://a/" "http://b/"), .close, .resolve "http://c/", .attach,
      .resolve "http://c/", .refuseRequests true]
    let p := start.run ({} : Settings).rules actions
    (p.resolve "http://d/").1 = .error .refused ∧ p.TurnsDown "http://d/" .refused ∧
      (p.resolve "http://d/").2 = p ∧ p.stage? 0 = some .leaving ∧ p.stage? 1 = some .fresh := by
  intro start actions p
  have h := turned_down_call_leaves_no_trace ({} : Settings).rules (fun _ => none) actions
    "http://d/"
  have hrefused : (p.resolve "http://d/").1 = .error .refused := by decide +kernel
  exact ⟨hrefused, (h.1 .refused).1 hrefused, h.2.1 .refused hrefused, by decide +kernel,
    by decide +kernel⟩

end Pathfinder

end LinkTrail
