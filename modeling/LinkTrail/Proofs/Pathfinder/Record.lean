import LinkTrail.Proofs.Pathfinder.Runs
import LinkTrail.Settings

/-!
The records of registered walkers. Main statement: at any time the record of a registered walker
tells one path from its origin and where it waits, and whenever the walker turns back it comes to
its origin (`registered_walker_record`).
-/

namespace LinkTrail

/-- The record of a walker that set out from `origin`: one path without repetition within the limit,
and either the one response for its last URL or one place in the list of that URL. -/
structure Walker.Record (rules : Rules) (places : String → Nat) (origin : String) (w : Walker) :
    Prop where
  origin_eq : w.trail.origin = origin
  mem_visited_iff : ∀ url, url ∈ w.trail.visited ↔ url = origin ∨ url ∈ w.trail.hops
  entries_hops : w.trail.hops.entries = w.trail.path.tail.zip w.trail.path
  nodup_path : w.trail.path.Nodup
  mem_path_iff : ∀ url, url ∈ w.trail.path ↔ url ∈ w.trail.visited
  head?_path : w.trail.path.head? = some origin
  length_path : w.trail.path.length = w.trail.hops.size + 1
  size_le : (w.trail.hops.size : Int) ≤ max rules.maxRedirects 0
  waits : Xor
    (∃ response, w.inbox = [response] ∧ w.trail.path.getLast? = some response.url ∧
      ∀ url, places url = 0)
    (w.inbox = [] ∧ ∀ url, places url = if w.trail.path.getLast? = some url then 1 else 0)

theorem Walker.Underway.record {rules : Rules} {heard : Response → Prop} {places : String → Nat}
    {w : Walker} (h : w.Underway rules heard places) : w.Record rules places w.trail.origin := by
  have hstraight := h.led.straight
  refine ⟨rfl, ?_, hstraight.entries_hops, hstraight.nodup, ?_, w.trail.head?_path,
    hstraight.length_path, h.led.size_le, ?_⟩
  · intro url
    rw [hstraight.mem_visited_iff, hstraight.mem_path_iff]
  · exact fun url => (hstraight.mem_visited_iff url).symm
  · rw [w.trail.getLast?_path]
    rcases h.place with ⟨response, hinbox, -, here, hplaces⟩ | ⟨hinbox, hplaces⟩
    · refine Or.inl ⟨⟨response, hinbox, congrArg some here.symm, hplaces⟩, ?_⟩
      intro ⟨hempty, _⟩
      rw [hinbox] at hempty
      contradiction
    · refine Or.inr ⟨⟨hinbox, ?_⟩, ?_⟩
      · intro url
        simp only [hplaces, Option.some.injEq, eq_comm]
      · intro ⟨response, hfull, _⟩
        rw [hinbox] at hfull
        contradiction

inductive Walker.Passes (rules : Rules) (id : WalkerId) :
    Traffic → Walker → Traffic → Walker → Prop where
  | here {t : Traffic} {w : Walker} : Passes rules id t w t w
  | onward {t t' t'' : Traffic} {w w' w'' : Walker} {response : Response} {inbox : List Response}
      {next : String} (read : w.inbox = response :: inbox)
      (verdict : rules.verdict w.trail response = .redirect next)
      (asked : t.ask id { w with trail := w.trail.extend next response.url, inbox := inbox } next =
        (t', w', none))
      (rest : Passes rules id t' w' t'' w'') : Passes rules id t w t'' w''

theorem Walker.Underway.passes {rules : Rules} {heard : Response → Prop} {id : WalkerId}
    {t t' : Traffic} {w w' : Walker} (passes : Passes rules id t w t' w')
    (h : w.Underway rules heard (t.places id))
    (hweb : ∀ url response, t.web.answerAtOnce? url = some response → heard response) :
    w'.trail.origin = w.trail.origin ∧ w'.Underway rules heard (t'.places id) := by
  induction passes with
  | here => exact ⟨rfl, h⟩
  | @onward t _ _ w _ _ response inbox next read verdict asked rest ih =>
      have hasked := t.asked_ask id
        { w with trail := w.trail.extend next response.url, inbox := inbox } next
      rw [asked] at hasked
      have horigin := (congrArg Trail.origin hasked.trail_eq).trans (Trail.origin_visit _ _)
      obtain ⟨hsame, hunderway⟩ := ih (h.redirect read verdict hasked hweb) (by
        rw [hasked.isAskedMore.answerAtOnce?_eq]
        exact hweb)
      exact ⟨hsame.trans horigin, hunderway⟩

namespace Pathfinder

variable {rules : Rules} {heard : Response → Prop} {closed : Prop} {p : Pathfinder}
  {id : WalkerId}

def NextToMove (rules : Rules) (p : Pathfinder) (id : WalkerId) (q : Pathfinder) : Prop :=
  if rules.timeout.isSome then
    ∃ moved rest, p.turnOrder = moved ++ id :: rest ∧
      q = (moved.foldl (Turn.step rules) { pathfinder := p }).pathfinder
  else
    ∃ moved rest, p.queue = moved ++ id :: rest ∧
      q = moved.foldl (fun p id => (Turn.step rules { pathfinder := p } id).conclude) p

theorem Resting.underway_of_next (h : Resting rules heard closed p) {q : Pathfinder}
    (hnext : p.NextToMove rules id q) {origin : String}
    (registered : q.registered.get? origin = some id) :
    (∀ url response, q.web.answerAtOnce? url = some response → heard response) ∧
      ∃ w, q.walkers[id]? = some w ∧ w.trail.origin = origin ∧
        w.Underway rules heard (q.traffic.places id) := by
  unfold NextToMove at hnext
  split at hnext
  · obtain ⟨moved, rest, horder, rfl⟩ := hnext
    obtain ⟨hkept, hgoing⟩ := h.kept.moved h.paced.nodup horder
    exact ⟨hkept.kept.answersAtOnce,
      hkept.kept.underway (hgoing id List.mem_cons_self) registered⟩
  · obtain ⟨moved, rest, horder, rfl⟩ := hnext
    have hkept : Kept rules heard closed [] (moved ++ id :: rest) p := by
      rw [← horder]
      exact h.kept
    have hmoved := hkept.foldl_step_conclude
    exact ⟨hmoved.answersAtOnce, hmoved.underway List.not_mem_nil registered⟩

/-- At any time every registered walker has a sound record. In any turn, when it takes up a response
that ends its walk, it comes back to its origin and nothing is left of its trail. -/
theorem registered_walker_record (rules : Rules) (answer? : String → Option Response)
    (actions : List Action) :
    let p := (onWeb { answer? := answer? }).run rules actions
    (∀ origin id, p.registered.get? origin = some id →
      ∃ w, p.walkers[id]? = some w ∧ w.Record rules (p.traffic.places id) origin) ∧
    ∀ id q, p.NextToMove rules id q → ∀ origin, q.registered.get? origin = some id →
      ∃ w, q.walkers[id]? = some w ∧
        ∀ t w' response inbox, Walker.Passes rules id q.traffic w t w' →
          w'.inbox = response :: inbox →
          w'.trail.origin = origin ∧
            w'.trail.retrace response.url = (.ok origin, { origin := origin }) := by
  intro p
  have hresting : Resting rules (fun _ => True) True p :=
    resting_run rules answer? fun _ => trivial
  constructor
  · intro origin id registered
    obtain ⟨w, hw, rfl, hunderway⟩ := hresting.kept.underway List.not_mem_nil registered
    exact ⟨w, hw, hunderway.record⟩
  · intro id q hnext origin registered
    obtain ⟨hweb, w, hw, rfl, hunderway⟩ := hresting.underway_of_next hnext registered
    refine ⟨w, hw, ?_⟩
    intro t w' response inbox passes read
    obtain ⟨horigin, hpassed⟩ := Walker.Underway.passes passes hunderway hweb
    obtain ⟨-, -, here, -⟩ := hpassed.of_read read
    refine ⟨horigin, ?_⟩
    rw [here, hpassed.led.straight.retrace_tip, ← horigin]
    rfl

/-- A walker that waits at the target of a redirect. -/
theorem record_of_redirected_walker :
    let p := (onWeb {}).run ({} : Settings).rules
      [.attach, .resolve "http://a/", .drain, .deliver (.redirect "http://a/" "http://b/"), .drain]
    p.registered.get? "http://a/" = some 0 ∧
      ∃ w, p.walkers[0]? = some w ∧
        w.Record ({} : Settings).rules (p.traffic.places 0) "http://a/" :=
  have registered := by decide +kernel
  ⟨registered, (registered_walker_record _ _ _).1 _ _ registered⟩

end Pathfinder

end LinkTrail
