import LinkTrail.Proofs.Pathfinder.Waiters
import LinkTrail.Proofs.Trail.Straight

/-!
What one walker does in its turn. Main statements: a trail along which responses lead is straight
and within the limit (`Trail.Led.straight`, `Trail.Led.size_le`), and a walker under way either is
still under way after its turn, with nothing left to take up, or has ended for a reason that the
responses give (`Walker.Underway.walk`).
-/

namespace LinkTrail

/-- The trails along which responses that have been heard lead a walker. -/
inductive Trail.Led (rules : Rules) (heard : Response → Prop) : Trail → Prop where
  | setOut (origin : String) : Led rules heard (({ origin := origin } : Trail).visit origin)
  | redirected {t : Trail} {response : Response} {next : String} (led : Led rules heard t)
      (known : heard response) (here : response.url = t.tip)
      (verdict : rules.verdict t response = .redirect next) :
      Led rules heard ((t.extend next response.url).visit next)

namespace Trail.Led

variable {rules : Rules} {heard : Response → Prop} {t : Trail}

theorem straight (h : t.Led rules heard) : t.Straight := by
  induction h with
  | setOut origin => exact (Straight.visit_origin origin).1
  | redirected led known here verdict ih =>
      rw [here]
      exact (ih.extend_visit (Rules.of_verdict_redirect verdict).1).1

theorem path_redirected (h : t.Straight) {response : Response} {next : String}
    (here : response.url = t.tip) (verdict : rules.verdict t response = .redirect next) :
    ((t.extend next response.url).visit next).path = t.path ++ [next] := by
  rw [here]
  exact (h.extend_visit (Rules.of_verdict_redirect verdict).1).2

theorem size_le (h : t.Led rules heard) : (t.hops.size : Int) ≤ max rules.maxRedirects 0 := by
  induction h with
  | setOut origin =>
      rw [hops_visit]
      exact Int.le_max_right rules.maxRedirects 0
  | @redirected t response next led known here verdict ih =>
      have hlimit := (Rules.of_verdict_redirect verdict).2
      have hlength := (led.redirected known here verdict).straight.length_path
      rw [path_redirected led.straight here verdict, List.length_append,
        led.straight.length_path, List.length_singleton] at hlength
      omega

end Trail.Led

theorem Trail.tip_visit_origin (origin : String) :
    (({ origin := origin } : Trail).visit origin).tip = origin := by
  have hpath := (Straight.visit_origin origin).2
  simp only [tip, hpath]
  rfl

theorem Trail.tip_of_path_append {t : Trail} {urls : List String} {last : String}
    (h : t.path = urls ++ [last]) : t.tip = last := by
  simp [tip, h]

theorem Trail.origin_unwind (t : Trail) (walked : List String) (url : String) :
    (t.unwind walked url).2.origin = t.origin := by
  fun_induction unwind t walked url with
  | case1 => rfl
  | case2 => rfl
  | case3 t walked url previous found rest fresh ih => exact ih

theorem Trail.origin_retrace (t : Trail) (terminal : String) :
    (t.retrace terminal).2.origin = t.origin := origin_unwind _ _ _

namespace Walker

def concludeArrival (origin url : String) : Except (List String) String → Except Failure String
  | .ok _ => .ok url
  | .error walk => .error (.loop origin walk)

inductive Walk (rules : Rules) (id : WalkerId) :
    Traffic → Walker → Traffic × Walker × Option (Except Failure String) → Prop where
  | idle {t : Traffic} {w : Walker} (empty : w.inbox = []) : Walk rules id t w (t, w, none)
  | failed {t : Traffic} {w : Walker} {response : Response} {inbox : List Response}
      {failure : Failure} (read : w.inbox = response :: inbox)
      (verdict : rules.verdict w.trail response = .failed failure) :
      Walk rules id t w (t, { w with inbox := inbox }, some (.error failure))
  | arrived {t : Traffic} {w : Walker} {response : Response} {inbox : List Response}
      (read : w.inbox = response :: inbox)
      (verdict : rules.verdict w.trail response = .arrived) :
      Walk rules id t w
        (t, { w with trail := (w.trail.retrace response.url).2, inbox := inbox },
          some (concludeArrival w.trail.origin response.url (w.trail.retrace response.url).1))
  | refused {t after : Traffic} {w w' : Walker} {response : Response} {inbox : List Response}
      {next : String} {failure : Failure} (read : w.inbox = response :: inbox)
      (verdict : rules.verdict w.trail response = .redirect next)
      (asked : t.Asked id { w with trail := w.trail.extend next response.url, inbox := inbox } next
        (after, w', some failure)) :
      Walk rules id t w (after, w', some (.error failure))
  | onward {t after : Traffic} {w w' : Walker} {response : Response} {inbox : List Response}
      {next : String} {result : Traffic × Walker × Option (Except Failure String)}
      (read : w.inbox = response :: inbox)
      (verdict : rules.verdict w.trail response = .redirect next)
      (asked : t.Asked id { w with trail := w.trail.extend next response.url, inbox := inbox } next
        (after, w', none))
      (rest : Walk rules id after w' result) : Walk rules id t w result

theorem walk_proceed (rules : Rules) (id : WalkerId) (t : Traffic) (w : Walker) :
    Walk rules id t w (w.proceed rules id t) := by
  fun_induction proceed rules id t w with
  | case1 t w empty => exact .idle empty
  | case2 t w response inbox read failure verdict => exact .failed read verdict
  | case3 t w response inbox read verdict stop trail retraced =>
      have harrived := @Walk.arrived rules id t _ _ _ read verdict
      rw [retraced] at harrived
      cases stop <;> exact harrived
  | case4 t w response inbox read next verdict after w' failure asked =>
      exact .refused read verdict (asked ▸ Traffic.asked_ask _ _ _ _)
  | case5 t w response inbox read next verdict after w' asked ih =>
      exact .onward read verdict (asked ▸ Traffic.asked_ask _ _ _ _) ih

namespace Walk

variable {rules : Rules} {id : WalkerId} {t : Traffic} {w : Walker}
  {result : Traffic × Walker × Option (Except Failure String)}

theorem isAskedMore (h : Walk rules id t w result) : t.web.IsAskedMore result.1.web := by
  induction h with
  | idle => exact .refl _
  | failed => exact .refl _
  | arrived => exact .refl _
  | refused read verdict asked => exact asked.isAskedMore
  | onward read verdict asked rest ih => exact asked.isAskedMore.trans ih

theorem stage_eq (h : Walk rules id t w result) : result.2.1.stage = w.stage := by
  induction h with
  | idle => rfl
  | failed => rfl
  | arrived => rfl
  | refused read verdict asked => exact asked.stage_eq
  | onward read verdict asked rest ih => exact ih.trans asked.stage_eq

theorem origin_eq (h : Walk rules id t w result) :
    result.2.1.trail.origin = w.trail.origin := by
  induction h with
  | idle => rfl
  | failed => rfl
  | arrived => exact Trail.origin_retrace _ _
  | refused read verdict asked =>
      have htrail := congrArg Trail.origin asked.trail_eq
      exact htrail.trans (Trail.origin_visit _ _)
  | onward read verdict asked rest ih =>
      have htrail := congrArg Trail.origin asked.trail_eq
      exact ih.trans (htrail.trans (Trail.origin_visit _ _))

theorem crowded (h : Walk rules id t w result) (hcrowded : t.Crowded) : result.1.Crowded := by
  induction h with
  | idle => exact hcrowded
  | failed => exact hcrowded
  | arrived => exact hcrowded
  | refused read verdict asked => exact asked.crowded hcrowded
  | onward read verdict asked rest ih => exact ih (asked.crowded hcrowded)

theorem places_of_ne (h : Walk rules id t w result) {other : WalkerId} (hne : other ≠ id) :
    result.1.places other = t.places other := by
  induction h with
  | idle => rfl
  | failed => rfl
  | arrived => rfl
  | refused read verdict asked => exact asked.places_of_ne hne
  | onward read verdict asked rest ih => exact ih.trans (asked.places_of_ne hne)

theorem traffic_eq (h : Walk rules id t w result)
    (hstays : ∀ response inbox next, w.inbox = response :: inbox →
      rules.verdict w.trail response ≠ .redirect next) : result.1 = t := by
  cases h with
  | idle => rfl
  | failed => rfl
  | arrived => rfl
  | refused read verdict => exact absurd verdict (hstays _ _ _ read)
  | onward read verdict => exact absurd verdict (hstays _ _ _ read)

end Walk

/-- A walker that responses have led to the tip of its trail, and that either has the one response
for which it waited there or waits for it, there only and once. -/
structure Underway (rules : Rules) (heard : Response → Prop) (places : String → Nat)
    (w : Walker) : Prop where
  led : w.trail.Led rules heard
  place :
    (∃ response, w.inbox = [response] ∧ heard response ∧ response.url = w.trail.tip ∧
      ∀ url, places url = 0) ∨
    (w.inbox = [] ∧ ∀ url, places url = if url = w.trail.tip then 1 else 0)

/-- A walker that has ended waits, if at all, for URLs that it has visited, for each once. -/
def Ended (places : String → Nat) (w : Walker) : Prop :=
  ∀ url, places url ≤ if url ∈ w.trail.visited then 1 else 0

theorem Underway.ended {rules : Rules} {heard : Response → Prop} {places : String → Nat}
    {w : Walker} (h : w.Underway rules heard places) : w.Ended places := by
  intro url
  obtain ⟨response, hinbox, known, here, hplaces⟩ | ⟨hinbox, hplaces⟩ := h.place
  · rw [hplaces url]
    exact Nat.zero_le _
  · rw [hplaces url]
    by_cases htip : url = w.trail.tip
    · have hvisited : url ∈ w.trail.visited := by
        rw [htip, h.led.straight.mem_visited_iff]
        exact w.trail.tip_mem_path
      rw [if_pos hvisited]
      split <;> omega
    · rw [if_neg htip]
      exact Nat.zero_le _

/-- The results to which heard responses lead from an origin, and the refusal of a request. -/
inductive Yields (rules : Rules) (heard : Response → Prop) (refusing : Bool) (origin : String) :
    Except Failure String → Prop where
  | arrived {t : Trail} {response : Response} (led : t.Led rules heard) (start : t.origin = origin)
      (known : heard response) (here : response.url = t.tip)
      (verdict : rules.verdict t response = .arrived) :
      Yields rules heard refusing origin (.ok response.url)
  | failed {t : Trail} {response : Response} {failure : Failure} (led : t.Led rules heard)
      (start : t.origin = origin) (known : heard response) (here : response.url = t.tip)
      (verdict : rules.verdict t response = .failed failure) :
      Yields rules heard refusing origin (.error failure)
  | refused (refused : refusing = true) : Yields rules heard refusing origin (.error .refused)

variable {rules : Rules} {heard : Response → Prop} {id : WalkerId} {t : Traffic} {w : Walker}
  {result : Traffic × Walker × Option (Except Failure String)}

/-- A walker that asks for the tip of its new trail is under way, even where it is refused. -/
theorem Underway.of_asked {url : String} {result : Traffic × Walker × Option Failure}
    (asked : t.Asked id w url result) (led : (w.trail.visit url).Led rules heard)
    (tip : (w.trail.visit url).tip = url) (empty : w.inbox = [])
    (unlisted : ∀ place, t.places id place = 0)
    (hweb : ∀ place response, t.web.answerAtOnce? place = some response → heard response) :
    result.2.1.Underway rules heard (result.1.places id) := by
  constructor
  · rw [asked.trail_eq]
    exact led
  · rw [asked.trail_eq, tip]
    obtain ⟨response, atOnce, hinbox, -, hplaces⟩ | ⟨hinbox, hplaces⟩ := asked.places_self
    · rw [empty] at hinbox
      exact Or.inl ⟨response, hinbox, hweb url response atOnce, Web.url_of_answerAtOnce? atOnce,
        fun place => by rw [hplaces, unlisted]⟩
    · rw [empty] at hinbox
      exact Or.inr ⟨hinbox, fun place => by rw [hplaces, unlisted, Nat.zero_add]⟩

theorem Underway.of_read {places : String → Nat} {response : Response} {inbox : List Response}
    (h : w.Underway rules heard places) (read : w.inbox = response :: inbox) :
    inbox = [] ∧ heard response ∧ response.url = w.trail.tip ∧ ∀ url, places url = 0 := by
  obtain ⟨received, hinbox, known, here, hplaces⟩ | ⟨hinbox, _⟩ := h.place
  · obtain ⟨rfl, rfl⟩ := List.cons.inj (read.symm.trans hinbox)
    exact ⟨rfl, known, here, hplaces⟩
  · rw [hinbox] at read
    contradiction

theorem Underway.redirect {response : Response} {inbox : List Response} {next : String}
    {result : Traffic × Walker × Option Failure} (h : w.Underway rules heard (t.places id))
    (read : w.inbox = response :: inbox)
    (verdict : rules.verdict w.trail response = .redirect next)
    (asked : t.Asked id { w with trail := w.trail.extend next response.url, inbox := inbox } next
      result)
    (hweb : ∀ place response, t.web.answerAtOnce? place = some response → heard response) :
    result.2.1.Underway rules heard (result.1.places id) := by
  obtain ⟨rfl, known, here, hplaces⟩ := h.of_read read
  exact .of_asked asked (h.led.redirected known here verdict)
    (Trail.tip_of_path_append (Trail.Led.path_redirected h.led.straight here verdict))
    rfl hplaces hweb

theorem Underway.walk (h : w.Underway rules heard (t.places id)) (walk : Walk rules id t w result)
    (hweb : ∀ url response, t.web.answerAtOnce? url = some response → heard response) :
    result.2.1.inbox = [] ∧
      match result.2.2 with
      | none => result.2.1.Underway rules heard (result.1.places id)
      | some ending =>
          result.2.1.Ended (result.1.places id) ∧
            Yields rules heard t.web.refusing w.trail.origin ending := by
  induction walk with
  | idle empty => exact ⟨empty, h⟩
  | failed read verdict =>
      obtain ⟨rfl, known, here, -⟩ := h.of_read read
      exact ⟨rfl, h.ended, .failed h.led rfl known here verdict⟩
  | arrived read verdict =>
      obtain ⟨rfl, known, here, hplaces⟩ := h.of_read read
      have hretrace := h.led.straight.retrace_tip
      rw [← here] at hretrace
      refine ⟨rfl, fun url => by simp [hplaces], ?_⟩
      simp only [hretrace, concludeArrival]
      exact .arrived h.led rfl known here verdict
  | refused read verdict asked =>
      have hended := (h.redirect read verdict asked hweb).ended
      obtain ⟨rfl, -⟩ := h.of_read read
      cases asked with
      | refused absent refusing => exact ⟨rfl, hended, .refused refusing⟩
  | onward read verdict asked rest ih =>
      have hafter := h.redirect read verdict asked hweb
      have hmore := asked.isAskedMore
      obtain ⟨hinbox, hresult⟩ := ih hafter (by rwa [hmore.answerAtOnce?_eq])
      have horigin := (congrArg Trail.origin asked.trail_eq).trans (Trail.origin_visit _ _)
      refine ⟨hinbox, ?_⟩
      split
      · rename_i hnone
        rw [hnone] at hresult
        exact hresult
      · rename_i ending hsome
        rw [hsome] at hresult
        exact ⟨hresult.1, horigin ▸ hmore.refusing_eq ▸ hresult.2⟩

end Walker

end LinkTrail
