import LinkTrail.Proofs.Pathfinder.Headway
import LinkTrail.Proofs.Pathfinder.Outstanding
import LinkTrail.Proofs.Transport.Exchanges
import LinkTrail.Proofs.Transport.Lone

/-!
Many chains over one transport. Main statement: in each round, of responses and a turn, every chain
moves as it does by itself (`Transport.Serving.serve`).
-/

namespace LinkTrail

theorem Walker.Walk.of_silent {rules : Rules} {id : WalkerId} {t : Traffic} {w : Walker}
    {response : Response} {result : Traffic × Walker × Option (Except Failure String)}
    (h : Walk rules id t w result) (hserving : t.web.refusing = false)
    (hsilent : ∀ url, t.web.answerAtOnce? url = none) (hinbox : w.inbox = [response]) :
    match rules.verdict w.trail response with
    | .arrived => result.2.2 =
        some (concludeArrival w.trail.origin response.url (w.trail.retrace response.url).1)
    | .failed failure => result.2.2 = some (.error failure)
    | .redirect next => result.2 =
        ({ w with trail := (w.trail.extend next response.url).visit next, inbox := [] }, none) := by
  cases h with
  | idle empty =>
      rw [hinbox] at empty
      contradiction
  | failed read verdict =>
      obtain ⟨rfl, rfl⟩ := List.cons.inj (hinbox.symm.trans read)
      rw [verdict]
  | arrived read verdict =>
      obtain ⟨rfl, rfl⟩ := List.cons.inj (hinbox.symm.trans read)
      rw [verdict]
  | refused read verdict asked =>
      cases asked with
      | refused absent refusing =>
          rw [hserving] at refusing
          contradiction
  | onward read verdict asked rest =>
      obtain ⟨rfl, rfl⟩ := List.cons.inj (hinbox.symm.trans read)
      rw [verdict]
      have hempty : ∀ {after : Traffic} {w' : Walker}, w'.inbox = [] → Walk rules id after w' result →
          result.2 = (w', none) := by
        intro after w' hinbox' hrest
        cases hrest with
        | idle => rfl
        | failed read => simp [hinbox'] at read
        | arrived read => simp [hinbox'] at read
        | refused read => simp [hinbox'] at read
        | onward read => simp [hinbox'] at read
      cases asked with
      | joined => exact hempty rfl rest
      | issued => exact hempty rfl rest
      | answered absent serving atOnce =>
          rw [hsilent] at atOnce
          contradiction

theorem Pathfinder.Attended.attached_eq {p q : Pathfinder} (h : Attended p) (h' : Attended q)
    (hlisteners : q.web.listeners = p.web.listeners) : q.attached = p.attached := by
  rw [h.listeners_eq, h'.listeners_eq] at hlisteners
  cases hp : p.attached <;> cases hq : q.attached <;> simp_all [Listeners.addForAll]

namespace Transport

open Pathfinder

variable {t : Transport} {limit : Seconds} {p q : Pathfinder} {ticket : Ticket} {url : String}
  {urls : List String} {served : Nat} {stand : Stand} {stands : String → Stand}

def Brings (t : Transport) (response : Response) : Prop :=
  PatternSet.allUrls.accepts response.url = true ∧
    response = (t.reply response.url).response response.url

/-- So far stands the chain of the caller, between two turns at the beginning of time. -/
inductive StandsAt (limit : Seconds) (p : Pathfinder) (ticket : Ticket) (url : String) :
    Stand → Prop where
  | fresh {id : WalkerId} {w : Walker} (registered : p.registered.get? url = some id)
      (walker : p.walkers[id]? = some w) (stage : w.stage = .fresh)
      (caller : p.callers[ticket]? = some { url := url }) :
      StandsAt limit p ticket url (.going w.trail)
  | walking {id : WalkerId} {w : Walker} (registered : p.registered.get? url = some id)
      (walker : p.walkers[id]? = some w) (stage : w.stage = .walking (some (0 + limit)))
      (timely : ¬ limit ≤ 0) (left : ¬ Timer.strict.isDue (0 + limit) 0 = true)
      (caller : p.callers[ticket]? = some { url := url }) :
      StandsAt limit p ticket url (.going w.trail)
  | ended {outcome : Outcome} (caller : p.callers[ticket]? = some ⟨url, .done outcome⟩) :
      StandsAt limit p ticket url (.ended outcome)

/-- Between two turns at the beginning of time: the chains of the callers stand where `stands` says,
and who waits for a response that can be heard waits for that of a request that is still to be
served. -/
structure Serving (t : Transport) (urls : List String) (limit : Seconds) (served : Nat)
    (stands : String → Stand) (p : Pathfinder) : Prop where
  resting : Resting t.settings.rules t.Brings False p
  attended : Attended p
  attached : p.attached = true
  clock : p.clock = 0
  serving : p.web.refusing = false
  silent : ∀ url, p.web.answerAtOnce? url = none
  served_le : served ≤ p.web.fetched.length
  asked : ∀ url ∈ p.traffic.awaiting, PatternSet.allUrls.accepts url = true →
    url ∈ p.web.fetched.drop served
  stands : ∀ (ticket : Ticket) (url : String), urls[ticket]? = some url →
    StandsAt limit p ticket url (stands url)

theorem Serving.hears (h : Serving t urls limit served stands p) (url : String) :
    p.web.listeners.hears url = PatternSet.allUrls.accepts url :=
  h.attended.hears_eq h.attached url

structure Brought (t : Transport) (urls : List String) (p q : Pathfinder) : Prop where
  resting : Resting t.settings.rules t.Brings False p → Resting t.settings.rules t.Brings False q
  same : q = { p with traffic := q.traffic, walkers := q.walkers, queue := q.queue }
  web : q.web = p.web
  walker : ∀ (id : WalkerId) (w : Walker), p.walkers[id]? = some w →
    ∃ inbox, q.walkers[id]? = some { w with inbox := inbox }
  awaiting : ∀ url ∈ q.traffic.awaiting, url ∈ p.traffic.awaiting ∧
    (PatternSet.allUrls.accepts url = true → url ∉ urls)

theorem brought_deliver (hhears : ∀ url, p.web.listeners.hears url = PatternSet.allUrls.accepts url)
    (url : String) : Brought t [url] p (p.deliver ((t.reply url).response url)) := by
  have hurl := url_response (t.reply url) url
  generalize hresponse : (t.reply url).response url = response at hurl
  refine ⟨?_, deliver_eq p response, web_deliver p response, ?_, ?_⟩
  · intro h
    cases hheard : PatternSet.allUrls.accepts url with
    | false =>
        rw [deliver_of_unheard (by rw [hurl, hhears, hheard])]
        exact h
    | true =>
        refine @Resting.act _ _ _ _ h (.deliver response) ⟨?_, ?_⟩
        · rw [hurl, hheard]
        · rw [hurl, hresponse]
  · intro id w hw
    obtain ⟨responses, hafter⟩ := walker_deliver hw response
    exact ⟨_, hafter⟩
  · intro other hmem
    refine ⟨mem_awaiting_of_deliver hmem, ?_⟩
    intro haccepts hother
    obtain rfl := List.mem_singleton.1 hother
    have hreaches : p.Reaches other (.deliver response) := ⟨hurl, by rw [hhears, haccepts]⟩
    exact @not_mem_awaiting_of_reaches t.settings.rules p _ other hreaches hmem

theorem brought_foldl_deliver
    (hhears : ∀ url, p.web.listeners.hears url = PatternSet.allUrls.accepts url) (urls : List String) :
    Brought t urls p (urls.foldl (fun p url => p.deliver ((t.reply url).response url)) p) := by
  induction urls generalizing p with
  | nil =>
      exact ⟨fun h => h, rfl, rfl, fun _ w hw => ⟨w.inbox, hw⟩,
        fun url hmem => ⟨hmem, fun _ => List.not_mem_nil⟩⟩
  | cons first urls ih =>
      have hfirst := @brought_deliver t p hhears first
      rw [List.foldl_cons]
      generalize p.deliver ((t.reply first).response first) = middle at hfirst
      have hrest := @ih middle (by rw [hfirst.web]; exact hhears)
      generalize urls.foldl (fun p url => p.deliver ((t.reply url).response url)) middle = q at hrest
      refine ⟨fun h => hrest.resting (hfirst.resting h), ?_, hrest.web.trans hfirst.web, ?_, ?_⟩
      · have hsame := hrest.same
        rw [hfirst.same] at hsame
        exact hsame
      · intro id w hw
        obtain ⟨inbox, hmiddle⟩ := hfirst.walker id w hw
        obtain ⟨inbox', hlast⟩ := hrest.walker id _ hmiddle
        exact ⟨inbox', hlast⟩
      · intro url hmem
        obtain ⟨hmiddle, hlater⟩ := hrest.awaiting url hmem
        obtain ⟨hbefore, hnot⟩ := hfirst.awaiting url hmiddle
        refine ⟨hbefore, fun haccepts hurls => ?_⟩
        rcases List.mem_cons.1 hurls with rfl | hurls
        · exact hnot haccepts (List.mem_singleton_self url)
        · exact hlater haccepts hurls

theorem Brought.standsAt (h : Brought t urls p q) (hstands : StandsAt limit p ticket url stand) :
    StandsAt limit q ticket url stand := by
  have hregistered : q.registered = p.registered := by rw [h.same]
  have hcallers : q.callers = p.callers := by rw [h.same]
  cases hstands with
  | @fresh id w registered walker stage caller =>
      obtain ⟨inbox, hw⟩ := h.walker id w walker
      rw [← hregistered] at registered
      rw [← hcallers] at caller
      exact @StandsAt.fresh limit q ticket url id { w with inbox := inbox } registered hw stage caller
  | @walking id w registered walker stage timely left caller =>
      obtain ⟨inbox, hw⟩ := h.walker id w walker
      rw [← hregistered] at registered
      rw [← hcallers] at caller
      exact @StandsAt.walking limit q ticket url id { w with inbox := inbox } registered hw stage
        timely left caller
  | ended caller => exact .ended (hcallers ▸ caller)

/-- When all that has been asked for has come in, nobody waits for what can be heard. -/
theorem Serving.foldl_deliver (h : Serving t urls limit served stands p) :
    Serving t urls limit p.web.fetched.length stands
      ((p.web.fetched.drop served).foldl (fun p url => p.deliver ((t.reply url).response url)) p) := by
  have hbrought := @brought_foldl_deliver t p h.hears (p.web.fetched.drop served)
  generalize (p.web.fetched.drop served).foldl _ p = q at hbrought
  have hweb := hbrought.web
  refine ⟨hbrought.resting h.resting, ?_, ?_, ?_, ?_, ?_, ?_, ?_, ?_⟩
  · exact h.attended.congr (by rw [hbrought.same]) (by rw [hbrought.same])
      (by rw [hbrought.same]) (by rw [hbrought.same]) (by rw [hweb])
  · rw [hbrought.same]
    exact h.attached
  · rw [hbrought.same]
    exact h.clock
  · rw [hweb]
    exact h.serving
  · rw [hweb]
    exact h.silent
  · exact Nat.le_of_eq (congrArg (fun web => web.fetched.length) hweb.symm)
  · intro url hmem haccepts
    obtain ⟨hbefore, hnot⟩ := hbrought.awaiting url hmem
    exact absurd (h.asked url hbefore haccepts) (hnot haccepts)
  · exact fun ticket url hurl => hbrought.standsAt (h.stands ticket url hurl)

theorem StandsAt.of_ended {rules : Rules} {id : WalkerId} {after : Walker}
    {result : Except Failure String} (h : Headway rules limit url id p q (after, some result))
    (hcaller : p.callers[ticket]? = some { url := url }) :
    StandsAt limit q ticket url (.ended (.ofResult url result)) :=
  .ended (h.concludes.told ticket _ hcaller rfl)

theorem StandsAt.of_moved {rules : Rules} {id : WalkerId} {after : Walker}
    (h : Headway rules limit url id p q (after, none)) (htimer : rules.timer = .strict)
    (hclock : p.clock = 0)
    (hcaller : p.callers[ticket]? = some { url := url }) (htimely : ¬ limit ≤ 0)
    (hstage : after.stage = .walking (some (0 + limit))) (horigin : after.trail.origin = url) :
    StandsAt limit q ticket url (.onward limit after.trail) := by
  have hdue : after.isOverdue rules p.clock = Timer.strict.isDue (0 + limit) 0 := by
    rw [isOverdue_of_walking hstage, hclock, htimer]
  unfold Stand.onward
  cases h with
  | overdue overdue concludes =>
      rw [if_pos (hdue ▸ overdue), horigin]
      exact .ended (concludes.told ticket _ hcaller rfl)
  | onward timely goesOn =>
      rw [hdue] at timely
      rw [if_neg timely]
      exact .walking goesOn.registered goesOn.walker hstage htimely timely
        (goesOn.same ticket _ hcaller rfl)

theorem StandsAt.of_read {rules : Rules} {id : WalkerId} {w : Walker} {traffic : Traffic}
    {response : Response}
    (h : Headway rules limit url id p q (w.proceed rules id traffic).2)
    (htimer : rules.timer = .strict) (hserving : traffic.web.refusing = false)
    (hsilent : ∀ url, traffic.web.answerAtOnce? url = none) (hinbox : w.inbox = [response])
    (hurl : response.url = w.trail.tip) (hstraight : w.trail.Straight) (hclock : p.clock = 0)
    (hcaller : p.callers[ticket]? = some { url := url }) (htimely : ¬ limit ≤ 0)
    (hstage : w.stage = .walking (some (0 + limit))) (horigin : w.trail.origin = url) :
    StandsAt limit q ticket url (.read limit w.trail (rules.verdict w.trail response)) := by
  have hwalk := (w.walk_proceed rules id traffic).of_silent hserving hsilent hinbox
  generalize w.proceed rules id traffic = result at h hwalk
  obtain ⟨traffic', after, result?⟩ := result
  cases hverdict : rules.verdict w.trail response with
  | arrived =>
      rw [hverdict, hurl, hstraight.retrace_tip] at hwalk
      obtain rfl : result? = some (.ok w.trail.tip) := hwalk
      rw [Stand.read, horigin]
      exact .of_ended h hcaller
  | failed failure =>
      rw [hverdict] at hwalk
      obtain rfl : result? = some (.error failure) := hwalk
      exact .of_ended h hcaller
  | redirect next =>
      rw [hverdict, hurl] at hwalk
      rw [hwalk] at h
      exact .of_moved h htimer hclock hcaller htimely hstage
        ((Trail.origin_extend_visit _ _ _ _).trans horigin)

theorem Serving.inbox (h : Serving t urls limit p.web.fetched.length stands p) {id : WalkerId}
    {w : Walker} (hregistered : p.registered.get? url = some id) (hw : p.walkers[id]? = some w) :
    w.trail.origin = url ∧ w.trail.Straight ∧
      if PatternSet.allUrls.accepts w.trail.tip = true then
        w.inbox = [(t.reply w.trail.tip).response w.trail.tip]
      else w.inbox = [] := by
  obtain ⟨w', hw', horigin, hunderway⟩ := h.resting.kept.underway List.not_mem_nil hregistered
  obtain rfl := Option.some.inj (hw.symm.trans hw')
  refine ⟨horigin, hunderway.led.straight, ?_⟩
  rcases hunderway.place with ⟨response, hinbox, ⟨haccepts, hresponse⟩, here, -⟩ | ⟨hinbox, hplaces⟩
  · rw [here] at haccepts hresponse
    rw [if_pos haccepts, ← hresponse]
    exact hinbox
  · rw [if_neg]
    · exact hinbox
    · intro haccepts
      have hlisted : id ∈ p.traffic.waiters w.trail.tip := by
        rw [Traffic.mem_waiters_iff, hplaces, if_pos rfl]
        exact Nat.one_pos
      have hasked := h.asked _ (h.resting.kept.crowded.mem_awaiting_iff.2 ⟨id, hlisted⟩) haccepts
      rw [List.drop_length] at hasked
      exact List.not_mem_nil hasked

/-- A walker with time takes its turn as its chain does by itself. -/
theorem Serving.standsAt_turn (h : Serving t urls limit p.web.fetched.length stands p)
    (htimed : t.settings.timeout = some limit) (htimely : ¬ limit ≤ 0) {id : WalkerId} {w : Walker}
    (hregistered : p.registered.get? url = some id) (hw : p.walkers[id]? = some w)
    (hstage : (w.started t.settings.rules p.clock).stage = .walking (some (0 + limit)))
    (hcaller : p.callers[ticket]? = some { url := url }) :
    StandsAt limit (p.drain t.settings.rules) ticket url (t.turn limit (.going w.trail)) := by
  obtain ⟨traffic, hweb, hheadway⟩ :=
    h.attended.headway_drain h.resting htimed hregistered hw fun _ => htimely
  have hserving := hweb.refusing_eq.trans h.serving
  have hsilent : ∀ url, traffic.web.answerAtOnce? url = none := by
    rw [hweb.answerAtOnce?_eq]
    exact h.silent
  obtain ⟨horigin, hstraight, hinbox⟩ := h.inbox hregistered hw
  have htrail := w.trail_started t.settings.rules p.clock
  have hsame := w.inbox_started t.settings.rules p.clock
  generalize w.started t.settings.rules p.clock = v at hheadway hstage htrail hsame
  rw [← hsame, ← htrail] at hinbox
  rw [← htrail] at horigin hstraight ⊢
  simp only [turn, if_neg htimely]
  split at hinbox
  · rename_i haccepts
    rw [if_pos haccepts]
    exact .of_read hheadway rfl hserving hsilent hinbox (url_response _ _) hstraight h.clock hcaller
      htimely hstage horigin
  · rename_i hunheard
    rw [if_neg hunheard]
    rw [Walker.proceed, hinbox] at hheadway
    exact .of_moved hheadway rfl h.clock hcaller htimely hstage horigin

theorem Serving.standsAt_drain (h : Serving t urls limit p.web.fetched.length stands p)
    (htimed : t.settings.timeout = some limit) (hstands : StandsAt limit p ticket url stand) :
    StandsAt limit (p.drain t.settings.rules) ticket url (t.turn limit stand) := by
  cases hstands with
  | @fresh id w registered walker stage caller =>
      by_cases hlate : limit ≤ 0
      · obtain ⟨horigin, -⟩ := h.inbox registered walker
        have hconcludes := h.attended.concludes_of_late h.resting htimed registered walker stage hlate
        rw [turn, if_pos hlate, horigin]
        exact .ended (hconcludes.told ticket _ caller rfl)
      · have hstage : (w.started t.settings.rules p.clock).stage = .walking (some (0 + limit)) := by
          rw [stage_started_of_fresh htimed stage, h.clock]
        exact h.standsAt_turn htimed hlate registered walker hstage caller
  | @walking id w registered walker stage timely left caller =>
      have hstarted : (w.started t.settings.rules p.clock).stage = .walking (some (0 + limit)) := by
        rw [started_of_walking stage, stage]
      exact h.standsAt_turn htimed timely registered walker hstarted caller
  | ended caller =>
      obtain ⟨-, hsettles⟩ := h.attended.drain_of_timed h.resting htimed
      exact .ended (hsettles.settled caller (by simp))

theorem Serving.drain (h : Serving t urls limit p.web.fetched.length stands p)
    (htimed : t.settings.timeout = some limit) :
    Serving t urls limit p.web.fetched.length (fun url => t.turn limit (stands url))
      (p.drain t.settings.rules) := by
  have hweb := web_drain t.settings.rules p
  obtain ⟨hattended, -⟩ := h.attended.drain_of_timed h.resting htimed
  obtain ⟨more, hmore, haccounts⟩ := h.resting.accounts_drain fun _ => h.serving
  refine ⟨?_, hattended, ?_, ?_, ?_, ?_, ?_, ?_, ?_⟩
  · exact @Resting.act _ _ _ _ h.resting .drain trivial
  · exact (h.attended.attached_eq hattended hweb.listeners_eq).trans h.attached
  · exact (clock_drain t.settings.rules p).trans h.clock
  · exact hweb.refusing_eq.trans h.serving
  · rw [hweb.answerAtOnce?_eq]
    exact h.silent
  · rw [hmore, List.length_append]
    exact Nat.le_add_right _ _
  · intro url hmem haccepts
    rw [hmore, List.drop_left]
    rcases haccounts url hmem with ⟨hbefore, -⟩ | ⟨-, hasked, -⟩
    · have hnone := h.asked url hbefore haccepts
      rw [List.drop_length] at hnone
      exact absurd hnone List.not_mem_nil
    · exact hasked
  · exact fun ticket url hurl => h.standsAt_drain htimed (h.stands ticket url hurl)

/-- When nothing is left to be served between two turns, no chain moves any more. -/
theorem Serving.turn_eq (h : Serving t urls limit served stands p) (hqueue : p.queue = [])
    (hserved : p.web.fetched.drop served = []) (hurl : urls[ticket]? = some url) :
    t.turn limit (stands url) = stands url := by
  have hall : Serving t urls limit p.web.fetched.length stands p := by
    refine { h with served_le := Nat.le_refl _, asked := ?_ }
    intro other hmem haccepts
    have hnone := h.asked other hmem haccepts
    rw [hserved] at hnone
    exact absurd hnone List.not_mem_nil
  have hstands := h.stands ticket url hurl
  generalize stands url = stand at hstands
  cases hstands with
  | ended => rfl
  | @fresh id w registered walker stage caller =>
      obtain ⟨w', hw', -, -, hdue⟩ := h.resting.exists_stage registered
      obtain rfl := Option.some.inj (walker.symm.trans hw')
      rw [hqueue] at hdue
      exact absurd (hdue stage) List.not_mem_nil
  | @walking id w registered walker stage timely left caller =>
      apply t.turn_of_unheard limit timely left
      obtain ⟨-, -, hinbox⟩ := hall.inbox registered walker
      have hempty := h.resting.inbox_of_not_mem_queue ⟨url, registered⟩ walker
        (hqueue ▸ List.not_mem_nil)
      split at hinbox
      · rw [hempty] at hinbox
        contradiction
      · rename_i hunheard
        exact eq_false_of_ne_true hunheard

theorem Serving.serve (h : Serving t urls limit served stands p)
    (htimed : t.settings.timeout = some limit) (rounds : Nat)
    (hdue : p.queue = [] ∨ rounds ≠ 0 ∧ p.web.fetched.drop served ≠ []) :
    ∃ served', Serving t urls limit served' (fun url => (t.turn limit)^[rounds] (stands url))
        (t.serve t.settings.rules rounds served p) ∧
      (t.serve t.settings.rules rounds served p).queue = [] := by
  induction rounds generalizing served stands p with
  | zero => exact ⟨served, h, hdue.resolve_right fun hnever => hnever.1 rfl⟩
  | succ rounds ih =>
      unfold Transport.serve
      cases hasked : p.web.fetched.drop served with
      | nil =>
          have hqueue := hdue.resolve_right fun hnever => hnever.2 hasked
          refine ⟨served, { h with stands := ?_ }, hqueue⟩
          intro ticket url hurl
          rw [Function.iterate_fixed (h.turn_eq hqueue hasked hurl)]
          exact h.stands ticket url hurl
      | cons first rest =>
          have hlength : served + (first :: rest).length = p.web.fetched.length := by
            rw [← hasked, List.length_drop]
            exact Nat.add_sub_of_le h.served_le
          have hbrought := h.foldl_deliver
          rw [hasked] at hbrought
          dsimp only
          rw [hlength]
          have hweb := (@brought_foldl_deliver t p h.hears (first :: rest)).web
          have hfetched : ((first :: rest).foldl
              (fun p url => p.deliver ((t.reply url).response url)) p).web.fetched.length =
                p.web.fetched.length := by rw [hweb]
          rw [← hfetched] at hbrought ⊢
          exact ih (hbrought.drain htimed) (Or.inl rfl)

end Transport

end LinkTrail
