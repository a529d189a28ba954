import LinkTrail.Proofs.Pathfinder.Callers
import LinkTrail.Settings

/-!
Where URLs lead. Main statement: if each URL has one answer, then what a caller learns is settled by
these answers alone, whatever else happens and in whatever order (`caller_learns_destination`).
-/

namespace LinkTrail

/-- For each URL the error that comes instead of a response, or the location in its response. -/
abbrev Answers := String → Except String (Option String)

def Response.answer (r : Response) : Except String (Option String) :=
  match r.error with
  | some detail => .error detail
  | none => .ok r.location?

/-- The outcome of a walk from `origin` that has passed the URLs in `passed` and stands at `url`. -/
def Rules.destiny (rules : Rules) (answers : Answers) (origin : String) (passed : List String)
    (url : String) : Outcome :=
  match answers url with
  | .error detail => .failed (.requestFailed origin url detail)
  | .ok location? =>
      match location?.filter (· ≠ "") with
      | none => .arrived ⟨origin, url⟩
      | some location =>
          match rules.join url location with
          | .error cause => .failed (.badUrl cause)
          | .ok next =>
              if next = url then .arrived ⟨origin, url⟩
              else if next ∈ passed ++ [url] then
                .failed (.loop origin (passed ++ [url] ++ [next]))
              else if rules.maxRedirects ≤ passed.length then
                .failed (.tooManyRedirects origin rules.maxRedirects)
              else rules.destiny answers origin (passed ++ [url]) next
termination_by (rules.maxRedirects - passed.length).toNat
decreasing_by
  simp only [List.length_append, List.length_singleton]
  omega

def Rules.destination (rules : Rules) (answers : Answers) (url : String) : Outcome :=
  rules.destiny answers url [] url

namespace Trail

variable {rules : Rules} {answers : Answers} {t : Trail}

theorem Straight.length_dropLast (h : t.Straight) : t.path.dropLast.length = t.hops.size := by
  rw [List.length_dropLast, h.length_path]
  rfl

theorem Straight.destiny_eq (h : t.Straight) {response : Response}
    (known : response.answer = answers response.url) (here : response.url = t.tip) :
    rules.destiny answers t.origin t.path.dropLast t.tip =
      match rules.verdict t response with
      | .arrived => .arrived ⟨t.origin, response.url⟩
      | .failed failure => .failed failure
      | .redirect next => rules.destiny answers t.origin t.path next := by
  rw [Rules.destiny, ← here, ← known, here, t.dropLast_append_tip, h.length_dropLast, ← here]
  unfold Response.answer Rules.verdict
  cases response.error with
  | some detail => rfl
  | none =>
      dsimp only
      cases response.location?.filter (· ≠ "") with
      | none => rfl
      | some location =>
          dsimp only
          cases rules.join response.url location with
          | error cause => rfl
          | ok next =>
              simp only [h.mem_visited_iff]
              by_cases hsame : next = response.url
              · simp [hsame]
              · by_cases hloop : next ∈ t.path
                · simp [hsame, hloop]
                · by_cases hmany : rules.maxRedirects ≤ t.hops.size
                  · simp [hsame, hloop, hmany]
                  · simp [hsame, hloop, hmany]

/-- Along a trail on which answers have led, the outcome stays that of its origin. -/
theorem Led.destiny_eq (h : t.Led rules fun response => response.answer = answers response.url) :
    rules.destination answers t.origin = rules.destiny answers t.origin t.path.dropLast t.tip := by
  induction h with
  | setOut origin =>
      rw [(Straight.visit_origin origin).2, tip_visit_origin, origin_visit]
      rfl
  | @redirected t response next led known here verdict ih =>
      have hpath := Led.path_redirected led.straight here verdict
      have hstep := @Straight.destiny_eq rules answers t led.straight response known here
      rw [verdict] at hstep
      rw [hpath, tip_of_path_append hpath, List.dropLast_concat, origin_visit]
      exact ih.trans hstep

end Trail

theorem Walker.Yields.outcome_eq {rules : Rules} {answers : Answers} {refusing : Bool}
    {origin : String} {result : Except Failure String}
    (h : Yields rules (fun response => response.answer = answers response.url) refusing origin
      result) :
    Outcome.ofResult origin result = rules.destination answers origin ∨
      refusing = true ∧ result = .error .refused := by
  cases h with
  | arrived led start known here verdict =>
      left
      rw [← start, led.destiny_eq, led.straight.destiny_eq known here, verdict]
      rfl
  | failed led start known here verdict =>
      left
      rw [← start, led.destiny_eq, led.straight.destiny_eq known here, verdict]
      rfl
  | refused refused => exact Or.inr ⟨refused, rfl⟩

namespace Pathfinder

/-- Each response that comes in with the action, now or at once when it is asked for, gives the
answer of its URL. -/
def Action.AgreesWith (answers : Answers) : Action → Prop
  | deliver response => response.answer = answers response.url
  | answerAtOnce url response? => ∀ response ∈ response?, response.answer = answers url
  | _ => True

/-- If each URL has one answer, then a caller who has an outcome has that to which the answers lead
from the caller's URL, unless the walk ran out of time, was cancelled by a close or had a request
refused. -/
theorem caller_learns_destination (rules : Rules) (answers : Answers)
    (answer? : String → Option Response) (actions : List Action)
    (hanswer : ∀ url, ∀ response ∈ answer? url, response.answer = answers url)
    (hactions : ∀ action ∈ actions, action.AgreesWith answers) :
    let p := (onWeb { answer? := answer? }).run rules actions
    ∀ (ticket : Ticket) (caller : Caller) (outcome : Outcome),
      p.callers[ticket]? = some caller → caller.progress = .done outcome →
        outcome = rules.destination answers caller.url ∨
        (∃ limit, rules.timeout = some limit ∧
          outcome = .failed (.timedOut caller.url limit)) ∨
        (.close ∈ actions ∧ outcome = .failed (.cancelled caller.url)) ∨
        (.refuseRequests true ∈ actions ∧ outcome = .failed .refused) := by
  intro p
  have hweb : ∀ url response, answer? url = some response →
      ({ response with url := url } : Response).answer = answers url := fun url response hfound =>
    hanswer url response hfound
  have hresting : Resting rules (fun response => response.answer = answers response.url)
      (.close ∈ actions) (onWeb { answer? := answer? }) := .onWeb hweb
  have hserved : Served (fun url outcome =>
      outcome = rules.destination answers url ∨
      (∃ limit, rules.timeout = some limit ∧ outcome = .failed (.timedOut url limit)) ∨
      (.close ∈ actions ∧ outcome = .failed (.cancelled url)) ∨
      (.refuseRequests true ∈ actions ∧ outcome = .failed .refused)) p := by
    refine Served.run ⟨by simp [Told, onWeb], by simp [onWeb]⟩ hresting (by simp [onWeb, web]) ?_
      (fun hrefused => hrefused) ?_ ?_
    · intro action hmem
      have hagrees := hactions action hmem
      cases action with
      | close => exact hmem
      | deliver response => exact hagrees
      | answerAtOnce url response? => exact hagrees
      | _ => trivial
    · exact fun hclosed origin => Or.inr (Or.inr (Or.inl ⟨hclosed, rfl⟩))
    · intro refusing hrefusing origin result hends
      rcases hends with hyields | ⟨limit, htimeout, rfl⟩
      · rcases hyields.outcome_eq with hsame | ⟨hrefused, rfl⟩
        · exact Or.inl hsame
        · exact Or.inr (Or.inr (Or.inr ⟨hrefusing hrefused, rfl⟩))
      · exact Or.inr (Or.inl ⟨limit, htimeout, rfl⟩)
  exact hserved.told

/-- A walk over one redirect, heard of twice. -/
theorem redirected_caller_learns_destination :
    let rules := { ({} : Settings).rules with timeout := none }
    let answers : Answers := fun url => .ok (if url = "http://a/" then some "/b" else none)
    let p := (onWeb {}).run rules
      [.attach, .resolve "http://a/", .deliver (.redirect "http://a/" "/b"),
        .deliver (.redirect "http://a/" "/b"), .drain, .deliver { url := "http://a/b" }, .drain]
    let outcome : Outcome := .arrived ⟨"http://a/", "http://a/b"⟩
    p.callers[0]? = some ⟨"http://a/", .done outcome⟩ ∧
      outcome = rules.destination answers "http://a/" := by
  intro rules answers p outcome
  have hcaller : p.callers[0]? = some ⟨"http://a/", .done outcome⟩ := by decide +kernel
  have hredirect : (Response.redirect "http://a/" "/b").answer = .ok (some "/b") :=
    congrArg Except.ok (Response.location?_redirect _ _)
  have hactions : ∀ action ∈ [.attach, .resolve "http://a/",
      .deliver (.redirect "http://a/" "/b"), .deliver (.redirect "http://a/" "/b"), .drain,
      .deliver { url := "http://a/b" }, .drain], Action.AgreesWith answers action := by
    simp only [List.forall_mem_cons, Action.AgreesWith, hredirect]
    simp [answers, Response.redirect, Response.answer, Response.location?, Headers.find?,
      Headers.scan?, Table.empty, Table.get?]
  have hlearns := caller_learns_destination rules answers (fun _ => none) _ (by simp) hactions
    0 _ outcome hcaller rfl
  refine ⟨hcaller, ?_⟩
  simpa [rules, outcome] using hlearns

end Pathfinder

end LinkTrail
