import LinkTrail.Proofs.Hub.Behaviour

/-!
One dispatch, whatever its callbacks do to the hub. Main statement: it calls the registrations of
its beginning in order, up to the first that raises, and every program leaves exactly the
registrations that its log accounts for (`dispatch_calls_snapshot`).
-/

namespace LinkTrail.Hub

variable {κ : Type}

def calledFor (response : Response) (l : Listener κ) : Event κ :=
  .called l { response with headers := if l.withHeaders then response.headers else .empty }

/-- The outermost events of a dispatch that hears nothing but calls: one for each of `heard`, or up
to the one that raises the error in which the dispatch ends. -/
inductive CallsInOrder (response : Response) (heard : List (Listener κ)) :
    Option Error → List (Event κ) → Prop where
  | all : CallsInOrder response heard none (heard.map (calledFor response))
  | upTo {before : List (Listener κ)} {l : Listener κ} {rest : List (Listener κ)} (error : Error)
      (hheard : heard = before ++ l :: rest) :
      CallsInOrder response heard (some error)
        (before.map (calledFor response) ++ [calledFor response l, .raised error])

theorem called_view (response : Response) (l : Listener κ) :
    Event.called l (l.view response) = calledFor response l := by
  rw [calledFor, Listener.view, Response.withoutHeaders]
  split <;> rfl

theorem CallsInOrder.cons {response : Response} {heard : List (Listener κ)}
    {result : Option Error} {events : List (Event κ)} (l : Listener κ)
    (h : CallsInOrder response heard result events) :
    CallsInOrder response (l :: heard) result (calledFor response l :: events) := by
  cases h with
  | all => exact .all
  | @upTo before last rest error hheard =>
      exact @upTo _ response (l :: heard) (l :: before) last rest error
        (congrArg (List.cons l) hheard)

variable (react : Hub κ → κ → Hub κ × Option Error) (inner : Hub κ → κ → Log κ)

theorem outermost_callLog (response : Response) (hub : Hub κ) (l : Listener κ) :
    (callLog react inner response hub l).outermost =
      calledFor response l :: (notify react response hub l).2.toList.map .raised := by
  have hraised : ∀ result : Option Error,
      Log.outermost (result.toList.map fun error => ((0, .raised error) : Nat × Event κ)) =
        result.toList.map .raised := by
    rintro (_ | error) <;> rfl
  have hcalled : Log.outermost [((0, .called l (l.view response)) : Nat × Event κ)] =
      [calledFor response l] := congrArg (fun event => [event]) (called_view response l)
  rw [callLog, ← List.singleton_append, List.append_assoc, Log.outermost_append,
    Log.outermost_append, Log.outermost_inside, hraised, hcalled]
  rfl

/-- What the callbacks do to the registrations has no effect on whom the dispatch calls next, since
the list of them is made before. -/
theorem callsInOrder_inTurn (response : Response) (hub : Hub κ) (heard : List (Listener κ)) :
    CallsInOrder response heard (inTurn (notify react response) hub heard).2
      (inTurnLog (notify react response) (callLog react inner response) hub heard).outermost := by
  induction heard generalizing hub with
  | nil => exact .all
  | cons l rest ih =>
      have hcall := outermost_callLog react inner response hub l
      rw [inTurnLog, inTurn, Log.outermost_append, hcall]
      rcases notify react response hub l with ⟨after, _ | error⟩
      · exact (ih after).cons l
      · exact @CallsInOrder.upTo _ response (l :: rest) [] l rest error rfl

variable [DecidableEq κ]

/-- With callbacks of any behaviour, nested to any depth: a dispatch calls the registrations that
there were for its URL when it began, in their order; a program from outside leaves those added and
not removed since; and a pattern that cannot be read leaves the hub as it was. -/
theorem dispatch_calls_snapshot (b : Behaviour κ) (depth : Nat) (hub : Hub κ) :
    (∀ response, CallsInOrder response
      (hub.listeners.entries.filter fun l => l.urls.accepts response.url)
      (step (Hub.react b depth) hub (.dispatch response)).2
      (stepLog (Hub.react b depth) (reactLog b depth) hub (.dispatch response)).outermost) ∧
    (∀ p : Program κ, Accounts hub (p.log (Hub.react b depth) (reactLog b depth) hub)
      (p.run (Hub.react b depth) hub).1) ∧
    ∀ callback patterns withHeaders cause, PatternSet.ofPatterns patterns = .error cause →
      step (Hub.react b depth) hub (.add callback patterns withHeaders) =
        (hub, some (.invalidPattern cause)) := by
  refine ⟨?_, fun p => p.accounts b depth hub, ?_⟩
  · intro response
    exact callsInOrder_inTurn _ _ response hub _
  · intro callback patterns withHeaders cause hcause
    rw [step, Listeners.add, hcause]
    rfl

end LinkTrail.Hub
