import LinkTrail.Hub

/-!
Callbacks that use the hub as they like, and the log of what they do. Main statement: the log
accounts for all calls and for all registrations that a program leaves (`Program.accounts`).
-/

namespace LinkTrail.Hub

variable {κ : Type}

/-- Commands given to a hub one by one, each chosen in view of how the last one went, up to an end
or an error. -/
inductive Program (κ : Type) where
  | finish (result : Option Error)
  | give (command : Command κ) (next : Hub κ → Option Error → Program κ)

/-- What a callback does when it is called. The hub tells the calls apart, as it knows of all that
came before, so that the same callback may do different things each time. -/
abbrev Behaviour (κ : Type) := Hub κ → κ → Program κ

def Program.ofCommands : List (Command κ) → Program κ
  | [] => .finish none
  | command :: rest => .give command fun _ result =>
      match result with
      | some e => .finish (some e)
      | none => ofCommands rest

inductive Event (κ : Type) where
  | added (l : Listener κ)
  | removed (callback : κ)
  | called (l : Listener κ) (told : Response)
  | raised (error : Error)
deriving DecidableEq

/-- Events in their order, each with the number of calls that it happened inside of. -/
abbrev Log (κ : Type) := List (Nat × Event κ)

namespace Log

def events (log : Log κ) : List (Event κ) := log.map Prod.snd

def outermost (log : Log κ) : List (Event κ) := events (log.filter (·.1 = 0))

def inside (log : Log κ) : Log κ := log.map fun entry => (entry.1 + 1, entry.2)

@[simp] theorem events_append (log other : Log κ) :
    events (log ++ other) = log.events ++ other.events := List.map_append

@[simp] theorem events_inside (log : Log κ) : log.inside.events = log.events := by
  simp [events, inside]

@[simp] theorem outermost_append (log other : Log κ) :
    outermost (log ++ other) = log.outermost ++ other.outermost := by
  simp [outermost, events]

@[simp] theorem outermost_inside (log : Log κ) : log.inside.outermost = [] := by
  have hnone : log.inside.filter (·.1 = 0) = [] := by
    simp [inside, List.filter_map, Function.comp_def]
  rw [outermost, hnone]
  rfl

end Log

section Run

variable [DecidableEq κ]

def Program.run (react : Hub κ → κ → Hub κ × Option Error) : Program κ → Hub κ →
    Hub κ × Option Error
  | .finish result, hub => (hub, result)
  | .give command next, hub =>
      let after := step react hub command
      (next after.1 after.2).run react after.1

def react (b : Behaviour κ) : (depth : Nat) → Hub κ → κ → Hub κ × Option Error
  | 0, hub, _ => (hub, some .tooDeep)
  | depth + 1, hub, callback => (b hub callback).run (react b depth) hub

theorem run_ofCommands (react : Hub κ → κ → Hub κ × Option Error) (commands : List (Command κ))
    (hub : Hub κ) : (Program.ofCommands commands).run react hub =
      inTurn (step react) hub commands := by
  induction commands generalizing hub with
  | nil => rfl
  | cons command rest ih =>
      rw [Program.ofCommands, Program.run, inTurn]
      rcases hstep : step react hub command with ⟨after, _ | e⟩
      · exact ih after
      · rfl

/-- Programs that are fixed for each callback are one such behaviour. -/
theorem perform_eq_step (programs : κ → List (Command κ)) (depth : Nat) :
    perform programs depth =
      step (react (fun _ callback => .ofCommands (programs callback)) depth) := by
  induction depth with
  | zero => rfl
  | succ depth ih =>
      rw [perform, ih]
      congr 1
      funext hub callback
      exact (run_ofCommands _ (programs callback) hub).symm

/-- What each item adds to the log, up to the first one that fails. -/
def inTurnLog {σ α : Type} (f : σ → α → σ × Option Error) (log : σ → α → Log κ) :
    σ → List α → Log κ
  | _, [] => []
  | s, x :: rest =>
      log s x ++
        match f s x with
        | (_, some _) => []
        | (s, none) => inTurnLog f log s rest

def noting (hub : Hub κ) (l : Listener κ) (told : Response) : Hub κ :=
  { hub with notices := hub.notices ++ [⟨l.callback, told⟩] }

def callLog (react : Hub κ → κ → Hub κ × Option Error) (inner : Hub κ → κ → Log κ)
    (response : Response) (hub : Hub κ) (l : Listener κ) : Log κ :=
  let noted := hub.noting l (l.view response)
  (0, .called l (l.view response)) :: (inner noted l.callback).inside ++
    (react noted l.callback).2.toList.map fun error => (0, .raised error)

def stepLog (react : Hub κ → κ → Hub κ × Option Error) (inner : Hub κ → κ → Log κ)
    (hub : Hub κ) : Command κ → Log κ
  | .add callback patterns withHeaders =>
      match PatternSet.ofPatterns patterns with
      | .ok urls => [(0, .added ⟨callback, urls, withHeaders⟩)]
      | .error _ => []
  | .remove callback => [(0, .removed callback)]
  | .dispatch response =>
      inTurnLog (notify react response) (callLog react inner response) hub
        (hub.listeners.hearing response.url)
  | .fetch _ => []
  | .close => []

def Program.log (react : Hub κ → κ → Hub κ × Option Error) (inner : Hub κ → κ → Log κ) :
    Program κ → Hub κ → Log κ
  | .finish _, _ => []
  | .give command next, hub =>
      let after := step react hub command
      stepLog react inner hub command ++ (next after.1 after.2).log react inner after.1

def reactLog (b : Behaviour κ) : (depth : Nat) → Hub κ → κ → Log κ
  | 0, _, _ => []
  | depth + 1, hub, callback =>
      (b hub callback).log (react b depth) (reactLog b depth) hub

end Run

def Event.notice? : Event κ → Option (Notice κ)
  | .called l told => some ⟨l.callback, told⟩
  | _ => none

section Accounts

variable [DecidableEq κ]

/-- The registrations that were added and whose callback was not removed later, in the order in
which they were added. -/
def standing : List (Event κ) → List (Listener κ)
  | [] => []
  | .added l :: later => if .removed l.callback ∈ later then standing later else l :: standing later
  | _ :: later => standing later

theorem standing_append (events later : List (Event κ)) :
    standing (events ++ later) =
      (standing events).filter (fun l => .removed l.callback ∉ later) ++ standing later := by
  induction events with
  | nil => rfl
  | cons event events ih =>
      cases event with
      | added l =>
          rw [List.cons_append, standing, standing]
          by_cases hmem : Event.removed l.callback ∈ events
          · rw [if_pos hmem, if_pos (List.mem_append_left later hmem), ih]
          · by_cases hlater : Event.removed l.callback ∈ later
            · rw [if_neg hmem, if_pos (List.mem_append_right events hlater), ih,
                List.filter_cons_of_neg (by simpa using hlater)]
            · rw [if_neg hmem, if_neg (by simp [hmem, hlater]), ih,
                List.filter_cons_of_pos (by simpa using hlater), List.cons_append]
      | removed callback => exact ih
      | called l told => exact ih
      | raised error => exact ih

theorem standing_map_added (listeners : List (Listener κ)) :
    standing (listeners.map .added) = listeners := by
  induction listeners with
  | nil => rfl
  | cons l listeners ih =>
      rw [List.map_cons, standing, if_neg (by simp), ih]

theorem standing_concat_added (events : List (Event κ)) (l : Listener κ) :
    standing (events ++ [.added l]) = standing events ++ [l] := by
  rw [standing_append, List.filter_eq_self.2 (by simp)]
  rfl

theorem standing_concat_removed (events : List (Event κ)) (callback : κ) :
    standing (events ++ [.removed callback]) =
      (standing events).filter (·.callback ≠ callback) := by
  simp [standing_append, standing]

theorem standing_concat_raised (events : List (Event κ)) (error : Error) :
    standing (events ++ [.raised error]) = standing events := by
  rw [standing_append, List.filter_eq_self.2 (by simp)]
  exact List.append_nil (standing events)

/-- The calls of the log are those that the hub has noted since; its registrations are those of the
beginning and those added since, less those removed. -/
structure Accounts (hub : Hub κ) (log : Log κ) (after : Hub κ) : Prop where
  notices_eq : after.notices = hub.notices ++ log.events.filterMap Event.notice?
  listeners_eq : after.listeners.entries =
    standing (hub.listeners.entries.map .added ++ log.events)

namespace Accounts

variable {hub middle after : Hub κ} {log later : Log κ}

theorem refl (hub : Hub κ) : Accounts hub [] hub where
  notices_eq := (List.append_nil hub.notices).symm
  listeners_eq := by
    rw [Log.events, List.map_nil, List.append_nil, standing_map_added]

theorem trans (hlog : Accounts hub log middle) (hlater : Accounts middle later after) :
    Accounts hub (log ++ later) after where
  notices_eq := by
    rw [hlater.notices_eq, hlog.notices_eq, Log.events_append, List.filterMap_append,
      List.append_assoc]
  listeners_eq := by
    rw [hlater.listeners_eq, hlog.listeners_eq, Log.events_append, ← List.append_assoc,
      standing_append _ later.events, standing_map_added, standing_append _ later.events]

theorem inside (h : Accounts hub log after) : Accounts hub log.inside after where
  notices_eq := by rw [h.notices_eq, Log.events_inside]
  listeners_eq := by rw [h.listeners_eq, Log.events_inside]

theorem of_noting {l : Listener κ} {told : Response}
    (h : Accounts (hub.noting l told) log after) :
    Accounts hub ((0, .called l told) :: log) after where
  notices_eq := by
    rw [h.notices_eq]
    simp [noting, Log.events, Event.notice?]
  listeners_eq := by
    rw [h.listeners_eq]
    simp only [noting, Log.events, List.map_cons, standing_append, standing, List.mem_cons,
      reduceCtorEq, false_or]

theorem raised (h : Accounts hub log after) (result : Option Error) :
    Accounts hub (log ++ result.toList.map fun error => (0, .raised error)) after where
  notices_eq := by
    rw [h.notices_eq]
    cases result <;> simp [Log.events, Event.notice?]
  listeners_eq := by
    rw [h.listeners_eq]
    cases result with
    | none => simp
    | some error =>
        rw [Log.events_append, ← List.append_assoc]
        exact (standing_concat_raised _ error).symm

theorem inTurn {α : Type} {f : Hub κ → α → Hub κ × Option Error} {log : Hub κ → α → Log κ}
    (h : ∀ hub x, Accounts hub (log hub x) (f hub x).1) (hub : Hub κ) (xs : List α) :
    Accounts hub (inTurnLog f log hub xs) (Hub.inTurn f hub xs).1 := by
  induction xs generalizing hub with
  | nil => exact refl hub
  | cons x rest ih =>
      have hfirst := h hub x
      rw [inTurnLog, Hub.inTurn]
      rcases hx : f hub x with ⟨after, _ | e⟩
      · rw [hx] at hfirst
        exact hfirst.trans (ih after)
      · rw [hx] at hfirst
        simpa using hfirst

end Accounts

variable {react : Hub κ → κ → Hub κ × Option Error} {inner : Hub κ → κ → Log κ}

theorem callLog_accounts
    (h : ∀ hub callback, Accounts hub (inner hub callback) (react hub callback).1)
    (response : Response) (hub : Hub κ) (l : Listener κ) :
    Accounts hub (callLog react inner response hub l) (notify react response hub l).1 :=
  ((h _ l.callback).inside.of_noting).raised _

theorem stepLog_accounts
    (h : ∀ hub callback, Accounts hub (inner hub callback) (react hub callback).1)
    (hub : Hub κ) (command : Command κ) :
    Accounts hub (stepLog react inner hub command) (step react hub command).1 := by
  cases command with
  | add callback patterns withHeaders =>
      rw [stepLog, step, Listeners.add]
      cases PatternSet.ofPatterns patterns with
      | error cause => exact .refl hub
      | ok urls =>
          constructor
          · simp [Except.map, Log.events, Event.notice?]
          · simp [Except.map, Log.events, standing_concat_added, standing_map_added]
  | remove callback =>
      constructor
      · simp [stepLog, step, Log.events, Event.notice?]
      · simp [stepLog, step, Log.events, standing_concat_removed, standing_map_added,
          Listeners.remove]
  | dispatch response => exact .inTurn (callLog_accounts h response) hub _
  | fetch url => exact .refl hub
  | close => exact .refl hub

/-- Each command is accounted for, in view of what the callbacks do in turn. -/
theorem Program.accounts_of
    (h : ∀ hub callback, Accounts hub (inner hub callback) (react hub callback).1)
    (p : Program κ) (hub : Hub κ) :
    Accounts hub (p.log react inner hub) (p.run react hub).1 := by
  induction p generalizing hub with
  | finish result => exact .refl hub
  | give command next ih => exact (stepLog_accounts h hub command).trans (ih _ _ _)

theorem reactLog_accounts (b : Behaviour κ) (depth : Nat) (hub : Hub κ) (callback : κ) :
    Accounts hub (reactLog b depth hub callback) (Hub.react b depth hub callback).1 := by
  induction depth generalizing hub callback with
  | zero => exact .refl hub
  | succ depth ih => exact (b hub callback).accounts_of ih hub

theorem Program.accounts (b : Behaviour κ) (depth : Nat) (p : Program κ) (hub : Hub κ) :
    Accounts hub (p.log (Hub.react b depth) (reactLog b depth) hub)
      (p.run (Hub.react b depth) hub).1 :=
  p.accounts_of (reactLog_accounts b depth) hub

end Accounts

end LinkTrail.Hub
