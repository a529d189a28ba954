import LinkTrail.Proofs.Pathfinder.Clash
import LinkTrail.Settings

/-!
Requests that are out in a run. Main statement: as long as no two walkers clash, and no longer, who
waits for a URL waits for a request that is out (`waits_for_request_iff_no_clash`).
-/

namespace LinkTrail.Pathfinder

def Reaches (p : Pathfinder) (url : String) : Action → Prop
  | .deliver response => response.url = url ∧ p.web.listeners.hears url = true
  | _ => False

structure Opens (rules : Rules) (p : Pathfinder) (action : Action) (url : String) : Prop where
  absent : url ∉ p.traffic.awaiting
  listed : url ∈ (p.act rules action).1.traffic.awaiting
  fetched : url ∈ (p.act rules action).1.web.fetched.drop p.web.fetched.length
  later : p.web.answerAtOnce? url = none

structure Keeps (rules : Rules) (p : Pathfinder) (action : Action) (url : String) : Prop where
  listed : url ∈ (p.act rules action).1.traffic.awaiting
  unfetched : url ∉ (p.act rules action).1.web.fetched.drop p.web.fetched.length
  unreached : ¬ p.Reaches url action

/-- The list of those who wait for the URL was opened by an action that asked for it with success,
and no response for it has come in since. -/
inductive IsOut (rules : Rules) (start : Pathfinder) : List Action → String → Prop where
  | opened {actions : List Action} {action : Action} {url : String}
      (opens : Opens rules (start.run rules actions) action url) :
      IsOut rules start (actions ++ [action]) url
  | kept {actions : List Action} {action : Action} {url : String}
      (out : IsOut rules start actions url)
      (keeps : Keeps rules (start.run rules actions) action url) :
      IsOut rules start (actions ++ [action]) url

variable {rules : Rules} {p start : Pathfinder} {action : Action} {actions : List Action}
  {url : String}

theorem isOut_concat_iff :
    IsOut rules start (actions ++ [action]) url ↔
      Opens rules (start.run rules actions) action url ∨
        IsOut rules start actions url ∧ Keeps rules (start.run rules actions) action url := by
  constructor
  · intro h
    generalize hactions : actions ++ [action] = all at h
    cases h with
    | opened opens =>
        obtain ⟨rfl, hlast⟩ := List.append_inj' hactions rfl
        obtain rfl := List.singleton_inj.1 hlast
        exact Or.inl opens
    | kept out keeps =>
        obtain ⟨rfl, hlast⟩ := List.append_inj' hactions rfl
        obtain rfl := List.singleton_inj.1 hlast
        exact Or.inr ⟨out, keeps⟩
  · intro h
    rcases h with opens | ⟨out, keeps⟩
    · exact .opened opens
    · exact .kept out keeps

theorem IsOut.mem_awaiting (h : IsOut rules start actions url) :
    url ∈ (start.run rules actions).traffic.awaiting := by
  cases h with
  | opened opens =>
      rw [run_concat]
      exact opens.listed
  | kept out keeps =>
      rw [run_concat]
      exact keeps.listed

theorem not_mem_awaiting_of_reaches (h : p.Reaches url action) :
    url ∉ (p.act rules action).1.traffic.awaiting := by
  cases action with
  | deliver response =>
      obtain ⟨rfl, hheard⟩ := h
      intro hmem
      simp only [act] at hmem
      cases hwaiting : p.traffic.awaiting.get? response.url with
      | none =>
          rw [deliver_of_unawaited hwaiting] at hmem
          exact Table.get?_eq_none_iff.1 hwaiting hmem
      | some waiting =>
          rw [deliver_of_awaited hheard hwaiting, foldl_receive_eq] at hmem
          exact (Table.mem_erase_iff.1 hmem).2 rfl
  | attach => exact h.elim
  | close => exact h.elim
  | resolve url => exact h.elim
  | cancel ticket => exact h.elim
  | refuseRequests refusing => exact h.elim
  | answerAtOnce url response? => exact h.elim
  | advance span => exact h.elim
  | drain => exact h.elim

theorem Accounts.opens_or_keeps (h : p.Accounts (p.act rules action).1)
    (hmem : url ∈ (p.act rules action).1.traffic.awaiting) :
    Opens rules p action url ∨ url ∈ p.traffic.awaiting ∧ Keeps rules p action url := by
  obtain ⟨urls, hurls, haccounts⟩ := h
  have hdrop : (p.act rules action).1.web.fetched.drop p.web.fetched.length = urls := by
    rw [hurls, List.drop_left]
  rcases haccounts url hmem with ⟨hold, hunfetched⟩ | ⟨habsent, hfetched, hlater⟩
  · refine Or.inr ⟨hold, hmem, hdrop ▸ hunfetched, ?_⟩
    exact fun hreaches => not_mem_awaiting_of_reaches hreaches hmem
  · exact Or.inl ⟨habsent, hmem, hdrop ▸ hfetched, hlater⟩

theorem Resting.exists_not_isOut {heard : Response → Prop}
    (h : Resting rules heard False (start.run rules actions))
    (hclashes : (start.run rules actions).Clashes rules) :
    ∃ id url, (start.run rules (actions ++ [.drain])).IsRegistered id ∧
      id ∈ (start.run rules (actions ++ [.drain])).traffic.waiters url ∧
        ¬ IsOut rules start (actions ++ [.drain]) url := by
  obtain ⟨hfetched, url, id, hurl, hregistered, hlisted⟩ := h.exists_listed_of_clashes hclashes
  rw [run_concat]
  refine ⟨id, url, hregistered, hlisted, ?_⟩
  rw [isOut_concat_iff]
  intro hout
  rcases hout with opens | ⟨out, -⟩
  · have hasked : url ∈ ((start.run rules actions).drain rules).web.fetched.drop
        (start.run rules actions).web.fetched.length := opens.fetched
    rw [hfetched, List.drop_length] at hasked
    exact absurd hasked List.not_mem_nil
  · exact hurl out.mem_awaiting

theorem isOut_of_no_clash {heard : Response → Prop}
    (hresting : ∀ before after, actions = before ++ after →
      Resting rules heard False (start.run rules before))
    (hopen : .close ∉ actions) (hempty : ∀ url, url ∉ start.traffic.awaiting)
    (hclashes : ∀ before after, actions = before ++ .drain :: after →
      ¬ (start.run rules before).Clashes rules) :
    ∀ url ∈ (start.run rules actions).traffic.awaiting, IsOut rules start actions url := by
  induction actions using List.reverseRecOn with
  | nil => exact fun url hmem => absurd hmem (hempty url)
  | append_singleton actions action ih =>
      intro url hmem
      have hbefore := ih
        (fun before after heq => hresting before (after ++ [action]) (by simp [heq]))
        (fun hclose => hopen (List.mem_append_left [action] hclose))
        (fun before after heq => hclashes before (after ++ [action]) (by simp [heq]))
      have haccounts : (start.run rules actions).Accounts
          ((start.run rules actions).act rules action).1 := by
        have hcurrent := hresting actions [action] rfl
        by_cases hdrain : action = .drain
        · rw [hdrain]
          exact hcurrent.accounts_drain_iff.2 (hclashes actions [] (by rw [hdrain]))
        · apply hcurrent.accounts_act
          · intro hclose
            exact hopen (by simp [hclose])
          · exact fun heq => absurd heq hdrain
      rw [run_concat] at hmem
      rw [isOut_concat_iff]
      rcases haccounts.opens_or_keeps hmem with opens | ⟨hold, keeps⟩
      · exact Or.inl opens
      · exact Or.inr ⟨hbefore url hold, keeps⟩

/-- In a run without a close, each walker that waits after a turn waits for a request that is out,
if and only if no two walkers clash in a turn. -/
theorem waits_for_request_iff_no_clash (rules : Rules) (answer? : String → Option Response)
    (actions : List Action) (hopen : .close ∉ actions) :
    let start := onWeb { answer? := answer? }
    (∀ before after, actions = before ++ .drain :: after →
      let p := start.run rules (before ++ [.drain])
      ∀ id, p.IsRegistered id → ∀ url, id ∈ p.traffic.waiters url →
        IsOut rules start (before ++ [.drain]) url) ↔
    ∀ before after, actions = before ++ .drain :: after →
      ¬ (start.run rules before).Clashes rules := by
  intro start
  have hresting : ∀ before after, actions = before ++ after →
      Resting rules (fun _ => True) False (start.run rules before) := by
    intro before after heq
    refine resting_run rules answer? fun hclose => hopen ?_
    exact heq ▸ List.mem_append_left after hclose
  constructor
  · intro hout before after heq hclashes
    obtain ⟨id, url, hregistered, hlisted, hnot⟩ :=
      (hresting before (.drain :: after) heq).exists_not_isOut hclashes
    exact hnot (hout before after heq id hregistered url hlisted)
  · intro hclashes before after heq p id _ url hlisted
    have hall : actions = (before ++ [.drain]) ++ after := by simp [heq]
    have hcrowded := (hresting _ after hall).kept.crowded
    refine @isOut_of_no_clash rules start _ (fun _ => True) ?_ ?_ ?_ ?_ url
      (hcrowded.mem_awaiting_iff.2 ⟨id, hlisted⟩)
    · intro first rest hsplit
      exact hresting first (rest ++ after) (by rw [hall, hsplit, List.append_assoc])
    · exact fun hclose => hopen (hall ▸ List.mem_append_left after hclose)
    · exact fun url => by simp [start, onWeb, Table.mem_iff, Table.keys, Table.empty]
    · intro first rest hsplit
      exact hclashes first (rest ++ after) (by rw [hall, hsplit]; simp)

/-- A walker that waits for its first request. -/
theorem isOut_of_first_request :
    let start := onWeb {}
    let actions := [Action.attach, .resolve "http://a/"]
    .close ∉ actions ++ [.drain] ∧
      (start.run ({} : Settings).rules (actions ++ [.drain])).IsRegistered 0 ∧
      0 ∈ (start.run ({} : Settings).rules (actions ++ [.drain])).traffic.waiters "http://a/" ∧
      IsOut ({} : Settings).rules start (actions ++ [.drain]) "http://a/" := by
  intro start actions
  have hopen : .close ∉ actions ++ [.drain] := by decide
  have hregistered : (start.run ({} : Settings).rules (actions ++ [.drain])).registered.get?
      "http://a/" = some 0 := by decide +kernel
  have hlisted : 0 ∈ (start.run ({} : Settings).rules
      (actions ++ [.drain])).traffic.waiters "http://a/" := by decide +kernel
  refine ⟨hopen, ⟨_, hregistered⟩, hlisted, ?_⟩
  refine (waits_for_request_iff_no_clash ({} : Settings).rules (fun _ => none)
    (actions ++ [.drain]) hopen).2 ?_ actions [] rfl 0 ⟨_, hregistered⟩ "http://a/" hlisted
  intro before after heq ⟨_, hrefusing, _⟩
  obtain ⟨rfl, -⟩ : before = actions ∧ after = [] := by
    rcases before with _ | ⟨first, _ | ⟨second, _ | ⟨third, rest⟩⟩⟩
    all_goals simp_all [actions]
  exact absurd hrefusing (by decide +kernel)

/-- Two walkers are redirected to a URL that can no longer be asked for. The first ends there; the
second waits there for a request that nobody has made. -/
theorem not_isOut_of_dead_request :
    let start := onWeb {}
    let actions := [Action.attach, .resolve "http://a/", .resolve "http://b/", .drain,
      .refuseRequests true, .deliver (.redirect "http://a/" "http://c/"),
      .deliver (.redirect "http://b/" "http://c/"), .drain]
    ¬ ∀ id, (start.run ({} : Settings).rules actions).IsRegistered id → ∀ url,
      id ∈ (start.run ({} : Settings).rules actions).traffic.waiters url →
        IsOut ({} : Settings).rules start actions url := by
  intro start actions hout
  have hregistered : (start.run ({} : Settings).rules actions).registered.get? "http://b/" =
      some 1 := by decide +kernel
  have hlisted : 1 ∈ (start.run ({} : Settings).rules actions).traffic.waiters "http://c/" := by
    decide +kernel
  have hnow := hout 1 ⟨_, hregistered⟩ "http://c/" hlisted
  have hsplit : actions = actions.dropLast ++ [.drain] := rfl
  rw [hsplit, isOut_concat_iff] at hnow
  rcases hnow with opens | ⟨out, -⟩
  · exact absurd opens.fetched (by decide +kernel)
  · exact absurd out.mem_awaiting (by decide +kernel)

end LinkTrail.Pathfinder
