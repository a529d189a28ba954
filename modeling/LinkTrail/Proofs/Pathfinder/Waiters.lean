import LinkTrail.Pathfinder.Walker

namespace LinkTrail

namespace Web

def IsAskedMore (before after : Web) : Prop :=
  ∃ urls, after = { before with fetched := before.fetched ++ urls }

theorem IsAskedMore.refl (w : Web) : w.IsAskedMore w := ⟨[], by simp⟩

theorem IsAskedMore.trans {first second third : Web} (h : first.IsAskedMore second)
    (h' : second.IsAskedMore third) : first.IsAskedMore third := by
  obtain ⟨urls, rfl⟩ := h
  obtain ⟨more, rfl⟩ := h'
  exact ⟨urls ++ more, by simp⟩

theorem IsAskedMore.answer?_eq {before after : Web} (h : before.IsAskedMore after) :
    after.answer? = before.answer? := by
  obtain ⟨urls, rfl⟩ := h
  rfl

theorem IsAskedMore.answerAtOnce?_eq {before after : Web} (h : before.IsAskedMore after) :
    after.answerAtOnce? = before.answerAtOnce? := by
  obtain ⟨urls, rfl⟩ := h
  rfl

theorem IsAskedMore.refusing_eq {before after : Web} (h : before.IsAskedMore after) :
    after.refusing = before.refusing := by
  obtain ⟨urls, rfl⟩ := h
  rfl

theorem IsAskedMore.listeners_eq {before after : Web} (h : before.IsAskedMore after) :
    after.listeners = before.listeners := by
  obtain ⟨urls, rfl⟩ := h
  rfl

theorem fetch?_of_refusing {w : Web} (h : w.refusing = true) (url : String) :
    w.fetch? url = none := if_pos h

theorem fetch?_of_serving {w : Web} (h : w.refusing = false) (url : String) :
    w.fetch? url = some ({ w with fetched := w.fetched ++ [url] }, w.answerAtOnce? url) := by
  rw [fetch?, h]
  rfl

theorem url_of_answerAtOnce? {w : Web} {url : String} {response : Response}
    (h : w.answerAtOnce? url = some response) : response.url = url := by
  unfold answerAtOnce? at h
  split at h
  · obtain ⟨_, _, rfl⟩ := Option.map_eq_some_iff.1 h
    rfl
  · contradiction

end Web

namespace Traffic

def waiters (t : Traffic) (url : String) : List WalkerId := (t.awaiting.get? url).getD []

def places (t : Traffic) (id : WalkerId) (url : String) : Nat := (t.waiters url).count id

def Crowded (t : Traffic) : Prop := ∀ url, t.awaiting.get? url ≠ some []

theorem mem_waiters_iff {t : Traffic} {id : WalkerId} {url : String} :
    id ∈ t.waiters url ↔ 0 < t.places id url := List.count_pos_iff.symm

theorem waiters_of_get? {t : Traffic} {url : String} {waiting : List WalkerId}
    (h : t.awaiting.get? url = some waiting) : t.waiters url = waiting := by
  simp [waiters, h]

theorem waiters_of_get?_none {t : Traffic} {url : String} (h : t.awaiting.get? url = none) :
    t.waiters url = [] := by
  simp [waiters, h]

theorem waiters_insert (awaiting : Table String (List WalkerId)) (web : Web)
    (url other : String) (waiting : List WalkerId) :
    waiters { awaiting := awaiting.insert url waiting, web } other =
      if other = url then waiting else waiters { awaiting, web } other := by
  simp only [waiters, Table.get?_insert]
  split <;> rfl

theorem waiters_erase (awaiting : Table String (List WalkerId)) (web : Web) (url other : String) :
    waiters { awaiting := awaiting.erase url, web } other =
      if other = url then [] else waiters { awaiting, web } other := by
  simp only [waiters, Table.get?_erase]
  split <;> rfl

theorem Crowded.insert {t : Traffic} (h : t.Crowded) {url : String} {waiting : List WalkerId}
    (hwaiting : waiting ≠ []) (web : Web) :
    Crowded { awaiting := t.awaiting.insert url waiting, web := web } := by
  intro other hother
  rw [Table.get?_insert] at hother
  split at hother
  · exact hwaiting (Option.some.inj hother)
  · exact h other hother

theorem Crowded.erase {t : Traffic} (h : t.Crowded) (url : String) :
    Crowded { t with awaiting := t.awaiting.erase url } := by
  intro other hother
  rw [Table.get?_erase] at hother
  split at hother
  · contradiction
  · exact h other hother

theorem Crowded.mem_awaiting_iff {t : Traffic} (h : t.Crowded) {url : String} :
    url ∈ t.awaiting ↔ ∃ id, id ∈ t.waiters url := by
  rw [Table.mem_iff_get?]
  constructor
  · rintro ⟨waiting, hwaiting⟩
    rw [waiters_of_get? hwaiting]
    exact List.exists_mem_of_ne_nil waiting fun hnil => h url (hnil ▸ hwaiting)
  · rintro ⟨id, hid⟩
    cases hwaiting : t.awaiting.get? url with
    | none =>
        rw [waiters_of_get?_none hwaiting] at hid
        exact absurd hid List.not_mem_nil
    | some waiting => exact ⟨waiting, rfl⟩

inductive Asked (t : Traffic) (id : WalkerId) (w : Walker) (url : String) :
    Traffic × Walker × Option Failure → Prop where
  | joined {waiting : List WalkerId} (found : t.awaiting.get? url = some waiting) :
      Asked t id w url
        ({ t with awaiting := t.awaiting.insert url (waiting ++ [id]) },
          { w with trail := w.trail.visit url }, none)
  | refused (absent : t.awaiting.get? url = none) (refusing : t.web.refusing = true) :
      Asked t id w url
        ({ t with awaiting := t.awaiting.insert url [id] },
          { w with trail := w.trail.visit url }, some .refused)
  | issued (absent : t.awaiting.get? url = none) (serving : t.web.refusing = false)
      (later : t.web.answerAtOnce? url = none) :
      Asked t id w url
        ({ awaiting := t.awaiting.insert url [id],
           web := { t.web with fetched := t.web.fetched ++ [url] } },
          { w with trail := w.trail.visit url }, none)
  | answered {response : Response} (absent : t.awaiting.get? url = none)
      (serving : t.web.refusing = false) (atOnce : t.web.answerAtOnce? url = some response) :
      Asked t id w url
        ({ t with web := { t.web with fetched := t.web.fetched ++ [url] } },
          { w with trail := w.trail.visit url, inbox := w.inbox ++ [response] }, none)

theorem asked_ask (t : Traffic) (id : WalkerId) (w : Walker) (url : String) :
    Asked t id w url (t.ask id w url) := by
  unfold ask
  cases found : t.awaiting.get? url with
  | some waiting => exact .joined found
  | none =>
      cases refusing : t.web.refusing with
      | true =>
          rw [Web.fetch?_of_refusing refusing]
          exact .refused found refusing
      | false =>
          rw [Web.fetch?_of_serving refusing]
          cases atOnce : t.web.answerAtOnce? url with
          | none => exact .issued found refusing atOnce
          | some response => exact .answered found refusing atOnce

namespace Asked

variable {t : Traffic} {id : WalkerId} {w : Walker} {url : String}
  {result : Traffic × Walker × Option Failure}

theorem isAskedMore (h : Asked t id w url result) : t.web.IsAskedMore result.1.web := by
  cases h with
  | joined => exact .refl t.web
  | refused => exact .refl t.web
  | issued => exact ⟨[url], rfl⟩
  | answered => exact ⟨[url], rfl⟩

theorem trail_eq (h : Asked t id w url result) : result.2.1.trail = w.trail.visit url := by
  cases h <;> rfl

theorem stage_eq (h : Asked t id w url result) : result.2.1.stage = w.stage := by
  cases h <;> rfl

theorem crowded (h : Asked t id w url result) (hcrowded : t.Crowded) : result.1.Crowded := by
  cases h with
  | joined => exact hcrowded.insert (by simp) t.web
  | refused => exact hcrowded.insert (by simp) t.web
  | issued => exact hcrowded.insert (by simp) _
  | answered => exact hcrowded

theorem places_of_ne (h : Asked t id w url result) {other : WalkerId} (hne : other ≠ id) :
    result.1.places other = t.places other := by
  have hcount : [id].count other = 0 := List.count_eq_zero.2 (by simpa using hne)
  funext place
  cases h with
  | joined found =>
      simp only [places, waiters_insert]
      split
      · rename_i heq
        rw [heq, waiters_of_get? found, List.count_append, hcount, Nat.add_zero]
      · rfl
  | refused absent refusing =>
      simp only [places, waiters_insert]
      split
      · rename_i heq
        rw [heq, waiters_of_get?_none absent, hcount]
        rfl
      · rfl
  | issued absent serving later =>
      simp only [places, waiters_insert]
      split
      · rename_i heq
        rw [heq, waiters_of_get?_none absent, hcount]
        rfl
      · rfl
  | answered => rfl

/-- A walker that is not answered at once stands in the list of the URL from now on. -/
theorem places_self (h : Asked t id w url result) :
    (∃ response, t.web.answerAtOnce? url = some response ∧
      result.2.1.inbox = w.inbox ++ [response] ∧ result.2.2 = none ∧
      result.1.places id = t.places id) ∨
    (result.2.1.inbox = w.inbox ∧
      ∀ place, result.1.places id place = t.places id place + if place = url then 1 else 0) := by
  cases h with
  | joined found =>
      refine Or.inr ⟨rfl, fun place => ?_⟩
      simp only [places, waiters_insert]
      split
      · rename_i heq
        rw [heq, waiters_of_get? found, List.count_append, List.count_singleton_self]
      · rfl
  | refused absent refusing =>
      refine Or.inr ⟨rfl, fun place => ?_⟩
      simp only [places, waiters_insert]
      split
      · rename_i heq
        rw [heq, waiters_of_get?_none absent, List.count_singleton_self]
        rfl
      · rfl
  | issued absent serving later =>
      refine Or.inr ⟨rfl, fun place => ?_⟩
      simp only [places, waiters_insert]
      split
      · rename_i heq
        rw [heq, waiters_of_get?_none absent, List.count_singleton_self]
        rfl
      · rfl
  | answered absent serving atOnce => exact Or.inl ⟨_, atOnce, rfl, rfl, rfl⟩

end Asked

theorem Crowded.withdraw {t : Traffic} (h : t.Crowded) (id : WalkerId) (urls : List String) :
    (t.withdraw id urls).Crowded := by
  intro url hurl
  simp only [Traffic.withdraw, Table.get?_filterMap, Option.bind_eq_some_iff] at hurl
  obtain ⟨waiting, hwaiting, hothers⟩ := hurl
  split at hothers
  · split at hothers
    · contradiction
    · rename_i hne
      exact hne (Option.some.inj hothers)
  · exact h url (hothers ▸ hwaiting)

theorem waiters_withdraw (t : Traffic) (id : WalkerId) (urls : List String) (url : String) :
    (t.withdraw id urls).waiters url =
      if url ∈ urls then (t.waiters url).erase id else t.waiters url := by
  simp only [waiters, withdraw, Table.get?_filterMap]
  cases t.awaiting.get? url with
  | none => simp
  | some waiting =>
      by_cases hmem : url ∈ urls
      · simp only [Option.bind_some, if_pos hmem, Option.getD_some]
        split
        · rename_i hothers
          exact hothers.symm
        · rfl
      · simp [hmem]

theorem places_withdraw_of_ne (t : Traffic) {id other : WalkerId} (hne : other ≠ id)
    (urls : List String) : (t.withdraw id urls).places other = t.places other := by
  funext url
  rw [places, waiters_withdraw]
  split
  · exact List.count_erase_of_ne hne
  · rfl

theorem places_withdraw_self (t : Traffic) (id : WalkerId) (urls : List String) (url : String) :
    (t.withdraw id urls).places id url = t.places id url - if url ∈ urls then 1 else 0 := by
  rw [places, waiters_withdraw]
  split
  · exact List.count_erase_self
  · rfl

end Traffic

end LinkTrail
