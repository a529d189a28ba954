import LinkTrail.Proofs.Pathfinder.Kept

namespace LinkTrail

theorem Walker.Underway.receive {rules : Rules} {heard : Response → Prop}
    {places : String → Nat} {w : Walker} (h : w.Underway rules heard places)
    {response : Response} (known : heard response) :
    ({ w with inbox := w.inbox ++ List.replicate (places response.url) response } :
      Walker).Underway rules heard fun url => if url = response.url then 0 else places url := by
  refine ⟨h.led, ?_⟩
  rcases h.place with ⟨received, hinbox, hknown, here, hplaces⟩ | ⟨hinbox, hplaces⟩
  · refine Or.inl ⟨received, ?_, hknown, here, ?_⟩
    · simp [hinbox, hplaces]
    · intro url
      simp [hplaces]
  · by_cases htip : response.url = w.trail.tip
    · refine Or.inl ⟨response, ?_, known, htip, ?_⟩
      · simp [hinbox, hplaces, htip]
      · intro url
        rw [hplaces, htip]
        split <;> rfl
    · refine Or.inr ⟨?_, ?_⟩
      · simp [hinbox, hplaces, htip]
      · intro url
        dsimp only
        split
        · rename_i heq
          rw [heq, if_neg htip]
        · exact hplaces url

namespace Pathfinder

variable {rules : Rules} {heard : Response → Prop} {closed : Prop}
  {ended todo : List WalkerId} {p : Pathfinder} {id : WalkerId}

theorem receive_eq (response : Response) (p : Pathfinder) (id : WalkerId) :
    p.receive response id =
      { p with
        walkers := p.walkers.modify id fun w => { w with inbox := w.inbox ++ [response] }
        queue := if p.walkers[id]?.any Walker.isWaiting then p.queue ++ [id] else p.queue } := by
  unfold receive
  cases hw : p.walkers[id]? with
  | none => simp [List.modify_eq_self (List.getElem?_eq_none_iff.1 hw)]
  | some w => simp [mapWalker]

theorem foldl_receive_eq (response : Response) (ids : List WalkerId) (p : Pathfinder) :
    ids.foldl (receive response) p =
      { p with
        walkers := (ids.foldl (receive response) p).walkers
        queue := (ids.foldl (receive response) p).queue } := by
  induction ids generalizing p with
  | nil => rfl
  | cons id ids ih =>
      rw [List.foldl_cons, ih]
      simp only [receive_eq]

theorem deliver_eq (p : Pathfinder) (response : Response) :
    p.deliver response =
      { p with
        traffic := (p.deliver response).traffic
        walkers := (p.deliver response).walkers
        queue := (p.deliver response).queue } := by
  unfold deliver
  split
  · split
    · rfl
    · rw [foldl_receive_eq]
  · rfl

theorem getElem?_foldl_receive (response : Response) (ids : List WalkerId) (p : Pathfinder)
    (id : WalkerId) :
    (ids.foldl (receive response) p).walkers[id]? =
      p.walkers[id]?.map fun w =>
        { w with inbox := w.inbox ++ List.replicate (ids.count id) response } := by
  induction ids generalizing p with
  | nil => simp
  | cons first ids ih =>
      rw [List.foldl_cons, ih, receive_eq, List.getElem?_modify]
      by_cases hfirst : first = id
      · subst hfirst
        cases p.walkers[first]? with
        | none => rfl
        | some w => simp [List.replicate_succ]
      · simp [hfirst]

theorem mem_queue_foldl_receive (response : Response) (ids : List WalkerId) {p : Pathfinder}
    {id : WalkerId} (h : id ∈ p.queue) : id ∈ (ids.foldl (receive response) p).queue := by
  induction ids generalizing p with
  | nil => exact h
  | cons first ids ih =>
      apply ih
      rw [receive_eq]
      dsimp only
      split
      · exact List.mem_append_left [first] h
      · exact h

theorem mem_queue_of_waiting (response : Response) {ids : List WalkerId} {p : Pathfinder}
    {id : WalkerId} {w : Walker} (hid : id ∈ ids) (hw : p.walkers[id]? = some w)
    (hwaiting : w.isWaiting = true) : id ∈ (ids.foldl (receive response) p).queue := by
  induction ids generalizing p with
  | nil => exact absurd hid List.not_mem_nil
  | cons first ids ih =>
      rw [List.foldl_cons]
      by_cases hfirst : first = id
      · apply mem_queue_foldl_receive
        simp [receive_eq, hfirst, hw, hwaiting]
      · apply ih ((List.mem_cons.1 hid).resolve_left (Ne.symm hfirst))
        rw [receive_eq, List.getElem?_modify_ne _ _ hfirst]
        exact hw

theorem deliver_of_unheard {response : Response}
    (h : p.web.listeners.hears response.url = false) : p.deliver response = p := by
  simp [deliver, h]

theorem deliver_of_unawaited {response : Response}
    (h : p.traffic.awaiting.get? response.url = none) : p.deliver response = p := by
  simp [deliver, h]

theorem deliver_of_awaited {response : Response} {waiting : List WalkerId}
    (hheard : p.web.listeners.hears response.url = true)
    (hwaiting : p.traffic.awaiting.get? response.url = some waiting) :
    p.deliver response =
      waiting.foldl (receive response)
        { p with traffic.awaiting := p.traffic.awaiting.erase response.url } := by
  simp [deliver, hheard, hwaiting]

theorem walker_deliver {w : Walker} (hw : p.walkers[id]? = some w) (response : Response) :
    ∃ responses, (p.deliver response).walkers[id]? =
      some { w with inbox := w.inbox ++ responses } := by
  have hsame : p.walkers[id]? = some { w with inbox := w.inbox ++ [] } := by simpa using hw
  unfold deliver
  split
  · split
    · exact ⟨[], hsame⟩
    · rw [getElem?_foldl_receive]
      exact ⟨_, congrArg _ hw⟩
  · exact ⟨[], hsame⟩

theorem Fits.deliver (h : Fits rules heard closed [] p.queue p id) {response : Response}
    (known : heard response) {waiting : List WalkerId}
    (hheard : p.web.listeners.hears response.url = true)
    (hwaiting : p.traffic.awaiting.get? response.url = some waiting) :
    Fits rules heard closed [] (p.deliver response).queue (p.deliver response) id := by
  have hcount : waiting.count id = p.traffic.places id response.url := by
    rw [Traffic.places, Traffic.waiters_of_get? hwaiting]
  have hwalker : ∀ w, p.walkers[id]? = some w → (p.deliver response).walkers[id]? =
      some { w with inbox :=
        w.inbox ++ List.replicate (p.traffic.places id response.url) response } := by
    intro w hw
    rw [deliver_of_awaited hheard hwaiting, getElem?_foldl_receive, hcount]
    exact congrArg _ hw
  have hplaces : (p.deliver response).traffic.places id =
      fun url => if url = response.url then 0 else p.traffic.places id url := by
    rw [deliver_of_awaited hheard hwaiting, foldl_receive_eq]
    funext url
    simp only [Traffic.places, Traffic.waiters_erase]
    split <;> rfl
  have hregistered : (p.deliver response).registered = p.registered := by
    rw [deliver_of_awaited hheard hwaiting, foldl_receive_eq]
  have hqueue : id ∈ p.queue → id ∈ (p.deliver response).queue := by
    intro hmem
    rw [deliver_of_awaited hheard hwaiting]
    exact mem_queue_foldl_receive response waiting hmem
  have hunlisted : (∀ url, p.traffic.places id url = 0) →
      ∀ url, (p.deliver response).traffic.places id url = 0 := by
    intro hnone url
    rw [hplaces]
    dsimp only
    rw [hnone, ite_self]
  have hunregistered : ¬ p.IsRegistered id → ¬ (p.deliver response).IsRegistered id := by
    rw [IsRegistered, IsRegistered, hregistered]
    exact fun hnot => hnot
  cases h with
  | absent walker unregistered unlisted =>
      refine .absent ?_ (hunregistered unregistered) (hunlisted unlisted)
      rw [deliver_of_awaited hheard hwaiting, getElem?_foldl_receive]
      exact congrArg _ walker
  | gone walker unregistered stage unlisted =>
      exact .gone (hwalker _ walker) (hunregistered unregistered) stage
        (unlisted.imp_right hunlisted)
  | leaving walker unregistered stage dismissed cleared due =>
      exact .leaving (hwalker _ walker) (hunregistered unregistered) stage dismissed cleared
        (hqueue due)
  | ended walker registered stopped => exact absurd stopped List.not_mem_nil
  | fresh walker registered going stage due state =>
      exact .fresh (hwalker _ walker) (by rwa [hregistered]) going stage (hqueue due)
        (by rw [hplaces]; exact state.receive known)
  | @walking w deadline walker registered going stage due state =>
      -- Only a walker that was waiting comes into the queue; any other is there already.
      refine .walking (hwalker _ walker) (by rwa [hregistered]) going stage ?_
        (by rw [hplaces]; exact state.receive known)
      rcases due with hinbox | hmem
      · by_cases hplace : p.traffic.places id response.url = 0
        · exact Or.inl (by simp [hinbox, hplace])
        · right
          rw [deliver_of_awaited hheard hwaiting]
          refine mem_queue_of_waiting response ?_ walker ?_
          · exact List.count_pos_iff.1 (by omega)
          · simp [Walker.isWaiting, stage, hinbox]
      · exact Or.inr (hqueue hmem)

theorem Kept.deliver (h : Kept rules heard closed [] p.queue p) {response : Response}
    (known : heard response) :
    Kept rules heard closed [] (p.deliver response).queue (p.deliver response) := by
  cases hheard : p.web.listeners.hears response.url with
  | false =>
      rw [deliver_of_unheard hheard]
      exact h
  | true =>
      cases hwaiting : p.traffic.awaiting.get? response.url with
      | none =>
          rw [deliver_of_unawaited hwaiting]
          exact h
      | some waiting =>
          refine ⟨fun id => (h.fits id).deliver known hheard hwaiting, ?_, ?_, ?_⟩
          · rw [deliver_of_awaited hheard hwaiting, foldl_receive_eq]
            exact h.crowded.erase response.url
          · rw [deliver_of_awaited hheard hwaiting, foldl_receive_eq]
            exact h.matched
          · rw [deliver_of_awaited hheard hwaiting, foldl_receive_eq]
            exact h.answers

def requested (p : Pathfinder) (url : String) : Pathfinder × Option Failure :=
  (p.register url).ask p.walkers.length url

theorem requested_eq (p : Pathfinder) (url : String) :
    let asked := p.traffic.ask p.walkers.length { trail := { origin := url } } url
    p.requested url =
      ({ p.register url with
          traffic := asked.1
          walkers := (p.register url).walkers.set p.walkers.length asked.2.1 }, asked.2.2) := by
  have hnew : (p.register url).walkers[p.walkers.length]? =
      some { trail := { origin := url } } := by
    simp [register]
  simp only [requested, ask, hnew]
  rfl

theorem start_of_granted {url : String} (h : (p.requested url).2 = none) :
    p.start url =
      (.ok (p.requested url).1.callers.length,
        { (p.requested url).1 with
          queue := (p.requested url).1.queue ++ [p.walkers.length]
          callers := (p.requested url).1.callers ++ [{ url := url }] }) := by
  unfold start
  rcases hrequested : p.requested url with ⟨q, failure?⟩
  rw [hrequested] at h
  cases h
  rw [requested] at hrequested
  simp only [hrequested]

theorem start_of_refused {url : String} {failure : Failure}
    (h : (p.requested url).2 = some failure) :
    p.start url =
      (.error .refused,
        { ((p.requested url).1.forget p.walkers.length).1 with
          walkers :=
            ((p.requested url).1.forget p.walkers.length).1.walkers.take p.walkers.length }) := by
  unfold start
  rcases hrequested : p.requested url with ⟨q, failure?⟩
  rw [hrequested] at h
  cases h
  rw [requested] at hrequested
  simp only [hrequested]

theorem moves_requested {url : String} (habsent : url ∉ p.registered) :
    Moves p.walkers.length p (p.requested url).1 :=
  (moves_register p habsent).trans (moves_ask _ _ _)

theorem registered_requested (p : Pathfinder) (url : String) :
    (p.requested url).1.registered = p.registered.insert url p.walkers.length :=
  registered_ask _ _ _

theorem queue_requested (p : Pathfinder) (url : String) :
    (p.requested url).1.queue = p.queue := queue_ask _ _ _

theorem length_requested (p : Pathfinder) (url : String) :
    (p.requested url).1.walkers.length = p.walkers.length + 1 := by
  rw [requested, length_ask]
  simp [register]

theorem queue_forget (p : Pathfinder) (id : WalkerId) : (p.forget id).1.queue = p.queue := by
  unfold forget
  split
  · rfl
  · dsimp only
    split <;> rfl

theorem Kept.requested (h : Kept rules heard closed ended todo p) (url : String) :
    ∃ w, (p.requested url).1.walkers[p.walkers.length]? = some w ∧
      w.trail.origin = url ∧ w.stage = .fresh ∧
      (∀ origin, (p.requested url).1.registered.get? origin = some p.walkers.length ↔
        origin = w.trail.origin) ∧
      w.Underway rules heard ((p.requested url).1.traffic.places p.walkers.length) := by
  obtain ⟨hunregistered, hunlisted⟩ :=
    (h.fits p.walkers.length).of_none (List.getElem?_eq_none (Nat.le_refl _))
  have asked := p.traffic.asked_ask p.walkers.length { trail := { origin := url } } url
  have hunderway := Walker.Underway.of_asked asked (@Trail.Led.setOut rules heard url)
    (Trail.tip_visit_origin url) rfl hunlisted h.answersAtOnce
  have horigin := (congrArg Trail.origin asked.trail_eq).trans (Trail.origin_visit _ _)
  have hlt : p.walkers.length < (p.register url).walkers.length := by simp [register]
  have hregistered : ∀ origin, (p.requested url).1.registered.get? origin =
      some p.walkers.length ↔ origin = url := by
    intro origin
    rw [registered_requested, Table.get?_insert]
    split
    · simp [*]
    · rename_i hne
      exact iff_of_false (fun hget => hunregistered ⟨origin, hget⟩) hne
  rw [requested_eq] at hregistered ⊢
  refine ⟨_, List.getElem?_set_self hlt, horigin, asked.stage_eq, ?_, hunderway⟩
  intro origin
  exact (hregistered origin).trans (iff_of_eq (congrArg (origin = ·) horigin.symm))

theorem Kept.start (h : Kept rules heard closed [] p.queue p) {url : String}
    (habsent : url ∉ p.registered) :
    Kept rules heard closed [] (p.start url).2.queue (p.start url).2 := by
  obtain ⟨w, hw, -, hstage, hregistered, hunderway⟩ := h.requested url
  have hmoves := moves_requested habsent
  cases hfailure : (p.requested url).2 with
  | none =>
      rw [start_of_granted hfailure]
      refine h.of_moves (hmoves.congr rfl rfl rfl rfl) (fun _ _ => Iff.rfl) ?_ ?_
      · intro other _ hmem
        rw [queue_requested]
        exact List.mem_append_left _ hmem
      · exact .fresh hw hregistered List.not_mem_nil hstage (by simp) hunderway
  | some failure =>
      obtain ⟨hforgotten, hunlisted⟩ := forget_of_ended hw hregistered hunderway.ended
      have hall := hmoves.trans (moves_forget _ p.walkers.length)
      rw [start_of_refused hfailure]
      refine h.of_moves ⟨hall.web, hall.crowded, hall.matched, ?_, hall.places_eq,
        hall.registered_iff⟩ (fun _ _ => Iff.rfl) ?_ ?_
      · intro other hne
        rw [List.getElem?_take]
        split
        · exact hall.walker_eq other hne
        · rename_i hge
          rw [List.getElem?_eq_none (Nat.le_of_not_lt hge)]
      · intro other _ hmem
        rw [queue_forget, queue_requested]
        exact hmem
      · refine .absent ?_ hforgotten hunlisted
        exact List.getElem?_eq_none (List.length_take_le _ _)

theorem Kept.resolve (h : Kept rules heard closed [] p.queue p) (url : String) :
    Kept rules heard closed [] (p.resolve url).2.queue (p.resolve url).2 := by
  unfold Pathfinder.resolve
  split
  · cases hwaiting : p.waiting.get? url with
    | none =>
        apply h.start
        rw [h.matched]
        exact Table.get?_eq_none_iff.1 hwaiting
    | some tickets =>
        refine h.congr rfl rfl rfl ?_ h.answers fun _ hmem => hmem
        intro other
        simp only [joinWaiting, Table.mem_insert_iff]
        rw [h.matched]
        constructor
        · exact Or.inl
        · intro hmem
          rcases hmem with hmem | heq
          · exact hmem
          · rw [heq]
            exact Table.mem_of_get? hwaiting
  · exact h

end Pathfinder

end LinkTrail
