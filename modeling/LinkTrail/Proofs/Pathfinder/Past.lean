import LinkTrail.Proofs.Pathfinder.Renumber
import LinkTrail.Proofs.Pathfinder.Runs

/-!
What a pathfinder has left behind. Main statement: walkers and callers that are of no more use make
no difference to what a pathfinder does (`Past.IsIdle.exists_act`).
-/

namespace LinkTrail

/-- Walkers and callers from before, and those of the walkers that are still in the queue. -/
structure Past where
  walkers : List Walker := []
  callers : List Caller := []
  queue : List WalkerId := []

namespace Past

def followedBy (past : Past) (p : Pathfinder) : Pathfinder where
  attached := p.attached
  waiting := p.waiting.map (List.map (past.callers.length + ·))
  registered := p.registered.map (past.walkers.length + ·)
  traffic := p.traffic.renumber past.walkers.length
  walkers := past.walkers ++ p.walkers
  queue := past.queue ++ p.queue.map (past.walkers.length + ·)
  callers := past.callers ++ p.callers
  clock := p.clock

structure IsIdle (rules : Rules) (past : Past) : Prop where
  idle : ∀ w ∈ past.walkers, w.stage = .gone ∨ w.stage = .leaving ∧
    ∀ response inbox next, w.inbox = response :: inbox →
      rules.verdict w.trail response ≠ .redirect next
  lt : ∀ id ∈ past.queue, id < past.walkers.length

variable {rules : Rules} {past : Past} {p : Pathfinder} {id : WalkerId}

theorem set_append_length_add {α : Type} (first rest : List α) (index : Nat) (value : α) :
    (first ++ rest).set (first.length + index) value = first ++ rest.set index value := by
  rw [List.set_append_right _ _ (Nat.le_add_right _ _), Nat.add_sub_cancel_left]

theorem modify_append_length_add {α : Type} (first rest : List α) (index : Nat) (f : α → α) :
    (first ++ rest).modify (first.length + index) f = first ++ rest.modify index f := by
  exact List.modifyTailIdx_add (List.modifyHead f) index first rest

theorem getElem?_walkers (past : Past) (p : Pathfinder) (id : WalkerId) :
    (past.followedBy p).walkers[past.walkers.length + id]? = p.walkers[id]? := by
  rw [followedBy, List.getElem?_append_right (Nat.le_add_right _ _), Nat.add_sub_cancel_left]

theorem get?_registered_eq_iff {origin : String} :
    (past.followedBy p).registered.get? origin = some (past.walkers.length + id) ↔
      p.registered.get? origin = some id := by
  simp [followedBy]

theorem forget_followedBy :
    (past.followedBy p).forget (past.walkers.length + id) =
      (past.followedBy (p.forget id).1, (p.forget id).2.map (past.callers.length + ·)) := by
  cases hw : p.walkers[id]? with
  | none =>
      rw [Pathfinder.forget_of_none hw,
        Pathfinder.forget_of_none ((getElem?_walkers past p id).trans hw)]
      rfl
  | some w =>
      have hw' := (getElem?_walkers past p id).trans hw
      by_cases hregistered : p.registered.get? w.trail.origin = some id
      · rw [Pathfinder.forget_of_registered hw hregistered,
          Pathfinder.forget_of_registered hw' (get?_registered_eq_iff.2 hregistered)]
        simp only [followedBy, Table.map_erase, Table.get?_map, Traffic.withdraw_renumber,
          set_append_length_add]
        cases p.waiting.get? w.trail.origin <;> rfl
      · rw [Pathfinder.forget_of_not_registered hw hregistered,
          Pathfinder.forget_of_not_registered hw' (mt get?_registered_eq_iff.1 hregistered)]
        rfl

theorem mapWalker_followedBy (f : Walker → Walker) :
    (past.followedBy p).mapWalker (past.walkers.length + id) f =
      past.followedBy (p.mapWalker id f) := by
  simp only [Pathfinder.mapWalker, followedBy, modify_append_length_add]

theorem complete_followedBy (tickets : List Ticket) (outcome : Outcome) :
    (past.followedBy p).complete (tickets.map (past.callers.length + ·)) outcome =
      past.followedBy (p.complete tickets outcome) := by
  have hcallers : ∀ callers : List Caller,
      (tickets.map (past.callers.length + ·)).foldl
          (fun cs ticket => cs.modify ticket (Caller.complete outcome)) (past.callers ++ callers) =
        past.callers ++ tickets.foldl
          (fun cs ticket => cs.modify ticket (Caller.complete outcome)) callers := by
    induction tickets with
    | nil => exact fun _ => rfl
    | cons ticket tickets ih =>
        intro callers
        rw [List.map_cons, List.foldl_cons, modify_append_length_add]
        exact ih _
  simp only [Pathfinder.complete, followedBy, hcallers]

theorem finish_followedBy (result : Except Failure String) :
    (past.followedBy p).finish (past.walkers.length + id) result =
      past.followedBy (p.finish id result) := by
  cases hw : p.walkers[id]? with
  | none =>
      rw [Pathfinder.finish_of_none hw,
        Pathfinder.finish_of_none ((getElem?_walkers past p id).trans hw)]
  | some w =>
      rw [Pathfinder.finish_of_some hw,
        Pathfinder.finish_of_some ((getElem?_walkers past p id).trans hw), forget_followedBy,
        complete_followedBy, mapWalker_followedBy]

theorem dismiss_followedBy :
    (past.followedBy p).dismiss (past.walkers.length + id) = past.followedBy (p.dismiss id) := by
  unfold Pathfinder.dismiss
  rw [getElem?_walkers]
  cases p.walkers[id]? with
  | none => rfl
  | some w =>
      dsimp only
      rw [finish_followedBy, mapWalker_followedBy]

theorem expire_followedBy :
    (past.followedBy p).expire rules (past.walkers.length + id) =
      past.followedBy (p.expire rules id) := by
  unfold Pathfinder.expire
  rw [getElem?_walkers]
  cases p.walkers[id]? with
  | none => rfl
  | some w =>
      cases rules.timeout with
      | none => rfl
      | some limit =>
          dsimp only
          rw [finish_followedBy]
          exact (apply_ite past.followedBy _ _ _).symm

theorem foldl_followedBy {f : Pathfinder → WalkerId → Pathfinder}
    (h : ∀ q id, f (past.followedBy q) (past.walkers.length + id) = past.followedBy (f q id))
    (ids : List WalkerId) (q : Pathfinder) :
    (ids.map (past.walkers.length + ·)).foldl f (past.followedBy q) =
      past.followedBy (ids.foldl f q) := by
  rw [List.foldl_map]
  exact List.foldl_hom past.followedBy h

theorem values_registered (past : Past) (p : Pathfinder) :
    (past.followedBy p).registered.values =
      p.registered.values.map (past.walkers.length + ·) := Table.values_map

theorem close_followedBy : (past.followedBy p).close = past.followedBy p.close := by
  have hattached : ∀ q : Pathfinder, (past.followedBy q).attached = q.attached := fun _ => rfl
  simp only [Pathfinder.close, values_registered, foldl_followedBy fun _ _ => dismiss_followedBy,
    hattached]
  split <;> rfl

theorem attach_followedBy : (past.followedBy p).attach = past.followedBy p.attach := by
  have hattached : (past.followedBy p).attached = p.attached := rfl
  simp only [Pathfinder.attach, hattached]
  split <;> rfl

theorem requested_followedBy (url : String) :
    (past.followedBy p).requested url =
      (past.followedBy (p.requested url).1, (p.requested url).2) := by
  have hlength : (past.followedBy p).walkers.length =
      past.walkers.length + p.walkers.length := List.length_append
  have htraffic : (past.followedBy p).traffic = p.traffic.renumber past.walkers.length := rfl
  rw [Pathfinder.requested_eq, Pathfinder.requested_eq, hlength, htraffic, Traffic.ask_renumber]
  simp only [Pathfinder.register, followedBy, Table.map_insert, List.length_append,
    List.map_cons, List.map_nil, List.append_assoc, set_append_length_add]

theorem start_followedBy (url : String) :
    (past.followedBy p).start url =
      ((p.start url).1.map (past.callers.length + ·), past.followedBy (p.start url).2) := by
  have hlength : (past.followedBy p).walkers.length =
      past.walkers.length + p.walkers.length := List.length_append
  have hrequested := @requested_followedBy past p url
  cases hfailure : (p.requested url).2 with
  | none =>
      rw [Pathfinder.start_of_granted hfailure,
        Pathfinder.start_of_granted (by rw [hrequested]; exact hfailure), hrequested, hlength]
      simp [followedBy, Except.map]
  | some failure =>
      rw [Pathfinder.start_of_refused hfailure,
        Pathfinder.start_of_refused (by rw [hrequested]; exact hfailure), hrequested, hlength]
      dsimp only
      rw [forget_followedBy]
      simp [followedBy, Except.map, List.take_length_add_append]

theorem resolve_followedBy (url : String) :
    (past.followedBy p).resolve url =
      ((p.resolve url).1.map (past.callers.length + ·), past.followedBy (p.resolve url).2) := by
  have hattached : (past.followedBy p).attached = p.attached := rfl
  have hwaiting : (past.followedBy p).waiting.get? url =
      (p.waiting.get? url).map (List.map (past.callers.length + ·)) := Table.get?_map url
  simp only [Pathfinder.resolve, hattached, hwaiting]
  split
  · cases p.waiting.get? url with
    | none => exact start_followedBy url
    | some tickets =>
        simp [Pathfinder.joinWaiting, followedBy, Table.map_insert, Except.map]
  · rfl

theorem cancel_followedBy (ticket : Ticket) :
    (past.followedBy p).cancel (past.callers.length + ticket) =
      past.followedBy (p.cancel ticket) := by
  simp only [Pathfinder.cancel, followedBy, modify_append_length_add]

theorem receive_followedBy (response : Response) :
    (past.followedBy p).receive response (past.walkers.length + id) =
      past.followedBy (p.receive response id) := by
  rw [Pathfinder.receive_eq, Pathfinder.receive_eq, getElem?_walkers]
  simp only [followedBy, modify_append_length_add]
  split <;> simp

theorem deliver_followedBy (response : Response) :
    (past.followedBy p).deliver response = past.followedBy (p.deliver response) := by
  cases hheard : p.web.listeners.hears response.url with
  | false =>
      rw [Pathfinder.deliver_of_unheard hheard]
      exact Pathfinder.deliver_of_unheard hheard
  | true =>
      have hlist : (past.followedBy p).traffic.awaiting.get? response.url =
          (p.traffic.awaiting.get? response.url).map (List.map (past.walkers.length + ·)) :=
        Table.get?_map response.url
      cases hwaiting : p.traffic.awaiting.get? response.url with
      | none =>
          rw [hwaiting] at hlist
          rw [Pathfinder.deliver_of_unawaited hwaiting]
          exact Pathfinder.deliver_of_unawaited hlist
      | some waiting =>
          rw [hwaiting, Option.map_some] at hlist
          rw [Pathfinder.deliver_of_awaited hheard hwaiting,
            Pathfinder.deliver_of_awaited (p := past.followedBy p) hheard hlist,
            ← foldl_followedBy fun _ _ => receive_followedBy response]
          simp only [followedBy, Traffic.renumber, Table.map_erase]

def turn (past : Past) (endings : List Pathfinder.Ending) (t : Pathfinder.Turn) :
    Pathfinder.Turn where
  pathfinder := past.followedBy t.pathfinder
  endings := endings ++ t.endings.map fun ending =>
    { ending with id := past.walkers.length + ending.id }

variable {t : Pathfinder.Turn} {endings : List Pathfinder.Ending}

theorem stage?_followedBy :
    (past.followedBy p).stage? (past.walkers.length + id) = p.stage? id := by
  rw [Pathfinder.stage?, getElem?_walkers, Pathfinder.stage?]

theorem move_turn :
    (past.turn endings t).move rules (past.walkers.length + id) =
      past.turn endings (t.move rules id) := by
  have hwalker := getElem?_walkers past t.pathfinder id
  cases hw : t.pathfinder.walkers[id]? with
  | none =>
      rw [hw] at hwalker
      simp [Pathfinder.Turn.move, turn, hw, hwalker]
  | some w =>
      rw [hw] at hwalker
      rcases hproceed : w.proceed rules id t.pathfinder.traffic with ⟨traffic, after, result?⟩
      have hproceed' : w.proceed rules (past.walkers.length + id)
          (past.followedBy t.pathfinder).traffic =
            (traffic.renumber past.walkers.length, after, result?) := by
        have hrenumber := Walker.proceed_renumber rules past.walkers.length id
          t.pathfinder.traffic w
        rw [hproceed] at hrenumber
        exact hrenumber
      rw [Pathfinder.Turn.move_of_some hw hproceed,
        Pathfinder.Turn.move_of_some (t := past.turn endings t) hwalker hproceed']
      simp only [turn, followedBy, set_append_length_add, List.map_append, List.append_assoc]
      cases result? <;> rfl

theorem setOut_turn :
    (past.turn endings t).setOut rules (past.walkers.length + id) =
      past.turn endings (t.setOut rules id) := by
  have hwalker : (past.turn endings t).pathfinder.walkers[past.walkers.length + id]? =
      t.pathfinder.walkers[id]? := getElem?_walkers past t.pathfinder id
  unfold Pathfinder.Turn.setOut
  rw [hwalker]
  cases t.pathfinder.walkers[id]? with
  | none => rfl
  | some w =>
      cases rules.timeout.filter (· ≤ 0) with
      | some limit => simp [turn, Pathfinder.Turn.ended]
      | none =>
          dsimp only
          rw [← move_turn]
          simp only [turn, mapWalker_followedBy]
          rfl

theorem step_turn :
    (past.turn endings t).step rules (past.walkers.length + id) =
      past.turn endings (t.step rules id) := by
  have hstage : (past.turn endings t).pathfinder.stage? (past.walkers.length + id) =
      t.pathfinder.stage? id := stage?_followedBy
  unfold Pathfinder.Turn.step
  rw [hstage]
  split
  · exact setOut_turn
  · exact move_turn
  · exact move_turn
  · rfl

theorem conclude_turn_nil : (past.turn [] t).conclude = past.followedBy t.conclude := by
  simp only [Pathfinder.Turn.conclude, turn, List.nil_append, List.foldl_map]
  exact List.foldl_hom past.followedBy fun _ ending => finish_followedBy ending.result

structure Fades (rules : Rules) (past past' : Past) : Prop where
  idle : past.IsIdle rules → past'.IsIdle rules
  walkers : past'.walkers.length = past.walkers.length
  callers : past'.callers.length = past.callers.length

theorem Fades.refl (rules : Rules) (past : Past) : Fades rules past past :=
  ⟨fun h => h, rfl, rfl⟩

theorem Fades.trans {past' past'' : Past} (h : Fades rules past past')
    (h' : Fades rules past' past'') : Fades rules past past'' :=
  ⟨fun hidle => h'.idle (h.idle hidle), h'.walkers.trans h.walkers, h'.callers.trans h.callers⟩

theorem fades_set {w : Walker} (hgone : w.stage = .gone) (id : WalkerId) :
    Fades rules past { past with walkers := past.walkers.set id w } where
  idle h := by
    refine ⟨?_, by simpa using h.lt⟩
    intro other hmem
    rcases List.mem_or_eq_of_mem_set hmem with hmem | heq
    · exact h.idle other hmem
    · exact Or.inl (heq ▸ hgone)
  walkers := by simp
  callers := rfl

theorem getElem?_past (hid : id < past.walkers.length) :
    (past.followedBy p).walkers[id]? = some past.walkers[id] := by
  rw [followedBy, List.getElem?_append_left hid, List.getElem?_eq_getElem hid]

theorem IsIdle.exists_step (h : past.IsIdle rules) (hid : id < past.walkers.length) :
    ∃ past', ∃ result? : Option (Except Failure String), Fades rules past past' ∧
      ({ pathfinder := past.followedBy p, endings := endings } : Pathfinder.Turn).step rules id =
        { pathfinder := past'.followedBy p
          endings := endings ++ (result?.map (Pathfinder.Ending.mk id)).toList } := by
  have hstepped := Pathfinder.Turn.stepped_step rules
    { pathfinder := past.followedBy p, endings := endings } id
  generalize Pathfinder.Turn.step rules
    { pathfinder := past.followedBy p, endings := endings } id = u at *
  have hidle := h.idle past.walkers[id] (List.getElem_mem hid)
  cases hstepped with
  | idle stage => exact ⟨past, none, .refl rules past, by simp⟩
  | late walker stage untimely =>
      obtain rfl := Option.some.inj ((getElem?_past hid).symm.trans walker)
      simp [stage] at hidle
  | @moved w after traffic result? walker stage timely proceed =>
      obtain rfl := Option.some.inj ((getElem?_past hid).symm.trans walker)
      obtain ⟨hleaving, hstays⟩ := hidle.resolve_left stage
      have hstarted : past.walkers[id].started rules (past.followedBy p).clock =
          past.walkers[id] := if_neg (by simp [hleaving])
      rw [hstarted] at proceed
      have walk := past.walkers[id].walk_proceed rules id (past.followedBy p).traffic
      rw [proceed] at walk
      have htraffic : traffic = (past.followedBy p).traffic :=
        walk.traffic_eq fun response inbox next read => hstays response inbox next read
      have hgone : after.settled.stage = .gone := by
        have hstage : after.stage = .leaving := walk.stage_eq.trans hleaving
        simp [Walker.settled, hstage]
      refine ⟨_, result?, fades_set hgone id, ?_⟩
      simp only [htraffic, followedBy, List.set_append_left _ _ hid, List.length_set]

theorem exists_finish (rules : Rules) (hid : id < past.walkers.length)
    (result : Except Failure String) :
    ∃ past', Fades rules past past' ∧
      (past.followedBy p).finish id result = past'.followedBy p := by
  have hw := @getElem?_past past p id hid
  have hunregistered : (past.followedBy p).registered.get? past.walkers[id].trail.origin ≠
      some id := by
    intro hregistered
    simp only [followedBy, Table.get?_map, Option.map_eq_some_iff] at hregistered
    obtain ⟨other, -, heq⟩ := hregistered
    have hpast : past.walkers.length + other < past.walkers.length := heq ▸ hid
    omega
  have hset : (past.walkers ++ p.walkers).modify id (fun w => { w with stage := .gone }) =
      past.walkers.set id { past.walkers[id] with stage := .gone } ++ p.walkers := by
    have hself : (past.walkers ++ p.walkers).set id past.walkers[id] =
        past.walkers ++ p.walkers := by
      rw [List.set_append_left _ _ hid, List.set_getElem_self]
    have hmodify := Pathfinder.modify_set_self (past.walkers ++ p.walkers) id past.walkers[id]
      fun w => { w with stage := .gone }
    rw [hself] at hmodify
    rw [hmodify, List.set_append_left _ _ hid]
  refine ⟨_, @fades_set rules past { past.walkers[id] with stage := .gone } rfl id, ?_⟩
  rw [Pathfinder.finish_of_not_registered hw hunregistered]
  simp only [Pathfinder.mapWalker, followedBy, hset, List.length_set]

theorem exists_foldl_finish (rules : Rules) (past : Past) {endings : List Pathfinder.Ending}
    (hendings : ∀ ending ∈ endings, ending.id < past.walkers.length) :
    ∃ past', Fades rules past past' ∧
      endings.foldl (fun q ending => q.finish ending.id ending.result) (past.followedBy p) =
        past'.followedBy p := by
  induction endings generalizing past with
  | nil => exact ⟨past, .refl rules past, rfl⟩
  | cons first endings ih =>
      obtain ⟨hfirst, hrest⟩ := List.forall_mem_cons.1 hendings
      obtain ⟨past', hfades, hfinish⟩ := @exists_finish past p first.id rules hfirst first.result
      rw [← hfades.walkers] at hrest
      obtain ⟨past'', hfades', hfold⟩ := ih past' hrest
      refine ⟨past'', hfades.trans hfades', ?_⟩
      rw [List.foldl_cons, hfinish]
      exact hfold

theorem exists_conclude (rules : Rules)
    (hendings : ∀ ending ∈ endings, ending.id < past.walkers.length) :
    ∃ past', Fades rules past past' ∧
      (past.turn endings t).conclude = past'.followedBy t.conclude := by
  obtain ⟨past', hfades, hfold⟩ := @exists_foldl_finish t.pathfinder rules past endings hendings
  refine ⟨past', hfades, ?_⟩
  have hrest := @conclude_turn_nil past' t
  simp only [Pathfinder.Turn.conclude, turn, List.nil_append, hfades.walkers] at hrest
  simp only [Pathfinder.Turn.conclude, turn, List.foldl_append, hfold]
  exact hrest

theorem IsIdle.exists_foldl_step (h : past.IsIdle rules) {ids : List WalkerId}
    (hids : ∀ id ∈ ids, id < past.walkers.length)
    (hendings : ∀ ending ∈ endings, ending.id < past.walkers.length) :
    ∃ past' endings', Fades rules past past' ∧
      (∀ ending ∈ endings', ending.id < past'.walkers.length) ∧
      ids.foldl (Pathfinder.Turn.step rules)
          { pathfinder := past.followedBy p, endings := endings } =
        { pathfinder := past'.followedBy p, endings := endings' } := by
  induction ids generalizing past endings with
  | nil => exact ⟨past, endings, .refl rules past, hendings, rfl⟩
  | cons first ids ih =>
      obtain ⟨hfirst, hrest⟩ := List.forall_mem_cons.1 hids
      obtain ⟨past', result?, hfades, hstep⟩ := @IsIdle.exists_step rules past p first endings h hfirst
      rw [← hfades.walkers] at hrest
      have hmore : ∀ ending ∈ endings ++ (result?.map (Pathfinder.Ending.mk first)).toList,
          ending.id < past'.walkers.length := by
        rw [hfades.walkers]
        intro ending hmem
        rcases List.mem_append.1 hmem with hmem | hmem
        · exact hendings ending hmem
        · obtain ⟨result, -, rfl⟩ := Option.map_eq_some_iff.1 (Option.mem_toList.1 hmem)
          exact hfirst
      obtain ⟨past'', endings', hfades', hended, hfold⟩ := ih (hfades.idle h) hrest hmore
      refine ⟨past'', endings', hfades.trans hfades', hended, ?_⟩
      rw [List.foldl_cons, hstep]
      exact hfold

theorem IsIdle.turnOrder_followedBy (h : past.IsIdle rules) :
    (past.followedBy p).turnOrder = past.queue ++ p.turnOrder.map (past.walkers.length + ·) := by
  have hpast : ∀ id ∈ past.queue, (past.followedBy p).stage? id ≠ some .fresh := by
    intro id hmem hfresh
    have hid := h.lt id hmem
    rw [Pathfinder.stage?, getElem?_past hid, Option.map_some, Option.some.injEq] at hfresh
    have hidle := h.idle past.walkers[id] (List.getElem_mem hid)
    simp [hfresh] at hidle
  have hnone : past.queue.filter
      (fun id => (past.followedBy p).stage? id = some .fresh) = [] := by
    simpa using hpast
  have hall : past.queue.filter
      (fun id => ¬ (past.followedBy p).stage? id = some .fresh) = past.queue := by
    simpa using hpast
  have hqueue : (past.followedBy p).queue =
      past.queue ++ p.queue.map (past.walkers.length + ·) := rfl
  simp only [Pathfinder.turnOrder, List.partition_eq_filter_filter, hqueue, List.filter_append,
    List.filter_map, List.map_append, Function.comp_def, stage?_followedBy, hnone,
    List.nil_append, List.append_assoc]
  congr 1
  simpa using hall

theorem IsIdle.exists_drainTimed (h : past.IsIdle rules) (p : Pathfinder) :
    ∃ past', Fades rules past past' ∧
      (past.followedBy p).drainTimed rules = past'.followedBy (p.drainTimed rules) := by
  obtain ⟨past', endings, hfades, hendings, hstepped⟩ :=
    @IsIdle.exists_foldl_step rules past p [] h past.queue h.lt (by simp)
  -- Those of the past move first, since none of them sets out.
  have hbegin : ({ pathfinder := past'.followedBy p, endings := endings } : Pathfinder.Turn) =
      past'.turn endings { pathfinder := p } := by
    simp [turn]
  have hrest : p.turnOrder.foldl (fun t id => t.step rules (past'.walkers.length + id))
      (past'.turn endings { pathfinder := p }) =
        past'.turn endings (p.turnOrder.foldl (Pathfinder.Turn.step rules) { pathfinder := p }) :=
    List.foldl_hom (past'.turn endings) fun _ _ => step_turn
  obtain ⟨past'', hfades', hconcluded⟩ := @exists_conclude past'
    (p.turnOrder.foldl (Pathfinder.Turn.step rules) { pathfinder := p }) endings rules hendings
  refine ⟨past'', hfades.trans hfades', ?_⟩
  unfold Pathfinder.drainTimed
  rw [h.turnOrder_followedBy, List.foldl_append, hstepped, List.foldl_map, ← hfades.walkers, hbegin,
    hrest]
  dsimp only
  rw [hconcluded, values_registered]
  exact foldl_followedBy (fun _ _ => expire_followedBy) _ _

theorem IsIdle.exists_foldl_step_conclude (h : past.IsIdle rules) {ids : List WalkerId}
    (hids : ∀ id ∈ ids, id < past.walkers.length) (p : Pathfinder) :
    ∃ past', Fades rules past past' ∧
      ids.foldl (fun q id => (Pathfinder.Turn.step rules { pathfinder := q } id).conclude)
        (past.followedBy p) = past'.followedBy p := by
  induction ids generalizing past with
  | nil => exact ⟨past, .refl rules past, rfl⟩
  | cons first ids ih =>
      obtain ⟨hfirst, hrest⟩ := List.forall_mem_cons.1 hids
      obtain ⟨past', result?, hfades, hstep⟩ := @IsIdle.exists_step rules past p first [] h hfirst
      have hended : ∀ ending ∈ (result?.map (Pathfinder.Ending.mk first)).toList,
          ending.id < past'.walkers.length := by
        rw [hfades.walkers]
        intro ending hmem
        obtain ⟨result, -, rfl⟩ := Option.map_eq_some_iff.1 (Option.mem_toList.1 hmem)
        exact hfirst
      obtain ⟨past'', hfades', hconcluded⟩ :=
        @exists_conclude past' { pathfinder := p } _ rules hended
      rw [← hfades.walkers, ← hfades'.walkers] at hrest
      obtain ⟨last, hfades'', hfold⟩ := ih (hfades'.idle (hfades.idle h)) hrest
      refine ⟨last, (hfades.trans hfades').trans hfades'', ?_⟩
      simp only [turn, List.map_nil, List.append_nil] at hconcluded
      rw [List.foldl_cons, hstep, List.nil_append, hconcluded]
      exact hfold

theorem IsIdle.exists_drainUntimed (h : past.IsIdle rules) (p : Pathfinder) :
    ∃ past', Fades rules past past' ∧
      (past.followedBy p).drainUntimed rules = past'.followedBy (p.drainUntimed rules) := by
  obtain ⟨past', hfades, hfold⟩ := h.exists_foldl_step_conclude h.lt p
  refine ⟨past', hfades, ?_⟩
  have hqueue : (past.followedBy p).queue =
      past.queue ++ p.queue.map (past'.walkers.length + ·) := by
    rw [hfades.walkers]
    rfl
  unfold Pathfinder.drainUntimed
  rw [hqueue, List.foldl_append, hfold]
  apply foldl_followedBy
  intro q id
  have hstep := @step_turn rules past' id { pathfinder := q } []
  simp only [turn, List.map_nil, List.append_nil] at hstep
  rw [hstep]
  exact conclude_turn_nil

theorem IsIdle.exists_drain (h : past.IsIdle rules) (p : Pathfinder) :
    ∃ past', Fades rules past past' ∧
      (past.followedBy p).drain rules = past'.followedBy (p.drain rules) := by
  have hemptied : ∀ past' : Past, Fades rules past past' →
      Fades rules past { past' with queue := [] } := by
    intro past' hfades
    refine ⟨?_, hfades.walkers, hfades.callers⟩
    exact fun hidle => ⟨(hfades.idle hidle).idle, by simp⟩
  unfold Pathfinder.drain
  split
  · obtain ⟨past', hfades, hdrained⟩ := h.exists_drainTimed p
    refine ⟨_, hemptied past' hfades, ?_⟩
    rw [hdrained]
    rfl
  · obtain ⟨past', hfades, hdrained⟩ := h.exists_drainUntimed p
    refine ⟨_, hemptied past' hfades, ?_⟩
    rw [hdrained]
    rfl

end Past

/-- The action with tickets counted from the end of `count` callers. -/
def Pathfinder.Action.later (count : Nat) : Action → Action
  | cancel ticket => cancel (count + ticket)
  | action => action

namespace Past

variable {rules : Rules} {past : Past}

theorem IsIdle.exists_act (h : past.IsIdle rules) (p : Pathfinder) (action : Pathfinder.Action) :
    ∃ past', Fades rules past past' ∧
      ((past.followedBy p).act rules (action.later past.callers.length)).1 =
        past'.followedBy (p.act rules action).1 := by
  have hsame : ∀ {q q' : Pathfinder}, q = past.followedBy q' →
      ∃ past', Fades rules past past' ∧ q = past'.followedBy q' := fun heq =>
    ⟨past, .refl rules past, heq⟩
  cases action with
  | attach => exact hsame attach_followedBy
  | close => exact hsame close_followedBy
  | resolve url =>
      apply hsame
      have hlater : (Pathfinder.Action.resolve url).later past.callers.length = .resolve url := rfl
      rw [hlater, Pathfinder.act_resolve, Pathfinder.act_resolve, resolve_followedBy]
  | deliver response => exact hsame (deliver_followedBy response)
  | cancel ticket => exact hsame (cancel_followedBy ticket)
  | refuseRequests refusing => exact hsame rfl
  | answerAtOnce url response? => exact hsame rfl
  | advance span => exact hsame rfl
  | drain => exact h.exists_drain p

theorem IsIdle.exists_run (h : past.IsIdle rules) (p : Pathfinder)
    (actions : List Pathfinder.Action) :
    ∃ past', Fades rules past past' ∧
      (past.followedBy p).run rules (actions.map (.later past.callers.length)) =
        past'.followedBy (p.run rules actions) := by
  induction actions generalizing past p with
  | nil => exact ⟨past, .refl rules past, rfl⟩
  | cons action actions ih =>
      obtain ⟨past', hfades, hact⟩ := h.exists_act p action
      obtain ⟨past'', hfades', hrun⟩ := ih (hfades.idle h) (p.act rules action).1
      refine ⟨past'', hfades.trans hfades', ?_⟩
      rw [hfades.callers, ← hact] at hrun
      exact hrun

end Past

end LinkTrail
