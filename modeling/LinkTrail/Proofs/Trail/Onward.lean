import LinkTrail.Proofs.Trail.WalkBack

/-!
The path from the origin over any hops, cyclic, branching or apart from it. Main statement: each
step takes the latest hop onward, the path ends only without one or at its greatest length, and
where the hops form a path in any order it is that path, the walk back from its end reversed
(`path_leads_on`).
-/

namespace LinkTrail.Trail

def LeadsOn (hops : Table String String) (url next : String) : Prop :=
  hops.get? next = some url ∧
    ∃ before after, hops.entries = before ++ (next, url) :: after ∧ ∀ hop ∈ after, hop.2 ≠ url

def steps (path : List String) : List (String × String) := path.tail.zip path

/-- The hops are the steps of a path that comes to no URL twice, in any order. -/
structure FormPath (hops : Table String String) (path : List String) : Prop where
  nodup : path.Nodup
  entries_hops : hops.entries.Perm (steps path)

theorem next?_eq_some_iff {hops : Table String String} {url next : String} :
    next? hops url = some next ↔ LeadsOn hops url next := by
  have hfind : next? hops url = some next ↔
      hops.entries.reverse.find? (fun hop => hop.2 = url) = some (next, url) := by
    rw [next?, Option.map_eq_some_iff]
    constructor
    · rintro ⟨⟨target, source⟩, hhop, rfl⟩
      have hsource := List.find?_some hhop
      simp only [decide_eq_true_eq] at hsource
      rw [hhop, hsource]
    · intro hhop
      exact ⟨(next, url), hhop, rfl⟩
  rw [hfind, List.find?_eq_some_iff_append]
  constructor
  · rintro ⟨-, after, before, hentries, hafter⟩
    have hsplit : hops.entries = before.reverse ++ (next, url) :: after.reverse := by
      rw [← List.reverse_reverse hops.entries, hentries]
      simp
    refine ⟨?_, before.reverse, after.reverse, hsplit, ?_⟩
    · rw [Table.get?_eq_some_iff, hsplit]
      simp
    · intro hop hmem
      simpa using hafter hop (List.mem_reverse.1 hmem)
  · rintro ⟨-, before, after, hentries, hafter⟩
    refine ⟨by simp, after.reverse, before.reverse, ?_, ?_⟩
    · rw [hentries]
      simp
    · intro hop hmem
      simpa using hafter hop (List.mem_reverse.1 hmem)

theorem next?_eq_none_iff {hops : Table String String} {url : String} :
    next? hops url = none ↔ ∀ next, hops.get? next ≠ some url := by
  rw [next?, Option.map_eq_none_iff, List.find?_eq_none]
  constructor
  · intro hnone next hget
    have hmem := Table.get?_eq_some_iff.1 hget
    simpa using hnone (next, url) (List.mem_reverse.2 hmem)
  · intro hnone hop hmem
    have hne : hop.2 ≠ url := fun heq =>
      hnone hop.1 (Table.get?_eq_some_iff.2 (heq ▸ List.mem_reverse.1 hmem))
    simpa using hne

theorem path_ne_nil (t : Trail) : t.path ≠ [] := by simp [path]

def tip (t : Trail) : String := t.path.getLast t.path_ne_nil

theorem dropLast_append_tip (t : Trail) : t.path.dropLast ++ [t.tip] = t.path :=
  List.dropLast_concat_getLast t.path_ne_nil

theorem tip_mem_path (t : Trail) : t.tip ∈ t.path := List.getLast_mem t.path_ne_nil

theorem head?_path (t : Trail) : t.path.head? = some t.origin := rfl

theorem length_onward_le (hops : Table String String) (limit : Nat) (url : String) :
    (onward hops limit url).length ≤ limit := by
  fun_induction onward hops limit url with
  | case1 => exact Nat.le_refl 0
  | case2 => exact Nat.zero_le _
  | case3 limit url next _ ih => exact Nat.succ_le_succ ih

theorem isChain_onward (hops : Table String String) (limit : Nat) (url : String) :
    (url :: onward hops limit url).IsChain (LeadsOn hops) := by
  fun_induction onward hops limit url with
  | case1 => exact List.isChain_singleton _
  | case2 => exact List.isChain_singleton _
  | case3 limit url next hnext ih =>
      exact List.isChain_cons_cons.2 ⟨next?_eq_some_iff.1 hnext, ih⟩

/-- Fewer hops onward than the limit allows end where no hop leads on. -/
theorem next?_eq_none_of_short {hops : Table String String} {limit : Nat} {url last : String}
    (hlast : (url :: onward hops limit url).getLast? = some last)
    (hshort : (onward hops limit url).length < limit) : next? hops last = none := by
  fun_induction onward hops limit url with
  | case1 => exact absurd hshort (Nat.not_lt_zero _)
  | case2 limit url hnone =>
      obtain rfl : url = last := by simpa using hlast
      exact hnone
  | case3 limit url next _ ih =>
      rw [List.getLast?_cons_cons] at hlast
      exact ih hlast (Nat.lt_of_succ_lt_succ hshort)

theorem getLast?_path (t : Trail) : t.path.getLast? = some t.tip :=
  List.getLast?_eq_some_getLast t.path_ne_nil

theorem length_path_le (t : Trail) : t.path.length ≤ t.hops.size + 1 :=
  Nat.succ_le_succ (length_onward_le t.hops t.hops.size t.origin)

theorem isChain_path (t : Trail) : t.path.IsChain (LeadsOn t.hops) :=
  isChain_onward t.hops t.hops.size t.origin

theorem path_ends (t : Trail) :
    (∀ next, t.hops.get? next ≠ some t.tip) ∨ t.path.length = t.hops.size + 1 := by
  rcases Nat.lt_or_eq_of_le t.length_path_le with hshort | hfull
  · apply Or.inl
    apply next?_eq_none_iff.1
    exact next?_eq_none_of_short t.getLast?_path (Nat.lt_of_succ_lt_succ hshort)
  · exact Or.inr hfull

theorem steps_append (before : List String) (url : String) (after : List String) :
    steps (before ++ url :: after) = steps (before ++ [url]) ++ steps (url :: after) := by
  induction before with
  | nil => rfl
  | cons first before ih =>
      cases before with
      | nil => rfl
      | cons second before => exact congrArg (List.cons (second, first)) ih

theorem steps_cons_cons (url next : String) (rest : List String) :
    steps (url :: next :: rest) = (next, url) :: steps (next :: rest) := rfl

theorem snd_mem_of_mem_steps {path : List String} {last : String} {hop : String × String}
    (h : hop ∈ steps (path ++ [last])) : hop.2 ∈ path := by
  induction path with
  | nil => exact absurd h (List.not_mem_nil)
  | cons first path ih =>
      cases path with
      | nil =>
          obtain rfl : hop = (last, first) := by simpa [steps] using h
          simp
      | cons second path =>
          rcases List.mem_cons.mp h with rfl | hrest
          · simp
          · exact List.mem_cons_of_mem first (ih hrest)

theorem map_fst_steps (path : List String) : (steps path).map Prod.fst = path.tail := by
  apply List.map_fst_zip
  simp

theorem length_steps (path : List String) : (steps path).length = path.length - 1 := by
  simp [steps]

theorem mem_steps_iff {before after : List String} {url next : String}
    (hnodup : (before ++ url :: after).Nodup) :
    (next, url) ∈ steps (before ++ url :: after) ↔ after.head? = some next := by
  have hbefore : (next, url) ∉ steps (before ++ [url]) := by
    intro hmem
    exact (List.nodup_append.1 hnodup).2.2 url (snd_mem_of_mem_steps hmem) url (by simp) rfl
  rw [steps_append, List.mem_append, or_iff_right hbefore]
  cases after with
  | nil => simp [steps]
  | cons first rest =>
      have hrest : (next, url) ∉ steps (first :: rest) := by
        intro hmem
        have hurl : url ∉ first :: rest := (List.nodup_cons.1 (List.nodup_append.1 hnodup).2.1).1
        exact hurl (List.of_mem_zip hmem).2
      rw [steps_cons_cons, List.mem_cons, or_iff_left hrest]
      simp [eq_comm]

namespace FormPath

variable {hops : Table String String} {t : Trail} {urls : List String}

theorem next?_eq_head? {before after : List String} {url : String}
    (h : FormPath hops (before ++ url :: after)) : next? hops url = after.head? := by
  have hhop : ∀ next, hops.get? next = some url ↔ after.head? = some next := by
    intro next
    rw [Table.get?_eq_some_iff, h.entries_hops.mem_iff, mem_steps_iff h.nodup]
  cases hnext : next? hops url with
  | none =>
      symm
      apply Option.eq_none_iff_forall_ne_some.2
      intro next hhead
      exact next?_eq_none_iff.1 hnext next ((hhop next).2 hhead)
  | some next => exact ((hhop next).1 (next?_eq_some_iff.1 hnext).1).symm

theorem onward_eq (before : List String) {after : List String} {url : String}
    (h : FormPath hops (before ++ url :: after)) : onward hops after.length url = after := by
  induction after generalizing before url with
  | nil => rfl
  | cons next rest ih =>
      have hrest := ih (before ++ [url]) (by simpa using h)
      simp [onward, h.next?_eq_head?, hrest]

theorem path_eq (h : FormPath t.hops (t.origin :: urls)) : t.path = t.origin :: urls := by
  have hsize : t.hops.size = urls.length := by
    rw [Table.size, h.entries_hops.length_eq, length_steps]
    simp
  rw [path, hsize, onward_eq [] h]

theorem perm_keys (h : FormPath t.hops (t.origin :: urls)) : t.hops.keys.Perm urls := by
  have hkeys := h.entries_hops.map Prod.fst
  rwa [map_fst_steps] at hkeys

/-- The walk back from the end of the path is the path reversed. -/
theorem isWalkBack (h : FormPath t.hops (t.origin :: urls)) :
    IsWalkBack t.hops t.tip t.path.reverse := by
  have hpath := h.path_eq
  constructor
  · rw [List.head?_reverse, t.getLast?_path]
  · rw [List.isChain_reverse]
    exact t.isChain_path.imp fun url next hleads => hleads.1
  · rw [List.dropLast_reverse, (List.reverse_perm _).nodup_iff, hpath]
    exact (List.nodup_cons.1 h.nodup).2
  · intro last hlast
    obtain rfl : t.origin = last := by
      rw [List.getLast?_reverse, t.head?_path] at hlast
      exact Option.some.inj hlast
    apply Or.inr
    rw [Table.mem_iff, h.perm_keys.mem_iff]
    exact (List.nodup_cons.1 h.nodup).1

/-- The walk back takes up all hops and ends at the origin. -/
theorem retrace_tip (h : FormPath t.hops (t.origin :: urls)) :
    t.retrace t.tip =
      (.ok t.origin, { t.cleared with visited := t.visited.filter (· ∉ t.path) }) := by
  obtain ⟨walk, last, hwalk, hlast, htakes, hresult⟩ := t.exists_walkBack t.tip
  obtain rfl : t.path.reverse = walk := hwalk.unique h.isWalkBack
  have hmem : ∀ url, url ∈ t.path.reverse ↔ url ∈ t.path := fun url => List.mem_reverse
  have hnodup : t.path.reverse.Nodup := t.path.reverse_perm.nodup_iff.2 (h.path_eq ▸ h.nodup)
  obtain rfl : t.origin = last := by
    rw [List.getLast?_reverse, t.head?_path] at hlast
    exact Option.some.inj hlast
  have hhops : (t.retrace t.tip).2.hops = .empty := by
    apply Table.eq_of_entries
    rw [htakes.entries_hops]
    apply List.filter_eq_nil_iff.2
    intro hop hhop
    have hkey : hop.1 ∈ urls := h.perm_keys.mem_iff.1 (List.mem_map_of_mem hhop)
    simp [h.path_eq, hkey]
  have hvisited := htakes.visited_eq
  simp only [hmem] at hvisited
  rw [if_pos hnodup] at hresult
  apply Prod.ext hresult
  cases hafter : (t.retrace t.tip).2 with
  | mk origin hops visited =>
      have horigin := htakes.origin_eq
      rw [hafter] at horigin hhops hvisited
      simp only at horigin hhops hvisited
      rw [horigin, hhops, hvisited]
      rfl

end FormPath

/-- The path takes the latest hop onward from each URL; it ends where no hop leads on, or with one
URL more than there are hops. Hops that form a path from the origin are listed in the order of that
path, which the walk back from its end runs through in reverse. -/
theorem path_leads_on (t : Trail) :
    t.path.head? = some t.origin ∧ t.path.length ≤ t.hops.size + 1 ∧
      t.path.IsChain (LeadsOn t.hops) ∧
      ((∀ next, t.hops.get? next ≠ some t.tip) ∨ t.path.length = t.hops.size + 1) ∧
      ∀ urls, FormPath t.hops (t.origin :: urls) →
        t.path = t.origin :: urls ∧ t.path.Nodup ∧ t.path.Perm (t.origin :: t.hops.keys) ∧
          (∀ walk, IsWalkBack t.hops t.tip walk ↔ walk = t.path.reverse) ∧
          t.retrace t.tip =
            (.ok t.origin, { t.cleared with visited := t.visited.filter (· ∉ t.path) }) := by
  refine ⟨t.head?_path, t.length_path_le, t.isChain_path, t.path_ends, ?_⟩
  intro urls h
  have hpath := h.path_eq
  refine ⟨hpath, hpath ▸ h.nodup, ?_, ?_, h.retrace_tip⟩
  · rw [hpath]
    exact h.perm_keys.symm.cons t.origin
  · intro walk
    constructor
    · exact h.isWalkBack.unique
    · rintro rfl
      exact h.isWalkBack

-- The order in which hops came in is not the order of their path.
example : FormPath (.ofList [("c", "b"), ("b", "a")]) ["a", "b", "c"] :=
  ⟨by decide, by decide⟩

end LinkTrail.Trail
