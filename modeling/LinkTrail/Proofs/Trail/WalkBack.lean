import LinkTrail.Trail
import Mathlib.Data.List.Chain
import Mathlib.Data.List.Induction

/-!
The walk back over any hops, cyclic, branching or apart from the origin. Main statement: retracing
follows that walk as it runs over the hops of the beginning, and takes up its URLs and nothing else
(`retrace_takes_up_walk`).
-/

namespace LinkTrail.Trail

/-- The walk back from `terminal`, which ends at the first URL without a hop or at the first one
that it comes to a second time. -/
structure IsWalkBack (hops : Table String String) (terminal : String) (walk : List String) :
    Prop where
  head : walk.head? = some terminal
  linked : walk.IsChain fun url previous => hops.get? url = some previous
  fresh : walk.dropLast.Nodup
  ended : ∀ last, walk.getLast? = some last → last ∈ walk.dropLast ∨ last ∉ hops

structure TakesUp (urls : List String) (t after : Trail) : Prop where
  origin_eq : after.origin = t.origin
  entries_hops : after.hops.entries = t.hops.entries.filter (·.1 ∉ urls)
  visited_eq : after.visited = t.visited.filter (· ∉ urls)

/-- A chain that begins with `url` and comes to it once more, and once to each other URL. -/
structure IsLoop (chain : List String) (url : String) : Prop where
  head : chain.head? = some url
  twice : chain.count url = 2
  once : ∀ other ∈ chain, other ≠ url → chain.count other = 1

theorem prefix_or_prefix_of_linked {hops : Table String String} {walk other : List String}
    (hwalk : walk.IsChain fun url previous => hops.get? url = some previous)
    (hother : other.IsChain fun url previous => hops.get? url = some previous)
    (hhead : walk.head? = other.head?) : walk <+: other ∨ other <+: walk := by
  induction walk generalizing other with
  | nil => exact Or.inl List.nil_prefix
  | cons url walk ih =>
      cases other with
      | nil => exact Or.inr List.nil_prefix
      | cons first other =>
          obtain rfl : url = first := Option.some.inj hhead
          cases walk with
          | nil => exact Or.inl (List.prefix_append [url] other)
          | cons next walk =>
              cases other with
              | nil => exact Or.inr (List.prefix_append [url] (next :: walk))
              | cons second other =>
                  obtain ⟨hnext, hwalk⟩ := List.isChain_cons_cons.1 hwalk
                  obtain ⟨hsecond, hother⟩ := List.isChain_cons_cons.1 hother
                  obtain rfl : next = second := Option.some.inj (hnext.symm.trans hsecond)
                  rcases ih hwalk hother rfl with h | h
                  · exact Or.inl ((List.prefix_cons_inj url).2 h)
                  · exact Or.inr ((List.prefix_cons_inj url).2 h)

namespace IsWalkBack

variable {hops : Table String String} {terminal : String} {walk : List String}

theorem ne_nil (h : IsWalkBack hops terminal walk) : walk ≠ [] := by
  rintro rfl
  exact absurd h.head (by simp)

theorem eq_of_prefix {other : List String} (h : IsWalkBack hops terminal walk)
    (hother : IsWalkBack hops terminal other) (hbegins : walk <+: other) : walk = other := by
  obtain ⟨rest, rfl⟩ := hbegins
  cases rest with
  | nil => exact (List.append_nil walk).symm
  | cons next rest =>
      obtain ⟨before, last, rfl⟩ := List.eq_nil_or_concat walk |>.resolve_left h.ne_nil
      simp only [List.concat_eq_append] at h hother
      have hlinked : hops.get? last = some next := by
        have hlinked := hother.linked
        rw [List.append_assoc, List.singleton_append, List.isChain_append_cons_cons] at hlinked
        exact hlinked.2.1
      have hfresh : (before ++ [last]).Nodup := by
        have hfresh := hother.fresh
        rw [List.dropLast_append_cons] at hfresh
        exact (List.nodup_append.1 hfresh).1
      rcases h.ended last (by simp) with hmem | hmem
      · rw [List.dropLast_concat] at hmem
        exact absurd rfl ((List.nodup_append.1 hfresh).2.2 last hmem last (by simp))
      · exact absurd (Table.mem_of_get? hlinked) hmem

theorem unique {other : List String} (h : IsWalkBack hops terminal walk)
    (hother : IsWalkBack hops terminal other) : other = walk := by
  rcases prefix_or_prefix_of_linked h.linked hother.linked (h.head.trans hother.head.symm) with
    hbegins | hbegins
  · exact (h.eq_of_prefix hother hbegins).symm
  · exact hother.eq_of_prefix h hbegins

theorem length_le (h : IsWalkBack hops terminal walk) : walk.length ≤ hops.size + 1 := by
  have hkeys : walk.dropLast ⊆ hops.keys := by
    intro url hmem
    obtain ⟨before, after, hwalk⟩ := List.append_of_mem hmem
    obtain ⟨last, hlast⟩ : ∃ last, walk.dropLast ++ [last] = walk :=
      ⟨walk.getLast h.ne_nil, List.dropLast_concat_getLast h.ne_nil⟩
    obtain ⟨next, rest, hrest⟩ : ∃ next rest, after ++ [last] = next :: rest :=
      List.exists_cons_of_ne_nil (by simp)
    have hlinked := h.linked
    rw [← hlast, hwalk, List.append_assoc, List.cons_append, hrest,
      List.isChain_append_cons_cons] at hlinked
    exact Table.mem_of_get? hlinked.2.1
  have hlength := h.fresh.length_le_of_subset hkeys
  rw [List.length_dropLast, Table.length_keys] at hlength
  omega

theorem isLoop (h : IsWalkBack hops terminal walk) {last : String}
    (hlast : walk.getLast? = some last) (hrepeats : ¬ walk.Nodup) :
    IsLoop walk.reverse last := by
  have hwalk : walk.dropLast ++ [last] = walk := List.dropLast_append_getLast? last hlast
  have hmem : last ∈ walk.dropLast := by
    apply Decidable.byContradiction
    intro hmem
    apply hrepeats
    rw [← hwalk, List.nodup_append]
    refine ⟨h.fresh, by simp, ?_⟩
    rintro url hurl _ hsame rfl
    exact hmem (List.mem_singleton.1 hsame ▸ hurl)
  have hcount : ∀ url, walk.count url = walk.dropLast.count url + [last].count url := by
    intro url
    rw [← List.count_append, hwalk]
  constructor
  · rw [List.head?_reverse, hlast]
  · rw [List.count_reverse, hcount, h.fresh.count, if_pos hmem]
    simp
  · intro url hurl hne
    have hbefore : url ∈ walk.dropLast := by
      rw [List.mem_reverse, ← hwalk, List.mem_append, List.mem_singleton] at hurl
      exact hurl.resolve_right hne
    rw [List.count_reverse, hcount, h.fresh.count, if_pos hbefore,
      List.count_eq_zero_of_not_mem (by simpa using hne)]

end IsWalkBack

/-- The trail `t` after the walk has come as far as `walked`; the hop behind its last URL is still
there. -/
structure Unwinding (start : Trail) (terminal : String) (walked : List String) (t : Trail) :
    Prop where
  head : walked.head? = some terminal
  linked : walked.IsChain fun url previous => start.hops.get? url = some previous
  nodup : walked.Nodup
  origin_eq : t.origin = start.origin
  entries_hops : t.hops.entries = start.hops.entries.filter (·.1 ∉ walked.dropLast)
  visited_eq : t.visited = start.visited.filter (· ∉ walked)

theorem filter_not_mem_concat {α : Type} (key : α → String) (items : List α)
    (urls : List String) (url : String) :
    (items.filter (key · ∉ urls)).filter (key · ≠ url) =
      items.filter (key · ∉ urls ++ [url]) := by
  rw [List.filter_filter]
  apply List.filter_congr
  intro item _
  simp [and_comm]

namespace Unwinding

variable {start t : Trail} {terminal : String} {before : List String} {url previous : String}

theorem begins (t : Trail) (terminal : String) :
    Unwinding t terminal [terminal] (t.leave terminal) where
  head := rfl
  linked := List.isChain_singleton terminal
  nodup := by simp
  origin_eq := rfl
  entries_hops := by simp [leave]
  visited_eq := by simp [leave]

/-- The hops already taken up hide no hop of a URL that the walk comes to for the first time. -/
theorem get?_last (h : Unwinding start terminal (before ++ [url]) t) :
    t.hops.get? url = start.hops.get? url := by
  have hurl : url ∉ before := fun hmem =>
    (List.nodup_append.1 h.nodup).2.2 url hmem url (by simp) rfl
  apply Option.ext
  intro value
  simp [Table.get?_eq_some_iff, h.entries_hops, hurl]

theorem entries_erase (h : Unwinding start terminal (before ++ [url]) t) :
    (t.hops.erase url).entries = start.hops.entries.filter (·.1 ∉ before ++ [url]) := by
  have hkept := filter_not_mem_concat Prod.fst start.hops.entries before url
  simp only [← hkept, Table.erase, h.entries_hops, List.dropLast_concat]

theorem linked_concat (h : Unwinding start terminal (before ++ [url]) t)
    (hfound : t.hops.get? url = some previous) :
    (before ++ [url] ++ [previous]).IsChain
      fun url previous => start.hops.get? url = some previous := by
  rw [List.append_assoc, List.singleton_append, List.isChain_append_cons_cons]
  exact ⟨h.linked, h.get?_last.symm.trans hfound, List.isChain_singleton previous⟩

theorem head_concat (h : Unwinding start terminal (before ++ [url]) t) (last : String) :
    (before ++ [url] ++ [last]).head? = some terminal := by
  rw [List.head?_append, h.head]
  rfl

theorem advance (h : Unwinding start terminal (before ++ [url]) t)
    (hfound : t.hops.get? url = some previous) (hfresh : previous ∉ before ++ [url]) :
    Unwinding start terminal (before ++ [url] ++ [previous])
      (Trail.leave { t with hops := t.hops.erase url } previous) where
  head := h.head_concat previous
  linked := h.linked_concat hfound
  nodup := by
    rw [List.nodup_append]
    refine ⟨h.nodup, by simp, ?_⟩
    rintro other hother _ hsame rfl
    exact hfresh (List.mem_singleton.1 hsame ▸ hother)
  origin_eq := h.origin_eq
  entries_hops := by
    rw [List.dropLast_concat]
    exact h.entries_erase
  visited_eq := by
    have hkept := filter_not_mem_concat id start.visited (before ++ [url]) previous
    simp only [leave, h.visited_eq]
    exact hkept

theorem stops (h : Unwinding start terminal (before ++ [url]) t)
    (hfound : t.hops.get? url = none) :
    IsWalkBack start.hops terminal (before ++ [url]) ∧ TakesUp (before ++ [url]) start t := by
  have hnone : url ∉ start.hops := Table.get?_eq_none_iff.1 (h.get?_last.symm.trans hfound)
  constructor
  · refine ⟨h.head, h.linked, ?_, ?_⟩
    · rw [List.dropLast_concat]
      exact (List.nodup_append.1 h.nodup).1
    · intro last hlast
      obtain rfl : url = last := by simpa using hlast
      exact Or.inr hnone
  · refine ⟨h.origin_eq, ?_, h.visited_eq⟩
    rw [h.entries_hops, List.dropLast_concat]
    apply List.filter_congr
    intro hop hmem
    have hkey : hop.1 ≠ url := fun hkey => hnone (hkey ▸ List.mem_map_of_mem hmem)
    simp [hkey]

theorem repeats (h : Unwinding start terminal (before ++ [url]) t)
    (hfound : t.hops.get? url = some previous) (hmem : previous ∈ before ++ [url]) :
    IsWalkBack start.hops terminal (before ++ [url] ++ [previous]) ∧
      TakesUp (before ++ [url] ++ [previous]) start { t with hops := t.hops.erase url } := by
  have hsame : ∀ other, other ∈ before ++ [url] ++ [previous] ↔ other ∈ before ++ [url] := by
    intro other
    rw [List.mem_append, List.mem_singleton]
    constructor
    · rintro (hother | rfl)
      · exact hother
      · exact hmem
    · exact Or.inl
  constructor
  · refine ⟨h.head_concat previous, h.linked_concat hfound, ?_, ?_⟩
    · rw [List.dropLast_concat]
      exact h.nodup
    · intro last hlast
      obtain rfl : previous = last := by simpa using hlast
      rw [List.dropLast_concat]
      exact Or.inl hmem
  · refine ⟨h.origin_eq, ?_, ?_⟩
    · simp only [hsame]
      exact h.entries_erase
    · simp only [hsame]
      exact h.visited_eq

end Unwinding

/-- The induction is on the hops that are left; `Unwinding` ties them to those of the start. -/
theorem Unwinding.unwind {start t : Trail} {terminal url : String} {before : List String}
    (h : Unwinding start terminal (before ++ [url]) t) :
    ∃ walk last, IsWalkBack start.hops terminal walk ∧ walk.getLast? = some last ∧
      TakesUp walk start (t.unwind (before ++ [url]) url).2 ∧
      (t.unwind (before ++ [url]) url).1 =
        if walk.Nodup then .ok last else .error walk.reverse := by
  generalize hwalked : before ++ [url] = walked at h ⊢
  fun_induction Trail.unwind t walked url generalizing before with
  | case1 t walked url hfound =>
      subst hwalked
      obtain ⟨hwalk, htakes⟩ := h.stops hfound
      refine ⟨before ++ [url], url, hwalk, by simp, htakes, ?_⟩
      rw [if_pos h.nodup]
  | case2 t walked url previous hfound rest =>
      rename_i hmem
      subst hwalked
      obtain ⟨hwalk, htakes⟩ := h.repeats hfound hmem
      refine ⟨before ++ [url] ++ [previous], previous, hwalk, by simp, htakes, ?_⟩
      rw [if_neg]
      intro hnodup
      exact (List.nodup_append.1 hnodup).2.2 previous hmem previous (by simp) rfl
  | case3 t walked url previous hfound rest =>
      rename_i hfresh ih
      subst hwalked
      exact ih rfl (h.advance hfound hfresh)

theorem exists_walkBack (t : Trail) (terminal : String) :
    ∃ walk last, IsWalkBack t.hops terminal walk ∧ walk.getLast? = some last ∧
      TakesUp walk t (t.retrace terminal).2 ∧
      (t.retrace terminal).1 = if walk.Nodup then .ok last else .error walk.reverse :=
  @Unwinding.unwind t (t.leave terminal) terminal terminal [] (Unwinding.begins t terminal)

/-- Retracing from any URL follows its one walk back over the hops as they were and takes up the
URLs of that walk. It ends at the last of them, or in an error with the reversed walk when that URL
came before. -/
theorem retrace_takes_up_walk (t : Trail) (terminal : String) :
    ∃ walk last, (∀ other, IsWalkBack t.hops terminal other ↔ other = walk) ∧
      walk.getLast? = some last ∧ walk.length ≤ t.hops.size + 1 ∧
      TakesUp walk t (t.retrace terminal).2 ∧
      (t.retrace terminal).1 = (if walk.Nodup then .ok last else .error walk.reverse) ∧
      (¬ walk.Nodup → IsLoop walk.reverse last) := by
  obtain ⟨walk, last, hwalk, hlast, htakes, hresult⟩ := t.exists_walkBack terminal
  refine ⟨walk, last, ?_, hlast, hwalk.length_le, htakes, hresult, hwalk.isLoop hlast⟩
  intro other
  constructor
  · exact hwalk.unique
  · rintro rfl
    exact hwalk

end LinkTrail.Trail
