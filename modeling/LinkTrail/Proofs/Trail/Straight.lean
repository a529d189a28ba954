import LinkTrail.Proofs.Trail.Onward

namespace LinkTrail.Trail

/-- The hops are the steps of the path, in their order, and the path holds the visited URLs. -/
structure Straight (t : Trail) : Prop where
  nodup : t.path.Nodup
  entries_hops : t.hops.entries = steps t.path
  mem_visited_iff : ∀ url, url ∈ t.visited ↔ url ∈ t.path

theorem Straight.of_steps {t : Trail} (urls : List String)
    (hhops : t.hops.entries = steps (t.origin :: urls)) (hnodup : (t.origin :: urls).Nodup)
    (hvisited : ∀ url, url ∈ t.visited ↔ url ∈ t.origin :: urls) :
    t.Straight ∧ t.path = t.origin :: urls := by
  have hpath := FormPath.path_eq ⟨hnodup, .of_eq hhops⟩
  exact ⟨⟨hpath ▸ hnodup, hpath ▸ hhops, hpath ▸ hvisited⟩, hpath⟩

namespace Straight

variable {t : Trail}

theorem length_path (h : t.Straight) : t.path.length = t.hops.size + 1 := by
  have hpos : 0 < t.path.length := List.length_pos_iff.2 t.path_ne_nil
  rw [Table.size, h.entries_hops, length_steps]
  omega

theorem mem_path_iff (h : t.Straight) (url : String) :
    url ∈ t.path ↔ url = t.origin ∨ url ∈ t.hops := by
  have hkeys : t.hops.keys = t.path.tail := by
    rw [Table.keys, h.entries_hops, map_fst_steps]
  rw [Table.mem_iff, hkeys]
  exact List.mem_cons

theorem visit_origin (origin : String) :
    ((({ origin := origin } : Trail).visit origin).Straight) ∧
      (({ origin := origin } : Trail).visit origin).path = [origin] :=
  of_steps [] rfl (by simp) fun _ => Iff.rfl

theorem extend_visit (h : t.Straight) {next : String} (hnext : next ∉ t.visited) :
    ((t.extend next t.tip).visit next).Straight ∧
      ((t.extend next t.tip).visit next).path = t.path ++ [next] := by
  have hpath : next ∉ t.path := fun hmem => hnext ((h.mem_visited_iff next).2 hmem)
  have hhop : next ∉ t.hops := fun hmem => hpath ((h.mem_path_iff next).2 (Or.inr hmem))
  have hsteps : steps (t.path ++ [next]) = steps t.path ++ [(next, t.tip)] := by
    have hlast := steps_append t.path.dropLast t.tip [next]
    rwa [dropLast_append_tip, ← List.singleton_append, ← List.append_assoc,
      dropLast_append_tip] at hlast
  have hsame : ((t.extend next t.tip).visit next).origin = t.origin := origin_visit _ _
  have hurls : ((t.extend next t.tip).visit next).origin ::
      (onward t.hops t.hops.size t.origin ++ [next]) = t.path ++ [next] := by
    rw [hsame]
    rfl
  have hentries : ((t.extend next t.tip).visit next).hops.entries = steps (t.path ++ [next]) := by
    rw [hops_visit, hsteps, ← h.entries_hops]
    exact Table.entries_insert_of_not_mem hhop t.tip
  have hnodup : (t.path ++ [next]).Nodup := by
    rw [List.nodup_append]
    refine ⟨h.nodup, by simp, ?_⟩
    intro url hmem last hlast heq
    rw [heq, List.mem_singleton.1 hlast] at hmem
    exact hpath hmem
  rw [← hurls] at hentries hnodup ⊢
  apply of_steps _ hentries hnodup
  intro url
  rw [hurls, mem_visited_visit, List.mem_append, List.mem_singleton]
  exact or_congr (h.mem_visited_iff url) Iff.rfl

end Straight

/-- The walk back from the end of a straight trail ends at the origin and leaves nothing. -/
theorem Straight.retrace_tip {t : Trail} (h : t.Straight) :
    t.retrace t.tip = (.ok t.origin, t.cleared) := by
  have hform : FormPath t.hops (t.origin :: onward t.hops t.hops.size t.origin) :=
    ⟨h.nodup, .of_eq h.entries_hops⟩
  have hvisited : t.visited.filter (· ∉ t.path) = [] := by
    apply List.filter_eq_nil_iff.2
    intro url hmem
    simpa using (h.mem_visited_iff url).1 hmem
  rw [hform.retrace_tip, hvisited]
  rfl

end LinkTrail.Trail
