import LinkTrail.Table

namespace LinkTrail

/-- Map `hops` leads from each redirect target back to the URL that redirected to it; `visited` is
the set of URLs that the trail has passed and not yet given up. -/
structure Trail where
  origin : String
  hops : Table String String := .empty
  visited : List String := []
deriving DecidableEq, Repr

namespace Trail

def visit (t : Trail) (url : String) : Trail :=
  if url ∈ t.visited then t else { t with visited := t.visited ++ [url] }

def leave (t : Trail) (url : String) : Trail :=
  { t with visited := t.visited.filter (· ≠ url) }

def extend (t : Trail) (next previous : String) : Trail :=
  { t with hops := t.hops.insert next previous }

def cleared (t : Trail) : Trail := { origin := t.origin }

@[simp] theorem hops_visit (t : Trail) (url : String) : (t.visit url).hops = t.hops := by
  unfold visit
  split <;> rfl

@[simp] theorem origin_visit (t : Trail) (url : String) : (t.visit url).origin = t.origin := by
  unfold visit
  split <;> rfl

@[simp] theorem mem_visited_visit {t : Trail} {url other : String} :
    other ∈ (t.visit url).visited ↔ other ∈ t.visited ∨ other = url := by
  unfold visit
  split
  · rename_i hmem
    constructor
    · exact Or.inl
    · rintro (h | rfl)
      · exact h
      · exact hmem
  · simp

@[simp] theorem mem_visited_leave {t : Trail} {url other : String} :
    other ∈ (t.leave url).visited ↔ other ∈ t.visited ∧ other ≠ url := by
  simp [leave]

def unvisited (t : Trail) : List String := t.hops.keys.filter (· ∉ t.visited)

/-- Each redirect adds a hop or visits a target that was not visited. -/
theorem extend_visit_lt {t : Trail} {next previous : String} {limit : Int}
    (hnext : next ∉ t.visited) (hsize : (t.hops.size : Int) < limit) :
    let after := (t.extend next previous).visit next
    (limit - after.hops.size).toNat + after.unvisited.length <
      (limit - t.hops.size).toNat + t.unvisited.length := by
  intro after
  have hhops : after.hops = t.hops.insert next previous := by simp [after, extend]
  have hunvisited : after.unvisited = t.unvisited.filter (· ≠ next) := by
    have hkeys : (t.hops.insert next previous).keys.filter (· ≠ next) =
        t.hops.keys.filter (· ≠ next) := by
      rw [Table.keys_insert]
      split
      · rfl
      · simp
    have hboth : after.unvisited =
        ((t.hops.insert next previous).keys.filter (· ≠ next)).filter (· ∉ t.visited) := by
      simp only [unvisited, hhops, List.filter_filter]
      apply List.filter_congr
      intro url _
      simp [after, extend]
    rw [hboth, hkeys, unvisited, List.filter_filter, List.filter_filter]
    apply List.filter_congr
    intro url _
    exact Bool.and_comm _ _
  by_cases hmem : next ∈ t.hops
  · have hfewer : after.unvisited.length < t.unvisited.length := by
      rw [hunvisited]
      apply List.length_filter_lt_length_iff_exists.2
      exact ⟨next, List.mem_filter.2 ⟨hmem, by simpa using hnext⟩, by simp⟩
    rw [hhops, Table.size_insert_of_mem hmem]
    omega
  · have hsame : after.unvisited.length ≤ t.unvisited.length := by
      rw [hunvisited]
      exact List.length_filter_le _ _
    rw [hhops, Table.size_insert_of_not_mem hmem]
    omega

/-- The latest target that `url` redirected to. -/
def next? (hops : Table String String) (url : String) : Option String :=
  (hops.entries.reverse.find? fun hop => hop.2 = url).map Prod.fst

/-- At most `limit` hops onward from `url`. -/
def onward (hops : Table String String) : (limit : Nat) → String → List String
  | 0, _ => []
  | limit + 1, url =>
      match next? hops url with
      | none => []
      | some next => next :: onward hops limit next

def path (t : Trail) : List String :=
  t.origin :: onward t.hops t.hops.size t.origin

/-- Takes up the hops behind `url` until there is none, and stops early at a URL in `walked`,
giving the walk in forward order. -/
def unwind (t : Trail) (walked : List String) (url : String) :
    Except (List String) String × Trail :=
  match _found : t.hops.get? url with
  | none => (.ok url, t)
  | some previous =>
      let rest := { t with hops := t.hops.erase url }
      if previous ∈ walked then (.error (walked ++ [previous]).reverse, rest)
      else (rest.leave previous).unwind (walked ++ [previous]) previous
termination_by t.hops.size
decreasing_by exact Table.size_erase_lt (Table.mem_of_get? _found)

/-- Walks back from `terminal` and gives up the URLs on the way; the walk ends at the origin, or
in an error when it comes back to one of its URLs. -/
def retrace (t : Trail) (terminal : String) : Except (List String) String × Trail :=
  (t.leave terminal).unwind [terminal] terminal

end Trail

end LinkTrail
