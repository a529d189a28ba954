import LinkTrail.Proofs.Url.Written
import LinkTrail.Url.Normal

/-!
URLs read back from their rendered form. Main statements: the parts of a text have the marks of a
URL in their places only (`isRead_cutParts`), and a URL with such parts is read back as it was,
except that a path may pass for an authority (`cutParts_render`).
-/

namespace LinkTrail.Url

open LinkTrail.Text

variable {s : List Char} {u : Url} {c : Char}

structure IsRead (u : Url) : Prop where
  scheme : isSchemeName u.scheme = true
  lowered : u.scheme.map Char.toLower = u.scheme
  authority : ∀ c ∈ u.authority, isKept c = true ∧ endsAuthority c = false
  path : ∀ c ∈ u.path, isKept c = true ∧ c ≠ '?' ∧ c ≠ '#'
  rooted : u.authority ≠ [] → IsMarked '/' u.path

structure IsBare (u : Url) : Prop extends IsRead u where
  query : u.query = []
  fragment : u.fragment = []

theorem isKept_of_mem_cleaned : ∀ c ∈ cleaned s, isKept c = true :=
  fun _ hc => (List.mem_filter.1 hc).2

theorem isSchemeChar_toLower (c : Char) : isSchemeChar c.toLower = isSchemeChar c := by
  cases h : c.isAlpha with
  | true => simp [isSchemeChar, Char.isAlphanum, h]
  | false => rw [toLower_of_not_isAlpha h]

theorem isSchemeName_map_toLower {name : List Char} (h : isSchemeName name = true) :
    isSchemeName (name.map Char.toLower) = true := by
  cases name with
  | nil => contradiction
  | cons first name =>
      simpa [isSchemeName, List.all_map, Function.comp_def, isSchemeChar_toLower] using h

theorem cutScheme_cases (s : List Char) :
    cutScheme [] s = ([], s) ∨
      ∃ name rest, s = name ++ ':' :: rest ∧ isSchemeName name = true ∧
        cutScheme [] s = (name.map Char.toLower, rest) := by
  rw [cutScheme]
  cases hcut : cut? ':' s with
  | none => exact Or.inl rfl
  | some parts =>
      obtain ⟨name, rest⟩ := parts
      cases hname : isSchemeName name with
      | false => simp [hname]
      | true => exact Or.inr ⟨name, rest, eq_append_of_cut? hcut, hname, by simp [hname]⟩

theorem cutAuthority_cases (s : List Char) :
    (startsWithTwoSlashes s = false ∧ cutAuthority s = ([], s)) ∨
      ∃ authority rest, s = '/' :: '/' :: (authority ++ rest) ∧
        cutAuthority s = (authority, rest) ∧ (∀ c ∈ authority, endsAuthority c = false) ∧
        ∀ c ∈ rest.head?, endsAuthority c = true := by
  unfold cutAuthority
  split
  · rename_i rest
    refine Or.inr ⟨rest.takeWhile (!endsAuthority ·), rest.dropWhile (!endsAuthority ·),
      by simp, List.span_eq_takeWhile_dropWhile .., ?_, ?_⟩
    · intro c hc
      simpa using List.mem_takeWhile_imp hc
    · intro c hc
      have hends := List.head?_dropWhile_not (!endsAuthority ·) rest
      rw [hc] at hends
      simpa using hends
  · rename_i hslashes
    refine Or.inl ⟨?_, rfl⟩
    unfold startsWithTwoSlashes
    split
    · exact absurd rfl (hslashes _)
    · rfl

theorem mem_of_mem_cutAuthority :
    (∀ c ∈ (cutAuthority s).1, c ∈ s ∧ endsAuthority c = false) ∧
      ∀ c ∈ (cutAuthority s).2, c ∈ s := by
  obtain ⟨-, hcut⟩ | ⟨authority, rest, rfl, hcut, hinside, -⟩ := cutAuthority_cases s
  · simp [hcut]
  · rw [hcut]
    exact ⟨fun c hc => ⟨by simp [hc], hinside c hc⟩, fun c hc => by simp [hc]⟩

def pathPart (s : List Char) : List Char := (cut '?' (cut '#' s).1).1

theorem pathPart_spec (s : List Char) :
    ∃ rest, s = pathPart s ++ rest ∧ ∀ c ∈ pathPart s, c ≠ '?' ∧ c ≠ '#' := by
  obtain ⟨fragment, hs, hnumber, -⟩ := cut_spec '#' s
  obtain ⟨query, hfront, hquestion, -⟩ := cut_spec '?' (cut '#' s).1
  refine ⟨query ++ fragment, ?_, ?_⟩
  · rw [pathPart, ← List.append_assoc, ← hfront, ← hs]
  · intro c hc
    have hmem : c ∈ (cut '#' s).1 := hfront ▸ List.mem_append_left _ hc
    refine ⟨?_, ?_⟩
    · rintro rfl
      exact hquestion hc
    · rintro rfl
      exact hnumber hmem

/-- What ends an authority is a path unless it is a query or a fragment. -/
theorem isMarked_of_endsAuthority (h : ∀ c ∈ s.head?, endsAuthority c = true)
    (hpath : ∀ c ∈ s, c ≠ '?' ∧ c ≠ '#') : IsMarked '/' s := by
  cases s with
  | nil => exact Or.inl rfl
  | cons c path =>
      have hends := h c rfl
      simp only [endsAuthority, Bool.or_eq_true, decide_eq_true_eq] at hends
      have hc := hpath c (List.mem_cons_self ..)
      obtain (rfl | rfl) | rfl := hends
      · exact Or.inr rfl
      · exact absurd rfl hc.1
      · exact absurd rfl hc.2

theorem isMarked_pathPart (h : ∀ c ∈ s.head?, endsAuthority c = true) :
    IsMarked '/' (pathPart s) := by
  obtain ⟨rest, hs, hpath⟩ := pathPart_spec s
  refine isMarked_of_endsAuthority (fun c hc => h c ?_) hpath
  rw [hs, List.head?_append, Option.mem_def.1 hc]
  rfl

theorem isRead_cutParts (h : (cutParts [] s).scheme ≠ []) : IsRead (cutParts [] s) := by
  obtain hnone | ⟨name, rest, hs, hname, hscheme⟩ := cutScheme_cases (cleaned s)
  · simp [cutParts, hnone] at h
  have hkept : ∀ c ∈ rest, isKept c = true := by
    intro c hc
    apply @isKept_of_mem_cleaned s
    rw [hs]
    simp [hc]
  obtain ⟨hinside, hbehind⟩ := @mem_of_mem_cutAuthority rest
  obtain ⟨query, htail, hpath⟩ := pathPart_spec (cutAuthority rest).2
  have hparts : (cutParts [] s).scheme = name.map Char.toLower ∧
      (cutParts [] s).authority = (cutAuthority rest).1 ∧
      (cutParts [] s).path = pathPart (cutAuthority rest).2 := by
    simp only [cutParts, hscheme, pathPart, and_self]
  constructor
  · rw [hparts.1]
    exact isSchemeName_map_toLower hname
  · rw [hparts.1, map_toLower_map_toLower]
  · rw [hparts.2.1]
    exact fun c hc => ⟨hkept c (hinside c hc).1, (hinside c hc).2⟩
  · rw [hparts.2.2]
    intro c hc
    have hmem : c ∈ (cutAuthority rest).2 := htail ▸ List.mem_append_left _ hc
    exact ⟨hkept c (hbehind c hmem), hpath c hc⟩
  · rw [hparts.2.1, hparts.2.2]
    intro hne
    obtain ⟨-, hcut⟩ | ⟨authority, tail, -, hcut, -, hends⟩ := cutAuthority_cases rest
    · exact absurd (congrArg Prod.fst hcut) hne
    · rw [hcut]
      exact isMarked_pathPart hends

theorem mem_renderBody (hc : c ∈ u.renderBody) : c = '/' ∨ c ∈ u.authority ∨ c ∈ u.path := by
  rw [renderBody, rootedPath] at hc
  split at hc
  · split at hc
    · simpa [or_assoc] using hc
    · simp only [List.mem_cons, List.mem_append] at hc
      tauto
  · exact Or.inr (Or.inr hc)

def bodyParts (scheme body : List Char) : Url :=
  { scheme, authority := (cutAuthority body).1, path := (cutAuthority body).2 }

theorem cutParts_body {name body : List Char} (hname : isSchemeName name = true)
    (hlowered : name.map Char.toLower = name)
    (hbody : ∀ c ∈ body, isKept c = true ∧ c ≠ '?' ∧ c ≠ '#') :
    cutParts [] (name ++ ':' :: body) = bodyParts name body := by
  have hpath := (@mem_of_mem_cutAuthority body).2
  have hmarks : '?' ∉ (cutAuthority body).2 ∧ '#' ∉ (cutAuthority body).2 :=
    ⟨fun hmem => (hbody '?' (hpath _ hmem)).2.1 rfl, fun hmem => (hbody '#' (hpath _ hmem)).2.2 rfl⟩
  have hcut : cutAuthority body = ((cutAuthority body).1, (cutAuthority body).2 ++ [] ++ []) := by
    simp
  rw [cutParts_schemed hname (fun c hc => (hbody c hc).1) hcut hmarks
    ⟨Or.inl rfl, List.not_mem_nil⟩ (Or.inl rfl), hlowered]
  rfl

def reread (u : Url) : Url := bodyParts u.scheme u.renderBody

theorem IsRead.mem_renderBody (h : IsRead u) :
    ∀ c ∈ u.renderBody, isKept c = true ∧ c ≠ '?' ∧ c ≠ '#' := by
  intro c hc
  obtain rfl | hauthority | hpath := Url.mem_renderBody hc
  · decide
  · obtain ⟨hkept, hends⟩ := h.authority c hauthority
    refine ⟨hkept, ?_, ?_⟩ <;> rintro rfl <;> contradiction
  · exact h.path c hpath

theorem IsBare.render_eq (h : IsBare u) : u.render = u.scheme ++ ':' :: u.renderBody := by
  simp [render, h.query, h.fragment, ne_nil_of_isSchemeName h.scheme]

theorem cutParts_render (h : IsBare u) : cutParts [] u.render = u.reread := by
  rw [h.render_eq, cutParts_body h.scheme h.lowered h.mem_renderBody, reread]

theorem IsBare.eq_of_parts (h : IsBare u) :
    { scheme := u.scheme, authority := u.authority, path := u.path } = u := by
  obtain ⟨hread, hquery, hfragment⟩ := h
  obtain ⟨scheme, authority, path, query, fragment⟩ := u
  obtain rfl : query = [] := hquery
  obtain rfl : fragment = [] := hfragment
  rfl

theorem IsBare.reread_of_authority (h : IsBare u) (hne : u.authority ≠ []) : u.reread = u := by
  have hpath := h.rooted hne
  have hends : ∀ c ∈ u.path.head?, endsAuthority c = true := by
    intro c hc
    obtain hnil | hhead := hpath
    · simp [hnil] at hc
    · rw [hhead] at hc
      obtain rfl := Option.mem_some.1 hc
      rfl
  have hrooted : rootedPath u.path = u.path := if_pos hpath
  have hbody : u.renderBody = '/' :: '/' :: (u.authority ++ u.path) := by
    rw [renderBody, if_pos (Or.inl hne), hrooted]
  rw [reread, bodyParts, hbody, cutAuthority_append (fun c hc => (h.authority c hc).2) hends,
    h.eq_of_parts]

theorem startsWithTwoSlashes_iff :
    startsWithTwoSlashes s = true ↔ ∃ rest, s = '/' :: '/' :: rest := by
  unfold startsWithTwoSlashes
  split
  · simp
  · rename_i hslashes
    simpa using fun rest => hslashes rest

theorem head?_rootedPath (hne : s ≠ []) : (rootedPath s).head? = some '/' := by
  rw [rootedPath]
  split
  · rename_i h
    exact h.resolve_left hne
  · rfl

theorem startsWithTwoSlashes_rootedPath (h : startsWithTwoSlashes s = false) :
    startsWithTwoSlashes (rootedPath s) = false := by
  rw [rootedPath]
  split
  · exact h
  · rename_i hmarked
    rw [Bool.eq_false_iff, ne_eq, startsWithTwoSlashes_iff]
    rintro ⟨rest, heq⟩
    obtain rfl := (List.cons.inj heq).2
    exact hmarked (Or.inr rfl)

theorem rootedPath_rootedPath (hne : s ≠ []) : rootedPath (rootedPath s) = rootedPath s :=
  if_pos (Or.inr (head?_rootedPath hne))

/-- Without an authority the body is the path, which may get two slashes of its own. -/
theorem reread_of_no_authority (hnone : u.authority = []) (hpath : u.path ≠ [])
    (hslashes : startsWithTwoSlashes u.path = false) :
    u.reread.authority = [] ∧ u.reread.path ≠ [] ∧ u.reread.renderBody = u.renderBody := by
  by_cases hadded : u.scheme ≠ [] ∧ authoritySchemes.contains u.scheme
  · have hbody : u.renderBody = '/' :: '/' :: ([] ++ rootedPath u.path) := by
      rw [renderBody, if_pos (Or.inr ⟨hadded.1, hadded.2, hslashes⟩), hnone]
    have hhead := head?_rootedPath hpath
    have hcut := @cutAuthority_append (rootedPath u.path) [] (by simp)
      (by simp [hhead, endsAuthority])
    have hreread : u.reread = { scheme := u.scheme, path := rootedPath u.path } := by
      rw [reread, bodyParts, hbody, hcut]
    have hne : rootedPath u.path ≠ [] := by
      intro hnil
      simp [hnil] at hhead
    have hslashes' := startsWithTwoSlashes_rootedPath hslashes
    rw [hreread, hbody]
    refine ⟨rfl, hne, ?_⟩
    rw [renderBody, if_pos (Or.inr ⟨hadded.1, hadded.2, hslashes'⟩), rootedPath_rootedPath hpath]
  · have hnot : ¬(u.authority ≠ [] ∨ (u.scheme ≠ [] ∧ authoritySchemes.contains u.scheme ∧
        startsWithTwoSlashes u.path = false)) := by
      rintro (hauthority | ⟨hscheme, hnames, -⟩)
      · exact hauthority hnone
      · exact hadded ⟨hscheme, hnames⟩
    have hbody : u.renderBody = u.path := by rw [renderBody, if_neg hnot]
    have hcut : cutAuthority u.path = ([], u.path) := by
      obtain ⟨-, hcut⟩ | ⟨authority, rest, heq, -⟩ := cutAuthority_cases u.path
      · exact hcut
      · rw [heq] at hslashes
        contradiction
    have hreread : u.reread = { scheme := u.scheme, path := u.path } := by
      rw [reread, bodyParts, hbody, hcut]
    rw [hreread, hbody]
    refine ⟨rfl, hpath, if_neg ?_⟩
    rintro (hauthority | ⟨hscheme, hnames, -⟩)
    · exact hauthority rfl
    · exact hadded ⟨hscheme, hnames⟩

/-- A path that begins with two slashes and has no authority before it is rendered as it is. -/
theorem renderBody_of_slashes (hnone : u.authority = [])
    (hslashes : startsWithTwoSlashes u.path = true) : u.renderBody = u.path := by
  rw [renderBody, if_neg]
  simp [hnone, hslashes]

end LinkTrail.Url
