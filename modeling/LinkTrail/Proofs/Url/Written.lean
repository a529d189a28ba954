import LinkTrail.Proofs.Text.Cut
import LinkTrail.Proofs.Url.Located

namespace LinkTrail.Url

open LinkTrail.Text

variable {c : Char} {s name authority path query fragment : List Char}

theorem isKept_of_not_isBlank (h : isBlank c = false) : isKept c = true := by
  rw [isKept, decide_eq_true_eq]
  refine ⟨?_, ?_, ?_⟩ <;> rintro rfl <;> exact absurd h (by decide)

theorem toNat_of_isSchemeChar (h : isSchemeChar c = true) : 32 < c.toNat ∧ c.toNat < 128 := by
  simp only [isSchemeChar, Bool.or_eq_true, decide_eq_true_eq] at h
  obtain ((h | rfl) | rfl) | rfl := h
  · have := toNat_of_isAlphanum h
    omega
  all_goals decide

theorem isSchemeChar_of_isSchemeName (h : isSchemeName name = true) :
    ∀ c ∈ name, isSchemeChar c = true := by
  cases name with
  | nil => simp
  | cons first name =>
      simp only [isSchemeName, Bool.and_eq_true, List.all_eq_true] at h
      simpa [isSchemeChar, Char.isAlphanum, h.1] using h.2

theorem ne_nil_of_isSchemeName (h : isSchemeName name = true) : name ≠ [] := by
  rintro rfl
  contradiction

/-- Nothing is dropped from a text without tabs and line ends that begins with the name of a
scheme. -/
theorem cleaned_written (hname : isSchemeName name = true) (hkept : ∀ c ∈ s, isKept c = true) :
    cleaned (name ++ ':' :: s) = name ++ ':' :: s := by
  have hfront : ∀ c ∈ name ++ [':'], 32 < c.toNat := by
    intro c hc
    obtain hc | hc := List.mem_append.1 hc
    · exact (toNat_of_isSchemeChar (isSchemeChar_of_isSchemeName hname c hc)).1
    · rw [List.mem_singleton.1 hc]
      decide
  have hcleaned := cleaned_append (by simp) hfront s
  rw [List.filter_eq_self.2 hkept] at hcleaned
  simpa using hcleaned

theorem cutScheme_written (hname : isSchemeName name = true) (default s : List Char) :
    cutScheme default (name ++ ':' :: s) = (name.map Char.toLower, s) := by
  have hcolon : ':' ∉ name := by
    intro hmem
    exact absurd (isSchemeChar_of_isSchemeName hname ':' hmem) (by decide)
  rw [cutScheme, cut?_append hcolon]
  simp [hname]

theorem cutParts_schemed (hname : isSchemeName name = true) (hkept : ∀ c ∈ s, isKept c = true)
    (hcut : cutAuthority s = (authority, path ++ query ++ fragment))
    (hpath : '?' ∉ path ∧ '#' ∉ path) (hquery : IsMarked '?' query ∧ '#' ∉ query)
    (hfragment : IsMarked '#' fragment) :
    cutParts [] (name ++ ':' :: s) =
      ⟨name.map Char.toLower, authority, path, query.tail, fragment.tail⟩ := by
  have hnumber : '#' ∉ path ++ query := by simp [hpath.2, hquery.2]
  simp only [cutParts, cleaned_written hname hkept, cutScheme_written hname, hcut,
    cut_append hnumber hfragment, cut_append hpath.1 hquery.1]

/-- The authority ends where the path, the query or the fragment begins. -/
theorem cutParts_written (hname : isSchemeName name = true)
    (hkept : ∀ c ∈ authority ++ path ++ query ++ fragment, isKept c = true)
    (hauthority : ∀ c ∈ authority, endsAuthority c = false)
    (hpath : IsMarked '/' path ∧ '?' ∉ path ∧ '#' ∉ path)
    (hquery : IsMarked '?' query ∧ '#' ∉ query) (hfragment : IsMarked '#' fragment) :
    cutParts [] (name ++ "://".toList ++ (authority ++ path ++ query ++ fragment)) =
      ⟨name.map Char.toLower, authority, path, query.tail, fragment.tail⟩ := by
  have hends : ∀ c ∈ (path ++ query ++ fragment).head?, endsAuthority c = true := by
    obtain rfl | ⟨path, rfl⟩ := isMarked_iff.1 hpath.1
    · obtain rfl | ⟨query, rfl⟩ := isMarked_iff.1 hquery.1
      · obtain rfl | ⟨fragment, rfl⟩ := isMarked_iff.1 hfragment
        · simp
        · simp [endsAuthority]
      · simp [endsAuthority]
    · simp [endsAuthority]
  have htext : name ++ "://".toList ++ (authority ++ path ++ query ++ fragment) =
      name ++ ':' :: ('/' :: '/' :: (authority ++ (path ++ query ++ fragment))) := by simp
  rw [htext]
  refine cutParts_schemed hname ?_ (cutAuthority_append hauthority hends) hpath.2 hquery hfragment
  intro c hc
  simp only [List.mem_cons, ← List.append_assoc] at hc
  obtain rfl | rfl | hc := hc
  · rfl
  · rfl
  · exact hkept c hc

theorem render_located (hscheme : name ≠ []) (hauthority : authority ≠ [])
    (hpath : IsMarked '/' path) :
    render { scheme := name, authority, path } = name ++ "://".toList ++ (authority ++ path) := by
  have hrooted : rootedPath path = path := if_pos hpath
  simp [render, renderBody, hscheme, hauthority, hrooted]

end LinkTrail.Url
