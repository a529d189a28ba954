import LinkTrail.Proofs.Pattern.Grammar

/-!
Patterns in letters of the other case. Main statements: another spelling of a pattern is read as a
pattern with the same letters (`Reads.respelled`), and patterns with the same letters cover the same
URLs (`Alike.covers_iff`).
-/

namespace LinkTrail.Pattern

open LinkTrail.Text

variable {s t first second host place path : List Char} {mark : Char} {text other : String}
  {subdomains : Bool} {p q : Parts} {pattern : Pattern}

theorem Spells.swap (h : Spells text other.toList) : Spells other text.toList := Eq.symm h

theorem mem_iff_of_lowered (hmark : mark.isAlpha = false)
    (h : t.map Char.toLower = s.map Char.toLower) : mark ∈ t ↔ mark ∈ s := by
  have hlowered (u : List Char) : mark ∈ u ↔ mark ∈ u.map Char.toLower := by
    rw [List.mem_map]
    constructor
    · intro hmem
      exact ⟨mark, hmem, toLower_of_not_isAlpha hmark⟩
    · rintro ⟨c, hc, hlower⟩
      rw [← toLower_of_not_isAlpha hmark] at hlower
      exact (toLower_eq_toLower_iff hmark).1 hlower.symm ▸ hc
  rw [hlowered t, h, ← hlowered s]

theorem exists_of_lowered_append (h : t.map Char.toLower = (first ++ second).map Char.toLower) :
    ∃ u v, t = u ++ v ∧ u.map Char.toLower = first.map Char.toLower ∧
      v.map Char.toLower = second.map Char.toLower := by
  rwa [List.map_append, List.map_eq_append_iff] at h

theorem exists_of_lowered_cons (hmark : mark.isAlpha = false)
    (h : t.map Char.toLower = (mark :: s).map Char.toLower) :
    ∃ rest, t = mark :: rest ∧ rest.map Char.toLower = s.map Char.toLower := by
  rw [List.map_cons, List.map_eq_cons_iff] at h
  obtain ⟨c, rest, rfl, hc, hrest⟩ := h
  rw [(toLower_eq_toLower_iff hmark).1 hc.symm]
  exact ⟨rest, rfl, hrest⟩

theorem spells_iff_of_lowered (h : Spells text other.toList) : Spells other s ↔ Spells text s := by
  unfold Spells at *
  rw [h]

theorem eq_iff_of_spells (h : Spells text other.toList)
    (hmarks : ∀ c ∈ s, c.isAlpha = false) : other.toList = s ↔ text.toList = s := by
  have hs : (String.ofList s).toList = s := String.toList_ofList
  have hmarks' : ∀ c ∈ (String.ofList s).toList, c.isAlpha = false := by rwa [hs]
  constructor
  · intro heq
    rw [← hs, ← spells_iff_of_marks hmarks', Spells, hs, ← heq]
    exact h.symm
  · intro heq
    rw [← hs, ← spells_iff_of_marks hmarks', Spells, hs, ← heq]
    exact h

structure Parts.Alike (p q : Parts) : Prop where
  scheme : q.scheme = p.scheme
  subdomains : q.subdomains = p.subdomains
  host : Spells p.host q.host.toList
  path : Spells p.path q.path.toList

inductive Alike : Pattern → Pattern → Prop where
  | allUrls : Alike allUrls allUrls
  | parts {p q : Parts} (h : p.Alike q) : Alike (parts p) (parts q)

theorem IsHostName.respelled (h : IsHostName host)
    (ht : t.map Char.toLower = host.map Char.toLower) : IsHostName t := by
  obtain ⟨hne, hstar, hslash⟩ := h
  refine ⟨?_, mt (mem_iff_of_lowered rfl ht).1 hstar, mt (mem_iff_of_lowered rfl ht).1 hslash⟩
  rintro rfl
  exact hne (List.map_eq_nil_iff.1 ht.symm)

theorem ReadsHost.respelled (h : ReadsHost place subdomains host)
    (ht : t.map Char.toLower = place.map Char.toLower) :
    ∃ name, ReadsHost t subdomains name ∧ name.map Char.toLower = host.map Char.toLower := by
  cases h with
  | any =>
      obtain ⟨rest, rfl, hrest⟩ := exists_of_lowered_cons rfl ht
      obtain rfl := List.map_eq_nil_iff.1 hrest
      exact ⟨['*'], .any, rfl⟩
  | exact hhost => exact ⟨t, .exact (hhost.respelled ht), ht⟩
  | subdomains hhost =>
      obtain ⟨marks, name, rfl, hmarks, hname⟩ := exists_of_lowered_append ht
      obtain rfl : marks = "*.".toList := (spells_iff_of_marks (by simp)).1 hmarks
      exact ⟨name, .subdomains (hhost.respelled hname), hname⟩

/-- Another spelling of a text is read alike, unless one of them is the pattern for all URLs. -/
theorem Reads.respelled (h : Reads s pattern) (ht : t.map Char.toLower = s.map Char.toLower)
    (hall : s = allUrlsText.toList → t = allUrlsText.toList) :
    ∃ other, Reads t other ∧ pattern.Alike other := by
  cases h with
  | allUrls =>
      rw [hall rfl]
      exact ⟨_, .allUrls, .allUrls⟩
  | located hname hscheme hhost hpath =>
      obtain ⟨front, tail, rfl, hfront, htail⟩ := exists_of_lowered_append ht
      obtain ⟨path, rfl, hpath'⟩ := exists_of_lowered_cons rfl htail
      obtain ⟨start, place, rfl, hstart, hplace⟩ := exists_of_lowered_append hfront
      obtain ⟨scheme, marks, rfl, hscheme', hmarks⟩ := exists_of_lowered_append hstart
      obtain rfl : marks = "://".toList := (spells_iff_of_marks (by simp)).1 hmarks
      obtain ⟨name, hreads, hlowered⟩ := hhost.respelled hplace
      have hline := mt (mem_iff_of_lowered rfl hpath').1 hpath
      refine ⟨_, .located hname (hscheme'.trans hscheme) hreads hline, .parts ⟨rfl, rfl, ?_, ?_⟩⟩
      · simpa [Spells] using hlowered
      · simpa [Spells] using hpath'
  | file hscheme hpath =>
      obtain ⟨start, path, rfl, hstart, hpath'⟩ := exists_of_lowered_append ht
      obtain ⟨scheme, marks, rfl, hscheme', hmarks⟩ := exists_of_lowered_append hstart
      obtain rfl : marks = ":///".toList := (spells_iff_of_marks (by simp)).1 hmarks
      have hline := mt (mem_iff_of_lowered rfl hpath').1 hpath
      refine ⟨_, .file (hscheme'.trans hscheme) hline, .parts ⟨rfl, rfl, rfl, ?_⟩⟩
      simpa [Spells] using hpath'
  | data hscheme hne hpath =>
      obtain ⟨start, path, rfl, hstart, hpath'⟩ := exists_of_lowered_append ht
      obtain ⟨scheme, marks, rfl, hscheme', hmarks⟩ := exists_of_lowered_append hstart
      obtain rfl : marks = ":".toList := (spells_iff_of_marks (by simp)).1 hmarks
      have hline := mt (mem_iff_of_lowered rfl hpath').1 hpath
      have hne' : path ≠ [] := by
        rintro rfl
        exact hne (List.map_eq_nil_iff.1 hpath'.symm)
      refine ⟨_, .data (hscheme'.trans hscheme) hne' hline, .parts ⟨rfl, rfl, rfl, ?_⟩⟩
      simpa [Spells] using hpath'

theorem Fills.respelled (h : Fills path s) (ht : t.map Char.toLower = path.map Char.toLower) :
    Fills t s := by
  induction h generalizing t with
  | nil =>
      obtain rfl := List.map_eq_nil_iff.1 ht
      exact .nil
  | star hany _ ih =>
      obtain ⟨rest, rfl, hrest⟩ := exists_of_lowered_cons rfl ht
      exact .star hany (ih hrest)
  | @char c d path s hc hd _ ih =>
      rw [List.map_cons, List.map_eq_cons_iff] at ht
      obtain ⟨e, rest, rfl, he, hrest⟩ := ht
      refine .char ?_ (hd.trans he.symm) (ih hrest)
      rintro rfl
      exact hc ((toLower_eq_toLower_iff rfl).1 he)

namespace Parts.Alike

variable (h : p.Alike q)

include h

theorem hasHost_eq : q.hasHost = p.hasHost := by rw [Parts.hasHost, h.scheme, Parts.hasHost]

theorem isHost_iff : q.IsHost s ↔ p.IsHost s := by
  have hstar : q.host = "*" ↔ p.host = "*" := by
    rw [← String.toList_inj, ← String.toList_inj]
    exact eq_iff_of_spells h.host (by simp)
  unfold Parts.IsHost
  simp only [h.hasHost_eq, h.subdomains, hstar, spells_iff_of_lowered h.host]

theorem isPath_iff : q.IsPath s ↔ p.IsPath s := by
  have hpath (marks : String) (hmarks : ∀ c ∈ marks.toList, c.isAlpha = false) :
      q.path = marks ↔ p.path = marks := by
    rw [← String.toList_inj, ← String.toList_inj]
    exact eq_iff_of_spells h.path hmarks
  have hfills : Fills q.path.toList s ↔ Fills p.path.toList s :=
    ⟨fun hs => hs.respelled h.path.symm, fun hs => hs.respelled h.path⟩
  unfold Parts.IsPath
  simp only [hpath "/" (by simp), hpath "/*" (by simp), hfills]

theorem covers_iff : q.Covers s ↔ p.Covers s := by
  have hscheme (u : List Char) : q.IsScheme u ↔ p.IsScheme u := by
    unfold Parts.IsScheme
    rw [h.scheme]
  have hport (u : List Char) : q.IsPort u ↔ p.IsPort u := by
    unfold Parts.IsPort
    rw [h.hasHost_eq, h.scheme]
  have hseparator : q.separator = p.separator := by
    unfold Parts.separator
    rw [h.hasHost_eq]
  unfold Parts.Covers
  simp only [hscheme, h.isHost_iff, hport, h.isPath_iff, hseparator]

end Parts.Alike

theorem Alike.covers_iff {other : Pattern} (h : pattern.Alike other) :
    other.Covers s ↔ pattern.Covers s := by
  cases h with
  | allUrls => rfl
  | parts h => exact h.covers_iff

end LinkTrail.Pattern
