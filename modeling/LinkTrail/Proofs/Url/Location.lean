import LinkTrail.Proofs.Url.Canonical

/-!
URLs whose authority is a plain host, with or without a port. Main statements: such a text is cut
where it was put together (`Location.split_text`), and under a special scheme it has a normal form,
which is such a text again, exactly if its port is a number for a service
(`Location.normalText?_of_portFits`, `Location.normalText?_of_not_portFits`).
-/

namespace LinkTrail.Url

open LinkTrail.Text LinkTrail.Pattern

/-- The port has its mark. The rest begins with what ends an authority, and may break the line. -/
structure Location where
  scheme : List Char
  host : List Char
  port : List Char := []
  rest : List Char := []
  scheme_form : scheme ≠ [] ∧ ∀ c ∈ scheme, c.isAlpha = true
  host_form : host ≠ [] ∧ ∀ c ∈ host, isHostChar c = true
  port_form : IsAnyPort port
  rest_form : ∀ c ∈ rest.head?, endsAuthority c = true

namespace Location

variable (l : Location)

def authority : List Char := l.host ++ l.port

def front : List Char := l.scheme ++ "://".toList ++ l.authority

def text : List Char := l.front ++ l.rest

def parts : Url := cutParts [] l.text

def PortFits : Prop :=
  l.port.tail.length ≤ Decimal.maxDigits ∧
    Decimal.ofDigits (l.port.tail.map fun c => c.toNat - '0'.toNat) ≤ 65535

instance : Decidable l.PortFits := inferInstanceAs (Decidable (_ ∧ _))

theorem isAuthorityChar_of_mem : ∀ c ∈ l.authority, isAuthorityChar c = true :=
  isAuthorityChar_of_plain l.host_form.2 l.port_form

theorem at_not_mem_authority : '@' ∉ l.authority :=
  not_mem_of_isAuthorityChar l.isAuthorityChar_of_mem rfl

theorem toNat_of_mem_front : ∀ c ∈ l.front, 32 < c.toNat ∧ c.toNat < 128 :=
  Url.toNat_of_mem_front l.scheme_form.2 l.isAuthorityChar_of_mem

theorem parts_eq :
    l.parts.scheme = l.scheme.map Char.toLower ∧ l.parts.authority = l.authority ∧
      l.parts.path = pathPart (l.rest.filter isKept) := by
  have hparts := cutParts_located l.scheme_form.1 l.scheme_form.2 l.isAuthorityChar_of_mem
    l.rest_form
  rw [parts, text, front, hparts]
  exact ⟨rfl, rfl, rfl⟩

theorem split_text : split l.text = .ok l.parts := by
  change (checkAuthority l.parts.authority).map (fun _ => l.parts) = .ok l.parts
  rw [l.parts_eq.2.1, checkAuthority_of_plain l.isAuthorityChar_of_mem]
  rfl

theorem hostAndPort_parts : hostAndPort l.parts.authority = (l.host, l.port.tail) := by
  rw [l.parts_eq.2.1]
  exact hostAndPort_of_plain l.host_form.2 l.port_form

theorem host?_parts : l.parts.host? = some (l.host.map Char.toLower) := by
  rw [← lower_of_isHostChar l.host_form.2]
  exact host?_of_authority l.parts_eq.2.1 l.host_form.1 l.host_form.2 l.port_form

theorem isDigit_of_mem_port : ∀ c ∈ l.port.tail, c.isDigit = true := by
  obtain hnone | ⟨number, hport, -, hnumber⟩ := l.port_form
  · simp [hnone]
  · simpa [hport] using hnumber

theorem hasValidPort_parts_iff : l.parts.hasValidPort = true ↔ l.PortFits := by
  have hdigits := natural?_of_digits l.isDigit_of_mem_port
  rw [hasValidPort, l.hostAndPort_parts, PortFits]
  generalize l.port.tail = digits at hdigits
  cases digits with
  | nil => simp [Decimal.ofDigits]
  | cons first digits =>
      simp only [hdigits]
      by_cases hlong : Decimal.maxDigits < (first :: digits).length
      · have hshort : ¬(first :: digits).length ≤ Decimal.maxDigits := Nat.not_le.2 hlong
        rw [if_pos (Or.inr hlong), eq_false hshort]
        simp
      · rw [if_neg (by simpa using hlong), and_iff_right (Nat.not_lt.1 hlong)]
        simp

theorem normalAuthority_parts : l.parts.normalAuthority = l.host.map Char.toLower := by
  have huser : l.parts.userInfo = [] := by
    rw [userInfo, l.parts_eq.2.1, cutLast?_eq_none_iff.2 l.at_not_mem_authority]
    rfl
  have hcolon : ':' ∉ l.host.map Char.toLower :=
    not_mem_of_isHostChar (isHostChar_lowered_iff.2 l.host_form.2) rfl
  rw [normalAuthority_of_host l.host?_parts, huser, renderHost, if_neg hcolon]
  rfl

def root : List Char := if l.parts.path = [] then ['/'] else l.parts.path

theorem isTail_root : IsTail '/' l.root := by
  obtain ⟨behind, hrest, -⟩ := pathPart_spec (l.rest.filter isKept)
  have hline : '\n' ∉ pathPart (l.rest.filter isKept) := by
    intro hmem
    have hkept : '\n' ∈ l.rest.filter isKept := hrest ▸ List.mem_append_left behind hmem
    exact absurd (List.mem_filter.1 hkept).2 (by decide)
  have hmarked := isMarked_pathPart (head?_filter_isKept l.rest_form)
  rw [root, l.parts_eq.2.2]
  split_ifs with hpath
  · exact Or.inr ⟨[], rfl, List.not_mem_nil⟩
  · obtain ⟨path, hslash⟩ := (isMarked_iff.1 hmarked).resolve_left hpath
    rw [hslash] at hline ⊢
    exact Or.inr ⟨path, rfl, fun hmem => hline (List.mem_cons_of_mem _ hmem)⟩

def normal : Location where
  scheme := l.scheme.map Char.toLower
  host := l.host.map Char.toLower
  rest := l.root
  scheme_form := by
    obtain ⟨hne, hletters⟩ := l.scheme_form
    refine ⟨by simpa using hne, ?_⟩
    rw [List.forall_mem_map]
    simpa using hletters
  host_form := by
    obtain ⟨hne, hplain⟩ := l.host_form
    exact ⟨by simpa using hne, isHostChar_lowered_iff.2 hplain⟩
  port_form := Or.inl rfl
  rest_form := by
    intro c hc
    obtain hnil | ⟨path, hslash, -⟩ := l.isTail_root
    · simp [hnil] at hc
    · obtain rfl : '/' = c := by simpa [hslash] using hc
      rfl

theorem render_normal :
    render { scheme := l.normal.scheme, authority := l.normal.host, path := l.root } =
      l.normal.text := by
  have hmarked : IsMarked '/' l.root := by
    obtain hnil | ⟨path, hslash, -⟩ := l.isTail_root
    · exact Or.inl hnil
    · exact Or.inr (by rw [hslash]; rfl)
  rw [render_located l.normal.scheme_form.1 l.normal.host_form.1 hmarked]
  simp [text, front, authority, normal]

section

variable {l} (hspecial : l.scheme.map Char.toLower ∈ specialSchemes)

include hspecial

theorem normal?_parts :
    l.parts.normal? =
      if l.PortFits then
        some { scheme := l.normal.scheme, authority := l.normal.host, path := l.root }
      else none := by
  have hscheme : l.parts.scheme ≠ [] := by
    rw [l.parts_eq.1]
    simpa using l.scheme_form.1
  have hcontained : specialSchemes.contains l.parts.scheme = true := by
    rw [l.parts_eq.1]
    simpa using hspecial
  by_cases hfits : l.PortFits
  · have hvalid := l.hasValidPort_parts_iff.2 hfits
    rw [if_pos hfits, normal?, if_neg (by simp [hvalid, hscheme]), if_pos hcontained,
      if_neg (by simp [l.host?_parts]), l.normalAuthority_parts, l.parts_eq.1]
    rfl
  · have hinvalid : l.parts.hasValidPort = false := by
      rw [Bool.eq_false_iff, ne_eq, hasValidPort_parts_iff]
      exact hfits
    rw [if_neg hfits, normal?, if_pos (Or.inl hinvalid)]

end

theorem strip_text :
    ∃ m : Location, strip l.text = m.text ∧ m.scheme = l.scheme ∧ m.host = l.host ∧
      m.port = l.port := by
  have hne : l.front ≠ [] := by simp [front]
  have hblank : ∀ c ∈ l.front, isBlank c = false := by
    intro c hc
    obtain ⟨hlow, hhigh⟩ := l.toNat_of_mem_front c hc
    exact isBlank_of_bounds hlow (by omega)
  obtain ⟨kept, tail, hstrip, hrest⟩ := @strip_append l.front l.rest hne hblank
  have hends : ∀ c ∈ kept.head?, endsAuthority c = true := by
    intro c hc
    apply l.rest_form
    rw [hrest, List.head?_append, Option.mem_def.1 hc]
    rfl
  exact ⟨⟨l.scheme, l.host, l.port, kept, l.scheme_form, l.host_form, l.port_form, hends⟩, hstrip,
    rfl, rfl, rfl⟩

variable {l} (hspecial : l.scheme.map Char.toLower ∈ specialSchemes)

include hspecial

theorem normalText?_of_portFits (hfits : l.PortFits) :
    ∃ n : Location, normalText? l.text = some n.text ∧ n.scheme = l.scheme.map Char.toLower ∧
      n.host = l.host.map Char.toLower ∧ IsTail '/' n.rest := by
  obtain ⟨m, hstrip, hscheme, hhost, hport⟩ := l.strip_text
  refine ⟨m.normal, ?_, by rw [← hscheme]; rfl, by rw [← hhost]; rfl, m.isTail_root⟩
  have hm : m.PortFits := by rwa [PortFits, hport]
  rw [normalText?, hstrip, m.split_text]
  simp only [normal?_parts (hscheme ▸ hspecial), if_pos hm, Option.map_some, m.render_normal]

theorem normalText?_of_not_portFits (hfits : ¬l.PortFits) : normalText? l.text = none := by
  obtain ⟨m, hstrip, hscheme, -, hport⟩ := l.strip_text
  have hm : ¬m.PortFits := by rwa [PortFits, hport]
  rw [normalText?, hstrip, m.split_text]
  simp only [normal?_parts (hscheme ▸ hspecial), if_neg hm, Option.map_none]

end Location

end LinkTrail.Url
