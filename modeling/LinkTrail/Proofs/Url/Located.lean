import LinkTrail.Proofs.Pattern.Covers
import LinkTrail.Url.Host
import LinkTrail.Url.Split

/-!
URLs whose authority is a plain host with or without a number behind it. Main statements: such a
text is cut into its parts where it was put together (`split_located`), and the host is the one that
was put there (`host?_of_authority`).
-/

namespace LinkTrail.Url

open LinkTrail.Text LinkTrail.Pattern

variable {scheme host port front rest authority : List Char} {c : Char}

/-! The characters of a plain authority have no other meaning in a URL. -/

theorem toNat_of_isAlphanum (h : c.isAlphanum = true) : 47 < c.toNat ∧ c.toNat < 128 := by
  simp only [Char.isAlphanum, Char.isAlpha, Char.isUpper, Char.isLower, Char.isDigit,
    Bool.or_eq_true, Bool.and_eq_true, decide_eq_true_eq, ge_iff_le, UInt32.le_iff_toNat_le] at h
  change ((65 ≤ c.toNat ∧ c.toNat ≤ 90) ∨ (97 ≤ c.toNat ∧ c.toNat ≤ 122)) ∨
    (48 ≤ c.toNat ∧ c.toNat ≤ 57) at h
  omega

theorem toNat_of_isHostChar (h : isHostChar c = true) : 32 < c.toNat ∧ c.toNat < 128 := by
  simp only [isHostChar, isLabelChar, Bool.or_eq_true, decide_eq_true_eq] at h
  obtain (h | rfl) | rfl := h
  · have := toNat_of_isAlphanum h
    omega
  · decide
  · decide

def isAuthorityChar (c : Char) : Bool := isHostChar c || c = ':'

theorem toNat_of_isAuthorityChar (h : isAuthorityChar c = true) :
    32 < c.toNat ∧ c.toNat < 128 := by
  simp only [isAuthorityChar, Bool.or_eq_true, decide_eq_true_eq] at h
  obtain h | rfl := h
  · exact toNat_of_isHostChar h
  · decide

theorem not_mem_of_isAuthorityChar {mark : Char} (h : ∀ c ∈ authority, isAuthorityChar c = true)
    (hmark : isAuthorityChar mark = false) : mark ∉ authority := by
  intro hmem
  rw [h mark hmem] at hmark
  contradiction

theorem isAuthorityChar_of_digits {digits : List Char} (h : ∀ c ∈ digits, c.isDigit = true) :
    ∀ c ∈ ':' :: digits, isAuthorityChar c = true := by
  rw [List.forall_mem_cons]
  refine ⟨rfl, fun c hc => ?_⟩
  simp [isAuthorityChar, isHostChar, isLabelChar, Char.isAlphanum, h c hc]

theorem isAuthorityChar_of_port (hport : IsAnyPort port) :
    ∀ c ∈ port, isAuthorityChar c = true := by
  obtain rfl | ⟨number, rfl, -, hnumber⟩ := hport
  · simp
  · exact isAuthorityChar_of_digits hnumber

theorem isAuthorityChar_of_plain (hhost : ∀ c ∈ host, isHostChar c = true)
    (hport : IsAnyPort port) : ∀ c ∈ host ++ port, isAuthorityChar c = true := by
  intro c hc
  obtain hc | hc := List.mem_append.1 hc
  · simp [isAuthorityChar, hhost c hc]
  · exact isAuthorityChar_of_port hport c hc

def isKept (c : Char) : Bool := c ≠ '\t' ∧ c ≠ '\r' ∧ c ≠ '\n'

theorem isKept_of_lt (h : 32 < c.toNat) : isKept c = true := by
  have hne {d : Char} (hd : d.toNat ≤ 32) : c ≠ d := by
    rintro rfl
    omega
  exact decide_eq_true ⟨hne (by decide), hne (by decide), hne (by decide)⟩

theorem cleaned_append (hne : front ≠ []) (h : ∀ c ∈ front, 32 < c.toNat) (rest : List Char) :
    cleaned (front ++ rest) = front ++ rest.filter isKept := by
  have hkept : front.filter isKept = front :=
    List.filter_eq_self.2 fun c hc => isKept_of_lt (h c hc)
  have hstart : (front ++ rest).dropWhile (· ≤ ' ') = front ++ rest := by
    obtain ⟨first, front, rfl⟩ := List.exists_cons_of_ne_nil hne
    have hfirst : ¬first.toNat ≤ 32 := Nat.not_le.2 (h first (List.mem_cons_self ..))
    exact List.dropWhile_cons_of_neg (by simpa [Char.le_def, UInt32.le_iff_toNat_le] using hfirst)
  rw [cleaned, hstart]
  change (front ++ rest).filter isKept = _
  rw [List.filter_append, hkept]

theorem isSchemeName_of_isAlpha (hne : scheme ≠ []) (h : ∀ c ∈ scheme, c.isAlpha = true) :
    isSchemeName scheme = true := by
  obtain ⟨first, scheme, rfl⟩ := List.exists_cons_of_ne_nil hne
  obtain ⟨hfirst, hscheme⟩ := List.forall_mem_cons.1 h
  simp only [isSchemeName, hfirst, Bool.true_and, List.all_eq_true]
  intro c hc
  simp [isSchemeChar, Char.isAlphanum, hscheme c hc]

theorem cutScheme_append (hne : scheme ≠ []) (h : ∀ c ∈ scheme, c.isAlpha = true)
    (default : List Char) :
    cutScheme default (scheme ++ ':' :: rest) = (scheme.map Char.toLower, rest) := by
  have hcolon : ':' ∉ scheme := by
    intro hmem
    exact absurd (h ':' hmem) (by decide)
  rw [cutScheme, cut?_append hcolon]
  simp only [isSchemeName_of_isAlpha hne h, if_true]

theorem cutAuthority_append (h : ∀ c ∈ authority, endsAuthority c = false)
    (hrest : ∀ c ∈ rest.head?, endsAuthority c = true) :
    cutAuthority ('/' :: '/' :: (authority ++ rest)) = (authority, rest) := by
  have hin : ∀ c ∈ authority, (!endsAuthority c) = true := by simpa using h
  rw [cutAuthority, List.span_eq_takeWhile_dropWhile, List.takeWhile_append_of_pos hin,
    List.dropWhile_append_of_pos hin]
  cases rest with
  | nil => simp
  | cons first rest => simp [hrest first rfl]

theorem le_of_mem_lookAlikes (h : c ∈ lookAlikes) : 128 ≤ c.toNat := by
  have hall : ∀ d ∈ lookAlikes, 128 ≤ d.toNat := by simp [lookAlikes]
  exact hall c h

theorem checkAuthority_of_plain (h : ∀ c ∈ authority, isAuthorityChar c = true) :
    checkAuthority authority = .ok () := by
  have hopening : '[' ∉ authority := not_mem_of_isAuthorityChar h rfl
  have hclosing : ']' ∉ authority := not_mem_of_isAuthorityChar h rfl
  have hlook : authority.any (· ∈ lookAlikes) = false := by
    rw [List.any_eq_false]
    intro c hc hmem
    have hlt := (toNat_of_isAuthorityChar (h c hc)).2
    exact absurd (le_of_mem_lookAlikes (of_decide_eq_true hmem)) (Nat.not_le.2 hlt)
  have hbrackets : checkBrackets authority = .ok () := by
    simp [checkBrackets, hopening, hclosing]
  rw [checkAuthority, hbrackets, checkLookAlikes, hlook]
  rfl

theorem endsAuthority_of_isAuthorityChar (h : isAuthorityChar c = true) :
    endsAuthority c = false := by
  rw [Bool.eq_false_iff]
  intro hends
  simp only [endsAuthority, Bool.or_eq_true, decide_eq_true_eq] at hends
  obtain (rfl | rfl) | rfl := hends <;> contradiction

theorem isKept_of_endsAuthority (h : endsAuthority c = true) : isKept c = true := by
  simp only [endsAuthority, Bool.or_eq_true, decide_eq_true_eq] at h
  obtain (rfl | rfl) | rfl := h <;> rfl

theorem head?_filter_eq (hrest : ∀ c ∈ rest.head?, endsAuthority c = true) :
    (rest.filter isKept).head? = rest.head? := by
  cases rest with
  | nil => rfl
  | cons first rest =>
      rw [List.filter_cons_of_pos (isKept_of_endsAuthority (hrest first rfl))]
      rfl

theorem head?_filter_isKept (hrest : ∀ c ∈ rest.head?, endsAuthority c = true) :
    ∀ c ∈ (rest.filter isKept).head?, endsAuthority c = true := by
  rwa [head?_filter_eq hrest]

section

variable (hne : scheme ≠ []) (hscheme : ∀ c ∈ scheme, c.isAlpha = true)

include hscheme in
theorem toNat_of_mem_start : ∀ c ∈ scheme ++ "://".toList, 32 < c.toNat ∧ c.toNat < 128 := by
  intro c hc
  obtain hc | hc := List.mem_append.1 hc
  · have halnum : c.isAlphanum = true := by simp [Char.isAlphanum, hscheme c hc]
    have := toNat_of_isAlphanum halnum
    omega
  · have hmarks : ∀ d ∈ "://".toList, 32 < d.toNat ∧ d.toNat < 128 := by simp
    exact hmarks c hc

include hne hscheme in
theorem cutScheme_located (hauthority : ∀ c ∈ authority, 32 < c.toNat) (rest : List Char) :
    cutScheme [] (cleaned (scheme ++ "://".toList ++ authority ++ rest)) =
      (scheme.map Char.toLower, '/' :: '/' :: (authority ++ rest.filter isKept)) := by
  have hfront : ∀ c ∈ scheme ++ "://".toList ++ authority, 32 < c.toNat :=
    List.forall_mem_append.2 ⟨fun c hc => (toNat_of_mem_start hscheme c hc).1, hauthority⟩
  rw [cleaned_append (by simp) hfront, ← cutScheme_append hne hscheme []]
  simp

variable (hauthority : ∀ c ∈ authority, isAuthorityChar c = true)
  (hrest : ∀ c ∈ rest.head?, endsAuthority c = true)

include hscheme hauthority in
theorem toNat_of_mem_front :
    ∀ c ∈ scheme ++ "://".toList ++ authority, 32 < c.toNat ∧ c.toNat < 128 :=
  List.forall_mem_append.2
    ⟨toNat_of_mem_start hscheme, fun c hc => toNat_of_isAuthorityChar (hauthority c hc)⟩

include hne hscheme hauthority hrest

theorem cutParts_located :
    let kept := rest.filter isKept
    cutParts [] (scheme ++ "://".toList ++ authority ++ rest) =
      ⟨scheme.map Char.toLower, authority, (cut '?' (cut '#' kept).1).1,
        (cut '?' (cut '#' kept).1).2, (cut '#' kept).2⟩ := by
  have hscan := cutScheme_located hne hscheme
    (fun c hc => (toNat_of_isAuthorityChar (hauthority c hc)).1) rest
  have hcut := cutAuthority_append
    (fun c hc => endsAuthority_of_isAuthorityChar (hauthority c hc)) (head?_filter_isKept hrest)
  simp only [cutParts, hscan, hcut]

theorem split_located :
    ∃ u, split (scheme ++ "://".toList ++ authority ++ rest) = .ok u ∧
      u.scheme = scheme.map Char.toLower ∧ u.authority = authority := by
  have hparts := cutParts_located hne hscheme hauthority hrest
  refine ⟨cutParts [] (scheme ++ "://".toList ++ authority ++ rest), ?_, ?_, ?_⟩
  · rw [split, splitWith, hparts]
    simp only [checkAuthority_of_plain hauthority, Except.map]
  · rw [hparts]
  · rw [hparts]

end

theorem lower_of_isHostChar (hhost : ∀ c ∈ host, isHostChar c = true) :
    lower host = host.map Char.toLower :=
  lower_of_ascii fun c hc => (toNat_of_isHostChar (hhost c hc)).2

theorem hostAndPort_of_plain (hhost : ∀ c ∈ host, isHostChar c = true) (hport : IsAnyPort port) :
    hostAndPort (host ++ port) = (host, port.tail) := by
  have hplain := isAuthorityChar_of_plain hhost hport
  have hat : '@' ∉ host ++ port := not_mem_of_isAuthorityChar hplain rfl
  have hbracket : '[' ∉ host ++ port := not_mem_of_isAuthorityChar hplain rfl
  have hcolon : ':' ∉ host := not_mem_of_isHostChar hhost rfl
  have hplace : afterLast '@' (host ++ port) = host ++ port := by
    simp [afterLast, cutLast?_eq_none_iff.2 hat]
  rw [hostAndPort, hplace, cut?_eq_none_iff.2 hbracket]
  obtain rfl | ⟨number, rfl, -⟩ := hport
  · simp [cut, cut?_eq_none_iff.2 hcolon]
  · simp [cut, cut?_append hcolon]

theorem host?_of_authority {u : Url} (hu : u.authority = host ++ port) (hne : host ≠ [])
    (hhost : ∀ c ∈ host, isHostChar c = true) (hport : IsAnyPort port) :
    u.host? = some (lower host) := by
  have hzone : '%' ∉ host := not_mem_of_isHostChar hhost rfl
  unfold host?
  rw [hu, hostAndPort_of_plain hhost hport]
  obtain ⟨first, rest, rfl⟩ := List.exists_cons_of_ne_nil hne
  simp [lowerHost, cut?_eq_none_iff.2 hzone]

end LinkTrail.Url
