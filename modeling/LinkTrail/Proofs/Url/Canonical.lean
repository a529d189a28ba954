import LinkTrail.Proofs.Url.Authority

/-!
The normal form of URLs under the special schemes. Main statement: however such a URL is spelled,
its normal form is the scheme and the host in small letters with the user and the path between and
behind them (`normalize_spelling`), so it tells apart exactly what differs in one of these.
-/

namespace LinkTrail.Url

open LinkTrail.Text LinkTrail.Pattern

def isAddressChar (c : Char) : Bool := Address.isHexDigit c || c = ':' || c = '.'

def isPlaceChar (c : Char) : Bool := c.toNat < 128 && !isBlank c && !endsAuthority c

def isUserChar (c : Char) : Bool := isPlaceChar c && c ∉ ['@', '[', ']']

variable {c : Char} {s host port digits : List Char}

theorem isPlaceChar_iff :
    isPlaceChar c = true ↔ c.toNat < 128 ∧ isBlank c = false ∧ endsAuthority c = false := by
  simp [isPlaceChar, and_assoc]

theorem isUserChar_iff :
    isUserChar c = true ↔ isPlaceChar c = true ∧ c ≠ '@' ∧ c ≠ '[' ∧ c ≠ ']' := by
  simp [isUserChar]

theorem isPlaceChar_of_isAuthorityChar (h : isAuthorityChar c = true) : isPlaceChar c = true := by
  obtain ⟨hlow, hhigh⟩ := toNat_of_isAuthorityChar h
  exact isPlaceChar_iff.2
    ⟨hhigh, isBlank_of_bounds hlow (by omega), endsAuthority_of_isAuthorityChar h⟩

theorem isAuthorityChar_of_isAddressChar (h : isAddressChar c = true) :
    isAuthorityChar c = true := by
  simp only [isAddressChar, Bool.or_eq_true, decide_eq_true_eq] at h
  obtain (h | rfl) | rfl := h
  · simp [isAuthorityChar, isHostChar, isLabelChar, Address.isAlphanum_of_isHexDigit h]
  · rfl
  · rfl

theorem isAddressChar_toLower (h : isAddressChar c = true) : isAddressChar c.toLower = true := by
  simp only [isAddressChar, Bool.or_eq_true, decide_eq_true_eq] at h
  obtain (h | rfl) | rfl := h
  · simp [isAddressChar, h]
  · rfl
  · rfl

/-- A name of letters, digits, hyphens and dots, or digits of an address in brackets. -/
inductive IsHostText : List Char → Prop where
  | named {host : List Char} (hne : host ≠ []) (hhost : ∀ c ∈ host, isHostChar c = true) :
      IsHostText host
  | bracketed {address : List Char} (hcolon : ':' ∈ address)
      (haddress : ∀ c ∈ address, isAddressChar c = true) : IsHostText ('[' :: (address ++ [']']))

def IsPortText (port : List Char) : Prop :=
  port = [] ∨ ∃ digits, port = ':' :: digits ∧ digits.length ≤ 5 ∧
    (∀ c ∈ digits, c.isDigit = true) ∧
    Decimal.ofDigits (digits.map fun c => c.toNat - '0'.toNat) ≤ 65535

/-- The texts between which the marks of a URL stand. The user is missing if it is empty; the port,
the query and the fragment have their marks. -/
structure Spelling where
  scheme : List Char
  user : List Char := []
  host : List Char
  port : List Char := []
  path : List Char := []
  query : List Char := []
  fragment : List Char := []
  special : scheme.map Char.toLower ∈ specialSchemes
  user_plain : ∀ c ∈ user, isUserChar c = true
  host_form : IsHostText host
  port_form : IsPortText port
  path_form : IsMarked '/' path ∧ '?' ∉ path ∧ '#' ∉ path
  query_form : IsMarked '?' query ∧ '#' ∉ query
  fragment_form : IsMarked '#' fragment
  unbroken : ∀ c ∈ path ++ query ++ fragment, isBlank c = false

namespace Spelling

variable (w : Spelling)

def authority : List Char := userMark w.user ++ (w.host ++ w.port)

def text : List Char :=
  w.scheme ++ "://".toList ++ (w.authority ++ w.path ++ w.query ++ w.fragment)

def within (before after : List Char) : Candidate :=
  .text (String.ofList (before ++ w.text ++ after))

def IsAddressed : Prop :=
  ∀ address, w.host = '[' :: (address ++ [']']) → Address.isIpv6 address = true

def root : List Char := if w.path = [] then ['/'] else w.path

def canonical : List Char :=
  w.scheme.map Char.toLower ++ "://".toList ++
    (userMark w.user ++ w.host.map Char.toLower ++ w.root)

end Spelling

theorem isAuthorityChar_of_isPortText (h : IsPortText port) :
    ∀ c ∈ port, isAuthorityChar c = true := by
  obtain rfl | ⟨digits, rfl, -, hdigits, -⟩ := h
  · simp
  · exact isAuthorityChar_of_digits hdigits

theorem isMarked_of_isPortText (h : IsPortText port) : IsMarked ':' port := by
  obtain rfl | ⟨digits, rfl, -⟩ := h
  · exact Or.inl rfl
  · exact Or.inr rfl

theorem asciiDigit?_of_isDigit (h : c.isDigit = true) :
    asciiDigit? c = some (c.toNat - '0'.toNat) := by
  rw [asciiDigit?, if_pos]
  simpa [Char.isDigit, Char.le_def] using h

theorem mapM_asciiDigit? (h : ∀ c ∈ digits, c.isDigit = true) :
    digits.mapM asciiDigit? = some (digits.map fun c => c.toNat - '0'.toNat) := by
  induction digits with
  | nil => rfl
  | cons c digits ih =>
      obtain ⟨hc, hdigits⟩ := List.forall_mem_cons.1 h
      simp [List.mapM_cons, asciiDigit?_of_isDigit hc, ih hdigits]

theorem natural?_of_digits (h : ∀ c ∈ digits, c.isDigit = true) :
    Decimal.natural? digits =
      if digits = [] ∨ Decimal.maxDigits < digits.length then none
      else some (Decimal.ofDigits (digits.map fun c => c.toNat - '0'.toNat)) := by
  simp [Decimal.natural?, mapM_asciiDigit? h]

theorem hasValidPort_of_isPortText {u : Url} (hport : (hostAndPort u.authority).2 = port.tail)
    (h : IsPortText port) : u.hasValidPort = true := by
  rw [hasValidPort, hport]
  obtain rfl | ⟨digits, rfl, hlength, hdigits, hvalue⟩ := h
  · rfl
  · cases digits with
    | nil => rfl
    | cons c digits =>
        have hfits : ¬Decimal.maxDigits < (c :: digits).length := by
          rw [Decimal.maxDigits]
          omega
        simp only [List.tail_cons, natural?_of_digits hdigits, List.cons_ne_nil, hfits, or_self,
          if_false, Option.any_some, decide_eq_true_eq]
        exact hvalue

theorem normalize_eq_ok_iff {s v : String} :
    normalize (.text s) = .ok v ↔ normalText? s.toList = some v.toList := by
  rw [normalize, Candidate.text?, Option.bind_some]
  cases normalText? s.toList with
  | none => simp
  | some normal => simp [← String.toList_inj]

theorem normalize_of_none {s : String} (h : normalText? s.toList = none) :
    normalize (.text s) = .error ⟨.text s⟩ := by
  simp only [normalize, Candidate.text?, Option.bind_some, h]

namespace IsHostText

theorem ne_nil (h : IsHostText host) : host ≠ [] := by
  cases h with
  | named hne hhost => exact hne
  | bracketed hcolon haddress => exact List.cons_ne_nil _ _

theorem isPlaceChar_of_mem (h : IsHostText host) : ∀ c ∈ host, isPlaceChar c = true := by
  intro c hc
  cases h with
  | named hne hhost =>
      exact isPlaceChar_of_isAuthorityChar (by simp [isAuthorityChar, hhost c hc])
  | bracketed hcolon haddress =>
      simp only [List.mem_cons, List.mem_append, List.not_mem_nil, or_false] at hc
      obtain rfl | hc | rfl := hc
      · decide
      · exact isPlaceChar_of_isAuthorityChar (isAuthorityChar_of_isAddressChar (haddress c hc))
      · decide

theorem at_not_mem (h : IsHostText host) : '@' ∉ host := by
  cases h with
  | named hne hhost => exact not_mem_of_isHostChar hhost rfl
  | bracketed hcolon haddress =>
      rename_i address
      have haddressed : '@' ∉ address := by
        intro hmem
        exact absurd (haddress '@' hmem) (by decide)
      simp [haddressed]

theorem lowered (h : IsHostText host) : IsHostText (host.map Char.toLower) := by
  cases h with
  | named hne hhost =>
      exact .named (by simpa using hne) (isHostChar_lowered_iff.2 hhost)
  | bracketed hcolon haddress =>
      rename_i address
      have hform : IsHostText ('[' :: (address.map Char.toLower ++ [']'])) := by
        refine .bracketed (List.mem_map.2 ⟨':', hcolon, rfl⟩) ?_
        rw [List.forall_mem_map]
        exact fun c hc => isAddressChar_toLower (haddress c hc)
      simpa using hform

theorem located {u : Url} (h : IsHostText host) (hport : IsPortText port)
    (hplace : u.place = host ++ port) :
    ∃ address, address ≠ [] ∧ (∀ c ∈ address, isAuthorityChar c = true) ∧
      hostAndPort u.authority = (address, port.tail) ∧
      renderHost (address.map Char.toLower) = host.map Char.toLower := by
  have hmarked := isMarked_of_isPortText hport
  have hplain := isAuthorityChar_of_isPortText hport
  cases h with
  | named hne hhost =>
      have hcolon : ':' ∉ host := not_mem_of_isHostChar hhost rfl
      have hchars : ∀ c ∈ host, isAuthorityChar c = true := by
        intro c hc
        simp [isAuthorityChar, hhost c hc]
      have hbracket : '[' ∉ host ++ port := by
        apply not_mem_of_isAuthorityChar _ rfl
        exact List.forall_mem_append.2 ⟨hchars, hplain⟩
      have hlowered : ':' ∉ host.map Char.toLower :=
        not_mem_of_isHostChar (isHostChar_lowered_iff.2 hhost) rfl
      exact ⟨host, hne, hchars, hostAndPort_named hplace hbracket hcolon hmarked,
        if_neg hlowered⟩
  | bracketed hcolon haddress =>
      rename_i address
      have hchars : ∀ c ∈ address, isAuthorityChar c = true :=
        fun c hc => isAuthorityChar_of_isAddressChar (haddress c hc)
      have hclosing : ']' ∉ address := not_mem_of_isAuthorityChar hchars rfl
      have hplace : u.place = '[' :: (address ++ ']' :: port) := by simpa using hplace
      have hlowered : ':' ∈ address.map Char.toLower := List.mem_map.2 ⟨':', hcolon, rfl⟩
      refine ⟨address, List.ne_nil_of_mem hcolon, hchars,
        hostAndPort_bracketed hplace hclosing hmarked, ?_⟩
      rw [renderHost, if_pos hlowered]
      simp

theorem checkBrackets_eq_ok_iff {u : Url} (h : IsHostText host) (hport : IsPortText port)
    (huser : '[' ∉ u.userInfo ∧ ']' ∉ u.userInfo) (hplace : u.place = host ++ port) :
    checkBrackets u.authority = .ok () ↔
      ∀ address, host = '[' :: (address ++ [']']) → Address.isIpv6 address = true := by
  cases h with
  | named hne hhost =>
      have hchars : ∀ c ∈ host ++ port, isAuthorityChar c = true := by
        refine List.forall_mem_append.2 ⟨?_, isAuthorityChar_of_isPortText hport⟩
        intro c hc
        simp [isAuthorityChar, hhost c hc]
      have hopening : '[' ∉ host ++ port := not_mem_of_isAuthorityChar hchars rfl
      have hclosing : ']' ∉ host ++ port := not_mem_of_isAuthorityChar hchars rfl
      have hnamed : ∀ address, host ≠ '[' :: (address ++ [']']) := by
        rintro address rfl
        simp at hopening
      rw [checkBrackets_of_named (hplace ▸ hopening), hplace]
      simp [huser, hclosing, hnamed]
  | bracketed hcolon haddress =>
      rename_i address
      have hclosing : ']' ∉ address := by
        intro hmem
        exact absurd (haddress ']' hmem) (by decide)
      have hfuture : Address.isFuture address ≠ true := by
        intro hfuture
        obtain ⟨version, text, rfl, -⟩ := Address.isFuture_iff.1 hfuture
        exact absurd (haddress 'v' (List.mem_cons_self ..)) (by decide)
      have hplace : u.place = '[' :: (address ++ ']' :: port) := by simpa using hplace
      have hcut : cut ']' (address ++ ']' :: port) = (address, port) :=
        cut_append hclosing (Or.inr rfl)
      have hin : ']' ∈ u.authority := by
        rw [mem_authority_iff (by decide), hplace]
        simp
      rw [checkBrackets_of_bracketed (by simp [hplace]), hplace]
      simp [hin, hcut, isMarked_of_isPortText hport, checkBracketedHost_eq_ok_iff, hfuture]

end IsHostText

namespace Spelling

variable (w : Spelling)

theorem isSchemeName_scheme : isSchemeName w.scheme = true := by
  have hnames : ∀ name ∈ specialSchemes, name ≠ [] ∧ ∀ c ∈ name, c.isAlpha = true := by
    simp [specialSchemes, schemeList]
  obtain ⟨hne, hletters⟩ := hnames _ w.special
  rw [List.forall_mem_map] at hletters
  exact isSchemeName_of_isAlpha (by simpa using hne) (by simpa using hletters)

theorem isPlaceChar_of_mem_authority : ∀ c ∈ w.authority, isPlaceChar c = true := by
  intro c hc
  simp only [authority, userMark, List.mem_append] at hc
  obtain hc | hc | hc := hc
  · split at hc
    · contradiction
    · obtain hc | hc := List.mem_append.1 hc
      · exact (isUserChar_iff.1 (w.user_plain c hc)).1
      · rw [List.mem_singleton.1 hc]
        decide
  · exact w.host_form.isPlaceChar_of_mem c hc
  · exact isPlaceChar_of_isAuthorityChar (isAuthorityChar_of_isPortText w.port_form c hc)

theorem not_isBlank_of_mem_text : ∀ c ∈ w.text, isBlank c = false := by
  intro c hc
  simp only [text, List.append_assoc, List.mem_append] at hc
  obtain hc | hc | hc | hc := hc
  · have hscheme := isSchemeChar_of_isSchemeName w.isSchemeName_scheme c hc
    obtain ⟨hlow, hhigh⟩ := toNat_of_isSchemeChar hscheme
    exact isBlank_of_bounds hlow (by omega)
  · have hmarks : ∀ d ∈ "://".toList, 32 < d.toNat ∧ d.toNat < 133 := by simp
    exact isBlank_of_bounds (hmarks c hc).1 (hmarks c hc).2
  · exact (isPlaceChar_iff.1 (w.isPlaceChar_of_mem_authority c hc)).2.1
  · exact w.unbroken c (by simpa using hc)

theorem strip_within {before after : List Char} (hblank : ∀ c ∈ before ++ after, isBlank c = true) :
    strip (before ++ w.text ++ after) = w.text := by
  rw [List.forall_mem_append] at hblank
  refine strip_surrounded hblank.1 hblank.2 ?_ ?_ (by simp [text])
  · exact fun c hc => w.not_isBlank_of_mem_text c (List.mem_of_mem_head? hc)
  · exact fun c hc => w.not_isBlank_of_mem_text c (List.mem_of_mem_getLast? hc)

theorem cutParts_text :
    cutParts [] w.text =
      ⟨w.scheme.map Char.toLower, w.authority, w.path, w.query.tail, w.fragment.tail⟩ := by
  refine cutParts_written w.isSchemeName_scheme ?_ ?_ w.path_form w.query_form w.fragment_form
  · intro c hc
    apply isKept_of_not_isBlank
    apply w.not_isBlank_of_mem_text
    exact List.mem_append_right _ hc
  · intro c hc
    exact (isPlaceChar_iff.1 (w.isPlaceChar_of_mem_authority c hc)).2.2

theorem at_not_mem_place : '@' ∉ w.host ++ w.port := by
  have hport : '@' ∉ w.port :=
    not_mem_of_isAuthorityChar (isAuthorityChar_of_isPortText w.port_form) rfl
  simp [w.host_form.at_not_mem, hport]

theorem place_eq {u : Url} (h : u.authority = w.authority) : u.place = w.host ++ w.port := by
  rw [place, h]
  exact afterLast_userMark w.at_not_mem_place w.user

theorem userInfo_eq {u : Url} (h : u.authority = w.authority) : u.userInfo = w.user :=
  userInfo_userMark h w.at_not_mem_place

theorem normalAuthority_eq {u : Url} (h : u.authority = w.authority) :
    u.host? ≠ none ∧ u.hasValidPort = true ∧
      u.normalAuthority = userMark w.user ++ w.host.map Char.toLower := by
  obtain ⟨address, hne, hchars, hcut, hrender⟩ :=
    w.host_form.located w.port_form (w.place_eq h)
  have hascii : ∀ c ∈ address, c.toNat < 128 :=
    fun c hc => (toNat_of_isAuthorityChar (hchars c hc)).2
  have hzone : '%' ∉ address := not_mem_of_isAuthorityChar hchars rfl
  have hhost : u.host? = some (address.map Char.toLower) := by
    rw [host?_eq_some_iff, spelledHost, hcut, lowerHost, cut?_eq_none_iff.2 hzone]
    exact ⟨hne, (lower_of_ascii hascii).symm⟩
  refine ⟨by simp [hhost], hasValidPort_of_isPortText (by rw [hcut]) w.port_form, ?_⟩
  rw [normalAuthority_of_host hhost, w.userInfo_eq h, hrender]

theorem checkAuthority_eq_ok_iff : checkAuthority w.authority = .ok () ↔ w.IsAddressed := by
  have hlook : ∀ c ∈ w.authority, c ∉ lookAlikes := by
    intro c hc hmem
    have hascii := (isPlaceChar_iff.1 (w.isPlaceChar_of_mem_authority c hc)).1
    exact absurd (le_of_mem_lookAlikes hmem) (Nat.not_le.2 hascii)
  let u : Url := { authority := w.authority }
  have huser : '[' ∉ u.userInfo ∧ ']' ∉ u.userInfo := by
    rw [@userInfo_eq w u rfl]
    exact ⟨fun hmem => absurd (w.user_plain '[' hmem) (by decide),
      fun hmem => absurd (w.user_plain ']' hmem) (by decide)⟩
  rw [checkAuthority_iff, and_iff_left hlook]
  exact w.host_form.checkBrackets_eq_ok_iff w.port_form huser (w.place_eq rfl)

theorem isMarked_root : IsMarked '/' w.root := by
  rw [root]
  split
  · exact Or.inr rfl
  · exact w.path_form.1

theorem mem_root {c : Char} (hc : c ∈ w.root) : c = '/' ∨ c ∈ w.path := by
  rw [root] at hc
  split at hc
  · exact Or.inl (List.mem_singleton.1 hc)
  · exact Or.inr hc

def normal : Spelling where
  scheme := w.scheme.map Char.toLower
  user := w.user
  host := w.host.map Char.toLower
  path := w.root
  special := by
    rw [map_toLower_map_toLower]
    exact w.special
  user_plain := w.user_plain
  host_form := w.host_form.lowered
  port_form := Or.inl rfl
  path_form := by
    refine ⟨w.isMarked_root, ?_, ?_⟩
    · intro hmem
      obtain hslash | hpath := w.mem_root hmem
      · contradiction
      · exact w.path_form.2.1 hpath
    · intro hmem
      obtain hslash | hpath := w.mem_root hmem
      · contradiction
      · exact w.path_form.2.2 hpath
  query_form := ⟨Or.inl rfl, List.not_mem_nil⟩
  fragment_form := Or.inl rfl
  unbroken := by
    intro c hc
    simp only [List.append_nil] at hc
    obtain rfl | hpath := w.mem_root hc
    · exact isBlank_of_bounds (by decide) (by decide)
    · exact w.unbroken c (by simp [hpath])

theorem text_normal : w.normal.text = w.canonical := by
  have hparts : w.normal.text = w.scheme.map Char.toLower ++ "://".toList ++
      (userMark w.user ++ (w.host.map Char.toLower ++ []) ++ w.root ++ [] ++ []) := rfl
  simp only [hparts, List.append_nil, canonical]

theorem render_normal :
    render { scheme := w.scheme.map Char.toLower
             authority := userMark w.user ++ w.host.map Char.toLower, path := w.root } =
      w.canonical := by
  have hscheme : w.scheme.map Char.toLower ≠ [] := by
    simpa using ne_nil_of_isSchemeName w.isSchemeName_scheme
  have hhost : userMark w.user ++ w.host.map Char.toLower ≠ [] := by
    simpa using fun _ => w.host_form.ne_nil
  rw [render_located hscheme hhost w.isMarked_root, canonical]

theorem canonical_inj {v : Spelling} :
    w.canonical = v.canonical ↔
      w.scheme.map Char.toLower = v.scheme.map Char.toLower ∧
        w.host.map Char.toLower = v.host.map Char.toLower ∧ w.user = v.user ∧
        w.root = v.root := by
  constructor
  · intro h
    have hparts : cutParts [] w.normal.text = cutParts [] v.normal.text := by
      rw [text_normal, text_normal, h]
    rw [cutParts_text, cutParts_text] at hparts
    injection hparts with hscheme hauthority hroot
    have hscheme : w.scheme.map Char.toLower = v.scheme.map Char.toLower := by
      rw [← map_toLower_map_toLower, ← map_toLower_map_toLower v.scheme]
      exact hscheme
    let u : Url := { authority := w.normal.authority }
    have hhost : w.normal.host ++ [] = v.normal.host ++ [] :=
      (@place_eq w.normal u rfl).symm.trans (v.normal.place_eq hauthority)
    have huser : w.normal.user = v.normal.user :=
      (@userInfo_eq w.normal u rfl).symm.trans (v.normal.userInfo_eq hauthority)
    simp only [List.append_nil] at hhost
    exact ⟨hscheme, hhost, huser, hroot⟩
  · rintro ⟨hscheme, hhost, huser, hroot⟩
    rw [canonical, canonical, hscheme, hhost, hroot, userMark, userMark, huser]

variable {w} {before after : List Char}

theorem split_within (hblank : ∀ c ∈ before ++ after, isBlank c = true) :
    split (strip (before ++ w.text ++ after)) =
      (checkAuthority w.authority).map fun _ => cutParts [] w.text := by
  rw [w.strip_within hblank, Url.split, splitWith, w.cutParts_text]

theorem normalize_of_isAddressed (hblank : ∀ c ∈ before ++ after, isBlank c = true)
    (h : w.IsAddressed) :
    normalize (w.within before after) = .ok (String.ofList w.canonical) := by
  have hnormal : (cutParts [] w.text).normal? =
      some { scheme := w.scheme.map Char.toLower
             authority := userMark w.user ++ w.host.map Char.toLower, path := w.root } := by
    rw [w.cutParts_text]
    obtain ⟨hhost, hport, hauthority⟩ := @normalAuthority_eq w
      ⟨w.scheme.map Char.toLower, w.authority, w.path, w.query.tail, w.fragment.tail⟩ rfl
    have hscheme : w.scheme.map Char.toLower ≠ [] := by
      simpa using ne_nil_of_isSchemeName w.isSchemeName_scheme
    rw [normal?, if_neg (by simp [hport, hscheme]), if_pos (by simpa using w.special),
      if_neg hhost, hauthority]
    rfl
  have htext : normalText? (before ++ w.text ++ after) = some w.canonical := by
    rw [normalText?, split_within hblank, w.checkAuthority_eq_ok_iff.2 h]
    simp only [Except.map, hnormal, Option.map_some, render_normal]
  exact normalize_eq_ok_iff.2 (by simpa using htext)

theorem normalize_of_not_isAddressed (hblank : ∀ c ∈ before ++ after, isBlank c = true)
    (h : ¬w.IsAddressed) :
    normalize (w.within before after) = .error ⟨w.within before after⟩ := by
  have htext : normalText? (before ++ w.text ++ after) = none := by
    rw [normalText?, split_within hblank]
    cases hcheck : checkAuthority w.authority with
    | error e => rfl
    | ok _ => exact absurd (w.checkAuthority_eq_ok_iff.1 hcheck) h
  exact normalize_of_none (by simpa using htext)

end Spelling

/-- However it is spelled, a URL is normalized to its scheme and host in small letters with the user
and the path between and behind them; only a host in brackets that is no address has no normal
form. Two spellings have the same normal form if they agree in these parts. -/
theorem normalize_spelling (w v : Spelling) {before after start finish : List Char}
    (hblank : ∀ c ∈ before ++ after, isBlank c = true)
    (hempty : ∀ c ∈ start ++ finish, isBlank c = true) :
    (w.IsAddressed →
        normalize (w.within before after) = .ok (String.ofList w.canonical)) ∧
      (¬w.IsAddressed →
        normalize (w.within before after) = .error ⟨w.within before after⟩) ∧
      (w.IsAddressed → v.IsAddressed →
        (normalize (w.within before after) = normalize (v.within start finish) ↔
          w.scheme.map Char.toLower = v.scheme.map Char.toLower ∧
            w.host.map Char.toLower = v.host.map Char.toLower ∧ w.user = v.user ∧
            w.root = v.root)) := by
  refine ⟨Spelling.normalize_of_isAddressed hblank,
    Spelling.normalize_of_not_isAddressed hblank, ?_⟩
  intro hw hv
  rw [Spelling.normalize_of_isAddressed hblank hw, Spelling.normalize_of_isAddressed hempty hv,
    ← Spelling.canonical_inj, Except.ok.injEq, String.ofList_inj]

/-- `HTTP://me:pw@[::A]:80?x` -/
def Spelling.loud : Spelling where
  scheme := ['H', 'T', 'T', 'P']
  user := ['m', 'e', ':', 'p', 'w']
  host := ['[', ':', ':', 'A', ']']
  port := [':', '8', '0']
  query := ['?', 'x']
  special := by simp [specialSchemes, schemeList]
  user_plain := List.all_eq_true.1 (by decide +kernel)
  host_form := @IsHostText.bracketed [':', ':', 'A'] (by decide) (List.all_eq_true.1 (by decide))
  port_form := Or.inr ⟨['8', '0'], rfl, by decide, List.all_eq_true.1 (by decide), by decide⟩
  path_form := ⟨Or.inl rfl, by decide, by decide⟩
  query_form := ⟨Or.inr rfl, by decide⟩
  fragment_form := Or.inl rfl
  unbroken := by simpa using ⟨by decide, by decide⟩

theorem Spelling.isAddressed_of_host {w : Spelling} {address : List Char}
    (hhost : w.host = '[' :: (address ++ [']'])) (h : Address.isIpv6 address = true) :
    w.IsAddressed := by
  intro other hother
  obtain rfl : address = other := by simpa using hhost.symm.trans hother
  exact h

theorem normalize_loud_spelling :
    let w := Spelling.loud
    String.ofList w.text = "HTTP://me:pw@[::A]:80?x" ∧
      String.ofList w.canonical = "http://me:pw@[::a]/" ∧ w.IsAddressed ∧
      normalize (.text " HTTP://me:pw@[::A]:80?x\n") = .ok "http://me:pw@[::a]/" ∧
      normalize (.text "http://me:pw@[::a]/") = .ok "http://me:pw@[::a]/" := by
  intro w
  have hloud : w.IsAddressed := @Spelling.isAddressed_of_host w [':', ':', 'A'] rfl (by decide)
  have hquiet : w.normal.IsAddressed :=
    @Spelling.isAddressed_of_host w.normal [':', ':', 'a'] rfl (by decide)
  obtain ⟨hnormal, -, hsame⟩ := @normalize_spelling w w.normal [' '] ['\n'] [] []
    (by simpa using ⟨by decide, by decide⟩) (by simp)
  have htwice := (hsame hloud hquiet).2 ⟨by decide, by decide, rfl, rfl⟩
  rw [hnormal hloud] at htwice
  exact ⟨rfl, rfl, hloud, hnormal hloud, htwice.symm⟩

/-- `http://[:]/` -/
def Spelling.unaddressed : Spelling where
  scheme := ['h', 't', 't', 'p']
  host := ['[', ':', ']']
  path := ['/']
  special := by simp [specialSchemes, schemeList]
  user_plain := by simp
  host_form := @IsHostText.bracketed [':'] (by decide) (List.all_eq_true.1 (by decide))
  port_form := Or.inl rfl
  path_form := ⟨Or.inr rfl, by decide, by decide⟩
  query_form := ⟨Or.inl rfl, by decide⟩
  fragment_form := Or.inl rfl
  unbroken := by simpa using by decide

/-- A single colon in brackets has the characters of an address and is none. -/
theorem not_normalized_of_bare_colon :
    String.ofList Spelling.unaddressed.text = "http://[:]/" ∧
      normalize (.text "http://[:]/") = .error ⟨.text "http://[:]/"⟩ ∧
      ¬∀ (w : Spelling) (before after : List Char), (∀ c ∈ before ++ after, isBlank c = true) →
        normalize (w.within before after) = .ok (String.ofList w.canonical) := by
  have herror : normalize (Spelling.unaddressed.within [] []) =
      .error ⟨Spelling.unaddressed.within [] []⟩ := by
    apply Spelling.normalize_of_not_isAddressed (by simp)
    intro h
    exact absurd (h [':'] rfl) (by decide)
  have htext : Spelling.unaddressed.within [] [] = .text "http://[:]/" := rfl
  refine ⟨rfl, htext ▸ herror, ?_⟩
  intro h
  have hok := h Spelling.unaddressed [] [] (by simp)
  rw [herror] at hok
  simp at hok

end LinkTrail.Url
