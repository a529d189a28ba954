import LinkTrail.Proofs.Url.Canonical

/-!
Normal forms that are normalized again. Main statement: a normal form is its own normal form if and
only if it does not end in white space, no host has lost its brackets, and no path has become an
authority (`normalize_normal_iff`).
-/

namespace LinkTrail.Url

open LinkTrail.Text

variable {u n : Url} {c : Char}

structure IsNormalOf (u n : Url) : Prop where
  port : u.hasValidPort = true
  absolute : u.scheme ≠ []
  scheme : n.scheme = u.scheme
  authority : n.authority = u.normalAuthority
  query : n.query = []
  fragment : n.fragment = []
  special : specialSchemes.contains u.scheme = true →
    u.host? ≠ none ∧ n.path = if u.path = [] then ['/'] else u.path
  other : specialSchemes.contains u.scheme = false →
    ¬(u.authority = [] ∧ u.path = []) ∧ n.path = u.path

theorem isNormalOf_of_normal? (h : u.normal? = some n) : IsNormalOf u n := by
  rw [normal?] at h
  split at h
  · contradiction
  rename_i hvalid
  simp only [not_or, Bool.not_eq_false] at hvalid
  by_cases hmember : specialSchemes.contains u.scheme = true
  · rw [if_pos hmember] at h
    split at h
    · contradiction
    · rename_i hhost
      obtain rfl := Option.some.inj h
      exact ⟨hvalid.1, hvalid.2, rfl, rfl, rfl, rfl, fun _ => ⟨hhost, rfl⟩,
        fun hother => absurd hmember (Bool.eq_false_iff.1 hother)⟩
  · rw [if_neg hmember] at h
    split at h
    · contradiction
    · rename_i hsome
      obtain rfl := Option.some.inj h
      exact ⟨hvalid.1, hvalid.2, rfl, rfl, rfl, rfl,
        fun hspecial => absurd hspecial hmember, fun _ => ⟨hsome, rfl⟩⟩

theorem isMark_of_not_isKept : ∀ c ∈ ['\t', '\r', '\n', '/', '?', '#'], isMark c = true := by
  have hall : ∀ c ∈ ['\t', '\r', '\n', '/', '?', '#'], c.toNat < 128 ∧ c.isAlpha = false := by
    simp [Char.isAlpha, Char.isUpper, Char.isLower]
  exact fun c hc => isMark_of_ascii (hall c hc).1 (hall c hc).2

theorem isInside_iff :
    (isKept c = true ∧ endsAuthority c = false) ↔ c ∉ ['\t', '\r', '\n', '/', '?', '#'] := by
  simp [isKept, endsAuthority, and_assoc]

theorem IsNormalOf.isBare (h : IsNormalOf u n) (hread : IsRead u)
    (hcheck : checkBrackets u.authority = .ok ()) : IsBare n := by
  have hpath : n.path = u.path ∨ n.path = ['/'] := by
    cases hname : specialSchemes.contains u.scheme with
    | true =>
        rw [(h.special hname).2]
        split
        · exact Or.inr rfl
        · exact Or.inl rfl
    | false => exact Or.inl (h.other hname).2
  refine ⟨⟨?_, ?_, ?_, ?_, ?_⟩, h.query, h.fragment⟩
  · rw [h.scheme]
    exact hread.scheme
  · rw [h.scheme]
    exact hread.lowered
  · intro c hc
    rw [isInside_iff]
    intro hbad
    rw [h.authority] at hc
    obtain hin | hplain := mem_of_mem_normalAuthority hcheck (isMark_of_not_isKept c hbad) hc
    · exact isInside_iff.1 (hread.authority c hin) hbad
    · have hdisjoint : ∀ d ∈ ['@', '[', ']'], d ∉ ['\t', '\r', '\n', '/', '?', '#'] := by simp
      exact hdisjoint c hplain hbad
  · obtain heq | heq := hpath
    · rw [heq]
      exact hread.path
    · rw [heq]
      simp [isKept]
  · intro hne
    obtain heq | heq := hpath
    · rw [heq]
      apply hread.rooted
      rwa [h.authority, ne_eq, normalAuthority_eq_nil_iff] at hne
    · rw [heq]
      exact Or.inr rfl

/-- A normal form that keeps its brackets is its own normal form. -/
theorem IsNormalOf.normal?_normal (h : IsNormalOf u n) (hbare : IsBare n)
    (hcheck : checkBrackets u.authority = .ok ()) (hkeeps : u.KeepsBrackets) :
    n.normal? = some n := by
  obtain ⟨hhost, hvalid, hsame⟩ :=
    normalAuthority_of_keepsBrackets hcheck h.port hkeeps h.authority
  rw [normal?, if_neg (by simp [hvalid, h.scheme, h.absolute]), h.scheme, hsame]
  by_cases hmember : specialSchemes.contains u.scheme = true
  · obtain ⟨hsome, hpath⟩ := h.special hmember
    have hne : n.path ≠ [] := by
      rw [hpath]
      split
      · simp
      · assumption
    rw [if_pos hmember, if_neg (mt hhost.1 hsome), if_neg hne, ← h.scheme, hbare.eq_of_parts]
  · obtain ⟨hsome, hpath⟩ := h.other (by simpa using hmember)
    have hne : ¬(n.authority = [] ∧ n.path = []) := by
      rw [h.authority, normalAuthority_eq_nil_iff, hpath]
      exact hsome
    rw [if_neg hmember, if_neg hne, ← h.scheme, hbare.eq_of_parts]

def IsPlain (t : Url) : Prop :=
  if t.authority = [] then
    t.path ≠ [] ∧ startsWithTwoSlashes t.path = false ∧ authoritySchemes.contains t.scheme = true
  else
    checkAuthority t.authority = .ok () ∧ t.hasValidPort = true ∧ t.normalAuthority = t.authority

/-- What keeps the normal form `v` of the URL as it is when it is normalized again. -/
structure Settled (u : Url) (v : List Char) : Prop where
  last_kept : ∀ c ∈ v.getLast?, isBlank c = false
  brackets_kept : u.KeepsBrackets
  slashes_kept : u.authority = [] → startsWithTwoSlashes u.path = true →
    IsPlain (bodyParts u.scheme u.path)

theorem IsBare.head?_render (hbare : IsBare n) :
    ∃ first rest, n.render = first :: rest ∧ isBlank first = false := by
  have hscheme := isSchemeChar_of_isSchemeName hbare.scheme
  obtain ⟨first, name, hname⟩ := List.exists_cons_of_ne_nil (ne_nil_of_isSchemeName hbare.scheme)
  rw [hbare.render_eq, hname]
  refine ⟨first, _, rfl, ?_⟩
  obtain ⟨hlow, hhigh⟩ := toNat_of_isSchemeChar (hscheme first (by simp [hname]))
  exact isBlank_of_bounds hlow (by omega)

theorem IsBare.strip_render (hbare : IsBare n)
    (hlast : ∀ c ∈ n.render.getLast?, isBlank c = false) : strip n.render = n.render := by
  obtain ⟨first, rest, heq, hfirst⟩ := hbare.head?_render
  have hstrip := @strip_surrounded n.render [] [] (by simp) (by simp) (by simpa [heq] using hfirst)
    hlast (by simp [heq])
  simpa using hstrip

theorem IsBare.render_eq_iff {t : Url} (hbare : IsBare n) (hscheme : t.scheme = n.scheme)
    (hquery : t.query = []) (hfragment : t.fragment = []) :
    t.render = n.render ↔ t.renderBody = n.renderBody := by
  have hne := ne_nil_of_isSchemeName hbare.scheme
  simp [render, hscheme, hne, hquery, hfragment, hbare.query, hbare.fragment]

/-- The second normal form is the first one if the parts read again have a normal form with the same
body. -/
theorem IsBare.normalText?_iff (hbare : IsBare n) (hstrip : strip n.render = n.render) :
    normalText? n.render = some n.render ↔
      checkAuthority n.reread.authority = .ok () ∧
        ∃ m, n.reread.normal? = some m ∧ m.renderBody = n.renderBody := by
  have hrender : n.reread.normal?.map render = some n.render ↔
      ∃ m, n.reread.normal? = some m ∧ m.renderBody = n.renderBody := by
    rw [Option.map_eq_some_iff]
    refine exists_congr fun m => and_congr_right fun hm => ?_
    have hnormal := isNormalOf_of_normal? hm
    exact hbare.render_eq_iff hnormal.scheme hnormal.query hnormal.fragment
  rw [normalText?, hstrip, Url.split, splitWith, cutParts_render hbare, ← hrender]
  cases checkAuthority n.reread.authority with
  | error e => simp [Except.map]
  | ok _ => simp [Except.map]

theorem IsNormalOf.normalText?_of_authority (h : IsNormalOf u n) (hbare : IsBare n)
    (hcheck : checkAuthority u.authority = .ok ()) (hne : u.authority ≠ [])
    (hstrip : strip n.render = n.render) :
    normalText? n.render = some n.render ↔ u.KeepsBrackets := by
  have hne' : n.authority ≠ [] := by rwa [h.authority, ne_eq, normalAuthority_eq_nil_iff]
  rw [hbare.normalText?_iff hstrip, hbare.reread_of_authority hne', h.authority,
    checkAuthority_normalAuthority hcheck h.port]
  refine and_iff_left_of_imp fun hkeeps => ?_
  exact ⟨n, h.normal?_normal hbare (checkAuthority_iff.1 hcheck).1 hkeeps, rfl⟩

theorem host?_of_no_authority (hnone : u.authority = []) : u.host? = none := by
  rw [host?, hnone]
  rfl

theorem hasValidPort_of_no_authority (hnone : u.authority = []) : u.hasValidPort = true := by
  rw [hasValidPort, hnone]
  rfl

theorem normal?_of_other (hscheme : u.scheme ≠ [])
    (hother : specialSchemes.contains u.scheme = false) :
    u.normal? =
      if u.hasValidPort = false ∨ (u.authority = [] ∧ u.path = []) then none
      else some { scheme := u.scheme, authority := u.normalAuthority, path := u.path } := by
  rw [normal?, hother]
  by_cases hport : u.hasValidPort = false
  · simp [hport]
  · simp [hport, hscheme]

theorem normal?_of_no_authority (hscheme : u.scheme ≠ [])
    (hother : specialSchemes.contains u.scheme = false) (hnone : u.authority = []) :
    u.normal? = if u.path = [] then none else some { scheme := u.scheme, path := u.path } := by
  have hauthority : u.normalAuthority = [] := by
    rw [normalAuthority_of_no_host (host?_of_no_authority hnone), hnone]
  rw [normal?_of_other hscheme hother, hauthority]
  simp [hnone, hasValidPort_of_no_authority hnone]

theorem IsNormalOf.of_no_authority (h : IsNormalOf u n) (hnone : u.authority = []) :
    specialSchemes.contains u.scheme = false ∧ u.path ≠ [] ∧ n.authority = [] ∧
      n.path = u.path := by
  have hother : specialSchemes.contains u.scheme = false := by
    rw [Bool.eq_false_iff]
    exact fun hmember => (h.special hmember).1 (host?_of_no_authority hnone)
  obtain ⟨hsome, hpath⟩ := h.other hother
  refine ⟨hother, fun hempty => hsome ⟨hnone, hempty⟩, ?_, hpath⟩
  rw [h.authority, normalAuthority_eq_nil_iff, hnone]

theorem IsNormalOf.normalText?_of_path (h : IsNormalOf u n) (hbare : IsBare n)
    (hnone : u.authority = []) (hslashes : startsWithTwoSlashes u.path = false)
    (hstrip : strip n.render = n.render) : normalText? n.render = some n.render := by
  obtain ⟨hother, hpath, hauthority, hsame⟩ := h.of_no_authority hnone
  obtain ⟨hauthority', hpath', hbody⟩ :=
    reread_of_no_authority hauthority (hsame ▸ hpath) (hsame ▸ hslashes)
  have hscheme : n.reread.scheme = u.scheme := h.scheme
  have hnormal := @normal?_of_no_authority n.reread (hscheme ▸ h.absolute) (hscheme ▸ hother)
    hauthority'
  rw [if_neg hpath'] at hnormal
  rw [hbare.normalText?_iff hstrip, hauthority']
  refine ⟨rfl, _, hnormal, ?_⟩
  rw [← hbody, renderBody, renderBody, hauthority']

theorem renderBody_of_authority (hne : u.authority ≠ []) (hpath : IsMarked '/' u.path) :
    u.renderBody = '/' :: '/' :: (u.authority ++ u.path) := by
  have hrooted : rootedPath u.path = u.path := if_pos hpath
  rw [renderBody, if_pos (Or.inl hne), hrooted]

/-- A URL that keeps its authority and its path in its normal form. -/
theorem isPlain_iff {t : Url} (hscheme : t.scheme ≠ [])
    (hother : specialSchemes.contains t.scheme = false) (hpath : IsMarked '/' t.path) :
    t.IsPlain ↔ checkAuthority t.authority = .ok () ∧
      ∃ m, t.normal? = some m ∧ m.renderBody = '/' :: '/' :: (t.authority ++ t.path) := by
  by_cases hnone : t.authority = []
  · have hrooted : rootedPath t.path = t.path := if_pos hpath
    have hbody : renderBody { scheme := t.scheme, path := t.path } = '/' :: '/' :: t.path ↔
        startsWithTwoSlashes t.path = false ∧ authoritySchemes.contains t.scheme = true := by
      by_cases hadded : authoritySchemes.contains t.scheme = true ∧
          startsWithTwoSlashes t.path = false
      · rw [renderBody, if_pos (Or.inr ⟨hscheme, hadded⟩), hrooted]
        exact iff_of_true rfl hadded.symm
      · rw [renderBody, if_neg (by simpa [hscheme] using hadded)]
        refine iff_of_false (fun heq => ?_) fun h => hadded h.symm
        have hlength := congrArg List.length heq
        simp only [List.length_cons] at hlength
        omega
    have hcheck : checkAuthority t.authority = .ok () := by
      rw [hnone]
      rfl
    rw [IsPlain, if_pos hnone, normal?_of_no_authority hscheme hother hnone, ← hbody, hnone,
      List.nil_append]
    by_cases hempty : t.path = [] <;> simp [hempty, hnone ▸ hcheck]
  · have hbody : renderBody { scheme := t.scheme, authority := t.normalAuthority, path := t.path } =
        '/' :: '/' :: (t.normalAuthority ++ t.path) :=
      renderBody_of_authority (mt normalAuthority_eq_nil_iff.1 hnone) hpath
    rw [IsPlain, if_neg hnone, normal?_of_other hscheme hother]
    cases hport : t.hasValidPort with
    | false => simp
    | true => simp [hnone, hbody]

/-- A path that begins with two slashes is read as an authority and the path behind it. -/
theorem IsNormalOf.normalText?_of_slashes (h : IsNormalOf u n) (hbare : IsBare n)
    (hnone : u.authority = []) (hslashes : startsWithTwoSlashes u.path = true)
    (hstrip : strip n.render = n.render) :
    normalText? n.render = some n.render ↔ IsPlain (bodyParts u.scheme u.path) := by
  obtain ⟨hother, -, hauthority, hsame⟩ := h.of_no_authority hnone
  have hbody : n.renderBody = u.path := by
    rw [renderBody_of_slashes hauthority (hsame ▸ hslashes), hsame]
  have hreread : n.reread = bodyParts u.scheme u.path := by rw [reread, hbody, h.scheme]
  obtain ⟨hnot, -⟩ | ⟨authority, rest, hpath, hcut, -, hends⟩ := cutAuthority_cases u.path
  · rw [hslashes] at hnot
    contradiction
  have hparts : bodyParts u.scheme u.path = { scheme := u.scheme, authority, path := rest } := by
    rw [bodyParts, hcut]
  have hmarked : IsMarked '/' rest := by
    apply isMarked_of_endsAuthority hends
    intro c hc
    apply (hbare.path c _).2
    rw [hsame, hpath]
    simp [hc]
  rw [hbare.normalText?_iff hstrip, hreread, hbody, hparts,
    @isPlain_iff { scheme := u.scheme, authority, path := rest } h.absolute hother hmarked, ← hpath]

theorem getLast?_renderBody (hne : u.path ≠ []) : u.renderBody.getLast? = u.path.getLast? := by
  have hrooted : (rootedPath u.path).getLast? = u.path.getLast? ∧ rootedPath u.path ≠ [] := by
    rw [rootedPath]
    split
    · exact ⟨rfl, hne⟩
    · exact ⟨by rw [List.getLast?_cons_of_ne_nil hne], by simp⟩
  rw [renderBody]
  split
  · rw [← List.cons_append, ← List.cons_append, List.getLast?_append_of_ne_nil _ hrooted.2,
      hrooted.1]
  · rfl

theorem IsBare.strip_render_eq (hbare : IsBare n) :
    ∃ body tail, n.renderBody = body ++ tail ∧ strip n.render = n.scheme ++ ':' :: body ∧
      (∀ c ∈ tail, isBlank c = true) ∧ ∀ c ∈ body.getLast?, isBlank c = false := by
  obtain ⟨first, rest, heq, hfirst⟩ := hbare.head?_render
  obtain ⟨tail, hstrip, htail, hlast⟩ := @strip_spec n.render (by simpa [heq] using hfirst)
  have hsplit : n.scheme ++ [':'] ++ n.renderBody = strip n.render ++ tail := by
    rw [← hstrip, hbare.render_eq]
    simp
  obtain ⟨body, hstart, hbody⟩ | ⟨cutOff, hstart, hend⟩ := List.append_eq_append_iff.1 hsplit
  · refine ⟨body, tail, hbody, by simpa using hstart, htail, ?_⟩
    intro c hc
    apply hlast
    rw [hstart, List.getLast?_append_of_ne_nil _ (List.ne_nil_of_mem (List.mem_of_mem_getLast? hc))]
    exact hc
  · have hnothing : cutOff = [] := by
      by_contra hne
      have hcolon : cutOff.getLast? = some ':' := by
        rw [← List.getLast?_append_of_ne_nil (strip n.render) hne, ← hstart, List.getLast?_concat]
      have hmem : ':' ∈ tail := hend ▸ List.mem_append_left _ (List.mem_of_mem_getLast? hcolon)
      exact absurd (htail ':' hmem) (by simp [isBlank_of_bounds])
    subst hnothing
    exact ⟨[], tail, by simpa using hend.symm, by simpa using hstart.symm, htail, by simp⟩

theorem getLast?_bodyParts {scheme body : List Char} (hne : (bodyParts scheme body).path ≠ []) :
    (bodyParts scheme body).path.getLast? = body.getLast? := by
  rw [bodyParts] at hne ⊢
  obtain ⟨-, hcut⟩ | ⟨authority, rest, hbody, hcut, -⟩ := cutAuthority_cases body
  · simp [hcut]
  · simp only [hcut] at hne ⊢
    rw [hbody, ← List.cons_append, ← List.cons_append, List.getLast?_append_of_ne_nil _ hne]

/-- A body that the normal form of its parts goes on from with white space only is not followed by
any: where the white space would be there stands a path, a bracket or a host. -/
theorem isBlank_of_normal_body {scheme body tail : List Char}
    (hcheck : checkBrackets (bodyParts scheme body).authority = .ok ())
    (h : IsNormalOf (bodyParts scheme body) n) (hgrown : n.renderBody = body ++ tail)
    (htail : ∀ c ∈ tail, isBlank c = true) (hlast : ∀ c ∈ body.getLast?, isBlank c = false) :
    ∀ c ∈ n.renderBody.getLast?, isBlank c = false := by
  by_cases hpath : (bodyParts scheme body).path = []
  · cases hmember : specialSchemes.contains (bodyParts scheme body).scheme with
    | true =>
        have hroot : n.path = ['/'] := by rw [(h.special hmember).2, if_pos hpath]
        rw [getLast?_renderBody (by simp [hroot]), hroot]
        rintro c ⟨⟩
        exact isBlank_of_bounds (by decide) (by decide)
    | false =>
        obtain ⟨hsome, hpath'⟩ := h.other hmember
        have hne : (bodyParts scheme body).authority ≠ [] := fun hnone => hsome ⟨hnone, hpath⟩
        have hne' : n.authority ≠ [] := by rwa [h.authority, ne_eq, normalAuthority_eq_nil_iff]
        have hbody : body = '/' :: '/' :: (bodyParts scheme body).authority := by
          obtain ⟨-, hcut⟩ | ⟨authority, rest, heq, hcut, -⟩ := cutAuthority_cases body
          · simp [bodyParts, hcut] at hne
          · simp only [bodyParts, hcut] at hpath ⊢
            rw [heq, hpath, List.append_nil]
        have hrender : n.renderBody = '/' :: '/' :: n.authority := by
          have hnopath : n.path = [] := hpath'.trans hpath
          rw [renderBody_of_authority hne' (Or.inl hnopath), hnopath, List.append_nil]
        have hgoesOn : (bodyParts scheme body).normalAuthority =
            (bodyParts scheme body).authority ++ tail := by
          rw [hrender, h.authority] at hgrown
          conv at hgrown => rhs; rw [hbody]
          simpa using hgrown
        rw [hrender, h.authority, List.getLast?_cons_cons,
          List.getLast?_cons_of_ne_nil (h.authority ▸ hne')]
        apply getLast?_normalAuthority hcheck hgoesOn htail
        rw [hbody, List.getLast?_cons_cons, List.getLast?_cons_of_ne_nil hne] at hlast
        exact hlast
  · have hpath' : n.path = (bodyParts scheme body).path := by
      cases hmember : specialSchemes.contains (bodyParts scheme body).scheme with
      | true => rw [(h.special hmember).2, if_neg hpath]
      | false => exact (h.other hmember).2
    rw [getLast?_renderBody (by rwa [hpath']), hpath', getLast?_bodyParts hpath]
    exact hlast

theorem isBlank_of_normalText? (hbare : IsBare n)
    (h : normalText? n.render = some n.render) : ∀ c ∈ n.render.getLast?, isBlank c = false := by
  obtain ⟨body, tail, hbody, hstrip, htail, hlast⟩ := hbare.strip_render_eq
  have hchars : ∀ c ∈ body, isKept c = true ∧ c ≠ '?' ∧ c ≠ '#' := by
    intro c hc
    apply hbare.mem_renderBody
    rw [hbody]
    exact List.mem_append_left _ hc
  rw [normalText?, hstrip, Url.split, splitWith,
    cutParts_body hbare.scheme hbare.lowered hchars] at h
  cases hcheck : checkAuthority (bodyParts n.scheme body).authority with
  | error e => simp [hcheck, Except.map] at h
  | ok _ =>
      simp only [hcheck, Except.map, Option.map_eq_some_iff] at h
      obtain ⟨m, hnormal, hsame⟩ := h
      have hnormal' := isNormalOf_of_normal? hnormal
      have hbody' : m.renderBody = n.renderBody :=
        (hbare.render_eq_iff hnormal'.scheme hnormal'.query hnormal'.fragment).1 hsame
      have hend := isBlank_of_normal_body (checkAuthority_iff.1 hcheck).1 hnormal'
        (hbody'.trans hbody) htail hlast
      rw [hbare.render_eq, ← hbody']
      by_cases hempty : m.renderBody = []
      · rw [hempty, List.getLast?_concat]
        rintro c ⟨⟩
        exact isBlank_of_bounds (by decide) (by decide)
      · rwa [List.getLast?_append_of_ne_nil _ (List.cons_ne_nil _ _),
          List.getLast?_cons_of_ne_nil hempty]

/-- A normal form is its own normal form if it does not end in white space, if no host lost its
brackets, and if no path became an authority. -/
theorem normalText?_normal_iff (hread : IsRead u) (hcheck : checkAuthority u.authority = .ok ())
    (h : u.normal? = some n) :
    normalText? n.render = some n.render ↔ u.Settled n.render := by
  have hnormal := isNormalOf_of_normal? h
  have hbare := hnormal.isBare hread (checkAuthority_iff.1 hcheck).1
  constructor
  · intro hsame
    have hlast := isBlank_of_normalText? hbare hsame
    have hstrip := hbare.strip_render hlast
    by_cases hnone : u.authority = []
    · refine ⟨hlast, ?_, ?_⟩
      · intro hbracket
        simp [place, hnone, afterLast, cutLast?] at hbracket
      · intro _ hslashes
        exact (hnormal.normalText?_of_slashes hbare hnone hslashes hstrip).1 hsame
    · exact ⟨hlast, (hnormal.normalText?_of_authority hbare hcheck hnone hstrip).1 hsame,
        fun hnone' => absurd hnone' hnone⟩
  · intro hsettled
    have hstrip := hbare.strip_render hsettled.last_kept
    by_cases hnone : u.authority = []
    · cases hslashes : startsWithTwoSlashes u.path with
      | false => exact hnormal.normalText?_of_path hbare hnone hslashes hstrip
      | true =>
          exact (hnormal.normalText?_of_slashes hbare hnone hslashes hstrip).2
            (hsettled.slashes_kept hnone hslashes)
    · exact (hnormal.normalText?_of_authority hbare hcheck hnone hstrip).2 hsettled.brackets_kept

/-- Normalizing what was normalized changes nothing if and only if it does not end in white space,
no host has lost the brackets that it needs, and no path has become an authority. -/
theorem normalize_normal_iff {s v : String} (h : normalize (.text s) = .ok v) :
    ∃ u, split (strip s.toList) = .ok u ∧
      (normalize (.text v) = .ok v ↔ u.Settled v.toList) := by
  rw [normalize_eq_ok_iff, normalText?] at h
  cases hsplit : Url.split (strip s.toList) with
  | error e => simp [hsplit] at h
  | ok u =>
      simp only [hsplit, Option.map_eq_some_iff] at h
      obtain ⟨n, hnormal, hv⟩ := h
      have hparts : checkAuthority u.authority = .ok () ∧ u = cutParts [] (strip s.toList) := by
        rw [Url.split, splitWith] at hsplit
        cases hcheck : checkAuthority (cutParts [] (strip s.toList)).authority with
        | error e => simp [hcheck, Except.map] at hsplit
        | ok _ =>
            simp only [hcheck, Except.map, Except.ok.injEq] at hsplit
            exact ⟨hsplit ▸ hcheck, hsplit.symm⟩
      have hread : IsRead u := by
        have hscheme := (isNormalOf_of_normal? hnormal).absolute
        rw [hparts.2] at hscheme ⊢
        exact isRead_cutParts hscheme
      refine ⟨u, rfl, ?_⟩
      rw [normalize_eq_ok_iff, ← hv]
      exact normalText?_normal_iff hread hparts.1 hnormal

/-- An address in brackets and a user are kept, and a slash stands last. -/
theorem normalize_settled :
    normalize (.text " HTTP://u@[::A]:80?x") = .ok "http://u@[::a]/" ∧
      normalize (.text "http://u@[::a]/") = .ok "http://u@[::a]/" := by
  have hnormal : normalize (.text " HTTP://u@[::A]:80?x") = .ok "http://u@[::a]/" := by
    decide +kernel
  obtain ⟨u, hsplit, hagain⟩ := normalize_normal_iff hnormal
  have hparts : split (strip " HTTP://u@[::A]:80?x".toList) =
      .ok ⟨"http".toList, "u@[::A]:80".toList, [], ['x'], []⟩ := by decide +kernel
  obtain rfl := Except.ok.inj (hparts.symm.trans hsplit)
  refine ⟨hnormal, hagain.2 ⟨?_, ?_, ?_⟩⟩
  · intro c hc
    obtain rfl : '/' = c := by simpa using hc
    exact isBlank_of_bounds (by decide) (by decide)
  · intro _ hcolon
    exact absurd (by decide +kernel) hcolon
  · intro hnone
    simp at hnone

/-- White space in front of the query is kept at the end of the normal form, and lost the next
time. -/
theorem not_normal_of_blank_before_query :
    normalize (.text "http://a/b ?q") = .ok "http://a/b " ∧
      normalize (.text "http://a/b ") = .ok "http://a/b" ∧
      ¬∀ s v, normalize (.text s) = .ok v → normalize (.text v) = .ok v := by
  have hfirst : normalize (.text "http://a/b ?q") = .ok "http://a/b " := by decide +kernel
  have hsecond : normalize (.text "http://a/b ") = .ok "http://a/b" := by decide +kernel
  refine ⟨hfirst, hsecond, ?_⟩
  intro h
  have hsame := h _ _ hfirst
  rw [hsecond] at hsame
  simp at hsame

end LinkTrail.Url
