import LinkTrail.Proofs.Url.Address
import LinkTrail.Proofs.Url.Reread

/-!
Authorities and their normal form. Main statements: the normal form of an authority is its own
normal form (`normalAuthority_normalAuthority`), and it passes the check that the authority passed
unless a host has lost the brackets that it needs (`checkAuthority_normalAuthority`).
-/

namespace LinkTrail.Url

open LinkTrail.Text

variable {u n : Url} {c : Char} {h rest : List Char}

def userMark (user : List Char) : List Char := if user = [] then [] else user ++ ['@']

theorem cutLast?_userMark {place : List Char} (hplace : '@' ∉ place) (user : List Char) :
    cutLast? '@' (userMark user ++ place) = if user = [] then none else some (user, place) := by
  rw [userMark]
  split
  · exact cutLast?_eq_none_iff.2 hplace
  · simpa using cutLast?_append hplace

theorem afterLast_userMark {place : List Char} (hplace : '@' ∉ place) (user : List Char) :
    afterLast '@' (userMark user ++ place) = place := by
  rw [afterLast, cutLast?_userMark hplace]
  split
  · simp [userMark, *]
  · rfl

theorem userInfo_userMark {user place : List Char} (h : u.authority = userMark user ++ place)
    (hplace : '@' ∉ place) : u.userInfo = user := by
  rw [userInfo, h, cutLast?_userMark hplace]
  split
  · simp [*]
  · rfl

def place (u : Url) : List Char := afterLast '@' u.authority

theorem place_spec (u : Url) :
    '@' ∉ u.place ∧ (u.authority = u.place ∧ u.userInfo = [] ∨
      u.authority = u.userInfo ++ '@' :: u.place) := by
  rw [place, userInfo, afterLast]
  cases hcut : cutLast? '@' u.authority with
  | none => exact ⟨cutLast?_eq_none_iff.1 hcut, Or.inl ⟨rfl, rfl⟩⟩
  | some parts =>
      obtain ⟨user, place⟩ := parts
      obtain ⟨heq, hat⟩ := cutLast?_spec hcut
      exact ⟨hat, Or.inr heq⟩

theorem mem_authority_iff (hc : c ≠ '@') :
    c ∈ u.authority ↔ c ∈ u.userInfo ∨ c ∈ u.place := by
  obtain ⟨-, ⟨heq, hnone⟩ | heq⟩ := place_spec u
  · rw [heq, hnone]
    simp
  · rw [heq]
    simp [hc]

theorem checkBrackets_iff {authority : List Char} :
    checkBrackets authority = .ok () ↔
      ('[' ∈ authority ↔ ']' ∈ authority) ∧
        ('[' ∈ authority →
          ∃ host, bracketedHost authority = .ok host ∧ checkBracketedHost host = .ok ()) := by
  rw [checkBrackets]
  by_cases hopening : '[' ∈ authority
  · by_cases hclosing : ']' ∈ authority
    · cases bracketedHost authority <;> simp [hopening, hclosing, bind, Except.bind]
    · simp [hopening, hclosing]
  · by_cases hclosing : ']' ∈ authority <;> simp [hopening, hclosing]

/-- Without an opening bracket behind the user, brackets around it are those of the user, and the
host is checked as if it stood in them. -/
theorem checkBrackets_of_named (hnamed : '[' ∉ u.place) :
    checkBrackets u.authority = .ok () ↔
      ('[' ∈ u.userInfo ↔ ']' ∈ u.userInfo ∨ ']' ∈ u.place) ∧
        ('[' ∈ u.userInfo → checkBracketedHost (cut ':' u.place).1 = .ok ()) := by
  have hhost : bracketedHost u.authority = .ok (cut ':' u.place).1 := by
    rw [bracketedHost, ← place, cut?_eq_none_iff.2 hnamed]
  rw [checkBrackets_iff, hhost, mem_authority_iff (by decide), mem_authority_iff (by decide),
    or_iff_left hnamed]
  simp

/-- With an opening bracket it stands first behind the user, and the host behind it. -/
theorem checkBrackets_of_bracketed (hbracket : '[' ∈ u.place) :
    checkBrackets u.authority = .ok () ↔
      ']' ∈ u.authority ∧ ∃ rest, u.place = '[' :: rest ∧ IsMarked ':' (cut ']' rest).2 ∧
        checkBracketedHost (cut ']' rest).1 = .ok () := by
  have hopening : '[' ∈ u.authority := (mem_authority_iff (by decide)).2 (Or.inr hbracket)
  have hhost (host : List Char) : bracketedHost u.authority = .ok host ↔
      ∃ rest, u.place = '[' :: rest ∧ IsMarked ':' (cut ']' rest).2 ∧ (cut ']' rest).1 = host := by
    rw [bracketedHost, ← place]
    cases hcut : cut? '[' u.place with
    | none => exact absurd hbracket (cut?_eq_none_iff.1 hcut)
    | some parts =>
        obtain ⟨before, rest⟩ := parts
        rw [eq_append_of_cut? hcut]
        cases before with
        | nil =>
            change (if (cut ']' rest).2 = [] ∨ (cut ']' rest).2.head? = some ':' then
              Except.ok (cut ']' rest).1 else Except.error Error.brackets) = Except.ok host ↔ _
            by_cases hmarked : (cut ']' rest).2 = [] ∨ (cut ']' rest).2.head? = some ':'
            · rw [if_pos hmarked]
              simp [IsMarked, hmarked]
            · rw [if_neg hmarked]
              simp [IsMarked, hmarked]
        | cons first before =>
            have hfirst : first ≠ '[' := by
              rintro rfl
              exact absurd (not_mem_of_cut? hcut) (by simp)
            simp [hfirst]
  rw [checkBrackets_iff]
  simp only [hopening, hhost, true_iff, true_imp_iff]
  refine and_congr_right fun _ => ⟨?_, ?_⟩
  · rintro ⟨_, ⟨rest, hplace, hmarked, rfl⟩, hchecked⟩
    exact ⟨rest, hplace, hmarked, hchecked⟩
  · rintro ⟨rest, hplace, hmarked, hchecked⟩
    exact ⟨_, ⟨rest, hplace, hmarked, rfl⟩, hchecked⟩

def spelledHost (u : Url) : List Char := (hostAndPort u.authority).1

theorem host?_eq_some_iff :
    u.host? = some h ↔ u.spelledHost ≠ [] ∧ h = lowerHost u.spelledHost := by
  rw [host?, ← spelledHost]
  cases u.spelledHost with
  | nil => simp
  | cons first rest => simp [eq_comm]

theorem hostAndPort_of_named (hnamed : '[' ∉ u.place) :
    hostAndPort u.authority = cut ':' u.place := by
  have hcut : cut? '[' (afterLast '@' u.authority) = none := cut?_eq_none_iff.2 hnamed
  simp only [hostAndPort, hcut, place]

theorem hostAndPort_of_bracketed (hplace : u.place = '[' :: rest) :
    hostAndPort u.authority = ((cut ']' rest).1, (cut ':' (cut ']' rest).2).2) := by
  have hcut : cut? '[' (afterLast '@' u.authority) = some ([], rest) := by
    rw [← place, hplace]
    exact cut?_append List.not_mem_nil rest
  simp only [hostAndPort, hcut]

theorem hostAndPort_named {host port : List Char} (hplace : u.place = host ++ port)
    (hbracket : '[' ∉ host ++ port) (hcolon : ':' ∉ host) (hport : IsMarked ':' port) :
    hostAndPort u.authority = (host, port.tail) := by
  rw [hostAndPort_of_named (hplace ▸ hbracket), hplace, cut_append hcolon hport]

theorem hostAndPort_bracketed {address port : List Char}
    (hplace : u.place = '[' :: (address ++ ']' :: port)) (hbracket : ']' ∉ address)
    (hport : IsMarked ':' port) : hostAndPort u.authority = (address, port.tail) := by
  have hcut : cut ':' port = ([], port.tail) := cut_append List.not_mem_nil hport
  rw [hostAndPort_of_bracketed hplace, cut_append hbracket (Or.inr rfl), List.tail_cons, hcut]

/-- The host of an authority that passed its check stood in brackets or has none and no colon. -/
theorem spelledHost_cases (hcheck : checkBrackets u.authority = .ok ()) :
    ('[' ∉ u.place ∧ u.spelledHost = (cut ':' u.place).1) ∨
      ∃ rest, u.place = '[' :: rest ∧ u.spelledHost = (cut ']' rest).1 ∧
        checkBracketedHost u.spelledHost = .ok () := by
  by_cases hbracket : '[' ∈ u.place
  · obtain ⟨-, rest, hplace, -, hchecked⟩ := (checkBrackets_of_bracketed hbracket).1 hcheck
    have hhost : u.spelledHost = (cut ']' rest).1 := by
      rw [spelledHost, hostAndPort_of_bracketed hplace]
    exact Or.inr ⟨rest, hplace, hhost, hhost ▸ hchecked⟩
  · refine Or.inl ⟨hbracket, ?_⟩
    rw [spelledHost, hostAndPort_of_named hbracket]

theorem mem_place_of_mem_spelledHost (hcheck : checkBrackets u.authority = .ok ())
    (hc : c ∈ u.spelledHost) : c ∈ u.place := by
  obtain ⟨-, hhost⟩ | ⟨rest, hplace, hhost, -⟩ := spelledHost_cases hcheck
  · obtain ⟨tail, hplace, -⟩ := cut_spec ':' u.place
    rw [hplace, ← hhost]
    exact List.mem_append_left _ hc
  · obtain ⟨tail, hrest, -⟩ := cut_spec ']' rest
    rw [hplace, hrest, ← hhost]
    exact List.mem_cons_of_mem _ (List.mem_append_left _ hc)

theorem isMark_of_mem : ∀ c ∈ ['@', ':', '[', ']', '%', '\n'], isMark c = true := by
  have hall : ∀ c ∈ ['@', ':', '[', ']', '%', '\n'], c.toNat < 128 ∧ c.isAlpha = false := by
    simp [Char.isAlpha, Char.isUpper, Char.isLower]
  exact fun c hc => isMark_of_ascii (hall c hc).1 (hall c hc).2

theorem normalAuthority_of_host (hhost : u.host? = some h) :
    u.normalAuthority = userMark u.userInfo ++ renderHost h := by
  rw [normalAuthority, hhost, userMark]
  by_cases huser : u.userInfo = [] <;> simp [huser]

theorem mem_host_iff {mark : Char} (hhost : u.host? = some h) (hmark : isMark mark = true) :
    mark ∈ h ↔ mark ∈ u.spelledHost := by
  obtain ⟨-, rfl⟩ := host?_eq_some_iff.1 hhost
  exact mem_lowerHost_iff hmark

section

variable (hcheck : checkBrackets u.authority = .ok ()) (hhost : u.host? = some h)
  (hn : n.authority = u.normalAuthority)

include hcheck hhost

theorem at_not_mem_renderHost : '@' ∉ renderHost h := by
  have hat : '@' ∉ h := by
    rw [mem_host_iff hhost (isMark_of_mem '@' (by decide))]
    exact fun hmem => (place_spec u).1 (mem_place_of_mem_spelledHost hcheck hmem)
  rw [renderHost]
  split <;> simp [hat]

include hn

theorem place_normalAuthority : n.place = renderHost h ∧ n.userInfo = u.userInfo := by
  have hat := at_not_mem_renderHost hcheck hhost
  have hauthority := hn.trans (normalAuthority_of_host hhost)
  refine ⟨?_, userInfo_userMark hauthority hat⟩
  rw [place, hauthority, afterLast_userMark hat]

theorem hostAndPort_normalAuthority (hbrackets : ':' ∈ h ∨ '[' ∉ h) :
    hostAndPort n.authority = (h, []) := by
  have hplace := (place_normalAuthority hcheck hhost hn).1
  by_cases hcolon : ':' ∈ h
  · have hclosing : ']' ∉ h := by
      rw [mem_host_iff hhost (isMark_of_mem ']' (by decide))]
      rw [mem_host_iff hhost (isMark_of_mem ':' (by decide))] at hcolon
      obtain ⟨-, hspelled⟩ | ⟨rest, -, hspelled, -⟩ := spelledHost_cases hcheck
      · obtain ⟨tail, -, hnot, -⟩ := cut_spec ':' u.place
        rw [hspelled] at hcolon
        contradiction
      · obtain ⟨tail, -, hnot, -⟩ := cut_spec ']' rest
        rwa [hspelled]
    have hrender : n.place = '[' :: (h ++ ']' :: []) := by rw [hplace, renderHost, if_pos hcolon]
    exact hostAndPort_bracketed hrender hclosing (Or.inl rfl)
  · have hrender : n.place = h ++ [] := by rw [hplace, renderHost, if_neg hcolon, List.append_nil]
    have hopening : '[' ∉ h ++ [] := by simpa using hbrackets.resolve_left hcolon
    exact hostAndPort_named hrender hopening hcolon (Or.inl rfl)

theorem normalAuthority_normalAuthority (hbrackets : ':' ∈ h ∨ '[' ∉ h) :
    n.host? = some h ∧ n.hasValidPort = true ∧ n.normalAuthority = n.authority := by
  have hcut := hostAndPort_normalAuthority hcheck hhost hn hbrackets
  have hagain : n.host? = some h := by
    obtain ⟨hne, rfl⟩ := host?_eq_some_iff.1 hhost
    rw [host?_eq_some_iff, spelledHost, hcut]
    exact ⟨mt lowerHost_eq_nil_iff.1 hne, (lowerHost_lowerHost _).symm⟩
  refine ⟨hagain, by rw [hasValidPort, hcut], ?_⟩
  rw [normalAuthority_of_host hagain, (place_normalAuthority hcheck hhost hn).2,
    hn, normalAuthority_of_host hhost]

end

/-- Without a colon a host loses its brackets. It must not have another bracket then, and those of
the user must still come together. -/
def KeepsBrackets (u : Url) : Prop :=
  '[' ∈ u.place → ':' ∉ u.spelledHost →
    '[' ∉ u.spelledHost ∧ ('[' ∈ u.userInfo ↔ ']' ∈ u.userInfo)

theorem closing_not_mem_port (hport : u.hasValidPort = true) :
    ']' ∉ (hostAndPort u.authority).2 := by
  intro hmem
  rw [hasValidPort] at hport
  cases hdigits : (hostAndPort u.authority).2 with
  | nil => simp [hdigits] at hmem
  | cons first digits =>
      rw [hdigits] at hmem
      simp [hdigits, Address.natural?_eq_none hmem (by decide)] at hport

theorem head?_of_no_colon (hcheck : checkBracketedHost h = .ok ()) (hcolon : ':' ∉ h) :
    h.head? = some 'v' := by
  obtain hfuture | hipv6 := checkBracketedHost_eq_ok_iff.1 hcheck
  · obtain ⟨version, text, rfl, -⟩ := Address.isFuture_iff.1 hfuture
    rfl
  · exact absurd (isAddress_of_isIpv6 hipv6).1 hcolon

section

variable (hcheck : checkBrackets u.authority = .ok ()) (hhost : u.host? = some h)
  (hn : n.authority = u.normalAuthority)

include hcheck hhost hn

theorem checkBrackets_named_again (hport : u.hasValidPort = true) (hnamed : '[' ∉ u.place) :
    checkBrackets n.authority = .ok () := by
  have hspelled : u.spelledHost = (cut ':' u.place).1 := by
    rw [spelledHost, hostAndPort_of_named hnamed]
  obtain ⟨port, hplace, hcolon, hmarked, htail⟩ := cut_spec ':' u.place
  have hcolon' : ':' ∉ h := by
    rw [mem_host_iff hhost (isMark_of_mem ':' (by decide)), hspelled]
    exact hcolon
  have hopening : '[' ∉ h := by
    rw [mem_host_iff hhost (isMark_of_mem '[' (by decide))]
    exact fun hmem => hnamed (mem_place_of_mem_spelledHost hcheck hmem)
  have hclosing : ']' ∈ h ↔ ']' ∈ u.place := by
    have hport' := closing_not_mem_port hport
    rw [hostAndPort_of_named hnamed, htail] at hport'
    rw [mem_host_iff hhost (isMark_of_mem ']' (by decide)), hspelled]
    conv_rhs => rw [hplace]
    obtain rfl | ⟨digits, rfl⟩ := isMarked_iff.1 hmarked
    · simp
    · simpa using fun hmem => absurd hmem hport'
  have hrender : n.place = h := by
    rw [(place_normalAuthority hcheck hhost hn).1, renderHost, if_neg hcolon']
  have huser := (place_normalAuthority hcheck hhost hn).2
  rw [checkBrackets_of_named hnamed, ← hspelled] at hcheck
  rw [checkBrackets_of_named (hrender ▸ hopening), hrender, huser, hclosing,
    cut_of_not_mem hcolon']
  refine ⟨hcheck.1, fun hmem => ?_⟩
  rw [(host?_eq_some_iff.1 hhost).2]
  exact checkBracketedHost_lowerHost (hcheck.2 hmem)

theorem checkBrackets_bracketed_again (hbracket : '[' ∈ u.place) :
    checkBrackets n.authority = .ok () ↔ u.KeepsBrackets := by
  obtain ⟨hnamed, -⟩ | ⟨rest, hplace, hspelled, hchecked⟩ := spelledHost_cases hcheck
  · exact absurd hbracket hnamed
  have hchecked' : checkBracketedHost h = .ok () := by
    rw [(host?_eq_some_iff.1 hhost).2]
    exact checkBracketedHost_lowerHost hchecked
  obtain ⟨hrender, huser⟩ := place_normalAuthority hcheck hhost hn
  have hclosing : ']' ∉ h := by
    rw [mem_host_iff hhost (isMark_of_mem ']' (by decide)), hspelled]
    obtain ⟨tail, -, hnot, -⟩ := cut_spec ']' rest
    exact hnot
  rw [KeepsBrackets, ← mem_host_iff hhost (isMark_of_mem ':' (by decide)),
    ← mem_host_iff hhost (isMark_of_mem '[' (by decide))]
  by_cases hcolon : ':' ∈ h
  · rw [renderHost, if_pos hcolon] at hrender
    have hopening : '[' ∈ n.place := by simp [hrender]
    have hcut : cut ']' (h ++ [']']) = (h, []) := cut_append hclosing (Or.inr rfl)
    refine iff_of_true ((checkBrackets_of_bracketed hopening).2 ⟨?_, h ++ [']'], hrender, ?_, ?_⟩)
      fun _ hnot => absurd hcolon hnot
    · rw [mem_authority_iff (by decide), hrender]
      simp
    · rw [hcut]
      exact Or.inl rfl
    · rw [hcut]
      exact hchecked'
  · rw [renderHost, if_neg hcolon] at hrender
    by_cases hopening : '[' ∈ h
    · have hhead := head?_of_no_colon hchecked' hcolon
      rw [checkBrackets_of_bracketed (hrender ▸ hopening)]
      refine iff_of_false ?_ fun hkeeps => (hkeeps hbracket hcolon).1 hopening
      rintro ⟨-, rest, hfirst, -⟩
      rw [← hrender, hfirst] at hhead
      simp at hhead
    · rw [checkBrackets_of_named (hrender ▸ hopening), hrender, huser, cut_of_not_mem hcolon]
      simp [hbracket, hcolon, hopening, hclosing, hchecked']

theorem checkBrackets_normalAuthority (hport : u.hasValidPort = true) :
    checkBrackets n.authority = .ok () ↔ u.KeepsBrackets := by
  by_cases hbracket : '[' ∈ u.place
  · exact checkBrackets_bracketed_again hcheck hhost hn hbracket
  · exact iff_of_true (checkBrackets_named_again hcheck hhost hn hport hbracket)
      fun hmem => absurd hmem hbracket

end

theorem checkAuthority_iff {authority : List Char} :
    checkAuthority authority = .ok () ↔
      checkBrackets authority = .ok () ∧ ∀ c ∈ authority, c ∉ lookAlikes := by
  have hlook : checkLookAlikes authority = .ok () ↔ ∀ c ∈ authority, c ∉ lookAlikes := by
    rw [checkLookAlikes]
    cases hany : authority.any (· ∈ lookAlikes) with
    | false => simpa using hany
    | true => simpa using hany
  rw [checkAuthority, ← hlook]
  cases checkBrackets authority <;> simp [bind, Except.bind]

theorem normalAuthority_of_no_host (hnone : u.host? = none) : u.normalAuthority = u.authority := by
  rw [normalAuthority, hnone]

theorem mem_userMark_iff {user : List Char} (hc : c ≠ '@') : c ∈ userMark user ↔ c ∈ user := by
  rw [userMark]
  split <;> simp [*]

theorem mem_of_mem_normalAuthority (hcheck : checkBrackets u.authority = .ok ())
    (hmark : isMark c = true) (hc : c ∈ u.normalAuthority) :
    c ∈ u.authority ∨ c ∈ ['@', '[', ']'] := by
  rw [or_iff_not_imp_right]
  intro hplain
  simp only [List.mem_cons, List.not_mem_nil, or_false, not_or] at hplain
  cases hhost : u.host? with
  | none => rwa [normalAuthority_of_no_host hhost] at hc
  | some h =>
      rw [normalAuthority_of_host hhost, List.mem_append, mem_userMark_iff hplain.1] at hc
      rw [mem_authority_iff hplain.1]
      refine hc.imp_right fun hmem => mem_place_of_mem_spelledHost hcheck ?_
      rw [← mem_host_iff hhost hmark]
      rw [renderHost] at hmem
      split at hmem
      · simpa [hplain.2] using hmem
      · exact hmem

/-- An authority that keeps its brackets reads the same in normal form. -/
theorem normalAuthority_of_keepsBrackets (hcheck : checkBrackets u.authority = .ok ())
    (hport : u.hasValidPort = true) (hkeeps : u.KeepsBrackets)
    (hn : n.authority = u.normalAuthority) :
    (n.host? = none ↔ u.host? = none) ∧ n.hasValidPort = true ∧
      n.normalAuthority = n.authority := by
  cases hhost : u.host? with
  | none =>
      rw [normalAuthority_of_no_host hhost] at hn
      have hnone : n.host? = none := by
        rw [host?, hn]
        exact hhost
      have hvalid : n.hasValidPort = true := by
        rw [hasValidPort, hn]
        exact hport
      simp [hnone, hvalid, normalAuthority_of_no_host hnone]
  | some h =>
      have hbrackets : ':' ∈ h ∨ '[' ∉ h := by
        rw [mem_host_iff hhost (isMark_of_mem ':' (by decide)),
          mem_host_iff hhost (isMark_of_mem '[' (by decide)), or_iff_not_imp_left]
        intro hcolon hmem
        exact (hkeeps (mem_place_of_mem_spelledHost hcheck hmem) hcolon).1 hmem
      obtain ⟨hagain, hvalid, hsame⟩ := normalAuthority_normalAuthority hcheck hhost hn hbrackets
      simp [hagain, hvalid, hsame]

theorem spelledHost_ne_nil (hcheck : checkBrackets u.authority = .ok ())
    (hbracket : '[' ∈ u.place) : u.spelledHost ≠ [] := by
  obtain ⟨hnamed, -⟩ | ⟨rest, -, -, hchecked⟩ := spelledHost_cases hcheck
  · exact absurd hbracket hnamed
  · intro hnil
    rw [hnil] at hchecked
    exact absurd hchecked (by decide)

/-- The normal form of an authority passes the check unless the host lost its brackets. -/
theorem checkAuthority_normalAuthority (hcheck : checkAuthority u.authority = .ok ())
    (hport : u.hasValidPort = true) :
    checkAuthority u.normalAuthority = .ok () ↔ u.KeepsBrackets := by
  obtain ⟨hbrackets, hlook⟩ := checkAuthority_iff.1 hcheck
  cases hhost : u.host? with
  | none =>
      rw [normalAuthority_of_no_host hhost]
      refine iff_of_true hcheck fun hbracket => ?_
      rw [Option.eq_none_iff_forall_ne_some] at hhost
      exact absurd (host?_eq_some_iff.2 ⟨spelledHost_ne_nil hbrackets hbracket, rfl⟩) (hhost _)
  | some h =>
      have hagain := @checkBrackets_normalAuthority u { authority := u.normalAuthority } h
        hbrackets hhost rfl hport
      rw [checkAuthority_iff, hagain]
      refine and_iff_left fun c hc hmem => ?_
      have hmark := isMark_of_mem_lookAlikes hmem
      obtain hin | hplain := mem_of_mem_normalAuthority hbrackets hmark hc
      · exact hlook c hin hmem
      · have hascii : ∀ d ∈ ['@', '[', ']'], d.toNat < 128 := by simp
        exact absurd (le_of_mem_lookAlikes hmem) (Nat.not_le.2 (hascii c hplain))

theorem normalAuthority_eq_nil_iff : u.normalAuthority = [] ↔ u.authority = [] := by
  cases hhost : u.host? with
  | none => rw [normalAuthority_of_no_host hhost]
  | some h =>
      obtain ⟨hne, rfl⟩ := host?_eq_some_iff.1 hhost
      have hlowered : renderHost (lowerHost u.spelledHost) ≠ [] := by
        rw [renderHost]
        split
        · simp
        · exact mt lowerHost_eq_nil_iff.1 hne
      refine iff_of_false ?_ ?_
      · rw [normalAuthority_of_host hhost]
        exact List.append_ne_nil_of_right_ne_nil _ hlowered
      · intro hnil
        rw [spelledHost, hnil] at hne
        exact hne rfl

/-- An authority in normal form does not end in white space if it begins with what it is the
normal form of. -/
theorem getLast?_normalAuthority (hcheck : checkBrackets u.authority = .ok ()) {tail : List Char}
    (hgrown : u.normalAuthority = u.authority ++ tail) (htail : ∀ c ∈ tail, isBlank c = true)
    (hlast : ∀ c ∈ u.authority.getLast?, isBlank c = false) :
    ∀ c ∈ u.normalAuthority.getLast?, isBlank c = false := by
  cases hhost : u.host? with
  | none => rwa [normalAuthority_of_no_host hhost]
  | some h =>
      have hat : '@' ∉ tail := fun hmem => absurd (htail '@' hmem) (by decide)
      have hplace : renderHost h = u.place ++ tail := by
        rw [← (@place_normalAuthority u { authority := u.normalAuthority } h hcheck hhost rfl).1,
          place, place, hgrown, afterLast_append_of_not_mem hat]
      rw [normalAuthority_of_host hhost]
      by_cases hcolon : ':' ∈ h
      · have hclosing : userMark u.userInfo ++ renderHost h =
            (userMark u.userInfo ++ '[' :: h) ++ [']'] := by simp [renderHost, hcolon]
        rw [hclosing, List.getLast?_concat]
        rintro c ⟨⟩
        exact isBlank_of_bounds (by decide) (by decide)
      rw [renderHost, if_neg hcolon] at hplace ⊢
      obtain ⟨hne, hlowered⟩ := host?_eq_some_iff.1 hhost
      obtain ⟨-, hspelled⟩ | ⟨rest, hbracket, -, hchecked⟩ := spelledHost_cases hcheck
      · have hwhole : u.spelledHost = u.place := by
          obtain ⟨port, heq, -, hmarked, -⟩ := cut_spec ':' u.place
          obtain rfl | ⟨digits, rfl⟩ := isMarked_iff.1 hmarked
          · rw [hspelled, ← List.append_nil (cut ':' u.place).1, ← heq]
          · refine absurd ?_ hcolon
            rw [hplace, heq]
            simp
        have hlastPlace : u.authority.getLast? = u.place.getLast? := by
          have hne' : u.place ≠ [] := hwhole ▸ hne
          obtain ⟨-, ⟨heq, -⟩ | heq⟩ := place_spec u
          · rw [← heq]
          · rw [heq, List.getLast?_append_of_ne_nil _ (by simp), List.getLast?_cons_of_ne_nil hne']
        have hne' : h ≠ [] := by rwa [hlowered, ne_eq, lowerHost_eq_nil_iff]
        intro c hc
        rw [List.getLast?_append_of_ne_nil _ hne', hlowered] at hc
        by_contra hblank
        have hlast' := getLast?_lowerHost c hc (isMark_of_isBlank (by simpa using hblank))
        rw [hwhole, ← hlastPlace] at hlast'
        exact hblank (hlast c hlast')
      · have hhead : h.head? = some 'v' :=
          head?_of_no_colon (hlowered ▸ checkBracketedHost_lowerHost hchecked) hcolon
        rw [hplace, hbracket] at hhead
        simp at hhead

end LinkTrail.Url
