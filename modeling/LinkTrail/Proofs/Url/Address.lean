import LinkTrail.Proofs.Text.Lowered
import LinkTrail.Proofs.Url.Written

namespace LinkTrail

namespace Address

open LinkTrail.Text

variable {c : Char} {s : List Char} {groups : List (List Char)}

theorem isHexDigit_iff : isHexDigit c = true ↔ (0x30 ≤ c.toNat ∧ c.toNat ≤ 0x39) ∨
    (0x61 ≤ c.toNat ∧ c.toNat ≤ 0x66) ∨ (0x41 ≤ c.toNat ∧ c.toNat ≤ 0x46) := by
  simp [isHexDigit, Char.isDigit, Char.le_def, UInt32.le_iff_toNat_le, or_assoc]

@[simp] theorem isHexDigit_toLower (c : Char) : isHexDigit c.toLower = isHexDigit c := by
  by_cases hupper : c.isUpper = true
  · have hbounds : 0x41 ≤ c.toNat ∧ c.toNat ≤ 0x5a := by
      simpa [Char.isUpper, UInt32.le_iff_toNat_le] using hupper
    have htoNat : c.toLower.toNat = c.toNat + 32 := by
      have hvalid : (c.toNat + 32).isValidChar := by
        rw [Nat.isValidChar]
        omega
      rw [Char.toLower_eq_of_isUpper hupper, Char.toNat_ofNat, if_pos hvalid]
    rw [Bool.eq_iff_iff, isHexDigit_iff, isHexDigit_iff, htoNat]
    omega
  · rw [Char.toLower_eq_of_not_isUpper hupper]

theorem isAlphanum_of_isHexDigit (h : isHexDigit c = true) : c.isAlphanum = true := by
  simp only [isHexDigit, Bool.or_eq_true, Bool.and_eq_true, decide_eq_true_eq,
    Char.le_def, UInt32.le_iff_toNat_le] at h
  simp only [Char.isAlphanum, Char.isAlpha, Char.isUpper, Char.isLower, Bool.or_eq_true,
    Bool.and_eq_true, decide_eq_true_eq, ge_iff_le, UInt32.le_iff_toNat_le]
  obtain (h | ⟨hfirst, hlast⟩) | ⟨hfirst, hlast⟩ := h
  · exact Or.inr h
  · exact Or.inl (Or.inr ⟨hfirst, hlast.trans (by decide)⟩)
  · exact Or.inl (Or.inl ⟨hfirst, hlast.trans (by decide)⟩)

theorem natural?_eq_none (hmem : c ∈ s) (hc : asciiDigit? c = none) :
    Decimal.natural? s = none := by
  have hmap : s.mapM asciiDigit? = none := by
    induction s with
    | nil => contradiction
    | cons first s ih =>
        obtain rfl | hmem := List.mem_cons.1 hmem
        · simp [List.mapM_cons, hc]
        · simp [List.mapM_cons, ih hmem]
  rw [Decimal.natural?, hmap]

theorem isDigit_of_asciiDigit? (h : asciiDigit? c ≠ none) : c.isDigit = true := by
  rw [asciiDigit?] at h
  split at h
  · rename_i hbounds
    simpa [Char.isDigit, Char.le_def] using hbounds
  · contradiction

theorem isDigit_of_isOctet (h : isOctet s = true) : ∀ c ∈ s, c.isDigit = true := by
  intro c hc
  apply isDigit_of_asciiDigit?
  intro hnone
  simp [isOctet, natural?_eq_none hc hnone] at h

theorem isDigit_of_isIpv4 (h : isIpv4 s = true) : ∀ c ∈ s, c = '.' ∨ c.isDigit = true := by
  simp only [isIpv4, Bool.and_eq_true, List.all_eq_true] at h
  intro c hc
  rw [or_iff_not_imp_left]
  intro hdot
  obtain ⟨piece, hpiece, hin⟩ := mem_of_split hc hdot
  exact isDigit_of_isOctet (h.2 piece hpiece) c hin

theorem isIpv4_of_colon (h : ':' ∈ s) : isIpv4 s = false := by
  rw [Bool.eq_false_iff]
  intro hdotted
  obtain hdot | hdigit := isDigit_of_isIpv4 hdotted ':' h
  · contradiction
  · contradiction

def lowered (groups : List (List Char)) : List (List Char) := groups.map (List.map Char.toLower)

theorem isHextet_map (s : List Char) : isHextet (s.map Char.toLower) = isHextet s := by
  simp [isHextet, List.all_map, Function.comp_def]

theorem all_isHextet_lowered (groups : List (List Char)) :
    (lowered groups).all isHextet = groups.all isHextet := by
  simp [lowered, List.all_map, Function.comp_def, isHextet_map]

theorem sideLength?_lowered (groups : List (List Char)) :
    sideLength? (lowered groups) = sideLength? groups := by
  have hempty : lowered groups = [[]] ↔ groups = [[]] := by
    simp [lowered, List.map_eq_singleton_iff]
  simp only [sideLength?, hempty, all_isHextet_lowered]
  simp [lowered]

theorem cutSkipped?_lowered (groups : List (List Char)) :
    cutSkipped? (lowered groups) =
      (cutSkipped? groups).map fun (high, low) => (lowered high, lowered low) := by
  cases groups with
  | nil => rfl
  | cons first rest =>
      have hcut : cut? [] (lowered rest).dropLast =
          (cut? [] rest.dropLast).map fun (before, after) => (lowered before, lowered after) := by
        rw [lowered, ← List.map_dropLast]
        exact cut?_map (by simp) _
      rw [lowered, List.map_cons, ← lowered]
      simp only [cutSkipped?, hcut]
      cases cut? [] rest.dropLast with
      | none => rfl
      | some parts => simp [lowered]

theorem areIpv6Groups_lowered (groups : List (List Char)) :
    areIpv6Groups (lowered groups) = areIpv6Groups groups := by
  have hlength : (lowered groups).length = groups.length := by simp [lowered]
  rw [areIpv6Groups, areIpv6Groups, hlength, cutSkipped?_lowered, all_isHextet_lowered]
  cases cutSkipped? groups with
  | none => rfl
  | some parts => simp [sideLength?_lowered]

theorem map_toLower_of_isIpv4 (h : isIpv4 s = true) : s.map Char.toLower = s := by
  have hself : ∀ c ∈ s, c.toLower = id c := by
    intro c hc
    apply toLower_of_not_isAlpha
    obtain rfl | hdigit := isDigit_of_isIpv4 h c hc
    · rfl
    · rw [Bool.eq_false_iff]
      intro halpha
      rw [isDigit_of_isAlpha halpha] at hdigit
      contradiction
  rw [List.map_congr_left hself, List.map_id]

theorem dot_mem_map_toLower : '.' ∈ s.map Char.toLower ↔ '.' ∈ s := by
  rw [List.mem_map]
  constructor
  · rintro ⟨c, hc, hlower⟩
    rwa [← (@toLower_eq_toLower_iff '.' rfl c).1 hlower.symm]
  · exact fun h => ⟨'.', h, rfl⟩

theorem expandDotted?_lowered {expanded : List (List Char)}
    (h : expandDotted? groups = some expanded) :
    expandDotted? (lowered groups) = some (lowered expanded) := by
  induction groups using expandDotted?.induct generalizing expanded with
  | case1 =>
      obtain rfl : [] = expanded := by simpa [expandDotted?] using h
      rfl
  | case2 last hdot hdotted =>
      obtain rfl : [['0'], ['0']] = expanded := by simpa [expandDotted?, hdot, hdotted] using h
      simp [lowered, expandDotted?, hdot, map_toLower_of_isIpv4 hdotted, hdotted]
  | case3 last hdot hdotted => simp [expandDotted?, hdot, hdotted] at h
  | case4 last hdot =>
      obtain rfl : [last] = expanded := by simpa [expandDotted?, hdot] using h
      simp [lowered, expandDotted?, dot_mem_map_toLower, hdot]
  | case5 group groups hne ih =>
      obtain ⟨second, groups, rfl⟩ := List.exists_cons_of_ne_nil hne
      simp only [expandDotted?, Option.map_eq_some_iff] at h
      obtain ⟨rest, hrest, rfl⟩ := h
      have hlowered := ih hrest
      simp only [lowered, List.map_cons] at hlowered ⊢
      simp only [expandDotted?, hlowered, Option.map_some]

theorem mem_of_cutSkipped? {high low : List (List Char)}
    (h : cutSkipped? groups = some (high, low)) :
    ∀ group ∈ groups, group ∈ high ∨ group = [] ∨ group ∈ low := by
  cases groups with
  | nil => simp
  | cons first rest =>
      rw [cutSkipped?] at h
      cases hcut : cut? [] rest.dropLast with
      | none => simp [hcut] at h
      | some parts =>
          obtain ⟨before, after⟩ := parts
          simp only [hcut, Option.some.injEq, Prod.mk.injEq] at h
          obtain ⟨rfl, rfl⟩ := h
          have hrest : rest = before ++ [] :: (after ++ rest.drop (rest.length - 1)) := by
            rw [← List.cons_append, ← List.append_assoc, ← eq_append_of_cut? hcut,
              List.dropLast_eq_take, List.take_append_drop]
          intro group hgroup
          rw [hrest] at hgroup
          simp only [List.mem_cons, List.mem_append] at hgroup ⊢
          tauto

theorem isHexDigit_of_all_isHextet (h : groups.all isHextet = true) :
    ∀ group ∈ groups, ∀ c ∈ group, isHexDigit c = true := by
  intro group hgroup c hc
  have hhextet := List.all_eq_true.1 h group hgroup
  simp only [isHextet, Bool.and_eq_true, List.all_eq_true] at hhextet
  exact hhextet.2 c hc

theorem isHexDigit_of_sideLength? (h : sideLength? groups ≠ none) :
    ∀ group ∈ groups, ∀ c ∈ group, isHexDigit c = true := by
  rw [sideLength?] at h
  split at h
  · simp [*]
  · split at h
    · exact isHexDigit_of_all_isHextet ‹_›
    · contradiction

theorem isHexDigit_of_areIpv6Groups (h : areIpv6Groups groups = true) :
    ∀ group ∈ groups, ∀ c ∈ group, isHexDigit c = true := by
  simp only [areIpv6Groups, Bool.and_eq_true] at h
  cases hcut : cutSkipped? groups with
  | none =>
      simp only [hcut, Bool.and_eq_true] at h
      exact isHexDigit_of_all_isHextet h.2.2
  | some parts =>
      obtain ⟨high, low⟩ := parts
      simp only [hcut] at h
      have hhigh : sideLength? high ≠ none := by
        intro hnone
        simp [hnone] at h
      have hlow : sideLength? low ≠ none := by
        intro hnone
        cases hside : sideLength? high <;> simp [hnone, hside] at h
      intro group hgroup
      obtain hin | rfl | hin := mem_of_cutSkipped? hcut group hgroup
      · exact isHexDigit_of_sideLength? hhigh group hin
      · simp
      · exact isHexDigit_of_sideLength? hlow group hin

theorem mem_of_expandDotted? {expanded : List (List Char)}
    (h : expandDotted? groups = some expanded) :
    ∀ group ∈ groups, group ∈ expanded ∨ isIpv4 group = true := by
  induction groups using expandDotted?.induct generalizing expanded with
  | case1 => simp
  | case2 last hdot hdotted => simp [hdotted]
  | case3 last hdot hdotted => simp [expandDotted?, hdot, hdotted] at h
  | case4 last hdot =>
      obtain rfl : [last] = expanded := by simpa [expandDotted?, hdot] using h
      exact fun group hgroup => Or.inl hgroup
  | case5 group groups hne ih =>
      obtain ⟨second, groups, rfl⟩ := List.exists_cons_of_ne_nil hne
      simp only [expandDotted?, Option.map_eq_some_iff] at h
      obtain ⟨rest, hrest, rfl⟩ := h
      intro other hother
      obtain rfl | hother := List.mem_cons.1 hother
      · exact Or.inl (List.mem_cons_self ..)
      · exact (ih hrest other hother).imp_left (List.mem_cons_of_mem _)

def isGrouped (address : List Char) : Bool :=
  3 ≤ (split ':' address).length && (expandDotted? (split ':' address)).any areIpv6Groups

theorem isIpv6_eq (s : List Char) :
    isIpv6 s =
      match cut? '%' s with
      | none => isGrouped s
      | some (address, zone) => (zone ≠ [] && '%' ∉ zone) && isGrouped address := by
  rw [isIpv6]
  cases cut? '%' s <;> simp [isGrouped, Bool.and_assoc]

theorem isAddress_of_isGrouped (h : isGrouped s = true) :
    ':' ∈ s ∧ ∀ c ∈ s, c = ':' ∨ c = '.' ∨ isHexDigit c = true := by
  simp only [isGrouped, Bool.and_eq_true, decide_eq_true_eq, Option.any_eq_true] at h
  obtain ⟨hlength, expanded, hexpanded, hgroups⟩ := h
  constructor
  · by_contra hcolon
    rw [split_of_not_mem hcolon, List.length_singleton] at hlength
    omega
  · intro c hc
    rw [or_iff_not_imp_left]
    intro hcolon
    obtain ⟨group, hgroup, hin⟩ := mem_of_split hc hcolon
    obtain hmem | hdotted := mem_of_expandDotted? hexpanded group hgroup
    · exact Or.inr (isHexDigit_of_areIpv6Groups hgroups group hmem c hin)
    · obtain hdot | hdigit := isDigit_of_isIpv4 hdotted c hin
      · exact Or.inl hdot
      · simp [isHexDigit, hdigit]

theorem isGrouped_lower (h : isGrouped s = true) : isGrouped (lower s) = true := by
  have hascii : ∀ c ∈ s, c.toNat < 128 := by
    intro c hc
    obtain rfl | rfl | hdigit := (isAddress_of_isGrouped h).2 c hc
    · decide
    · decide
    · exact (Url.toNat_of_isAlphanum (isAlphanum_of_isHexDigit hdigit)).2
  have hcolon : ∀ c : Char, c.toLower = ':' ↔ c = ':' :=
    fun c => eq_comm.trans (@toLower_eq_toLower_iff ':' rfl c)
  simp only [isGrouped, Bool.and_eq_true, decide_eq_true_eq, Option.any_eq_true] at h ⊢
  obtain ⟨hlength, expanded, hexpanded, hgroups⟩ := h
  rw [lower_of_ascii hascii, split_map hcolon, List.length_map]
  refine ⟨hlength, lowered expanded, expandDotted?_lowered hexpanded, ?_⟩
  rwa [areIpv6Groups_lowered]

theorem isFuture_iff :
    isFuture s = true ↔ ∃ version text, s = ('v' :: version ++ ['.']) ++ text ∧ version ≠ [] ∧
      (∀ c ∈ version, isHexDigit c = true) ∧ text ≠ [] ∧ '\n' ∉ text := by
  constructor
  · intro h
    unfold isFuture at h
    split at h
    · rename_i rest
      cases hcut : cut? '.' rest with
      | none => simp [hcut] at h
      | some parts =>
          obtain ⟨version, text⟩ := parts
          simp only [hcut, Bool.and_eq_true, decide_eq_true_eq, List.all_eq_true] at h
          obtain ⟨⟨⟨hversion, hdigits⟩, htext⟩, hline⟩ := h
          refine ⟨version, text, ?_, hversion, hdigits, htext, hline⟩
          simpa using eq_append_of_cut? hcut
    · contradiction
  · rintro ⟨version, text, rfl, hversion, hdigits, htext, hline⟩
    have hdot : '.' ∉ version := fun hmem => absurd (hdigits '.' hmem) (by decide)
    have hcut : cut? '.' (version ++ ['.'] ++ text) = some (version, text) := by
      simpa using cut?_append hdot text
    simp only [isFuture, List.cons_append, hcut]
    simpa [hversion, htext, hline] using hdigits

end Address

namespace Url

open LinkTrail.Text

variable {host address zone front text : List Char} {mark : Char}

theorem exists_zone (host : List Char) :
    ∃ address zone, host = address ++ zone ∧ '%' ∉ address ∧ IsMarked '%' zone := by
  cases hcut : cut? '%' host with
  | none => exact ⟨host, [], by simp, cut?_eq_none_iff.1 hcut, Or.inl rfl⟩
  | some parts =>
      obtain ⟨address, zone⟩ := parts
      exact ⟨address, '%' :: zone, eq_append_of_cut? hcut, not_mem_of_cut? hcut, Or.inr rfl⟩

theorem lowerHost_append (haddress : '%' ∉ address) (hzone : IsMarked '%' zone) :
    lowerHost (address ++ zone) = lower address ++ zone := by
  obtain rfl | ⟨zone, rfl⟩ := isMarked_iff.1 hzone
  · simp [lowerHost, cut?_eq_none_iff.2 haddress]
  · simp [lowerHost, cut?_append haddress]

theorem isMark_percent : isMark '%' = true := isMark_of_ascii (by decide) rfl

@[simp] theorem lowerHost_lowerHost (host : List Char) :
    lowerHost (lowerHost host) = lowerHost host := by
  obtain ⟨address, zone, rfl, haddress, hzone⟩ := exists_zone host
  have hlowered : '%' ∉ lower address := by rwa [mem_lower_iff isMark_percent]
  rw [lowerHost_append haddress hzone, lowerHost_append hlowered hzone, lower_lower]

theorem mem_lowerHost_iff (hmark : isMark mark = true) : mark ∈ lowerHost host ↔ mark ∈ host := by
  obtain ⟨address, zone, rfl, haddress, hzone⟩ := exists_zone host
  rw [lowerHost_append haddress hzone, List.mem_append, mem_lower_iff hmark, List.mem_append]

theorem lowerHost_eq_nil_iff : lowerHost host = [] ↔ host = [] := by
  obtain ⟨address, zone, rfl, haddress, hzone⟩ := exists_zone host
  rw [lowerHost_append haddress hzone, List.append_eq_nil_iff, lower_eq_nil_iff,
    List.append_eq_nil_iff]

theorem getLast?_lowerHost : ∀ d ∈ (lowerHost host).getLast?,
    isMark d = true → host.getLast? = some d := by
  obtain ⟨address, zone, rfl, haddress, hzone⟩ := exists_zone host
  intro d hd hmark
  rw [lowerHost_append haddress hzone] at hd
  by_cases hne : zone = []
  · subst hne
    simp only [List.append_nil] at hd ⊢
    exact getLast?_lowerFrom d hd hmark
  · rw [List.getLast?_append_of_ne_nil _ hne] at hd ⊢
    exact hd

theorem lowerHost_append_of_ascii (hfront : ∀ c ∈ front, c.toNat < 128) (hzone : '%' ∉ front)
    (text : List Char) :
    ∃ lowered, lowerHost (front ++ text) = front.map Char.toLower ++ lowered ∧
      (lowered = [] ↔ text = []) ∧
      ∀ mark, isMark mark = true → (mark ∈ lowered ↔ mark ∈ text) := by
  obtain ⟨address, zone, rfl, haddress, hmarked⟩ := exists_zone text
  have hlowered : lowerHost (front ++ (address ++ zone)) =
      front.map Char.toLower ++ (lowerFrom front.reverse address ++ zone) := by
    rw [← List.append_assoc, lowerHost_append (by simp [hzone, haddress]) hmarked, lower,
      lowerFrom_append_of_ascii hfront, List.append_nil, List.append_assoc]
  refine ⟨_, hlowered, ?_, ?_⟩
  · rw [List.append_eq_nil_iff, lowerFrom_eq_nil_iff, List.append_eq_nil_iff]
  · intro mark hmark
    rw [List.mem_append, mem_lowerFrom_iff hmark, List.mem_append]

theorem isFuture_lowerHost (h : Address.isFuture host = true) :
    Address.isFuture (lowerHost host) = true := by
  obtain ⟨version, text, rfl, hversion, hdigits, htext, hline⟩ := Address.isFuture_iff.1 h
  have hfront : ∀ c ∈ 'v' :: version ++ ['.'], c.toNat < 128 ∧ c ≠ '%' := by
    intro c hc
    simp only [List.mem_append, List.mem_cons, List.not_mem_nil, or_false] at hc
    obtain (rfl | hc) | rfl := hc
    · decide
    · have halnum := Address.isAlphanum_of_isHexDigit (hdigits c hc)
      refine ⟨(toNat_of_isAlphanum halnum).2, ?_⟩
      rintro rfl
      contradiction
    · decide
  obtain ⟨lowered, heq, hempty, hmarks⟩ := lowerHost_append_of_ascii
    (fun c hc => (hfront c hc).1) (fun hmem => (hfront '%' hmem).2 rfl) text
  refine Address.isFuture_iff.2 ⟨version.map Char.toLower, lowered, ?_, by simpa using hversion, ?_,
    by rwa [ne_eq, hempty], ?_⟩
  · rw [heq]
    simp
  · rw [List.forall_mem_map]
    simpa using hdigits
  · rwa [hmarks '\n' (isMark_of_ascii (by decide) rfl)]

theorem isIpv6_append_iff (haddress : '%' ∉ address) (hzone : IsMarked '%' zone) :
    Address.isIpv6 (address ++ zone) = true ↔
      (zone = [] ∨ (zone.tail ≠ [] ∧ '%' ∉ zone.tail)) ∧ Address.isGrouped address = true := by
  rw [Address.isIpv6_eq]
  obtain rfl | ⟨zone, rfl⟩ := isMarked_iff.1 hzone
  · simp [cut?_eq_none_iff.2 haddress]
  · simp [cut?_append haddress]

theorem isIpv6_lowerHost (h : Address.isIpv6 host = true) :
    Address.isIpv6 (lowerHost host) = true := by
  obtain ⟨address, zone, rfl, haddress, hzone⟩ := exists_zone host
  have hlowered : '%' ∉ lower address := by rwa [mem_lower_iff isMark_percent]
  rw [isIpv6_append_iff haddress hzone] at h
  rw [lowerHost_append haddress hzone, isIpv6_append_iff hlowered hzone]
  exact ⟨h.1, Address.isGrouped_lower h.2⟩

theorem isAddress_of_isIpv6 (h : Address.isIpv6 host = true) :
    ':' ∈ host ∧ host.head? ≠ some 'v' := by
  obtain ⟨address, zone, rfl, haddress, hzone⟩ := exists_zone host
  rw [isIpv6_append_iff haddress hzone] at h
  obtain ⟨hcolon, hchars⟩ := Address.isAddress_of_isGrouped h.2
  refine ⟨List.mem_append_left _ hcolon, ?_⟩
  obtain ⟨first, address, rfl⟩ := List.exists_cons_of_ne_nil (List.ne_nil_of_mem hcolon)
  rintro hv
  obtain rfl : first = 'v' := by simpa using hv
  exact absurd (hchars 'v' (List.mem_cons_self ..)) (by decide)

/-- What may stand in brackets: an address of the sixth version or a later one. -/
theorem checkBracketedHost_eq_ok_iff :
    checkBracketedHost host = .ok () ↔
      Address.isFuture host = true ∨ Address.isIpv6 host = true := by
  rw [checkBracketedHost]
  by_cases hv : host.head? = some 'v'
  · have hipv6 : Address.isIpv6 host ≠ true := fun h => (isAddress_of_isIpv6 h).2 hv
    rw [if_pos hv, or_iff_left hipv6]
    cases Address.isFuture host <;> simp
  · have hfuture : Address.isFuture host ≠ true := by
      intro h
      obtain ⟨version, text, rfl, -⟩ := Address.isFuture_iff.1 h
      exact hv rfl
    rw [if_neg hv, or_iff_right hfuture]
    cases hipv6 : Address.isIpv6 host with
    | false => cases Address.isIpv4 host <;> simp
    | true => simp [Address.isIpv4_of_colon (isAddress_of_isIpv6 hipv6).1]

theorem checkBracketedHost_lowerHost (h : checkBracketedHost host = .ok ()) :
    checkBracketedHost (lowerHost host) = .ok () := by
  rw [checkBracketedHost_eq_ok_iff] at h ⊢
  exact h.imp isFuture_lowerHost isIpv6_lowerHost

end Url

end LinkTrail
