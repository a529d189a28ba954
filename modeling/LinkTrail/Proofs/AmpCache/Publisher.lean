import LinkTrail.Proofs.PatternSet.Domains

/-!
Publishers and the hosts of caches. Main statements: labels are read back as the domains they were
made of (`decode_encode`), and made again of what they are read as (`encode_decode`), so the URL of
a cache leads back to the publisher (`publisher?_encoded`), and no label leads to two
(`publisher?_exact`).
-/

namespace LinkTrail.AmpCache

open LinkTrail.Text LinkTrail.Pattern

variable {c : Char} {domain label labels s : List Char}

/-- No dot has a dot or a hyphen right behind it. -/
def IsReadable (domain : List Char) : Prop :=
  domain.IsChain fun c d => c = '.' → d ≠ '.' ∧ d ≠ '-'

theorem decode_hyphen (h : s.head? ≠ some '-') : decode ('-' :: s) = '.' :: decode s := by
  rw [decode]
  rintro rest rfl
  exact h rfl

theorem decode_cons (h : c ≠ '-') : decode (c :: s) = c :: decode s := by
  rw [decode]
  · rintro rest rfl rfl
    exact h rfl
  · exact h

theorem head?_encode_eq_hyphen :
    (encode domain).head? = some '-' ↔ domain.head? = some '-' ∨ domain.head? = some '.' := by
  cases domain with
  | nil => simp [encode]
  | cons c domain =>
      by_cases hhyphen : c = '-'
      · simp [encode, hhyphen]
      · by_cases hdot : c = '.'
        · simp [encode, hdot]
        · simp [encode, hhyphen, hdot]

theorem decode_encode (h : IsReadable domain) : decode (encode domain) = domain := by
  induction domain with
  | nil => rfl
  | cons c domain ih =>
      obtain ⟨hnext, hreadable⟩ := List.isChain_cons.1 h
      have hrest := ih hreadable
      by_cases hhyphen : c = '-'
      · simp [encode, decode, hhyphen, hrest]
      · by_cases hdot : c = '.'
        · have hhead : (encode domain).head? ≠ some '-' := by
            rw [ne_eq, head?_encode_eq_hyphen]
            rintro (hhead | hhead)
            · exact (hnext '-' hhead hdot).2 rfl
            · exact (hnext '.' hhead hdot).1 rfl
          simp [encode, hdot, decode_hyphen hhead, hrest]
        · simp [encode, hhyphen, hdot, decode_cons hhyphen, hrest]

theorem encode_decode (h : '.' ∉ label) : encode (decode label) = label := by
  induction label using decode.induct with
  | case1 rest ih =>
      have hrest := ih fun hmem => h (by simp [hmem])
      simp [decode, encode, hrest]
  | case2 rest hnext ih =>
      have hrest := ih fun hmem => h (by simp [hmem])
      simp [decode, encode, hrest]
  | case3 c rest _ hc ih =>
      have hhyphen : c ≠ '-' := hc
      have hdot : c ≠ '.' := fun heq => h (by simp [heq])
      have hrest := ih fun hmem => h (by simp [hmem])
      simp [decode_cons hhyphen, encode, hhyphen, hdot, hrest]
  | case4 => rfl

theorem encode_ne_nil (h : domain ≠ []) : encode domain ≠ [] := by
  obtain ⟨c, domain, rfl⟩ := List.exists_cons_of_ne_nil h
  rw [encode]
  split_ifs <;> exact List.cons_ne_nil _ _

theorem mem_encode (h : c ∈ encode domain) : c = '-' ∨ c ∈ domain ∧ c ≠ '.' := by
  induction domain with
  | nil => contradiction
  | cons first domain ih =>
      have hrest (hc : c ∈ encode domain) : c = '-' ∨ c ∈ first :: domain ∧ c ≠ '.' :=
        (ih hc).imp_right fun ⟨hmem, hdot⟩ => ⟨List.mem_cons_of_mem _ hmem, hdot⟩
      rw [encode] at h
      split_ifs at h with hhyphen hdot
      · simp only [List.mem_cons, or_self_left] at h
        exact h.elim Or.inl hrest
      · exact (List.mem_cons.1 h).elim Or.inl hrest
      · obtain rfl | hc := List.mem_cons.1 h
        · exact Or.inr ⟨List.mem_cons_self .., hdot⟩
        · exact hrest hc

theorem isLabelChar_of_mem_encode (h : ∀ c ∈ domain, isHostChar c = true) :
    ∀ c ∈ encode domain, isLabelChar c = true := by
  intro c hc
  obtain rfl | ⟨hmem, hdot⟩ := mem_encode hc
  · rfl
  · simpa [isHostChar, hdot] using h c hmem

theorem lowered_encode (h : ∀ c ∈ domain, c.isUpper = false) :
    (encode domain).map Char.toLower = encode domain := by
  have hself : ∀ c ∈ encode domain, c.toLower = id c := by
    intro c hc
    obtain rfl | ⟨hmem, -⟩ := mem_encode hc
    · rfl
    · exact Char.toLower_eq_of_not_isUpper (by simp [h c hmem])
  rw [List.map_congr_left hself, List.map_id]

theorem lowered_of_mem_domains : ∀ domain ∈ domains,
    domain.toList.map Char.toLower = domain.toList := by
  simp [domains]

theorem not_isSuffix_of_mem_domains : ∀ domain ∈ domains, ∀ other ∈ domains,
    ¬('.' :: domain.toList <:+ other.toList) := by
  simp [domains, List.suffix_cons_iff]

theorem not_mem_domains {domain : String} (hdomain : domain ∈ domains) (front : List Char) :
    String.ofList (front ++ '.' :: domain.toList) ∉ domains := by
  intro hmem
  have hsuffix : '.' :: domain.toList <:+ (String.ofList (front ++ '.' :: domain.toList)).toList :=
    ⟨front, String.toList_ofList.symm⟩
  exact not_isSuffix_of_mem_domains domain hdomain _ hmem hsuffix

theorem dot_not_mem (h : ∀ c ∈ label, isLabelChar c = true) : '.' ∉ label := by
  intro hmem
  exact absurd (h '.' hmem) (by decide)

theorem cut_labelled (h : ∀ c ∈ label, isLabelChar c = true) (rest : List Char) :
    (cut '.' (label ++ '.' :: rest)).1 = label := by
  rw [cut_append (dot_not_mem h) (Or.inr rfl)]

def HasHost (url : String) (host : List Char) : Prop :=
  ∃ u, Url.split url.toList = .ok u ∧ u.host? = some host

variable {url other : String} {host : List Char} {l : Url.Location}

theorem HasHost.unique {host' : List Char} (h : HasHost url host) (h' : HasHost url host') :
    host = host' := by
  obtain ⟨u, hsplit, hhost⟩ := h
  obtain ⟨u', hsplit', hhost'⟩ := h'
  obtain rfl : u = u' := Except.ok.inj (hsplit.symm.trans hsplit')
  exact Option.some.inj (hhost.symm.trans hhost')

theorem hasHost_iff (hurl : url.toList = l.text) :
    HasHost url host ↔ host = l.host.map Char.toLower := by
  rw [HasHost, hurl, l.split_text]
  simp [l.host?_parts, eq_comm]

theorem publisher?_of_hasHost (hserves : serves url = true) (hhost : HasHost url host) :
    publisher? url = .ok (publisherAt? host) := by
  obtain ⟨u, hsplit, hu⟩ := hhost
  rw [publisher?, if_pos hserves, hsplit]
  simp [Except.map, hu]

theorem exists_labels_of_serves (hserves : serves url = true) :
    ∃ labels, ∃ domain ∈ domains, HasHost url (labels ++ domain.toList) ∧ IsLabels labels := by
  obtain ⟨l, hurl, -, ⟨domain, hdomain, hhost⟩, -⟩ := PatternSet.cache_serves_iff.1 hserves
  obtain ⟨labels, name, hparts, hname, hlabels⟩ :=
    (isHost_iff_of_isDomain rfl (PatternSet.isDomain_of_cache domain hdomain)).1 hhost
  have hlowered := hlabels.respelled (map_toLower_map_toLower labels)
  refine ⟨_, domain, hdomain, (hasHost_iff hurl).2 ?_, hlowered⟩
  rw [hparts, List.map_append, hname, lowered_of_mem_domains domain hdomain]

theorem publisher?_eq_some_iff (hserves : serves url = true) (hhost : HasHost url host)
    {publisher : String} :
    publisher? url = .ok (some publisher) ↔
      String.ofList host ∉ domains ∧ String.ofList (decode (cut '.' host).1) = publisher := by
  rw [publisher?_of_hasHost hserves hhost, publisherAt?]
  split_ifs with hmem <;> simp [hmem]

theorem serves_of_labels {domain : String} (hlabels : IsLabels labels) (hdomain : domain ∈ domains)
    (hurl : url.toList = l.text)
    (hscheme : ∃ name ∈ ["http", "https", "ws", "wss"], Spells name l.scheme)
    (hhost : l.host.map Char.toLower = (labels ++ domain.toList).map Char.toLower)
    (hline : '\n' ∉ l.rest) : serves url = true := by
  have hname : Spells domain domain.toList := rfl
  have hplain : Parts.IsHost ⟨"*", true, domain, "/*"⟩ (labels ++ domain.toList) :=
    (isHost_iff_of_isDomain rfl (PatternSet.isDomain_of_cache domain hdomain)).2
      ⟨labels, domain.toList, rfl, hname, hlabels⟩
  exact PatternSet.cache_serves_iff.2
    ⟨l, hurl, hscheme, ⟨domain, hdomain, hplain.respelled hhost⟩, hline⟩

/-- The URL of a cache leads back to the domain whose label stands first in its host, in letters of
either case and with anything within one line behind it. -/
theorem publisher?_encoded {publisher scheme port rest : List Char} {domain : String}
    (hne : publisher ≠ []) (hchars : ∀ c ∈ publisher, isHostChar c = true ∧ c.isUpper = false)
    (hreadable : IsReadable publisher) (hdomain : domain ∈ domains)
    (hscheme : ∃ name ∈ ["http", "https", "ws", "wss"], Spells name scheme)
    (hhost : host.map Char.toLower = (encode publisher ++ '.' :: domain.toList).map Char.toLower)
    (hport : IsAnyPort port) (hends : ∀ c ∈ rest.head?, Url.endsAuthority c = true)
    (hline : '\n' ∉ rest) :
    publisher? (String.ofList (scheme ++ "://".toList ++ (host ++ port) ++ rest)) =
      .ok (some (String.ofList publisher)) := by
  have hlabel := isLabelChar_of_mem_encode fun c hc => (hchars c hc).1
  have hlowered : host.map Char.toLower = encode publisher ++ '.' :: domain.toList := by
    rw [hhost, List.map_append, List.map_cons, lowered_encode fun c hc => (hchars c hc).2,
      lowered_of_mem_domains domain hdomain]
    rfl
  have hplain : ∀ c ∈ host, isHostChar c = true := by
    rw [← isHostChar_lowered_iff, hlowered, List.forall_mem_append, List.forall_mem_cons]
    refine ⟨fun c hc => ?_, rfl, (PatternSet.isDomain_of_cache domain hdomain).2⟩
    simp [isHostChar, hlabel c hc]
  have hhostNe : host ≠ [] := by
    rintro rfl
    simp at hhost
  let l : Url.Location := ⟨scheme, host, port, rest, (Url.Location.isAlpha_of_web hscheme).1,
    ⟨hhostNe, hplain⟩, hport, hends⟩
  have hurl : (String.ofList (scheme ++ "://".toList ++ (host ++ port) ++ rest)).toList = l.text :=
    String.toList_ofList
  have hlabels : IsLabels (encode publisher ++ ['.']) := .more (encode_ne_nil hne) hlabel .none
  have hserves : serves _ = true :=
    @serves_of_labels _ _ l domain hlabels hdomain hurl hscheme (by simpa using hhost) hline
  rw [publisher?_eq_some_iff hserves ((hasHost_iff hurl).2 hlowered.symm)]
  refine ⟨not_mem_domains hdomain _, ?_⟩
  rw [cut_labelled hlabel, decode_encode hreadable]

/-- `HTTPS://A--B-C.AMP.CLOUDFLARE.COM:8080?x` -/
theorem publisher?_of_loud_host :
    let publisher := "a-b.c".toList
    let host := "A--B-C.AMP.CLOUDFLARE.COM".toList
    publisher ≠ [] ∧ (∀ c ∈ publisher, isHostChar c = true ∧ c.isUpper = false) ∧
      IsReadable publisher ∧ "amp.cloudflare.com" ∈ domains ∧
      host.map Char.toLower =
        (encode publisher ++ '.' :: "amp.cloudflare.com".toList).map Char.toLower ∧
      IsAnyPort ":8080".toList ∧
      publisher? "HTTPS://A--B-C.AMP.CLOUDFLARE.COM:8080?x" = .ok (some "a-b.c") := by
  intro publisher host
  have hne : publisher ≠ [] := by simp [publisher]
  have hchars : ∀ c ∈ publisher, isHostChar c = true ∧ c.isUpper = false := by
    simp [publisher, isHostChar, isLabelChar]
  have hreadable : IsReadable publisher := by simp [publisher, IsReadable]
  have hdomain : "amp.cloudflare.com" ∈ domains := by simp [domains]
  have hhost : host.map Char.toLower =
      (encode publisher ++ '.' :: "amp.cloudflare.com".toList).map Char.toLower := by
    simp [host, publisher, encode]
  have hport : IsAnyPort ":8080".toList := Or.inr ⟨"8080".toList, by simp⟩
  have hscheme : ∃ name ∈ ["http", "https", "ws", "wss"], Spells name "HTTPS".toList :=
    ⟨"https", by simp, by simp [Spells]⟩
  have hpublisher := @publisher?_encoded host publisher _ _ "?x".toList _ hne hchars hreadable
    hdomain hscheme hhost hport (by simp [Url.endsAuthority]) (by simp)
  have hurl : String.ofList ("HTTPS".toList ++ "://".toList ++ (host ++ ":8080".toList) ++
      "?x".toList) = "HTTPS://A--B-C.AMP.CLOUDFLARE.COM:8080?x" := by
    rw [← String.toList_inj]
    simp [host]
  rw [hurl, String.ofList_toList] at hpublisher
  exact ⟨hne, hchars, hreadable, hdomain, hhost, hport, hpublisher⟩

theorem publisher?_eq_none_iff :
    publisher? url = .ok none ↔
      serves url = false ∨ ∃ domain ∈ domains, HasHost url domain.toList := by
  cases hserves : serves url with
  | false => simp [publisher?, hserves]
  | true =>
      obtain ⟨labels, domain, hdomain, hhost, -⟩ := exists_labels_of_serves hserves
      rw [publisher?_of_hasHost hserves hhost, publisherAt?]
      constructor
      · intro hnone
        split_ifs at hnone with hmem
        · exact Or.inr ⟨_, hmem, by simpa using hhost⟩
        · simp at hnone
      · rintro (hfalse | ⟨own, hown, hhost'⟩)
        · contradiction
        · rw [hhost.unique hhost', String.ofList_toList, if_pos hown]

/-- The publisher of a cache's URL is told by the first label, whatever stands behind it. -/
theorem exists_label_of_publisher {publisher : String}
    (h : publisher? url = .ok (some publisher)) :
    ∃ label labels, ∃ domain ∈ domains,
      HasHost url (label ++ '.' :: (labels ++ domain.toList)) ∧ label ≠ [] ∧
        (∀ c ∈ label, isLabelChar c = true) ∧ IsLabels labels ∧
        encode publisher.toList = label := by
  have hserves : serves url = true := by
    cases hserves : serves url with
    | false => simp [publisher?, hserves] at h
    | true => rfl
  obtain ⟨labels, domain, hdomain, hhost, hlabels⟩ := exists_labels_of_serves hserves
  obtain ⟨hown, hpublisher⟩ := (publisher?_eq_some_iff hserves hhost).1 h
  cases hlabels with
  | none => exact absurd hdomain (by simpa using hown)
  | @more label rest hne hlabel hrest =>
      rw [List.append_assoc, List.cons_append] at hhost hpublisher
      refine ⟨label, rest, domain, hdomain, hhost, hne, hlabel, hrest, ?_⟩
      rw [← hpublisher, cut_labelled hlabel, String.toList_ofList,
        encode_decode (dot_not_mem hlabel)]

/-- Every URL has an answer. There is no publisher where no cache is, and none under the host of a
cache itself; else the publisher's label is the first one of the host, and no other publisher has
the same. -/
theorem publisher?_exact (url other : String) :
    (∃ answer, publisher? url = .ok answer) ∧
      (publisher? url = .ok none ↔
        serves url = false ∨ ∃ domain ∈ domains, HasHost url domain.toList) ∧
      (∀ publisher, publisher? url = .ok (some publisher) →
        ∃ label labels, ∃ domain ∈ domains,
          HasHost url (label ++ '.' :: (labels ++ domain.toList)) ∧ label ≠ [] ∧
            (∀ c ∈ label, isLabelChar c = true) ∧ IsLabels labels ∧
            encode publisher.toList = label) ∧
      (serves url = true → serves other = true →
        ∀ host host', HasHost url host → HasHost other host' →
          ((∃ publisher, publisher? url = .ok (some publisher) ∧
              publisher? other = .ok (some publisher)) ↔
            String.ofList host ∉ domains ∧ String.ofList host' ∉ domains ∧
              (cut '.' host).1 = (cut '.' host').1)) := by
  refine ⟨?_, publisher?_eq_none_iff, fun _ => exists_label_of_publisher, ?_⟩
  · cases hserves : serves url with
    | false => exact ⟨none, by simp [publisher?, hserves]⟩
    | true =>
        obtain ⟨labels, domain, -, hhost, -⟩ := exists_labels_of_serves hserves
        exact ⟨_, publisher?_of_hasHost hserves hhost⟩
  · intro hserves hother host host' hhost hhost'
    simp only [publisher?_eq_some_iff hserves hhost, publisher?_eq_some_iff hother hhost']
    have hinj : decode (cut '.' host).1 = decode (cut '.' host').1 ↔
        (cut '.' host).1 = (cut '.' host').1 := by
      obtain ⟨-, -, hdot, -⟩ := cut_spec '.' host
      obtain ⟨-, -, hdot', -⟩ := cut_spec '.' host'
      constructor
      · intro h
        rw [← encode_decode hdot, h, encode_decode hdot']
      · exact congrArg decode
    rw [← hinj, ← @String.ofList_inj (decode _)]
    constructor
    · rintro ⟨publisher, ⟨hown, rfl⟩, hown', heq⟩
      exact ⟨hown, hown', heq.symm⟩
    · rintro ⟨hown, hown', heq⟩
      exact ⟨_, ⟨hown, rfl⟩, hown', heq.symm⟩

/-- Two caches lead to one publisher, and a text that cannot be cut into parts leads to none. -/
theorem publisher?_of_two_caches :
    let url := "http://a-b.cdn.ampproject.org/x"
    let other := "wss://A-B.c.bing-amp.com?y"
    (∃ publisher, publisher? url = .ok (some publisher) ∧
      publisher? other = .ok (some publisher)) ∧
      Url.split "http://[".toList = .error .brackets ∧ publisher? "http://[" = .ok none := by
  intro url other
  let label := ['a', '-', 'b']
  have hlabel : ∀ c ∈ label, isLabelChar c = true := by simp [label, isLabelChar]
  have hlabels : IsLabels (label ++ ['.']) := .more (by simp [label]) hlabel .none
  have hmore : IsLabels (label ++ '.' :: ['c', '.']) :=
    .more (by simp [label]) hlabel (@IsLabels.more ['c'] [] (by simp) (by simp [isLabelChar]) .none)
  have hdomain : "cdn.ampproject.org" ∈ domains := by simp [domains]
  have hdomain' : "bing-amp.com" ∈ domains := by simp [domains]
  let l : Url.Location := ⟨"http".toList, "a-b.cdn.ampproject.org".toList, [], "/x".toList,
    by simp, by simp [isHostChar, isLabelChar], Or.inl rfl, by simp [Url.endsAuthority]⟩
  let m : Url.Location := ⟨"wss".toList, "A-B.c.bing-amp.com".toList, [], "?y".toList,
    by simp, by simp [isHostChar, isLabelChar], Or.inl rfl, by simp [Url.endsAuthority]⟩
  have hl : url.toList = l.text := by
    simp [url, l, Url.Location.text, Url.Location.front, Url.Location.authority]
  have hm : other.toList = m.text := by
    simp [other, m, Url.Location.text, Url.Location.front, Url.Location.authority]
  have hserves : serves url = true := serves_of_labels hlabels hdomain hl
    ⟨"http", by simp, by simp [l, Spells]⟩ (by simp [l, label]) (by simp [l])
  have hserves' : serves other = true := serves_of_labels hmore hdomain' hm
    ⟨"wss", by simp, by simp [m, Spells]⟩ (by simp [m, label]) (by simp [m])
  have hhost : HasHost url (label ++ '.' :: "cdn.ampproject.org".toList) :=
    (hasHost_iff hl).2 (by simp [l, label])
  have hhost' : HasHost other (label ++ '.' :: ('c' :: '.' :: "bing-amp.com".toList)) :=
    (hasHost_iff hm).2 (by simp [m, label])
  have hbroken : Url.split "http://[".toList = .error .brackets := rfl
  obtain ⟨-, -, -, hsame⟩ := publisher?_exact url other
  obtain ⟨⟨answer, hanswer⟩, -, hsome, -⟩ := publisher?_exact "http://[" other
  refine ⟨(hsame hserves hserves' _ _ hhost hhost').2 ⟨?_, ?_, ?_⟩, hbroken, ?_⟩
  · exact not_mem_domains hdomain label
  · exact not_mem_domains hdomain' (label ++ ['.', 'c'])
  · rw [cut_labelled hlabel, cut_labelled hlabel]
  · -- A publisher would stand in the host of a URL that was cut into parts.
    cases answer with
    | none => exact hanswer
    | some publisher =>
        obtain ⟨_, _, _, _, ⟨u, hsplit, -⟩, -⟩ := hsome publisher hanswer
        rw [hbroken] at hsplit
        cases hsplit

end LinkTrail.AmpCache
