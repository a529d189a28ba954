import LinkTrail.Pattern.Parser
import LinkTrail.Proofs.Pattern.Covers

/-!
The grammar of match patterns. Main statements: a text is read as the grammar says and refused
otherwise, and the parts that are read hold all of the text (`parse_iff_reads`).
-/

namespace LinkTrail.Pattern

open LinkTrail.Text

variable {s scheme place host path rest : List Char} {subdomains file : Bool} {name : String}

def IsHostName (host : List Char) : Prop := host ≠ [] ∧ '*' ∉ host ∧ '/' ∉ host

inductive ReadsHost : List Char → Bool → List Char → Prop where
  | any : ReadsHost ['*'] false ['*']
  | exact {host : List Char} (hhost : IsHostName host) : ReadsHost host false host
  | subdomains {host : List Char} (hhost : IsHostName host) :
      ReadsHost ("*.".toList ++ host) true host

inductive Reads : List Char → Pattern → Prop where
  | allUrls : Reads allUrlsText.toList allUrls
  | located {name : String} {scheme place host path : List Char} {subdomains : Bool}
      (hname : name ∈ hostSchemes) (hscheme : Spells name scheme)
      (hhost : ReadsHost place subdomains host) (hpath : '\n' ∉ path) :
      Reads (scheme ++ "://".toList ++ place ++ '/' :: path)
        (parts ⟨name, subdomains, String.ofList host, String.ofList ('/' :: path)⟩)
  | file {scheme path : List Char} (hscheme : Spells "file" scheme) (hpath : '\n' ∉ path) :
      Reads (scheme ++ ":///".toList ++ path)
        (parts ⟨"file", false, "", String.ofList ('/' :: path)⟩)
  | data {scheme path : List Char} (hscheme : Spells "data" scheme) (hne : path ≠ [])
      (hpath : '\n' ∉ path) :
      Reads (scheme ++ ":".toList ++ path) (parts ⟨"data", false, "", String.ofList path⟩)

/-! Letters: what passes for a letter without being one leaves no known scheme. -/

theorem looseLower_of_toLower {c : Char} (h : c.toLower.toNat < 128) :
    looseLower c = c.toLower := by
  unfold looseLower
  split_ifs with hs hi hk
  · subst hs
    exact absurd h (by decide)
  · obtain rfl | rfl := hi
    · exact absurd h (by decide)
    · exact absurd h (by decide)
  · subst hk
    exact absurd h (by decide)
  · rfl

theorem knownScheme_plain (hname : name ∈ knownSchemes) :
    name.toList.map Char.toLower = name.toList ∧ ∀ c ∈ name.toList, c.toNat < 128 ∧ c ≠ ':' := by
  simp only [knownSchemes, List.mem_cons, List.not_mem_nil, or_false] at hname
  rcases hname with rfl | rfl | rfl | rfl | rfl | rfl | rfl | rfl <;> simp

theorem mem_hostSchemes_iff : name ∈ hostSchemes ↔ name ∈ knownSchemes ∧ name ≠ "data" := by
  constructor
  · intro h
    simp only [hostSchemes, List.mem_cons, List.not_mem_nil, or_false] at h
    rcases h with rfl | rfl | rfl | rfl | rfl | rfl | rfl <;> simp [knownSchemes]
  · rintro ⟨hknown, hdata⟩
    simp only [knownSchemes, List.mem_cons, List.not_mem_nil, or_false] at hknown
    simp only [hostSchemes, List.mem_cons, List.not_mem_nil, or_false]
    tauto

theorem spells_iff_of_known (hname : name ∈ knownSchemes) :
    Spells name scheme ↔ scheme.map Char.toLower = name.toList := by
  rw [Spells, (knownScheme_plain hname).1]

theorem looksLike_of_spells (hname : name ∈ knownSchemes) (h : Spells name scheme) :
    scheme.map looseLower = name.toList := by
  rw [spells_iff_of_known hname] at h
  rw [← h]
  apply List.map_congr_left
  intro c hc
  apply looseLower_of_toLower
  apply ((knownScheme_plain hname).2 c.toLower _).1
  rw [← h]
  exact List.mem_map_of_mem hc

theorem not_mem_of_spells (hname : name ∈ knownSchemes) (h : Spells name scheme) :
    ':' ∉ scheme := by
  intro hmem
  have hcolon : ':' ∈ scheme.map Char.toLower := List.mem_map.2 ⟨':', hmem, rfl⟩
  rw [(spells_iff_of_known hname).1 h] at hcolon
  exact ((knownScheme_plain hname).2 ':' hcolon).2 rfl

theorem not_looksLike_of_mem (h : ':' ∈ s) : looksLike allUrlsText s = false := by
  unfold looksLike
  rw [decide_eq_false_iff_not]
  intro heq
  have hcolon : ':' ∈ s.map looseLower := List.mem_map.2 ⟨':', h, by decide⟩
  rw [heq] at hcolon
  exact absurd hcolon (by decide)

theorem ReadsHost.ne_nil (h : ReadsHost place subdomains host) : place ≠ [] := by
  cases h with
  | any => simp
  | exact hhost => exact hhost.1
  | subdomains hhost => simp

theorem ReadsHost.not_mem (h : ReadsHost place subdomains host) : '/' ∉ place := by
  cases h with
  | any => decide
  | exact hhost => exact hhost.2.2
  | subdomains hhost => simpa using hhost.2.2

theorem readHost?_eq_some_iff (hslash : '/' ∉ place) :
    readHost? place = some (subdomains, host) ↔ ReadsHost place subdomains host := by
  constructor
  · intro h
    unfold readHost? at h
    split at h
    · cases h
      exact .any
    · split_ifs at h with hfault
      cases h
      simp only [not_or] at hfault
      exact .subdomains ⟨hfault.1, hfault.2, by simpa using hslash⟩
    · split_ifs at h with hfault
      cases h
      simp only [not_or] at hfault
      exact .exact ⟨hfault.1, hfault.2, hslash⟩
  · intro h
    cases h with
    | any => rfl
    | exact hhost =>
        obtain ⟨hne, hstar, -⟩ := hhost
        unfold readHost?
        split
        · exact absurd (List.mem_cons_self ..) hstar
        · exact absurd (List.mem_cons_self ..) hstar
        · rw [if_neg (not_or.2 ⟨hne, hstar⟩)]
    | subdomains hhost => simp [readHost?, hhost.1, hhost.2.1]

theorem readHostAndPath?_eq_some_iff :
    readHostAndPath? file rest = some (subdomains, host, path) ↔
      ∃ place tail, rest = '/' :: '/' :: (place ++ '/' :: tail) ∧ path = '/' :: tail ∧
        '\n' ∉ tail ∧ (ReadsHost place subdomains host ∨
          file = true ∧ place = [] ∧ subdomains = false ∧ host = []) := by
  constructor
  · intro h
    unfold readHostAndPath? at h
    split at h
    · split at h
      · contradiction
      · rename_i body place tail hcut
        have hslash := not_mem_of_cut? hcut
        rw [eq_append_of_cut? hcut]
        split_ifs at h with hline hfile
        · cases h
          exact ⟨place, tail, rfl, rfl, hline, .inr ⟨hfile.1, hfile.2, rfl, rfl⟩⟩
        · obtain ⟨⟨found, name⟩, hhost, heq⟩ := Option.map_eq_some_iff.1 h
          cases heq
          exact ⟨place, tail, rfl, rfl, hline, .inl ((readHost?_eq_some_iff hslash).1 hhost)⟩
    · contradiction
  · rintro ⟨place, tail, rfl, rfl, hline, hhost | ⟨rfl, rfl, rfl, rfl⟩⟩
    · have hread := (readHost?_eq_some_iff hhost.not_mem).2 hhost
      simp [readHostAndPath?, cut?_append hhost.not_mem, hline, hhost.ne_nil, hread]
    · simp [readHostAndPath?, cut?, hline]

def partsOf? (name : String) (rest : List Char) : Option Parts :=
  if name = "data" then
    if '\n' ∈ rest then none else some ⟨name, false, "", String.ofList rest⟩
  else
    (readHostAndPath? (name = "file") rest).map fun (subdomains, host, path) =>
      ⟨name, subdomains, String.ofList host, String.ofList path⟩

theorem readParts?_of_spells (hname : name ∈ knownSchemes) (h : Spells name scheme) :
    readParts? scheme rest = partsOf? name rest := by
  have hlower : String.ofList (scheme.map Char.toLower) = name := by
    rw [(spells_iff_of_known hname).1 h, String.ofList_toList]
  have hstar : scheme = ['*'] ↔ name = "*" := by
    constructor
    · rintro rfl
      rw [← hlower]
      rfl
    · rintro rfl
      exact (spells_iff_of_marks (by simp)).1 h
  unfold readParts? partsOf? looksLike
  simp only [looksLike_of_spells hname h, hlower, hstar]
  simp only [knownSchemes, List.mem_cons, List.not_mem_nil, or_false] at hname
  rcases hname with rfl | rfl | rfl | rfl | rfl | rfl | rfl | rfl <;> simp

theorem scheme_of_readParts? {p : Parts} (h : readParts? scheme rest = some p) :
    p.scheme = String.ofList (scheme.map Char.toLower) := by
  unfold readParts? at h
  split_ifs at h
  · rw [← Option.some.inj h]
  · obtain ⟨_, _, heq⟩ := Option.map_eq_some_iff.1 h
    rw [← heq]

theorem partsOf?_located (hname : name ∈ hostSchemes) (hhost : ReadsHost place subdomains host)
    (hpath : '\n' ∉ path) :
    partsOf? name ('/' :: '/' :: (place ++ '/' :: path)) =
      some ⟨name, subdomains, String.ofList host, String.ofList ('/' :: path)⟩ := by
  rw [partsOf?, if_neg (mem_hostSchemes_iff.1 hname).2,
    readHostAndPath?_eq_some_iff.2 ⟨place, path, rfl, rfl, hpath, .inl hhost⟩]
  rfl

theorem partsOf?_file (hpath : '\n' ∉ path) :
    partsOf? "file" ('/' :: '/' :: '/' :: path) =
      some ⟨"file", false, "", String.ofList ('/' :: path)⟩ := by
  have hread : readHostAndPath? true ('/' :: '/' :: '/' :: path) =
      some (false, [], '/' :: path) :=
    readHostAndPath?_eq_some_iff.2 ⟨[], path, rfl, rfl, hpath, .inr ⟨rfl, rfl, rfl, rfl⟩⟩
  simp [partsOf?, hread]

theorem partsOf?_data (hpath : '\n' ∉ path) :
    partsOf? "data" path = some ⟨"data", false, "", String.ofList path⟩ := by
  simp [partsOf?, hpath]

/-- What stands behind the colon is a host and a path, the path of a file, or data. -/
theorem reads_of_partsOf? {p : Parts} (hname : name ∈ knownSchemes) (hscheme : Spells name scheme)
    (h : partsOf? name rest = some p) (hpath : p.path ≠ "") :
    Reads (scheme ++ ':' :: rest) (parts p) := by
  unfold partsOf? at h
  split_ifs at h with hdata hline
  · subst hdata
    cases h
    have hne : rest ≠ [] := by simpa using hpath
    simpa using Reads.data hscheme hne hline
  · obtain ⟨⟨subdomains, host, path⟩, hread, rfl⟩ := Option.map_eq_some_iff.1 h
    obtain ⟨place, tail, rfl, rfl, hline, hhost | ⟨hfile, rfl, rfl, rfl⟩⟩ :=
      readHostAndPath?_eq_some_iff.1 hread
    · simpa using Reads.located (mem_hostSchemes_iff.2 ⟨hname, hdata⟩) hscheme hhost hline
    · obtain rfl : name = "file" := by simpa using hfile
      simpa using Reads.file hscheme hline

theorem fault?_eq_none_iff {p : Parts} :
    p.fault? = none ↔ p.scheme ∈ knownSchemes ∧ p.path ≠ "" := by
  unfold Parts.fault?
  split_ifs with hscheme hpath
  · simp [hpath]
  · simp [hscheme, hpath]
  · simp [hscheme]

theorem read_of_colon (hname : name ∈ knownSchemes) (hscheme : Spells name scheme) {p : Parts}
    (hrest : partsOf? name rest = some p) (hp : p.scheme = name) (hpath : p.path ≠ "") :
    read (scheme ++ ':' :: rest) = .ok (parts p) := by
  have hcolon : ':' ∈ scheme ++ ':' :: rest := by simp
  have hne : scheme ++ ':' :: rest ≠ allUrlsText.toList := by
    intro heq
    rw [heq] at hcolon
    exact absurd hcolon (by decide)
  have hcut := cut?_append (not_mem_of_spells hname hscheme) rest
  have hfault : p.fault? = none := fault?_eq_none_iff.2 ⟨by rwa [hp], hpath⟩
  simp [read, hne, not_looksLike_of_mem hcolon, hcut, readParts?_of_spells hname hscheme, hrest,
    hfault]

theorem read_eq_ok_iff {pattern : Pattern} : read s = .ok pattern ↔ Reads s pattern := by
  constructor
  · intro h
    unfold read at h
    split_ifs at h with hall hloose
    · cases h
      rw [hall]
      exact .allUrls
    · split at h
      · contradiction
      · rename_i p hparts
        obtain ⟨⟨scheme, rest⟩, hcut, hread⟩ := Option.bind_eq_some_iff.1 hparts
        change readParts? scheme rest = some p at hread
        split at h
        · contradiction
        · rename_i hfault
          cases h
          obtain ⟨hknown, hpath⟩ := fault?_eq_none_iff.1 hfault
          have hscheme : Spells p.scheme scheme := by
            rw [spells_iff_of_known hknown, scheme_of_readParts? hread, String.toList_ofList]
          rw [readParts?_of_spells hknown hscheme] at hread
          rw [eq_append_of_cut? hcut]
          exact reads_of_partsOf? hknown hscheme hread hpath
  · intro h
    cases h with
    | allUrls => rfl
    | @located name scheme place host path subdomains hname hscheme hhost hpath =>
        have hknown := (mem_hostSchemes_iff.1 hname).1
        simpa using read_of_colon hknown hscheme (partsOf?_located hname hhost hpath) rfl (by simp)
    | file hscheme hpath =>
        simpa using read_of_colon (by decide) hscheme (partsOf?_file hpath) rfl (by simp)
    | data hscheme hne hpath =>
        simpa using read_of_colon (by decide) hscheme (partsOf?_data hpath) rfl (by simpa)

theorem parse_eq_ok_iff {text : String} {pattern : Pattern} :
    parse text = .ok pattern ↔ Reads text.toList pattern := by
  rw [← read_eq_ok_iff, parse]
  cases read text.toList with
  | ok found => simp [Except.mapError]
  | error fault => simp [Except.mapError]

theorem parse_ok_or_error (text : String) :
    (∃ pattern, parse text = .ok pattern) ∨ ∃ fault, parse text = .error ⟨text, fault⟩ := by
  cases h : read text.toList with
  | ok pattern => exact Or.inl ⟨pattern, by simp [parse, h, Except.mapError]⟩
  | error fault => exact Or.inr ⟨fault, by simp [parse, h, Except.mapError]⟩

theorem parse_eq_error {text : String} (h : ¬∃ pattern, Reads text.toList pattern) :
    ∃ fault, parse text = .error ⟨text, fault⟩ := by
  obtain ⟨pattern, hok⟩ | herror := parse_ok_or_error text
  · exact absurd ⟨pattern, parse_eq_ok_iff.1 hok⟩ h
  · exact herror

def Parts.Restores (p : Parts) (s : List Char) : Prop :=
  ∃ scheme rest, s = scheme ++ ':' :: rest ∧ ':' ∉ scheme ∧
    p.scheme.toList = scheme.map Char.toLower ∧ p.render.toList = p.scheme.toList ++ ':' :: rest

structure Parts.Valid (p : Parts) : Prop where
  scheme : p.scheme ∈ knownSchemes
  path : p.path ≠ ""
  rooted : p.hasHost = true → p.path.toList.head? = some '/'
  slash : '/' ∉ p.host.toList
  host : p.host = "" → p.scheme = "file" ∨ p.scheme = "data"
  star : '*' ∈ p.host.toList → p.host = "*"

theorem restores_of_spells {p : Parts} (hknown : p.scheme ∈ knownSchemes)
    (hscheme : Spells p.scheme scheme)
    (hrender : p.render.toList = p.scheme.toList ++ ':' :: rest) :
    p.Restores (scheme ++ ':' :: rest) :=
  ⟨scheme, rest, rfl, not_mem_of_spells hknown hscheme,
    ((spells_iff_of_known hknown).1 hscheme).symm, hrender⟩

theorem ReadsHost.place_eq (h : ReadsHost place subdomains host) :
    place = (if subdomains then "*.".toList else []) ++ host := by
  cases h with
  | any => rfl
  | exact hhost => rfl
  | subdomains hhost => rfl

theorem Reads.restores {p : Parts} (h : Reads s (parts p)) : p.Restores s := by
  cases h with
  | @located name scheme place host path subdomains hname hscheme hhost hpath =>
      have hknown := (mem_hostSchemes_iff.1 hname).1
      have hrender : (Parts.mk name subdomains (String.ofList host)
          (String.ofList ('/' :: path))).render.toList =
          name.toList ++ ':' :: ("//".toList ++ place ++ '/' :: path) := by
        rw [hhost.place_eq]
        cases subdomains <;> simp [Parts.render, Parts.separator, Parts.hasHost, hname]
      simpa using restores_of_spells hknown hscheme hrender
  | @file scheme path hscheme hpath =>
      have hrender : (Parts.mk "file" false "" (String.ofList ('/' :: path))).render.toList =
          "file".toList ++ ':' :: ("//".toList ++ '/' :: path) := by
        simp [Parts.render, Parts.separator, Parts.hasHost, hostSchemes]
      simpa using restores_of_spells (by simp [knownSchemes]) hscheme hrender
  | @data scheme path hscheme hne hpath =>
      have hrender : (Parts.mk "data" false "" (String.ofList path)).render.toList =
          "data".toList ++ ':' :: path := by
        simp [Parts.render, Parts.separator, Parts.hasHost, hostSchemes]
      simpa using restores_of_spells (by simp [knownSchemes]) hscheme hrender

theorem ReadsHost.isHostName (h : ReadsHost place subdomains host) :
    host = ['*'] ∧ subdomains = false ∨ IsHostName host := by
  cases h with
  | any => exact Or.inl ⟨rfl, rfl⟩
  | exact hhost => exact Or.inr hhost
  | subdomains hhost => exact Or.inr hhost

theorem Reads.valid {p : Parts} (h : Reads s (parts p)) : p.Valid := by
  cases h with
  | @located name scheme place host path subdomains hname hscheme hhost hpath =>
      have hknown := (mem_hostSchemes_iff.1 hname).1
      obtain ⟨rfl, rfl⟩ | ⟨hne, hstar, hslash⟩ := hhost.isHostName
      · exact ⟨hknown, by simp, by simp, by simp, by simp, by simp⟩
      · exact ⟨hknown, by simp, by simp, by simpa using hslash, by simp [hne],
          by simp [hstar]⟩
  | @file scheme path hscheme hpath =>
      exact ⟨by simp [knownSchemes], by simp, by simp, by simp, by simp, by simp⟩
  | @data scheme path hscheme hne hpath =>
      exact ⟨by simp [knownSchemes], by simpa using hne, by simp [Parts.hasHost, hostSchemes],
        by simp, by simp, by simp⟩

theorem parse_iff_reads (text : String) :
    (∀ pattern, parse text = .ok pattern ↔ Reads text.toList pattern) ∧
      ((¬∃ pattern, Reads text.toList pattern) → ∃ fault, parse text = .error ⟨text, fault⟩) ∧
      ∀ p, parse text = .ok (parts p) → p.Restores text.toList ∧ p.Valid := by
  refine ⟨fun pattern => parse_eq_ok_iff, parse_eq_error, ?_⟩
  intro p hp
  have hreads := parse_eq_ok_iff.1 hp
  exact ⟨hreads.restores, hreads.valid⟩

theorem parse_restores_located :
    ∃ p, parse "HTTPS://*.Example.org/A*" = .ok (parts p) ∧
      p.Restores "HTTPS://*.Example.org/A*".toList ∧ p.Valid :=
  ⟨⟨"https", true, "Example.org", "/A*"⟩, rfl, (parse_iff_reads _).2.2 _ rfl⟩

end LinkTrail.Pattern
