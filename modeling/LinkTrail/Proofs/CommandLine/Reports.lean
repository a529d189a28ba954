import LinkTrail.CommandLine.Run
import LinkTrail.Proofs.Transport.Together
import Mathlib.Data.List.Basic

/-!
What a resolve command reports. Main statement: it prints one record for each URL, the one that the
URL has by itself, exactly if each of the chains by itself ends, and at no location that cannot be read
(`resolve_reports_iff`).
-/

namespace LinkTrail.CommandLine

/-- The URLs among the arguments, each once and in the order in which they come up first; only short
links if that is wanted. -/
structure IsListing (urls : List String) (shortOnly : Bool) (listed : List String) : Prop where
  mem_iff : ∀ url, url ∈ listed ↔ url ∈ urls ∧ (shortOnly = true → Shortener.serves url = true)
  ordered : listed.Pairwise fun first second => urls.idxOf first < urls.idxOf second

theorem pairwise_eraseDups (urls : List String) :
    urls.eraseDups.Pairwise fun first second => urls.idxOf first < urls.idxOf second := by
  induction urls using List.reverseRecOn with
  | nil => exact .nil
  | append_singleton urls url ih =>
      have hsame : ∀ other ∈ urls.eraseDups, (urls ++ [url]).idxOf other = urls.idxOf other :=
        fun other hmem => List.idxOf_append_of_mem (List.mem_eraseDups.1 hmem)
      have hold : urls.eraseDups.Pairwise fun first second =>
          (urls ++ [url]).idxOf first < (urls ++ [url]).idxOf second := by
        refine ih.imp_of_mem fun hfirst hsecond hlt => ?_
        rw [hsame _ hfirst, hsame _ hsecond]
        exact hlt
      rw [List.eraseDups_append]
      by_cases hmem : url ∈ urls
      · have hnone : [url].removeAll urls = [] := by simp [List.removeAll, hmem]
        rw [hnone, List.eraseDups_nil, List.append_nil]
        exact hold
      · have hnew : [url].removeAll urls = [url] := by simp [List.removeAll, hmem]
        rw [hnew, List.pairwise_append]
        refine ⟨hold, by simp [List.eraseDups_cons], ?_⟩
        intro first hfirst second hsecond
        obtain rfl : second = url := by simpa [List.eraseDups_cons] using hsecond
        rw [hsame first hfirst, List.idxOf_append_of_notMem hmem, List.idxOf_cons_self]
        exact List.idxOf_lt_length_of_mem (List.mem_eraseDups.1 hfirst)

theorem isListing_wanted (urls : List String) (shortOnly : Bool) :
    IsListing urls shortOnly (wanted urls shortOnly) := by
  unfold wanted
  cases shortOnly with
  | false => exact ⟨fun url => by simp, pairwise_eraseDups urls⟩
  | true => exact ⟨fun url => by simp, (pairwise_eraseDups urls).filter _⟩

theorem IsListing.nodup {urls listed : List String} {shortOnly : Bool}
    (h : IsListing urls shortOnly listed) : listed.Nodup := by
  refine h.ordered.imp ?_
  rintro first second hlt rfl
  exact Nat.lt_irrefl _ hlt

theorem wanted_singleton {url : String} {shortOnly : Bool}
    (h : shortOnly = true → Shortener.serves url = true) : wanted [url] shortOnly = [url] := by
  unfold wanted
  cases shortOnly with
  | false => rfl
  | true => simp [List.eraseDups_cons, h]

/-- The record of a URL, told by whether its chain has failed: the destination, or an error that says
something. -/
inductive IsRecord (url : String) : (failed : Bool) → (line : String) → Prop where
  | arrived (destination : String) :
      IsRecord url false
        (recordLine [("source", .text url), ("destination", .text destination)])
  | failed {error : String} (telling : error ≠ "") :
      IsRecord url true
        (recordLine [("source", .text url), ("destination", .null), ("error", .text error)])

/-- The report has one record for each URL, the one which a report on that URL alone has, and nothing
else; its code says whether any chain has failed. -/
def Reports (reply : String → Reply) (urls : List String) (settings : Settings) (shortOnly : Bool)
    (report : Report) : Prop :=
  ∃ (listed : List String) (failed : String → Bool) (line : String → String),
    IsListing urls shortOnly listed ∧
    report.output = String.join (listed.map line) ∧ report.errors = "" ∧
    report.code = (if listed.any failed then 1 else 0) ∧
    ∀ url ∈ listed, IsRecord url (failed url) (line url) ∧
      ∃ alone, (Command.resolve [url] settings shortOnly).run reply = some (.ok alone) ∧
        alone.output = line url ∧ alone.code = if failed url then 1 else 0

variable {reply : String → Reply} {urls : List String} {settings : Settings} {shortOnly : Bool}
  {limit : Seconds} {url : String} {outcome : Outcome}

theorem isRecord_of_isOf (h : outcome.IsOf url) (hknown : outcome.strayFailure? = none) :
    IsRecord url outcome.isFailed (outcomeLine url outcome) := by
  cases h with
  | arrived destination => exact .arrived destination
  | failed source => exact .failed (Failure.message_ne_empty source)
  | badUrl cause => contradiction

theorem strayFailure?_eq_none_iff (h : outcome.IsOf url) :
    outcome.strayFailure? = none ↔ ∀ cause, outcome ≠ .failed (.badUrl cause) := by
  cases h with
  | arrived destination => simp [Outcome.strayFailure?]
  | @failed failure source =>
      refine iff_of_true ?_ ?_
      · simp [Outcome.strayFailure?, source]
      · rintro cause heq
        cases heq
        contradiction
  | badUrl cause => exact iff_of_false (by simp [Outcome.strayFailure?, Failure.source?]) (by simp)

theorem known_of_outcomeLines {outcomes : List (String × Outcome)} {lines : List String}
    (h : outcomeLines outcomes = .ok lines) :
    ∀ asked ∈ outcomes, asked.2.strayFailure? = none := by
  induction outcomes generalizing lines with
  | nil => simp
  | cons asked outcomes ih =>
      obtain ⟨url, outcome⟩ := asked
      rw [outcomeLines] at h
      cases hfirst : outcome.strayFailure? with
      | some failure =>
          rw [hfirst] at h
          contradiction
      | none =>
          rw [hfirst] at h
          cases hrest : outcomeLines outcomes with
          | error failure =>
              rw [hrest] at h
              contradiction
          | ok rest => exact List.forall_mem_cons.2 ⟨hfirst, ih hrest⟩

theorem outcomeLines_of_known {fate : String → Outcome} {urls : List String}
    (h : ∀ url ∈ urls, (fate url).strayFailure? = none) :
    outcomeLines (urls.map fun url => (url, fate url)) =
      .ok (urls.map fun url => outcomeLine url (fate url)) := by
  induction urls with
  | nil => rfl
  | cons url urls ih =>
      obtain ⟨hfirst, hrest⟩ := List.forall_mem_cons.1 h
      rw [List.map_cons, outcomeLines, hfirst, ih hrest]
      rfl

abbrev transport (reply : String → Reply) (settings : Settings) : Transport :=
  { settings := settings, reply := reply }

theorem mapM_eq_some_iff {α β : Type} {f : α → Option β} {xs : List α} {ys : List β} :
    xs.mapM f = some ys ↔ xs.map f = ys.map some := by
  induction xs generalizing ys with
  | nil => cases ys <;> simp
  | cons x xs ih =>
      rw [List.mapM_cons, List.map_cons]
      cases hx : f x with
      | none => cases ys <;> simp
      | some y =>
          cases hxs : xs.mapM f with
          | none =>
              have hnever := fun zs => mt (@ih zs).2
              cases ys with
              | nil => simp
              | cons z zs => simp [hnever zs (by simp [hxs])]
          | some zs =>
              have hzs := (@ih zs).1 hxs
              cases ys <;> simp [hzs, (Option.some_injective β).list_map.eq_iff]

theorem outcomes?_eq (htimed : settings.timeout = some limit) (hnodup : urls.Nodup) :
    outcomes? ((transport reply settings).resolveAll urls).1 urls =
      urls.mapM fun url => ((transport reply settings).fate? limit url).map (url, ·) := by
  obtain ⟨-, houtcome⟩ := (transport reply settings).outcome?_resolveAll limit rfl htimed hnodup
  have hpairs : ∀ asked ∈ urls.zipIdx,
      (Transport.outcome? ((transport reply settings).resolveAll urls).1 asked.2).map (asked.1, ·) =
        ((transport reply settings).fate? limit asked.1).map (asked.1, ·) := by
    intro asked hasked
    rw [houtcome asked.2 asked.1 (List.mem_zipIdx_iff_getElem?.1 hasked)]
  apply Option.ext
  intro pairs
  rw [outcomes?, mapM_eq_some_iff, mapM_eq_some_iff, List.map_congr_left hpairs]
  conv_rhs => rw [← List.zipIdx_map_fst 0 urls, List.map_map]
  rfl

theorem resolve_fst (htimed : settings.timeout = some limit) (url : String) :
    ((transport reply settings).resolve url).1 = .ok ((transport reply settings).fate? limit url) := by
  obtain ⟨hnone, houtcome⟩ := (transport reply settings).outcome?_resolveAll limit rfl htimed
    (List.nodup_singleton url)
  have hfate := houtcome 0 url rfl
  unfold Transport.resolve
  rcases hresolved : (transport reply settings).resolveAll [url] with ⟨p, refusal?⟩
  rw [hresolved] at hnone hfate
  obtain rfl : refusal? = none := hnone
  exact congrArg Except.ok hfate

theorem resolve_eq (htimed : settings.timeout = some limit) :
    resolve reply urls settings shortOnly =
      let t := transport reply settings
      let listed := wanted urls shortOnly
      if listed = [] then some (.ok {})
      else (listed.mapM fun url => (t.fate? limit url).map (url, ·)).map fun outcomes =>
        (outcomeLines outcomes).map fun lines =>
          { code := if outcomes.any fun asked => asked.2.isFailed then 1 else 0
            output := String.join lines
            errand? := some
              { settings, fetched := (t.resolveAll listed).1.web.fetched.eraseDups.mergeSort } } := by
  dsimp only
  rw [← outcomes?_eq htimed (isListing_wanted urls shortOnly).nodup]
  rfl

theorem resolve_of_known {fate : String → Outcome} (htimed : settings.timeout = some limit)
    (hfate : ∀ url ∈ wanted urls shortOnly,
      (transport reply settings).fate? limit url = some (fate url))
    (hknown : ∀ url ∈ wanted urls shortOnly, (fate url).strayFailure? = none) :
    ∃ report, resolve reply urls settings shortOnly = some (.ok report) ∧
      report.output =
        String.join ((wanted urls shortOnly).map fun url => outcomeLine url (fate url)) ∧
      report.errors = "" ∧
      report.code = if (wanted urls shortOnly).any fun url => (fate url).isFailed then 1 else 0 := by
  have houtcomes : (wanted urls shortOnly).mapM
      (fun url => ((transport reply settings).fate? limit url).map (url, ·)) =
        some ((wanted urls shortOnly).map fun url => (url, fate url)) := by
    rw [mapM_eq_some_iff, List.map_map]
    exact List.map_congr_left fun url hmem => by rw [hfate url hmem]; rfl
  rw [resolve_eq htimed]
  dsimp only
  split
  · rename_i hnone
    rw [hnone]
    exact ⟨{}, rfl, rfl, rfl, rfl⟩
  · rw [houtcomes, Option.map_some, outcomeLines_of_known hknown, List.any_map]
    exact ⟨_, rfl, rfl, rfl, rfl⟩

theorem reports_of_known {fate : String → Outcome} (htimed : settings.timeout = some limit)
    (hfate : ∀ url ∈ wanted urls shortOnly,
      (transport reply settings).fate? limit url = some (fate url))
    (hknown : ∀ url ∈ wanted urls shortOnly, (fate url).strayFailure? = none) :
    ∃ report, resolve reply urls settings shortOnly = some (.ok report) ∧
      Reports reply urls settings shortOnly report := by
  have hlisting := isListing_wanted urls shortOnly
  obtain ⟨report, hreport, houtput, herrors, hcode⟩ := resolve_of_known htimed hfate hknown
  refine ⟨report, hreport, wanted urls shortOnly, fun url => (fate url).isFailed,
    fun url => outcomeLine url (fate url), hlisting, houtput, herrors, hcode, ?_⟩
  intro url hmem
  have hisOf := (transport reply settings).isOf_fate limit (hfate url hmem)
  refine ⟨isRecord_of_isOf hisOf (hknown url hmem), ?_⟩
  have hsingle := wanted_singleton ((hlisting.mem_iff url).1 hmem).2
  obtain ⟨alone, halone, hline, -, hfailed⟩ :=
    @resolve_of_known reply [url] settings shortOnly limit fate htimed
      (by
        rw [hsingle]
        exact List.forall_mem_singleton.2 (hfate url hmem))
      (by
        rw [hsingle]
        exact List.forall_mem_singleton.2 (hknown url hmem))
  rw [hsingle] at hline hfailed
  exact ⟨alone, halone, by simpa using hline, by simpa using hfailed⟩

theorem known_of_resolve (htimed : settings.timeout = some limit) {report : Report}
    (h : resolve reply urls settings shortOnly = some (.ok report)) :
    ∀ url ∈ wanted urls shortOnly, ∃ outcome,
      (transport reply settings).fate? limit url = some outcome ∧ outcome.strayFailure? = none := by
  rw [resolve_eq htimed] at h
  dsimp only at h
  split at h
  · rename_i hnone
    simp [hnone]
  · obtain ⟨outcomes, houtcomes, hreport⟩ := Option.map_eq_some_iff.1 h
    rw [mapM_eq_some_iff] at houtcomes
    cases hlines : outcomeLines outcomes with
    | error failure =>
        rw [hlines] at hreport
        contradiction
    | ok lines =>
        intro url hmem
        have hpair := List.mem_map_of_mem
          (f := fun url => ((transport reply settings).fate? limit url).map (url, ·)) hmem
        rw [houtcomes] at hpair
        obtain ⟨asked, hasked, heq⟩ := List.mem_map.1 hpair
        obtain ⟨outcome, hfate, rfl⟩ := Option.map_eq_some_iff.1 heq.symm
        exact ⟨outcome, hfate, known_of_outcomeLines hlines _ hasked⟩

theorem exists_of_bind {ε α β : Type} {x : Except ε α} {f : α → Except ε β} {b : β}
    (h : (x >>= f) = .ok b) : ∃ a, x = .ok a ∧ f a = .ok b := by
  cases x with
  | error e => contradiction
  | ok a => exact ⟨a, rfl, h⟩

theorem exists_timeout_of_read {name : String} {words : List String} {strays : Bool}
    (h : readCommand name words = .ok (.resolve urls settings shortOnly, strays)) :
    ∃ limit, settings.timeout = some limit := by
  unfold readCommand at h
  split at h
  · obtain ⟨g, -, h⟩ := exists_of_bind h
    dsimp only at h
    split at h
    · contradiction
    · cases h
  · obtain ⟨g, -, h⟩ := exists_of_bind h
    cases h
  · obtain ⟨g, -, h⟩ := exists_of_bind h
    cases h
  · obtain ⟨g, -, h⟩ := exists_of_bind h
    cases h
  · obtain ⟨g, -, h⟩ := exists_of_bind h
    cases h
    exact ⟨_, rfl⟩
  · contradiction

theorem exists_timeout {words : List String}
    (h : Command.ofWords words = .ok (.resolve urls settings shortOnly)) :
    ∃ limit, settings.timeout = some limit := by
  obtain ⟨readings, -, h⟩ := exists_of_bind h
  obtain ⟨⟨g, name, rest⟩, -, h⟩ := exists_of_bind h
  obtain ⟨⟨command, strays⟩, hread, h⟩ := exists_of_bind h
  dsimp only at h
  split at h
  · contradiction
  · obtain rfl : command = .resolve urls settings shortOnly := Except.ok.inj h
    exact exists_timeout_of_read hread

/-- A resolve command reports on every URL, whatever the answers and the options are, exactly if each
chain by itself ends, and at no location that cannot be read. Only without a limit of time does a chain
not end. -/
theorem resolve_reports_iff (reply : String → Reply) (words urls : List String) (settings : Settings)
    (shortOnly : Bool) (hwords : Command.ofWords words = .ok (.resolve urls settings shortOnly)) :
    ((∃ report, run reply words = some (.ok report) ∧
        Reports reply urls settings shortOnly report) ↔
      ∀ url ∈ urls, (shortOnly = true → Shortener.serves url = true) →
        ∃ outcome, ((transport reply settings).resolve url).1 = .ok (some outcome) ∧
          ∀ cause, outcome ≠ .failed (.badUrl cause)) ∧
    ∀ url, ((transport reply settings).resolve url).1 = .ok none →
      ∃ limit, settings.timeout = some limit ∧ Seconds.endOfTime ≤ limit := by
  obtain ⟨limit, htimed⟩ := exists_timeout hwords
  have hrun : run reply words = resolve reply urls settings shortOnly := by
    rw [run, hwords]
    rfl
  have hisOf := fun url outcome => @(transport reply settings).isOf_fate limit url outcome
  have hlisting := isListing_wanted urls shortOnly
  rw [hrun]
  refine ⟨⟨?_, ?_⟩, ?_⟩
  · rintro ⟨report, hreport, -⟩ url hurl hserves
    obtain ⟨outcome, hfate, hknown⟩ :=
      known_of_resolve htimed hreport url ((hlisting.mem_iff url).2 ⟨hurl, hserves⟩)
    rw [resolve_fst htimed, hfate]
    exact ⟨outcome, rfl, (strayFailure?_eq_none_iff (hisOf url outcome hfate)).1 hknown⟩
  · intro hends
    have hmany : ∀ url ∈ wanted urls shortOnly, ∃ outcome,
        (transport reply settings).fate? limit url = some outcome ∧ outcome.strayFailure? = none := by
      intro url hmem
      obtain ⟨hurl, hserves⟩ := (hlisting.mem_iff url).1 hmem
      obtain ⟨outcome, hresolved, hreadable⟩ := hends url hurl hserves
      rw [resolve_fst htimed] at hresolved
      have hfate := Except.ok.inj hresolved
      exact ⟨outcome, hfate, (strayFailure?_eq_none_iff (hisOf url outcome hfate)).2 hreadable⟩
    have : Nonempty Outcome := ⟨.failed .refused⟩
    choose! fate hfate hknown using hmany
    exact reports_of_known htimed hfate hknown
  · intro url hnever
    rw [resolve_fst htimed] at hnever
    exact ⟨limit, htimed, (transport reply settings).endless_of_fate limit (Except.ok.inj hnever)⟩

theorem reports_with_failed_chain :
    let reply := fun url : String =>
      if url = "http://a/" then .answered 301 (Table.empty.insert "Location" "http://b/")
      else if url = "http://c/" then .troubled (.transport "no route")
      else .answered 200 .empty
    let urls := ["http://a/", "http://c/", "http://a/"]
    let settings := { timeout := some 30 }
    Command.ofWords ("resolve" :: urls) = .ok (.resolve urls settings false) ∧
      ∃ report, run reply ("resolve" :: urls) = some (.ok report) ∧ report.code = 1 ∧
        Reports reply urls settings false report := by
  intro reply urls settings
  have hwords : Command.ofWords ("resolve" :: urls) = .ok (.resolve urls settings false) := by
    decide +kernel
  have ha : ((transport reply settings).resolve "http://a/").1 =
      .ok (some (.arrived ⟨"http://a/", "http://b/"⟩)) := by decide +kernel
  have hc : ((transport reply settings).resolve "http://c/").1 =
      .ok (some (.failed (.requestFailed "http://c/" "http://c/" "no route"))) := by
    decide +kernel
  have hcode : (run reply ("resolve" :: urls)).map (Except.map Report.code) = some (.ok 1) := by
    decide +kernel
  have hends : ∀ url ∈ urls, ∃ outcome,
      ((transport reply settings).resolve url).1 = .ok (some outcome) ∧
        ∀ cause, outcome ≠ .failed (.badUrl cause) := by
    intro url hurl
    simp only [urls, List.mem_cons, List.not_mem_nil, or_false] at hurl
    rcases hurl with rfl | rfl | rfl
    · exact ⟨_, ha, by simp⟩
    · exact ⟨_, hc, by simp⟩
    · exact ⟨_, ha, by simp⟩
  obtain ⟨hiff, -⟩ := resolve_reports_iff reply ("resolve" :: urls) urls settings false hwords
  obtain ⟨report, hreport, hreports⟩ := hiff.2 fun url hurl _ => hends url hurl
  rw [hreport] at hcode
  exact ⟨hwords, report, hreport, Except.ok.inj (Option.some.inj hcode), hreports⟩

/-- One location that cannot be read costs the other URLs their records. -/
theorem not_reports_of_unreadable_location :
    let reply := fun url : String =>
      if url = "http://a/" then .answered 301 (Table.empty.insert "Location" "http://[")
      else .answered 200 .empty
    let urls := ["http://a/", "http://b/"]
    let settings := { timeout := some 30 }
    Command.ofWords ("resolve" :: urls) = .ok (.resolve urls settings false) ∧
      run reply ("resolve" :: urls) = some (.error (.badUrl .brackets)) ∧
      (run reply ["resolve", "http://b/"]).map (Except.map Report.output) = some
        (.ok (recordLine [("source", .text "http://b/"), ("destination", .text "http://b/")])) ∧
      ¬ ∃ report, run reply ("resolve" :: urls) = some (.ok report) ∧
        Reports reply urls settings false report := by
  intro reply urls settings
  have hlost : run reply ("resolve" :: urls) = some (.error (.badUrl .brackets)) := by
    decide +kernel
  refine ⟨by decide +kernel, hlost, by decide +kernel, ?_⟩
  rintro ⟨report, hreport, -⟩
  cases hlost.symm.trans hreport

/-- Without a limit of time a command waits forever for a URL of which nothing is heard. -/
example :
    run (fun _ => .answered 200 .empty) ["resolve", "--timeout", "inf", "http://bit.ly?x"] = none := by
  decide +kernel

end LinkTrail.CommandLine
