import Mathlib.Data.List.Nodup
import Mathlib.Logic.Equiv.Basic
import LinkTrail.Pathfinder.Walker

/-!
Header names in either case. Main statement: it does not matter in which case a name is asked for or
written exactly if all fields of that name have one value (`find?_ignores_case_iff`); of two fields
with different values, the one that is written as it is asked for is found
(`not_caseless_of_two_spellings`).
-/

namespace LinkTrail.Headers

variable {h other : Headers} {name name' key value : String}

def SameName (first second : String) : Prop := Text.lowered first = Text.lowered second

instance (first second : String) : Decidable (SameName first second) :=
  inferInstanceAs (Decidable (Text.lowered first = Text.lowered second))

def IsFirst (h : Headers) (name value : String) : Prop :=
  ∃ before key after, h.entries = before ++ (key, value) :: after ∧ SameName key name ∧
    ∀ field ∈ before, ¬SameName field.1 name

/-- All fields of that name have one value. -/
def Agrees (h : Headers) (name : String) : Prop :=
  ∀ first ∈ h.entries, ∀ second ∈ h.entries, SameName first.1 name → SameName second.1 name →
    first.2 = second.2

/-- The same fields, with their names written in other case. -/
def Respells (h other : Headers) : Prop :=
  ∃ spell : String → String, (∀ name, SameName (spell name) name) ∧
    other.entries = h.entries.map fun field => (spell field.1, field.2)

theorem scan?_eq_some_iff : h.scan? name = some value ↔ h.IsFirst name value := by
  simp only [scan?, Option.map_eq_some_iff, List.find?_eq_some_iff_append, decide_eq_true_eq,
    Bool.not_eq_true', decide_eq_false_iff_not]
  constructor
  · rintro ⟨⟨key, _⟩, ⟨hkey, before, after, hentries, hbefore⟩, rfl⟩
    exact ⟨before, key, after, hentries, hkey, hbefore⟩
  · rintro ⟨before, key, after, hentries, hkey, hbefore⟩
    exact ⟨(key, value), ⟨hkey, before, after, hentries, hbefore⟩, rfl⟩

theorem scan?_eq_none_iff : h.scan? name = none ↔ ∀ field ∈ h.entries, ¬SameName field.1 name := by
  simp [scan?, SameName]

theorem scan?_congr (hname : SameName name' name) : h.scan? name' = h.scan? name := by
  unfold scan?
  rw [hname]

theorem find?_of_mem (hmem : (name, value) ∈ h.entries) : h.find? name = some value := by
  rw [find?, Table.get?_eq_some_iff.2 hmem, Option.some_or]

theorem exists_mem_of_find? (hfind : h.find? name = some value) :
    ∃ field ∈ h.entries, SameName field.1 name ∧ field.2 = value := by
  obtain hexact | ⟨-, hscan⟩ := Option.or_eq_some_iff.1 hfind
  · exact ⟨(name, value), Table.get?_eq_some_iff.1 hexact, rfl, rfl⟩
  · obtain ⟨before, key, after, hentries, hkey, -⟩ := scan?_eq_some_iff.1 hscan
    exact ⟨(key, value), by simp [hentries], hkey, rfl⟩

theorem find?_eq_none_iff : h.find? name = none ↔ ∀ field ∈ h.entries, ¬SameName field.1 name := by
  rw [find?, Option.or_eq_none_iff, scan?_eq_none_iff, and_iff_right_iff_imp,
    Table.get?_eq_none_iff]
  intro hnone hmem
  obtain ⟨field, hfield, rfl⟩ := List.mem_map.1 hmem
  exact hnone field hfield rfl

theorem Agrees.congr (hagrees : h.Agrees name) (hname : SameName name' name) : h.Agrees name' :=
  fun first hfirst second hsecond hfirst' hsecond' =>
    hagrees first hfirst second hsecond (hfirst'.trans hname) (hsecond'.trans hname)

/-- Where the fields agree, an exact name finds nothing that the scan would not find. -/
theorem Agrees.find?_eq_scan? (hagrees : h.Agrees name) : h.find? name = h.scan? name := by
  cases hfind : h.find? name with
  | none => exact (scan?_eq_none_iff.2 (find?_eq_none_iff.1 hfind)).symm
  | some value =>
      cases hscan : h.scan? name with
      | none =>
          rw [find?_eq_none_iff.2 (scan?_eq_none_iff.1 hscan)] at hfind
          contradiction
      | some first =>
          obtain ⟨field, hfield, hname, rfl⟩ := exists_mem_of_find? hfind
          obtain ⟨before, key, after, hentries, hkey, -⟩ := scan?_eq_some_iff.1 hscan
          exact congrArg some (hagrees field hfield (key, first) (by simp [hentries]) hname hkey)

theorem agrees_of_find? (hsame : ∀ other, SameName other name → h.find? other = h.find? name) :
    h.Agrees name := by
  intro first hfirst second hsecond hfirst' hsecond'
  have hvalue : h.find? first.1 = h.find? second.1 :=
    (hsame first.1 hfirst').trans (hsame second.1 hsecond').symm
  rw [find?_of_mem hfirst, find?_of_mem hsecond] at hvalue
  exact Option.some.inj hvalue

theorem find?_eq_iff_agrees :
    (∀ other, SameName other name → h.find? other = h.find? name) ↔ h.Agrees name := by
  refine ⟨agrees_of_find?, ?_⟩
  intro hagrees other hother
  rw [(hagrees.congr hother).find?_eq_scan?, hagrees.find?_eq_scan?, scan?_congr hother]

theorem find?_eq_scan?_iff_agrees :
    (∀ other, SameName other name → h.find? other = h.scan? other) ↔ h.Agrees name := by
  constructor
  · intro hscan
    apply agrees_of_find?
    intro other hother
    rw [hscan other hother, hscan name rfl, scan?_congr hother]
  · exact fun hagrees other hother => (hagrees.congr hother).find?_eq_scan?

theorem Respells.scan?_eq (hother : h.Respells other) : other.scan? name = h.scan? name := by
  obtain ⟨spell, hspell, hentries⟩ := hother
  have hsame : ∀ field : String × String,
      Text.lowered (spell field.1) = Text.lowered field.1 := fun field => hspell field.1
  simp only [scan?, hentries, List.find?_map, Option.map_map, Function.comp_def, hsame]

theorem Respells.agrees (hother : h.Respells other) (hagrees : h.Agrees name) :
    other.Agrees name := by
  obtain ⟨spell, hspell, hentries⟩ := hother
  rw [Agrees, hentries]
  simp only [List.forall_mem_map]
  intro first hfirst second hsecond hfirst' hsecond'
  exact hagrees first hfirst second hsecond ((hspell first.1).symm.trans hfirst')
    ((hspell second.1).symm.trans hsecond')

/-- Any field of a name can be written so that it is the one that is found: it changes names with
the field that has the exact name, if there is one. -/
theorem exists_respells_find? (hmem : (key, value) ∈ h.entries) (hkey : SameName key name) :
    ∃ other : Headers, h.Respells other ∧ other.find? name = some value := by
  let spell := Equiv.swap key name
  have hspell (other : String) : SameName (spell other) other := by
    rw [Equiv.swap_apply_def]
    split_ifs with hother hother
    · exact hother ▸ hkey.symm
    · exact hother ▸ hkey
    · rfl
  have hnodup : ((h.entries.map fun field => (spell field.1, field.2)).map Prod.fst).Nodup := by
    have hkeys : (h.keys.map spell).Nodup := h.nodup_keys.map spell.injective
    simpa [Table.keys, Function.comp_def] using hkeys
  refine ⟨⟨_, hnodup⟩, ⟨spell, hspell, rfl⟩, find?_of_mem ?_⟩
  exact List.mem_map.2 ⟨_, hmem, by simp [spell]⟩

theorem find?_respelled_iff_agrees :
    (∀ other, h.Respells other → other.find? name = h.find? name) ↔ h.Agrees name := by
  constructor
  · intro hsame first hfirst second hsecond hfirst' hsecond'
    obtain ⟨other, hother, hvalue⟩ := exists_respells_find? hfirst hfirst'
    obtain ⟨other', hother', hvalue'⟩ := exists_respells_find? hsecond hsecond'
    rw [hsame other hother] at hvalue
    rw [hsame other' hother', hvalue] at hvalue'
    exact Option.some.inj hvalue'
  · intro hagrees other hother
    rw [(hother.agrees hagrees).find?_eq_scan?, hagrees.find?_eq_scan?, hother.scan?_eq]

def openRules : Rules where
  timeout := none
  maxRedirects := 1
  join := fun _ location => .ok ("/" ++ location)

theorem verdict_openRules (hvalue : h.find? "Location" = some value) :
    openRules.verdict ⟨"", .empty, []⟩ { url := "", headers := h } =
      if value = "" then .arrived else .redirect ("/" ++ value) := by
  have hlocation : ({ url := "", headers := h } : Response).location? = some value := hvalue
  unfold Rules.verdict
  by_cases hempty : value = ""
  · simp [hlocation, hempty, Option.filter]
  · simp [hlocation, hempty, Option.filter, openRules, Table.size, Table.empty]

theorem verdict_congr {rules : Rules} {trail : Trail} (response : Response)
    (hlocation : other.find? "Location" = h.find? "Location") :
    rules.verdict trail { response with headers := other } =
      rules.verdict trail { response with headers := h } := by
  unfold Rules.verdict Response.location?
  rw [hlocation]

theorem verdict_respelled_iff_agrees :
    (∀ (rules : Rules) (trail : Trail) (response : Response) (other : Headers),
      h.Respells other → rules.verdict trail { response with headers := other } =
        rules.verdict trail { response with headers := h }) ↔ h.Agrees "Location" := by
  constructor
  · intro hsame first hfirst second hsecond hfirst' hsecond'
    obtain ⟨other, hother, hvalue⟩ := exists_respells_find? hfirst hfirst'
    obtain ⟨other', hother', hvalue'⟩ := exists_respells_find? hsecond hsecond'
    have hverdict := (hsame openRules ⟨"", .empty, []⟩ { url := "" } other hother).trans
      (hsame openRules ⟨"", .empty, []⟩ { url := "" } other' hother').symm
    rw [verdict_openRules hvalue, verdict_openRules hvalue'] at hverdict
    split_ifs at hverdict with hempty hempty' hempty'
    · rw [hempty, hempty']
    · simpa using hverdict
  · exact fun hagrees rules trail response other hother =>
      verdict_congr response (find?_respelled_iff_agrees.2 hagrees other hother)

/-- A name may be asked for in any case, and may be written in any case, exactly if all fields of
that name have one value; then an exact name finds what the scan finds, which is the first field of
that name. Whether something is found never depends on case, and where a redirect leads does not
exactly if the locations agree. -/
theorem find?_ignores_case_iff (h : Headers) (name : String) :
    ((∀ other, SameName other name → h.find? other = h.find? name) ↔ h.Agrees name) ∧
      ((∀ other, SameName other name → h.find? other = h.scan? other) ↔ h.Agrees name) ∧
      (∀ value, h.scan? name = some value ↔ h.IsFirst name value) ∧
      (h.find? name = none ↔ ∀ field ∈ h.entries, ¬SameName field.1 name) ∧
      ((∀ other, h.Respells other → other.find? name = h.find? name) ↔ h.Agrees name) ∧
      ((∀ (rules : Rules) (trail : Trail) (response : Response) (other : Headers),
        h.Respells other → rules.verdict trail { response with headers := other } =
          rules.verdict trail { response with headers := h }) ↔ h.Agrees "Location") :=
  ⟨find?_eq_iff_agrees, find?_eq_scan?_iff_agrees, fun _ => scan?_eq_some_iff, find?_eq_none_iff,
    find?_respelled_iff_agrees, verdict_respelled_iff_agrees⟩

/-- Two locations under two spellings: each spelling finds its own. -/
theorem not_caseless_of_two_spellings :
    let h : Headers := .ofList [("location", "http://b/"), ("Location", "http://c/")]
    SameName "Location" "location" ∧ h.scan? "Location" = some "http://b/" ∧
      h.find? "location" = some "http://b/" ∧ h.find? "Location" = some "http://c/" ∧
      ¬∀ (h : Headers) (name other : String), SameName name other →
        h.find? name = h.find? other := by
  intro h
  have hname : SameName "Location" "location" := by decide +kernel
  have hscan : h.scan? "Location" = some "http://b/" := by decide +kernel
  have hsmall : h.find? "location" = some "http://b/" := by decide +kernel
  have hlarge : h.find? "Location" = some "http://c/" := by decide +kernel
  refine ⟨hname, hscan, hsmall, hlarge, ?_⟩
  intro hsame
  have hequal := hsame h "Location" "location" hname
  rw [hsmall, hlarge] at hequal
  exact absurd hequal (by decide)

end LinkTrail.Headers
