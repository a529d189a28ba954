import LinkTrail.Listeners
import LinkTrail.Proofs.Pattern.Grammar
import LinkTrail.Proofs.Pattern.Matching

/-!
Sets made from the texts of patterns. Main statements: a set is refused with its first invalid
pattern (`ofPatterns_of_error`), and otherwise it is the union of its patterns
(`ofPatterns_union`).
-/

namespace LinkTrail.PatternSet

open Regex

variable {text : String} {before after texts others : List String} {pattern : Pattern}
  {error : Pattern.Error} {set : PatternSet} {url : String}

def IsValid (text : String) : Prop := ∃ pattern, Pattern.parse text = .ok pattern

theorem ofPatterns_cons_of_ok (h : Pattern.parse text = .ok pattern) :
    ofPatterns (text :: texts) =
      (ofPatterns texts).map fun set => ⟨pattern.regex :: set.members⟩ := by
  unfold ofPatterns
  rw [List.mapM_cons, h]
  cases texts.mapM Pattern.parse with
  | ok patterns => rfl
  | error error => rfl

theorem ofPatterns_cons_of_error (h : Pattern.parse text = .error error) :
    ofPatterns (text :: texts) = .error error := by
  unfold ofPatterns
  rw [List.mapM_cons, h]
  rfl

theorem ofPatterns_singleton (h : Pattern.parse text = .ok pattern) :
    ofPatterns [text] = .ok ⟨[pattern.regex]⟩ :=
  ofPatterns_cons_of_ok h

theorem ofPatterns_of_error (hbefore : ∀ other ∈ before, IsValid other)
    (h : Pattern.parse text = .error error) :
    ofPatterns (before ++ text :: after) = .error error := by
  induction before with
  | nil => exact ofPatterns_cons_of_error h
  | cons first before ih =>
      obtain ⟨⟨pattern, hfirst⟩, hrest⟩ := List.forall_mem_cons.1 hbefore
      rw [List.cons_append, ofPatterns_cons_of_ok hfirst, ih hrest]
      rfl

theorem exists_ofPatterns (h : ∀ text ∈ texts, IsValid text) :
    ∃ set, ofPatterns texts = .ok set ∧ ∀ member, member ∈ set.members ↔
      ∃ text ∈ texts, ∃ pattern, Pattern.parse text = .ok pattern ∧ pattern.regex = member := by
  induction texts with
  | nil => exact ⟨⟨[]⟩, rfl, by simp⟩
  | cons text texts ih =>
      obtain ⟨⟨pattern, htext⟩, htexts⟩ := List.forall_mem_cons.1 h
      obtain ⟨set, hset, hmembers⟩ := ih htexts
      refine ⟨⟨pattern.regex :: set.members⟩, by rw [ofPatterns_cons_of_ok htext, hset]; rfl, ?_⟩
      intro member
      simp [hmembers, htext, eq_comm]

theorem valid_or_first_error (texts : List String) :
    (∀ text ∈ texts, IsValid text) ∨
      ∃ before text after fault, texts = before ++ text :: after ∧
        (∀ other ∈ before, IsValid other) ∧ Pattern.parse text = .error ⟨text, fault⟩ := by
  induction texts with
  | nil => exact Or.inl (by simp)
  | cons first texts ih =>
      obtain hfirst | ⟨fault, hfirst⟩ := Pattern.parse_ok_or_error first
      · obtain htexts | ⟨before, text, after, fault, rfl, hbefore, htext⟩ := ih
        · exact Or.inl (List.forall_mem_cons.2 ⟨hfirst, htexts⟩)
        · exact Or.inr ⟨first :: before, text, after, fault, rfl,
            List.forall_mem_cons.2 ⟨hfirst, hbefore⟩, htext⟩
      · exact Or.inr ⟨[], first, texts, fault, rfl, by simp, hfirst⟩

structure IsUnion (set : PatternSet) (texts : List String) : Prop where
  readable : ∃ expression, parseAnchored? set.regexText = some expression ∧
    ∀ url : String, expression.accepts .ignoreAsciiCase url.toList = set.accepts url
  accepts : ∀ url, set.accepts url = true ↔
    ∃ text ∈ texts, ∃ single, ofPatterns [text] = .ok single ∧ single.accepts url = true

theorem accepts_singleton_iff (h : Pattern.parse text = .ok pattern) :
    (∃ single, ofPatterns [text] = .ok single ∧ single.accepts url = true) ↔
      Matches .ignoreAsciiCase pattern.regex url.toList := by
  simp [ofPatterns_singleton h, accepts_iff]

theorem isUnion_of_members (hvalid : ∀ text ∈ texts, IsValid text)
    (h : ∀ member, member ∈ set.members ↔
      ∃ text ∈ texts, ∃ pattern, Pattern.parse text = .ok pattern ∧ pattern.regex = member) :
    set.IsUnion texts := by
  have hwritable : ∀ member ∈ set.members, Writable member := by
    intro member hmember
    obtain ⟨text, htext, pattern, hparse, rfl⟩ := (h member).1 hmember
    exact Pattern.writable_regex pattern
  constructor
  · refine ⟨set.regex.reread, parseAnchored?_regexText hwritable, ?_⟩
    intro url
    rw [Bool.eq_iff_iff]
    exact accepts_reread_iff hwritable
  · intro url
    rw [accepts_iff]
    constructor
    · rintro ⟨member, hmember, hmatches⟩
      obtain ⟨text, htext, pattern, hparse, rfl⟩ := (h member).1 hmember
      exact ⟨text, htext, (accepts_singleton_iff hparse).2 hmatches⟩
    · rintro ⟨text, htext, hsingle⟩
      obtain ⟨pattern, hparse⟩ := hvalid text htext
      exact ⟨pattern.regex, (h _).2 ⟨text, htext, pattern, hparse, rfl⟩,
        (accepts_singleton_iff hparse).1 hsingle⟩

theorem exists_isUnion (h : ∀ text ∈ texts, IsValid text) :
    ∃ set, ofPatterns texts = .ok set ∧ set.IsUnion texts := by
  obtain ⟨set, hset, hmembers⟩ := exists_ofPatterns h
  exact ⟨set, hset, isUnion_of_members h hmembers⟩

theorem IsUnion.accepts_congr (hset : set.IsUnion texts) {other : PatternSet}
    (hother : other.IsUnion others) (h : ∀ text, text ∈ others ↔ text ∈ texts) (url : String) :
    other.accepts url = set.accepts url := by
  rw [Bool.eq_iff_iff, hother.accepts, hset.accepts]
  simp only [h]

def Made (texts : List String) (set : PatternSet) : Prop :=
  ofPatterns texts = .ok set ∧
    ∀ (κ : Type) (ls : Listeners κ) (callback : κ) (withHeaders : Bool),
      ls.add callback texts withHeaders = .ok ⟨ls.entries ++ [⟨callback, set, withHeaders⟩]⟩

def Refused (texts : List String) (error : Pattern.Error) : Prop :=
  ofPatterns texts = .error error ∧
    ∀ (κ : Type) (ls : Listeners κ) (callback : κ) (withHeaders : Bool),
      ls.add callback texts withHeaders = .error error

theorem made_of_ok (h : ofPatterns texts = .ok set) : Made texts set := by
  refine ⟨h, ?_⟩
  intro κ ls callback withHeaders
  rw [Listeners.add, h]
  rfl

theorem refused_of_error (h : ofPatterns texts = .error error) : Refused texts error := by
  refine ⟨h, ?_⟩
  intro κ ls callback withHeaders
  rw [Listeners.add, h]
  rfl

theorem exists_refused (hmem : text ∈ texts) (h : ¬IsValid text) :
    ∃ error, Refused texts error := by
  obtain hvalid | ⟨before, first, after, fault, rfl, hbefore, hfirst⟩ := valid_or_first_error texts
  · exact absurd (hvalid text hmem) h
  · exact ⟨⟨first, fault⟩, refused_of_error (ofPatterns_of_error hbefore hfirst)⟩

theorem ofPatterns_union (texts : List String) :
    (∃ before text after fault, texts = before ++ text :: after ∧
        (∀ other ∈ before, IsValid other) ∧ ¬IsValid text ∧ Refused texts ⟨text, fault⟩ ∧
        ∀ others, (∀ text, text ∈ others ↔ text ∈ texts) → ∃ error, Refused others error) ∨
      (∀ text ∈ texts, IsValid text) ∧
        ∃ set, Made texts set ∧ set.IsUnion texts ∧
          (∀ others, (∀ text, text ∈ others ↔ text ∈ texts) →
            ∃ other, Made others other ∧ ∀ url, other.accepts url = set.accepts url) ∧
          (texts = [] → ∀ url, set.accepts url = false) := by
  obtain hvalid | ⟨before, text, after, fault, rfl, hbefore, htext⟩ := valid_or_first_error texts
  · obtain ⟨set, hset, hunion⟩ := exists_isUnion hvalid
    refine Or.inr ⟨hvalid, set, made_of_ok hset, hunion, ?_, ?_⟩
    · intro others hothers
      obtain ⟨other, hother, hunion'⟩ :=
        exists_isUnion fun text htext => hvalid text ((hothers text).1 htext)
      exact ⟨other, made_of_ok hother, hunion.accepts_congr hunion' hothers⟩
    · rintro rfl url
      rw [Bool.eq_false_iff, ne_eq, hunion.accepts]
      simp
  · have hinvalid : ¬IsValid text := by
      rintro ⟨pattern, hpattern⟩
      rw [htext] at hpattern
      contradiction
    refine Or.inl ⟨before, text, after, fault, rfl, hbefore, hinvalid,
      refused_of_error (ofPatterns_of_error hbefore htext), ?_⟩
    intro others hothers
    exact exists_refused ((hothers text).2 (by simp)) hinvalid

end LinkTrail.PatternSet
