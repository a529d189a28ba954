import LinkTrail.Proofs.Regex.Language
import LinkTrail.Proofs.Text.Letters

namespace LinkTrail.Regex

open LinkTrail.Text

variable {letters : Letters} {r : Regex} {items : List Item} {u w : List Char} {c d : Char}

theorem eq_toLower_or_eq_toUpper (c : Char) : c = c.toLower ∨ c = c.toUpper := by
  by_cases h : c.isUpper = true
  · exact Or.inr (Char.toUpper_eq_of_not_isLower (Char.not_isLower_of_isUpper h)).symm
  · exact Or.inl (Char.toLower_eq_of_not_isUpper h).symm

/-- Whether a class holds a letter is seen from its two forms. -/
theorem anyHas_ignoreAsciiCase (items : List Item) (c : Char) :
    Item.anyHas .ignoreAsciiCase items c =
      items.any fun item => item.has c.toLower || item.has c.toUpper := by
  rw [Item.anyHas]
  congr 1
  funext item
  obtain h | h := eq_toLower_or_eq_toUpper c
  · rw [← h, Bool.or_self]
  · rw [← h, Bool.or_comm (item.has c), Bool.or_assoc, Bool.or_self]

theorem anyHas_of_fold (h : letters.fold c = letters.fold d) :
    Item.anyHas letters items c = Item.anyHas letters items d := by
  cases letters with
  | exact =>
      obtain rfl : c = d := h
      rfl
  | ignoreAsciiCase =>
      have hlower : c.toLower = d.toLower := h
      have hupper : c.toUpper = d.toUpper := by
        rw [← Char.toUpper_toLower_eq_toUpper, hlower, Char.toUpper_toLower_eq_toUpper]
      rw [anyHas_ignoreAsciiCase, anyHas_ignoreAsciiCase, hlower, hupper]

theorem eq_newline_of_fold (h : letters.fold c = letters.fold '\n') : c = '\n' := by
  cases letters with
  | exact => exact h
  | ignoreAsciiCase => exact (toLower_eq_toLower_iff (by rfl)).1 h.symm

theorem Matches.of_fold (h : Matches letters r w) (hw : u.map letters.fold = w.map letters.fold) :
    Matches letters r u := by
  induction h generalizing u with
  | empty =>
      obtain rfl := List.map_eq_nil_iff.1 hw
      exact .empty
  | char hfold =>
      obtain ⟨d, rfl, hd⟩ := List.map_eq_singleton_iff.1 hw
      exact .char (hfold.trans hd.symm)
  | any hne =>
      obtain ⟨d, rfl, hd⟩ := List.map_eq_singleton_iff.1 hw
      refine .any ?_
      rintro rfl
      exact hne (eq_newline_of_fold hd.symm)
  | oneOf hhas =>
      obtain ⟨d, rfl, hd⟩ := List.map_eq_singleton_iff.1 hw
      exact .oneOf ((anyHas_of_fold hd).trans hhas)
  | seq _ _ ihr ihs =>
      rw [List.map_append, List.map_eq_append_iff] at hw
      obtain ⟨first, rest, rfl, hfirst, hrest⟩ := hw
      exact .seq (ihr hfirst) (ihs hrest)
  | altLeft _ ih => exact .altLeft (ih hw)
  | altRight _ ih => exact .altRight (ih hw)
  | group _ ih => exact .group (ih hw)
  | optNone =>
      obtain rfl := List.map_eq_nil_iff.1 hw
      exact .optNone
  | optSome _ ih => exact .optSome (ih hw)
  | starNil =>
      obtain rfl := List.map_eq_nil_iff.1 hw
      exact .starNil
  | starCons _ _ ihr ihs =>
      rw [List.map_append, List.map_eq_append_iff] at hw
      obtain ⟨first, rest, rfl, hfirst, hrest⟩ := hw
      exact .starCons (ihr hfirst) (ihs hrest)
  | plus _ _ ihr ihs =>
      rw [List.map_append, List.map_eq_append_iff] at hw
      obtain ⟨first, rest, rfl, hfirst, hrest⟩ := hw
      exact .plus (ihr hfirst) (ihs hrest)

theorem matches_iff_of_fold (h : u.map letters.fold = w.map letters.fold) :
    Matches letters r u ↔ Matches letters r w :=
  ⟨fun hu => hu.of_fold h.symm, fun hw => hw.of_fold h⟩

theorem accepts_of_fold (h : u.map letters.fold = w.map letters.fold) :
    r.accepts letters u = r.accepts letters w := by
  rw [Bool.eq_iff_iff, accepts_iff, accepts_iff, matches_iff_of_fold h]

end LinkTrail.Regex
