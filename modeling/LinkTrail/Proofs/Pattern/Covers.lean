import LinkTrail.Pattern.Basic
import LinkTrail.Proofs.Text.Letters

/-!
The URLs that a pattern stands for, told part by part. Main statements: words are spelled piece by
piece (`spells_append_iff`), and a path is filled character by character (`fills_star_iff`,
`fills_char_iff`).
-/

namespace LinkTrail.Pattern

open LinkTrail.Text

variable {w : List Char}

def Spells (text : String) (s : List Char) : Prop :=
  s.map Char.toLower = text.toList.map Char.toLower

instance (text : String) : Decidable (Spells text w) :=
  inferInstanceAs (Decidable (w.map Char.toLower = text.toList.map Char.toLower))

/-- A text with any text within one line for each star of a path. -/
inductive Fills : List Char → List Char → Prop where
  | nil : Fills [] []
  | star {path any s : List Char} (hany : '\n' ∉ any) (hs : Fills path s) :
      Fills ('*' :: path) (any ++ s)
  | char {c d : Char} {path s : List Char} (hc : c ≠ '*') (hd : d.toLower = c.toLower)
      (hs : Fills path s) : Fills (c :: path) (d :: s)

theorem spells_append_iff {first second : String} :
    Spells (first ++ second) w ↔ ∃ u v, w = u ++ v ∧ Spells first u ∧ Spells second v := by
  unfold Spells
  rw [String.toList_append, List.map_append, List.map_eq_append_iff]

theorem spells_iff_of_marks {text : String} (h : ∀ c ∈ text.toList, c.isAlpha = false) :
    Spells text w ↔ w = text.toList := by
  unfold Spells
  generalize text.toList = marks at h
  induction marks generalizing w with
  | nil => simp
  | cons mark marks ih =>
      obtain ⟨hmark, hmarks⟩ := List.forall_mem_cons.1 h
      cases w with
      | nil => simp
      | cons d w =>
          simp only [List.map_cons, List.cons.injEq, ih hmarks, eq_comm (a := d.toLower),
            toLower_eq_toLower_iff hmark]

theorem fills_star_iff {path : List Char} :
    Fills ('*' :: path) w ↔ ∃ any s, w = any ++ s ∧ '\n' ∉ any ∧ Fills path s := by
  constructor
  · intro h
    cases h with
    | star hany hs => exact ⟨_, _, rfl, hany, hs⟩
    | char hc hd hs => contradiction
  · rintro ⟨any, s, rfl, hany, hs⟩
    exact .star hany hs

theorem fills_char_iff {c : Char} (hc : c ≠ '*') {path : List Char} :
    Fills (c :: path) w ↔ ∃ d s, w = d :: s ∧ d.toLower = c.toLower ∧ Fills path s := by
  constructor
  · intro h
    cases h with
    | star hany hs => contradiction
    | char _ hd hs => exact ⟨_, _, rfl, hd, hs⟩
  · rintro ⟨d, s, rfl, hd, hs⟩
    exact .char hc hd hs

def isLabelChar (c : Char) : Bool := c.isAlphanum || c = '-'

def isHostChar (c : Char) : Bool := isLabelChar c || c = '.'

theorem isHostChar_toLower (c : Char) : isHostChar c.toLower = isHostChar c := by
  cases h : c.isAlpha with
  | true => simp [isHostChar, isLabelChar, Char.isAlphanum, h]
  | false => rw [toLower_of_not_isAlpha h]

theorem isHostChar_lowered_iff :
    (∀ c ∈ w.map Char.toLower, isHostChar c = true) ↔ ∀ c ∈ w, isHostChar c = true := by
  simp only [List.forall_mem_map, isHostChar_toLower]

theorem not_mem_of_isHostChar {mark : Char} (h : ∀ c ∈ w, isHostChar c = true)
    (hmark : isHostChar mark = false) : mark ∉ w := by
  intro hmem
  rw [h mark hmem] at hmark
  contradiction

def IsTail (mark : Char) (s : List Char) : Prop :=
  s = [] ∨ ∃ rest, s = mark :: rest ∧ '\n' ∉ rest

def IsAnyHost (s : List Char) : Prop :=
  ∃ opening name closing, s = opening ++ name ++ closing ∧ (opening = [] ∨ opening = ['[']) ∧
    (name ≠ [] ∧ ∀ c ∈ name, isHostChar c = true) ∧ (closing = [] ∨ closing = [']'])

def IsAnyPort (s : List Char) : Prop :=
  s = [] ∨ ∃ number, s = ':' :: number ∧ number ≠ [] ∧ ∀ c ∈ number, c.isDigit = true

inductive IsLabels : List Char → Prop where
  | none : IsLabels []
  | more {label rest : List Char} (hne : label ≠ []) (hlabel : ∀ c ∈ label, isLabelChar c = true)
      (hrest : IsLabels rest) : IsLabels (label ++ '.' :: rest)

namespace Parts

variable (p : Parts)

def IsScheme (s : List Char) : Prop :=
  if p.scheme = "*" then ∃ name ∈ ["http", "https", "ws", "wss"], Spells name s
  else Spells p.scheme s

def IsHost (s : List Char) : Prop :=
  if p.hasHost then
    if p.host = "*" then IsAnyHost s
    else ∃ labels name, s = labels ++ name ∧ Spells p.host name ∧
      if p.subdomains then IsLabels labels else labels = []
  else s = []

def IsPort (s : List Char) : Prop :=
  if p.hasHost = true ∧ p.scheme ≠ "file" then IsAnyPort s else s = []

def IsPath (s : List Char) : Prop :=
  if p.path = "/" then s = [] ∨ s = ['/']
  else if p.path = "/*" then IsTail '/' s
  else Fills p.path.toList s

def Covers (u : List Char) : Prop :=
  ∃ scheme host port path query fragment,
    u = scheme ++ p.separator.toList ++ host ++ port ++ path ++ query ++ fragment ∧
    p.IsScheme scheme ∧ p.IsHost host ∧ p.IsPort port ∧ p.IsPath path ∧
    IsTail '?' query ∧ IsTail '#' fragment

end Parts

def IsObservableLocation (u : List Char) : Prop :=
  ∃ scheme host port path, u = scheme ++ "://".toList ++ host ++ port ++ path ∧
    (∃ name ∈ ["http", "https", "ws", "wss", "ftp"], Spells name scheme) ∧
    IsAnyHost host ∧ IsAnyPort port ∧ IsTail '/' path

def BeginsWith (text : String) (u : List Char) : Prop :=
  ∃ start rest, u = start ++ rest ∧ Spells text start ∧ '\n' ∉ rest

def Covers : Pattern → List Char → Prop
  | allUrls, u => IsObservableLocation u ∨ BeginsWith "file:///" u ∨ BeginsWith "data:" u
  | parts p, u => p.Covers u

end LinkTrail.Pattern
