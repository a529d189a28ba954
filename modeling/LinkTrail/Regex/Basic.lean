namespace LinkTrail

inductive Regex.Item where
  | one (c : Char)
  | range (first last : Char)
deriving DecidableEq, Repr

inductive Regex where
  | never
  | empty
  | char (c : Char)
  | any
  | oneOf (items : List Regex.Item)
  | seq (first second : Regex)
  | alt (first second : Regex)
  | group (body : Regex)
  | opt (body : Regex)
  | star (body : Regex)
  | plus (body : Regex)
deriving DecidableEq, Repr

namespace Regex

def metaChars : List Char :=
  ['.', '*', '+', '?', '^', '$', '{', '}', '(', ')', '|', '[', ']', '\\']

def classMetaChars : List Char := ['\\', ']', '^', '-']

def escapeChar (c : Char) : List Char :=
  if c ∈ metaChars then ['\\', c] else [c]

def escape (text : String) : String :=
  String.ofList (text.toList.flatMap escapeChar)

def Item.escapeChar (c : Char) : List Char :=
  if c ∈ classMetaChars then ['\\', c] else [c]

/-- The ends of a range are letters or digits and need no escape. -/
def Item.render : Item → List Char
  | .one c => Item.escapeChar c
  | .range first last => [first, '-', last]

def render : Regex → List Char
  | never => ['(', '?', '!', ')']
  | empty => []
  | char c => escapeChar c
  | any => ['.']
  | oneOf items => '[' :: (items.flatMap Item.render ++ [']'])
  | seq first second => first.render ++ second.render
  | alt first second => first.render ++ '|' :: second.render
  | group body => '(' :: '?' :: ':' :: (body.render ++ [')'])
  | opt body => body.render ++ ['?']
  | star body => body.render ++ ['*']
  | plus body => body.render ++ ['+']

def literal : List Char → Regex
  | [] => empty
  | c :: rest => seq (char c) (literal rest)

def concat : List Regex → Regex
  | [] => empty
  | r :: rest => seq r (concat rest)

/-- One alternative or another; without alternatives nothing matches. -/
def anyOf : List Regex → Regex
  | [] => never
  | [r] => r
  | r :: rest => alt r (anyOf rest)

def anyText : Regex := star any

def union (members : List Regex) : Regex :=
  if members = [] then never else group (anyOf (members.map group))

def unionText (fragments : List String) : String :=
  if fragments = [] then "^(?!)$"
  else "^(?:" ++ "|".intercalate (fragments.map fun fragment => "(?:" ++ fragment ++ ")") ++ ")$"

theorem render_literal (s : List Char) : (literal s).render = s.flatMap escapeChar := by
  induction s with
  | nil => rfl
  | cons c rest ih => simp [literal, render, ih]

@[simp] theorem render_concat (rs : List Regex) : (concat rs).render = rs.flatMap render := by
  induction rs with
  | nil => rfl
  | cons r rest ih => simp [concat, render, ih]

theorem render_anyOf_cons (r : Regex) (rs : List Regex) :
    (anyOf (r :: rs)).render = ['|'].intercalate ((r :: rs).map render) := by
  induction rs generalizing r with
  | nil => simp [anyOf]
  | cons s rest ih => simp [anyOf, render, ih, List.intercalate_cons_cons]

/-- The joined text is that of the union of the members, with the two anchors. -/
theorem unionText_render (members : List Regex) :
    unionText (members.map fun r => String.ofList r.render) =
      "^" ++ String.ofList (union members).render ++ "$" := by
  cases members with
  | nil => rfl
  | cons r rest =>
      have hgroups : (((r :: rest).map fun q => String.ofList q.render).map
            fun text => "(?:" ++ text ++ ")").map String.toList =
          ((r :: rest).map group).map render := by
        simp [Function.comp_def, render]
      have hunion : union (r :: rest) = group (anyOf ((r :: rest).map group)) := by
        simp [union]
      have halternatives : (anyOf ((r :: rest).map group)).render = _ :=
        render_anyOf_cons r.group (rest.map group)
      apply String.toList_injective
      rw [hunion, render, halternatives, unionText, if_neg (by simp)]
      simp only [String.toList_append, String.toList_intercalate, hgroups, String.toList_ofList]
      simp

end Regex

end LinkTrail
