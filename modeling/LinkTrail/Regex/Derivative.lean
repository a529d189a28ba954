import LinkTrail.Regex.Basic

namespace LinkTrail

inductive Letters where
  | exact
  | ignoreAsciiCase
deriving DecidableEq, Repr

namespace Letters

def fold : Letters → Char → Char
  | exact, c => c
  | ignoreAsciiCase, c => c.toLower

end Letters

namespace Regex

def Item.has : Item → Char → Bool
  | one d, c => c == d
  | range first last, c => first ≤ c && c ≤ last

def Item.anyHas (letters : Letters) (items : List Item) (c : Char) : Bool :=
  match letters with
  | .exact => items.any (·.has c)
  | .ignoreAsciiCase => items.any fun item =>
      item.has c || item.has c.toLower || item.has c.toUpper

/-- Predicate `r.Matches letters s` says that `r` matches the whole of `s`. -/
inductive Matches (letters : Letters) : Regex → List Char → Prop where
  | empty : Matches letters empty []
  | char {c d : Char} : letters.fold c = letters.fold d → Matches letters (char c) [d]
  | any {d : Char} : d ≠ '\n' → Matches letters any [d]
  | oneOf {items : List Item} {d : Char} :
      Item.anyHas letters items d = true → Matches letters (oneOf items) [d]
  | seq {r s : Regex} {u v : List Char} :
      Matches letters r u → Matches letters s v → Matches letters (seq r s) (u ++ v)
  | altLeft {r s : Regex} {u : List Char} : Matches letters r u → Matches letters (alt r s) u
  | altRight {r s : Regex} {u : List Char} : Matches letters s u → Matches letters (alt r s) u
  | group {r : Regex} {u : List Char} : Matches letters r u → Matches letters (group r) u
  | optNone {r : Regex} : Matches letters (opt r) []
  | optSome {r : Regex} {u : List Char} : Matches letters r u → Matches letters (opt r) u
  | starNil {r : Regex} : Matches letters (star r) []
  | starCons {r : Regex} {u v : List Char} :
      Matches letters r u → Matches letters (star r) v → Matches letters (star r) (u ++ v)
  | plus {r : Regex} {u v : List Char} :
      Matches letters r u → Matches letters (star r) v → Matches letters (plus r) (u ++ v)

def nullable : Regex → Bool
  | never => false
  | empty => true
  | char _ => false
  | any => false
  | oneOf _ => false
  | seq r s => r.nullable && s.nullable
  | alt r s => r.nullable || s.nullable
  | group r => r.nullable
  | opt _ => true
  | star _ => true
  | plus r => r.nullable

def andThen (r s : Regex) : Regex :=
  if r = empty then s else seq r s

/-- What may be left to match once `d` has been read: `r` matches `d :: s` exactly when one of
these matches `s`. -/
def after (letters : Letters) (d : Char) : Regex → List Regex
  | never => []
  | empty => []
  | char c => if letters.fold c = letters.fold d then [empty] else []
  | any => if d = '\n' then [] else [empty]
  | oneOf items => if Item.anyHas letters items d then [empty] else []
  | seq r s =>
      (r.after letters d).map (·.andThen s) ++ if r.nullable then s.after letters d else []
  | alt r s => r.after letters d ++ s.after letters d
  | group r => r.after letters d
  | opt r => r.after letters d
  | star r => (r.after letters d).map (·.andThen (star r))
  | plus r => (r.after letters d).map (·.andThen (star r))

/-- Follows all ways to match at once; equal ones are kept once. -/
def accepts (letters : Letters) (r : Regex) (s : List Char) : Bool :=
  (s.foldl (fun rs d => (rs.flatMap (after letters d)).eraseDups) [r]).any nullable

end Regex

end LinkTrail
