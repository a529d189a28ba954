import LinkTrail.Regex.Basic

/-! Reading the written form of an expression. Texts outside this form are refused. -/

namespace LinkTrail.Regex

inductive Lexeme where
  | piece (r : Regex)
  | groupStart
  | groupEnd
  | bar
  | opt
  | star
  | plus
deriving DecidableEq, Repr

/-- The lexemes of a text that begins inside a bracketed class, with the members of the class so
far, last one first, or outside of any class. -/
def lexemes? : (inClass : Option (List Item)) → List Char → Option (List Lexeme)
  | some _, [] => none
  | some items, ']' :: rest =>
      if items = [] then none
      else (lexemes? none rest).map (.piece (oneOf items.reverse) :: ·)
  | some items, '\\' :: c :: rest =>
      if c ∈ classMetaChars then lexemes? (some (.one c :: items)) rest else none
  | some items, first :: '-' :: last :: rest =>
      if first ∉ classMetaChars ∧ last ∉ classMetaChars ∧ first ≤ last then
        lexemes? (some (.range first last :: items)) rest
      else none
  | some items, c :: rest =>
      if c ∈ classMetaChars then none else lexemes? (some (.one c :: items)) rest
  | none, [] => some []
  | none, '(' :: '?' :: ':' :: rest => (lexemes? none rest).map (.groupStart :: ·)
  | none, '(' :: '?' :: '!' :: ')' :: rest => (lexemes? none rest).map (.piece never :: ·)
  | none, ')' :: rest => (lexemes? none rest).map (.groupEnd :: ·)
  | none, '|' :: rest => (lexemes? none rest).map (.bar :: ·)
  | none, '?' :: rest => (lexemes? none rest).map (.opt :: ·)
  | none, '*' :: rest => (lexemes? none rest).map (.star :: ·)
  | none, '+' :: rest => (lexemes? none rest).map (.plus :: ·)
  | none, '.' :: rest => (lexemes? none rest).map (.piece any :: ·)
  | none, '[' :: rest => lexemes? (some []) rest
  | none, '\\' :: c :: rest =>
      if c ∈ metaChars then (lexemes? none rest).map (.piece (char c) :: ·) else none
  | none, c :: rest =>
      if c ∈ metaChars then none else (lexemes? none rest).map (.piece (char c) :: ·)

/-- What has been read of one group: its alternatives, and the pieces of the one that is being
read, each with the last one first. -/
structure Level where
  alternatives : List Regex := []
  pieces : List Regex := []
deriving DecidableEq, Repr

namespace Level

def push (level : Level) (piece : Regex) : Level :=
  { level with pieces := piece :: level.pieces }

def branch (level : Level) : Level where
  alternatives := concat level.pieces.reverse :: level.alternatives

def regex (level : Level) : Regex := anyOf level.branch.alternatives.reverse

end Level

def isAtom : Regex → Bool
  | char _ => true
  | any => true
  | oneOf _ => true
  | group _ => true
  | _ => false

def Level.repeat? (level : Level) (repeated : Regex → Regex) : Option Level :=
  match level.pieces with
  | [] => none
  | piece :: pieces =>
      if piece.isAtom then some { level with pieces := repeated piece :: pieces } else none

/-- Reads on in the innermost group; `outer` are the groups around it. -/
def readFrom (outer : List Level) (level : Level) : List Lexeme → Option Regex
  | [] => if outer = [] then some level.regex else none
  | .piece r :: rest => readFrom outer (level.push r) rest
  | .groupStart :: rest => readFrom (level :: outer) {} rest
  | .groupEnd :: rest =>
      match outer with
      | [] => none
      | around :: outer => readFrom outer (around.push (group level.regex)) rest
  | .bar :: rest => readFrom outer level.branch rest
  | .opt :: rest => (level.repeat? opt).bind fun level => readFrom outer level rest
  | .star :: rest => (level.repeat? star).bind fun level => readFrom outer level rest
  | .plus :: rest => (level.repeat? plus).bind fun level => readFrom outer level rest

def parse? (s : List Char) : Option Regex :=
  (lexemes? none s).bind (readFrom [] {})

def parseAnchored? (text : String) : Option Regex :=
  match text.toList with
  | '^' :: rest => if rest.getLast? = some '$' then parse? rest.dropLast else none
  | _ => none

end LinkTrail.Regex
