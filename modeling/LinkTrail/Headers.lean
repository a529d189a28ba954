import LinkTrail.Table
import LinkTrail.Text.Lower

/-! Header fields in their order of arrival, found without regard to case. -/

namespace LinkTrail

def Text.lowered (s : String) : String := String.ofList (Text.lower s.toList)

abbrev Headers := Table String String

namespace Headers

def scan? (h : Headers) (name : String) : Option String :=
  (h.entries.find? fun field => Text.lowered field.1 = Text.lowered name).map Prod.snd

/-- A field of exactly this name goes before one that differs by case. -/
def find? (h : Headers) (name : String) : Option String :=
  (h.get? name).or (h.scan? name)

def withoutName (h : Headers) (name : String) : Headers :=
  h.filterMap fun other value =>
    if Text.lowered other = Text.lowered name then none else some value

/-- The fields of a map that takes names equal up to case for one; the last value stays. -/
def ofCaseless (fields : List (String × String)) : Headers :=
  fields.foldl
    (fun h (name, value) => (h.withoutName name).insert name value)
    .empty

end Headers

end LinkTrail
