import LinkTrail.Url.Split

namespace LinkTrail.Url

open LinkTrail.Text

def cutParameters (path : List Char) : List Char × List Char :=
  match cutLast? '/' path with
  | none => cut ';' path
  | some (folder, name) =>
      let (name, parameters) := cut ';' name
      (folder ++ '/' :: name, parameters)

structure Reference where
  url : Url
  parameters : List Char

def Reference.ofUrl (u : Url) : Reference :=
  if parameterSchemes.contains u.scheme then
    let (path, parameters) := cutParameters u.path
    ⟨{ u with path }, parameters⟩
  else ⟨u, []⟩

def Reference.render (r : Reference) : List Char :=
  if r.parameters = [] then r.url.render
  else { r.url with path := r.url.path ++ ';' :: r.parameters }.render

def folder (path : List Char) : List (List Char) :=
  let segments := Text.split '/' path
  if segments.getLast? = some [] then segments else segments.dropLast

def withoutInnerEmpty : List (List Char) → List (List Char)
  | [] => []
  | first :: rest => first :: (rest.dropLast.filter (· ≠ []) ++ rest.drop (rest.length - 1))

def isDots (segment : List Char) : Bool := segment = ['.'] || segment = ['.', '.']

/-- The kept segments, last one first: a double dot takes back the one before it. -/
def keptSegments (segments : List (List Char)) : List (List Char) :=
  segments.foldl
    (fun kept segment =>
      if segment = ['.', '.'] then kept.tail
      else if segment = ['.'] then kept
      else segment :: kept)
    []

/-- The path without dot segments; it ends in a slash where a dot segment stood last. -/
def resolveSegments (segments : List (List Char)) : List Char :=
  let kept := (keptSegments segments).reverse
  let kept := if segments.getLast?.any isDots then kept ++ [[]] else kept
  match Text.join '/' kept with
  | [] => ['/']
  | path => path

def joinPath (base path : List Char) : List Char :=
  if path.head? = some '/' then resolveSegments (Text.split '/' path)
  else resolveSegments (withoutInnerEmpty (folder base ++ Text.split '/' path))

/-- The reference under the scheme of its base and, unless it has one, with its authority. -/
def Reference.against (base r : Reference) : Reference :=
  if r.url.authority ≠ [] then r
  else
    let authority := base.url.authority
    if r.url.path = [] ∧ r.parameters = [] then
      let query := if r.url.query = [] then base.url.query else r.url.query
      { url := { r.url with authority, path := base.url.path, query }
        parameters := base.parameters }
    else { r with url := { r.url with authority, path := joinPath base.url.path r.url.path } }

/-- A target of another scheme, or of one under which nothing is relative, stands for itself. -/
def joinParts (base t : Url) (target : List Char) : List Char :=
  if t.scheme = base.scheme ∧ relativeSchemes.contains t.scheme then
    ((Reference.ofUrl base).against (Reference.ofUrl t)).render
  else target

def joinText (base target : List Char) : Except Error (List Char) :=
  if base = [] then .ok target
  else if target = [] then .ok base
  else
    (Url.split base).bind fun b =>
      (Url.splitWith b.scheme target).map fun t => joinParts b t target

def join (base target : String) : Except Error String :=
  (joinText base.toList target.toList).map String.ofList

end LinkTrail.Url
