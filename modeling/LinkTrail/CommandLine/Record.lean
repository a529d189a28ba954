import LinkTrail.Text.Quoted

namespace LinkTrail.CommandLine

inductive Field where
  | text (s : String)
  | flag (b : Bool)
  | null
deriving DecidableEq, Repr

def Field.textOrNull : Option String → Field
  | some s => text s
  | none => null

def escapeJson (c : Char) : List Char :=
  if c = '"' ∨ c = '\\' then ['\\', c]
  else if c = '\n' then ['\\', 'n']
  else if c = '\r' then ['\\', 'r']
  else if c = '\t' then ['\\', 't']
  else if c = '\x08' then ['\\', 'b']
  else if c = '\x0c' then ['\\', 'f']
  else if c.toNat < 0x20 then '\\' :: 'u' :: Text.hex 4 c.toNat
  else [c]

def jsonString (s : String) : String :=
  "\"" ++ String.ofList (s.toList.flatMap escapeJson) ++ "\""

def Field.render : Field → String
  | text s => jsonString s
  | flag true => "true"
  | flag false => "false"
  | null => "null"

def member (name : String) (value : Field) : String :=
  jsonString name ++ ": " ++ value.render

def recordLine (fields : List (String × Field)) : String :=
  "\x7b" ++ ", ".intercalate (fields.map fun (name, value) => member name value) ++ "\x7d\n"

end LinkTrail.CommandLine
