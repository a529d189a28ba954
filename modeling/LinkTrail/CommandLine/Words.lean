import LinkTrail.Decimal.Reading
import LinkTrail.Text.Cut

namespace LinkTrail.CommandLine

open LinkTrail.Text

inductive ValueKind where
  | text
  | integer
  | number
deriving DecidableEq, Repr

def ValueKind.admits : ValueKind → String → Bool
  | text, _ => true
  | integer, word => (Decimal.integer? word).isSome
  | number, word => (Decimal.float? word).isSome

structure Switch where
  names : List String
  value? : Option ValueKind := none
deriving DecidableEq, Repr

def Switch.takesValue (s : Switch) : Bool := s.value?.isSome

def Switch.key (s : Switch) : String := s.names.getLast?.getD ""

def helpSwitch : Switch := { names := ["-h", "--help"] }

def versionSwitch : Switch := { names := ["--version"] }

/-- What a word is taken for before its neighbours are looked at. `attached` is a value that
stands in the same word. -/
inductive Reading where
  | plain
  | separator
  | known (switch : Switch) (name : String) (attached : Option String)
  | unknown
deriving DecidableEq, Repr

inductive Stop where
  | misuse
  | help
  | version
deriving DecidableEq, Repr

def switchNamed? (switches : List Switch) (name : String) : Option Switch :=
  switches.find? fun s => name ∈ s.names

def candidates (switches : List Switch) (p : String → Bool) : List (Switch × String) :=
  switches.flatMap fun s => (s.names.filter p).map fun name => (s, name)

def cutValue (word : String) : String × Option String :=
  match cut? '=' word.toList with
  | some (name, value) => (String.ofList name, some (String.ofList value))
  | none => (word, none)

def readings (switches : List Switch) (word : String) : List Reading :=
  match word.toList with
  | '-' :: '-' :: _ =>
      let (name, value) := cutValue word
      (candidates switches (·.startsWith name)).map fun (s, full) => .known s full value
  | hyphen :: letter :: rest =>
      let short := String.ofList [hyphen, letter]
      (candidates switches fun name => name = short || name.startsWith word).map
        fun (s, name) =>
          .known s name (if name = short then some (String.ofList rest) else none)
  | _ => []

/-- A word that could stand for several options is refused. A lone hyphen, a negative number and
a text with a space are not names of options. -/
def readWord (switches : List Switch) (word : String) : Except Stop Reading :=
  match word.toList with
  | '-' :: _ :: _ =>
      match switchNamed? switches word with
      | some s => .ok (.known s word none)
      | none =>
          let (name, value) := cutValue word
          match value, switchNamed? switches name with
          | some value, some s => .ok (.known s name (some value))
          | _, _ =>
              match readings switches word with
              | [reading] => .ok reading
              | _ :: _ => .error .misuse
              | [] =>
                  if Decimal.isNegativeNumber word.toList ∨ ' ' ∈ word.toList then .ok .plain
                  else .ok .unknown
  | _ => .ok .plain

/-- Words with their readings. Behind the separator all words are plain. -/
def readWords (switches : List Switch) : List String → Except Stop (List (String × Reading))
  | [] => .ok []
  | word :: rest =>
      if word = "--" then .ok ((word, .separator) :: rest.map fun w => (w, .plain))
      else do
        let reading ← readWord switches word
        return (word, reading) :: (← readWords switches rest)

/-- The options that stand in one word, with their values. The last of them may lack its
value, which then has to be the next word. -/
structure Bundle where
  options : List (Switch × String) := []
  lacking? : Option Switch := none
deriving DecidableEq, Repr

namespace Bundle

def alone (switch : Switch) : Bundle :=
  if switch.takesValue then { lacking? := some switch } else { options := [(switch, "")] }

/-- An option with the text that is attached to its name: a value, or, behind a short name
without a value, the letters of further options. -/
def withText (switches : List Switch) (switch : Switch) (short : Bool) :
    List Char → Except Stop Bundle
  | [] => if switch.takesValue then .ok { options := [(switch, "")] } else .error .misuse
  | c :: rest =>
      if switch.takesValue then .ok { options := [(switch, String.ofList (c :: rest))] }
      else
        match short, switchNamed? switches (String.ofList ['-', c]) with
        | true, some next => do
            let others ← match rest with
              | [] => .ok (alone next)
              | _ :: _ => withText switches next true rest
            return { others with options := (switch, "") :: others.options }
        | _, _ => .error .misuse

def ofWord (switches : List Switch) (switch : Switch) (name : String) :
    (attached : Option String) → Except Stop Bundle
  | none => .ok (alone switch)
  | some text => withText switches switch (!name.startsWith "--") text.toList

end Bundle

/-- The options in the order in which they were given, with their values, and the positional
words. `strays` tells of words without a place, which are refused in the end. -/
structure Given where
  values : List (String × String) := []
  positional : List String := []
  strays : Bool := false
deriving DecidableEq, Repr

namespace Given

def has (g : Given) (key : String) : Bool := g.values.any fun entry => entry.1 = key

def all (g : Given) (key : String) : List String :=
  (g.values.filter fun entry => entry.1 = key).map Prod.snd

def last? (g : Given) (key : String) : Option String := (g.all key).getLast?

/-- Takes an option, whose value has to be of its kind; the two that ask about the program end the
reading. -/
def take (g : Given) (switch : Switch) (value : String) : Except Stop Given :=
  if switch = helpSwitch then .error .help
  else if switch = versionSwitch then .error .version
  else if switch.value?.all (·.admits value) then
    .ok { g with values := g.values ++ [(switch.key, value)] }
  else .error .misuse

def takeAll (g : Given) (options : List (Switch × String)) : Except Stop Given :=
  options.foldlM (fun g (switch, value) => g.take switch value) g

end Given

/-- Sorts the words of one command. Its positional words are the first run of words that belong
to no option; `taken` says that this run is over. -/
def gather (switches : List Switch) (g : Given) (taken : Bool) :
    List (String × Reading) → Except Stop Given
  | [] => .ok g
  | (_, .unknown) :: rest => gather switches { g with strays := true } taken rest
  | (_, .known switch name attached) :: rest => do
      let bundle ← Bundle.ofWord switches switch name attached
      match bundle.lacking?, rest with
      | none, rest => gather switches (← g.takeAll bundle.options) taken rest
      | some last, (value, .plain) :: rest =>
          gather switches (← g.takeAll (bundle.options ++ [(last, value)])) taken rest
      | some _, _ => .error .misuse
  | (word, reading) :: rest =>
      let runOver := match rest with
        | (_, .plain) :: _ => false
        | (_, .separator) :: _ => false
        | _ => true
      if taken then gather switches { g with strays := true } true rest
      else if reading = .separator then gather switches g runOver rest
      else gather switches { g with positional := g.positional ++ [word] } runOver rest

def given (switches : List Switch) (words : List String) : Except Stop Given := do
  let g ← gather switches {} false (← readWords switches words)
  if g.positional = [] then .error .misuse else .ok g

def cutCommand (switches : List Switch) (g : Given) :
    List (String × Reading) → Except Stop (Given × String × List String)
  | [] => .error .misuse
  | (_, .separator) :: _ => .error .misuse
  | (command, .plain) :: rest => .ok (g, command, rest.map Prod.fst)
  | (_, .unknown) :: rest => cutCommand switches { g with strays := true } rest
  | (_, .known switch name attached) :: rest => do
      let bundle ← Bundle.ofWord switches switch name attached
      if bundle.lacking?.isSome then .error .misuse
      else cutCommand switches (← g.takeAll bundle.options) rest

end LinkTrail.CommandLine
