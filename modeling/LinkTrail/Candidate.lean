import LinkTrail.Text.Quoted

namespace LinkTrail

inductive Candidate where
  | text (s : String)
  | absent
  | flag (b : Bool)
  | number (n : Int)
  | other (shown : String)
deriving DecidableEq, Repr

namespace Candidate

def text? : Candidate → Option String
  | text s => some s
  | _ => none

def shown : Candidate → String
  | text s => Text.quoted s
  | absent => "None"
  | flag true => "True"
  | flag false => "False"
  | number n => toString n
  | other shown => shown

end Candidate

end LinkTrail
