import LinkTrail.Headers

namespace LinkTrail

/-- The headers of an answer, or the text of the error that came instead of one. -/
structure Response where
  url : String
  status : Int := 0
  headers : Headers := .empty
  error : Option String := none
deriving DecidableEq, Repr

namespace Response

def location? (r : Response) : Option String := r.headers.find? "Location"

def withoutHeaders (r : Response) : Response := { r with headers := .empty }

end Response

end LinkTrail
