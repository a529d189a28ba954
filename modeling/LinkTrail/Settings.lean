import LinkTrail.Pathfinder.Walker
import LinkTrail.Url.Join

namespace LinkTrail

structure Settings where
  timeout : Option Seconds := some 30
  maxRedirects : Int := 30
  requestTimeout : Int := 10
  method : String := "HEAD"
  userAgent : String := ""
  workers : Int := 4
deriving DecidableEq, Repr

def Settings.rules (s : Settings) : Rules where
  timeout := s.timeout
  maxRedirects := s.maxRedirects
  join := Url.join

end LinkTrail
