import LinkTrail.PatternSet

namespace LinkTrail.Shortener

def domains : List String :=
  ["adf.ly", "amzn.to", "bit.do", "bit.ly", "buff.ly", "cutt.ly", "dlvr.it", "fb.me", "goo.gl",
  "ift.tt", "is.gd", "lnkd.in", "ow.ly", "rb.gy", "shorturl.at", "t.co", "t.ly", "tiny.cc",
  "tinyurl.com", "trib.al", "v.gd", "wp.me", "youtu.be"]

def urls : PatternSet :=
  ⟨domains.map fun domain => (Pattern.ofDomain true domain).regex⟩

theorem ofDomains_domains : PatternSet.ofDomains domains true = .ok urls := by rfl

def serves (url : String) : Bool := urls.accepts url

end LinkTrail.Shortener
