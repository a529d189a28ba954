import LinkTrail.PatternSet
import LinkTrail.Proofs.Regex.Written

namespace LinkTrail.PatternSet

open Regex

variable {set : PatternSet} {url : String}

theorem accepts_iff : set.accepts url = true ↔
    ∃ member ∈ set.members, Matches .ignoreAsciiCase member url.toList := by
  rw [accepts, Regex.accepts_iff, regex, matches_union_iff]

theorem writable_regex (h : ∀ member ∈ set.members, Writable member) : Writable set.regex :=
  writable_union h

theorem parseAnchored?_regexText (h : ∀ member ∈ set.members, Writable member) :
    parseAnchored? set.regexText = some set.regex.reread := by
  rw [regexText_eq, parseAnchored?_append, parse?_render (writable_regex h)]

theorem accepts_reread_iff (h : ∀ member ∈ set.members, Writable member) :
    set.regex.reread.accepts .ignoreAsciiCase url.toList = true ↔ set.accepts url = true := by
  rw [Regex.accepts_iff, matches_reread_iff (writable_regex h), accepts, Regex.accepts_iff]

end LinkTrail.PatternSet
