import LinkTrail.Proofs.Pattern.Matching
import LinkTrail.Proofs.Regex.Escaped

namespace LinkTrail.Pattern

open LinkTrail.Text Regex

namespace Parts

variable (p : Parts)

def schemeSegments : List Segment :=
  if p.scheme = "*" then [.expression (.group (.anyOf [http, webSocket]))] else [.text p.scheme]

def placeSegments : List Segment :=
  if p.host = "*" then [.expression anyHost]
  else (if p.subdomains then [.expression anySubdomains] else []) ++ [.text p.host]

def portSegments : List Segment :=
  if p.scheme = "file" then [] else [.expression anyPort]

def hostSegments : List Segment :=
  if p.hasHost then p.placeSegments ++ p.portSegments else []

def wildcardSegments (pieces : List (List Char)) : List Segment :=
  (pieces.map fun piece => .text (String.ofList piece)).intersperse (.expression anyText)

def pathSegments : List Segment :=
  if p.path = "/" then [.expression (.opt (.char '/'))]
  else if p.path = "/*" then [.expression anyPath]
  else wildcardSegments (split '*' p.path.toList)

def segments : List Segment :=
  p.schemeSegments ++ .expression (word p.separator) :: p.hostSegments ++ p.pathSegments ++
    [.expression anyQuery, .expression anyFragment]

theorem render_schemeSegments : p.schemeSegments.flatMap Segment.render = p.schemeRegex.render := by
  unfold schemeSegments schemeRegex
  split
  · simp [Segment.render]
  · simp [Segment.render, word, render_literal]

theorem render_hostSegments : p.hostSegments.flatMap Segment.render = p.hostRegex.render := by
  have hplace : p.placeSegments.flatMap Segment.render =
      (if p.host = "*" then anyHost
        else concat [if p.subdomains then anySubdomains else empty, word p.host]).render := by
    unfold placeSegments
    split
    · simp [Segment.render]
    · split <;> simp [Segment.render, Regex.render, word, render_literal]
  have hport : p.portSegments.flatMap Segment.render =
      (if p.scheme = "file" then empty else anyPort).render := by
    unfold portSegments
    split <;> simp [Segment.render, Regex.render]
  unfold hostSegments hostRegex
  split
  · rw [List.flatMap_append, hplace, hport, render_concat]
    simp
  · rfl

theorem render_wildcardSegments (pieces : List (List Char)) :
    (wildcardSegments pieces).flatMap Segment.render = (wildcardPath pieces).render := by
  induction pieces with
  | nil => rfl
  | cons piece pieces ih =>
      cases pieces with
      | nil => simp [wildcardSegments, wildcardPath, Segment.render, render_literal]
      | cons second pieces =>
          rw [wildcardPath_cons (List.cons_ne_nil second pieces), render_concat]
          simpa [wildcardSegments, Segment.render, render_literal] using ih

theorem render_pathSegments : p.pathSegments.flatMap Segment.render = p.pathRegex.render := by
  unfold pathSegments pathRegex
  split
  · simp [Segment.render]
  · split
    · simp [Segment.render]
    · exact render_wildcardSegments _

theorem render_segments : p.regex.render = p.segments.flatMap Segment.render := by
  rw [regex, render_concat]
  simp [segments, render_schemeSegments, render_hostSegments, render_pathSegments, Segment.render]

theorem fits_wildcardSegments (pieces : List (List Char)) :
    ∀ segment ∈ wildcardSegments pieces, segment.Fits := by
  have hany : (Segment.expression anyText).Fits := (by decide : FitsInRow anyText)
  induction pieces with
  | nil => simp [wildcardSegments]
  | cons piece pieces ih =>
      cases pieces with
      | nil => simp [wildcardSegments]
      | cons second pieces =>
          exact List.forall_mem_cons.2 ⟨trivial, List.forall_mem_cons.2 ⟨hany, ih⟩⟩

theorem fits_schemeSegments : ∀ segment ∈ p.schemeSegments, segment.Fits := by
  have hweb : FitsInRow (.group (.anyOf [http, webSocket])) := by decide
  unfold schemeSegments
  split
  · exact List.forall_mem_singleton.2 hweb
  · simp

theorem fits_hostSegments : ∀ segment ∈ p.hostSegments, segment.Fits := by
  have hhost : FitsInRow anyHost := by decide
  have hlabels : FitsInRow anySubdomains := by decide
  have hport : FitsInRow anyPort := by decide
  have hplace : ∀ segment ∈ p.placeSegments, segment.Fits := by
    unfold placeSegments
    split
    · exact List.forall_mem_singleton.2 hhost
    · split
      · exact List.forall_mem_cons.2 ⟨hlabels, by simp⟩
      · simp
  unfold hostSegments portSegments
  split
  · refine List.forall_mem_append.2 ⟨hplace, ?_⟩
    split
    · simp
    · exact List.forall_mem_singleton.2 hport
  · simp

theorem fits_pathSegments : ∀ segment ∈ p.pathSegments, segment.Fits := by
  have hslash : FitsInRow (.opt (.char '/')) := by decide
  have hpath : FitsInRow anyPath := by decide
  unfold pathSegments
  split
  · exact List.forall_mem_singleton.2 hslash
  · split
    · exact List.forall_mem_singleton.2 hpath
    · exact fits_wildcardSegments _

theorem fits_segments : ∀ segment ∈ p.segments, segment.Fits := by
  have hseparator : FitsInRow (word p.separator) := fitsInRow_literal p.separator.toList
  have hquery : FitsInRow anyQuery := by decide
  have hfragment : FitsInRow anyFragment := by decide
  have htail : ∀ segment ∈ [.expression anyQuery, .expression anyFragment], Segment.Fits segment :=
    List.forall_mem_cons.2 ⟨hquery, List.forall_mem_singleton.2 hfragment⟩
  unfold segments
  rw [List.forall_mem_append, List.forall_mem_append, List.forall_mem_append, List.forall_mem_cons]
  exact ⟨⟨⟨p.fits_schemeSegments, hseparator, p.fits_hostSegments⟩, p.fits_pathSegments⟩, htail⟩

theorem parse?_render_regex :
    parse? p.regex.render = some (concat (p.segments.flatMap Segment.pieces)) := by
  rw [render_segments, parse?_segments p.fits_segments]

end Parts

/-- Alone, an escaped text is read as an expression of exactly this text. Behind any text that can
be read, it is read as its characters and leaves what comes before and after as it is. In a row of
segments, and the expression of a pattern is such a row, it is as many pieces as it has characters,
and the other pieces are those of the other segments. In a union each alternative has a group of its
own. No two texts have one escaped form. -/
theorem escape_stands_for_text (text : String) :
    parse? (escape text).toList = some (literal text.toList) ∧
      (∀ s : String,
        ((literal text.toList).accepts .exact s.toList = true ↔ s = text) ∧
        ((literal text.toList).accepts .ignoreAsciiCase s.toList = true ↔
          Spells text s.toList)) ∧
      (∀ (before after : List Char) (lexemes : List Lexeme),
        lexemes? none before = some lexemes →
          lexemes? none (before ++ (escape text).toList ++ after) =
            (lexemes? none after).map
              (lexemes ++ (text.toList.map fun c => .piece (char c)) ++ ·)) ∧
      (∀ before after : List Segment, (∀ segment ∈ before ++ after, segment.Fits) →
        parse? ((before ++ .text text :: after).flatMap Segment.render) =
          some (concat (before.flatMap Segment.pieces ++ text.toList.map char ++
            after.flatMap Segment.pieces))) ∧
      (∀ p : Parts, p.regex.render = p.segments.flatMap Segment.render ∧
        (∀ segment ∈ p.segments, segment.Fits) ∧
        parse? p.regex.render = some (concat (p.segments.flatMap Segment.pieces))) ∧
      (∀ (texts : List String) (rs : List Regex),
        List.Forall₂ (fun text r => parse? text.toList = some r) texts rs → texts ≠ [] →
          parseAnchored? (unionText texts) =
            some (concat [group (anyOf (rs.map fun r => concat [group r]))])) ∧
      ∀ other, escape other = escape text → other = text := by
  refine ⟨parse?_escape text, ?_, ?_, ?_, ?_, ?_, ?_⟩
  · exact fun s => ⟨accepts_literal_exact_iff, accepts_iff.trans matches_literal_iff⟩
  · exact fun before after lexemes h => lexemes?_escape_between h text after
  · intro before after h
    obtain ⟨hbefore, hafter⟩ := List.forall_mem_append.1 h
    exact parse?_text_between hbefore hafter text
  · exact fun p => ⟨p.render_segments, p.fits_segments, p.parse?_render_regex⟩
  · exact fun texts rs => parseAnchored?_unionText
  · exact fun other => escape_injective

end LinkTrail.Pattern
