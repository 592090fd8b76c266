import FlatSyntax.Diagnostic.Excerpt
import FlatSyntax.Proofs.Tree.Lines

namespace FlatSyntax

theorem Span.widen_eq_self {r : Span} {text : Text} (hstart : text.isBoundary r.start = true)
    (hstop : text.isBoundary r.stop = true) : r.widen text = r := by
  rw [widen]
  congr 1
  · exact Text.floor_eq_self hstart
  · exact Text.ceil_eq_self hstop

namespace Excerpt

theorem marked_around {text m : Text} {span : Span} (h : (span.widen text).slice? text = some m) :
    (around text span).marked = m := by
  rw [around, h, Option.getD_some]

/-- What is shown around a stretch of one line is that line alone. -/
theorem newline_not_mem_line {text : Text} {span : Span} (h : '\n' ∉ (around text span).marked) :
    '\n' ∉ (around text span).line := by
  have htake (t : Text) : '\n' ∉ t.takeWhile (· ≠ '\n') := by
    intro hmem
    simpa using List.mem_takeWhile_imp hmem
  have hhead : '\n' ∉ (around text span).head := by
    intro hmem
    exact htake _ (List.mem_reverse.mp hmem)
  have htail : '\n' ∉ (around text span).tail := htake _
  simp [line, hhead, htail, h]

end Excerpt

namespace Diagnostic

/-- The complaint is about a stretch of a text that is read as an error token. It quotes what stands
there, which is all on one line, and a drawing of that line marks nothing else. -/
structure PointsExactly (text : Text) (d : Diagnostic) : Prop where
  isError : ⟨.error, d.span⟩ ∈ tokenize text
  solid : d.span.start < d.span.stop
  inside : d.span.stop ≤ text.size
  aligned : text.isBoundary d.span.start = true ∧ text.isBoundary d.span.stop = true
  widened : d.span.widen text = d.span
  quotes : ∃ m, d.span.slice? text = some m ∧ '\n' ∉ m ∧
    d.message = "unrecognized token `".toList ++ m ++ ['`'] ∧
    (Excerpt.around text d.span).marked = m
  drawn : '\n' ∉ (Excerpt.around text d.span).line

theorem pointsExactly_unrecognized {text : Text} {span : Span}
    (h : ⟨.error, span⟩ ∈ tokenize text) : (unrecognized text span).PointsExactly text := by
  have hscan := scan_tokenize text
  have haligned := hscan.wellFormed.aligned _ h
  obtain ⟨m, hslice, hline⟩ := hscan.exists_slice?_on_line _ h
  have hwiden : span.widen text = span := Span.widen_eq_self haligned.1 haligned.2
  have hmarked : (Excerpt.around text span).marked = m := by
    apply Excerpt.marked_around
    rw [hwiden]
    exact hslice
  have hdrawn : '\n' ∉ (Excerpt.around text span).line := by
    apply Excerpt.newline_not_mem_line
    rw [hmarked]
    exact hline
  constructor
  case isError => exact h
  case solid => exact hscan.start_lt_stop _ h
  case inside => exact hscan.wellFormed.inside _ h
  case aligned => exact haligned
  case widened => exact hwiden
  case quotes => exact ⟨m, hslice, hline, message_unrecognized hslice, hmarked⟩
  case drawn => exact hdrawn

theorem pointsExactly_of_mem_diagnostics {text : Text} {d : Diagnostic}
    (h : d ∈ (parse text).diagnostics) : d.PointsExactly text := by
  rw [(consumed_parse text).diagnostics, text_parse] at h
  obtain ⟨⟨kind, span⟩, ht, hsome⟩ := List.mem_filterMap.mp h
  obtain ⟨rfl, rfl⟩ := Token.complaint?_eq_some_iff.mp hsome
  exact pointsExactly_unrecognized ht

end Diagnostic

/-- The complaints about a text point at its error tokens, each of them at all of one and at nothing
else, and stand one behind the other. -/
theorem parse_diagnostics_place (text : Text) :
    (∀ d ∈ (parse text).diagnostics, d.PointsExactly text) ∧
      (parse text).diagnostics.Pairwise fun d e => d.span.stop ≤ e.span.start := by
  constructor
  · exact fun d hd => Diagnostic.pointsExactly_of_mem_diagnostics hd
  · rw [(consumed_parse text).diagnostics, text_parse]
    have hapart := (wellFormed_tokenize text).apart
    exact Token.pairwise_complaints (R := fun r s => r.stop ≤ s.start) hapart

end FlatSyntax
