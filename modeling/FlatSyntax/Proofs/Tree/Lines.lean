import FlatSyntax.Proofs.Lexer.Lines
import FlatSyntax.Proofs.Session
import FlatSyntax.Proofs.Tree.Consumers

namespace FlatSyntax

/-- The highlight moved forward by a number of bytes. -/
def Highlight.shift (n : Nat) (h : Highlight) : Highlight :=
  ⟨h.span.shift n, h.style⟩

/-- The same complaint about a place a number of bytes further on. -/
def Diagnostic.shift (n : Nat) (d : Diagnostic) : Diagnostic :=
  ⟨d.message, d.label, d.span.shift n⟩

namespace Diagnostic

/-- A complaint about a stretch shows of a document only the text there. -/
theorem unrecognized_append_right {text m : Text} {s : Span} (h : s.slice? text = some m)
    (q : Text) : unrecognized (text ++ q) s = unrecognized text s := by
  have hslice : s.slice? (text ++ q) = s.slice? text := by
    rw [h]
    exact Text.slice?_of_append_right h q
  unfold unrecognized
  rw [hslice]

theorem unrecognized_append_left {text m : Text} {s : Span} (h : s.slice? text = some m)
    (p : Text) : unrecognized (p ++ text) (s.shift p.size) = (unrecognized text s).shift p.size := by
  have hslice : (s.shift p.size).slice? (p ++ text) = s.slice? text := by
    rw [h]
    exact Text.slice?_of_append_left h p
  unfold unrecognized shift
  rw [hslice]

end Diagnostic

namespace Token

theorem highlight?_shift (n : Nat) (t : Token) :
    (t.shift n).highlight? = t.highlight?.map (Highlight.shift n) := by
  rw [highlight?, highlight?, Option.map_map]
  rfl

theorem complaint?_append_right {text : Text} {t : Token} (h : t.Placed text) (q : Text) :
    t.complaint? (text ++ q) = t.complaint? text := by
  obtain ⟨m, hm⟩ := h.exists_slice?
  rw [complaint?, complaint?, Diagnostic.unrecognized_append_right hm]

theorem complaint?_append_left {text : Text} {t : Token} (h : t.Placed text) (p : Text) :
    (t.shift p.size).complaint? (p ++ text) =
      (t.complaint? text).map (Diagnostic.shift p.size) := by
  obtain ⟨m, hm⟩ := h.exists_slice?
  have hmoved := Diagnostic.unrecognized_append_left hm p
  have hkind : (t.shift p.size).kind = t.kind := rfl
  have hspan : (t.shift p.size).span = t.span.shift p.size := rfl
  rw [complaint?, complaint?, hkind, hspan, hmoved]
  by_cases he : t.kind = .error <;> simp [he]

section Rows

variable {text : Text} {ts : List Token}

theorem highlights_shift (n : Nat) (ts : List Token) :
    (ts.map (shift n)).filterMap highlight? = (ts.filterMap highlight?).map (Highlight.shift n) := by
  rw [List.filterMap_map, List.map_filterMap]
  apply List.filterMap_congr
  intro t _
  exact highlight?_shift n t

theorem complaints_append_right (h : ∀ t ∈ ts, t.Placed text) (q : Text) :
    ts.filterMap (complaint? (text ++ q)) = ts.filterMap (complaint? text) := by
  apply List.filterMap_congr
  intro t ht
  exact complaint?_append_right (h t ht) q

theorem complaints_append_left (h : ∀ t ∈ ts, t.Placed text) (p : Text) :
    (ts.map (shift p.size)).filterMap (complaint? (p ++ text)) =
      (ts.filterMap (complaint? text)).map (Diagnostic.shift p.size) := by
  rw [List.filterMap_map, List.map_filterMap]
  apply List.filterMap_congr
  intro t ht
  exact complaint?_append_left (h t ht) p

end Rows

end Token

theorem wellFormed_tokenize (text : Text) : WellFormed text (tokenize text) :=
  (scan_tokenize text).wellFormed

theorem parse_eq_ofTokens (text : Text) : parse text = Tree.ofTokens text (tokenize text) := by
  rw [parse_eq_build, Tree.build_eq_ofTokens (wellFormed_tokenize text)]

theorem consumed_parse (text : Text) : (parse text).Consumed (tokenize text) := by
  rw [parse_eq_ofTokens]
  exact Tree.consumed_ofTokens (wellFormed_tokenize text)

theorem text_parse (text : Text) : (parse text).text = text := by
  rw [parse_eq_ofTokens, Tree.text_ofTokens]

/-- Two lines are read one by one. What is found in the second stands behind the first and the
new line, and is otherwise the same. -/
theorem parse_append_newline (a b : Text) :
    let n := a.size + 1
    let text := a ++ '\n' :: b
    tokenize text = tokenize a ++ (tokenize b).map (Token.shift n) ∧
      (parse text).highlight = (parse a).highlight ++ (parse b).highlight.map (Highlight.shift n) ∧
      (parse text).diagnostics =
        (parse a).diagnostics ++ (parse b).diagnostics.map (Diagnostic.shift n) := by
  intro n text
  have htokens : tokenize text = tokenize a ++ (tokenize b).map (Token.shift n) :=
    tokenize_append_newline a b
  have hsize : Text.size (a ++ ['\n']) = n := Text.size_append a ['\n']
  have hline : text = a ++ ['\n'] ++ b := by simp [text]
  have hfirst : (tokenize a).filterMap (Token.complaint? text) =
      (tokenize a).filterMap (Token.complaint? a) :=
    Token.complaints_append_right (wellFormed_tokenize a).aligned ('\n' :: b)
  have hsecond := Token.complaints_append_left (wellFormed_tokenize b).aligned (a ++ ['\n'])
  rw [hsize, ← hline] at hsecond
  refine ⟨htokens, ?_, ?_⟩
  · rw [(consumed_parse text).highlights, (consumed_parse a).highlights,
      (consumed_parse b).highlights, htokens, List.filterMap_append, Token.highlights_shift]
  · rw [(consumed_parse text).diagnostics, (consumed_parse a).diagnostics,
      (consumed_parse b).diagnostics, text_parse, text_parse, text_parse, htokens,
      List.filterMap_append, hfirst, hsecond]

end FlatSyntax
