import FlatSyntax.Lexer.Scanner
import FlatSyntax.Proofs.Lexer.Trivia
import FlatSyntax.Proofs.Token.Validation

namespace FlatSyntax

/-- What stands between two offsets of a document is trivia. -/
def IsGap (document : Text) (start stop : Nat) : Prop :=
  ∃ gap after, document.slice? start stop = some gap ∧
    document.slice? stop document.size = some after ∧ Lexer.IsTrivia gap after

/-- From an offset on, a text is trivia, the lexeme of a token, and a rest. -/
structure Reads (offset : Nat) (text gap : Text) (c : Char) (body rest : Text) (t : Token) :
    Prop where
  text_eq : text = gap ++ (c :: body ++ rest)
  isTrivia : Lexer.IsTrivia gap (c :: body ++ rest)
  opens : Lexer.trivia (c :: body ++ rest) = []
  lexeme : Lexer.lexeme c (body ++ rest) = ⟨t.kind, c :: body⟩
  start : t.span.start = offset + Text.size gap
  stop : t.span.stop = t.span.start + Text.size (c :: body)

/-- The tokens that are read from a text, which starts at the offset, up to its end. -/
inductive Scan : (offset : Nat) → Text → List Token → Prop
  | finish {offset : Nat} {text : Text} : Lexer.IsTrivia text [] → Scan offset text []
  | read {offset : Nat} {text gap body rest : Text} {c : Char} {t : Token} {ts : List Token} :
      Reads offset text gap c body rest t → Scan t.span.stop rest ts → Scan offset text (t :: ts)

namespace Scanner

theorem skip_append (offset : Nat) (p q : Text) :
    skip ⟨offset, p ++ q⟩ p.length = ⟨offset + Text.size p, q⟩ := by
  simp [skip]

/-- One step: either all that is left is trivia, or the next token is read. -/
theorem next_cases (s : Scanner) :
    (Lexer.IsTrivia s.rest [] ∧ s.next = (none, ⟨s.offset + Text.size s.rest, []⟩)) ∨
      ∃ gap c body rest t, Reads s.offset s.rest gap c body rest t ∧
        s.next = (some t, ⟨t.span.stop, rest⟩) := by
  obtain ⟨offset, text⟩ := s
  obtain ⟨after, htext, hgap, hafter⟩ := Lexer.takesTrivia text
  have hfront : skipTrivia ⟨offset, text⟩ = ⟨offset + Text.size (Lexer.trivia text), after⟩ := by
    have h := skip_append offset (Lexer.trivia text) after
    rw [← htext] at h
    exact h
  cases after with
  | nil =>
    rw [List.append_nil] at htext
    left
    refine ⟨htext ▸ hgap, ?_⟩
    simp only [next, hfront]
    rw [← htext]
  | cons c r =>
    right
    obtain ⟨body, hbody⟩ := Lexer.lexeme_text c r
    obtain ⟨rest, hrest⟩ := Lexer.lexeme_prefix_self c r
    rw [hbody] at hrest
    obtain rfl := (List.cons.inj hrest).2
    have hskip := skip_append (offset + Text.size (Lexer.trivia text)) (c :: body) rest
    refine ⟨Lexer.trivia text, c, body, rest, ⟨(Lexer.lexeme c (body ++ rest)).kind,
      offset + Text.size (Lexer.trivia text),
      offset + Text.size (Lexer.trivia text) + Text.size (c :: body), Nat.le_add_right _ _⟩,
      ⟨htext, hgap, hafter, ?_, rfl, rfl⟩, ?_⟩
    · rw [← hbody]
      rfl
    · simp only [next, hfront, hbody]
      simp [skip]

theorem tokens_of_next_eq_none {s s' : Scanner} (h : s.next = (none, s')) : s.tokens = [] := by
  rw [tokens, h]

theorem tokens_of_next_eq_some {s s' : Scanner} {t : Token} (h : s.next = (some t, s')) :
    s.tokens = t :: s'.tokens := by
  rw [tokens, h]

theorem scan_tokens (s : Scanner) : Scan s.offset s.rest s.tokens := by
  rcases next_cases s with ⟨htrivia, hnext⟩ | ⟨gap, c, body, rest, t, hreads, hnext⟩
  · rw [tokens_of_next_eq_none hnext]
    exact .finish htrivia
  · rw [tokens_of_next_eq_some hnext]
    exact .read hreads (scan_tokens ⟨t.span.stop, rest⟩)
  termination_by s.rest.length
  decreasing_by exact length_rest_next_lt hnext

/-- After the last token there is never another. -/
theorem answers_of_next_eq_none {s s' : Scanner} (h : s.next = (none, s')) (n : Nat) :
    s'.answers n = List.replicate n none := by
  have hrest : s'.rest = [] := by
    rcases next_cases s with ⟨-, hnext⟩ | ⟨gap, c, body, rest, t, -, hnext⟩
    · rw [hnext] at h
      obtain ⟨-, rfl⟩ := Prod.mk.inj h
      rfl
    · rw [hnext] at h
      exact absurd (Prod.mk.inj h).1 (by simp)
  obtain ⟨offset, text⟩ := s'
  subst hrest
  have hnext : next ⟨offset, []⟩ = (none, ⟨offset, []⟩) := rfl
  induction n with
  | zero => rfl
  | succ n ih => rw [answers, hnext, ih, List.replicate_succ]

/-- A scanner that is asked again and again gives its tokens in turn. -/
theorem answers_eq (s : Scanner) (n : Nat) :
    s.answers n = (List.range n).map fun i => s.tokens[i]? := by
  induction n generalizing s with
  | zero => rfl
  | succ n ih =>
    rcases next_cases s with ⟨-, hnext⟩ | ⟨gap, c, body, rest, t, -, hnext⟩
    · have hnone := answers_of_next_eq_none hnext n
      rw [answers, tokens_of_next_eq_none hnext, hnext]
      show none :: answers n ⟨s.offset + Text.size s.rest, []⟩ = _
      rw [hnone]
      simp only [List.getElem?_nil]
      rw [List.map_const', List.length_range, List.replicate_succ]
    · rw [answers, hnext, ih, tokens_of_next_eq_some hnext, List.range_succ_eq_map]
      simp [Function.comp_def]

end Scanner

namespace Scan

variable {offset : Nat} {text : Text} {ts : List Token}

theorem le_start (h : Scan offset text ts) : ∀ t ∈ ts, offset ≤ t.span.start := by
  induction h with
  | finish => simp
  | read hreads _ ih =>
    intro u hu
    have hstart := hreads.start
    rcases List.mem_cons.mp hu with rfl | hu
    · omega
    · have := ih u hu
      have := hreads.stop
      omega

theorem pairwise (h : Scan offset text ts) :
    ts.Pairwise fun s t => s.span.stop ≤ t.span.start := by
  induction h with
  | finish => exact List.Pairwise.nil
  | read _ hscan ih => exact List.pairwise_cons.mpr ⟨hscan.le_start, ih⟩

/-- Each token of a document is read somewhere in it. -/
theorem exists_reads (h : Scan offset text ts) {p : Text} (hp : p.size = offset) :
    ∀ t ∈ ts, ∃ q gap c body rest, p ++ text = q ++ (gap ++ (c :: body ++ rest)) ∧
      Reads q.size (gap ++ (c :: body ++ rest)) gap c body rest t := by
  induction h generalizing p with
  | finish => simp
  | @read offset text gap body rest c t ts hreads _ ih =>
    intro u hu
    have htext := hreads.text_eq
    rcases List.mem_cons.mp hu with rfl | hu
    · refine ⟨p, gap, c, body, rest, by rw [htext], ?_⟩
      rw [hp, ← htext]
      exact hreads
    · have hsize : Text.size (p ++ (gap ++ c :: body)) = t.span.stop := by
        rw [Text.size_append, Text.size_append, hreads.stop, hreads.start]
        omega
      obtain ⟨q, gap', c', body', rest', hq, hr⟩ := ih hsize u hu
      refine ⟨q, gap', c', body', rest', ?_, hr⟩
      rw [← hq, htext]
      simp

theorem isGap_of_append {p gap after : Text} (h : Lexer.IsTrivia gap after) :
    IsGap (p ++ gap ++ after) p.size (p ++ gap).size := by
  refine ⟨gap, after, Text.slice?_middle p gap after, ?_, h⟩
  have hafter := Text.slice?_middle (p ++ gap) after []
  rw [List.append_nil] at hafter
  exact hafter

/-- Between the tokens of a document there is nothing but trivia. -/
theorem isGap (h : Scan offset text ts) {p : Text} (hp : p.size = offset) :
    ∀ g ∈ Span.gaps offset (p ++ text).size (ts.map Token.span), IsGap (p ++ text) g.1 g.2 := by
  induction h generalizing p with
  | finish htrivia =>
    intro g hg
    obtain rfl := List.mem_singleton.mp hg
    have hgap := isGap_of_append (p := p) htrivia
    rw [List.append_nil, hp] at hgap
    exact hgap
  | @read offset text gap body rest c t ts hreads _ ih =>
    have htext : p ++ text = p ++ gap ++ (c :: body ++ rest) := by
      rw [hreads.text_eq, List.append_assoc]
    intro g hg
    rcases List.mem_cons.mp hg with rfl | hg
    · have hgap := isGap_of_append (p := p) hreads.isTrivia
      rw [Text.size_append p gap, hp, ← hreads.start, ← htext] at hgap
      exact hgap
    · have hsize : Text.size (p ++ gap ++ c :: body) = t.span.stop := by
        rw [Text.size_append, Text.size_append, hreads.stop, hreads.start, hp]
      have hdocument : p ++ text = p ++ gap ++ c :: body ++ rest := by
        rw [htext, List.append_assoc (p ++ gap)]
      rw [hdocument] at hg ⊢
      exact ih hsize g hg

/-- The text from a token on starts with no trivia, and the token is the lexeme at its front. -/
theorem exists_lexeme (h : Scan 0 text ts) :
    ∀ t ∈ ts, ∃ c body after, t.span.slice? text = some (c :: body) ∧
      text.slice? t.span.stop text.size = some after ∧ Lexer.trivia (c :: body ++ after) = [] ∧
      Lexer.lexeme c (body ++ after) = ⟨t.kind, c :: body⟩ := by
  intro t ht
  have hnil : Text.size [] = 0 := rfl
  obtain ⟨q, gap, c, body, rest, htext, hreads⟩ := h.exists_reads hnil t ht
  have hstart : t.span.start = Text.size (q ++ gap) := by
    rw [Text.size_append, hreads.start]
  have hstop : t.span.stop = Text.size (q ++ gap ++ c :: body) := by
    rw [Text.size_append (q ++ gap), ← hstart, hreads.stop]
  have hdocument : text = q ++ gap ++ c :: body ++ rest := by
    rw [List.nil_append] at htext
    rw [htext, List.append_assoc (q ++ gap), List.append_assoc q]
  refine ⟨c, body, rest, ?_, ?_, hreads.opens, hreads.lexeme⟩
  · rw [Span.slice?, hstart, hstop, hdocument]
    exact Text.slice?_middle (q ++ gap) (c :: body) rest
  · have hrest := Text.slice?_middle (q ++ gap ++ c :: body) rest []
    rw [List.append_nil] at hrest
    rw [hstop, hdocument]
    exact hrest

theorem start_lt_stop (h : Scan 0 text ts) : ∀ t ∈ ts, t.span.start < t.span.stop := by
  intro t ht
  obtain ⟨c, body, after, hslice, -⟩ := h.exists_lexeme t ht
  obtain ⟨p, q, -, hstart, hstop⟩ := Text.slice?_eq_some_iff.mp hslice
  have hpos := Text.size_pos (List.cons_ne_nil c body)
  rw [Text.size_append] at hstop
  omega

theorem wellFormed (h : Scan 0 text ts) : WellFormed text ts := by
  refine wellFormed_iff.mpr ⟨?_, h.pairwise⟩
  intro t ht
  obtain ⟨c, body, after, hslice, -⟩ := h.exists_lexeme t ht
  exact Text.isBoundary_of_slice? hslice

end Scan

theorem scan_tokenize (text : Text) : Scan 0 text (tokenize text) :=
  (Scanner.start text).scan_tokens

/-- No text is lost between the tokens of a document: there stand only blanks and comments, which
no token starts with. A scanner that has come to the end stays there. -/
theorem tokenize_lossless (text : Text) :
    validate text (tokenize text) = .ok () ∧
      (∀ t ∈ tokenize text, t.span.start < t.span.stop) ∧
      (∀ g ∈ Span.gaps 0 text.size ((tokenize text).map Token.span), IsGap text g.1 g.2) ∧
      (∀ t ∈ tokenize text, ∃ c body after, t.span.slice? text = some (c :: body) ∧
        text.slice? t.span.stop text.size = some after ∧
        Text.isBlank c = false ∧ ¬ ['/', '/'] <+: c :: body ++ after) ∧
      (∀ n, (Scanner.start text).answers n = (List.range n).map fun i => (tokenize text)[i]?) ∧
      ∀ s s' : Scanner, s.next = (none, s') → ∀ n, s'.answers n = List.replicate n none := by
  have hscan := scan_tokenize text
  refine ⟨validate_eq_ok_iff.mpr hscan.wellFormed, hscan.start_lt_stop, ?_, ?_,
    (Scanner.start text).answers_eq, fun s s' h n => Scanner.answers_of_next_eq_none h n⟩
  · have hnil : Text.size [] = 0 := rfl
    exact hscan.isGap hnil
  · intro t ht
    obtain ⟨c, body, after, hslice, hafter, hopens, -⟩ := hscan.exists_lexeme t ht
    obtain ⟨hblank, hcomment⟩ := Lexer.trivia_cons_eq_nil_iff.mp hopens
    exact ⟨c, body, after, hslice, hafter, hblank, hcomment⟩

end FlatSyntax
