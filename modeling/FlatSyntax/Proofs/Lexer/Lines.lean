import FlatSyntax.Proofs.Lexer.Cut
import FlatSyntax.Proofs.Lexer.Lexical

open scoped Computability

namespace FlatSyntax

namespace Grammar

theorem newline_not_mem_literal {q : Char} {m : Text} (hq : q ∈ quote) (h : m ∈ literal q) :
    '\n' ∉ m := by
  obtain ⟨b, hb, rfl⟩ := mem_literal_iff.mp h
  have hquote := (ne_of_mem_quote hq).1.symm
  have hinside : '\n' ∉ b := by
    obtain ⟨pieces, rfl, hpieces⟩ := Language.mem_kstar.mp hb
    intro hmem
    obtain ⟨piece, hpiece, hnewline⟩ := List.mem_flatten.mp hmem
    cases hpieces piece hpiece with
    | inl hplain =>
      obtain ⟨c, hc, rfl⟩ := hplain
      obtain rfl := List.mem_singleton.mp hnewline
      exact hc (Or.inr (Or.inr rfl))
    | inr hescape =>
      obtain ⟨_, ⟨_, rfl, rfl⟩, _, ⟨c, hc, rfl⟩, rfl⟩ := hescape
      have hcn : c ≠ '\n' := hc
      simp [hcn.symm] at hnewline
  simp [hquote, hinside]

/-- A lexeme stays in its line. -/
theorem Lexical.newline_not_mem {text m : Text} {kind : TokenKind} (h : Lexical text m kind) :
    '\n' ∉ m := by
  have hword {w : Text} (hw : w ∈ (one wordChar)∗) : '\n' ∉ w := by
    intro hnewline
    have hbad := mem_wordChar_iff.mp (mem_kstar_one_iff.mp hw _ hnewline)
    exact absurd hbad (by decide)
  have hnumeral {w : Text} (hw : w ∈ numeral) : '\n' ∉ w := by
    intro hnewline
    have hbad := forall_mem_numeral hw _ hnewline
    exact absurd hbad (by decide)
  cases h with
  | semicolon => simp
  | assign => simp
  | constKw => simp
  | letKw => simp
  | ident _ hm => exact hword hm.mem
  | string hq hm => exact newline_not_mem_literal hq hm
  | unclosed _ _ hm =>
    intro hnewline
    exact mem_kstar_one_iff.mp hm.mem _ hnewline rfl
  | number _ hm => exact hnumeral hm.mem
  | malformed _ hm htail =>
    intro hnewline
    cases List.mem_append.mp hnewline with
    | inl hnewline => exact hnumeral hm.mem hnewline
    | inr hnewline => exact hword htail.mem hnewline
  | stray _ hm =>
    intro hnewline
    have hbad := mem_stray_iff.mp (mem_kstar_one_iff.mp hm.mem _ hnewline)
    exact absurd hbad (by decide)

end Grammar

/-- A lexeme does not see whether its line is the last one. -/
theorem Lexer.lexeme_append_newline {c : Char} (hc : Text.isBlank c = false) (r b : Text) :
    lexeme c (r ++ '\n' :: b) = lexeme c r := by
  have hall : (lexeme c (r ++ '\n' :: b)).text <+: c :: r ++ '\n' :: b := lexeme_prefix_self c _
  have hone := (Grammar.lexical_lexeme hc (r ++ '\n' :: b)).newline_not_mem
  have hline : (lexeme c (r ++ '\n' :: b)).text <+: c :: r := by
    cases List.prefix_or_prefix_of_prefix hall (List.prefix_append (c :: r) _) with
    | inl hpre => exact hpre
    | inr hpre =>
      obtain ⟨x, hx⟩ := hpre
      rw [← hx] at hall hone ⊢
      rw [List.prefix_append_right_inj] at hall
      cases x with
      | nil => simp
      | cons d x =>
        obtain ⟨rfl, -⟩ := List.cons_prefix_cons.mp hall
        simp at hone
  exact (lexeme_of_cut hline (List.prefix_append r _)).symm

section Reads

variable {offset : Nat} {text gap body rest : Text} {c : Char} {t : Token}

theorem Reads.trivia_eq (h : Reads offset text gap c body rest t) : Lexer.trivia text = gap := by
  rw [h.text_eq]
  exact h.isTrivia.trivia_eq h.opens

/-- A text can be read in one way only. -/
theorem Reads.unique {gap' body' rest' : Text} {c' : Char} {t' : Token}
    (h : Reads offset text gap c body rest t) (h' : Reads offset text gap' c' body' rest' t') :
    rest = rest' ∧ t = t' := by
  obtain rfl : gap = gap' := h.trivia_eq.symm.trans h'.trivia_eq
  have hcut : c :: (body ++ rest) = c' :: (body' ++ rest') :=
    List.append_cancel_left (h.text_eq.symm.trans h'.text_eq)
  obtain ⟨rfl, hbody⟩ := List.cons.inj hcut
  have hlexeme := h.lexeme
  rw [hbody, h'.lexeme] at hlexeme
  obtain ⟨hkind, htext⟩ := Lexeme.mk.inj hlexeme
  obtain rfl := (List.cons.inj htext).2
  obtain ⟨kind, start, stop, hle⟩ := t
  obtain ⟨kind', start', stop', hle'⟩ := t'
  obtain rfl : kind' = kind := hkind
  obtain rfl : start = start' := h.start.trans h'.start.symm
  obtain rfl : stop = stop' := h.stop.trans h'.stop.symm
  exact ⟨List.append_cancel_left hbody, rfl⟩

theorem Reads.shift (h : Reads offset text gap c body rest t) (n : Nat) :
    Reads (offset + n) text gap c body rest (t.shift n) := by
  have hstart := h.start
  have hstop := h.stop
  refine ⟨h.text_eq, h.isTrivia, h.opens, h.lexeme, ?_, ?_⟩
  · simp only [Token.shift, Span.shift]
    omega
  · simp only [Token.shift, Span.shift]
    omega

/-- More trivia before a text is read along with its own. -/
theorem Reads.prepend {front : Text} (h : Reads (offset + front.size) text gap c body rest t)
    (hf : Lexer.IsTrivia front text) :
    Reads offset (front ++ text) (front ++ gap) c body rest t := by
  refine ⟨?_, hf.append h.text_eq h.isTrivia, h.opens, h.lexeme, ?_, h.stop⟩
  · rw [h.text_eq, List.append_assoc]
  · rw [h.start, Text.size_append, Nat.add_assoc]

/-- The next token of a text that is not at its end yet is the same with another line behind. -/
theorem Reads.append_newline (h : Reads offset text gap c body rest t) (b : Text) :
    Reads offset (text ++ '\n' :: b) gap c body (rest ++ '\n' :: b) t := by
  have hline : c :: body ++ (rest ++ '\n' :: b) = c :: (body ++ rest ++ '\n' :: b) := by simp
  refine ⟨?_, ?_, ?_, ?_, h.start, h.stop⟩
  · rw [h.text_eq]
    simp
  · apply h.isTrivia.followed
    intro x hx
    exact Or.inr hx
  · rw [hline, Lexer.trivia_cons_eq_nil_iff]
    obtain ⟨hblank, hcomment⟩ := Lexer.trivia_cons_eq_nil_iff.mp h.opens
    refine ⟨hblank, ?_⟩
    intro hpre
    apply hcomment
    obtain ⟨hc, hslash⟩ := List.cons_prefix_cons.mp hpre
    cases hr : body ++ rest with
    | nil => simp [hr] at hslash
    | cons d r =>
      rw [hr] at hslash
      obtain ⟨hd, -⟩ := List.cons_prefix_cons.mp hslash
      show ['/', '/'] <+: c :: (body ++ rest)
      rw [hr]
      exact List.cons_prefix_cons.mpr ⟨hc, List.cons_prefix_cons.mpr ⟨hd, List.nil_prefix⟩⟩
  · rw [← List.append_assoc, Lexer.lexeme_append_newline (Lexer.trivia_cons_eq_nil_iff.mp h.opens).1]
    exact h.lexeme

end Reads

namespace Scan

variable {offset : Nat} {text : Text} {ts : List Token}

/-- A scanner gives the tokens of its text, and no other row of tokens is read from it. -/
theorem tokens_eq (h : Scan offset text ts) : Scanner.tokens ⟨offset, text⟩ = ts := by
  induction h with
  | @finish offset text htrivia =>
    rcases Scanner.next_cases ⟨offset, text⟩ with ⟨-, hnext⟩ | ⟨gap, c, body, rest, t, hreads, -⟩
    · exact Scanner.tokens_of_next_eq_none hnext
    · have hall := htrivia.trivia_eq rfl
      have hgap : Lexer.trivia text = gap := hreads.trivia_eq
      have htext : text = gap ++ (c :: body ++ rest) := hreads.text_eq
      rw [List.append_nil, hgap] at hall
      simp [hall] at htext
  | @read offset text gap body rest c t ts hreads _ ih =>
    rcases Scanner.next_cases ⟨offset, text⟩ with ⟨htrivia, -⟩ | ⟨_, _, _, _, _, hreads', hnext⟩
    · have hall := Lexer.IsTrivia.trivia_eq htrivia rfl
      have htext := hreads.text_eq
      rw [List.append_nil] at hall
      have hgap : text = gap := hall.symm.trans hreads.trivia_eq
      simp [hgap] at htext
    · obtain ⟨rfl, rfl⟩ := hreads.unique hreads'
      rw [Scanner.tokens_of_next_eq_some hnext, ih]

theorem shift (h : Scan offset text ts) (n : Nat) :
    Scan (offset + n) text (ts.map (Token.shift n)) := by
  induction h with
  | finish htrivia => exact .finish htrivia
  | read hreads _ ih => exact .read (hreads.shift n) ih

theorem prepend {front : Text} (h : Scan (offset + front.size) text ts)
    (hf : Lexer.IsTrivia front text) : Scan offset (front ++ text) ts := by
  cases h with
  | finish htrivia => exact .finish (hf.append (List.append_nil text).symm htrivia)
  | read hreads hrest => exact .read (hreads.prepend hf) hrest

/-- The tokens of two lines are those of the first and then those of the second. -/
theorem append_newline {b : Text} {us : List Token} (h : Scan offset text ts)
    (hb : Scan (offset + text.size + 1) b us) : Scan offset (text ++ '\n' :: b) (ts ++ us) := by
  induction h with
  | @finish offset text htrivia =>
    have hsize : Text.size (text ++ ['\n']) = text.size + 1 := Text.size_append _ _
    have hline : Lexer.IsTrivia text (['\n'] ++ b) := by
      apply htrivia.followed
      intro c hc
      exact Or.inl (Option.some.inj hc).symm
    have hfront : Lexer.IsTrivia (text ++ ['\n']) b :=
      hline.append rfl (.blank Text.isBlank_newline .nil)
    rw [Nat.add_assoc, ← hsize] at hb
    have hjoined := hb.prepend hfront
    rw [List.append_assoc] at hjoined
    exact hjoined
  | @read offset text gap body rest c t ts hreads _ ih =>
    refine .read (hreads.append_newline b) (ih ?_)
    have hend : t.span.stop + rest.size = offset + text.size := by
      rw [hreads.text_eq, Text.size_append, Text.size_append, hreads.stop, hreads.start]
      omega
    rw [hend]
    exact hb

end Scan

/-- Each token stands on one line. -/
theorem Scan.exists_slice?_on_line {text : Text} {ts : List Token} (h : Scan 0 text ts) :
    ∀ t ∈ ts, ∃ m, t.span.slice? text = some m ∧ '\n' ∉ m := by
  intro t ht
  obtain ⟨c, body, after, hslice, -, hopens, hlexeme⟩ := h.exists_lexeme t ht
  have hblank := (Lexer.trivia_cons_eq_nil_iff.mp hopens).1
  have hline := (Grammar.lexical_lexeme hblank (body ++ after)).newline_not_mem
  rw [hlexeme] at hline
  exact ⟨c :: body, hslice, hline⟩

theorem tokenize_append_newline (a b : Text) :
    tokenize (a ++ '\n' :: b) = tokenize a ++ (tokenize b).map (Token.shift (a.size + 1)) := by
  have hb := (scan_tokenize b).shift (a.size + 1)
  rw [← Nat.add_assoc] at hb
  exact ((scan_tokenize a).append_newline hb).tokens_eq

end FlatSyntax
