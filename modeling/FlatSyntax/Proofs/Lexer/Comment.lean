import FlatSyntax.Proofs.Lexer.Lexical

open scoped Computability

namespace FlatSyntax

namespace Lexer

theorem takeWhile_line {b x : Text} (hb : '\n' ∉ b) (hx : ∀ c ∈ x.head?, c = '\n') :
    (b ++ x).takeWhile (· ≠ '\n') = b := by
  have hall : ∀ c ∈ b, decide (c ≠ '\n') = true := by
    intro c hc
    rw [decide_eq_true_eq]
    intro he
    exact hb (he ▸ hc)
  rw [List.takeWhile_append_of_pos hall]
  cases x with
  | nil => simp
  | cons c x =>
    obtain rfl := hx c rfl
    simp

/-- Trivia that has the slashes of a comment has the rest of their line. -/
theorem IsTrivia.line_prefix {gap after : Text} (h : IsTrivia gap after) {p r : Text}
    (he : gap ++ after = p ++ '/' :: '/' :: r) (hp : p.length < gap.length) :
    p ++ ('/' :: '/' :: r).takeWhile (· ≠ '\n') <+: gap := by
  induction h generalizing p with
  | nil => simp at hp
  | @blank c gap after hc _ ih =>
    cases p with
    | nil =>
      obtain ⟨rfl, -⟩ := List.cons.inj he
      simp [Text.isBlank, Text.Ranges.contains, Text.blanks] at hc
    | cons d p =>
      obtain ⟨rfl, he'⟩ := List.cons.inj he
      exact List.cons_prefix_cons.mpr ⟨rfl, ih he' (Nat.lt_of_succ_lt_succ hp)⟩
  | @comment body gap after hbody hend _ ih =>
    have hline : '\n' ∉ '/' :: '/' :: body := by simp [hbody]
    rw [List.append_assoc] at he
    rcases List.append_eq_append_iff.mp he with ⟨a, rfl, hrest⟩ | ⟨a, hcomment, hrest⟩
    · have ha : a.length < gap.length := by
        simp only [List.length_append] at hp
        omega
      rw [List.append_assoc]
      exact (List.prefix_append_right_inj _).mpr (ih hrest ha)
    · rw [hcomment] at hline
      have ha : '\n' ∉ a := fun h => hline (List.mem_append_right p h)
      rw [hrest, takeWhile_line ha hend, ← hcomment]
      exact List.prefix_append _ _

end Lexer

namespace Grammar

theorem Longest.not_concat {s : Set Char} {text m : Text} {c : Char}
    (h : Longest (one s)∗ text m) (hc : c ∈ s) : ¬ m ++ [c] <+: text := by
  intro hpre
  have hmem : m ++ [c] ∈ (one s)∗ := by
    rw [mem_kstar_one_iff]
    intro x hx
    cases List.mem_append.mp hx with
    | inl hx => exact mem_kstar_one_iff.mp h.mem x hx
    | inr hx => exact List.mem_singleton.mp hx ▸ hc
  have hle := h.longest _ hmem hpre
  rw [List.length_append, List.length_singleton] at hle
  omega

theorem slash_mem_stray : '/' ∈ stray :=
  mem_stray_iff.mpr (by decide)

theorem slash_not_mem_numeral {m : Text} (h : m ∈ numeral) : '/' ∉ m := by
  intro hslash
  have hbad := forall_mem_numeral h '/' hslash
  simp [Lexer.isDigitOrSeparator] at hbad

theorem slash_not_mem_word {m : Text} (h : m ∈ (one wordChar)∗) : '/' ∉ m := by
  intro hslash
  have hword := mem_wordChar_iff.mp (mem_kstar_one_iff.mp h '/' hslash)
  simp [Lexer.isWordChar, Lexer.isWordStart] at hword

theorem slash_not_mem_quote : '/' ∉ quote := by
  simp [quote]

/-- There are slashes only behind a quote and in runs of unrecognized characters. Neither ends
between two slashes. -/
theorem Lexical.of_slash_mem {text m : Text} {kind : TokenKind} (h : Lexical text m kind)
    (hslash : '/' ∈ m) :
    ((∃ q ∈ quote, ∃ b, m = q :: b) ∨ kind = .error ∧ ∀ c ∈ m, c ∈ Grammar.stray) ∧
      (m.getLast? = some '/' → ¬ m ++ ['/'] <+: text) := by
  cases h with
  | semicolon => simp at hslash
  | assign => simp at hslash
  | constKw => simp at hslash
  | letKw => simp at hslash
  | ident _ hm => exact absurd hslash (slash_not_mem_word hm.mem)
  | @string q r m hq hm =>
    obtain ⟨b, -, rfl⟩ := mem_literal_iff.mp hm
    refine ⟨Or.inl ⟨q, hq, _, rfl⟩, ?_⟩
    intro hlast
    have hlast' : q = '/' := by
      rw [← List.cons_append, List.getLast?_concat] at hlast
      exact Option.some.inj hlast
    exact absurd (hlast' ▸ hq) slash_not_mem_quote
  | @unclosed q r m hq _ hm =>
    obtain ⟨d, b, rfl⟩ := List.exists_cons_of_ne_nil (List.ne_nil_of_mem hslash)
    obtain ⟨rfl, -⟩ := List.cons_prefix_cons.mp hm.starts
    exact ⟨Or.inl ⟨d, hq, b, rfl⟩, fun _ => hm.not_concat (by simp)⟩
  | number _ hm => exact absurd hslash (slash_not_mem_numeral hm.mem)
  | malformed _ hm htail =>
    cases List.mem_append.mp hslash with
    | inl hslash => exact absurd hslash (slash_not_mem_numeral hm.mem)
    | inr hslash => exact absurd hslash (slash_not_mem_word htail.mem)
  | stray _ hm =>
    exact ⟨Or.inr ⟨rfl, mem_kstar_one_iff.mp hm.mem⟩, fun _ => hm.not_concat slash_mem_stray⟩

/-- Two slashes, the first of which is in a lexeme, are both in it. -/
theorem Lexical.slashes_prefix {text m p : Text} {kind : TokenKind} (h : Lexical text m kind)
    (hm : m <+: text) (hpre : p ++ ['/', '/'] <+: text) (hp : p.length < m.length) :
    p ++ ['/', '/'] <+: m := by
  by_cases hlen : p.length + 2 ≤ m.length
  · exact List.prefix_of_prefix_length_le hpre hm (by simpa using hlen)
  have hshort : p ++ ['/'] <+: text := (List.prefix_append _ ['/']).trans (by simpa using hpre)
  have hcut : p ++ ['/'] = m := by
    have hle : (p ++ ['/']).length ≤ m.length := by
      rw [List.length_append, List.length_singleton]
      exact hp
    apply (List.prefix_of_prefix_length_le hshort hm hle).eq_of_length_le
    simp only [List.length_append, List.length_singleton]
    omega
  have hslash : '/' ∈ m := by simp [← hcut]
  have hlast : m.getLast? = some '/' := by simp [← hcut]
  have hno := (h.of_slash_mem hslash).2 hlast
  rw [← hcut, List.append_assoc] at hno
  exact absurd hpre hno

end Grammar

theorem Reads.lexical {offset : Nat} {text gap body rest : Text} {c : Char} {t : Token}
    (h : Reads offset text gap c body rest t) :
    Grammar.Lexical (c :: body ++ rest) (c :: body) t.kind :=
  (Grammar.lexical_iff (Lexer.trivia_cons_eq_nil_iff.mp h.opens).1).mpr h.lexeme

/-- The two characters at an offset are in a token that has begun before them. -/
def Token.Swallows (t : Token) (o : Nat) : Prop :=
  t.span.start < o ∧ o + 2 ≤ t.span.stop

/-- Two slashes with the rest of their line are in no token, or some token swallows them. -/
theorem Scan.passes_or_swallows {offset : Nat} {text : Text} {ts : List Token}
    (h : Scan offset text ts) {p r : Text} (htext : text = p ++ '/' :: '/' :: r) :
    (∀ t ∈ ts, t.span.stop ≤ offset + p.size ∨
        offset + p.size + Text.size (('/' :: '/' :: r).takeWhile (· ≠ '\n')) ≤ t.span.start) ∨
      ∃ t ∈ ts, t.Swallows (offset + p.size) := by
  induction h generalizing p with
  | finish => exact Or.inl (by simp)
  | @read offset text gap body rest c t ts hreads hscan ih =>
    have hstart := hreads.start
    have hstop := hreads.stop
    rw [hreads.text_eq] at htext
    rcases Text.append_cases htext with hgap | ⟨a, rfl, hfront⟩
    · left
      have hline := Text.size_le_of_prefix (hreads.isTrivia.line_prefix htext hgap)
      rw [Text.size_append] at hline
      intro u hu
      right
      cases List.mem_cons.mp hu with
      | inl hu =>
        subst hu
        omega
      | inr hu =>
        have := hscan.le_start u hu
        omega
    rcases Text.append_cases hfront with hin | ⟨b, rfl, hrest⟩
    · right
      have hpre : a ++ ['/', '/'] <+: c :: body ++ rest := by
        rw [hfront]
        exact (List.prefix_append_right_inj a).mpr (List.prefix_append ['/', '/'] r)
      have hboth := hreads.lexical.slashes_prefix (List.prefix_append _ rest) hpre hin
      have hsize := Text.size_le_of_prefix hboth
      have hslashes : Text.size ['/', '/'] = 2 := rfl
      have hne : a ≠ [] := by
        intro hnil
        subst hnil
        exact (Lexer.trivia_cons_eq_nil_iff.mp hreads.opens).2 hpre
      have hpos := Text.size_pos hne
      rw [Text.size_append, hslashes] at hsize
      refine ⟨t, List.mem_cons_self, ?_, ?_⟩
      · rw [Text.size_append]
        omega
      · rw [Text.size_append]
        omega
    · have hsize : offset + Text.size (gap ++ (c :: body ++ b)) = t.span.stop + b.size := by
        rw [Text.size_append, Text.size_append]
        omega
      rw [hsize]
      cases ih hrest with
      | inl hpass =>
        left
        intro u hu
        cases List.mem_cons.mp hu with
        | inl hu =>
          subst hu
          exact Or.inl (Nat.le_add_right _ _)
        | inr hu => exact hpass u hu
      | inr hswallow =>
        obtain ⟨u, hu, hswallow⟩ := hswallow
        exact Or.inr ⟨u, List.mem_cons_of_mem t hu, hswallow⟩

namespace Token

/-- The token begins with a quote. -/
def IsQuoted (text : Text) (t : Token) : Prop :=
  ∃ q ∈ Grammar.quote, ∃ b, t.span.slice? text = some (q :: b)

/-- The token is a run of unrecognized characters. -/
def IsUnrecognized (text : Text) (t : Token) : Prop :=
  t.kind = .error ∧ ∃ m, t.span.slice? text = some m ∧ ∀ c ∈ m, c ∈ Grammar.stray

theorem IsUnrecognized.mem_stray {text m : Text} {t : Token} (h : t.IsUnrecognized text)
    (hm : t.span.slice? text = some m) : ∀ c ∈ m, c ∈ Grammar.stray := by
  obtain ⟨-, m', hm', hstray⟩ := h
  obtain rfl := Option.some.inj (hm.symm.trans hm')
  exact hstray

theorem IsQuoted.not_isUnrecognized {text : Text} {t : Token} (h : t.IsQuoted text) :
    ¬ t.IsUnrecognized text := by
  obtain ⟨q, hq, b, hslice⟩ := h
  intro hstray
  have hmem := hstray.mem_stray hslice q List.mem_cons_self
  exact hmem.2 (Or.inl (Or.inr hq))

end Token

/-- Slashes are only in literals, closed or not, and in runs of unrecognized characters. -/
theorem Scan.isQuoted_or_isUnrecognized {text : Text} {ts : List Token} (h : Scan 0 text ts)
    {t : Token} (ht : t ∈ ts) {m : Text} (hm : t.span.slice? text = some m)
    (hslashes : ['/', '/'] <:+: m) : t.IsQuoted text ∨ t.IsUnrecognized text := by
  obtain ⟨c, body, after, hslice, -, hopens, hlexeme⟩ := h.exists_lexeme t ht
  obtain rfl := Option.some.inj (hm.symm.trans hslice)
  have hblank := (Lexer.trivia_cons_eq_nil_iff.mp hopens).1
  have hlexical := (Grammar.lexical_iff hblank).mpr hlexeme
  cases (hlexical.of_slash_mem (hslashes.subset List.mem_cons_self)).1 with
  | inl hquote =>
    obtain ⟨q, hq, b, hb⟩ := hquote
    exact Or.inl ⟨q, hq, b, hb ▸ hm⟩
  | inr hstray => exact Or.inr ⟨hstray.1, _, hm, hstray.2⟩

theorem Token.Swallows.slashes {text m p r : Text} {t : Token} (h : t.Swallows p.size)
    (hm : t.span.slice? text = some m) (htext : text = p ++ '/' :: '/' :: r) :
    ['/', '/'] <:+: m := by
  apply Text.infix_of_slice? hm (p := p) (r := r)
  · rw [htext]
    simp
  · exact Nat.le_of_lt h.1
  · rw [Text.size_append]
    exact h.2

/-- Comments are in no token, whatever stands before them, if only no run of unrecognized
characters has begun there. Such a run goes on over the slashes, as a literal does. -/
theorem tokenize_comments (text : Text) :
    (∀ t ∈ tokenize text, ∀ m, t.span.slice? text = some m → ['/', '/'] <:+: m →
        t.IsQuoted text ∨ t.IsUnrecognized text) ∧
      ∀ p r, text = p ++ '/' :: '/' :: r →
        let line := ('/' :: '/' :: r).takeWhile (· ≠ '\n')
        let passed := ∀ t ∈ tokenize text,
          t.span.stop ≤ p.size ∨ p.size + Text.size line ≤ t.span.start
        let quoted := ∃ t ∈ tokenize text, t.IsQuoted text ∧ t.Swallows p.size
        (passed ∨ quoted ↔ ¬ ∃ t ∈ tokenize text, t.IsUnrecognized text ∧ t.Swallows p.size) ∧
          ((∀ c ∈ p.getLast?, c ∉ Grammar.stray) → passed ∨ quoted) := by
  have hscan := scan_tokenize text
  refine ⟨fun t ht m hm hslashes => hscan.isQuoted_or_isUnrecognized ht hm hslashes, ?_⟩
  intro p r htext line passed quoted
  have hiff : passed ∨ quoted ↔
      ¬ ∃ t ∈ tokenize text, t.IsUnrecognized text ∧ t.Swallows p.size := by
    constructor
    · intro h hno
      obtain ⟨t, ht, hstray, hstart, hstop⟩ := hno
      cases h with
      | inl hpassed =>
        have := hpassed t ht
        omega
      | inr hquoted =>
        obtain ⟨u, hu, hq, hustart, hustop⟩ := hquoted
        have heq : u = t := hscan.wellFormed.eq_of_overlap hu ht (o := p.size)
          (by omega) (by omega)
        exact hq.not_isUnrecognized (heq ▸ hstray)
    · intro hno
      have hcases := hscan.passes_or_swallows htext
      rw [Nat.zero_add] at hcases
      apply hcases.imp_right
      intro hswallow
      obtain ⟨t, ht, hswallow⟩ := hswallow
      obtain ⟨c, body, after, hslice, -⟩ := hscan.exists_lexeme t ht
      have hslashes := hswallow.slashes hslice htext
      cases hscan.isQuoted_or_isUnrecognized ht hslice hslashes with
      | inl hq => exact ⟨t, ht, hq, hswallow⟩
      | inr hstray => exact absurd ⟨t, ht, hstray, hswallow⟩ hno
  refine ⟨hiff, ?_⟩
  intro hlast
  apply hiff.mpr
  intro hno
  obtain ⟨t, ht, hstray, hstart, hstop⟩ := hno
  obtain ⟨c, body, after, hslice, -⟩ := hscan.exists_lexeme t ht
  obtain ⟨x, hx, hmem⟩ := Text.last_mem_of_slice? hslice htext hstart (by omega)
  exact hlast x hx (hstray.mem_stray hslice x hmem)

/-- A comment right behind an unrecognized character is not skipped. -/
theorem stray_run_swallows_comment :
    let text := "+// one".toList
    tokenize text = [⟨.error, 0, 3, by decide⟩, ⟨.ident, 4, 7, by decide⟩] ∧
      ∃ t ∈ tokenize text, ∃ c body, t.span.slice? text = some (c :: body) ∧
        c ∉ Grammar.quote ∧ ['/', '/'] <:+: c :: body := by
  intro text
  have hstray : (Scanner.start text).next =
      (some ⟨.error, 0, 3, by decide⟩, ⟨3, " one".toList⟩) := rfl
  have hword : (Scanner.next ⟨3, " one".toList⟩) =
      (some ⟨.ident, 4, 7, by decide⟩, ⟨7, []⟩) := rfl
  have hend : (Scanner.next ⟨7, []⟩) = (none, ⟨7, []⟩) := rfl
  have htokens : tokenize text = [⟨.error, 0, 3, by decide⟩, ⟨.ident, 4, 7, by decide⟩] := by
    rw [tokenize, Scanner.tokens_of_next_eq_some hstray, Scanner.tokens_of_next_eq_some hword,
      Scanner.tokens_of_next_eq_none hend]
  refine ⟨htokens, ⟨.error, 0, 3, by decide⟩, ?_, '+', ['/', '/'], ?_, ?_, ?_⟩
  · rw [htokens]
    exact List.mem_cons_self
  · decide
  · simp [Grammar.quote]
  · exact (List.suffix_cons '+' ['/', '/']).isInfix

end FlatSyntax
