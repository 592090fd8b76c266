import FlatSyntax.Proofs.Lexer.Grammar

open scoped Computability

namespace FlatSyntax

namespace Lexer

theorem quotedRest_escape (q : Char) {c : Char} (r : Text) (hc : c ≠ '\n') :
    quotedRest q ('\\' :: c :: r) =
      ('\\' :: c :: (quotedRest q r).1, (quotedRest q r).2) := by
  rw [quotedRest]
  exact hc

theorem quotedRest_cons {c : Char} (q : Char) (r : Text) (hn : c ≠ '\n') (hb : c ≠ '\\') :
    quotedRest q (c :: r) =
      if c = q then ([c], true) else (c :: (quotedRest q r).1, (quotedRest q r).2) := by
  rw [quotedRest]
  · exact hn
  · exact fun h _ => hb h
  · exact fun _ h _ => hb h
  · exact fun _ _ h _ => hb h

/-- A backslash is the last character or has one behind it. -/
theorem ne_backslash {c : Char} {r : Text} (hlast : c = '\\' → r = [] → False)
    (hescape : ∀ d s, c = '\\' → r = d :: s → False) : c ≠ '\\' := by
  intro he
  cases r with
  | nil => exact hlast he rfl
  | cons d s => exact hescape d s he rfl

end Lexer

namespace Grammar

theorem append_mem_kstar {L : Language Char} {w b : Text} (hw : w ∈ L) (hb : b ∈ L∗) :
    w ++ b ∈ L∗ := by
  rw [← Language.one_add_self_mul_kstar_eq_kstar, Language.mem_add]
  exact Or.inr (Language.append_mem_mul hw hb)

theorem plain_mem_quotedChar {q c : Char} (hq : c ≠ q) (hb : c ≠ '\\') (hn : c ≠ '\n') :
    [c] ∈ quotedChar q := by
  refine Or.inl ⟨c, ?_, rfl⟩
  rintro (h | h | h)
  · exact hq h
  · exact hb h
  · exact hn h

theorem escape_mem_quotedChar (q : Char) {c : Char} (hn : c ≠ '\n') : ['\\', c] ∈ quotedChar q :=
  Or.inr ⟨['\\'], ⟨'\\', rfl, rfl⟩, [c], ⟨c, hn, rfl⟩, rfl⟩

theorem ne_of_mem_quote {q : Char} (hq : q ∈ quote) : q ≠ '\n' ∧ q ≠ '\\' := by
  rcases hq with rfl | rfl <;> decide

theorem mem_literal_iff {q : Char} {w : Text} :
    w ∈ literal q ↔ ∃ b ∈ (quotedChar q)∗, w = q :: (b ++ [q]) := by
  rw [literal, Language.mem_mul]
  constructor
  · rintro ⟨_, ⟨_, ⟨_, rfl, rfl⟩, b, hb, rfl⟩, _, ⟨_, rfl, rfl⟩, rfl⟩
    exact ⟨b, hb, rfl⟩
  · rintro ⟨b, hb, rfl⟩
    exact ⟨q :: b, ⟨[q], ⟨q, rfl, rfl⟩, b, hb, rfl⟩, [q], ⟨q, rfl, rfl⟩, rfl⟩

/-- What is read behind a quote is the inside of a literal and its closing quote, or else all
that is left of the line. -/
theorem quotedRest_cases (q : Char) (r : Text) :
    (∃ b ∈ (quotedChar q)∗, Lexer.quotedRest q r = (b ++ [q], true)) ∨
      Lexer.quotedRest q r = (r.takeWhile (· ≠ '\n'), false) := by
  fun_induction Lexer.quotedRest q r
  case case1 => exact Or.inr rfl
  case case2 => exact Or.inr rfl
  case case3 => exact Or.inr rfl
  case case4 => exact Or.inr rfl
  case case5 c r hn rest ih =>
    rcases ih with ⟨b, hb, hclosed⟩ | hopen
    · left
      have hmem := append_mem_kstar (escape_mem_quotedChar q hn) hb
      refine ⟨'\\' :: c :: b, hmem, ?_⟩
      simp only [rest, hclosed, List.cons_append]
    · right
      have hn' : c ≠ '\n' := hn
      simp [rest, hopen, hn']
  case case6 => exact Or.inl ⟨[], Language.nil_mem_kstar _, rfl⟩
  case case7 c r hn hlast hline hescape hq rest ih =>
    have hb := Lexer.ne_backslash hlast hescape
    have hn' : c ≠ '\n' := hn
    rcases ih with ⟨b, hb', hclosed⟩ | hopen
    · left
      have hmem := append_mem_kstar (plain_mem_quotedChar hq hb hn) hb'
      refine ⟨c :: b, hmem, ?_⟩
      simp only [rest, hclosed, List.cons_append]
    · right
      simp [rest, hopen, hn']

/-- A backslash takes the next character with it, so the inside is gone through piece by piece. -/
theorem quotedRest_append {q : Char} (hn : q ≠ '\n') (hb : q ≠ '\\') {b : Text}
    (h : b ∈ (quotedChar q)∗) (r : Text) :
    Lexer.quotedRest q (b ++ q :: r) = (b ++ [q], true) := by
  obtain ⟨pieces, rfl, hpieces⟩ := Language.mem_kstar.mp h
  clear h
  induction pieces with
  | nil =>
    rw [List.flatten_nil, List.nil_append, Lexer.quotedRest_cons q r hn hb, if_pos rfl]
    rfl
  | cons piece pieces ih =>
    have hrest := ih fun p hp => hpieces p (List.mem_cons_of_mem piece hp)
    rw [List.flatten_cons, List.append_assoc]
    rcases hpieces piece List.mem_cons_self with
      ⟨c, hc, rfl⟩ | ⟨_, ⟨_, rfl, rfl⟩, _, ⟨c, hc, rfl⟩, rfl⟩
    · have hcq : c ≠ q := fun h => hc (Or.inl h)
      have hcb : c ≠ '\\' := fun h => hc (Or.inr (Or.inl h))
      have hcn : c ≠ '\n' := fun h => hc (Or.inr (Or.inr h))
      show Lexer.quotedRest q (c :: (pieces.flatten ++ q :: r)) = _
      rw [Lexer.quotedRest_cons q _ hcn hcb, if_neg hcq, hrest]
      rfl
    · have hcn : c ≠ '\n' := hc
      show Lexer.quotedRest q ('\\' :: c :: (pieces.flatten ++ q :: r)) = _
      rw [Lexer.quotedRest_escape q _ hcn, hrest]
      rfl

/-- A literal at the front of a text is read to its end. -/
theorem quoted_of_mem_literal {q : Char} (hq : q ∈ quote) {r m : Text} (hm : m ∈ literal q)
    (h : m <+: q :: r) : Lexer.quoted q r = ⟨.string, m⟩ := by
  obtain ⟨hn, hb⟩ := ne_of_mem_quote hq
  obtain ⟨b, hmem, rfl⟩ := mem_literal_iff.mp hm
  obtain ⟨t, ht⟩ := (List.cons_prefix_cons.mp h).2
  have hr : r = b ++ q :: t := by
    rw [← ht, List.append_assoc]
    rfl
  have hread := quotedRest_append hn hb hmem t
  rw [Lexer.quoted, hr, hread]
  rfl

/-- The line from an unclosed quote on is an error. -/
theorem quoted_of_forall_not_mem {q : Char} (hq : q ∈ quote) {r : Text}
    (h : ∀ w ∈ literal q, ¬ w <+: q :: r) :
    Lexer.quoted q r = ⟨.error, (q :: r).takeWhile (· ≠ '\n')⟩ := by
  obtain ⟨hn, -⟩ := ne_of_mem_quote hq
  rcases quotedRest_cases q r with ⟨b, hb, hclosed⟩ | hopen
  · have hpre := Lexer.quotedRest_prefix_self q r
    rw [hclosed] at hpre
    have hmem := mem_literal_iff.mpr ⟨b, hb, rfl⟩
    exact absurd (List.cons_prefix_cons.mpr ⟨rfl, hpre⟩) (h _ hmem)
  · rw [Lexer.quoted, hopen]
    simp [hn]

end Grammar

end FlatSyntax
