import FlatSyntax.Proofs.Lexer.Literal
import FlatSyntax.Proofs.Lexer.Numeral
import FlatSyntax.Proofs.Lexer.Scan

open scoped Computability

namespace FlatSyntax

namespace Grammar

/-- The token at the front of a text, by the lexical grammar: its own text and its kind. -/
inductive Lexical : (text m : Text) → TokenKind → Prop
  | semicolon {r : Text} : Lexical (';' :: r) [';'] .semicolon
  | assign {r : Text} : Lexical ('=' :: r) ['='] .assign
  | constKw {c : Char} {r : Text} :
      c ∈ wordStart → Longest (one wordChar)∗ (c :: r) "const".toList →
      Lexical (c :: r) "const".toList .constKw
  | letKw {c : Char} {r : Text} :
      c ∈ wordStart → Longest (one wordChar)∗ (c :: r) "let".toList →
      Lexical (c :: r) "let".toList .letKw
  | ident {c : Char} {r m : Text} :
      c ∈ wordStart → Longest (one wordChar)∗ (c :: r) m →
      m ≠ "const".toList → m ≠ "let".toList → Lexical (c :: r) m .ident
  | string {q : Char} {r m : Text} :
      q ∈ quote → m ∈ literal q → m <+: q :: r → Lexical (q :: r) m .string
  | unclosed {q : Char} {r m : Text} :
      q ∈ quote → (∀ w ∈ literal q, ¬ w <+: q :: r) →
      Longest (one {'\n'}ᶜ)∗ (q :: r) m → Lexical (q :: r) m .error
  | number {c : Char} {r m : Text} :
      c ∈ digit → Longest numeral (c :: r) m →
      Longest (one wordChar)∗ ((c :: r).drop m.length) [] → Lexical (c :: r) m .number
  | malformed {c : Char} {r m tail : Text} :
      c ∈ digit → Longest numeral (c :: r) m →
      Longest (one wordChar)∗ ((c :: r).drop m.length) tail → tail ≠ [] →
      Lexical (c :: r) (m ++ tail) .error
  | stray {c : Char} {r m : Text} :
      c ∉ {';', '='} ∪ digit ∪ quote ∪ wordStart → Longest (one stray)∗ (c :: r) m →
      Lexical (c :: r) m .error

theorem not_mem_digit_of_mem_wordStart {c : Char} (h : c ∈ wordStart) : c ∉ digit := by
  intro hdigit
  obtain ⟨hzero, hnine⟩ := hdigit
  rcases h with (⟨hupper, -⟩ | ⟨hlower, -⟩) | rfl | rfl
  · exact absurd (Char.le_trans hupper hnine) (by decide)
  · exact absurd (Char.le_trans hlower hnine) (by decide)
  · exact absurd hnine (by decide)
  · exact absurd hzero (by decide)

theorem lexeme_of_mem_digit {c : Char} (h : c ∈ digit) (r : Text) :
    Lexer.lexeme c r = Lexer.number c r := by
  have hs : c ≠ ';' := by
    intro he
    subst he
    simp [digit] at h
  have he : c ≠ '=' := by
    intro he
    subst he
    simp [digit] at h
  rw [Lexer.lexeme, if_neg hs, if_neg he, if_pos (mem_digit_iff.mp h)]

theorem lexeme_of_mem_quote {q : Char} (h : q ∈ quote) (r : Text) :
    Lexer.lexeme q r = Lexer.quoted q r := by
  rcases h with rfl | rfl <;> rfl

theorem lexeme_of_mem_wordStart {c : Char} (h : c ∈ wordStart) (r : Text) :
    Lexer.lexeme c r = Lexer.word c r := by
  have hword := mem_wordStart_iff.mp h
  have hs : c ≠ ';' := by
    intro he
    subst he
    simp [Lexer.isWordStart] at hword
  have he : c ≠ '=' := by
    intro he
    subst he
    simp [Lexer.isWordStart] at hword
  have hd : ¬ c.isDigit = true := by
    intro hd
    exact not_mem_digit_of_mem_wordStart h (mem_digit_iff.mpr hd)
  have hq : ¬ (c = '"' ∨ c = '\'') := by
    intro hq
    rcases hq with rfl | rfl
    · simp [Lexer.isWordStart] at hword
    · simp [Lexer.isWordStart] at hword
  rw [Lexer.lexeme, if_neg hs, if_neg he, if_neg hd, if_neg hq, if_pos hword]

theorem lexeme_of_not_mem {c : Char} (h : c ∉ {';', '='} ∪ digit ∪ quote ∪ wordStart) (r : Text) :
    Lexer.lexeme c r = ⟨.error, c :: r.takeWhile Lexer.isStray⟩ := by
  have hs : c ≠ ';' := fun hs => h (Or.inl (Or.inl (Or.inl (Or.inl hs))))
  have he : c ≠ '=' := fun he => h (Or.inl (Or.inl (Or.inl (Or.inr he))))
  have hd : ¬ c.isDigit = true := fun hd => h (Or.inl (Or.inl (Or.inr (mem_digit_iff.mpr hd))))
  have hq : ¬ (c = '"' ∨ c = '\'') := fun hq => h (Or.inl (Or.inr hq))
  have hw : ¬ Lexer.isWordStart c = true := fun hw => h (Or.inr (mem_wordStart_iff.mpr hw))
  rw [Lexer.lexeme, if_neg hs, if_neg he, if_neg hd, if_neg hq, if_neg hw]

theorem lexeme_of_word {c : Char} {r m : Text} (hc : c ∈ wordStart)
    (h : Longest (one wordChar)∗ (c :: r) m) : Lexer.lexeme c r = ⟨Lexer.wordKind m, m⟩ := by
  have hm := h.unique (longest_word (c :: r))
  have hhead : Lexer.isWordChar c = true := mem_wordChar_iff.mp (Or.inl hc)
  rw [List.takeWhile_cons_of_pos hhead] at hm
  rw [lexeme_of_mem_wordStart hc, Lexer.word, hm]

theorem lexeme_of_numeral {c : Char} {r m tail : Text} (hc : c ∈ digit)
    (hm : Longest numeral (c :: r) m)
    (htail : Longest (one wordChar)∗ ((c :: r).drop m.length) tail) :
    Lexer.lexeme c r = ⟨if tail.isEmpty then .number else .error, m ++ tail⟩ := by
  obtain rfl := hm.unique (longest_numeral (mem_digit_iff.mp hc) r)
  obtain rfl := htail.unique (longest_word _)
  exact lexeme_of_mem_digit hc r

theorem lexeme_of_stray {c : Char} {r m : Text} (hblank : Text.isBlank c = false)
    (hc : c ∉ {';', '='} ∪ digit ∪ quote ∪ wordStart) (h : Longest (one stray)∗ (c :: r) m) :
    Lexer.lexeme c r = ⟨.error, m⟩ := by
  have hm := h.unique (longest_stray (c :: r))
  have hhead : c ∈ stray := by
    refine ⟨hblank, ?_⟩
    intro hother
    rcases hother with (hs | hq) | hw | hd
    · exact hc (Or.inl (Or.inl (Or.inl hs)))
    · exact hc (Or.inl (Or.inr hq))
    · exact hc (Or.inr hw)
    · exact hc (Or.inl (Or.inl (Or.inr hd)))
  rw [List.takeWhile_cons_of_pos (mem_stray_iff.mp hhead)] at hm
  rw [lexeme_of_not_mem hc, hm]

theorem Lexical.lexeme_eq {c : Char} {r m : Text} {kind : TokenKind}
    (hblank : Text.isBlank c = false) (h : Lexical (c :: r) m kind) :
    Lexer.lexeme c r = ⟨kind, m⟩ := by
  cases h with
  | semicolon => rfl
  | assign => rfl
  | constKw hc hm => exact lexeme_of_word hc hm
  | letKw hc hm => exact lexeme_of_word hc hm
  | ident hc hm hconst hlet =>
    rw [lexeme_of_word hc hm, Lexer.wordKind, if_neg hconst, if_neg hlet]
  | string hq hm hpre => rw [lexeme_of_mem_quote hq, quoted_of_mem_literal hq hm hpre]
  | unclosed hq hno hm =>
    rw [lexeme_of_mem_quote hq, quoted_of_forall_not_mem hq hno, hm.unique (longest_line (c :: r))]
  | number hc hm htail =>
    have h := lexeme_of_numeral hc hm htail
    rw [List.append_nil] at h
    exact h
  | malformed hc hm htail hne =>
    rw [lexeme_of_numeral hc hm htail, if_neg]
    simpa using hne
  | stray hc hm => exact lexeme_of_stray hblank hc hm

theorem lexical_of_mem_digit {c : Char} (hc : c ∈ digit) (r : Text) :
    Lexical (c :: r) (Lexer.lexeme c r).text (Lexer.lexeme c r).kind := by
  have hm := longest_numeral (mem_digit_iff.mp hc) r
  obtain ⟨tail, htail⟩ : ∃ tail, Longest (one wordChar)∗
      ((c :: r).drop (c :: Lexer.numeralRest r).length) tail := ⟨_, longest_word _⟩
  rw [lexeme_of_numeral hc hm htail]
  cases tail with
  | nil =>
    rw [List.append_nil]
    exact .number hc hm htail
  | cons x tail => exact .malformed hc hm htail (List.cons_ne_nil x tail)

theorem lexical_of_mem_quote {q : Char} (hq : q ∈ quote) (r : Text) :
    Lexical (q :: r) (Lexer.lexeme q r).text (Lexer.lexeme q r).kind := by
  rw [lexeme_of_mem_quote hq]
  by_cases hclosed : ∃ w ∈ literal q, w <+: q :: r
  · obtain ⟨w, hw, hpre⟩ := hclosed
    rw [quoted_of_mem_literal hq hw hpre]
    exact .string hq hw hpre
  · have hno : ∀ w ∈ literal q, ¬ w <+: q :: r := fun w hw hpre => hclosed ⟨w, hw, hpre⟩
    rw [quoted_of_forall_not_mem hq hno]
    exact .unclosed hq hno (longest_line (q :: r))

theorem lexical_of_mem_wordStart {c : Char} (hc : c ∈ wordStart) (r : Text) :
    Lexical (c :: r) (Lexer.lexeme c r).text (Lexer.lexeme c r).kind := by
  obtain ⟨m, hm⟩ : ∃ m, Longest (one wordChar)∗ (c :: r) m := ⟨_, longest_word _⟩
  rw [lexeme_of_word hc hm]
  by_cases hconst : m = "const".toList
  · subst hconst
    exact .constKw hc hm
  by_cases hlet : m = "let".toList
  · subst hlet
    exact .letKw hc hm
  rw [Lexer.wordKind, if_neg hconst, if_neg hlet]
  exact .ident hc hm hconst hlet

theorem lexical_lexeme {c : Char} (hblank : Text.isBlank c = false) (r : Text) :
    Lexical (c :: r) (Lexer.lexeme c r).text (Lexer.lexeme c r).kind := by
  by_cases hs : c = ';'
  · subst hs
    exact .semicolon
  by_cases he : c = '='
  · subst he
    exact .assign
  by_cases hd : c ∈ digit
  · exact lexical_of_mem_digit hd r
  by_cases hq : c ∈ quote
  · exact lexical_of_mem_quote hq r
  by_cases hw : c ∈ wordStart
  · exact lexical_of_mem_wordStart hw r
  have hc : c ∉ {';', '='} ∪ digit ∪ quote ∪ wordStart := by
    intro h
    rcases h with (((h | h) | h) | h) | h
    · exact hs h
    · exact he h
    · exact hd h
    · exact hq h
    · exact hw h
  rw [lexeme_of_stray hblank hc (longest_stray (c :: r))]
  exact .stray hc (longest_stray (c :: r))

/-- The rules give one lexeme for a text that starts with no blank, the one that is read. -/
theorem lexical_iff {c : Char} {r m : Text} {kind : TokenKind} (hblank : Text.isBlank c = false) :
    Lexical (c :: r) m kind ↔ Lexer.lexeme c r = ⟨kind, m⟩ := by
  constructor
  · exact Lexical.lexeme_eq hblank
  · intro h
    have hlexical := lexical_lexeme hblank r
    rw [h] at hlexical
    exact hlexical

end Grammar

open Grammar in
/-- Each token of a document is the one that the lexical grammar gives at its start. -/
theorem tokenize_lexical {text : Text} {t : Token} (ht : t ∈ tokenize text) :
    ∃ c r, text.slice? t.span.start text.size = some (c :: r) ∧
      ∀ m kind, Lexical (c :: r) m kind ↔ t.span.slice? text = some m ∧ t.kind = kind := by
  have hscan := scan_tokenize text
  obtain ⟨c, body, after, hslice, hafter, hopens, hlexeme⟩ := hscan.exists_lexeme t ht
  obtain ⟨hblank, -⟩ := Lexer.trivia_cons_eq_nil_iff.mp hopens
  refine ⟨c, body ++ after, Text.slice?_append hslice hafter, ?_⟩
  intro m kind
  rw [lexical_iff hblank, hlexeme, hslice]
  constructor
  · intro h
    obtain ⟨rfl, rfl⟩ := Lexeme.mk.inj h
    exact ⟨rfl, rfl⟩
  · rintro ⟨hm, rfl⟩
    obtain rfl := Option.some.inj hm
    rfl

open Grammar in
/-- An exponent needs no digits. -/
theorem lexical_empty_exponent :
    ⟨.number, 1, 4, by decide⟩ ∈ tokenize "=1e+".toList ∧
      Lexical "1e+".toList "1e+".toList .number := by
  have hassign : (Scanner.start "=1e+".toList).next =
      (some ⟨.assign, 0, 1, by decide⟩, ⟨1, "1e+".toList⟩) := rfl
  have hnumber : Scanner.next ⟨1, "1e+".toList⟩ =
      (some ⟨.number, 1, 4, by decide⟩, ⟨4, []⟩) := rfl
  have hmem : ⟨.number, 1, 4, by decide⟩ ∈ tokenize "=1e+".toList := by
    rw [tokenize, Scanner.tokens_of_next_eq_some hassign, Scanner.tokens_of_next_eq_some hnumber]
    exact List.mem_cons_of_mem _ List.mem_cons_self
  obtain ⟨c, r, hrest, hlexical⟩ := tokenize_lexical hmem
  have hfront : c :: r = "1e+".toList := by
    apply Option.some.inj
    rw [← hrest]
    decide
  rw [hfront] at hlexical
  exact ⟨hmem, (hlexical _ _).mpr ⟨by decide, rfl⟩⟩

end FlatSyntax
