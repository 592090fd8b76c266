import FlatSyntax.Proofs.Lexer.Lexical
import FlatSyntax.Proofs.Tree.Lines

open scoped Computability

namespace FlatSyntax

namespace Grammar

/-- The letter of an exponent, its sign and separators. -/
def exponentFront : Language Char := one {'e', 'E'} * (1 + one {'+', '-'}) * (one {'_'})∗

/-- An exponent with at least one digit. -/
def fullExponent : Language Char := exponentFront * digits

/-- A numeral whose exponent, if it has one, has a digit. -/
def numberLiteral : Language Char := digits * (1 + fraction) * (1 + fullExponent)

/-- A numeral whose exponent has no digit. -/
def unfinished : Language Char := digits * (1 + fraction) * exponentFront

/-- A run of digits and separators begins with its separators, and a digit stands behind them. -/
theorem kstar_digitOrSeparator :
    (one digitOrSeparator)∗ = (one {'_'})∗ * (1 + digits) := by
  apply le_antisymm
  · intro w hw
    have hall := mem_kstar_digitOrSeparator_iff.mp hw
    refine Language.mem_mul.mpr ⟨w.takeWhile (· = '_'), ?_, w.dropWhile (· = '_'), ?_,
      List.takeWhile_append_dropWhile⟩
    · apply mem_kstar_one_iff.mpr
      intro c hc
      simpa using List.mem_takeWhile_imp hc
    · rw [Language.mem_add, Language.mem_one]
      have hrest : w.dropWhile (· = '_') <:+ w := List.dropWhile_suffix _
      have hstop := List.head?_dropWhile_not (· = '_') w
      cases hw' : w.dropWhile (· = '_') with
      | nil => exact Or.inl rfl
      | cons c d =>
        right
        rw [hw'] at hrest hstop
        have hd : ∀ x ∈ c :: d, Lexer.isDigitOrSeparator x = true :=
          fun x hx => hall x (hrest.subset hx)
        have hne : c ≠ '_' := by simpa using hstop
        have hdigit : c.isDigit = true := by
          simpa [Lexer.isDigitOrSeparator, hne] using hd c List.mem_cons_self
        exact mem_digits_iff.mpr ⟨c, d, rfl, hdigit, (List.forall_mem_cons.mp hd).2⟩
  · set run := (one digitOrSeparator)∗ with hrun
    have hone {s : Set Char} (hs : s ⊆ digitOrSeparator) : one s ≤ one digitOrSeparator := by
      intro w hw
      obtain ⟨c, hc, hwc⟩ := hw
      exact ⟨c, hs hc, hwc⟩
    have hdigits : digits ≤ run := by
      calc digits ≤ run * run := by
            exact mul_le_mul' ((hone Set.subset_union_left).trans le_kstar) le_rfl
        _ = run := kstar_mul_kstar _
    calc (one {'_'})∗ * (1 + digits) ≤ run * run := by
          apply mul_le_mul'
          · exact kstar_mono (hone Set.subset_union_right)
          · exact add_le one_le_kstar hdigits
      _ = run := kstar_mul_kstar _

theorem exponent_eq : exponent = exponentFront + fullExponent := by
  rw [exponent, kstar_digitOrSeparator, ← mul_assoc, mul_add, mul_one]
  rfl

theorem numeral_eq : numeral = numberLiteral + unfinished := by
  rw [numeral, exponent_eq, add_comm exponentFront, ← add_assoc, mul_add]
  rfl

theorem not_mem_digit_of_mem_exponentFront {w : Text} (h : w ∈ exponentFront) :
    ∀ c ∈ w, c ∉ digit := by
  obtain ⟨_, ⟨_, ⟨l, hl, rfl⟩, s, hs, rfl⟩, u, hu, rfl⟩ := h
  have hnone : ['e', 'E', '+', '-', '_'].all (!·.isDigit) = true := rfl
  intro c hc hdigit
  have hmem : c ∈ ['e', 'E', '+', '-', '_'] := by
    rcases List.mem_append.mp hc with hc | hc
    · rcases List.mem_cons.mp hc with rfl | hc
      · rcases hl with rfl | rfl <;> simp
      · rcases mem_optional_sign_iff.mp hs with rfl | rfl | rfl <;> simp_all
    · have hseparator : c = '_' := mem_kstar_one_iff.mp hu c hc
      simp [hseparator]
  have hno := List.all_eq_true.mp hnone c hmem
  simp [mem_digit_iff.mp hdigit] at hno

theorem exists_digit_of_mem_fullExponent {w : Text} (h : w ∈ fullExponent) :
    ∃ c ∈ w, c ∈ digit := by
  obtain ⟨e, -, d, hd, rfl⟩ := Language.mem_mul.mp h
  obtain ⟨c, ds, rfl, hc, -⟩ := mem_digits_iff.mp hd
  exact ⟨c, by simp, mem_digit_iff.mpr hc⟩

/-- The exponent of a numeral is what is left from its first letter on. -/
theorem dropWhile_mantissa {m x : Text} (hm : m ∈ digits * (1 + fraction))
    (hx : x ∈ 1 + exponent) : (m ++ x).dropWhile (fun c => c ≠ 'e' ∧ c ≠ 'E') = x := by
  have hfront : ∀ c ∈ m, decide (c ≠ 'e' ∧ c ≠ 'E') = true := by
    intro c hc
    rw [decide_eq_true_eq]
    have hclass := forall_mem_mantissa hm c hc
    constructor
    · intro he
      simp [he, Lexer.isDigitOrSeparator] at hclass
    · intro he
      simp [he, Lexer.isDigitOrSeparator] at hclass
  rw [List.dropWhile_append_of_pos hfront]
  cases x with
  | nil => rfl
  | cons c x =>
    have hc := head_of_mem_exponent hx c rfl
    apply List.dropWhile_cons_of_neg
    rw [decide_eq_true_eq]
    intro hno
    exact hc.elim hno.1 hno.2

/-- No numeral has both an exponent with a digit, or none, and one without. -/
theorem not_mem_unfinished {w : Text} (h : w ∈ numberLiteral) : w ∉ unfinished := by
  intro hno
  obtain ⟨m, hm, x, hx, rfl⟩ := Language.mem_mul.mp h
  obtain ⟨n, hn, y, hy, hw⟩ := Language.mem_mul.mp hno
  have hxe : x ∈ 1 + exponent := by
    rw [exponent_eq]
    exact hx.imp_right Or.inr
  have hye : y ∈ 1 + exponent := by
    rw [exponent_eq]
    exact Or.inr (Or.inl hy)
  have hxy : x = y := by
    rw [← dropWhile_mantissa hm hxe, ← hw, dropWhile_mantissa hn hye]
  subst hxy
  cases hx with
  | inl hnil =>
    obtain ⟨_, ⟨_, ⟨l, -, rfl⟩, s, -, rfl⟩, u, -, hlu⟩ := hy
    rw [(Language.mem_one x).mp hnil] at hlu
    simp at hlu
  | inr hfull =>
    obtain ⟨c, hc, hdigit⟩ := exists_digit_of_mem_fullExponent hfull
    exact not_mem_digit_of_mem_exponentFront hy c hc hdigit

/-- A lexeme that starts with a digit is a number if and only if it is a numeral. -/
theorem number_iff_mem_numeral {c : Char} {r m : Text} {kind : TokenKind} (hc : c ∈ digit)
    (h : Lexer.lexeme c r = ⟨kind, m⟩) :
    (kind = .number ↔ m ∈ numeral) ∧ (kind = .number ∨ kind = .error) := by
  have hm := longest_numeral (mem_digit_iff.mp hc) r
  have hpre := Lexer.lexeme_prefix_self c r
  rw [h] at hpre
  obtain ⟨tail, htail⟩ : ∃ tail, Longest (one wordChar)∗
      ((c :: r).drop (c :: Lexer.numeralRest r).length) tail := ⟨_, longest_word _⟩
  rw [lexeme_of_numeral hc hm htail] at h
  obtain ⟨rfl, rfl⟩ := Lexeme.mk.inj h
  cases tail with
  | nil => simpa using hm.mem
  | cons x tail =>
    refine ⟨⟨by simp, ?_⟩, Or.inr rfl⟩
    intro hmem
    have hle := hm.longest _ hmem hpre
    rw [List.length_append, List.length_cons (a := x)] at hle
    omega

end Grammar

open Grammar in
/-- A token that starts with a digit is a number where its text is a literal with digits in its
exponent, and also where the digits of the exponent are missing. Any other is an error, and is
complained about. -/
theorem tokenize_number {text : Text} {t : Token} (ht : t ∈ tokenize text) {c : Char} {body : Text}
    (hslice : t.span.slice? text = some (c :: body)) (hc : c ∈ digit) :
    (t.kind = .number ↔ c :: body ∈ numberLiteral ∨ c :: body ∈ unfinished) ∧
      ((t.kind = .number ↔ c :: body ∈ numberLiteral) ↔ c :: body ∉ unfinished) ∧
      (t.kind = .number ∨
        t.kind = .error ∧ Diagnostic.unrecognized text t.span ∈ (parse text).diagnostics) := by
  obtain ⟨c', body', after, hslice', -, hopens, hlexeme⟩ := (scan_tokenize text).exists_lexeme t ht
  obtain ⟨rfl, rfl⟩ := List.cons.inj (Option.some.inj (hslice.symm.trans hslice'))
  obtain ⟨hiff, hkind⟩ := number_iff_mem_numeral hc hlexeme
  have hnumber : t.kind = .number ↔ c :: body ∈ numberLiteral ∨ c :: body ∈ unfinished := by
    rw [hiff, numeral_eq]
    exact Language.mem_add ..
  refine ⟨hnumber, ?_, ?_⟩
  · rw [hnumber]
    have hno := not_mem_unfinished (w := c :: body)
    tauto
  · apply hkind.imp_right
    intro herror
    refine ⟨herror, ?_⟩
    rw [(consumed_parse text).diagnostics, text_parse]
    apply List.mem_filterMap.mpr
    exact ⟨t, ht, Token.complaint?_eq_some_iff.mpr ⟨herror, rfl⟩⟩

/-- A name right behind a digit is complained about with it. -/
theorem malformed_number_complaint :
    let text := "1abc".toList
    ⟨.error, 0, 4, by decide⟩ ∈ tokenize text ∧
      .unrecognized text ⟨0, 4, by decide⟩ ∈ (parse text).diagnostics := by
  intro text
  have hread : (Scanner.start text).next = (some ⟨.error, 0, 4, by decide⟩, ⟨4, []⟩) := rfl
  have hmem : ⟨.error, 0, 4, by decide⟩ ∈ tokenize text := by
    rw [tokenize, Scanner.tokens_of_next_eq_some hread]
    exact List.mem_cons_self
  have hslice : Span.slice? ⟨0, 4, by decide⟩ text = some ('1' :: "abc".toList) := by decide
  have hdigit : '1' ∈ Grammar.digit := Grammar.mem_digit_iff.mpr rfl
  obtain ⟨-, -, hnumber | ⟨-, hcomplaint⟩⟩ := tokenize_number hmem hslice hdigit
  · exact absurd hnumber (by decide)
  · exact ⟨hmem, hcomplaint⟩

open Grammar in
/-- A letter and a sign are enough of an exponent to be taken for a number. -/
theorem unfinished_exponent_is_number :
    let text := "1e+".toList
    tokenize text = [⟨.number, .whole text⟩] ∧ text ∉ numberLiteral ∧
      (parse text).diagnostics = [] := by
  intro text
  have hread : (Scanner.start text).next = (some ⟨.number, .whole text⟩, ⟨3, []⟩) := rfl
  have hend : Scanner.next ⟨3, []⟩ = (none, ⟨3, []⟩) := rfl
  have htokens : tokenize text = [⟨.number, .whole text⟩] := by
    rw [tokenize, Scanner.tokens_of_next_eq_some hread, Scanner.tokens_of_next_eq_none hend]
  have hone : ['1'] ∈ digits * (1 + fraction) := by
    have hdigits : ['1'] ∈ digits := mem_digits_iff.mpr ⟨'1', [], rfl, rfl, by simp⟩
    exact Language.append_mem_mul hdigits (Or.inl rfl)
  have hfront : ['e', '+'] ∈ exponentFront := by
    have hsign : ['+'] ∈ 1 + one {'+', '-'} := mem_optional_sign_iff.mpr (Or.inr (Or.inl rfl))
    have hletter : ['e'] ∈ one {'e', 'E'} := ⟨'e', Or.inl rfl, rfl⟩
    exact Language.append_mem_mul (Language.append_mem_mul hletter hsign)
      (Language.nil_mem_kstar _)
  refine ⟨htokens, ?_, ?_⟩
  · intro hliteral
    exact not_mem_unfinished hliteral (Language.append_mem_mul hone hfront)
  · rw [(consumed_parse text).diagnostics, htokens]
    rfl

end FlatSyntax
