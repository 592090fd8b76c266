import FlatSyntax.Proofs.Lexer.Grammar

open scoped Computability

namespace FlatSyntax.Grammar

theorem mem_digits_iff {w : Text} : w ∈ digits ↔ ∃ c d, w = c :: d ∧ c.isDigit = true ∧
    ∀ x ∈ d, Lexer.isDigitOrSeparator x = true := by
  rw [digits, Language.mem_mul]
  constructor
  · rintro ⟨_, ⟨c, hc, rfl⟩, d, hd, rfl⟩
    exact ⟨c, d, rfl, mem_digit_iff.mp hc, mem_kstar_digitOrSeparator_iff.mp hd⟩
  · rintro ⟨c, d, rfl, hc, hd⟩
    exact ⟨[c], ⟨c, mem_digit_iff.mpr hc, rfl⟩, d, mem_kstar_digitOrSeparator_iff.mpr hd, rfl⟩

theorem isDigitOrSeparator_of_isDigit {c : Char} (h : c.isDigit = true) :
    Lexer.isDigitOrSeparator c = true := by
  simp [Lexer.isDigitOrSeparator, h]

theorem mem_optional_sign_iff {s : Text} :
    s ∈ 1 + one {'+', '-'} ↔ s = [] ∨ s = ['+'] ∨ s = ['-'] := by
  rw [Language.mem_add, Language.mem_one]
  apply or_congr_right
  constructor
  · rintro ⟨c, rfl | rfl, rfl⟩
    · exact Or.inl rfl
    · exact Or.inr rfl
  · rintro (rfl | rfl)
    · exact ⟨'+', Or.inl rfl, rfl⟩
    · exact ⟨'-', Or.inr rfl, rfl⟩

theorem mem_exponent_iff {w : Text} : w ∈ exponent ↔ ∃ c s d, w = c :: (s ++ d) ∧
    (c = 'e' ∨ c = 'E') ∧ (s = [] ∨ s = ['+'] ∨ s = ['-']) ∧
    ∀ x ∈ d, Lexer.isDigitOrSeparator x = true := by
  rw [exponent, Language.mem_mul]
  constructor
  · rintro ⟨_, ⟨_, ⟨c, hc, rfl⟩, s, hs, rfl⟩, d, hd, rfl⟩
    exact ⟨c, s, d, rfl, hc, mem_optional_sign_iff.mp hs, mem_kstar_digitOrSeparator_iff.mp hd⟩
  · rintro ⟨c, s, d, rfl, hc, hs, hd⟩
    exact ⟨c :: s, ⟨[c], ⟨c, hc, rfl⟩, s, mem_optional_sign_iff.mpr hs, rfl⟩, d,
      mem_kstar_digitOrSeparator_iff.mpr hd, rfl⟩

theorem forall_mem_exponent {w : Text} (hw : w ∈ 1 + exponent) :
    ∀ c ∈ w, Lexer.isDigitOrSeparator c = true ∨ c ∈ ['e', 'E', '+', '-'] := by
  intro c hc
  rw [Language.mem_add, Language.mem_one] at hw
  cases hw with
  | inl hnil =>
    subst hnil
    simp at hc
  | inr hw =>
    obtain ⟨l, s, d, rfl, hl, hs, hd⟩ := mem_exponent_iff.mp hw
    rcases List.mem_cons.mp hc with rfl | hc
    · right
      rcases hl with rfl | rfl <;> simp
    · rcases List.mem_append.mp hc with hc | hc
      · right
        rcases hs with rfl | rfl | rfl <;> simp_all
      · exact Or.inl (hd c hc)

theorem exponent_mem (u : Text) : Lexer.exponent u ∈ 1 + exponent := by
  rw [Language.mem_add, Language.mem_one]
  unfold Lexer.exponent
  split
  · rename_i c r
    split
    · rename_i hc
      right
      refine mem_exponent_iff.mpr ⟨c, Lexer.sign r, _, rfl, hc, ?_, ?_⟩
      · unfold Lexer.sign
        split <;> simp
      · intro x hx
        exact List.mem_takeWhile_imp hx
    · exact Or.inl rfl
  · exact Or.inl rfl

/-- A run of digits has no sign in front of it. -/
theorem sign_eq_nil {r : Text} (h : ∀ c ∈ r.head?, Lexer.isDigitOrSeparator c = true) :
    Lexer.sign r = [] := by
  cases r with
  | nil => rfl
  | cons c r =>
    have hc := h c rfl
    have hplus : c ≠ '+' := by
      intro he
      subst he
      simp [Lexer.isDigitOrSeparator] at hc
    have hminus : c ≠ '-' := by
      intro he
      subst he
      simp [Lexer.isDigitOrSeparator] at hc
    unfold Lexer.sign
    split
    · rename_i heq
      exact absurd (List.cons.inj heq).1 hplus
    · rename_i heq
      exact absurd (List.cons.inj heq).1 hminus
    · rfl

theorem length_signed_le {s d r : Text} (hs : s = [] ∨ s = ['+'] ∨ s = ['-'])
    (hd : ∀ x ∈ d, Lexer.isDigitOrSeparator x = true) (h : s ++ d <+: r) :
    (s ++ d).length ≤ (Lexer.sign r ++
      (r.drop (Lexer.sign r).length).takeWhile Lexer.isDigitOrSeparator).length := by
  obtain ⟨t, rfl⟩ := h
  have hrun := length_le_takeWhile hd (List.prefix_append d t)
  rcases hs with rfl | rfl | rfl
  · cases d with
    | nil => exact Nat.zero_le _
    | cons x d =>
      have hsign : Lexer.sign ([] ++ x :: d ++ t) = [] := by
        apply sign_eq_nil
        intro c hc
        obtain rfl := Option.some.inj hc
        exact hd x List.mem_cons_self
      rw [hsign]
      exact hrun
  · have hsign : Lexer.sign (['+'] ++ d ++ t) = ['+'] := rfl
    rw [hsign]
    simp only [List.length_append]
    exact Nat.add_le_add_left hrun 1
  · have hsign : Lexer.sign (['-'] ++ d ++ t) = ['-'] := rfl
    rw [hsign]
    simp only [List.length_append]
    exact Nat.add_le_add_left hrun 1

theorem length_le_exponent {u w : Text} (hw : w ∈ 1 + exponent) (h : w <+: u) :
    w.length ≤ (Lexer.exponent u).length := by
  rw [Language.mem_add, Language.mem_one] at hw
  rcases hw with rfl | hw
  · exact Nat.zero_le _
  · obtain ⟨c, s, d, rfl, hc, hs, hd⟩ := mem_exponent_iff.mp hw
    obtain ⟨r, rfl⟩ := h
    have hle := length_signed_le hs hd (List.prefix_append (s ++ d) r)
    have htaken : Lexer.exponent (c :: (s ++ d) ++ r) = c :: Lexer.sign (s ++ d ++ r) ++
        ((s ++ d ++ r).drop (Lexer.sign (s ++ d ++ r)).length).takeWhile
          Lexer.isDigitOrSeparator := if_pos hc
    rw [htaken]
    simp only [List.cons_append, List.length_cons]
    omega

theorem head_of_mem_exponent {w : Text} (hw : w ∈ 1 + exponent) :
    ∀ c ∈ w.head?, c = 'e' ∨ c = 'E' := by
  rw [Language.mem_add, Language.mem_one] at hw
  rcases hw with rfl | hw
  · simp
  · obtain ⟨c, s, d, rfl, hc, -⟩ := mem_exponent_iff.mp hw
    intro x hx
    obtain rfl := Option.some.inj hx
    exact hc

theorem mem_fraction_iff {w : Text} : w ∈ fraction ↔ ∃ d ∈ digits, w = '.' :: d := by
  rw [fraction, Language.mem_mul]
  constructor
  · rintro ⟨_, ⟨c, rfl, rfl⟩, d, hd, rfl⟩
    exact ⟨d, hd, rfl⟩
  · rintro ⟨d, hd, rfl⟩
    exact ⟨['.'], ⟨'.', rfl, rfl⟩, d, hd, rfl⟩

/-- What stands before an exponent is digits, separators and a point. -/
theorem forall_mem_mantissa {m : Text} (hm : m ∈ digits * (1 + fraction)) :
    ∀ c ∈ m, Lexer.isDigitOrSeparator c = true ∨ c = '.' := by
  have hdigits {d : Text} (hd : d ∈ digits) : ∀ c ∈ d, Lexer.isDigitOrSeparator c = true := by
    obtain ⟨x, ds, rfl, hx, hds⟩ := mem_digits_iff.mp hd
    exact List.forall_mem_cons.mpr ⟨isDigitOrSeparator_of_isDigit hx, hds⟩
  obtain ⟨d, hd, f, hf, rfl⟩ := Language.mem_mul.mp hm
  intro c hc
  cases List.mem_append.mp hc with
  | inl hc => exact Or.inl (hdigits hd c hc)
  | inr hc =>
    rw [Language.mem_add, Language.mem_one] at hf
    rcases hf with rfl | hf
    · simp at hc
    · obtain ⟨e, he, rfl⟩ := mem_fraction_iff.mp hf
      cases List.mem_cons.mp hc with
      | inl hpoint => exact Or.inr hpoint
      | inr hc => exact Or.inl (hdigits he c hc)

theorem fraction_mem (u : Text) : Lexer.fraction u ∈ 1 + fraction := by
  rw [Language.mem_add, Language.mem_one]
  unfold Lexer.fraction
  split
  · rename_i d r
    split
    · rename_i hd
      right
      rw [mem_fraction_iff, List.takeWhile_cons_of_pos (isDigitOrSeparator_of_isDigit hd)]
      refine ⟨_, mem_digits_iff.mpr ⟨d, _, rfl, hd, ?_⟩, rfl⟩
      intro x hx
      exact List.mem_takeWhile_imp hx
    · exact Or.inl rfl
  · exact Or.inl rfl

theorem length_le_fraction {u f e : Text} (hf : f ∈ 1 + fraction) (he : e ∈ 1 + exponent)
    (h : f ++ e <+: u) : (f ++ e).length ≤
      (Lexer.fraction u ++ Lexer.exponent (u.drop (Lexer.fraction u).length)).length := by
  have hhead := head_of_mem_exponent he
  rw [Language.mem_add, Language.mem_one] at hf
  rcases hf with rfl | hf
  · cases e with
    | nil => exact Nat.zero_le _
    | cons c e =>
      have hnone : Lexer.fraction u = [] := by
        obtain ⟨t, rfl⟩ := h
        have hc := hhead c rfl
        unfold Lexer.fraction
        split
        · rename_i heq
          obtain ⟨rfl, -⟩ := List.cons.inj heq
          simp at hc
        · rfl
      rw [hnone]
      exact length_le_exponent he h
  · obtain ⟨d, hd, rfl⟩ := mem_fraction_iff.mp hf
    obtain ⟨x, ds, rfl, hx, hds⟩ := mem_digits_iff.mp hd
    obtain ⟨t, rfl⟩ := h
    have htaken : Lexer.fraction ('.' :: x :: ds ++ e ++ t) =
        '.' :: (x :: ds ++ e ++ t).takeWhile Lexer.isDigitOrSeparator := if_pos hx
    have hall : ∀ y ∈ x :: ds, Lexer.isDigitOrSeparator y = true :=
      List.forall_mem_cons.mpr ⟨isDigitOrSeparator_of_isDigit hx, hds⟩
    have hstop : ∀ c ∈ e.head?, Lexer.isDigitOrSeparator c = false := by
      intro c hc
      rcases hhead c hc with rfl | rfl <;> rfl
    have hle := length_run_le hall hstop (List.prefix_append _ t) (length_le_exponent he)
    rw [htaken]
    simp only [List.cons_append, List.length_cons, List.drop_succ_cons] at hle ⊢
    omega

theorem forall_mem_numeral {m : Text} (hm : m ∈ numeral) :
    ∀ c ∈ m, Lexer.isDigitOrSeparator c = true ∨ c ∈ ['.', 'e', 'E', '+', '-'] := by
  obtain ⟨d, hd, e, he, rfl⟩ := Language.mem_mul.mp hm
  intro c hc
  cases List.mem_append.mp hc with
  | inl hc =>
    apply (forall_mem_mantissa hd c hc).imp_right
    intro hpoint
    exact hpoint ▸ List.mem_cons_self
  | inr hc => exact (forall_mem_exponent he c hc).imp_right (List.mem_cons_of_mem '.')

/-- No fraction or exponent starts like a digit, so the greedy run ends where any run has to. -/
theorem length_le_numeralRest {d f e r : Text}
    (hd : ∀ x ∈ d, Lexer.isDigitOrSeparator x = true) (hf : f ∈ 1 + fraction)
    (he : e ∈ 1 + exponent) (h : d ++ (f ++ e) <+: r) :
    (d ++ (f ++ e)).length ≤ (Lexer.numeralRest r).length := by
  have hstop : ∀ c ∈ (f ++ e).head?, Lexer.isDigitOrSeparator c = false := by
    intro c hc
    rw [Language.mem_add, Language.mem_one] at hf
    rcases hf with rfl | hf
    · rcases head_of_mem_exponent he c hc with rfl | rfl <;> rfl
    · obtain ⟨d', -, rfl⟩ := mem_fraction_iff.mp hf
      obtain rfl := Option.some.inj hc
      rfl
  have hle := length_run_le hd hstop h (length_le_fraction hf he)
  simp only [Lexer.numeralRest, List.length_append, List.drop_drop] at hle ⊢
  omega

/-- The numeral at the front of a text that starts with a digit is as long as it can be. -/
theorem longest_numeral {c : Char} (hc : c.isDigit = true) (r : Text) :
    Longest numeral (c :: r) (c :: Lexer.numeralRest r) := by
  constructor
  case mem =>
    have hall : ∀ x ∈ r.takeWhile Lexer.isDigitOrSeparator, Lexer.isDigitOrSeparator x = true :=
      fun x hx => List.mem_takeWhile_imp hx
    have hdigits := mem_digits_iff.mpr ⟨c, _, rfl, hc, hall⟩
    exact Language.append_mem_mul (Language.append_mem_mul hdigits (fraction_mem _))
      (exponent_mem _)
  case starts => exact List.cons_prefix_cons.mpr ⟨rfl, Lexer.numeralRest_prefix_self r⟩
  case longest =>
    intro w hw h
    obtain ⟨_, hdf, e, he, rfl⟩ := Language.mem_mul.mp hw
    obtain ⟨_, hd, f, hf, rfl⟩ := Language.mem_mul.mp hdf
    obtain ⟨x, d, rfl, -, hall⟩ := mem_digits_iff.mp hd
    rw [List.append_assoc, List.cons_append] at h ⊢
    have hle := length_le_numeralRest hall hf he (List.cons_prefix_cons.mp h).2
    simp only [List.length_cons]
    omega

end FlatSyntax.Grammar
