import FlatSyntax.Token.Basic
import FlatSyntax.Text.Quoted

namespace FlatSyntax

namespace Text

/-- Two texts that are cut behind their longest start of one kind of characters are equal only if
both parts are. -/
theorem append_inj_of_stops {p : Char → Bool} {a b x y : Text} (ha : ∀ c ∈ a, p c = true)
    (hb : ∀ c ∈ b, p c = true) (hx : ∀ c ∈ x.head?, p c = false) (hy : ∀ c ∈ y.head?, p c = false)
    (h : a ++ x = b ++ y) : a = b ∧ x = y := by
  have hstop {z : Text} (hz : ∀ c ∈ z.head?, p c = false) : z.takeWhile p = [] := by
    cases z with
    | nil => rfl
    | cons c cs => rw [List.takeWhile_cons_of_neg (by simp [hz c rfl])]
  have htake := congrArg (List.takeWhile p) h
  rw [List.takeWhile_append_of_pos ha, List.takeWhile_append_of_pos hb, hstop hx, hstop hy,
    List.append_nil, List.append_nil] at htake
  subst htake
  exact ⟨rfl, List.append_cancel_left h⟩

theorem isDigit_of_mem_decimal {n : Nat} {c : Char} (h : c ∈ decimal n) : c.isDigit = true :=
  Nat.isDigit_of_mem_toDigits (by decide) (by decide) h

theorem decimal_injective {m n : Nat} (h : decimal m = decimal n) : m = n := by
  have hvalue := congrArg (Nat.ofDigitChars 10 · 0) h
  simp only [decimal] at hvalue
  rwa [Nat.ofDigitChars_toDigits (by decide) (by decide),
    Nat.ofDigitChars_toDigits (by decide) (by decide)] at hvalue

theorem decimal_append_inj {m n : Nat} {x y : Text} (hx : ∀ c ∈ x.head?, c.isDigit = false)
    (hy : ∀ c ∈ y.head?, c.isDigit = false) (h : decimal m ++ x = decimal n ++ y) :
    m = n ∧ x = y := by
  obtain ⟨hnumber, hrest⟩ := append_inj_of_stops (fun _ => isDigit_of_mem_decimal)
    (fun _ => isDigit_of_mem_decimal) hx hy h
  exact ⟨decimal_injective hnumber, hrest⟩

theorem newline_not_mem_decimal (n : Nat) : '\n' ∉ decimal n := by
  intro h
  exact absurd (isDigit_of_mem_decimal h) (by decide)

theorem newline_not_mem_toDigits {b : Nat} (hb : 1 < b) (n : Nat) : '\n' ∉ Nat.toDigits b n := by
  induction n using Nat.strongRecOn with
  | ind n ih =>
    have hdigit (d : Nat) : '\n' ≠ d.digitChar := (Nat.digitChar_ne '\n' (by decide)).symm
    rw [Nat.toDigits_eq_if hb]
    split
    · simp [hdigit]
    · rename_i hn
      have hrest := ih (n / b) (Nat.div_lt_self (by omega) hb)
      simp [hrest, hdigit]

theorem newline_not_mem_escape (c : Char) : '\n' ∉ escape c := by
  unfold escape
  split
  case h_7 _ _ _ hc _ _ =>
    split
    · have hcode : '\n' ∉ Nat.toDigits 16 c.toNat := newline_not_mem_toDigits (by decide) _
      simp [hcode]
    · simpa using Ne.symm hc
  all_goals decide

/-- A quoted text stays on one line, whatever the text is. -/
theorem newline_not_mem_quoted (t : Text) : '\n' ∉ quoted t := by
  simp [quoted, newline_not_mem_escape]

/-- Lines that end in a line break each are read back by splitting there. -/
theorem splitOn_lines {ls : List Text} (h : ∀ l ∈ ls, '\n' ∉ l) :
    (ls.flatMap fun l => l ++ ['\n']).splitOn '\n' = ls ++ [[]] := by
  induction ls with
  | nil => rfl
  | cons l ls ih =>
    obtain ⟨hl, hls⟩ := List.forall_mem_cons.mp h
    rw [List.flatMap_cons, List.append_assoc, List.singleton_append,
      List.splitOn_append_cons_self_of_not_mem hl, ih hls]
    rfl

end Text

namespace Span

theorem describe_append_inj {r s : Span} {x y : Text} (hx : ∀ c ∈ x.head?, c.isDigit = false)
    (hy : ∀ c ∈ y.head?, c.isDigit = false) (h : r.describe ++ x = s.describe ++ y) :
    r = s ∧ x = y := by
  have hdot : ∀ z : Text, ∀ c ∈ ('.' :: z).head?, c.isDigit = false := by
    intro z c hc
    obtain rfl := Option.some.inj hc
    decide
  simp only [describe, List.append_assoc, List.cons_append] at h
  obtain ⟨hstart, hrest⟩ := Text.decimal_append_inj (hdot _) (hdot _) h
  obtain ⟨hstop, hrest⟩ := Text.decimal_append_inj hx hy (List.cons.inj (List.cons.inj hrest).2).2
  cases r
  cases s
  simp_all

theorem newline_not_mem_describe (r : Span) : '\n' ∉ r.describe := by
  simp [describe, Text.newline_not_mem_decimal]

end Span

end FlatSyntax
