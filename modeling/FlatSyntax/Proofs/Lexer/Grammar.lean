import FlatSyntax.Lexer.Lexeme
import Mathlib.Computability.Language
import Mathlib.Data.List.TakeWhile

open scoped Computability

namespace FlatSyntax.Grammar

def digit : Set Char := {c | '0' ≤ c ∧ c ≤ '9'}

def letter : Set Char := {c | 'A' ≤ c ∧ c ≤ 'Z' ∨ 'a' ≤ c ∧ c ≤ 'z'}

def wordStart : Set Char := letter ∪ {'_', '$'}

def wordChar : Set Char := wordStart ∪ digit

def digitOrSeparator : Set Char := digit ∪ {'_'}

def quote : Set Char := {'"', '\''}

def stray : Set Char := {c | Text.isBlank c = false} \ ({';', '='} ∪ quote ∪ wordChar)

/-- The texts of a single character from a class. -/
def one (s : Set Char) : Language Char := {w | ∃ c ∈ s, w = [c]}

def digits : Language Char := one digit * (one digitOrSeparator)∗

def fraction : Language Char := one {'.'} * digits

def exponent : Language Char := one {'e', 'E'} * (1 + one {'+', '-'}) * (one digitOrSeparator)∗

def numeral : Language Char := digits * (1 + fraction) * (1 + exponent)

/-- A character in a literal: a plain one, or any character of the line behind a backslash. -/
def quotedChar (q : Char) : Language Char := one {q, '\\', '\n'}ᶜ + one {'\\'} * one {'\n'}ᶜ

def literal (q : Char) : Language Char := one {q} * (quotedChar q)∗ * one {q}

/-- The longest of the texts in a language that another text starts with. -/
structure Longest (L : Language Char) (text m : Text) : Prop where
  mem : m ∈ L
  starts : m <+: text
  longest : ∀ w ∈ L, w <+: text → w.length ≤ m.length

theorem Longest.unique {L : Language Char} {text m n : Text} (hm : Longest L text m)
    (hn : Longest L text n) : m = n := by
  have hle := hm.longest n hn.mem hn.starts
  have hge := hn.longest m hm.mem hm.starts
  have hpre := List.prefix_of_prefix_length_le hm.starts hn.starts hge
  exact hpre.eq_of_length_le hle

theorem mem_digit_iff {c : Char} : c ∈ digit ↔ c.isDigit = true := by
  show '0' ≤ c ∧ c ≤ '9' ↔ (decide ('0'.val ≤ c.val) && decide (c.val ≤ '9'.val)) = true
  simp [Char.le_def]

theorem mem_letter_iff {c : Char} : c ∈ letter ↔ c.isAlpha = true := by
  show 'A' ≤ c ∧ c ≤ 'Z' ∨ 'a' ≤ c ∧ c ≤ 'z' ↔
    (decide ('A'.val ≤ c.val ∧ c.val ≤ 'Z'.val) ||
      (decide ('a'.val ≤ c.val) && decide (c.val ≤ 'z'.val))) = true
  simp [Char.le_def]

theorem mem_wordStart_iff {c : Char} : c ∈ wordStart ↔ Lexer.isWordStart c = true := by
  simp [wordStart, Lexer.isWordStart, mem_letter_iff]
  tauto

theorem mem_wordChar_iff {c : Char} : c ∈ wordChar ↔ Lexer.isWordChar c = true := by
  simp [wordChar, Lexer.isWordChar, mem_wordStart_iff, mem_digit_iff]

theorem mem_digitOrSeparator_iff {c : Char} :
    c ∈ digitOrSeparator ↔ Lexer.isDigitOrSeparator c = true := by
  simp [digitOrSeparator, Lexer.isDigitOrSeparator, mem_digit_iff, or_comm]

theorem mem_stray_iff {c : Char} : c ∈ stray ↔ Lexer.isStray c = true := by
  simp [stray, quote, Lexer.isStray, Lexer.isDelimiter, mem_wordChar_iff]
  tauto

theorem mem_kstar_one_iff {s : Set Char} {w : Text} : w ∈ (one s)∗ ↔ ∀ c ∈ w, c ∈ s := by
  rw [Language.mem_kstar]
  constructor
  · rintro ⟨pieces, rfl, hpieces⟩ c hc
    obtain ⟨piece, hmem, hcp⟩ := List.mem_flatten.mp hc
    obtain ⟨d, hd, rfl⟩ := hpieces piece hmem
    obtain rfl := List.mem_singleton.mp hcp
    exact hd
  · intro hw
    have hsplit : (w.map fun c => [c]).flatten = w := List.flatMap_singleton' w
    refine ⟨w.map fun c => [c], hsplit.symm, ?_⟩
    intro piece hpiece
    obtain ⟨c, hc, rfl⟩ := List.mem_map.mp hpiece
    exact ⟨c, hw c hc, rfl⟩

/-- A run and what stands behind it are no longer than the greedy run and what is taken behind
that, if nothing longer can stand behind the greedy run. -/
theorem length_run_le {p : Char → Bool} {d x y t : Text} (hd : ∀ c ∈ d, p c = true)
    (hx : ∀ c ∈ x.head?, p c = false) (h : d ++ x <+: t)
    (hy : x <+: t.drop (t.takeWhile p).length → x.length ≤ y.length) :
    (d ++ x).length ≤ (t.takeWhile p ++ y).length := by
  obtain ⟨r, rfl⟩ := h
  rw [List.append_assoc, List.takeWhile_append_of_pos hd] at hy ⊢
  simp only [List.length_append]
  cases x with
  | nil =>
    simp only [List.length_nil]
    omega
  | cons c x =>
    have hc : p c = false := hx c rfl
    have hrun : (c :: x ++ r).takeWhile p = [] := by simp [hc]
    rw [hrun, List.append_nil, List.drop_left] at hy
    rw [hrun]
    have := hy (List.prefix_append _ _)
    simp only [List.length_nil]
    omega

theorem length_le_takeWhile {p : Char → Bool} {d t : Text} (hd : ∀ c ∈ d, p c = true)
    (h : d <+: t) : d.length ≤ (t.takeWhile p).length := by
  have hle := length_run_le (x := []) (y := []) hd (by simp) (by simpa using h) (by simp)
  simpa using hle

theorem longest_takeWhile {s : Set Char} {p : Char → Bool} (h : ∀ c, c ∈ s ↔ p c = true)
    (t : Text) : Longest (one s)∗ t (t.takeWhile p) := by
  constructor
  case mem =>
    rw [mem_kstar_one_iff]
    intro c hc
    exact (h c).mpr (List.mem_takeWhile_imp hc)
  case starts => exact List.takeWhile_prefix p
  case longest =>
    intro w hw hpre
    exact length_le_takeWhile (fun c hc => (h c).mp (mem_kstar_one_iff.mp hw c hc)) hpre

theorem mem_kstar_digitOrSeparator_iff {d : Text} :
    d ∈ (one digitOrSeparator)∗ ↔ ∀ c ∈ d, Lexer.isDigitOrSeparator c = true := by
  rw [mem_kstar_one_iff]
  apply forall₂_congr
  intro c _
  exact mem_digitOrSeparator_iff

theorem longest_word (t : Text) : Longest (one wordChar)∗ t (t.takeWhile Lexer.isWordChar) :=
  longest_takeWhile (fun _ => mem_wordChar_iff) t

theorem longest_stray (t : Text) : Longest (one stray)∗ t (t.takeWhile Lexer.isStray) :=
  longest_takeWhile (fun _ => mem_stray_iff) t

theorem longest_line (t : Text) : Longest (one {'\n'}ᶜ)∗ t (t.takeWhile (· ≠ '\n')) := by
  apply longest_takeWhile
  simp

end FlatSyntax.Grammar
