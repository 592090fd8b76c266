import FlatSyntax.Text.Basic

namespace FlatSyntax.Text

/-- Whether an offset falls between two characters or at either end. -/
def isBoundary : Text → Nat → Bool
  | _, 0 => true
  | [], _ + 1 => false
  | c :: cs, o => c.utf8Size ≤ o && isBoundary cs (o - c.utf8Size)

/-- The greatest boundary that is not past the offset. -/
def floor : Text → Nat → Nat
  | [], _ => 0
  | c :: cs, o => if o < c.utf8Size then 0 else c.utf8Size + floor cs (o - c.utf8Size)

/-- The least boundary that is not before the offset, or the size when there is none. -/
def ceil : Text → Nat → Nat
  | [], _ => 0
  | c :: cs, o => if o = 0 then 0 else c.utf8Size + ceil cs (o - c.utf8Size)

theorem isBoundary_cons (c : Char) (cs : Text) (o : Nat) :
    isBoundary (c :: cs) o =
      (o == 0 || (c.utf8Size ≤ o && isBoundary cs (o - c.utf8Size))) := by
  cases o <;> simp [isBoundary]

theorem isBoundary_zero (t : Text) : isBoundary t 0 = true := by
  cases t <;> rfl

theorem isSome_splitAt? (t : Text) (o : Nat) : (splitAt? t o).isSome = isBoundary t o := by
  induction t generalizing o with
  | nil => cases o <;> rfl
  | cons c cs ih =>
    cases o with
    | zero => rfl
    | succ o =>
      simp only [splitAt?, isBoundary]
      split
      · simp [*]
      · simp [*]

/-- A boundary is the size of what stands before it. -/
theorem isBoundary_iff {t : Text} {o : Nat} :
    isBoundary t o = true ↔ ∃ p q, p ++ q = t ∧ size p = o := by
  rw [← isSome_splitAt?, Option.isSome_iff_exists]
  simp [splitAt?_eq_some_iff]

theorem isBoundary_floor (t : Text) (o : Nat) : t.isBoundary (t.floor o) = true := by
  induction t generalizing o with
  | nil => rfl
  | cons c cs ih =>
    simp only [floor]
    split
    · rfl
    · simp [isBoundary_cons, ih]

theorem isBoundary_ceil (t : Text) (o : Nat) : t.isBoundary (t.ceil o) = true := by
  induction t generalizing o with
  | nil => rfl
  | cons c cs ih =>
    simp only [ceil]
    split
    · rfl
    · simp [isBoundary_cons, ih]

theorem floor_le (t : Text) (o : Nat) : floor t o ≤ o := by
  induction t generalizing o with
  | nil => exact Nat.zero_le o
  | cons c cs ih =>
    simp only [floor]
    split
    · omega
    · have := ih (o - c.utf8Size)
      omega

theorem floor_le_size (t : Text) (o : Nat) : floor t o ≤ size t := by
  induction t generalizing o with
  | nil => simp [floor]
  | cons c cs ih =>
    simp only [floor, size]
    split
    · omega
    · have := ih (o - c.utf8Size)
      omega

/-- No boundary at or before the offset is past the floor. -/
theorem le_floor {t : Text} {b o : Nat} (hb : isBoundary t b = true) (h : b ≤ o) :
    b ≤ floor t o := by
  induction t generalizing b o with
  | nil => cases b <;> simp_all [isBoundary]
  | cons c cs ih =>
    rw [isBoundary_cons] at hb
    simp only [floor]
    by_cases h0 : b = 0
    · omega
    · simp only [h0, beq_iff_eq, Bool.or_eq_true, Bool.and_eq_true, decide_eq_true_eq,
        false_or] at hb
      rw [if_neg (by omega)]
      have := ih (o := o - c.utf8Size) hb.2 (by omega)
      omega

theorem floor_eq_self {t : Text} {b : Nat} (hb : isBoundary t b = true) : floor t b = b :=
  Nat.le_antisymm (floor_le t b) (le_floor hb (Nat.le_refl b))

theorem le_size_of_isBoundary {t : Text} {b : Nat} (hb : isBoundary t b = true) : b ≤ size t :=
  floor_eq_self hb ▸ floor_le_size t b

/-- No boundary at or after the offset is before the ceiling. -/
theorem ceil_le {t : Text} {b o : Nat} (hb : isBoundary t b = true) (h : o ≤ b) :
    ceil t o ≤ b := by
  induction t generalizing b o with
  | nil => exact Nat.zero_le b
  | cons c cs ih =>
    rw [isBoundary_cons] at hb
    simp only [ceil]
    split
    · exact Nat.zero_le b
    · simp only [show b ≠ 0 by omega, beq_iff_eq, Bool.or_eq_true, Bool.and_eq_true,
        decide_eq_true_eq, false_or] at hb
      have := ih (o := o - c.utf8Size) hb.2 (by omega)
      omega

theorem ceil_le_size (t : Text) (o : Nat) : ceil t o ≤ size t := by
  induction t generalizing o with
  | nil => exact Nat.le_refl 0
  | cons c cs ih =>
    simp only [ceil, size]
    split
    · exact Nat.zero_le _
    · exact Nat.add_le_add_left (ih _) _

theorem le_ceil {t : Text} {o : Nat} (h : o ≤ size t) : o ≤ ceil t o := by
  induction t generalizing o with
  | nil => exact h
  | cons c cs ih =>
    simp only [ceil, size] at h ⊢
    split
    · omega
    · have := ih (o := o - c.utf8Size) (by omega)
      omega

theorem ceil_eq_self {t : Text} {b : Nat} (hb : isBoundary t b = true) : ceil t b = b :=
  Nat.le_antisymm (ceil_le hb (Nat.le_refl b)) (le_ceil (le_size_of_isBoundary hb))

theorem floor_mono (t : Text) {a b : Nat} (h : a ≤ b) : floor t a ≤ floor t b := by
  induction t generalizing a b with
  | nil => simp [floor]
  | cons c cs ih =>
    simp only [floor]
    split
    · exact Nat.zero_le _
    · rw [if_neg (by omega)]
      have := ih (a := a - c.utf8Size) (b := b - c.utf8Size) (by omega)
      omega

theorem ceil_mono (t : Text) {a b : Nat} (h : a ≤ b) : ceil t a ≤ ceil t b := by
  induction t generalizing a b with
  | nil => simp [ceil]
  | cons c cs ih =>
    simp only [ceil]
    split
    · exact Nat.zero_le _
    · rw [if_neg (by omega)]
      have := ih (a := a - c.utf8Size) (b := b - c.utf8Size) (by omega)
      omega

theorem floor_le_ceil (t : Text) {a b : Nat} (h : a ≤ b) : floor t a ≤ ceil t b := by
  induction t generalizing a b with
  | nil => simp [floor]
  | cons c cs ih =>
    have hc := c.utf8Size_pos
    simp only [floor, ceil]
    split
    · exact Nat.zero_le _
    · rw [if_neg (by omega)]
      have := ih (a := a - c.utf8Size) (b := b - c.utf8Size) (by omega)
      omega

end FlatSyntax.Text
