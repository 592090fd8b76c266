namespace FlatSyntax

/-- A document as the sequence of its characters. Offsets into it count UTF-8 bytes. -/
abbrev Text := List Char

namespace Text

def size : Text → Nat
  | [] => 0
  | c :: cs => c.utf8Size + size cs

/-- Cuts the text at an offset, if that is a boundary. -/
def splitAt? : Text → Nat → Option (Text × Text)
  | t, 0 => some ([], t)
  | [], _ + 1 => none
  | c :: cs, o =>
    if c.utf8Size ≤ o then (splitAt? cs (o - c.utf8Size)).map fun p => (c :: p.1, p.2) else none

/-- The text between two boundaries, the first of which is not past the second. -/
def slice? (t : Text) (start stop : Nat) : Option Text :=
  if start ≤ stop then
    ((t.splitAt? start).bind fun p => splitAt? p.2 (stop - start)).map Prod.fst
  else none

def decimal (n : Nat) : Text :=
  Nat.toDigits 10 n

/-- A set of code points as closed intervals. -/
abbrev Ranges := List (Nat × Nat)

def Ranges.contains (rs : Ranges) (c : Char) : Bool :=
  rs.any fun r => r.1 ≤ c.toNat && c.toNat ≤ r.2

/-- The White_Space property. -/
def blanks : Ranges :=
  [(0x9, 0xD), (0x20, 0x20), (0x85, 0x85), (0xA0, 0xA0), (0x1680, 0x1680), (0x2000, 0x200A),
   (0x2028, 0x2029), (0x202F, 0x202F), (0x205F, 0x205F), (0x3000, 0x3000)]

def isBlank (c : Char) : Bool :=
  blanks.contains c

theorem isBlank_newline : isBlank '\n' = true := by decide

theorem size_append (s t : Text) : size (s ++ t) = size s + size t := by
  induction s with
  | nil => simp [size]
  | cons c cs ih => simp [size, ih, Nat.add_assoc]

theorem size_pos {t : Text} (h : t ≠ []) : 0 < size t := by
  cases t with
  | nil => exact absurd rfl h
  | cons c cs => exact Nat.add_pos_left c.utf8Size_pos _

theorem splitAt?_append (p q : Text) : splitAt? (p ++ q) (size p) = some (p, q) := by
  induction p with
  | nil => cases q <;> rfl
  | cons c cs ih =>
    have hc := c.utf8Size_pos
    obtain ⟨n, hn⟩ : ∃ n, c.utf8Size + size cs = n + 1 := ⟨c.utf8Size + size cs - 1, by omega⟩
    have hs : n + 1 - c.utf8Size = size cs := by omega
    have hle : c.utf8Size ≤ n + 1 := by omega
    simp [splitAt?, size, hn, hs, hle, ih]

theorem append_eq_of_splitAt? {t p q : Text} {o : Nat} (h : splitAt? t o = some (p, q)) :
    p ++ q = t ∧ size p = o := by
  fun_induction splitAt? t o generalizing p q with
  | case1 t => simp_all [size]
  | case2 => simp at h
  | case3 o c cs _ hc ih =>
    obtain ⟨⟨p', q'⟩, h', hp⟩ := Option.map_eq_some_iff.mp h
    obtain ⟨rfl, rfl⟩ := Prod.mk.inj hp
    obtain ⟨rfl, hs⟩ := ih h'
    exact ⟨rfl, by simp only [size]; omega⟩
  | case4 => simp at h

/-- Cutting takes a text apart into two that make it up again. -/
theorem splitAt?_eq_some_iff {t p q : Text} {o : Nat} :
    splitAt? t o = some (p, q) ↔ p ++ q = t ∧ size p = o := by
  constructor
  · exact append_eq_of_splitAt?
  · rintro ⟨rfl, rfl⟩
    exact splitAt?_append p q

/-- A slice is what stands between two boundaries. -/
theorem slice?_eq_some_iff {t m : Text} {a b : Nat} :
    slice? t a b = some m ↔ ∃ p q, p ++ m ++ q = t ∧ size p = a ∧ size (p ++ m) = b := by
  unfold slice?
  constructor
  · intro h
    split at h
    · obtain ⟨⟨m', q⟩, hs, rfl⟩ := Option.map_eq_some_iff.mp h
      obtain ⟨⟨p, r⟩, hp, hr⟩ := Option.bind_eq_some_iff.mp hs
      obtain ⟨rfl, rfl⟩ := splitAt?_eq_some_iff.mp hp
      obtain ⟨rfl, hm⟩ := splitAt?_eq_some_iff.mp hr
      refine ⟨p, q, by simp, rfl, ?_⟩
      rw [size_append, hm]
      omega
    · simp at h
  · rintro ⟨p, q, rfl, rfl, rfl⟩
    have hp := splitAt?_append p (m ++ q)
    have hm := splitAt?_append m q
    rw [size_append, if_pos (Nat.le_add_right ..), Nat.add_sub_cancel_left, List.append_assoc, hp]
    simp [hm]

end Text

end FlatSyntax
