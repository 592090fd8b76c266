import FlatSyntax.Text.Boundary

namespace FlatSyntax.Text

theorem isBoundary_size (t : Text) : t.isBoundary t.size = true :=
  isBoundary_iff.mpr ⟨t, [], by simp, rfl⟩

/-- Between two boundaries there is a slice. -/
theorem exists_slice? {t : Text} {a b : Nat} (ha : t.isBoundary a = true)
    (hb : t.isBoundary b = true) (h : a ≤ b) : ∃ m, t.slice? a b = some m := by
  obtain ⟨p, q, rfl, rfl⟩ := isBoundary_iff.mp ha
  obtain ⟨p', q', he, rfl⟩ := isBoundary_iff.mp hb
  rcases List.append_eq_append_iff.mp he with ⟨m, hp, hq⟩ | ⟨m, hp, hq⟩
  · cases m with
    | nil => exact ⟨[], slice?_eq_some_iff.mpr ⟨p, q, by simp, rfl, by simp [hp]⟩⟩
    | cons c cs =>
      have hc : 0 < size (c :: cs) := size_pos (List.cons_ne_nil c cs)
      rw [hp, size_append] at h
      omega
  · exact ⟨m, slice?_eq_some_iff.mpr ⟨p, q', by simp [hq], rfl, by rw [hp]⟩⟩

theorem isBoundary_of_slice? {t m : Text} {a b : Nat} (h : t.slice? a b = some m) :
    t.isBoundary a = true ∧ t.isBoundary b = true := by
  obtain ⟨p, q, rfl, rfl, rfl⟩ := slice?_eq_some_iff.mp h
  constructor
  · exact isBoundary_iff.mpr ⟨p, m ++ q, by simp, rfl⟩
  · exact isBoundary_iff.mpr ⟨p ++ m, q, rfl, rfl⟩

theorem slice?_middle (p m q : Text) : slice? (p ++ m ++ q) (size p) (size (p ++ m)) = some m :=
  slice?_eq_some_iff.mpr ⟨p, q, rfl, rfl, rfl⟩

theorem slice?_whole (t : Text) : t.slice? 0 t.size = some t :=
  slice?_eq_some_iff.mpr ⟨[], [], by simp, rfl, by simp⟩

theorem slice?_of_append_right {t m : Text} {a b : Nat} (h : t.slice? a b = some m) (q : Text) :
    slice? (t ++ q) a b = some m := by
  obtain ⟨p, r, rfl, ha, hb⟩ := slice?_eq_some_iff.mp h
  exact slice?_eq_some_iff.mpr ⟨p, r ++ q, by simp, ha, hb⟩

theorem slice?_of_append_left {t m : Text} {a b : Nat} (h : t.slice? a b = some m) (p : Text) :
    slice? (p ++ t) (a + p.size) (b + p.size) = some m := by
  obtain ⟨r, q, rfl, rfl, rfl⟩ := slice?_eq_some_iff.mp h
  refine slice?_eq_some_iff.mpr ⟨p ++ r, q, by simp, ?_, ?_⟩
  · rw [size_append, Nat.add_comm]
  · rw [List.append_assoc, size_append, Nat.add_comm]

/-- Two slices that meet are together the slice over both. -/
theorem slice?_append {t x y : Text} {a b c : Nat} (hx : t.slice? a b = some x)
    (hy : t.slice? b c = some y) : t.slice? a c = some (x ++ y) := by
  obtain ⟨p, q, hp, rfl, rfl⟩ := slice?_eq_some_iff.mp hx
  obtain ⟨p', q', hp', hb, rfl⟩ := slice?_eq_some_iff.mp hy
  have hcut := splitAt?_append p' (y ++ q')
  have hcut' := splitAt?_append (p ++ x) q
  rw [← List.append_assoc, hp', hb] at hcut
  rw [hp, hcut] at hcut'
  obtain ⟨hl, hr⟩ := Prod.mk.inj (Option.some.inj hcut')
  refine slice?_eq_some_iff.mpr ⟨p, q', ?_, rfl, ?_⟩
  · rw [← hp, ← hr]
    simp
  · rw [hl]
    simp

/-- Of two ways to take a text apart, the second goes through the first part or starts behind it. -/
theorem append_cases {s x p q : Text} (h : s ++ x = p ++ q) :
    p.length < s.length ∨ ∃ a, p = s ++ a ∧ x = a ++ q := by
  rcases List.append_eq_append_iff.mp h with ⟨a, hp, hx⟩ | ⟨a, hs, hq⟩
  · exact Or.inr ⟨a, hp, hx⟩
  · cases a with
    | nil => exact Or.inr ⟨[], by simp [hs], by simp [hq]⟩
    | cons c cs =>
      left
      rw [hs, List.length_append, List.length_cons]
      omega

theorem size_le_of_prefix {p t : Text} (h : p <+: t) : size p ≤ size t := by
  obtain ⟨q, rfl⟩ := h
  rw [size_append]
  exact Nat.le_add_right _ _

theorem prefix_of_prefix_of_size_le {p q t : Text} (hp : p <+: t) (hq : q <+: t)
    (h : size p ≤ size q) : p <+: q := by
  cases List.prefix_or_prefix_of_prefix hp hq with
  | inl hpre => exact hpre
  | inr hpre =>
    obtain ⟨m, rfl⟩ := hpre
    cases m with
    | nil => simp
    | cons c cs =>
      have hc : 0 < size (c :: cs) := size_pos (List.cons_ne_nil c cs)
      rw [size_append] at h
      omega

/-- What stands between the ends of a slice is in it. -/
theorem infix_of_slice? {t m p x r : Text} {a b : Nat} (h : t.slice? a b = some m)
    (ht : t = p ++ x ++ r) (ha : a ≤ size p) (hb : size (p ++ x) ≤ b) : x <:+: m := by
  obtain ⟨q, s, hq, rfl, rfl⟩ := slice?_eq_some_iff.mp h
  have hpx : p ++ x <+: t := ⟨r, ht.symm⟩
  have hqm : q ++ m <+: t := ⟨s, hq⟩
  obtain ⟨p', rfl⟩ : q <+: p :=
    prefix_of_prefix_of_size_le ((List.prefix_append q m).trans hqm)
      ((List.prefix_append p x).trans hpx) ha
  have hinside := prefix_of_prefix_of_size_le hpx hqm hb
  rw [List.append_assoc, List.prefix_append_right_inj] at hinside
  exact (List.suffix_append p' x).isInfix.trans hinside.isInfix

/-- A slice that starts before a boundary and does not end before it has the character there. -/
theorem last_mem_of_slice? {t m p r : Text} {a b : Nat} (h : t.slice? a b = some m)
    (ht : t = p ++ r) (ha : a < size p) (hb : size p ≤ b) : ∃ c ∈ p.getLast?, c ∈ m := by
  obtain ⟨q, s, hq, rfl, rfl⟩ := slice?_eq_some_iff.mp h
  have hqt : q <+: t := (List.prefix_append q m).trans ⟨s, hq⟩
  have hqp : q <+: p := prefix_of_prefix_of_size_le hqt ⟨r, ht.symm⟩ (Nat.le_of_lt ha)
  obtain ⟨x, rfl⟩ := hqp
  have hne : x ≠ [] := by
    intro hnil
    simp [hnil] at ha
  have hinside : x <:+: m := infix_of_slice? h ht (Nat.le_refl _) hb
  refine ⟨x.getLast hne, ?_, hinside.subset (List.getLast_mem hne)⟩
  rw [List.getLast?_append, List.getLast?_eq_some_getLast hne]
  rfl

end FlatSyntax.Text
