import FlatSyntax.Proofs.Lexer.Literal

namespace FlatSyntax.Lexer

/-- What is read at the front of a text is read there also when the text is cut off behind it. -/
def StopsAtCut (f : Text → Text) : Prop :=
  ∀ r y, f r <+: y → y <+: r → f y = f r

theorem stopsAtCut_takeWhile (p : Char → Bool) : StopsAtCut (List.takeWhile p) := by
  intro r y hy hr
  obtain ⟨z, rfl⟩ := hr
  rw [List.takeWhile_append] at hy ⊢
  split
  · rename_i hall
    rw [if_pos hall] at hy
    have hrun : y.takeWhile p = y := (List.takeWhile_prefix p).eq_of_length hall
    have hz : (y ++ z.takeWhile p).length ≤ y.length := hy.length_le
    rw [hrun]
    exact (List.prefix_append y _).eq_of_length_le hz
  · rfl

section Readers

variable {f g : Text → Text}

/-- A reader behind one that stops at a cut. -/
theorem StopsAtCut.behind (hf : StopsAtCut f) (hg : StopsAtCut g) {r y : Text}
    (hy : f r ++ g (r.drop (f r).length) <+: y) (hr : y <+: r) :
    f y = f r ∧ g (y.drop (f r).length) = g (r.drop (f r).length) := by
  have hfront : f r <+: y := (List.prefix_append _ _).trans hy
  refine ⟨hf r y hfront hr, hg _ _ ?_ (hr.drop _)⟩
  have hdrop := hy.drop (f r).length
  rw [List.drop_left] at hdrop
  exact hdrop

theorem StopsAtCut.append (hf : StopsAtCut f) (hg : StopsAtCut g) :
    StopsAtCut fun r => f r ++ g (r.drop (f r).length) := by
  intro r y hy hr
  obtain ⟨hfront, hbehind⟩ := hf.behind hg hy hr
  dsimp only
  rw [hfront, hbehind]

end Readers

theorem fraction_point {d : Char} (hd : d.isDigit = true) (u : Text) :
    fraction ('.' :: d :: u) = '.' :: (d :: u).takeWhile isDigitOrSeparator :=
  if_pos hd

theorem fraction_eq_nil {u : Text} (h : ∀ d s, u = '.' :: d :: s → d.isDigit = false) :
    fraction u = [] := by
  unfold fraction
  split
  · rename_i d s
    rw [h d s rfl]
    rfl
  · rfl

theorem stopsAtCut_fraction : StopsAtCut fraction := by
  intro r y hy hr
  obtain ⟨z, rfl⟩ := hr
  match y with
  | [] => exact (List.prefix_nil.mp hy).symm
  | [c] =>
    have hcut : fraction [c] = [] := fraction_eq_nil (by simp)
    rw [hcut, fraction_eq_nil]
    intro d s heq
    apply Bool.eq_false_iff.mpr
    intro hd
    have hshort := hy.length_le
    rw [heq, fraction_point hd, List.takeWhile_cons_of_pos (by simp [isDigitOrSeparator, hd])]
      at hshort
    simp at hshort
  | c :: d :: s =>
    by_cases hpoint : c = '.' ∧ d.isDigit = true
    · obtain ⟨rfl, hd⟩ := hpoint
      simp only [List.cons_append, fraction_point hd] at hy ⊢
      have hrun := (List.cons_prefix_cons.mp hy).2
      rw [stopsAtCut_takeWhile _ _ _ hrun (List.prefix_append (d :: s) z)]
    · have hnone (u : Text) : fraction (c :: d :: u) = [] := by
        apply fraction_eq_nil
        intro e t heq
        obtain ⟨hc, htail⟩ := List.cons.inj heq
        obtain ⟨he, -⟩ := List.cons.inj htail
        rw [← he, Bool.eq_false_iff]
        intro hd
        exact hpoint ⟨hc, hd⟩
      simp only [List.cons_append, hnone]

theorem stopsAtCut_sign : StopsAtCut sign := by
  intro r y hy hr
  obtain ⟨z, rfl⟩ := hr
  cases y with
  | nil => exact (List.prefix_nil.mp hy).symm
  | cons c s =>
    by_cases hplus : c = '+'
    · subst hplus
      rfl
    by_cases hminus : c = '-'
    · subst hminus
      rfl
    simp [sign, hplus, hminus]

theorem stopsAtCut_exponent : StopsAtCut exponent := by
  intro r y hy hr
  obtain ⟨z, rfl⟩ := hr
  cases y with
  | nil => exact (List.prefix_nil.mp hy).symm
  | cons c s =>
    by_cases hc : c = 'e' ∨ c = 'E'
    · have hread (u : Text) : exponent (c :: u) =
          c :: (sign u ++ (u.drop (sign u).length).takeWhile isDigitOrSeparator) := if_pos hc
      have hsigned := stopsAtCut_sign.append (stopsAtCut_takeWhile isDigitOrSeparator)
      rw [List.cons_append, hread] at hy
      have hrest := hsigned _ _ (List.cons_prefix_cons.mp hy).2 (List.prefix_append s z)
      rw [List.cons_append, hread, hread]
      exact congrArg (List.cons c) hrest
    · have hnone (u : Text) : exponent (c :: u) = [] := if_neg hc
      rw [List.cons_append, hnone, hnone]

theorem stopsAtCut_numeralRest : StopsAtCut numeralRest :=
  ((stopsAtCut_takeWhile isDigitOrSeparator).append stopsAtCut_fraction).append
    stopsAtCut_exponent

theorem quotedRest_of_cut {q : Char} {r y : Text} (hy : (quotedRest q r).1 <+: y) (hr : y <+: r) :
    quotedRest q y = quotedRest q r := by
  fun_induction quotedRest q r generalizing y
  case case1 =>
    obtain rfl := List.prefix_nil.mp hr
    rfl
  case case2 =>
    cases y with
    | nil => rfl
    | cons c s =>
      obtain ⟨rfl, -⟩ := List.cons_prefix_cons.mp hr
      rfl
  case case3 =>
    obtain rfl := hr.eq_of_length_le hy.length_le
    rfl
  case case4 =>
    cases y with
    | nil => simp at hy
    | cons c s =>
      obtain ⟨rfl, hs⟩ := List.cons_prefix_cons.mp hr
      cases s with
      | nil => rfl
      | cons d s =>
        obtain ⟨rfl, -⟩ := List.cons_prefix_cons.mp hs
        rfl
  case case5 c r hn rest ih =>
    have hn' : c ≠ '\n' := hn
    cases y with
    | nil => simp at hy
    | cons b s =>
      obtain ⟨rfl, hr'⟩ := List.cons_prefix_cons.mp hr
      cases s with
      | nil => simp at hy
      | cons d s =>
        obtain ⟨rfl, hs⟩ := List.cons_prefix_cons.mp hr'
        have hrest : (quotedRest q r).1 <+: s := by simpa using hy
        rw [quotedRest_escape q _ hn', ih hrest hs]
  case case6 r hn hlast hline hescape =>
    have hb := ne_backslash hlast hescape
    cases y with
    | nil => simp at hy
    | cons d s =>
      obtain ⟨rfl, hs⟩ := List.cons_prefix_cons.mp hr
      rw [quotedRest_cons _ _ hn hb, if_pos rfl]
  case case7 c r hn hlast hline hescape hq rest ih =>
    have hb := ne_backslash hlast hescape
    cases y with
    | nil => simp at hy
    | cons d s =>
      obtain ⟨rfl, hs⟩ := List.cons_prefix_cons.mp hr
      have hrest := (List.cons_prefix_cons.mp hy).2
      rw [quotedRest_cons q _ hn hb, if_neg hq, ih hrest hs]

/-- A lexeme does not depend on what stands behind it, be it only by its absence. -/
theorem lexeme_of_cut {c : Char} {r y : Text} (hy : (lexeme c r).text <+: c :: y) (hr : y <+: r) :
    lexeme c y = lexeme c r := by
  have hbody {b : Text} (h : c :: b <+: c :: y) : b <+: y := (List.cons_prefix_cons.mp h).2
  unfold lexeme at hy ⊢
  split
  · rfl
  rename_i hs
  split
  · rfl
  rename_i he
  rw [if_neg hs, if_neg he] at hy
  split
  · rename_i hd
    rw [if_pos hd] at hy
    have hword := stopsAtCut_takeWhile isWordChar
    obtain ⟨hrest, htail⟩ := stopsAtCut_numeralRest.behind hword (hbody hy) hr
    simp only [number, hrest, htail]
  rename_i hd
  rw [if_neg hd] at hy
  split
  · rename_i hq
    rw [if_pos hq] at hy
    simp only [quoted, quotedRest_of_cut (hbody hy) hr]
  rename_i hq
  rw [if_neg hq] at hy
  split
  · rename_i hw
    rw [if_pos hw] at hy
    simp only [word, stopsAtCut_takeWhile _ _ _ (hbody hy) hr]
  · rename_i hw
    rw [if_neg hw] at hy
    rw [stopsAtCut_takeWhile _ _ _ (hbody hy) hr]

end FlatSyntax.Lexer
