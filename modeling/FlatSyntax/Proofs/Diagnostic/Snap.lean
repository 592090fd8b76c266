import FlatSyntax.Diagnostic.Snippet
import FlatSyntax.Proofs.Diagnostic.Place

namespace FlatSyntax

namespace Text

/-- Steps back from an offset, byte by byte, up to a boundary. There is no step back from zero. -/
def stepBack? (t : Text) : Nat → Option Nat
  | 0 => if t.isBoundary 0 then some 0 else none
  | o + 1 => if t.isBoundary (o + 1) then some (o + 1) else stepBack? t o

/-- Steps forward from an offset, byte by byte, up to a boundary. An offset is a word of 32 bits, so
that there is no step forward from the last of them. -/
def stepForward? (t : Text) (o : Nat) : Option Nat :=
  if t.isBoundary o then some o
  else if o + 1 < UInt32.size then stepForward? t (o + 1)
  else none
  termination_by UInt32.size - o

theorem floor_succ {t : Text} {o : Nat} (h : t.isBoundary (o + 1) = false) :
    t.floor (o + 1) = t.floor o := by
  have hat := t.isBoundary_floor (o + 1)
  have hne : t.floor (o + 1) ≠ o + 1 := by
    intro heq
    rw [heq, h] at hat
    contradiction
  have hle := t.floor_le (o + 1)
  exact Nat.le_antisymm (le_floor hat (by omega)) (t.floor_mono (Nat.le_succ o))

theorem ceil_succ {t : Text} {o : Nat} (h : t.isBoundary o = false) (ho : o ≤ t.size) :
    t.ceil (o + 1) = t.ceil o := by
  have hat := t.isBoundary_ceil o
  have hne : t.ceil o ≠ o := by
    intro heq
    rw [heq, h] at hat
    contradiction
  have hle := le_ceil ho
  exact Nat.le_antisymm (ceil_le hat (by omega)) (t.ceil_mono (Nat.le_succ o))

/-- Zero is a boundary, so that a walk back ends before there is no step left. -/
theorem stepBack?_eq_floor (t : Text) (o : Nat) : t.stepBack? o = some (t.floor o) := by
  induction o with
  | zero => simp [stepBack?, t.isBoundary_zero, floor_eq_self t.isBoundary_zero]
  | succ o ih =>
    cases h : t.isBoundary (o + 1) with
    | true => simp [stepBack?, h, floor_eq_self h]
    | false => simp [stepBack?, h, ih, floor_succ h]

/-- The size is a boundary, so that a walk forward ends inside of the text. -/
theorem stepForward?_eq_ceil {t : Text} {o : Nat} (hsize : t.size < UInt32.size)
    (ho : o ≤ t.size) : t.stepForward? o = some (t.ceil o) := by
  have hlt (o : Nat) (h : ¬ t.isBoundary o = true) (ho : o ≤ t.size) : o < t.size := by
    apply Nat.lt_of_le_of_ne ho
    intro heq
    exact h (heq ▸ t.isBoundary_size)
  fun_induction stepForward? t o with
  | case1 o h => rw [ceil_eq_self h]
  | case2 o h hnext ih =>
    rw [ih (hlt o h ho), ceil_succ (by simpa using h) ho]
  | case3 o h hlast =>
    have := hlt o h ho
    omega

theorem floor_min_size (t : Text) (o : Nat) : t.floor (min o t.size) = t.floor o := by
  apply Nat.le_antisymm
  · exact t.floor_mono (Nat.min_le_left o t.size)
  · exact le_floor (t.isBoundary_floor o) (Nat.le_min.mpr ⟨t.floor_le o, t.floor_le_size o⟩)

theorem ceil_min_size (t : Text) (o : Nat) : t.ceil (min o t.size) = t.ceil o := by
  apply Nat.le_antisymm
  · exact t.ceil_mono (Nat.min_le_left o t.size)
  · by_cases h : o ≤ t.size
    · rw [Nat.min_eq_left h]
    · rw [Nat.min_eq_right (Nat.le_of_not_le h), ceil_eq_self t.isBoundary_size]
      exact t.ceil_le_size o

end Text

namespace Span

/-- What a span has of a text. One that starts past the end has nothing, at the end. -/
def clamp (r : Span) (t : Text) : Span :=
  ⟨min r.start t.size, min r.stop t.size, by have := r.ordered; omega⟩

/-- The span in the text, its start moved back and its end moved forward to boundaries. -/
def snap? (r : Span) (t : Text) : Option Span := do
  let start ← t.stepBack? (r.clamp t).start
  let stop ← t.stepForward? (r.clamp t).stop
  ofBounds? start stop

/-- The span goes from the start of another one or before to its end or beyond. An empty span has a
place too. -/
def Covers (s r : Span) : Prop :=
  s.start ≤ r.start ∧ r.stop ≤ s.stop

/-- The span is one of whole characters of a text, or of none. -/
structure Fits (s : Span) (text : Text) : Prop where
  inside : s.stop ≤ text.size
  aligned : text.isBoundary s.start = true ∧ text.isBoundary s.stop = true

/-- The second span is the least one of whole characters around what the first one has of a text. -/
structure IsHull (r : Span) (text : Text) (s : Span) : Prop where
  fits : s.Fits text
  covers : s.Covers (r.clamp text)
  least : ∀ u : Span, u.Fits text → u.Covers (r.clamp text) → u.Covers s

theorem Covers.trans {s r q : Span} (h : s.Covers r) (h' : r.Covers q) : s.Covers q :=
  ⟨Nat.le_trans h.1 h'.1, Nat.le_trans h'.2 h.2⟩

theorem Covers.clamp {s r : Span} (h : s.Covers r) (t : Text) :
    (s.clamp t).Covers (r.clamp t) := by
  obtain ⟨hstart, hstop⟩ := h
  simp only [Covers, Span.clamp]
  omega

/-- The walks to the boundaries come to an end, and their ends are in order. -/
theorem snap?_eq_widen {t : Text} (hsize : t.size < UInt32.size) (r : Span) :
    r.snap? t = some (r.widen t) := by
  have hback : t.stepBack? (r.clamp t).start = some (t.floor r.start) := by
    show t.stepBack? (min r.start t.size) = some (t.floor r.start)
    rw [t.stepBack?_eq_floor, t.floor_min_size]
  have hforward : t.stepForward? (r.clamp t).stop = some (t.ceil r.stop) := by
    show t.stepForward? (min r.stop t.size) = some (t.ceil r.stop)
    rw [Text.stepForward?_eq_ceil hsize (Nat.min_le_right r.stop t.size), t.ceil_min_size]
  simp [snap?, hback, hforward, ofBounds?, t.floor_le_ceil r.ordered, widen]

theorem fits_widen (r : Span) (t : Text) : (r.widen t).Fits t :=
  ⟨t.ceil_le_size r.stop, t.isBoundary_floor r.start, t.isBoundary_ceil r.stop⟩

theorem isHull_widen (r : Span) (t : Text) : r.IsHull t (r.widen t) := by
  constructor
  case fits => exact r.fits_widen t
  case covers =>
    constructor
    · show t.floor r.start ≤ min r.start t.size
      exact Nat.le_min.mpr ⟨t.floor_le r.start, t.floor_le_size r.start⟩
    · show min r.stop t.size ≤ t.ceil r.stop
      rw [← t.ceil_min_size]
      exact Text.le_ceil (Nat.min_le_right _ _)
  case least =>
    intro u hfits hcovers
    constructor
    · show u.start ≤ t.floor r.start
      rw [← t.floor_min_size]
      exact Text.le_floor hfits.aligned.1 hcovers.1
    · show t.ceil r.stop ≤ u.stop
      rw [← t.ceil_min_size]
      exact Text.ceil_le hfits.aligned.2 hcovers.2

theorem widen_widen (r : Span) (t : Text) : (r.widen t).widen t = r.widen t :=
  widen_eq_self (t.isBoundary_floor r.start) (t.isBoundary_ceil r.stop)

theorem Covers.widen {s r : Span} (h : s.Covers r) (t : Text) :
    (s.widen t).Covers (r.widen t) := by
  have hs := s.isHull_widen t
  exact (r.isHull_widen t).least _ hs.fits (hs.covers.trans (h.clamp t))

end Span

/-- The excerpt around the very span that is given, if the text can be cut at its ends. -/
def Excerpt.cut? (text : Text) (s : Span) : Option Excerpt := do
  let before ← text.slice? 0 s.start
  let marked ← s.slice? text
  let after ← text.slice? s.stop text.size
  return ⟨1 + before.count '\n', lastLine before, marked, after.takeWhile (· ≠ '\n')⟩

theorem Excerpt.cut?_of_fits {text : Text} {s : Span} (h : s.Fits text) :
    cut? text s = some (around text s) := by
  obtain ⟨before, hbefore⟩ := Text.exists_slice? text.isBoundary_zero h.aligned.1 (Nat.zero_le _)
  obtain ⟨marked, hmarked⟩ : ∃ m, s.slice? text = some m :=
    Text.exists_slice? h.aligned.1 h.aligned.2 s.ordered
  obtain ⟨after, hafter⟩ := Text.exists_slice? h.aligned.2 text.isBoundary_size h.inside
  rw [around, Span.widen_eq_self h.aligned.1 h.aligned.2]
  simp [cut?, hbefore, hmarked, hafter]

theorem Excerpt.fits_of_cut? {text : Text} {s : Span} {x : Excerpt} (h : cut? text s = some x) :
    s.Fits text := by
  obtain ⟨before, -, hrest⟩ := Option.bind_eq_some_iff.mp h
  obtain ⟨marked, hmarked, -⟩ := Option.bind_eq_some_iff.mp hrest
  have haligned := Text.isBoundary_of_slice? hmarked
  exact ⟨Text.le_size_of_isBoundary haligned.2, haligned⟩

namespace Diagnostic

/-- What draws a diagnostic over its document, marking the very span that it is given. -/
abbrev Drawer :=
  Diagnostic → (path text : Text) → Option Text

/-- The drawing works for every span of whole characters. -/
def Drawer.Accepts (draw : Drawer) : Prop :=
  ∀ (d : Diagnostic) (path text : Text), d.span.Fits text → ∃ out, draw d path text = some out

/-- Snaps the span of a diagnostic and hands it over to be drawn. -/
def render? (draw : Drawer) (d : Diagnostic) (path text : Text) : Option Text :=
  (d.span.snap? text).bind fun s => draw { d with span := s } path text

/-- Draws the snippet of a diagnostic, each row written as `write` says. -/
def drawSnippet? (write : Row → Text) : Drawer :=
  fun d path text => (Excerpt.cut? text d.span).map fun x =>
    List.intercalate ['\n'] ((d.snippet path x).map write)

/-- A span that is not one of whole characters cannot be drawn. -/
theorem exists_drawSnippet?_iff {write : Row → Text} {d : Diagnostic} {path text : Text} :
    (∃ out, drawSnippet? write d path text = some out) ↔ d.span.Fits text := by
  constructor
  · rintro ⟨out, h⟩
    obtain ⟨x, hcut, -⟩ := Option.map_eq_some_iff.mp h
    exact Excerpt.fits_of_cut? hcut
  · intro h
    simp [drawSnippet?, Excerpt.cut?_of_fits h]

theorem accepts_drawSnippet? (write : Row → Text) : Drawer.Accepts (drawSnippet? write) :=
  fun _ _ _ h => exists_drawSnippet?_iff.mpr h

theorem render?_eq {text : Text} (hsize : text.size < UInt32.size) (draw : Drawer)
    (d : Diagnostic) (path : Text) :
    d.render? draw path text = draw { d with span := d.span.widen text } path text := by
  rw [render?, Span.snap?_eq_widen hsize, Option.bind_some]

theorem around_widen (text : Text) (r : Span) :
    Excerpt.around text (r.widen text) = Excerpt.around text r := by
  rw [Excerpt.around, Excerpt.around, Span.widen_widen]

theorem render?_drawSnippet? {text : Text} (hsize : text.size < UInt32.size)
    (write : Row → Text) (d : Diagnostic) (path : Text) :
    d.render? (drawSnippet? write) path text = some (d.renderWith write path text) := by
  rw [render?_eq hsize, drawSnippet?, Excerpt.cut?_of_fits (d.span.fits_widen text), around_widen]
  rfl

/-- Snapping ends for every span, however far it lies past the text, and gives the least span of
whole characters around what the span has of the text. To snap twice is to snap once, and a span
that covers another one still does when both are snapped. A diagnostic is drawn with such a span and
no other, so that drawing it works if it works for these. -/
theorem render_snaps_to_hull {text : Text} (hsize : text.size < UInt32.size) :
    (∀ r : Span, r.snap? text = some (r.widen text) ∧ r.IsHull text (r.widen text) ∧
      (r.widen text).snap? text = some (r.widen text)) ∧
    (∀ r s : Span, s.Covers r → (s.widen text).Covers (r.widen text)) ∧
    ∀ (d : Diagnostic) (path : Text),
      (∀ draw : Drawer,
        d.render? draw path text = draw { d with span := d.span.widen text } path text) ∧
      (∀ draw : Drawer, draw.Accepts → ∃ out, d.render? draw path text = some out) ∧
      ∀ write : Row → Text,
        d.render? (drawSnippet? write) path text = some (d.renderWith write path text) := by
  refine ⟨?_, fun r s h => h.widen text, ?_⟩
  · intro r
    refine ⟨Span.snap?_eq_widen hsize r, r.isHull_widen text, ?_⟩
    rw [Span.snap?_eq_widen hsize, r.widen_widen]
  · intro d path
    refine ⟨fun draw => render?_eq hsize draw d path, ?_, fun write =>
      render?_drawSnippet? hsize write d path⟩
    intro draw haccepts
    rw [render?_eq hsize]
    exact haccepts _ path text (d.span.fits_widen text)

/-- A span from the middle of a letter to far past the end is drawn over the whole text, and an
empty one in the middle of the letter over the letter. -/
theorem split_letter_snaps_to_hull :
    let text : Text := ['é', ' ', 'x']
    let far : Span := ⟨1, 9, by decide⟩
    let empty : Span := ⟨1, 1, by decide⟩
    text.size < UInt32.size ∧ far.Covers empty ∧
      far.snap? text = some ⟨0, 4, by decide⟩ ∧ empty.snap? text = some ⟨0, 2, by decide⟩ ∧
      (far.widen text).Covers (empty.widen text) ∧ Drawer.Accepts (drawSnippet? Row.text) ∧
      ∃ out, (unrecognized text far).render? (drawSnippet? Row.text) ['f'] text = some out := by
  intro text far empty
  have hsize : text.size < UInt32.size := by decide
  have hcovers : far.Covers empty := ⟨by decide, by decide⟩
  obtain ⟨hsnap, hcovered, hrender⟩ := render_snaps_to_hull hsize
  have haccepts := accepts_drawSnippet? Row.text
  exact ⟨hsize, hcovers, (hsnap far).1, (hsnap empty).1, hcovered empty far hcovers, haccepts,
    (hrender (unrecognized text far) ['f']).2.1 _ haccepts⟩

end Diagnostic

end FlatSyntax
