import FlatSyntax.Proofs.Token.Validation
import Mathlib.Order.Bounds.Basic

namespace FlatSyntax

namespace Token

/-- The first thing that is wrong with a token after the previous one. It ends past the text, or
else it splits a character, or else it starts before the previous one does, or else before that one
ends. -/
inductive Fault (text : Text) (previous : Option Span) (t : Token) : Defect → Prop where
  | outOfBounds (past : text.size < t.span.stop) : Fault text previous t (.outOfBounds text.size)
  | splitsChar (inside : t.span.stop ≤ text.size)
      (split : text.isBoundary t.span.start = false ∨ text.isBoundary t.span.stop = false) :
      Fault text previous t .splitsChar
  | outOfOrder {p : Span} (placed : t.Placed text) (after : previous = some p)
      (before : t.span.start < p.start) : Fault text previous t (.outOfOrder p)
  | overlapping {p : Span} (placed : t.Placed text) (after : previous = some p)
      (sorted : p.start ≤ t.span.start) (shared : t.span.start < p.stop) :
      Fault text previous t (.overlapping p)

theorem fault_of_defect? {text : Text} {previous : Option Span} {t : Token} {d : Defect}
    (h : t.defect? text previous = some d) : t.Fault text previous d := by
  unfold defect? at h
  split at h
  · rename_i hpast
    obtain rfl := Option.some.inj h
    exact .outOfBounds hpast
  rename_i hinside
  split at h
  · rename_i hsplit
    obtain rfl := Option.some.inj h
    exact .splitsChar (Nat.le_of_not_lt hinside) (by simpa using hsplit)
  rename_i hb
  have hp : t.Placed text := by simpa [Placed] using hb
  obtain ⟨p, hafter, horder⟩ := Option.bind_eq_some_iff.mp h
  split at horder
  · rename_i hbefore
    obtain rfl := Option.some.inj horder
    exact .outOfOrder hp hafter hbefore
  rename_i hsorted
  split at horder
  · rename_i hshared
    obtain rfl := Option.some.inj horder
    exact .overlapping hp hafter (Nat.le_of_not_lt hsorted) hshared
  · simp at horder

/-- The checks find exactly what is wrong. -/
theorem defect?_eq_some_iff {text : Text} {previous : Option Span} {t : Token} {d : Defect} :
    t.defect? text previous = some d ↔ t.Fault text previous d := by
  constructor
  · exact fault_of_defect?
  · intro h
    have hplaced (hp : t.Placed text) : ¬ text.size < t.span.stop ∧
        (!(text.isBoundary t.span.start && text.isBoundary t.span.stop)) = false :=
      ⟨Nat.not_lt.mpr hp.inside, by simp [hp.1, hp.2]⟩
    unfold defect?
    cases h with
    | outOfBounds past => rw [if_pos past]
    | splitsChar inside split =>
      have hb : (!(text.isBoundary t.span.start && text.isBoundary t.span.stop)) = true := by
        simpa using split
      rw [if_neg (Nat.not_lt.mpr inside), if_pos hb]
    | outOfOrder placed after before =>
      obtain ⟨hinside, hb⟩ := hplaced placed
      rw [if_neg hinside, hb, if_neg Bool.false_ne_true, after, Option.bind_some, if_pos before]
    | overlapping placed after sorted shared =>
      obtain ⟨hinside, hb⟩ := hplaced placed
      rw [if_neg hinside, hb, if_neg Bool.false_ne_true, after, Option.bind_some,
        if_neg (Nat.not_lt.mpr sorted), if_pos shared]

end Token

/-- The span of the last token of a row, or the one before the row where it is empty. -/
def lastSpan (previous : Option Span) (tokens : List Token) : Option Span :=
  (tokens.getLast?.map Token.span).or previous

theorem lastSpan_cons (previous : Option Span) (t : Token) (ts : List Token) :
    lastSpan previous (t :: ts) = lastSpan (some t.span) ts := by
  rw [lastSpan, lastSpan, List.getLast?_cons]
  cases ts.getLast? <;> rfl

theorem validateFrom_cons_of_eq_some {text : Text} {index : Nat} {previous : Option Span}
    {t : Token} {d : Defect} (h : t.defect? text previous = some d) (ts : List Token) :
    validateFrom text index previous (t :: ts) = .error ⟨index, t, d⟩ := by
  rw [validateFrom, h]

theorem validateFrom_cons_of_eq_none {text : Text} {index : Nat} {previous : Option Span}
    {t : Token} (h : t.defect? text previous = none) (ts : List Token) :
    validateFrom text index previous (t :: ts) = validateFrom text (index + 1) (some t.span) ts := by
  rw [validateFrom, h]

/-- Behind a row that is accepted the check goes on to the next token. -/
theorem validateFrom_append {text : Text} {index : Nat} {previous : Option Span}
    {earlier : List Token} (h : validateFrom text index previous earlier = .ok ())
    (later : List Token) :
    validateFrom text index previous (earlier ++ later) =
      validateFrom text (index + earlier.length) (lastSpan previous earlier) later := by
  induction earlier generalizing index previous with
  | nil => rfl
  | cons t ts ih =>
    cases hd : t.defect? text previous with
    | some d =>
      rw [validateFrom_cons_of_eq_some hd] at h
      simp at h
    | none =>
      rw [validateFrom_cons_of_eq_none hd] at h
      rw [List.cons_append, validateFrom_cons_of_eq_none hd, ih h, lastSpan_cons, List.length_cons,
        Nat.add_right_comm, Nat.add_assoc index]

/-- The check stops at a token with a defect, behind a row that is accepted. -/
theorem exists_of_validateFrom_eq_error {text : Text} {index : Nat} {previous : Option Span}
    {tokens : List Token} {e : StreamError} (h : validateFrom text index previous tokens = .error e) :
    ∃ earlier later, tokens = earlier ++ e.token :: later ∧ e.index = index + earlier.length ∧
      validateFrom text index previous earlier = .ok () ∧
      e.token.defect? text (lastSpan previous earlier) = some e.defect := by
  induction tokens generalizing index previous with
  | nil => simp [validateFrom] at h
  | cons t ts ih =>
    cases hd : t.defect? text previous with
    | some d =>
      rw [validateFrom_cons_of_eq_some hd] at h
      obtain rfl := Except.error.inj h
      exact ⟨[], ts, rfl, rfl, rfl, hd⟩
    | none =>
      rw [validateFrom_cons_of_eq_none hd] at h
      obtain ⟨earlier, later, rfl, hindex, hok, hdefect⟩ := ih h
      refine ⟨t :: earlier, later, rfl, ?_, ?_, ?_⟩
      · rw [hindex, List.length_cons]
        omega
      · rw [validateFrom_cons_of_eq_none hd]
        exact hok
      · rw [lastSpan_cons]
        exact hdefect

theorem validate_eq_error_iff {text : Text} {tokens : List Token} {e : StreamError} :
    validate text tokens = .error e ↔
      ∃ earlier later, tokens = earlier ++ e.token :: later ∧ e.index = earlier.length ∧
        validate text earlier = .ok () ∧
        e.token.Fault text (earlier.getLast?.map Token.span) e.defect := by
  have hlast (ts : List Token) : lastSpan none ts = ts.getLast?.map Token.span := Option.or_none
  simp only [← Token.defect?_eq_some_iff, ← hlast]
  constructor
  · intro h
    obtain ⟨earlier, later, htokens, hindex, hok, hdefect⟩ := exists_of_validateFrom_eq_error h
    exact ⟨earlier, later, htokens, by rw [hindex, Nat.zero_add], hok, hdefect⟩
  · intro h
    obtain ⟨earlier, later, rfl, hindex, hok, hdefect⟩ := h
    rw [validate, validateFrom_append hok, validateFrom_cons_of_eq_some hdefect, Nat.zero_add,
      ← hindex]

/-- The first token that is refused is the last of the shortest malformed start of the stream. -/
theorem isLeast_of_validate_eq_error {text : Text} {tokens : List Token} {e : StreamError}
    (h : validate text tokens = .error e) :
    IsLeast {k | validate text (tokens.take (k + 1)) ≠ .ok ()} e.index := by
  obtain ⟨earlier, later, rfl, hindex, hok, hfault⟩ := validate_eq_error_iff.mp h
  constructor
  · have hstart : (earlier ++ e.token :: later).take (e.index + 1) = earlier ++ [e.token] := by
      rw [hindex, List.take_length_add_append]
      rfl
    have herror : validate text (earlier ++ [e.token]) = .error e :=
      validate_eq_error_iff.mpr ⟨earlier, [], rfl, hindex, hok, hfault⟩
    rw [Set.mem_ofPred_eq, hstart, herror]
    simp
  · intro k hk
    apply Classical.byContradiction
    intro hlt
    apply hk
    have hstart : (earlier ++ e.token :: later).take (k + 1) = earlier.take (k + 1) :=
      List.take_append_of_le_length (by omega)
    rw [hstart]
    exact validate_eq_ok_iff.mpr ((validate_eq_ok_iff.mp hok).sublist (List.take_sublist _ _))

/-- The check accepts a stream if and only if all tokens are placed and stand apart, any two of
them. Otherwise it reports the token that ends the shortest malformed start of the stream, with
the first of the things that are wrong with it. -/
theorem validate_first_defect (text : Text) (tokens : List Token) :
    (validate text tokens = .ok () ↔
      (∀ t ∈ tokens, t.span.stop ≤ text.size ∧ text.isBoundary t.span.start = true ∧
          text.isBoundary t.span.stop = true) ∧
        ∀ (i j : Nat) (hi : i < tokens.length) (hj : j < tokens.length), i < j →
          tokens[i].span.stop ≤ tokens[j].span.start) ∧
      ∀ e, validate text tokens = .error e ↔
        IsLeast {k | validate text (tokens.take (k + 1)) ≠ .ok ()} e.index ∧
          tokens[e.index]? = some e.token ∧
          e.token.Fault text ((tokens.take e.index).getLast?.map Token.span) e.defect := by
  constructor
  · rw [validate_eq_ok_iff]
    constructor
    · intro h
      exact ⟨fun t ht => ⟨h.inside t ht, h.aligned t ht⟩, List.pairwise_iff_getElem.mp h.apart⟩
    · intro h
      obtain ⟨hplaced, hapart⟩ := h
      exact ⟨fun t ht => (hplaced t ht).1, fun t ht => (hplaced t ht).2,
        List.pairwise_iff_getElem.mpr hapart⟩
  · intro e
    constructor
    · intro h
      refine ⟨isLeast_of_validate_eq_error h, ?_⟩
      obtain ⟨earlier, later, rfl, hindex, -, hfault⟩ := validate_eq_error_iff.mp h
      rw [hindex, List.take_left]
      exact ⟨by simp, hfault⟩
    · intro h
      obtain ⟨hleast, hget, hfault⟩ := h
      obtain ⟨hlt, htoken⟩ := List.getElem?_eq_some_iff.mp hget
      refine validate_eq_error_iff.mpr
        ⟨tokens.take e.index, tokens.drop (e.index + 1), ?_, ?_, ?_, hfault⟩
      · rw [← htoken, ← List.drop_eq_getElem_cons hlt, List.take_append_drop]
      · rw [List.length_take, Nat.min_eq_left (Nat.le_of_lt hlt)]
      · cases hk : e.index with
        | zero => rfl
        | succ k =>
          apply Classical.byContradiction
          intro hne
          have hle := hleast.2 hne
          omega

end FlatSyntax
