import FlatSyntax.Proofs.Lexer.Cut
import FlatSyntax.Proofs.Lexer.Lines

namespace FlatSyntax

section Reads

variable {offset : Nat} {text gap body rest : Text} {c : Char} {t : Token}

/-- The next token of a text is read also when the text is cut off somewhere behind it. -/
theorem Reads.cut (h : Reads offset text gap c body rest t) {front : Text} (hf : front <+: rest) :
    Reads offset (gap ++ (c :: body ++ front)) gap c body front t := by
  have hcut : body ++ front <+: body ++ rest := (List.prefix_append_right_inj body).mpr hf
  refine ⟨rfl, ?_, ?_, ?_, h.start, h.stop⟩
  · apply h.isTrivia.followed
    intro x hx
    exact Or.inr hx
  · obtain ⟨hblank, hcomment⟩ := Lexer.trivia_cons_eq_nil_iff.mp h.opens
    apply Lexer.trivia_cons_eq_nil_iff.mpr
    refine ⟨hblank, ?_⟩
    intro hpre
    exact hcomment (hpre.trans (List.cons_prefix_cons.mpr ⟨rfl, hcut⟩))
  · have hread : (Lexer.lexeme c (body ++ rest)).text <+: c :: (body ++ front) := by
      rw [h.lexeme]
      exact List.prefix_append (c :: body) front
    rw [Lexer.lexeme_of_cut hread hcut]
    exact h.lexeme

/-- The next token is read at its own start, with no trivia before it. -/
theorem Reads.restart (h : Reads offset text gap c body rest t) :
    Reads t.span.start (c :: body ++ rest) [] c body rest t :=
  ⟨rfl, .nil, h.opens, h.lexeme, rfl, h.stop⟩

end Reads

namespace Scan

variable {offset : Nat} {text : Text} {ts : List Token}

/-- Where a token starts or stops, a text falls apart into two that are read each on its own. -/
theorem split (h : Scan offset text ts) {t : Token} (ht : t ∈ ts) {p : Nat}
    (hp : p = t.span.start ∨ p = t.span.stop) :
    ∃ before after first later, text = before ++ after ∧ p = offset + Text.size before ∧
      ts = first ++ later ∧ Scan offset before first ∧ Scan p after later := by
  induction h with
  | finish => simp at ht
  | @read offset text gap body rest c u us hreads hscan ih =>
    have htext := hreads.text_eq
    have hread {front : Text} (hf : front <+: rest) := hreads.cut hf
    by_cases hu : t = u
    · subst hu
      cases hp with
      | inl hstart =>
        have hgap : Lexer.IsTrivia gap [] := hreads.isTrivia.followed (by simp)
        refine ⟨gap, c :: body ++ rest, [], t :: us, htext, ?_, rfl, .finish hgap, ?_⟩
        · rw [hstart, hreads.start]
        · rw [hstart]
          exact .read hreads.restart hscan
      | inr hstop =>
        have hlast := hread List.nil_prefix
        rw [List.append_nil] at hlast
        refine ⟨gap ++ c :: body, rest, [t], us, ?_, ?_, rfl, .read hlast (.finish .nil), ?_⟩
        · rw [htext, List.append_assoc]
        · rw [hstop, hreads.stop, hreads.start, Text.size_append, Nat.add_assoc]
        · rw [hstop]
          exact hscan
    · have ht' : t ∈ us := (List.mem_cons.mp ht).resolve_left hu
      obtain ⟨before, after, first, later, hrest, hsize, rfl, hfirst, hlater⟩ := ih ht'
      have hfront := hread (hrest ▸ List.prefix_append before after)
      refine ⟨gap ++ (c :: body ++ before), after, u :: first, later, ?_, ?_, rfl,
        .read hfront hfirst, hlater⟩
      · rw [htext, hrest]
        simp
      · rw [hsize, hreads.stop, hreads.start, Text.size_append, Text.size_append]
        omega

end Scan

/-- A scanner knows of its document only where it is and what is left. -/
theorem Scanner.tokens_eq_shift (s : Scanner) :
    s.tokens = (tokenize s.rest).map (Token.shift s.offset) := by
  have h := (scan_tokenize s.rest).shift s.offset
  rw [Nat.zero_add] at h
  exact h.tokens_eq

/-- Where a token starts or stops, a document can be cut in two. The tokens before the cut are read
from the first part, and those behind it from the second, as if there were no other. The text of a
token is read as this token alone. -/
theorem tokenize_restarts (text : Text) :
    (∀ t ∈ tokenize text, ∀ p, p = t.span.start ∨ p = t.span.stop →
        ∃ before after, text.splitAt? p = some (before, after) ∧
          tokenize text = tokenize before ++ (tokenize after).map (Token.shift p)) ∧
      (∀ t ∈ tokenize text, ∃ m, t.span.slice? text = some m ∧
        tokenize m = [⟨t.kind, .whole m⟩]) ∧
      ∀ s : Scanner, s.tokens = (tokenize s.rest).map (Token.shift s.offset) := by
  have hscan := scan_tokenize text
  refine ⟨?_, ?_, Scanner.tokens_eq_shift⟩
  · intro t ht p hp
    obtain ⟨before, after, first, later, htext, hsize, hts, hfirst, hlater⟩ := hscan.split ht hp
    rw [Nat.zero_add] at hsize
    refine ⟨before, after, ?_, ?_⟩
    · rw [htext, hsize]
      exact Text.splitAt?_append before after
    · have hbefore : tokenize before = first := hfirst.tokens_eq
      have hafter := Scanner.tokens_eq_shift ⟨p, after⟩
      rw [hlater.tokens_eq] at hafter
      rw [hts, hbefore, hafter]
  · intro t ht
    obtain ⟨c, body, after, hslice, -, hopens, hlexeme⟩ := hscan.exists_lexeme t ht
    have hreads : Reads 0 (c :: body ++ after) [] c body after ⟨t.kind, .whole (c :: body)⟩ :=
      ⟨rfl, .nil, hopens, hlexeme, rfl, (Nat.zero_add _).symm⟩
    have halone := hreads.cut List.nil_prefix
    rw [List.nil_append, List.append_nil] at halone
    exact ⟨c :: body, hslice, Scan.tokens_eq (.read halone (.finish .nil))⟩

/-- A number that stands before a point is the same without it, and so is what follows. -/
theorem restart_at_point :
    let text := "1.+=".toList
    ⟨.number, 0, 1, by decide⟩ ∈ tokenize text ∧
      tokenize text = tokenize ['1'] ++ (tokenize ".+=".toList).map (Token.shift 1) := by
  intro text
  have hnumber : (Scanner.start text).next =
      (some ⟨.number, 0, 1, by decide⟩, ⟨1, ".+=".toList⟩) := rfl
  have hmem : ⟨.number, 0, 1, by decide⟩ ∈ tokenize text := by
    rw [tokenize, Scanner.tokens_of_next_eq_some hnumber]
    exact List.mem_cons_self
  obtain ⟨before, after, hcut, htokens⟩ := (tokenize_restarts text).1 _ hmem 1 (Or.inr rfl)
  have hsplit : Text.splitAt? text 1 = some (['1'], ".+=".toList) := by decide
  obtain ⟨rfl, rfl⟩ := Prod.mk.inj (Option.some.inj (hcut.symm.trans hsplit))
  exact ⟨hmem, htokens⟩

end FlatSyntax
