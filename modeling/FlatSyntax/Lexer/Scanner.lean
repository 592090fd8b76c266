import FlatSyntax.Lexer.Lexeme

namespace FlatSyntax

namespace Lexer

mutual

/-- The blanks and line comments at the front of a text. -/
def trivia : Text → Text
  | [] => []
  | '/' :: '/' :: r => '/' :: '/' :: comment r
  | c :: r => if Text.isBlank c then c :: trivia r else []

/-- The rest of a comment and the trivia after its line. -/
def comment : Text → Text
  | [] => []
  | c :: r => if c = '\n' then c :: trivia r else c :: comment r

end

end Lexer

/-- A place in a document, with the text from there on. -/
structure Scanner where
  offset : Nat
  rest : Text

namespace Scanner

def start (t : Text) : Scanner :=
  ⟨0, t⟩

/-- The scanner after the first `n` characters. -/
def skip (s : Scanner) (n : Nat) : Scanner :=
  ⟨s.offset + Text.size (s.rest.take n), s.rest.drop n⟩

def skipTrivia (s : Scanner) : Scanner :=
  s.skip (Lexer.trivia s.rest).length

/-- The next token, and the scanner after it. At the end of the text there is none. -/
def next (s : Scanner) : Option Token × Scanner :=
  let front := s.skipTrivia
  match front.rest with
  | [] => (none, front)
  | c :: r =>
    let lexeme := Lexer.lexeme c r
    let after := front.skip lexeme.text.length
    (some ⟨lexeme.kind, front.offset, after.offset, Nat.le_add_right ..⟩, after)

theorem length_rest_next_lt {s s' : Scanner} {t : Token} (h : s.next = (some t, s')) :
    s'.rest.length < s.rest.length := by
  dsimp only [next] at h
  split at h
  · simp at h
  · rename_i c r hr
    obtain ⟨b, hb⟩ := Lexer.lexeme_text c r
    obtain ⟨-, rfl⟩ := Prod.mk.inj h
    have hf : r.length + 1 ≤ s.rest.length := by
      have := congrArg List.length hr
      simp [skipTrivia, skip] at this
      omega
    simp only [skip, hr, hb, List.length_cons, List.drop_succ_cons, List.length_drop]
    omega

/-- All tokens from here to the end of the text. -/
def tokens (s : Scanner) : List Token :=
  match _h : s.next with
  | (none, _) => []
  | (some t, s') => t :: s'.tokens
  termination_by s.rest.length
  decreasing_by exact length_rest_next_lt _h

/-- What the next `n` requests for a token are answered with. -/
def answers : Nat → Scanner → List (Option Token)
  | 0, _ => []
  | n + 1, s => s.next.1 :: answers n s.next.2

end Scanner

def tokenize (t : Text) : List Token :=
  (Scanner.start t).tokens

end FlatSyntax
