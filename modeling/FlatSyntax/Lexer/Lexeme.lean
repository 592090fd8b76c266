import FlatSyntax.Token.Basic

namespace FlatSyntax

/-- A stretch of text and the kind of token it makes. -/
structure Lexeme where
  kind : TokenKind
  text : Text
  deriving DecidableEq

namespace Lexer

def isWordStart (c : Char) : Bool :=
  c.isAlpha || c == '_' || c == '$'

def isWordChar (c : Char) : Bool :=
  isWordStart c || c.isDigit

def isDigitOrSeparator (c : Char) : Bool :=
  c.isDigit || c == '_'

/-- The characters that end a run of unrecognized ones, word characters apart. -/
def isDelimiter (c : Char) : Bool :=
  Text.isBlank c || c == ';' || c == '=' || c == '"' || c == '\''

def isStray (c : Char) : Bool :=
  !isDelimiter c && !isWordChar c

def wordKind (w : Text) : TokenKind :=
  if w = "const".toList then .constKw
  else if w = "let".toList then .letKw
  else .ident

/-- A point and digits. The point counts only before a digit. -/
def fraction : Text → Text
  | '.' :: d :: r => if d.isDigit then '.' :: (d :: r).takeWhile isDigitOrSeparator else []
  | _ => []

def sign : Text → Text
  | '+' :: _ => ['+']
  | '-' :: _ => ['-']
  | _ => []

/-- A letter, a sign and digits, of which only the letter must be there. -/
def exponent : Text → Text
  | c :: r =>
    if c = 'e' ∨ c = 'E' then
      c :: sign r ++ (r.drop (sign r).length).takeWhile isDigitOrSeparator
    else []
  | [] => []

/-- What can follow the first digit of a numeral. -/
def numeralRest (r : Text) : Text :=
  let digits := r.takeWhile isDigitOrSeparator
  let frac := fraction (r.drop digits.length)
  digits ++ frac ++ exponent (r.drop (digits ++ frac).length)

/-- What follows the opening quote of a literal in its line, and whether a quote closes it. -/
def quotedRest (quote : Char) : Text → Text × Bool
  | [] => ([], false)
  | '\n' :: _ => ([], false)
  | ['\\'] => (['\\'], false)
  | '\\' :: '\n' :: _ => (['\\'], false)
  | '\\' :: c :: r =>
    let rest := quotedRest quote r
    ('\\' :: c :: rest.1, rest.2)
  | c :: r =>
    if c = quote then ([c], true)
    else
      let rest := quotedRest quote r
      (c :: rest.1, rest.2)

def word (c : Char) (r : Text) : Lexeme :=
  let text := c :: r.takeWhile isWordChar
  ⟨wordKind text, text⟩

/-- A numeral. With word characters right behind it, both are one error. -/
def number (c : Char) (r : Text) : Lexeme :=
  let rest := numeralRest r
  let tail := (r.drop rest.length).takeWhile isWordChar
  ⟨if tail.isEmpty then .number else .error, c :: rest ++ tail⟩

def quoted (c : Char) (r : Text) : Lexeme :=
  let body := quotedRest c r
  ⟨if body.2 then .string else .error, c :: body.1⟩

/-- The lexeme at the front of a text that starts with neither a blank nor a comment. -/
def lexeme (c : Char) (r : Text) : Lexeme :=
  if c = ';' then ⟨.semicolon, [c]⟩
  else if c = '=' then ⟨.assign, [c]⟩
  else if c.isDigit then number c r
  else if c = '"' ∨ c = '\'' then quoted c r
  else if isWordStart c then word c r
  else ⟨.error, c :: r.takeWhile isStray⟩

theorem lexeme_text (c : Char) (r : Text) : ∃ b, (lexeme c r).text = c :: b := by
  unfold lexeme
  split
  · exact ⟨_, rfl⟩
  split
  · exact ⟨_, rfl⟩
  split
  · exact ⟨_, rfl⟩
  split
  · exact ⟨_, rfl⟩
  split <;> exact ⟨_, rfl⟩

/-- A stretch at the front and one at the front of what is left are together at the front. -/
theorem prefix_of_drop {t p q : Text} (hp : p <+: t) (hq : q <+: t.drop p.length) :
    p ++ q <+: t := by
  obtain ⟨r, rfl⟩ := hp
  rw [List.drop_left] at hq
  exact (List.prefix_append_right_inj p).mpr hq

theorem fraction_prefix_self (t : Text) : fraction t <+: t := by
  unfold fraction
  split
  · split
    · exact List.cons_prefix_cons.mpr ⟨rfl, List.takeWhile_prefix _⟩
    · exact List.nil_prefix
  · exact List.nil_prefix

theorem sign_prefix_self (t : Text) : sign t <+: t := by
  unfold sign
  split <;> simp

theorem exponent_prefix_self (t : Text) : exponent t <+: t := by
  unfold exponent
  split
  · split
    · exact List.cons_prefix_cons.mpr
        ⟨rfl, prefix_of_drop (sign_prefix_self _) (List.takeWhile_prefix _)⟩
    · exact List.nil_prefix
  · exact List.nil_prefix

theorem numeralRest_prefix_self (r : Text) : numeralRest r <+: r :=
  prefix_of_drop (prefix_of_drop (List.takeWhile_prefix _) (fraction_prefix_self _))
    (exponent_prefix_self _)

theorem quotedRest_prefix_self (quote : Char) (r : Text) : (quotedRest quote r).1 <+: r := by
  fun_induction quotedRest quote r <;> simp_all +zetaDelta [List.cons_prefix_cons]

theorem lexeme_prefix_self (c : Char) (r : Text) : (lexeme c r).text <+: c :: r := by
  unfold lexeme
  split
  · simp
  split
  · simp
  split
  · exact List.cons_prefix_cons.mpr
      ⟨rfl, prefix_of_drop (numeralRest_prefix_self r) (List.takeWhile_prefix _)⟩
  split
  · exact List.cons_prefix_cons.mpr ⟨rfl, quotedRest_prefix_self c r⟩
  split
  · exact List.cons_prefix_cons.mpr ⟨rfl, List.takeWhile_prefix _⟩
  · exact List.cons_prefix_cons.mpr ⟨rfl, List.takeWhile_prefix _⟩

end Lexer

end FlatSyntax
