import FlatSyntax.Proofs.Text.Written
import Mathlib.Data.List.Forall2

namespace FlatSyntax

/-- What a JSON text says when its layout is left out. -/
inductive JsonToken where
  | openArray
  | closeArray
  | openObject
  | closeObject
  | colon
  | comma
  | number (n : Nat)
  | string (t : Text)
  deriving DecidableEq

namespace JsonToken

def mark? : Char → Option JsonToken
  | '[' => some openArray
  | ']' => some closeArray
  | '\x7b' => some openObject
  | '\x7d' => some closeObject
  | ':' => some colon
  | ',' => some comma
  | _ => none

def isBlank (c : Char) : Bool :=
  c == ' ' || c == '\t' || c == '\n' || c == '\r'

/-- What a letter stands for behind a backslash. -/
def unescape? : Char → Option Char
  | '"' => some '"'
  | '\\' => some '\\'
  | '/' => some '/'
  | 'b' => some '\x08'
  | 'f' => some '\x0c'
  | 'n' => some '\n'
  | 'r' => some '\r'
  | 't' => some '\t'
  | _ => none

def hexDigit? (c : Char) : Option Nat :=
  (List.range 16).find? fun d => d.digitChar == c.toLower

/-- The character with the code point that four digits give. -/
def codePoint? (a b c d : Char) : Option Char := do
  let n := 16 * (16 * (16 * (← hexDigit? a) + (← hexDigit? b)) + (← hexDigit? c)) + (← hexDigit? d)
  if n.isValidChar then some (Char.ofNat n) else none

/-- A string that has been opened up to the quote that closes it, and what stands behind. -/
def readString? : Text → Option (Text × Text)
  | [] => none
  | '"' :: r => some ([], r)
  | '\\' :: 'u' :: a :: b :: c :: d :: r =>
    (codePoint? a b c d).bind fun x => (readString? r).map fun p => (x :: p.1, p.2)
  | '\\' :: c :: r =>
    (unescape? c).bind fun x => (readString? r).map fun p => (x :: p.1, p.2)
  | c :: r => if c.toNat < 0x20 then none else (readString? r).map fun p => (c :: p.1, p.2)

theorem eq_some_of_map_cons {x : Char} {q : Option (Text × Text)} {s after : Text}
    (h : (q.map fun p => (x :: p.1, p.2)) = some (s, after)) : ∃ s', q = some (s', after) := by
  obtain ⟨⟨s', after'⟩, hq, hp⟩ := Option.map_eq_some_iff.mp h
  obtain ⟨-, rfl⟩ := Prod.mk.inj hp
  exact ⟨s', hq⟩

theorem length_readString?_le {r s after : Text} (h : readString? r = some (s, after)) :
    after.length ≤ r.length := by
  fun_induction readString? r generalizing s after with
  | case1 => simp at h
  | case2 r =>
    obtain ⟨-, rfl⟩ := Prod.mk.inj (Option.some.inj h)
    exact Nat.le_succ _
  | case3 a b c d r ih =>
    obtain ⟨x, -, hx⟩ := Option.bind_eq_some_iff.mp h
    obtain ⟨s', hr⟩ := eq_some_of_map_cons hx
    exact Nat.le_add_right_of_le (k := 6) (ih hr)
  | case4 c r _ ih =>
    obtain ⟨x, -, hx⟩ := Option.bind_eq_some_iff.mp h
    obtain ⟨s', hr⟩ := eq_some_of_map_cons hx
    exact Nat.le_add_right_of_le (k := 2) (ih hr)
  | case5 => simp at h
  | case6 c r _ _ _ _ ih =>
    obtain ⟨s', hr⟩ := eq_some_of_map_cons h
    exact Nat.le_add_right_of_le (k := 1) (ih hr)

/-- Reads a JSON text, if it has nothing but whole numbers and strings in arrays and objects. -/
def read? (t : Text) : Option (List JsonToken) :=
  match t with
  | [] => some []
  | c :: r =>
    match mark? c with
    | some m => (read? r).map (m :: ·)
    | none =>
      if isBlank c then read? r
      else if c.isDigit then
        (read? (r.dropWhile Char.isDigit)).map
          (number (Nat.ofDigitChars 10 (c :: r.takeWhile Char.isDigit) 0) :: ·)
      else if c = '"' then
        match _h : readString? r with
        | some (s, after) => (read? after).map (string s :: ·)
        | none => none
      else none
  termination_by t.length
  decreasing_by
    · simp
    · simp
    · have := (r.dropWhile_sublist Char.isDigit).length_le
      simp only [List.length_cons]
      omega
    · have := length_readString?_le _h
      simp only [List.length_cons]
      omega

theorem read?_mark {c : Char} {m : JsonToken} (h : mark? c = some m) (r : Text) :
    read? (c :: r) = (read? r).map (m :: ·) := by
  rw [read?, h]

theorem read?_blank {c : Char} (h : isBlank c = true) (r : Text) : read? (c :: r) = read? r := by
  have hmark : mark? c = none := by
    simp only [isBlank, Bool.or_eq_true, beq_iff_eq] at h
    obtain ((rfl | rfl) | rfl) | rfl := h <;> rfl
  rw [read?, hmark]
  exact if_pos h

theorem read?_number {c : Char} (h : c.isDigit = true) (r : Text) :
    read? (c :: r) = (read? (r.dropWhile Char.isDigit)).map
      (number (Nat.ofDigitChars 10 (c :: r.takeWhile Char.isDigit) 0) :: ·) := by
  have hmark : mark? c = none := by
    unfold mark?
    split <;> first | rfl | simp at h
  have hblank : ¬ isBlank c = true := by
    intro hblank
    simp only [isBlank, Bool.or_eq_true, beq_iff_eq] at hblank
    obtain ((rfl | rfl) | rfl) | rfl := hblank <;> simp at h
  rw [read?, hmark]
  exact (if_neg hblank).trans (if_pos h)

theorem read?_string {r s after : Text} (h : readString? r = some (s, after)) :
    read? ('"' :: r) = (read? after).map (string s :: ·) := by
  have hmark : mark? '"' = none := rfl
  rw [read?, hmark]
  refine (if_neg (by decide)).trans ((if_neg (by decide)).trans ((if_pos rfl).trans ?_))
  split
  · rename_i s' after' h'
    obtain ⟨rfl, rfl⟩ := Prod.mk.inj (Option.some.inj (h'.symm.trans h))
    rfl
  · rename_i h'
    exact absurd (h'.symm.trans h) (by simp)

theorem hexDigit?_digitChar {d : Nat} (h : d < 16) : hexDigit? d.digitChar = some d := by
  revert d
  decide

theorem codePoint?_of_control {c : Char} (h : c.toNat < 0x20) :
    codePoint? '0' '0' (Nat.digitChar (c.toNat / 16)) (Nat.digitChar (c.toNat % 16)) = some c := by
  have hzero : hexDigit? '0' = some 0 := hexDigit?_digitChar (d := 0) (by decide)
  have hhigh := hexDigit?_digitChar (d := c.toNat / 16) (by omega)
  have hlow := hexDigit?_digitChar (d := c.toNat % 16) (by omega)
  have hcode : 16 * (c.toNat / 16) + c.toNat % 16 = c.toNat := Nat.div_add_mod _ _
  have hvalid : c.toNat.isValidChar := c.valid
  simp [codePoint?, hzero, hhigh, hlow, hcode, hvalid]

theorem readString?_escape (c : Char) (t : Text) :
    readString? (Text.jsonEscape c ++ t) = (readString? t).map fun p => (c :: p.1, p.2) := by
  unfold Text.jsonEscape
  split
  case h_8 hquote hbackslash _ _ _ _ _ =>
    split
    · rename_i hcontrol
      simp [readString?, codePoint?_of_control hcontrol]
    · rename_i hplain
      rw [List.singleton_append, readString?, if_neg hplain]
      · exact hquote
      · exact fun _ _ _ _ _ h _ => hbackslash h
      · exact fun _ _ h _ => hbackslash h
  all_goals rfl

theorem readString?_escaped (s after : Text) :
    readString? (s.flatMap Text.jsonEscape ++ '"' :: after) = some (s, after) := by
  induction s with
  | nil => rfl
  | cons c s ih =>
    rw [List.flatMap_cons, List.append_assoc, readString?_escape, ih]
    rfl

/-- The text reads as the tokens, whatever stands behind it. -/
def Spells (t : Text) (ts : List JsonToken) : Prop :=
  ∀ after, read? (t ++ after) = (read? after).map (ts ++ ·)

theorem Spells.read?_eq {t : Text} {ts : List JsonToken} (h : Spells t ts) : read? t = some ts := by
  have hend : read? [] = some [] := by rw [read?]
  have hall := h []
  rwa [hend, List.append_nil, Option.map_some, List.append_nil] at hall

theorem spells_nil : Spells [] [] := by
  intro after
  simp

theorem Spells.append {t u : Text} {ts us : List JsonToken} (ht : Spells t ts)
    (hu : Spells u us) : Spells (t ++ u) (ts ++ us) := by
  intro after
  rw [List.append_assoc, ht, hu, Option.map_map]
  simp [Function.comp_def]

theorem spells_mark {c : Char} {m : JsonToken} (h : mark? c = some m) : Spells [c] [m] :=
  read?_mark h

theorem spells_blanks {t : Text} (h : t.all isBlank = true) : Spells t [] := by
  induction t with
  | nil => exact spells_nil
  | cons c t ih =>
    obtain ⟨hc, ht⟩ := Bool.and_eq_true_iff.mp (List.all_cons ▸ h)
    intro after
    rw [List.cons_append, read?_blank hc, ih ht]

theorem spells_string (s : Text) : Spells (Text.jsonString s) [string s] := by
  intro after
  have htext : Text.jsonString s ++ after = '"' :: (s.flatMap Text.jsonEscape ++ '"' :: after) := by
    simp [Text.jsonString]
  rw [htext, read?_string (readString?_escaped s after)]
  rfl

theorem spells_decimal (n : Nat) : Spells (Text.decimal n ++ [',']) [number n, comma] := by
  intro after
  have hdigit : ∀ c ∈ Text.decimal n, c.isDigit = true := fun _ => Text.isDigit_of_mem_decimal
  have hvalue : Nat.ofDigitChars 10 (Text.decimal n) 0 = n :=
    Nat.ofDigitChars_toDigits (by decide) (by decide)
  cases hn : Text.decimal n with
  | nil => exact absurd hn Nat.toDigits_ne_nil
  | cons c r =>
    rw [hn] at hdigit hvalue
    obtain ⟨hc, hr⟩ := List.forall_mem_cons.mp hdigit
    have htake : (r ++ ',' :: after).takeWhile Char.isDigit = r := by
      rw [List.takeWhile_append_of_pos hr, List.takeWhile_cons_of_neg (by decide), List.append_nil]
    have hdrop : (r ++ ',' :: after).dropWhile Char.isDigit = ',' :: after := by
      rw [List.dropWhile_append_of_pos hr, List.dropWhile_cons_of_neg (by decide)]
    rw [List.append_assoc, List.singleton_append, List.cons_append, read?_number hc, htake, hdrop,
      hvalue, read?_mark (m := comma) rfl, Option.map_map]
    rfl

theorem spells_key (key : String) :
    Spells ("    ".toList ++ Text.jsonString key.toList ++ ": ".toList)
      [string key.toList, colon] := by
  have hindent : Spells "    ".toList [] := spells_blanks rfl
  have hcolon : Spells [':'] [colon] := spells_mark rfl
  have hblank : Spells [' '] [] := spells_blanks rfl
  exact (hindent.append (spells_string key.toList)).append (hcolon.append hblank)

theorem Spells.intercalate {sep : Text} {ss : List JsonToken} (hsep : Spells sep ss)
    {items : List Text} {tokens : List (List JsonToken)} (h : List.Forall₂ Spells items tokens) :
    Spells (List.intercalate sep items) (List.intercalate ss tokens) := by
  induction h with
  | nil => exact spells_nil
  | @cons t ts items tokens ht hrest ih =>
    cases hrest with
    | nil => simpa using ht
    | cons hu hrest =>
      rw [List.intercalate_cons_cons, List.intercalate_cons_cons]
      exact (ht.append hsep).append ih

/-- The row of items in brackets. -/
def array (items : List (List JsonToken)) : List JsonToken :=
  openArray :: List.intercalate [comma] items ++ [closeArray]

/-- The members with their names, in order. -/
def object (members : List (String × JsonToken)) : List JsonToken :=
  openObject :: List.intercalate [comma] (members.map fun m => [string m.1.toList, colon, m.2]) ++
    [closeObject]

end JsonToken

end FlatSyntax
