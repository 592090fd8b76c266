import FlatSyntax.Lexer.Scanner

namespace FlatSyntax.Lexer

/-- A stretch of text before another is made of blanks and of line comments, each of which runs to
just before the end of its line. -/
inductive IsTrivia : (gap after : Text) → Prop
  | nil {after : Text} : IsTrivia [] after
  | blank {c : Char} {gap after : Text} :
      Text.isBlank c = true → IsTrivia gap after → IsTrivia (c :: gap) after
  | comment {body gap after : Text} :
      '\n' ∉ body → (∀ c ∈ (gap ++ after).head?, c = '\n') → IsTrivia gap after →
      IsTrivia ('/' :: '/' :: body ++ gap) after

theorem trivia_cons_of_not_comment {c : Char} {r : Text}
    (h : ∀ s, c = '/' → r = '/' :: s → False) :
    trivia (c :: r) = if Text.isBlank c then c :: trivia r else [] := by
  rw [trivia]
  exact h

/-- There is no trivia before a character that is no blank and starts no comment. -/
theorem trivia_cons_eq_nil_iff {c : Char} {r : Text} :
    trivia (c :: r) = [] ↔ Text.isBlank c = false ∧ ¬ ['/', '/'] <+: c :: r := by
  by_cases hc : ∃ s, c = '/' ∧ r = '/' :: s
  · obtain ⟨s, rfl, rfl⟩ := hc
    simp [trivia, List.cons_prefix_cons]
  · have hno : ∀ s, c = '/' → r = '/' :: s → False := fun s h h' => hc ⟨s, h, h'⟩
    have hpre : ¬ ['/', '/'] <+: c :: r := by
      rintro ⟨s, hs⟩
      obtain ⟨rfl, rfl⟩ := List.cons.inj hs
      exact hno s rfl rfl
    rw [trivia_cons_of_not_comment hno]
    cases hb : Text.isBlank c <;> simp [hpre]

/-- The trivia at the front of a text is trivia, and there is none after it. -/
def TakesTrivia (t : Text) : Prop :=
  ∃ after, t = trivia t ++ after ∧ IsTrivia (trivia t) after ∧ trivia after = []

/-- A comment ends with its line, and trivia goes on from there. -/
def TakesComment (t : Text) : Prop :=
  ∃ body gap after, t = body ++ gap ++ after ∧ comment t = body ++ gap ∧ '\n' ∉ body ∧
    (∀ c ∈ (gap ++ after).head?, c = '\n') ∧ IsTrivia gap after ∧ trivia after = []

/-- The two readers call each other, so that one induction takes both through. -/
private theorem takes (t : Text) : TakesTrivia t ∧ TakesComment t := by
  have h := trivia.mutual_induct TakesTrivia TakesComment ?nil ?slashes ?blank ?other ?endOfText
    ?newline ?inComment
  · exact ⟨h.1 t, h.2 t⟩
  case nil => exact ⟨[], rfl, .nil, rfl⟩
  case slashes =>
    rintro r ⟨body, gap, after, hr, hc, hbody, hend, hgap, hafter⟩
    refine ⟨after, ?_, ?_, hafter⟩
    · rw [trivia, hc, hr]
      rfl
    · rw [trivia, hc]
      exact .comment hbody hend hgap
  case blank =>
    rintro c r hno hb ⟨after, hr, hgap, hafter⟩
    have htrivia : trivia (c :: r) = c :: trivia r := by
      rw [trivia_cons_of_not_comment hno, if_pos hb]
    refine ⟨after, ?_, ?_, hafter⟩
    · rw [htrivia, List.cons_append, ← hr]
    · rw [htrivia]
      exact .blank hb hgap
  case other =>
    intro c r hno hb
    have htrivia : trivia (c :: r) = [] := by
      rw [trivia_cons_of_not_comment hno, if_neg hb]
    exact ⟨c :: r, by rw [htrivia]; rfl, htrivia ▸ .nil, htrivia⟩
  case endOfText => exact ⟨[], [], [], rfl, rfl, by simp, by simp, .nil, rfl⟩
  case newline =>
    rintro r ⟨after, hr, hgap, hafter⟩
    refine ⟨[], '\n' :: trivia r, after, ?_, rfl, by simp, by simp, ?_, hafter⟩
    · rw [List.nil_append, List.cons_append, ← hr]
    · exact .blank Text.isBlank_newline hgap
  case inComment =>
    rintro c r hc ⟨body, gap, after, hr, hcomment, hbody, hend, hgap, hafter⟩
    refine ⟨c :: body, gap, after, ?_, ?_, ?_, hend, hgap, hafter⟩
    · rw [hr]
      rfl
    · rw [comment, if_neg hc, hcomment]
      rfl
    · simp [hbody, Ne.symm hc]

theorem takesTrivia (t : Text) : TakesTrivia t :=
  (takes t).1

theorem comment_append {body x : Text} (hbody : '\n' ∉ body) (hx : ∀ c ∈ x.head?, c = '\n') :
    comment (body ++ x) = body ++ trivia x := by
  induction body with
  | nil =>
    cases x with
    | nil => rfl
    | cons c r =>
      obtain rfl := hx c rfl
      rfl
  | cons c body ih =>
    have hc : c ≠ '\n' := fun h => hbody (by simp [h])
    have hrest : '\n' ∉ body := fun h => hbody (List.mem_cons_of_mem c h)
    rw [List.cons_append, comment, if_neg hc, ih hrest, List.cons_append]

/-- Trivia is read to where there is no more of it. -/
theorem IsTrivia.trivia_eq {gap after : Text} (h : IsTrivia gap after) (ha : trivia after = []) :
    trivia (gap ++ after) = gap := by
  induction h with
  | nil => exact ha
  | @blank c gap after hc _ ih =>
    have hno : ∀ s, c = '/' → gap ++ after = '/' :: s → False := by
      intro s he _
      subst he
      simp [Text.isBlank, Text.Ranges.contains, Text.blanks] at hc
    rw [List.cons_append, trivia_cons_of_not_comment hno, if_pos hc, ih ha]
  | @comment body gap after hbody hend _ ih =>
    have hcomment := comment_append hbody hend
    rw [ih ha] at hcomment
    simp only [List.cons_append, List.append_assoc]
    rw [trivia, hcomment]

/-- A comment may end with the text or with its line, so it can be followed by a new line, or by
what begins like the text it was followed by. -/
theorem IsTrivia.followed {gap after x : Text} (h : IsTrivia gap after)
    (hx : ∀ c ∈ x.head?, c = '\n' ∨ c ∈ after.head?) : IsTrivia gap x := by
  induction h with
  | nil => exact .nil
  | blank hc _ ih => exact .blank hc (ih hx)
  | @comment body gap after hbody hend _ ih =>
    refine .comment hbody ?_ (ih hx)
    intro c hc
    cases gap with
    | nil =>
      cases hx c hc with
      | inl h => exact h
      | inr h => exact hend c h
    | cons d gap => exact hend c hc

theorem IsTrivia.append {g x : Text} (h : IsTrivia g x) {gap after : Text}
    (hx : x = gap ++ after) (h' : IsTrivia gap after) : IsTrivia (g ++ gap) after := by
  induction h with
  | nil => exact h'
  | blank hc _ ih => exact .blank hc (ih hx)
  | @comment body g x hbody hend _ ih =>
    subst hx
    rw [List.append_assoc]
    refine .comment hbody ?_ (ih rfl)
    rw [List.append_assoc]
    exact hend

end FlatSyntax.Lexer
