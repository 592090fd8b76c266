import FlatSyntax.Proofs.Text.Slice
import FlatSyntax.Session

namespace FlatSyntax

namespace Input

theorem text_text (t : Text) : Input.text t = t := by
  have h : read? t 0 (size t) = some t := Text.slice?_whole t
  rw [Input.text, h, Option.getD_some]

theorem text_string (s : String) : Input.text s = s.toList := by
  have h : read? s 0 (size s) = some s.toList := Text.slice?_whole s.toList
  rw [Input.text, h, Option.getD_some]

theorem text_ofList (t : Text) : Input.text (String.ofList t) = t := by
  rw [text_string, String.toList_ofList]

end Input

namespace Session

variable (document : Text) (source : TokenSource)

/-- What a request is answered with when the tree of the document is known, and whether there has
been an advance before. -/
def reply (tree : Tree) (advanced : Bool) : Request → Answer
  | .advance => .tree (some tree)
  | .stopAt _ => .nothing
  | .parsedPos => .position document.size
  | .stoppedAt => .bound (some document.size)
  | .isDone => .done advanced

/-- What requests made one after the other are answered with. -/
def replies (tree : Tree) (requests : List Request) : List Answer :=
  requests.mapIdx fun i r => reply document tree (decide (.advance ∈ requests.take i)) r

/-- The session before its first advance and from there on. -/
def reached (advanced : Bool) : Session :=
  ⟨document, source, advanced.toNat,
    if advanced then some (Tree.build document (source 0 document)) else none⟩

/-- Only the first advance changes a session. -/
theorem answer_reached (advanced : Bool) (r : Request) :
    (reached document source advanced).answer r =
      (reply document (Tree.build document (source 0 document)) advanced r,
        reached document source (advanced || decide (r = .advance))) := by
  cases r with
  | advance => cases advanced <;> rfl
  | stopAt pos => cases advanced <;> rfl
  | parsedPos => cases advanced <;> rfl
  | stoppedAt => cases advanced <;> rfl
  | isDone => cases advanced <;> rfl

theorem run_reached (advanced : Bool) (requests : List Request) :
    (reached document source advanced).run requests =
      (requests.mapIdx fun i r =>
          reply document (Tree.build document (source 0 document))
            (advanced || decide (.advance ∈ requests.take i)) r,
        reached document source (advanced || decide (.advance ∈ requests))) := by
  induction requests generalizing advanced with
  | nil => simp [run]
  | cons r rs ih =>
    have hseen (us : List Request) :
        (advanced || decide (r = .advance) || decide (.advance ∈ us)) =
          (advanced || decide (.advance ∈ r :: us)) := by
      simp [Bool.or_assoc, eq_comm]
    rw [run, answer_reached, ih]
    simp only [List.mapIdx_cons, List.take_zero, List.take_succ_cons, hseen]
    simp

theorem run_start (requests : List Request) :
    (start document source).run requests =
      (replies document (Tree.build document (source 0 document)) requests,
        reached document source (decide (.advance ∈ requests))) := by
  have h := run_reached document source false requests
  simp only [Bool.false_or] at h
  exact h

/-- The first advance completes a parse. -/
theorem complete_start :
    (start document source).complete = Tree.build document (source 0 document) := by
  have h : (start document source).advance =
      (some (Tree.build document (source 0 document)), reached document source true) := rfl
  rw [complete, h]

end Session

namespace Parser

variable {α : Type} [Input α]

theorem start_eq (p : Parser) (x : α) (fragments : List Fragment) (changes : List Change) :
    p.start x fragments changes = Session.start (Input.text x) p.source :=
  rfl

theorem parse_eq (p : Parser) (x : α) :
    p.parse x = Tree.build (Input.text x) (p.source 0 (Input.text x)) :=
  Session.complete_start (Input.text x) p.source

/-- A session of a parser that was started from anything gives the tree of its parse. -/
theorem run_start (p : Parser) (x : α) (fragments : List Fragment) (changes : List Change)
    (requests : List Session.Request) :
    ((p.start x fragments changes).run requests).1 =
      Session.replies (Input.text x) (p.parse x) requests := by
  rw [start_eq, parse_eq, Session.run_start]

theorem parse_ofList (p : Parser) (t : Text) : p.parse (String.ofList t) = p.parse t := by
  rw [parse_eq, parse_eq, Input.text_ofList, Input.text_text]

end Parser

theorem parse_eq_build (t : Text) : parse t = Tree.build t (tokenize t) := by
  rw [parse, Parser.parse_eq, Input.text_text]
  rfl

/-- A session runs its source in the first advance and never again, and gives the tree of that run
in every advance, whatever is asked between them. With a tokenizer that always answers alike it
is the tree of a parse from scratch, for a text as for a string and whatever could be used again. -/
theorem session_replies (document : Text) (source : TokenSource)
    (requests : List Session.Request) :
    let after := (Session.start document source).run requests
    after.1 = Session.replies document (Tree.build document (source 0 document)) requests ∧
      after.2.runs = (if .advance ∈ requests then 1 else 0) ∧
      ∀ (f : Text → List Token) (fragments : List Fragment) (changes : List Change),
        let p := Parser.ofTokenizer f
        let string := String.ofList document
        p.parse document = Tree.build document (f document) ∧
          p.parse string = p.parse document ∧
          ((p.start document fragments changes).run requests).1 =
            Session.replies document (p.parse document) requests ∧
          ((p.start string fragments changes).run requests).1 =
            Session.replies document (p.parse string) requests ∧
          ((Parser.standard.start document fragments changes).run requests).1 =
            Session.replies document (parse document) requests ∧
          ((Parser.standard.start string fragments changes).run requests).1 =
            Session.replies document (parse document) requests := by
  intro after
  have hafter : after = _ := Session.run_start document source requests
  refine ⟨by rw [hafter], ?_, ?_⟩
  · rw [hafter]
    by_cases h : Session.Request.advance ∈ requests
    · simp [Session.reached, h]
    · simp [Session.reached, h]
  · intro f fragments changes p string
    have htext : Input.text document = document := Input.text_text document
    have hstring : Input.text string = document := Input.text_ofList document
    have hstandard : Parser.standard.parse string = parse document :=
      Parser.parse_ofList Parser.standard document
    refine ⟨?_, p.parse_ofList document, ?_, ?_, ?_, ?_⟩
    · rw [Parser.parse_eq, htext]
      rfl
    · rw [Parser.run_start, htext]
    · rw [Parser.run_start, hstring]
    · rw [Parser.run_start, htext, parse]
    · rw [Parser.run_start, hstring, hstandard]

end FlatSyntax
