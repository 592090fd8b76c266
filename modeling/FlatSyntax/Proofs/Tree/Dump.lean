import FlatSyntax.Proofs.Text.Written
import FlatSyntax.Proofs.Tree.Records
import FlatSyntax.Proofs.Tree.Made
import FlatSyntax.Tree.Consumers

namespace FlatSyntax

namespace NodeType

/-- No name holds the sign that is written behind it, or a line break. -/
theorem ne_of_mem_name {t : NodeType} {c : Char} (h : c ∈ t.name.toList) : c ≠ '@' ∧ c ≠ '\n' := by
  have hall : (t.name.toList.all fun c => c != '@' && c != '\n') = true := by
    cases t <;> rfl
  simpa using List.all_eq_true.mp hall c h

theorem find?_name (t : NodeType) :
    all.find? (fun s => s.name.toList = t.name.toList) = some t := by
  cases t <;> rfl

theorem name_injective {s t : NodeType} (h : s.name.toList = t.name.toList) : s = t := by
  rw [← Option.some_inj, ← find?_name s, ← find?_name t, h]

/-- A node by its type and span. -/
def describe (t : NodeType) (r : Span) : Text :=
  t.name.toList ++ '@' :: r.describe

theorem newline_not_mem_describe (t : NodeType) (r : Span) : '\n' ∉ t.describe r := by
  have hname : '\n' ∉ t.name.toList := fun h => (ne_of_mem_name h).2 rfl
  simp [describe, hname, Span.newline_not_mem_describe]

/-- The sign ends the name, and what is no digit ends the span. -/
theorem describe_append_inj {s t : NodeType} {q r : Span} {x y : Text}
    (hx : ∀ c ∈ x.head?, c.isDigit = false) (hy : ∀ c ∈ y.head?, c.isDigit = false)
    (h : s.describe q ++ x = t.describe r ++ y) : s = t ∧ q = r ∧ x = y := by
  have hname (u : NodeType) : ∀ c ∈ u.name.toList, (c != '@') = true := by
    intro c hc
    simpa using (ne_of_mem_name hc).1
  have hsign (z : Text) : ∀ c ∈ ('@' :: z).head?, (c != '@') = false := by simp
  simp only [describe, List.append_assoc, List.cons_append] at h
  obtain ⟨htype, hrest⟩ := Text.append_inj_of_stops (hname s) (hname t) (hsign _) (hsign _) h
  obtain ⟨hspan, hrest⟩ := Span.describe_append_inj hx hy (List.cons.inj hrest).2
  exact ⟨name_injective htype, hspan, hrest⟩

/-- The line of a leaf by its type and span and what is shown for its text. -/
def leafLine (t : NodeType) (r : Span) (shown : Text) : Text :=
  ' ' :: ' ' :: (t.describe r ++ ' ' :: shown)

theorem leafLine_inj {s t : NodeType} {q r : Span} {x y : Text}
    (h : s.leafLine q x = t.leafLine r y) : s = t ∧ q = r ∧ x = y := by
  have hblank (z : Text) : ∀ c ∈ (' ' :: z).head?, c.isDigit = false := by
    simp only [List.head?_cons, Option.mem_some_iff, forall_eq']
    decide
  simp only [leafLine, List.cons_inj_right] at h
  obtain ⟨htype, hspan, hrest⟩ := describe_append_inj (hblank _) (hblank _) h
  exact ⟨htype, hspan, (List.cons.inj hrest).2⟩

end NodeType

namespace Token

/-- The line of a token's leaf in the tree of a document. -/
def line (text : Text) (u : Token) : Text :=
  ' ' :: ' ' :: ((NodeType.ofKind u.kind).describe u.span ++
    ' ' :: Text.quoted ((u.span.slice? text).getD []))

theorem line_eq_leafLine (text : Text) (u : Token) :
    u.line text = (NodeType.ofKind u.kind).leafLine u.span
      (Text.quoted ((u.span.slice? text).getD [])) :=
  rfl

theorem newline_not_mem_line (text : Text) (u : Token) : '\n' ∉ u.line text := by
  simp [line, NodeType.newline_not_mem_describe, Text.newline_not_mem_quoted]

/-- A token can be read off its line, even where the line does not show its text. -/
theorem line_injective {s t : Text} {u v : Token} (h : u.line s = v.line t) : u = v := by
  obtain ⟨htype, hspan, -⟩ := NodeType.leafLine_inj h
  obtain ⟨kind, span⟩ := u
  obtain rfl : kind = v.kind := NodeType.ofKind_injective htype
  obtain rfl : span = v.span := hspan
  rfl

/-- The lines of a document and the tokens below it. -/
def lines (text : Text) (tokens : List Token) : List Text :=
  NodeType.root.describe (.whole text) :: tokens.map (line text)

theorem newline_not_mem_lines {text : Text} {tokens : List Token} :
    ∀ l ∈ lines text tokens, '\n' ∉ l := by
  intro l hl
  rcases List.mem_cons.mp hl with rfl | hl
  · exact NodeType.newline_not_mem_describe _ _
  · obtain ⟨u, -, rfl⟩ := List.mem_map.mp hl
    exact newline_not_mem_line text u

theorem map_line_injective {s t : Text} {us vs : List Token}
    (h : us.map (line s) = vs.map (line t)) : us = vs := by
  induction us generalizing vs with
  | nil => exact (List.map_eq_nil_iff.mp h.symm).symm
  | cons u us ih =>
    cases vs with
    | nil => simp at h
    | cons v vs =>
      obtain ⟨hfirst, hrest⟩ := List.cons.inj h
      rw [line_injective hfirst, ih hrest]

/-- The lines tell all tokens and how far the document reaches. -/
theorem lines_injective {s t : Text} {us vs : List Token} (h : lines s us = lines t vs) :
    us = vs ∧ Span.whole s = .whole t := by
  obtain ⟨hroot, htokens⟩ := List.cons.inj h
  have hend : NodeType.root.describe (.whole s) ++ [] = NodeType.root.describe (.whole t) ++ [] := by
    rw [hroot]
  obtain ⟨-, hspan, -⟩ := NodeType.describe_append_inj (by simp) (by simp) hend
  exact ⟨map_line_injective htokens, hspan⟩

end Token

namespace Tree

/-- The line of a node. Below the root it is indented and shows the text of the node. -/
def line (t : Tree) (i : Nat) : Text :=
  if t.isRoot i then t.describeNode i
  else ' ' :: ' ' :: (t.describeNode i ++ ' ' :: Text.quoted (t.nodeText i))

theorem dumpLines_leaf {t : Tree} {i : Nat} (hleaf : t.hasChildren i = false)
    (hroot : t.isRoot i = false) : t.dumpLines 1 i = [t.line i] := by
  rw [dumpLines, line, hleaf, hroot]
  rfl

theorem dumpLines_root {t : Tree} (h : t.isRoot t.rootIndex = true) :
    t.dumpLines 0 t.rootIndex =
      t.line t.rootIndex :: (t.children t.rootIndex).flatMap (t.dumpLines 1) := by
  rw [dumpLines, line, h, if_pos (by simp), if_pos rfl,
    List.flatMap_subtype (g := t.dumpLines 1) (fun _ _ => rfl), List.unattach_attach]
  rfl

theorem describeNode_of_recordAt {t : Tree} {i size : Nat} {type : NodeType} {span : Span}
    (h : t.recordAt i = .ofSpan type.id span size) :
    t.describeNode i = type.describe span := by
  have htype : t.nodeType i = type := by
    rw [nodeType, h, Record.ofSpan, NodeType.ofId?_id, Option.getD_some]
  simp [describeNode, htype, h, Record.ofSpan, NodeType.describe, Span.describe]

theorem isRoot_of_mem_leaves {t : Tree} {i : Nat} (h : i ∈ t.leaves) : t.isRoot i = false := by
  have := lt_rootIndex_of_mem_leaves h
  simp only [isRoot, rootIndex, beq_eq_false_iff_ne] at this ⊢
  omega

section OfTokens

variable (text : Text) {tokens : List Token}

theorem isRoot_rootIndex_ofTokens :
    (ofTokens text tokens).isRoot (ofTokens text tokens).rootIndex = true := by
  rw [isRoot, rootIndex_ofTokens, recordCount_ofTokens]
  exact beq_self_eq_true _

theorem line_rootIndex_ofTokens :
    (ofTokens text tokens).line (ofTokens text tokens).rootIndex =
      NodeType.root.describe (.whole text) := by
  rw [line, isRoot_rootIndex_ofTokens, if_pos rfl,
    describeNode_of_recordAt (recordAt_rootIndex_ofTokens text tokens)]

theorem line_ofTokens {i : Nat} (h : i < tokens.length) :
    (ofTokens text tokens).line i = tokens[i].line text := by
  have hleaf : i ∈ (ofTokens text tokens).leaves := mem_leaves_ofTokens_iff.mpr h
  have hrecord := recordAt_ofTokens text h
  have htext : (ofTokens text tokens).nodeText i = (tokens[i].span.slice? text).getD [] := by
    rw [nodeText, hrecord, text_ofTokens]
    rfl
  rw [line, isRoot_of_mem_leaves hleaf, describeNode_of_recordAt hrecord, htext]
  rfl

theorem map_line_ofTokens :
    ((ofTokens text tokens).rootIndex :: (ofTokens text tokens).leaves).map
      (ofTokens text tokens).line = Token.lines text tokens := by
  rw [List.map_cons, line_rootIndex_ofTokens, map_leaves_eq_map text fun _ => line_ofTokens text,
    Token.lines]

theorem dump_ofTokens (h : tokens.length < leafLimit) :
    (ofTokens text tokens).dump = (Token.lines text tokens).flatMap fun l => l ++ ['\n'] := by
  have hleaves : (ofTokens text tokens).leaves.flatMap ((ofTokens text tokens).dumpLines 1) =
      (ofTokens text tokens).leaves.map (ofTokens text tokens).line := by
    rw [List.map_eq_flatMap, List.flatMap_def, List.flatMap_def]
    congr 1
    apply List.map_congr_left
    intro i hi
    have hlt := mem_leaves_ofTokens_iff.mp hi
    exact dumpLines_leaf (hasChildren_ofTokens text hlt) (isRoot_of_mem_leaves hi)
  rw [dump, dumpLines_root (isRoot_rootIndex_ofTokens text), children_rootIndex_ofTokens text h,
    hleaves, ← List.map_cons, map_line_ofTokens]

theorem splitOn_dump_ofTokens (h : tokens.length < leafLimit) :
    (ofTokens text tokens).dump.splitOn '\n' = Token.lines text tokens ++ [[]] := by
  rw [dump_ofTokens text h]
  exact Text.splitOn_lines Token.newline_not_mem_lines

/-- The array of a tree holds nothing of the document but its size. -/
theorem words_ofTokens_congr {s t : Text} (h : Span.whole s = .whole t) (tokens : List Token) :
    (ofTokens s tokens).words = (ofTokens t tokens).words := by
  rw [← Array.toList_inj, words_ofTokens, words_ofTokens, h]

end OfTokens

/-- The dump of a tree with fewer than 2^30 - 1 leaves, whatever their spans are, has one line for
each record, first that of the root and then those of the leaves in their order. Two such trees
with one dump have one array. -/
theorem dump_faithful {t : Tree} (ht : t.Made) (hn : t.leaves.length < leafLimit) :
    t.dump.splitOn '\n' = (t.rootIndex :: t.leaves).map t.line ++ [[]] ∧
      (t.rootIndex :: t.leaves).length = t.recordCount ∧
      ∀ s : Tree, s.Made → s.leaves.length < leafLimit → s.dump = t.dump → s.words = t.words := by
  obtain ⟨text, tokens, rfl⟩ := ht.exists_ofTokens
  rw [length_leaves_ofTokens] at hn
  refine ⟨?_, ?_, ?_⟩
  · rw [map_line_ofTokens]
    exact splitOn_dump_ofTokens text hn
  · rw [List.length_cons, length_leaves_ofTokens, recordCount_ofTokens]
  · intro s hs hsn hdump
    obtain ⟨other, others, rfl⟩ := hs.exists_ofTokens
    rw [length_leaves_ofTokens] at hsn
    have hlines := congrArg (List.splitOn '\n') hdump
    rw [splitOn_dump_ofTokens other hsn, splitOn_dump_ofTokens text hn] at hlines
    obtain ⟨rfl, hsize⟩ := Token.lines_injective (List.append_cancel_right hlines)
    exact words_ofTokens_congr hsize others

/-- Two documents, with leaves outside of both and inside a character of the first, that cannot be
told apart by their dumps. -/
theorem dump_of_stray_leaves :
    let add (text : Text) : Builder :=
      ((Builder.start text).leaf .string ⟨1, 9, by decide⟩).token ⟨.ident, 0, 0, by decide⟩
    let s := (add ['é']).finish
    let t := (add ['"', '\n']).finish
    (s.Made ∧ s.leaves.length < leafLimit) ∧ (t.Made ∧ t.leaves.length < leafLimit) ∧
      t.dump.splitOn '\n' = (t.rootIndex :: t.leaves).map t.line ++ [[]] ∧
      s.dump = t.dump ∧ s.words = t.words := by
  intro add s t
  have hmade (text : Text) : (add text).finish.Made := .finish (.token (.leaf (.start text) _ _) _)
  have htree (text : Text) : (add text).finish =
      ofTokens text [⟨.string, 1, 9, by decide⟩, ⟨.ident, 0, 0, by decide⟩] := rfl
  have hfew (text : Text) : (add text).finish.leaves.length < leafLimit := by
    rw [htree, length_leaves_ofTokens]
    decide
  have hdump : s.dump = t.dump := by
    have hs : s = _ := htree ['é']
    have ht : t = _ := htree ['"', '\n']
    rw [hs, ht, dump_ofTokens _ (by decide), dump_ofTokens _ (by decide)]
    rfl
  obtain ⟨hlines, -, hwords⟩ := dump_faithful (hmade ['"', '\n']) (hfew _)
  exact ⟨⟨hmade _, hfew _⟩, ⟨hmade _, hfew _⟩, hlines, hdump, hwords s (hmade _) (hfew _) hdump⟩

end Tree

end FlatSyntax
