import FlatSyntax.Proofs.Tree.Records
import FlatSyntax.Proofs.Tree.Lines

namespace FlatSyntax

/-- Each token has a byte of its own. -/
theorem Scan.length_le {offset : Nat} {text : Text} {ts : List Token} (h : Scan offset text ts) :
    ts.length ≤ text.size := by
  induction h with
  | finish => exact Nat.zero_le _
  | @read offset text gap body rest c t ts hreads _ ih =>
    have hpos := Text.size_pos (List.cons_ne_nil c body)
    rw [hreads.text_eq, Text.size_append, Text.size_append, List.length_cons]
    omega

/-- A row of semicolons is read one by one. -/
theorem scan_semicolons (n offset : Nat) :
    ∃ ts, ts.length = n ∧ Scan offset (List.replicate n ';') ts := by
  induction n generalizing offset with
  | zero => exact ⟨[], rfl, .finish .nil⟩
  | succ n ih =>
    obtain ⟨ts, hlength, hscan⟩ := ih (offset + 1)
    have hopens : Lexer.trivia (';' :: List.replicate n ';') = [] :=
      Lexer.trivia_cons_eq_nil_iff.mpr ⟨by decide, by simp⟩
    have hreads : Reads offset (List.replicate (n + 1) ';') [] ';' [] (List.replicate n ';')
        ⟨.semicolon, offset, offset + 1, Nat.le_succ offset⟩ :=
      ⟨List.replicate_succ, .nil, hopens, rfl, rfl, rfl⟩
    exact ⟨_ :: ts, congrArg Nat.succ hlength, .read hreads hscan⟩

theorem length_tokenize_semicolons (n : Nat) : (tokenize (List.replicate n ';')).length = n := by
  obtain ⟨ts, hlength, hscan⟩ := scan_semicolons n 0
  have htokens : tokenize (List.replicate n ';') = ts := hscan.tokens_eq
  rw [htokens, hlength]

theorem size_semicolons (n : Nat) : Text.size (List.replicate n ';') = n := by
  induction n with
  | zero => rfl
  | succ n ih =>
    have hone : ';'.utf8Size = 1 := rfl
    rw [List.replicate_succ, Text.size, ih, hone, Nat.add_comm]

namespace Tree

section OfTokens

variable (text : Text) (tokens : List Token)

theorem size_rootIndex_ofTokens :
    ((ofTokens text tokens).recordAt (ofTokens text tokens).rootIndex).size =
      (ofTokens text tokens).words.size % UInt32.size := by
  rw [recordAt_rootIndex_ofTokens, size_words_ofTokens, Nat.mul_succ, Nat.mul_comm Record.unit]
  rfl

theorem size_words_fits_iff :
    (ofTokens text tokens).words.size % UInt32.size = (ofTokens text tokens).words.size ↔
      tokens.length < leafLimit := by
  rw [size_words_ofTokens, leafLimit_eq]
  simp only [Record.unit, UInt32.size]
  omega

theorem children_rootIndex_eq_leaves_iff :
    (ofTokens text tokens).children (ofTokens text tokens).rootIndex =
      (ofTokens text tokens).leaves ↔ tokens.length < leafLimit := by
  constructor
  · intro hall
    have hlength := congrArg List.length hall
    rw [children_rootIndex_eq_drop, List.length_drop, leaves_ofTokens, List.length_range,
      leafLimit_eq] at hlength
    rw [leafLimit_eq]
    omega
  · exact children_rootIndex_ofTokens text

end OfTokens

end Tree

/-- The root's size is that of the array, less all that a word cannot hold, and its children are
the last leaves, as many as that size counts. It has all leaves below it if and only if there are
fewer than 2^30 - 1 of them, as in any document with fewer bytes than that. -/
theorem parse_root_size (text : Text) :
    let tree := parse text
    let root := tree.recordAt tree.rootIndex
    let n := (tokenize text).length
    n ≤ text.size ∧ tree.leaves.length = n ∧ tree.words.size = Record.unit * (n + 1) ∧
      root.size = tree.words.size % UInt32.size ∧
      (root.size = tree.words.size ↔ n < Tree.leafLimit) ∧
      tree.children tree.rootIndex = tree.leaves.drop (n + 1 - root.subtreeLen) ∧
      (tree.children tree.rootIndex = tree.leaves ↔ n < Tree.leafLimit) := by
  rw [parse_eq_ofTokens]
  intro tree root n
  have hsize : root.size = tree.words.size % UInt32.size := Tree.size_rootIndex_ofTokens text _
  have hlen : root.subtreeLen = (n + 1) % (Tree.leafLimit + 1) :=
    Tree.subtreeLen_rootIndex_ofTokens text
  refine ⟨(scan_tokenize text).length_le, ?_, Tree.size_words_ofTokens text _, hsize, ?_, ?_,
    Tree.children_rootIndex_eq_leaves_iff text _⟩
  · rw [Tree.leaves_ofTokens, List.length_range]
  · rw [hsize]
    exact Tree.size_words_fits_iff text _
  · rw [hlen]
    exact Tree.children_rootIndex_eq_drop text

/-- A document whose root seems to be empty. -/
theorem semicolons_empty_root :
    let text := List.replicate Tree.leafLimit ';'
    let tree := parse text
    Text.size text < UInt32.size ∧ tree.leaves.length = Tree.leafLimit ∧
      tree.words.size = UInt32.size ∧ (tree.recordAt tree.rootIndex).size = 0 ∧
      tree.children tree.rootIndex = [] := by
  obtain ⟨n, hn⟩ : ∃ n, n = Tree.leafLimit := ⟨_, rfl⟩
  rw [← hn]
  intro text tree
  have htree : tree = Tree.ofTokens text (tokenize text) := parse_eq_ofTokens text
  have htokens : (tokenize text).length = n := length_tokenize_semicolons n
  have hwords : (Tree.ofTokens text (tokenize text)).words.size = UInt32.size := by
    rw [Tree.size_words_ofTokens, htokens, hn]
    rfl
  rw [htree]
  refine ⟨?_, ?_, hwords, ?_, ?_⟩
  · rw [size_semicolons, hn, Tree.leafLimit_eq]
    decide
  · rw [Tree.leaves_ofTokens, List.length_range, htokens]
  · rw [Tree.size_rootIndex_ofTokens, hwords, Nat.mod_self]
  · rw [Tree.children_rootIndex_eq_drop, htokens, hn, Nat.mod_self, Nat.sub_zero,
      Tree.leaves_ofTokens, htokens]
    apply List.drop_eq_nil_of_le
    rw [List.length_range, hn]
    exact Nat.le_succ _

end FlatSyntax
