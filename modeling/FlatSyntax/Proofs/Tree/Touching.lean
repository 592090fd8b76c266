import FlatSyntax.Proofs.Tree.Policy
import FlatSyntax.Proofs.Tree.Row
import FlatSyntax.Tree.Touching

namespace FlatSyntax

namespace Touching

variable {α : Type}

/-- The leaves that an answer names. -/
def toList : Touching α → List α
  | none => []
  | single x => [x]
  | between x y => [x, y]

/-- The answer for a row of leaves. It names no more than the first two. -/
def ofList : List α → Touching α
  | [] => none
  | [x] => single x
  | x :: y :: _ => between x y

theorem toList_ofList (xs : List α) : (ofList xs).toList = xs.take 2 := by
  cases xs with
  | nil => rfl
  | cons x xs => cases xs <;> rfl

end Touching

namespace Tree

theorem touching_of_not_touches {t : Tree} {i o : Nat} (h : (t.recordAt i).touches o = false) :
    t.touching i o = .none := by
  rw [touching, h]
  rfl

theorem touching_of_leaf {t : Tree} {i o : Nat} (h : (t.recordAt i).touches o = true)
    (hleaf : t.hasChildren i = false) : t.touching i o = .single i := by
  rw [touching, h, hleaf]
  rfl

/-- Where all children are leaves, the search ends at the first two that the offset touches. -/
theorem touching_of_children {t : Tree} {i o : Nat} (h : (t.recordAt i).touches o = true)
    (hnode : t.hasChildren i = true) (hflat : ∀ c ∈ t.children i, t.hasChildren c = false) :
    t.touching i o = .ofList (t.touchedChildren i o) := by
  have hsingle : ∀ c ∈ t.touchedChildren i o, t.touching c o = .single c := by
    intro c hc
    obtain ⟨hmem, htouch⟩ := List.mem_filter.mp hc
    exact touching_of_leaf htouch (hflat c hmem)
  rw [touching, h, hnode]
  simp only [Bool.not_true, Bool.false_eq_true, if_false]
  split
  · rename_i hnone
    rw [hnone]
    rfl
  · rename_i c hone
    rw [hone, hsingle c (by simp [hone])]
    rfl
  · rename_i l r others htwo
    rw [htwo, hsingle l (by simp [htwo]), hsingle r (by simp [htwo])]
    rfl

section OfTokens

variable {text : Text} {tokens : List Token} {o : Nat}

theorem touches_rootIndex_ofTokens :
    ((ofTokens text tokens).recordAt (ofTokens text tokens).rootIndex).touches o = true ↔
      o ≤ text.size := by
  rw [recordAt_rootIndex_ofTokens, Record.touches_iff]
  exact and_iff_right (Nat.zero_le o)

/-- Whatever the root's size says, there are only leaves below it. -/
theorem mem_leaves_of_mem_children_ofTokens {c : Nat}
    (h : c ∈ (ofTokens text tokens).children (ofTokens text tokens).rootIndex) :
    c ∈ (ofTokens text tokens).leaves := by
  have hlt := lt_of_mem_children h
  rw [rootIndex_ofTokens] at hlt
  exact mem_leaves_ofTokens_iff.mpr hlt

theorem touching_past_end (h : text.size < o) :
    (ofTokens text tokens).touching (ofTokens text tokens).rootIndex o = .none := by
  apply touching_of_not_touches
  rw [Bool.eq_false_iff, ne_eq, touches_rootIndex_ofTokens]
  exact Nat.not_le.mpr h

theorem touching_of_bare_root (ho : o ≤ text.size) (h : tokens.length % (leafLimit + 1) = 0) :
    (ofTokens text tokens).touching (ofTokens text tokens).rootIndex o =
      .single (ofTokens text tokens).rootIndex :=
  touching_of_leaf (touches_rootIndex_ofTokens.mpr ho) ((hasChildren_rootIndex_ofTokens text).mpr h)

theorem touching_of_root (ho : o ≤ text.size) (h : tokens.length % (leafLimit + 1) ≠ 0) :
    (ofTokens text tokens).touching (ofTokens text tokens).rootIndex o =
      .ofList ((ofTokens text tokens).touchedChildren (ofTokens text tokens).rootIndex o) := by
  apply touching_of_children (touches_rootIndex_ofTokens.mpr ho)
  · rw [← Bool.not_eq_false, hasChildren_rootIndex_ofTokens]
    exact h
  · intro c hc
    have hleaf := mem_leaves_of_mem_children_ofTokens hc
    exact hasChildren_ofTokens text (mem_leaves_ofTokens_iff.mp hleaf)

theorem mem_leaves_of_mem_touching (h : tokens.length % (leafLimit + 1) ≠ 0) {i : Nat}
    (hi : i ∈ ((ofTokens text tokens).touching (ofTokens text tokens).rootIndex o).toList) :
    i ∈ (ofTokens text tokens).leaves := by
  by_cases ho : o ≤ text.size
  · rw [touching_of_root ho h, Touching.toList_ofList] at hi
    exact mem_leaves_of_mem_children_ofTokens (List.mem_filter.mp (List.mem_of_mem_take hi)).1
  · rw [touching_past_end (Nat.not_le.mp ho)] at hi
    simp [Touching.toList] at hi

end OfTokens

/-- What is found around an offset is among the leaves, unless the root is found. That happens where
the size of the root is that of a leaf, because there are no leaves, or so many that the size has
wrapped around to it. -/
theorem build_touching_mem_leaves (text : Text) (tokens : List Token) (o : Nat) :
    let t := build text tokens
    let found := t.touching t.rootIndex o
    ((∀ i ∈ found.toList, i ∈ t.leaves) ↔
        tokens.length % (leafLimit + 1) ≠ 0 ∨ text.size < o) ∧
      (tokens.length % (leafLimit + 1) = 0 → o ≤ text.size → found = .single t.rootIndex) ∧
      (t.leaves = [] → (found = .none ↔ text.size < o)) := by
  intro t found
  have hlength := Token.length_normalize text tokens
  have hpast : text.size < o → found = .none := touching_past_end
  have hbare : tokens.length % (leafLimit + 1) = 0 → o ≤ text.size →
      found = .single t.rootIndex := by
    intro h ho
    rw [← hlength] at h
    exact touching_of_bare_root ho h
  refine ⟨⟨?_, ?_⟩, hbare, ?_⟩
  · intro h
    apply Classical.byContradiction
    intro hno
    rw [not_or, Classical.not_not, Nat.not_lt] at hno
    rw [hbare hno.1 hno.2] at h
    exact Nat.lt_irrefl _ (lt_rootIndex_of_mem_leaves (h t.rootIndex List.mem_cons_self))
  · intro h i hi
    cases h with
    | inl hsize =>
      rw [← hlength] at hsize
      exact mem_leaves_of_mem_touching hsize hi
    | inr ho =>
      rw [hpast ho] at hi
      simp [Touching.toList] at hi
  · intro hnil
    have hzero : tokens.length % (leafLimit + 1) = 0 := by
      have hnone : t.leaves.length = 0 := by rw [hnil, List.length_nil]
      rw [← length_leaves_build text tokens, hnone, Nat.zero_mod]
    constructor
    · intro hfound
      apply Nat.not_le.mp
      intro ho
      rw [hbare hzero ho] at hfound
      simp at hfound
    · exact hpast

/-- In a blank document there is no leaf to find, and the root is found. -/
theorem blank_document_touches_root :
    let t := build [' '] []
    t.leaves = [] ∧ t.touching t.rootIndex 0 = .single t.rootIndex :=
  ⟨by decide, touching_of_bare_root (by decide) (by decide)⟩

end Tree

end FlatSyntax
