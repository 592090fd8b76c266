import FlatSyntax.Proofs.Tree.Records
import FlatSyntax.Proofs.Tree.Made

namespace FlatSyntax.Tree

/-- The first node of the subtree of a node. -/
def firstBelow (t : Tree) (i : Nat) : Nat :=
  i + 1 - (t.recordAt i).subtreeLen

/-- Each node stands behind the nodes below it, and its size counts them: a subtree has its own node
and no more than there are up to there, it holds the subtrees of its nodes, and the root's holds
all. -/
structure PostOrder (t : Tree) : Prop where
  counted : ∀ i < t.recordCount,
    1 ≤ (t.recordAt i).subtreeLen ∧ (t.recordAt i).subtreeLen ≤ i + 1
  nested : ∀ i < t.recordCount, ∀ j < i, t.firstBelow i ≤ j → t.firstBelow i ≤ t.firstBelow j
  whole : t.firstBelow t.rootIndex = 0

/-- A node is in the subtree of another one and in none of a node between them. -/
structure IsChild (t : Tree) (c m : Nat) : Prop where
  before : c < m
  below : t.firstBelow m ≤ c
  direct : ∀ k, c < k → k < m → c < t.firstBelow k

namespace PostOrder

variable {t : Tree}

/-- The walk back from a node takes the nodes that are in no subtree of one taken before. -/
theorem mem_childrenBetween_iff (h : t.PostOrder) {first n skip stop c : Nat} {later : List Nat}
    (hcursor : first + n = stop + skip) (hfirst : first ≤ stop) (hn : first + n ≤ t.recordCount)
    (hinside : ∀ k, first ≤ k → k < first + n → first ≤ t.firstBelow k) :
    c ∈ t.childrenBetween first n skip later ↔
      (first ≤ c ∧ c < stop ∧ ∀ k, c < k → k < stop → c < t.firstBelow k) ∨ c ∈ later := by
  induction n generalizing skip stop later with
  | zero =>
    rw [childrenBetween]
    constructor
    · exact Or.inr
    · intro hc
      rcases hc with ⟨hge, hlt, -⟩ | hc
      · omega
      · exact hc
  | succ n ih =>
    have hinside' : ∀ k, first ≤ k → k < first + n → first ≤ t.firstBelow k := by
      intro k hk hkn
      exact hinside k hk (by omega)
    cases skip with
    | succ skip =>
      rw [childrenBetween]
      exact ih (by omega) hfirst (by omega) hinside'
    | zero =>
      obtain ⟨hpos, hfits⟩ := h.counted (first + n) (by omega)
      have hchild := hinside (first + n) (by omega) (by omega)
      have hjump : first + n =
          t.firstBelow (first + n) + ((t.recordAt (first + n)).subtreeLen - 1) := by
        rw [firstBelow] at hchild ⊢
        omega
      rw [childrenBetween, ih hjump hchild (by omega) hinside', List.mem_cons]
      constructor
      · intro hc
        rcases hc with ⟨hge, hlt, hdirect⟩ | rfl | hc
        · refine Or.inl ⟨hge, by omega, ?_⟩
          intro k hck hk
          by_cases hbefore : k < t.firstBelow (first + n)
          · exact hdirect k hck hbefore
          · by_cases hlast : k = first + n
            · rw [hlast]
              exact hlt
            · have := h.nested (first + n) (by omega) k (by omega) (by omega)
              omega
        · exact Or.inl ⟨by omega, by omega, fun k hck hk => by omega⟩
        · exact Or.inr hc
      · intro hc
        rcases hc with ⟨hge, hlt, hdirect⟩ | hc
        · by_cases hlast : c = first + n
          · exact Or.inr (Or.inl hlast)
          · have hbefore := hdirect (first + n) (by omega) (by omega)
            exact Or.inl ⟨hge, hbefore, fun k hck hk => hdirect k hck (by omega)⟩
        · exact Or.inr (Or.inr hc)

theorem mem_children_iff (h : t.PostOrder) {c m : Nat} (hm : m < t.recordCount) :
    c ∈ t.children m ↔ t.IsChild c m := by
  have hpos := (h.counted m hm).1
  have hfirst : t.firstBelow m ≤ m := by
    rw [firstBelow]
    omega
  have hinside : ∀ k, t.firstBelow m ≤ k → k < t.firstBelow m + (m - t.firstBelow m) →
      t.firstBelow m ≤ t.firstBelow k := by
    intro k hk hkm
    exact h.nested m hm k (by omega) hk
  have hwalk : c ∈ t.children m ↔
      c ∈ t.childrenBetween (t.firstBelow m) (m - t.firstBelow m) 0 [] := Iff.rfl
  have hcursor : t.firstBelow m + (m - t.firstBelow m) = m + 0 := by omega
  rw [hwalk, h.mem_childrenBetween_iff hcursor hfirst (by omega) hinside]
  constructor
  · intro hc
    obtain ⟨hbelow, hbefore, hdirect⟩ := hc.resolve_right List.not_mem_nil
    exact ⟨hbefore, hbelow, hdirect⟩
  · intro hc
    exact Or.inl ⟨hc.below, hc.before, hc.direct⟩

end PostOrder

theorem parent_eq_some_iff {t : Tree} {c m : Nat} :
    t.parent c = some m ↔ m < t.recordCount ∧ t.IsChild c m := by
  rw [parent, List.find?_range'_eq_some, List.mem_range'_1, decide_eq_true_eq]
  constructor
  · intro h
    obtain ⟨hbelow, hrange, hdirect⟩ := h
    refine ⟨by omega, by omega, hbelow, ?_⟩
    intro k hck hk
    have hnot := hdirect k hck hk
    rw [Bool.not_eq_true', decide_eq_false_iff_not, Nat.not_le] at hnot
    exact hnot
  · intro h
    obtain ⟨hm, hbefore, hbelow, hdirect⟩ := h
    refine ⟨hbelow, by omega, ?_⟩
    intro k hck hk
    rw [Bool.not_eq_true', decide_eq_false_iff_not, Nat.not_le]
    exact hdirect k hck hk

namespace PostOrder

variable {t : Tree}

theorem mem_children_iff_parent (h : t.PostOrder) {c m : Nat} (hm : m < t.recordCount) :
    c ∈ t.children m ↔ t.parent c = some m := by
  rw [h.mem_children_iff hm, parent_eq_some_iff, and_iff_right hm]

theorem parent_eq_none_iff (h : t.PostOrder) {i : Nat} (hi : i < t.recordCount) :
    t.parent i = none ↔ i = t.rootIndex := by
  rw [parent, List.find?_range'_eq_none]
  constructor
  · intro hnone
    apply Classical.byContradiction
    intro hne
    rw [rootIndex] at hne
    have hroot := hnone t.rootIndex (by rw [rootIndex]; omega) (by rw [rootIndex]; omega)
    have hwhole := h.whole
    rw [firstBelow] at hwhole
    simp [hwhole] at hroot
  · intro hroot k hik hk
    rw [rootIndex] at hroot
    omega

end PostOrder

section OfTokens

variable (text : Text) {tokens : List Token}

/-- A node is a leaf or the root. -/
theorem firstBelow_ofTokens {i : Nat} (hi : i < tokens.length) :
    (ofTokens text tokens).firstBelow i = i := by
  rw [firstBelow, subtreeLen_ofTokens text hi, Nat.add_sub_cancel]

theorem subtreeLen_root_ofTokens (h : tokens.length < leafLimit) :
    ((ofTokens text tokens).recordAt tokens.length).subtreeLen = tokens.length + 1 := by
  have hlen : ((ofTokens text tokens).recordAt (ofTokens text tokens).rootIndex).subtreeLen = _ :=
    subtreeLen_rootIndex_ofTokens text
  rw [rootIndex_ofTokens, Nat.mod_eq_of_lt (Nat.succ_lt_succ h)] at hlen
  exact hlen

/-- The sizes of leaves and a root above them, written one after the other, are those of a tree in
post-order as long as they fit. -/
theorem postOrder_ofTokens (h : tokens.length < leafLimit) : (ofTokens text tokens).PostOrder := by
  have hroot := subtreeLen_root_ofTokens text h
  have hwhole : (ofTokens text tokens).firstBelow tokens.length = 0 := by
    rw [firstBelow, hroot, Nat.sub_self]
  constructor
  case counted =>
    intro i hi
    rw [recordCount_ofTokens] at hi
    by_cases hleaf : i < tokens.length
    · rw [subtreeLen_ofTokens text hleaf]
      omega
    · obtain rfl : i = tokens.length := by omega
      rw [hroot]
      omega
  case nested =>
    intro i hi j hj hij
    rw [recordCount_ofTokens] at hi
    by_cases hleaf : i < tokens.length
    · rw [firstBelow_ofTokens text hleaf] at hij
      omega
    · obtain rfl : i = tokens.length := by omega
      rw [hwhole]
      exact Nat.zero_le _
  case whole =>
    rw [rootIndex_ofTokens]
    exact hwhole

end OfTokens

/-- In the tree of any run of a builder the ways down, up and across agree: the leaves are below the
root in the order in which they were added, a node is among the children of another one exactly if
that one is its parent, and only the root has none. No subtree counts more nodes than there are
up to its own, and none counts nothing, so that no step of a walk leaves the array or stands still. -/
theorem run_navigation (text : Text) {calls : List Builder.Call} (h : calls.length < leafLimit) :
    let t := Builder.run text calls
    t.rootIndex = calls.length ∧ t.recordCount = calls.length + 1 ∧
      t.children t.rootIndex = List.range calls.length ∧ t.leaves = List.range calls.length ∧
      (∀ i (hi : i < calls.length), t.recordAt i = leafRecord calls[i].added) ∧
      (∀ c < t.recordCount, ∀ m < t.recordCount, c ∈ t.children m ↔ t.parent c = some m) ∧
      (∀ i < t.recordCount, t.parent i = none ↔ i = t.rootIndex) ∧
      ∀ i < t.recordCount, 1 ≤ (t.recordAt i).subtreeLen ∧ (t.recordAt i).subtreeLen ≤ i + 1 := by
  rw [Builder.run_eq_ofTokens]
  intro t
  have hlength : (calls.map Builder.Call.added).length = calls.length := List.length_map _
  have hfew : (calls.map Builder.Call.added).length < leafLimit := by rw [hlength]; exact h
  have hpost : t.PostOrder := postOrder_ofTokens text hfew
  have hleaves : t.leaves = List.range calls.length := by
    rw [← hlength]
    exact leaves_ofTokens text _
  refine ⟨?_, ?_, ?_, hleaves, ?_, fun c _ m hm => hpost.mem_children_iff_parent hm,
    fun i hi => hpost.parent_eq_none_iff hi, hpost.counted⟩
  · rw [← hlength]
    exact rootIndex_ofTokens text _
  · rw [← hlength]
    exact recordCount_ofTokens text _
  · rw [← hleaves]
    exact children_rootIndex_ofTokens text hfew
  · intro i hi
    have hi' : i < (calls.map Builder.Call.added).length := by rw [hlength]; exact hi
    have hrecord := recordAt_ofTokens text hi'
    rw [List.getElem_map] at hrecord
    exact hrecord

/-- Leaves outside of the document and before one another hang below the root like all others. -/
theorem run_navigation_of_stray_leaves :
    let t := Builder.run ['é']
      [.leaf .string ⟨1, 9, by decide⟩, .token ⟨.ident, 0, 0, by decide⟩]
    2 < leafLimit ∧ t.children 2 = [0, 1] ∧ t.parent 1 = some 2 ∧ t.parent 2 = none := by
  intro t
  have hfew : [Builder.Call.leaf .string ⟨1, 9, by decide⟩,
      .token ⟨.ident, 0, 0, by decide⟩].length < leafLimit := by decide
  obtain ⟨-, -, hchildren, -, -, hparent, hnone, -⟩ := run_navigation ['é'] hfew
  have hbelow : t.children 2 = [0, 1] := hchildren
  have hup : 1 ∈ t.children 2 := by simp [hbelow]
  have hparent : t.parent 1 = some 2 := (hparent 1 (by decide) 2 (by decide)).mp hup
  exact ⟨by decide, hbelow, hparent, (hnone 2 (by decide)).mpr rfl⟩

end FlatSyntax.Tree
