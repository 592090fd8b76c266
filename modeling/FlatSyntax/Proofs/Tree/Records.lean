import FlatSyntax.Tree.Build

namespace FlatSyntax

namespace Record

theorem length_ofWords (ws : List Nat) : (ofWords ws).length = ws.length / unit := by
  fun_induction ofWords ws with
  | case1 a b c d ws ih =>
    simp only [List.length_cons, ih, unit]
    omega
  | case2 ws h =>
    rcases ws with _ | ⟨a, _ | ⟨b, _ | ⟨c, _ | ⟨d, ws⟩⟩⟩⟩
    · rfl
    · simp [unit]
    · simp [unit]
    · simp [unit]
    · exact absurd rfl (h a b c d ws)

theorem length_flatMap_words (rs : List Record) : (rs.flatMap words).length = unit * rs.length := by
  induction rs with
  | nil => rfl
  | cons r rs ih =>
    rw [List.flatMap_cons, List.length_append, ih, List.length_cons, Nat.mul_succ, Nat.add_comm]
    rfl

/-- The record at an index is in the four words at four times the index. -/
theorem getElem?_ofWords {ws : List Nat} {i : Nat} (h : i < (ofWords ws).length) :
    (ofWords ws)[i]? = some ⟨ws[unit * i]?.getD 0, ws[unit * i + 1]?.getD 0,
      ws[unit * i + 2]?.getD 0, ws[unit * i + 3]?.getD 0⟩ := by
  fun_induction ofWords ws generalizing i with
  | case1 a b c d ws ih =>
    cases i with
    | zero => rfl
    | succ i =>
      have hi : unit * (i + 1) = unit * i + 4 := by simp only [unit]; omega
      rw [List.getElem?_cons_succ, ih (by simpa using h), hi]
      rfl
  | case2 => simp at h

end Record

namespace Tree

theorem length_records (t : Tree) : t.records.length = t.recordCount := by
  rw [records, Record.length_ofWords, recordCount, Array.length_toList]

/-- Reading all records from the front finds what reading one record at its place finds. -/
theorem getElem?_records {t : Tree} {i : Nat} (h : i < t.recordCount) :
    t.records[i]? = some (t.recordAt i) := by
  rw [records, Record.getElem?_ofWords (by rw [← length_records] at h; exact h)]
  simp [recordAt, Array.getD_eq_getD_getElem?]

theorem lt_rootIndex_of_mem_leaves {t : Tree} {i : Nat} (h : i ∈ t.leaves) : i < t.rootIndex :=
  List.mem_range.mp (List.mem_filter.mp h).1

section OfTokens

variable (text : Text) (tokens : List Token)

theorem recordCount_ofTokens : (ofTokens text tokens).recordCount = tokens.length + 1 := by
  rw [← length_records, records_ofTokens]
  simp

/-- The array has no words but those of the records. -/
theorem size_words_ofTokens :
    (ofTokens text tokens).words.size = Record.unit * (tokens.length + 1) := by
  rw [← Array.length_toList, words_ofTokens, Record.length_flatMap_words]
  simp

theorem rootIndex_ofTokens : (ofTokens text tokens).rootIndex = tokens.length := by
  rw [rootIndex, recordCount_ofTokens, Nat.add_sub_cancel]

theorem recordAt_rootIndex_ofTokens :
    (ofTokens text tokens).recordAt (ofTokens text tokens).rootIndex =
      .ofSpan NodeType.root.id (.whole text)
        ((tokens.length * Record.unit + Record.unit) % UInt32.size) := by
  have hroot : tokens.length < (ofTokens text tokens).recordCount := by
    rw [recordCount_ofTokens]
    omega
  have hread := getElem?_records hroot
  rw [records_ofTokens, ← List.length_map (f := leafRecord), List.getElem?_concat_length,
    List.length_map] at hread
  rw [rootIndex_ofTokens]
  exact (Option.some.inj hread).symm

variable {tokens}

theorem recordAt_ofTokens {i : Nat} (h : i < tokens.length) :
    (ofTokens text tokens).recordAt i = leafRecord tokens[i] := by
  have hi : i < (ofTokens text tokens).recordCount := by
    rw [recordCount_ofTokens]
    omega
  have hread := getElem?_records hi
  rw [records_ofTokens, List.getElem?_append_left (by simpa using h)] at hread
  simpa [h] using hread.symm

theorem hasChildren_ofTokens {i : Nat} (h : i < tokens.length) :
    (ofTokens text tokens).hasChildren i = false := by
  rw [hasChildren, recordAt_ofTokens text h]
  rfl

variable (tokens)

theorem leaves_ofTokens : (ofTokens text tokens).leaves = List.range tokens.length := by
  rw [leaves, rootIndex_ofTokens]
  apply List.filter_eq_self.mpr
  intro i hi
  rw [hasChildren_ofTokens text (List.mem_range.mp hi)]
  rfl

theorem length_leaves_ofTokens : (ofTokens text tokens).leaves.length = tokens.length := by
  rw [leaves_ofTokens, List.length_range]

theorem mem_leaves_ofTokens_iff {text : Text} {tokens : List Token} {i : Nat} :
    i ∈ (ofTokens text tokens).leaves ↔ i < tokens.length := by
  rw [leaves_ofTokens, List.mem_range]

variable {tokens} in
/-- The leaves stand in the order of the tokens. -/
theorem map_leaves_eq_map {α : Type} {f : Nat → α} {g : Token → α}
    (h : ∀ (i : Nat) (hi : i < tokens.length), f i = g tokens[i]) :
    (ofTokens text tokens).leaves.map f = tokens.map g := by
  rw [leaves_ofTokens]
  apply List.ext_getElem
  · simp
  · intro i _ hi
    have hlt : i < tokens.length := by simpa using hi
    simp [h i hlt]

/-- What can be read off a leaf's record can be read off its token. -/
theorem map_leaves_ofTokens {α : Type} (f : Record → α) :
    (ofTokens text tokens).leaves.map (fun i => f ((ofTokens text tokens).recordAt i)) =
      tokens.map fun t => f (leafRecord t) := by
  apply map_leaves_eq_map
  intro i hi
  rw [recordAt_ofTokens text hi]

theorem map_spanAt_leaves_ofTokens :
    (ofTokens text tokens).leaves.map (ofTokens text tokens).spanAt =
      (tokens.map Token.span).map some := by
  have h := map_leaves_ofTokens text tokens Record.span?
  rw [List.map_map]
  refine h.trans (List.map_congr_left ?_)
  intro t _
  exact Record.span?_ofSpan _ _ _

theorem map_nodeType_leaves_ofTokens :
    (ofTokens text tokens).leaves.map (ofTokens text tokens).nodeType =
      tokens.map fun t => NodeType.ofKind t.kind := by
  have h := map_leaves_ofTokens text tokens fun r => (NodeType.ofId? r.typeId).getD .unknown
  refine h.trans (List.map_congr_left ?_)
  intro t _
  have hid := NodeType.ofId?_id (NodeType.ofKind t.kind)
  simp [leafRecord, Record.leaf, Record.ofSpan, hid]

theorem map_nodeText_leaves_ofTokens :
    (ofTokens text tokens).leaves.map (ofTokens text tokens).nodeText =
      tokens.map fun t => (t.span.slice? text).getD [] := by
  refine Eq.trans (List.map_congr_left ?_)
    (map_leaves_ofTokens text tokens fun r => (text.slice? r.start r.stop).getD [])
  intro i _
  rw [nodeText, text_ofTokens]

end OfTokens

/-- As many leaves as this, which is 2^30 - 1, are too many: no word of 32 bits holds the size of
the root above them. -/
def leafLimit : Nat :=
  UInt32.size / Record.unit - 1

theorem leafLimit_eq : leafLimit = 1073741823 := rfl

/-- Walking back over nodes without children finds all of them. -/
theorem childrenBetween_eq_range' {t : Tree} {first n : Nat}
    (h : ∀ k < n, (t.recordAt (first + k)).subtreeLen = 1) (later : List Nat) :
    t.childrenBetween first n 0 later = List.range' first n ++ later := by
  induction n generalizing later with
  | zero => rfl
  | succ n ih =>
    have hlast : (t.recordAt (first + n)).subtreeLen - 1 = 0 := by
      rw [h n (Nat.lt_succ_self n)]
    have hstep : t.childrenBetween first (n + 1) 0 later =
        t.childrenBetween first n 0 ((first + n) :: later) := by
      rw [childrenBetween, hlast]
    rw [hstep, ih (fun k hk => h k (Nat.lt_succ_of_lt hk)), List.range'_1_concat,
      List.append_assoc, List.singleton_append]

section Children

variable (text : Text) {tokens : List Token}

theorem subtreeLen_ofTokens {i : Nat} (h : i < tokens.length) :
    ((ofTokens text tokens).recordAt i).subtreeLen = 1 := by
  have hsize : (leafRecord tokens[i]).size = Record.unit := rfl
  rw [recordAt_ofTokens text h, Record.subtreeLen, hsize]
  exact Nat.div_self (by decide)

/-- The size of the root counts all records, but starts again at zero where it does not fit. -/
theorem subtreeLen_rootIndex_ofTokens :
    ((ofTokens text tokens).recordAt (ofTokens text tokens).rootIndex).subtreeLen =
      (tokens.length + 1) % (leafLimit + 1) := by
  rw [leafLimit_eq, recordAt_rootIndex_ofTokens]
  simp only [Record.subtreeLen, Record.ofSpan, Record.unit, UInt32.size]
  omega

/-- The children of the root are the last leaves, as many as its size counts. -/
theorem children_rootIndex_eq_drop :
    (ofTokens text tokens).children (ofTokens text tokens).rootIndex =
      (ofTokens text tokens).leaves.drop
        (tokens.length + 1 - (tokens.length + 1) % (leafLimit + 1)) := by
  obtain ⟨first, hfirst⟩ :
      ∃ first, first = tokens.length + 1 - (tokens.length + 1) % (leafLimit + 1) := ⟨_, rfl⟩
  have hflat : ∀ k < tokens.length - first,
      ((ofTokens text tokens).recordAt (first + k)).subtreeLen = 1 := by
    intro k hk
    exact subtreeLen_ofTokens text (by omega)
  rw [children, subtreeLen_rootIndex_ofTokens, rootIndex_ofTokens, ← hfirst,
    childrenBetween_eq_range' hflat, List.append_nil, leaves_ofTokens, List.range_eq_range',
    List.drop_range']
  simp

theorem children_rootIndex_ofTokens (h : tokens.length < leafLimit) :
    (ofTokens text tokens).children (ofTokens text tokens).rootIndex =
      (ofTokens text tokens).leaves := by
  rw [children_rootIndex_eq_drop, Nat.mod_eq_of_lt (Nat.succ_lt_succ h), Nat.sub_self,
    List.drop_zero]

/-- The root counts as a leaf where its size has wrapped around to that of a leaf, or where it has
no children at all. -/
theorem hasChildren_rootIndex_ofTokens :
    (ofTokens text tokens).hasChildren (ofTokens text tokens).rootIndex = false ↔
      tokens.length % (leafLimit + 1) = 0 := by
  rw [leafLimit_eq, hasChildren, recordAt_rootIndex_ofTokens]
  simp only [Record.isLeaf, Record.ofSpan, Record.unit, UInt32.size, Bool.not_eq_false', beq_iff_eq]
  omega

end Children

end Tree

end FlatSyntax
