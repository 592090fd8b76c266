import FlatSyntax.NodeType

namespace FlatSyntax

/-- A node as four words: the id of its type, its span, and the words of its subtree. -/
structure Record where
  typeId : Nat
  start : Nat
  stop : Nat
  size : Nat
  deriving DecidableEq

namespace Record

/-- The words of one record. A leaf has this size. -/
def unit : Nat := 4

def ofSpan (typeId : Nat) (span : Span) (size : Nat) : Record :=
  ⟨typeId, span.start, span.stop, size⟩

def leaf (typeId : Nat) (span : Span) : Record :=
  ofSpan typeId span unit

def span? (r : Record) : Option Span :=
  Span.ofBounds? r.start r.stop

/-- The number of records in the subtree, the node's own included. -/
def subtreeLen (r : Record) : Nat :=
  r.size / unit

def isLeaf (r : Record) : Bool :=
  r.size == unit

/-- Whether an offset lies in the node's span or at its end. -/
def touches (r : Record) (o : Nat) : Bool :=
  r.start ≤ o && o ≤ r.stop

def words (r : Record) : List Nat :=
  [r.typeId, r.start, r.stop, r.size]

/-- Reads a run of words as records. -/
def ofWords : List Nat → List Record
  | a :: b :: c :: d :: ws => ⟨a, b, c, d⟩ :: ofWords ws
  | _ => []

theorem ofWords_flatMap_words (rs : List Record) : ofWords (rs.flatMap words) = rs := by
  induction rs with
  | nil => rfl
  | cons r rs ih => simp [words, ofWords, ih]

theorem span?_ofSpan (typeId : Nat) (span : Span) (size : Nat) :
    (ofSpan typeId span size).span? = some span := by
  simp [ofSpan, span?, Span.ofBounds?, span.ordered]

end Record

/-- A document and the records of its nodes in one array, each node after its descendants. -/
structure Tree where
  words : Array Nat
  text : Text

namespace Tree

def recordCount (t : Tree) : Nat :=
  t.words.size / Record.unit

/-- The record of the node with the given index, read from its four words. -/
def recordAt (t : Tree) (i : Nat) : Record :=
  let word k := t.words.getD (Record.unit * i + k) 0
  ⟨word 0, word 1, word 2, word 3⟩

/-- All records, read from the front. -/
def records (t : Tree) : List Record :=
  Record.ofWords t.words.toList

def rootIndex (t : Tree) : Nat :=
  t.recordCount - 1

def isRoot (t : Tree) (i : Nat) : Bool :=
  i + 1 == t.recordCount

def hasChildren (t : Tree) (i : Nat) : Bool :=
  !(t.recordAt i).isLeaf

/-- The type of a node. An id that no type has stands for an unknown node. -/
def nodeType (t : Tree) (i : Nat) : NodeType :=
  (NodeType.ofId? (t.recordAt i).typeId).getD .unknown

def spanAt (t : Tree) (i : Nat) : Option Span :=
  (t.recordAt i).span?

/-- The text under a node, or nothing when its span is no stretch of the document. -/
def nodeText (t : Tree) (i : Nat) : Text :=
  (t.text.slice? (t.recordAt i).start (t.recordAt i).stop).getD []

def topType (t : Tree) : NodeType :=
  t.nodeType t.rootIndex

/-- A node by its type and span. -/
def describeNode (t : Tree) (i : Nat) : Text :=
  let r := t.recordAt i
  (t.nodeType i).name.toList ++
    '@' :: Text.decimal r.start ++ '.' :: '.' :: Text.decimal r.stop

/-- The tree by its sizes. -/
def summary (t : Tree) : Text :=
  "Tree \x7b records: ".toList ++ Text.decimal t.recordCount ++
    ", text_len: ".toList ++ Text.decimal t.text.size ++ ", .. \x7d".toList

/-- Walks the `n` records from `first` on backwards, skipping `skip` of them and then the
descendants of each node it takes. The nodes taken come before `later`. -/
def childrenBetween (t : Tree) (first : Nat) : (n skip : Nat) → (later : List Nat) → List Nat
  | 0, _, later => later
  | n + 1, k + 1, later => childrenBetween t first n k later
  | n + 1, 0, later =>
    childrenBetween t first n ((t.recordAt (first + n)).subtreeLen - 1) ((first + n) :: later)

/-- The children of a node in document order. -/
def children (t : Tree) (i : Nat) : List Nat :=
  let first := i + 1 - (t.recordAt i).subtreeLen
  t.childrenBetween first (i - first) 0 []

/-- The first later node whose subtree reaches back to the given one. -/
def parent (t : Tree) (i : Nat) : Option Nat :=
  (List.range' (i + 1) (t.recordCount - (i + 1))).find? fun m =>
    m + 1 - (t.recordAt m).subtreeLen ≤ i

/-- The nodes without children, the root left out. -/
def leaves (t : Tree) : List Nat :=
  (List.range t.rootIndex).filter fun i => !t.hasChildren i

private theorem mem_childrenBetween {t : Tree} {first n k c : Nat} {later : List Nat}
    (h : c ∈ t.childrenBetween first n k later) : c < first + n ∨ c ∈ later := by
  induction n generalizing k later with
  | zero => exact Or.inr (by simpa [childrenBetween] using h)
  | succ n ih =>
    cases k with
    | zero =>
      rcases ih h with h | h
      · omega
      · rcases List.mem_cons.mp h with rfl | h
        · omega
        · exact Or.inr h
    | succ k =>
      rcases ih h with h | h
      · omega
      · exact Or.inr h

theorem lt_of_mem_children {t : Tree} {i c : Nat} (h : c ∈ t.children i) : c < i := by
  by_cases hf : i + 1 - (t.recordAt i).subtreeLen ≤ i
  · rcases mem_childrenBetween h with h | h
    · omega
    · simp at h
  · simp [children, Nat.sub_eq_zero_of_le (Nat.le_of_lt (Nat.lt_of_not_le hf)),
      childrenBetween] at h

end Tree

/-- A node in the hands of a caller. Each copy of a tree has nodes of its own. -/
structure NodeRef where
  copy : Nat
  index : Nat
  deriving DecidableEq

end FlatSyntax
