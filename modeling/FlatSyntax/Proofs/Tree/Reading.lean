import FlatSyntax.Proofs.Tree.Records
import FlatSyntax.Proofs.Tree.Made
import FlatSyntax.Proofs.Tree.Walk

namespace FlatSyntax

namespace Record

/-- The record in a chunk of four words. -/
def ofChunk? : List Nat → Option Record
  | [a, b, c, d] => some ⟨a, b, c, d⟩
  | _ => none

/-- The record with an index in a row of words, read from the chunk at its place. -/
def at? (ws : List Nat) (i : Nat) : Option Record :=
  ofChunk? ((ws.drop (unit * i)).take unit)

/-- Takes a chunk of words at one end, if there is one, and leaves the words without it. -/
def takeChunk (ws : List Nat) (e : End) : Option Record × List Nat :=
  if ws.length < unit then (none, ws)
  else
    match e with
    | .front => (ofChunk? (ws.take unit), ws.drop unit)
    | .back => (ofChunk? (ws.drop (ws.length - unit)), ws.take (ws.length - unit))

/-- The answers to a row of takes, each with the number of chunks left after it. -/
def takeChunks (ws : List Nat) : List End → List (Option Record × Nat)
  | [] => []
  | e :: es =>
    ((takeChunk ws e).1, (takeChunk ws e).2.length / unit) :: takeChunks (takeChunk ws e).2 es

theorem ofChunk?_words (r : Record) : ofChunk? r.words = some r := rfl

theorem length_words (r : Record) : r.words.length = unit := rfl

/-- Behind the chunks of some records stands the chunk of the next one. -/
theorem at?_flatMap_words (rs : List Record) (i : Nat) : at? (rs.flatMap words) i = rs[i]? := by
  induction rs generalizing i with
  | nil => simp [at?, ofChunk?]
  | cons r rs ih =>
    rw [List.flatMap_cons, at?]
    cases i with
    | zero =>
      rw [Nat.mul_zero, List.drop_zero, ← r.length_words, List.take_left, ofChunk?_words]
      rfl
    | succ i =>
      have hplace : unit * (i + 1) = r.words.length + unit * i := by
        rw [length_words, Nat.mul_succ, Nat.add_comm]
      rw [hplace, List.drop_length_add_append, List.getElem?_cons_succ, ← ih, at?]

theorem takeChunk_front (rs : List Record) :
    takeChunk (rs.flatMap words) .front = (rs.head?, rs.tail.flatMap words) := by
  cases rs with
  | nil => rfl
  | cons r rs =>
    have hlong : ¬ (r.words ++ rs.flatMap words).length < r.words.length := by simp
    rw [List.flatMap_cons, takeChunk, ← r.length_words, if_neg hlong, List.take_left, List.drop_left]
    rfl

theorem takeChunk_back (rs : List Record) :
    takeChunk (rs.flatMap words) .back = (rs.getLast?, rs.dropLast.flatMap words) := by
  rcases List.eq_nil_or_concat rs with rfl | ⟨rs, r, rfl⟩
  · rfl
  · have hwords : (rs.concat r).flatMap words = rs.flatMap words ++ r.words := by simp
    have hlong : ¬ (rs.flatMap words ++ r.words).length < r.words.length := by simp
    have hplace : (rs.flatMap words ++ r.words).length - r.words.length =
        (rs.flatMap words).length := by simp
    rw [hwords, takeChunk, ← r.length_words, if_neg hlong, hplace]
    simp [ofChunk?_words]

/-- To take chunks of words from both ends is to take the records that they hold. -/
theorem takeChunks_eq_takes (w : Walk Record) (es : List End) :
    takeChunks (w.toList.flatMap words) es = w.takes es := by
  induction es generalizing w with
  | nil => rfl
  | cons e es ih =>
    have hstep : takeChunk (w.toList.flatMap words) e =
        ((w.take e).1, (w.take e).2.toList.flatMap words) := by
      cases e with
      | front => rw [takeChunk_front, w.take_front.1, w.take_front.2]
      | back => rw [takeChunk_back, w.take_back.1, w.take_back.2]
    rw [takeChunks, hstep, Walk.takes, ih, length_flatMap_words, Walk.length_toList,
      Nat.mul_div_cancel_left _ (by decide)]

end Record

namespace Tree

theorem words_ofTokens_eq (text : Text) (tokens : List Token) :
    (ofTokens text tokens).words.toList = (ofTokens text tokens).records.flatMap Record.words := by
  rw [words_ofTokens, records_ofTokens]

theorem recordCount_run (text : Text) (calls : List Builder.Call) :
    (Builder.run text calls).recordCount = calls.length + 1 := by
  rw [Builder.run_eq_ofTokens, recordCount_ofTokens, List.length_map]

theorem children_run (text : Text) {calls : List Builder.Call} (h : calls.length < leafLimit) :
    (Builder.run text calls).children (Builder.run text calls).rootIndex =
      List.range calls.length := by
  have hfew : (calls.map Builder.Call.added).length < leafLimit := by
    rw [List.length_map]
    exact h
  rw [Builder.run_eq_ofTokens, children_rootIndex_ofTokens text hfew, leaves_ofTokens,
    List.length_map]

theorem records_run (text : Text) {calls : List Builder.Call} (h : calls.length < leafLimit) :
    (Builder.run text calls).records =
      calls.map (fun c => leafRecord c.added) ++
        [⟨NodeType.root.id, 0, text.size, 4 * calls.length + 4⟩] := by
  have hfits : (calls.length * Record.unit + Record.unit) % UInt32.size = 4 * calls.length + 4 := by
    rw [leafLimit_eq] at h
    simp only [Record.unit, UInt32.size]
    omega
  rw [Builder.run_eq_ofTokens, records_ofTokens, List.map_map, List.length_map, hfits]
  rfl

/-- What a run of a builder has written is read back: the records of the leaves in the order of the
calls and the record of the root behind them, one by one from their places, or from both ends in
turn, by whole records or by chunks of words. So are the leaves below the root. -/
theorem run_reads_back (text : Text) {calls : List Builder.Call} (h : calls.length < leafLimit) :
    let t := Builder.run text calls
    let n := calls.length
    t.records =
        calls.map (fun c => ⟨(NodeType.ofKind c.added.kind).id, c.added.span.start,
          c.added.span.stop, 4⟩) ++ [⟨NodeType.root.id, 0, text.size, 4 * n + 4⟩] ∧
      t.recordCount = n + 1 ∧
      (∀ i < t.recordCount, t.records[i]? = some (t.recordAt i) ∧
        Record.at? t.words.toList i = some (t.recordAt i)) ∧
      t.recordWalk.Serves t.records ∧
      (∀ es, Record.takeChunks t.words.toList es = t.recordWalk.takes es) ∧
      t.children t.rootIndex = List.range n ∧
      (t.childWalk t.rootIndex).Serves (List.range n) := by
  intro t n
  have hchildren : t.children t.rootIndex = List.range n := children_run text h
  have hwords : t.words.toList = t.records.flatMap Record.words := by
    show (Builder.run text calls).words.toList = (Builder.run text calls).records.flatMap _
    rw [Builder.run_eq_ofTokens, words_ofTokens_eq]
  refine ⟨records_run text h, recordCount_run text calls, ?_, Walk.serves_ofList _, ?_, hchildren, ?_⟩
  · intro i hi
    have hread := getElem?_records hi
    rw [hwords, Record.at?_flatMap_words]
    exact ⟨hread, hread⟩
  · intro es
    have hlist : t.recordWalk.toList = t.records := Walk.toList_ofList t.records
    rw [hwords, ← hlist]
    exact Record.takeChunks_eq_takes t.recordWalk es
  · rw [← hchildren]
    exact Walk.serves_ofList _

/-- Leaves outside of the document are read back, too, here the first one after the root behind it
has been taken. -/
theorem stray_leaves_read_back :
    let calls : List Builder.Call :=
      [.leaf .string ⟨1, 9, by decide⟩, .token ⟨.ident, 0, 0, by decide⟩]
    let t := Builder.run ['é'] calls
    calls.length < leafLimit ∧
      t.records = [⟨6, 1, 9, 4⟩, ⟨7, 0, 0, 4⟩, ⟨0, 0, 2, 12⟩] ∧ t.recordAt 1 = ⟨7, 0, 0, 4⟩ ∧
      (t.recordWalk.takes [.back, .front])[1]? = some (some ⟨6, 1, 9, 4⟩, 1) := by
  intro calls t
  have hfew : calls.length < leafLimit := by decide
  obtain ⟨hrecords, hcount, hread, hwalk, -⟩ := run_reads_back ['é'] hfew
  have hlist : t.records = [⟨6, 1, 9, 4⟩, ⟨7, 0, 0, 4⟩, ⟨0, 0, 2, 12⟩] := hrecords
  have hone := (hread 1 (by rw [hcount]; decide)).1
  obtain ⟨x, hx, htake⟩ := hwalk.item [.back, .front] 1 .front rfl (by rw [hlist]; decide)
  rw [hlist] at hone hx htake
  cases hx
  exact ⟨hfew, hlist, (Option.some.inj hone).symm, htake⟩

end Tree

end FlatSyntax
