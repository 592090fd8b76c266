import FlatSyntax.Proofs.Token.Validation

namespace FlatSyntax.Token

theorem placed_snap (text : Text) (t : Token) : (t.snap text).Placed text :=
  ⟨text.isBoundary_floor t.span.start, text.isBoundary_floor t.span.stop⟩

theorem Placed.snap_eq_self {text : Text} {t : Token} (h : t.Placed text) : t.snap text = t := by
  have hstart := Text.floor_eq_self h.1
  have hstop := Text.floor_eq_self h.2
  simp [snap, Span.floor, hstart, hstop]

private theorem start_trans (a b c : Token) (hab : decide (a.span.start ≤ b.span.start) = true)
    (hbc : decide (b.span.start ≤ c.span.start) = true) :
    decide (a.span.start ≤ c.span.start) = true := by
  simp only [decide_eq_true_eq] at hab hbc ⊢
  exact Nat.le_trans hab hbc

private theorem start_total (a b : Token) :
    (decide (a.span.start ≤ b.span.start) || decide (b.span.start ≤ a.span.start)) = true := by
  simp only [Bool.or_eq_true, decide_eq_true_eq]
  exact Nat.le_total _ _

theorem sortByStart_perm (ts : List Token) : (sortByStart ts).Perm ts :=
  List.mergeSort_perm ts _

theorem sortByStart_sorted (ts : List Token) :
    (sortByStart ts).Pairwise fun s t => s.span.start ≤ t.span.start :=
  (List.pairwise_mergeSort start_trans start_total ts).imp fun hst => by simpa using hst

/-- Tokens with one start keep their order. -/
theorem filter_sortByStart (ts : List Token) (n : Nat) :
    (sortByStart ts).filter (fun t => t.span.start = n) =
      ts.filter (fun t => t.span.start = n) := by
  have hsame : (ts.filter fun t => t.span.start = n).Pairwise fun s t =>
      decide (s.span.start ≤ t.span.start) = true := by
    apply List.pairwise_of_forall_mem_list
    intro a ha b hb
    have hka := (List.mem_filter.mp ha).2
    have hkb := (List.mem_filter.mp hb).2
    simp only [decide_eq_true_eq] at hka hkb ⊢
    omega
  have hsub := List.sublist_mergeSort start_trans start_total hsame List.filter_sublist
  have hkeep := hsub.filter fun t => t.span.start = n
  rw [List.filter_filter] at hkeep
  simp only [Bool.and_self] at hkeep
  have hlen := ((sortByStart_perm ts).filter fun t => t.span.start = n).length_eq
  exact (hkeep.eq_of_length hlen.symm).symm

theorem sortByStart_eq_self {ts : List Token}
    (h : ts.Pairwise fun s t => s.span.start ≤ t.span.start) : sortByStart ts = ts :=
  List.mergeSort_of_pairwise (h.imp fun hst => by simpa using hst)

/-- The token without what lies before an end. A token that lies before it is empty there. -/
def push (stop : Nat) (t : Token) : Token :=
  ⟨t.kind, .collapse (max t.span.start stop) t.span.stop⟩

theorem stop_push (stop : Nat) (t : Token) :
    (t.push stop).span.stop = max stop t.span.stop := by
  have := t.span.ordered
  simp only [push, Span.collapse]
  omega

theorem pushApart_cons (stop : Nat) (t : Token) (ts : List Token) :
    pushApart stop (t :: ts) = t.push stop :: pushApart (max stop t.span.stop) ts := by
  rw [← stop_push]
  rfl

theorem Placed.push {text : Text} {t : Token} {stop : Nat} (h : t.Placed text)
    (hs : text.isBoundary stop = true) : (t.push stop).Placed text := by
  have hmax {a b : Nat} (ha : text.isBoundary a = true) (hb : text.isBoundary b = true) :
      text.isBoundary (max a b) = true := by
    rcases Nat.le_total a b with hab | hab
    · rwa [Nat.max_eq_right hab]
    · rwa [Nat.max_eq_left hab]
  exact ⟨hmax h.1 hs, hmax (hmax h.1 hs) h.2⟩

theorem stop_le_of_mem_pushApart {stop : Nat} {ts : List Token} {u : Token}
    (h : u ∈ pushApart stop ts) : stop ≤ u.span.start := by
  induction ts generalizing stop with
  | nil => simp [pushApart] at h
  | cons t ts ih =>
    rw [pushApart_cons] at h
    rcases List.mem_cons.mp h with rfl | h
    · exact Nat.le_max_right _ _
    · have := ih h
      omega

/-- Pushed tokens stand one after the other. -/
theorem pairwise_pushApart (stop : Nat) (ts : List Token) :
    (pushApart stop ts).Pairwise fun s t => s.span.stop ≤ t.span.start := by
  induction ts generalizing stop with
  | nil => exact List.Pairwise.nil
  | cons t ts ih =>
    rw [pushApart_cons]
    refine List.pairwise_cons.mpr ⟨?_, ih _⟩
    intro u hu
    rw [stop_push]
    exact stop_le_of_mem_pushApart hu

theorem placed_of_mem_pushApart {text : Text} {stop : Nat} {ts : List Token} {u : Token}
    (hs : text.isBoundary stop = true) (hp : ∀ t ∈ ts, t.Placed text)
    (hu : u ∈ pushApart stop ts) : u.Placed text := by
  induction ts generalizing stop with
  | nil => simp [pushApart] at hu
  | cons t ts ih =>
    have ht := (hp t (by simp)).push hs
    have hend : text.isBoundary (max stop t.span.stop) = true := stop_push stop t ▸ ht.2
    rw [pushApart_cons] at hu
    rcases List.mem_cons.mp hu with rfl | hu
    · exact ht
    · exact ih hend (fun v hv => hp v (List.mem_cons_of_mem t hv)) hu

/-- Tokens that stand apart already are not moved. -/
theorem pushApart_eq_self {stop : Nat} {ts : List Token}
    (ha : ts.Pairwise fun s t => s.span.stop ≤ t.span.start)
    (hle : ∀ t ∈ ts, stop ≤ t.span.start) : pushApart stop ts = ts := by
  induction ts generalizing stop with
  | nil => rfl
  | cons t ts ih =>
    obtain ⟨hlater, hapart⟩ := List.pairwise_cons.mp ha
    have hst := hle t (by simp)
    have hord := t.span.ordered
    have hpush : t.push stop = t := by
      simp [push, Span.collapse, Nat.max_eq_left hst, Nat.max_eq_right hord]
    have hend : max stop t.span.stop = t.span.stop := by omega
    rw [pushApart_cons, hpush, hend, ih hapart hlater]

theorem wellFormed_repair (text : Text) (ts : List Token) : WellFormed text (repair text ts) := by
  have hp : ∀ t ∈ sortByStart (ts.map (snap text)), t.Placed text := by
    intro t ht
    obtain ⟨u, -, rfl⟩ := List.mem_map.mp ((sortByStart_perm _).mem_iff.mp ht)
    exact placed_snap text u
  exact wellFormed_iff.mpr
    ⟨fun u hu => placed_of_mem_pushApart text.isBoundary_zero hp hu, pairwise_pushApart 0 _⟩

theorem map_snap_eq_self {text : Text} {ts : List Token} (h : WellFormed text ts) :
    ts.map (snap text) = ts := by
  have hid : ∀ t ∈ ts, t.snap text = id t := fun t ht => Placed.snap_eq_self (h.aligned t ht)
  rw [List.map_congr_left hid, List.map_id]

theorem repair_eq_self {text : Text} {ts : List Token} (h : WellFormed text ts) :
    repair text ts = ts := by
  rw [repair, map_snap_eq_self h, sortByStart_eq_self h.sorted]
  exact pushApart_eq_self h.apart fun t _ => Nat.zero_le _

/-- Repairing every stream would come to the same as repairing the malformed ones. -/
theorem normalize_eq_repair (text : Text) (ts : List Token) :
    normalize text ts = repair text ts := by
  unfold normalize
  split
  · rename_i hv
    exact (repair_eq_self (validate_eq_ok_iff.mp hv)).symm
  · rfl

end FlatSyntax.Token
