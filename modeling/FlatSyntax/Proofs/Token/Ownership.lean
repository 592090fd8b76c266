import FlatSyntax.Proofs.Token.Repair
import Mathlib.Order.Bounds.Basic
import Mathlib.Order.Interval.Set.Basic

namespace FlatSyntax

/-- The bytes that a span covers. -/
def Span.bytes (s : Span) : Set Nat :=
  Set.Ico s.start s.stop

namespace Token

/-- The token with both ends moved down to the nearest places in the text where a character can
start or end. -/
structure Snapped (text : Text) (t u : Token) : Prop where
  kind : u.kind = t.kind
  start : IsGreatest {b | text.isBoundary b = true ∧ b ≤ min t.span.start text.size} u.span.start
  stop : IsGreatest {b | text.isBoundary b = true ∧ b ≤ min t.span.stop text.size} u.span.stop

/-- The same tokens by their starts, and tokens with one start in the order they came in. -/
structure StablyOrdered (ts us : List Token) : Prop where
  perm : us.Perm ts
  sorted : us.Pairwise fun s t => s.span.start ≤ t.span.start
  stable : ∀ n, us.filter (fun t => t.span.start = n) = ts.filter fun t => t.span.start = n

theorem isGreatest_floor (text : Text) (o : Nat) :
    IsGreatest {b | text.isBoundary b = true ∧ b ≤ min o text.size} (text.floor o) := by
  constructor
  · exact ⟨text.isBoundary_floor o, Nat.le_min.mpr ⟨text.floor_le o, text.floor_le_size o⟩⟩
  · rintro b ⟨hb, hle⟩
    exact Text.le_floor hb (Nat.le_min.mp hle).1

theorem snapped_snap (text : Text) (t : Token) : Snapped text t (t.snap text) :=
  ⟨rfl, isGreatest_floor text t.span.start, isGreatest_floor text t.span.stop⟩

theorem stablyOrdered_sortByStart (ts : List Token) : StablyOrdered ts (sortByStart ts) :=
  ⟨sortByStart_perm ts, sortByStart_sorted ts, filter_sortByStart ts⟩

/-- The greatest of an end and the ends of tokens. -/
def reach (stop : Nat) (ts : List Token) : Nat :=
  ts.foldl (fun m t => max m t.span.stop) stop

theorem reach_le_iff {stop n : Nat} {ts : List Token} :
    reach stop ts ≤ n ↔ stop ≤ n ∧ ∀ t ∈ ts, t.span.stop ≤ n := by
  induction ts generalizing stop with
  | nil => simp [reach]
  | cons t ts ih =>
    have hstep : reach stop (t :: ts) = reach (max stop t.span.stop) ts := rfl
    rw [hstep, ih, Nat.max_le, List.forall_mem_cons, and_assoc]

theorem getElem?_pushApart (stop : Nat) (ts : List Token) (i : Nat) :
    (pushApart stop ts)[i]? = ts[i]?.map (push (reach stop (ts.take i))) := by
  induction ts generalizing stop i with
  | nil => simp [pushApart]
  | cons t ts ih =>
    rw [pushApart_cons]
    cases i with
    | zero => rfl
    | succ i =>
      have hstep : reach stop (t :: ts.take i) = reach (max stop t.span.stop) (ts.take i) := rfl
      rw [List.getElem?_cons_succ, List.getElem?_cons_succ, List.take_succ_cons, hstep, ih]

theorem map_kind_pushApart (stop : Nat) (ts : List Token) :
    (pushApart stop ts).map kind = ts.map kind := by
  induction ts generalizing stop with
  | nil => rfl
  | cons t ts ih =>
    rw [pushApart_cons, List.map_cons, List.map_cons, ih]
    rfl

theorem le_reach {stop : Nat} {ts : List Token} {t : Token} (h : t ∈ ts) :
    t.span.stop ≤ reach stop ts :=
  (reach_le_iff.mp (Nat.le_refl _)).2 t h

theorem exists_reach (stop : Nat) (ts : List Token) :
    reach stop ts = stop ∨ ∃ t ∈ ts, t.span.stop = reach stop ts := by
  induction ts generalizing stop with
  | nil => exact Or.inl rfl
  | cons t ts ih =>
    have hstep : reach stop (t :: ts) = reach (max stop t.span.stop) ts := rfl
    rw [hstep]
    rcases ih (max stop t.span.stop) with h | ⟨u, hu, h⟩
    · rcases Nat.le_total stop t.span.stop with hle | hle
      · right
        exact ⟨t, by simp, by rw [h, Nat.max_eq_right hle]⟩
      · left
        rw [h, Nat.max_eq_left hle]
    · exact Or.inr ⟨u, List.mem_cons_of_mem t hu, h⟩

/-- A pushed token keeps its bytes past the end, and no others. -/
theorem mem_bytes_push {stop b : Nat} {t : Token} :
    b ∈ (t.push stop).span.bytes ↔ b ∈ t.span.bytes ∧ stop ≤ b := by
  simp only [Span.bytes, Set.mem_Ico, stop_push]
  simp only [push, Span.collapse]
  omega

section Sorted

variable {order : List Token} {i : Nat} {u : Token}

theorem start_le_of_mem_take (hs : order.Pairwise fun s t => s.span.start ≤ t.span.start)
    (hu : order[i]? = some u) {v : Token} (hv : v ∈ order.take i) :
    v.span.start ≤ u.span.start := by
  rw [← List.take_append_drop i order, List.pairwise_append] at hs
  apply hs.2.2 v hv
  obtain ⟨hi, rfl⟩ := List.getElem?_eq_some_iff.mp hu
  rw [List.drop_eq_getElem_cons hi]
  exact List.mem_cons_self

/-- Among tokens in the order of their starts, a token keeps a byte exactly if it is the first to
cover it: no earlier one starts after the byte, so that those that miss it end before it. -/
theorem mem_bytes_pushApart (hs : order.Pairwise fun s t => s.span.start ≤ t.span.start)
    (hu : order[i]? = some u) (b : Nat) :
    b ∈ (u.push (reach 0 (order.take i))).span.bytes ↔
      b ∈ u.span.bytes ∧ ∀ v ∈ order.take i, b ∉ v.span.bytes := by
  rw [mem_bytes_push]
  apply and_congr_right
  intro hb
  have hstart := hb.1
  rw [reach_le_iff]
  constructor
  · rintro ⟨-, hstop⟩ v hv hmem
    have := hstop v hv
    exact absurd hmem.2 (by omega)
  · intro hfirst
    refine ⟨Nat.zero_le b, ?_⟩
    intro v hv
    by_cases hlt : b < v.span.stop
    · have hle := start_le_of_mem_take hs hu hv
      exact absurd ⟨by omega, hlt⟩ (hfirst v hv)
    · omega

end Sorted

/-- A pushed token without a byte stands at the greatest end up to it. -/
theorem isGreatest_push {order : List Token} {i : Nat} {u : Token} (hu : order[i]? = some u)
    (he : (u.push (reach 0 (order.take i))).span.bytes = ∅) :
    IsGreatest {e | ∃ v ∈ order.take (i + 1), v.span.stop = e}
      (u.push (reach 0 (order.take i))).span.start := by
  have htake : order.take (i + 1) = order.take i ++ [u] := by
    rw [List.take_add_one, hu]
    rfl
  have hreach : reach 0 (order.take (i + 1)) = (u.push (reach 0 (order.take i))).span.stop := by
    rw [stop_push, htake, reach, List.foldl_append]
    rfl
  have hempty : (u.push (reach 0 (order.take i))).span.start = reach 0 (order.take (i + 1)) := by
    rw [hreach]
    have hle := Set.Ico_eq_empty_iff.mp he
    have := (u.push (reach 0 (order.take i))).span.ordered
    omega
  rw [hempty]
  constructor
  · rcases exists_reach 0 (order.take (i + 1)) with h | h
    · have hmem : u ∈ order.take (i + 1) := by
        rw [htake]
        simp
      have hle : u.span.stop ≤ reach 0 (order.take (i + 1)) := le_reach hmem
      exact ⟨u, hmem, by omega⟩
    · exact h
  · rintro e ⟨v, hv, rfl⟩
    exact le_reach hv

theorem exists_first {order : List Token} {u : Token} {b : Nat} (hu : u ∈ order)
    (hb : b ∈ u.span.bytes) :
    ∃ i v, order[i]? = some v ∧ b ∈ v.span.bytes ∧ ∀ w ∈ order.take i, b ∉ w.span.bytes := by
  induction order with
  | nil => simp at hu
  | cons t ts ih =>
    by_cases ht : b ∈ t.span.bytes
    · exact ⟨0, t, rfl, ht, by simp⟩
    · have hmem : u ∈ ts := by
        rcases List.mem_cons.mp hu with rfl | hmem
        · exact absurd hb ht
        · exact hmem
      obtain ⟨i, v, hv, hbv, hfirst⟩ := ih hmem
      refine ⟨i + 1, v, hv, hbv, ?_⟩
      rw [List.take_succ_cons]
      exact List.forall_mem_cons.mpr ⟨ht, hfirst⟩

/-- The spans share out what tokens in their order cover. Each byte goes to the first token that
covers it, and a token that gets none is empty at the greatest end up to it. -/
structure SharedOut (order : List Token) (spans : List Span) : Prop where
  owner : ∀ i s u, spans[i]? = some s → order[i]? = some u → ∀ b,
    b ∈ s.bytes ↔ b ∈ u.span.bytes ∧ ∀ v ∈ order.take i, b ∉ v.span.bytes
  cover : {b | ∃ s ∈ spans, b ∈ s.bytes} = {b | ∃ u ∈ order, b ∈ u.span.bytes}
  disjoint : spans.Pairwise fun r s => ∀ b ∈ r.bytes, b ∉ s.bytes
  empty : ∀ i s, spans[i]? = some s → s.bytes = ∅ →
    s.start = s.stop ∧ IsGreatest {e | ∃ v ∈ order.take (i + 1), v.span.stop = e} s.start

theorem exists_of_getElem?_pushApart {order : List Token} {i : Nat} {s : Span}
    (h : ((pushApart 0 order).map span)[i]? = some s) :
    ∃ u, order[i]? = some u ∧ s = (u.push (reach 0 (order.take i))).span := by
  rw [List.getElem?_map, getElem?_pushApart, Option.map_map] at h
  obtain ⟨u, hu, hs⟩ := Option.map_eq_some_iff.mp h
  exact ⟨u, hu, hs.symm⟩

/-- Pushing the tokens apart neither uncovers a byte nor covers a new one. -/
theorem cover_pushApart {order : List Token}
    (hs : order.Pairwise fun s t => s.span.start ≤ t.span.start) :
    {b | ∃ s ∈ (pushApart 0 order).map span, b ∈ s.bytes} =
      {b | ∃ u ∈ order, b ∈ u.span.bytes} := by
  ext b
  constructor
  · intro h
    obtain ⟨s, hmem, hb⟩ := h
    obtain ⟨i, hi⟩ := List.mem_iff_getElem?.mp hmem
    obtain ⟨u, hu, rfl⟩ := exists_of_getElem?_pushApart hi
    exact ⟨u, List.mem_of_getElem? hu, ((mem_bytes_pushApart hs hu b).mp hb).1⟩
  · intro h
    obtain ⟨u, hmem, hb⟩ := h
    obtain ⟨i, v, hv, hbv, hfirst⟩ := exists_first hmem hb
    have hi : ((pushApart 0 order).map span)[i]? =
        some (v.push (reach 0 (order.take i))).span := by
      rw [List.getElem?_map, getElem?_pushApart, hv]
      rfl
    exact ⟨_, List.mem_of_getElem? hi, (mem_bytes_pushApart hs hv b).mpr ⟨hbv, hfirst⟩⟩

theorem sharedOut_pushApart {order : List Token}
    (hs : order.Pairwise fun s t => s.span.start ≤ t.span.start) :
    SharedOut order ((pushApart 0 order).map span) := by
  constructor
  case owner =>
    intro i s u hi hu b
    obtain ⟨u', hu', rfl⟩ := exists_of_getElem?_pushApart hi
    obtain rfl := Option.some.inj (hu.symm.trans hu')
    exact mem_bytes_pushApart hs hu b
  case cover => exact cover_pushApart hs
  case disjoint =>
    rw [List.pairwise_map]
    apply (pairwise_pushApart 0 order).imp
    intro r s hle b hr hs
    have hlt := hr.2
    have hge := hs.1
    omega
  case empty =>
    intro i s hi he
    obtain ⟨u, hu, rfl⟩ := exists_of_getElem?_pushApart hi
    refine ⟨?_, isGreatest_push hu he⟩
    have hle := Set.Ico_eq_empty_iff.mp he
    have hord := (u.push (reach 0 (order.take i))).span.ordered
    omega

end Token

end FlatSyntax
