import FlatSyntax.Proofs.Token.Ownership
import FlatSyntax.Tree.Build

namespace FlatSyntax

namespace Token

theorem mem_of_filter_eq {us vs : List Token}
    (hsame : ∀ n, us.filter (fun t => t.span.start = n) = vs.filter fun t => t.span.start = n)
    {t : Token} (ht : t ∈ us) : t ∈ vs := by
  have hfound : t ∈ us.filter fun u => u.span.start = t.span.start := by simp [ht]
  rw [hsame] at hfound
  exact (List.mem_filter.mp hfound).1

/-- No token of a sorted row starts before the first. -/
theorem head_start_le {v t : Token} {vs : List Token}
    (hv : (v :: vs).Pairwise fun s t => s.span.start ≤ t.span.start) (ht : t ∈ v :: vs) :
    v.span.start ≤ t.span.start := by
  rcases List.mem_cons.mp ht with rfl | ht
  · exact Nat.le_refl _
  · exact (List.pairwise_cons.mp hv).1 t ht

/-- Sorted rows are equal when they have the same tokens of each start, in the same order. The first
token of each is in the other row too, so that neither starts before the other. -/
theorem eq_of_sorted_of_filter_eq {us vs : List Token}
    (hu : us.Pairwise fun s t => s.span.start ≤ t.span.start)
    (hv : vs.Pairwise fun s t => s.span.start ≤ t.span.start)
    (hsame : ∀ n, us.filter (fun t => t.span.start = n) = vs.filter fun t => t.span.start = n) :
    us = vs := by
  induction us generalizing vs with
  | nil =>
    cases vs with
    | nil => rfl
    | cons v vs => simpa using mem_of_filter_eq (fun n => (hsame n).symm) List.mem_cons_self
  | cons u us ih =>
    cases vs with
    | nil => simpa using mem_of_filter_eq hsame List.mem_cons_self
    | cons v vs =>
      have huv := head_start_le hu (mem_of_filter_eq (fun n => (hsame n).symm) List.mem_cons_self)
      have hvu := head_start_le hv (mem_of_filter_eq hsame List.mem_cons_self)
      have hfirst := hsame u.span.start
      rw [List.filter_cons_of_pos (by simp),
        List.filter_cons_of_pos (by simpa using Nat.le_antisymm hvu huv)] at hfirst
      obtain ⟨rfl, -⟩ := List.cons.inj hfirst
      have htail (n : Nat) : us.filter (fun t => t.span.start = n) =
          vs.filter fun t => t.span.start = n := by
        have h := hsame n
        by_cases hn : u.span.start = n
        · rw [List.filter_cons_of_pos (by simp [hn]), List.filter_cons_of_pos (by simp [hn])] at h
          exact (List.cons.inj h).2
        · rwa [List.filter_cons_of_neg (by simp [hn]), List.filter_cons_of_neg (by simp [hn])] at h
      rw [ih (List.pairwise_cons.mp hu).2 (List.pairwise_cons.mp hv).2 htail]

/-- There is only one stable order by starts. -/
theorem StablyOrdered.unique {ts us vs : List Token} (hu : StablyOrdered ts us)
    (hv : StablyOrdered ts vs) : us = vs :=
  eq_of_sorted_of_filter_eq hu.sorted hv.sorted fun n => (hu.stable n).trans (hv.stable n).symm

theorem sortByStart_eq_of_filter_eq {ts us : List Token}
    (h : ∀ n, ts.filter (fun t => t.span.start = n) = us.filter fun t => t.span.start = n) :
    sortByStart ts = sortByStart us := by
  apply eq_of_sorted_of_filter_eq (sortByStart_sorted ts) (sortByStart_sorted us)
  intro n
  rw [filter_sortByStart, filter_sortByStart, h]

/-- Of tokens with distinct starts at most one has a given start, so no order is among those. -/
theorem filter_eq_of_perm {ts us : List Token} (hp : ts.Perm us)
    (hd : us.Pairwise fun s t => s.span.start ≠ t.span.start) (n : Nat) :
    ts.filter (fun t => t.span.start = n) = us.filter fun t => t.span.start = n := by
  have hperm := hp.filter fun t => decide (t.span.start = n)
  have hapart := hd.filter fun t => decide (t.span.start = n)
  cases hus : us.filter fun t => decide (t.span.start = n) with
  | nil =>
    rw [hus] at hperm
    exact hperm.eq_nil
  | cons a rest =>
    rw [hus] at hperm hapart
    cases rest with
    | nil => exact List.perm_singleton.mp hperm
    | cons b rest =>
      have hstart {t : Token} (ht : t ∈ a :: b :: rest) : t.span.start = n := by
        rw [← hus] at ht
        simpa using (List.mem_filter.mp ht).2
      have hne := List.rel_of_pairwise_cons hapart List.mem_cons_self
      exact absurd ((hstart (by simp)).trans (hstart (by simp)).symm) hne

/-- Rows whose tokens come to stand in the same order at each start are repaired alike. -/
theorem repair_congr {text : Text} {ts us : List Token}
    (h : ∀ n, (ts.map (snap text)).filter (fun t => t.span.start = n) =
      (us.map (snap text)).filter fun t => t.span.start = n) : repair text ts = repair text us := by
  rw [repair, repair, sortByStart_eq_of_filter_eq h]

/-- A stream is accepted exactly if repair leaves it as it is, and then each pass of the repair
does, whichever stable order by starts it brings the tokens into. So nothing would be different
without the check. -/
theorem normalize_unchecked (text : Text) (tokens : List Token) :
    (validate text tokens = .ok () ↔ repair text tokens = tokens) ∧
      (validate text tokens = .ok () →
        tokens.map (snap text) = tokens ∧ sortByStart tokens = tokens ∧
          pushApart 0 tokens = tokens ∧ ∀ order, StablyOrdered tokens order → order = tokens) ∧
      normalize text tokens = repair text tokens := by
  refine ⟨?_, ?_, normalize_eq_repair text tokens⟩
  · rw [validate_eq_ok_iff]
    constructor
    · exact repair_eq_self
    · intro h
      rw [← h]
      exact wellFormed_repair text tokens
  · intro hv
    have hw := validate_eq_ok_iff.mp hv
    have hsorted : sortByStart tokens = tokens := sortByStart_eq_self hw.sorted
    refine ⟨map_snap_eq_self hw, hsorted, pushApart_eq_self hw.apart fun t _ => Nat.zero_le _, ?_⟩
    intro order horder
    rw [horder.unique (stablyOrdered_sortByStart tokens), hsorted]

end Token

namespace Tree

/-- Tokens with distinct starts in the text make one tree, in whatever order they arrive. -/
theorem build_perm {text : Text} {tokens others : List Token} (hp : others.Perm tokens)
    (hd : (tokens.map (Token.snap text)).Pairwise fun s t => s.span.start ≠ t.span.start) :
    build text others = build text tokens := by
  have hnorm : Token.normalize text others = Token.normalize text tokens := by
    rw [Token.normalize_eq_repair, Token.normalize_eq_repair]
    exact Token.repair_congr (Token.filter_eq_of_perm (hp.map (Token.snap text)) hd)
  rw [build, build, hnorm]

/-- A well-formed stream and the same tokens from back to front, which have to be repaired. -/
theorem build_backwards :
    let text : Text := ['a', 'é']
    let tokens : List Token :=
      [⟨.ident, 0, 1, by decide⟩, ⟨.string, 1, 3, by decide⟩, ⟨.error, 3, 3, by decide⟩]
    validate text tokens = .ok () ∧ validate text tokens.reverse ≠ .ok () ∧
      tokens.reverse.Perm tokens ∧
      ((tokens.map (Token.snap text)).Pairwise fun s t => s.span.start ≠ t.span.start) ∧
      build text tokens.reverse = build text tokens := by
  intro text tokens
  have hp : tokens.reverse.Perm tokens := tokens.reverse_perm
  have hd : (tokens.map (Token.snap text)).Pairwise fun s t => s.span.start ≠ t.span.start := by
    decide
  exact ⟨rfl, by decide, hp, hd, build_perm hp hd⟩

end Tree

end FlatSyntax
