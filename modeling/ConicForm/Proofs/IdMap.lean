import Mathlib.Tactic.Lemma
import ConicForm.IdMap
/-!
Maps keyed by ids, built from lists of pairs.

When the ids of the pairs are distinct, no run of equal ids has more than one pair, so building
the map only sorts the pairs: the map finds exactly what the list finds, and has exactly the
list's ids. In general, sorting by id is stable, so the last pair of a run is the last pair of
the list with that id, and the map finds for each id what was inserted last.
-/

namespace ConicForm

variable {α : Type}

lemma lookup_eq_some_iff_mem {l : List (Nat × α)} (hl : (l.map (·.1)).Nodup) {k : Nat} {v : α} :
    l.lookup k = some v ↔ (k, v) ∈ l := by
  rw [List.lookup_eq_some_iff]
  constructor
  · rintro ⟨l₁, l₂, rfl, -⟩
    simp
  · intro hmem
    obtain ⟨l₁, l₂, rfl⟩ := List.append_of_mem hmem
    refine ⟨l₁, l₂, rfl, fun p hp => ?_⟩
    have hnd := (List.nodup_append.1 (by simpa using hl)).2.2
    have hk : k ≠ p.1 := fun hkp => hnd p.1 (List.mem_map_of_mem hp) k (by simp) hkp.symm
    simpa using hk

lemma lookup_perm {l l' : List (Nat × α)} (hl : (l.map (·.1)).Nodup) (hp : l.Perm l') (k : Nat) :
    l.lookup k = l'.lookup k := by
  have hl' : (l'.map (·.1)).Nodup := (hp.map _).nodup_iff.1 hl
  apply Option.ext
  intro v
  rw [lookup_eq_some_iff_mem hl, lookup_eq_some_iff_mem hl']
  exact hp.mem_iff

namespace IdMap

lemma lastOfRuns_of_nodup : ∀ {l : List (Nat × α)}, (l.map (·.1)).Nodup → lastOfRuns l = l
  | [], _ => by simp [lastOfRuns]
  | [_], _ => by simp [lastOfRuns]
  | p :: q :: rest, hl => by
    have hpq : p.1 ≠ q.1 := by
      intro h
      simp [h] at hl
    have hrest : ((q :: rest).map (·.1)).Nodup := (List.nodup_cons.1 hl).2
    rw [lastOfRuns, if_neg hpq, lastOfRuns_of_nodup hrest]

lemma ofList_perm (xs : List (Nat × α)) : (xs.mergeSort fun a b => decide (a.1 ≤ b.1)).Perm xs :=
  List.mergeSort_perm xs _

lemma ofList_of_nodup {xs : List (Nat × α)} (h : (xs.map (·.1)).Nodup) :
    ofList xs = xs.mergeSort fun a b => decide (a.1 ≤ b.1) :=
  lastOfRuns_of_nodup (((ofList_perm xs).map _).nodup_iff.2 h)

lemma lastOfRuns_sublist : ∀ l : List (Nat × α), (lastOfRuns l).Sublist l
  | [] => by simp [lastOfRuns]
  | [_] => by simp [lastOfRuns]
  | p :: q :: rest => by
    rw [lastOfRuns]
    split
    · exact (lastOfRuns_sublist (q :: rest)).cons p
    · exact (lastOfRuns_sublist (q :: rest)).cons_cons p

lemma lastOfRuns_pairwise :
    ∀ {l : List (Nat × α)}, l.Pairwise (·.1 ≤ ·.1) → (lastOfRuns l).Pairwise (·.1 < ·.1)
  | [], _ => by simp [lastOfRuns]
  | [_], _ => by simp [lastOfRuns]
  | p :: q :: rest, h => by
    rw [lastOfRuns]
    split
    · exact lastOfRuns_pairwise h.of_cons
    · rename_i hpq
      refine List.pairwise_cons.2 ⟨fun b hb => ?_, lastOfRuns_pairwise h.of_cons⟩
      -- `b` is `q` or comes after it, and `p` is strictly before `q`
      have hpq' : p.1 < q.1 := Nat.lt_of_le_of_ne (List.rel_of_pairwise_cons h (by simp)) hpq
      rcases List.mem_cons.1 ((lastOfRuns_sublist (q :: rest)).subset hb) with rfl | hb
      · exact hpq'
      · exact Nat.lt_of_lt_of_le hpq' (List.rel_of_pairwise_cons h.of_cons hb)

lemma byId_trans (a b c : Nat × α) (hab : decide (a.1 ≤ b.1) = true)
    (hbc : decide (b.1 ≤ c.1) = true) : decide (a.1 ≤ c.1) = true := by
  simp only [decide_eq_true_eq] at *
  omega

lemma byId_total (a b : Nat × α) : (decide (a.1 ≤ b.1) || decide (b.1 ≤ a.1)) = true := by
  simp only [Bool.or_eq_true, decide_eq_true_eq]
  omega

lemma mergeSort_pairwise (xs : List (Nat × α)) :
    (xs.mergeSort fun a b => decide (a.1 ≤ b.1)).Pairwise (·.1 ≤ ·.1) := by
  simpa using List.pairwise_mergeSort byId_trans byId_total xs

lemma ofList_pairwise_lt (xs : List (Nat × α)) : (ofList xs).Pairwise (·.1 < ·.1) :=
  lastOfRuns_pairwise (mergeSort_pairwise xs)

lemma keys_ofList_nodup (xs : List (Nat × α)) : (ofList xs).keys.Nodup := by
  rw [keys, List.nodup_iff_pairwise_ne, List.pairwise_map]
  exact (ofList_pairwise_lt xs).imp fun h => Nat.ne_of_lt h

lemma mem_keys_lastOfRuns : ∀ (l : List (Nat × α)) (k : Nat),
    k ∈ (lastOfRuns l).map (·.1) ↔ k ∈ l.map (·.1)
  | [], _ => by simp [lastOfRuns]
  | [_], _ => by simp [lastOfRuns]
  | p :: q :: rest, k => by
    rw [lastOfRuns]
    split
    · -- `p` gives way to `q`, which has its id
      rename_i hpq
      rw [mem_keys_lastOfRuns (q :: rest) k]
      simp only [List.map_cons, List.mem_cons, hpq]
      constructor
      · exact Or.inr
      · rintro (h | h)
        · exact Or.inl h
        · exact h
    · simp only [List.map_cons, List.mem_cons, mem_keys_lastOfRuns (q :: rest) k]

/-- A map has exactly the ids of its list, repeated ones once. -/
lemma mem_keys_ofList_iff (xs : List (Nat × α)) (k : Nat) :
    k ∈ (ofList xs).keys ↔ k ∈ xs.map (·.1) := by
  rw [keys, ofList, mem_keys_lastOfRuns]
  exact ((ofList_perm xs).map _).mem_iff

lemma find?_ofList {xs : List (Nat × α)} (h : (xs.map (·.1)).Nodup) (k : Nat) :
    (ofList xs).find? k = xs.lookup k := by
  rw [find?, ofList_of_nodup h]
  exact (lookup_perm h (ofList_perm xs).symm k).symm

lemma mem_keys_ofList {xs : List (Nat × α)} (h : (xs.map (·.1)).Nodup) (k : Nat) :
    k ∈ (ofList xs).keys ↔ k ∈ xs.map (·.1) := by
  rw [keys, ofList_of_nodup h]
  exact ((ofList_perm xs).map _).mem_iff

lemma lookup_lastOfRuns :
    ∀ {l : List (Nat × α)}, l.Pairwise (·.1 ≤ ·.1) → ∀ k : Nat,
      (lastOfRuns l).lookup k = (l.filter (·.1 == k)).getLast?.map (·.2)
  | [], _, k => by simp [lastOfRuns]
  | [(a, b)], _, k => by
    by_cases hk : a = k
    · subst hk
      simp [lastOfRuns]
    · simp [lastOfRuns, List.lookup_cons, beq_eq_false_iff_ne.2 (Ne.symm hk), hk]
  | (a, b) :: q :: rest, h, k => by
    have ih := lookup_lastOfRuns h.of_cons k
    rw [lastOfRuns]
    split
    · -- `(a, b)` gives way to `q`, which has its id and comes later
      rename_i haq
      rw [ih]
      by_cases hk : a = k
      · have hq : q.1 = k := haq ▸ hk
        simp [hk, hq]
      · simp [List.filter_cons_of_neg, hk]
    · rename_i haq
      by_cases hk : a = k
      · -- `(a, b)` is the only pair of its id: every later id is larger
        have hlater : ∀ r ∈ q :: rest, r.1 ≠ k := by
          intro r hr
          have haq' : a < q.1 := Nat.lt_of_le_of_ne (List.rel_of_pairwise_cons h (by simp)) haq
          rcases List.mem_cons.1 hr with rfl | hr
          · omega
          · have := List.rel_of_pairwise_cons h.of_cons hr
            omega
        have hnone : (q :: rest).filter (·.1 == k) = [] := by
          simpa using hlater
        subst hk
        simp [List.filter_cons_of_pos, hnone]
      · have hka : (k == a) = false := beq_eq_false_iff_ne.2 (Ne.symm hk)
        simp [List.lookup_cons, hka, ih, hk]

/-- Sorting by id is stable: the pairs of one id keep their order. -/
lemma filter_mergeSort (xs : List (Nat × α)) (k : Nat) :
    (xs.mergeSort fun a b => decide (a.1 ≤ b.1)).filter (·.1 == k) = xs.filter (·.1 == k) := by
  -- the pairs of id `k` are all equal in the order, so they stay a sublist of the sorted list
  have hsame : (xs.filter (·.1 == k)).Pairwise fun a b => decide (a.1 ≤ b.1) = true := by
    refine List.pairwise_of_forall_mem_list fun a ha b hb => ?_
    simp only [List.mem_filter, beq_iff_eq] at ha hb
    simp [ha.2, hb.2]
  have hfilter : (xs.filter (·.1 == k)).Sublist xs := List.filter_sublist
  have hsub := (List.sublist_mergeSort byId_trans byId_total hsame hfilter).filter (·.1 == k)
  simp only [List.filter_filter, Bool.and_self] at hsub
  refine (hsub.eq_of_length ?_).symm
  exact (((List.mergeSort_perm xs _).filter _).length_eq).symm

/-- The map finds for each id the last pair of the list with that id, as if the pairs were
inserted in order. -/
lemma find?_ofList_last (xs : List (Nat × α)) (k : Nat) :
    (ofList xs).find? k = (xs.filter (·.1 == k)).getLast?.map (·.2) := by
  rw [find?, ofList, lookup_lastOfRuns (mergeSort_pairwise xs), filter_mergeSort]

end IdMap

end ConicForm
