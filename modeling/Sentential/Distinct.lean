/-!
# First occurrences

Lists without their repetitions: of the members that share a key, the one that stands first stays.
-/

namespace Sentential

universe u w

/-- The members of a list, less those whose key an earlier member has. -/
def firstOccurrences {α : Type u} {κ : Type w} [DecidableEq κ] (key : α → κ) : List α → List α
  | [] => []
  | a :: rest => a :: (firstOccurrences key rest).filter (fun b => decide (key b ≠ key a))

/-- The distinct members of a list, each where it first stood. -/
def distinct {α : Type u} [DecidableEq α] (l : List α) : List α := firstOccurrences id l

theorem mem_firstOccurrences_key {α : Type u} {κ : Type w} [DecidableEq κ] (key : α → κ)
    (l : List α) (k : κ) : k ∈ (firstOccurrences key l).map key ↔ k ∈ l.map key := by
  induction l with
  | nil => simp [firstOccurrences]
  | cons a rest ih =>
    by_cases h : k = key a
    · simp [firstOccurrences, h]
    · simp only [List.mem_map] at ih
      simp only [firstOccurrences, List.map_cons, List.mem_cons, h, false_or, List.mem_map,
        List.mem_filter, decide_eq_true_eq]
      rw [← ih]
      constructor
      · rintro ⟨b, ⟨hb, _⟩, e⟩
        exact ⟨b, hb, e⟩
      · rintro ⟨b, hb, e⟩
        exact ⟨b, ⟨hb, fun e' => h (e.symm.trans e')⟩, e⟩

theorem nodup_firstOccurrences {α : Type u} {κ : Type w} [DecidableEq κ] (key : α → κ)
    (l : List α) : ((firstOccurrences key l).map key).Nodup := by
  induction l with
  | nil => simp [firstOccurrences]
  | cons a rest ih =>
    rw [firstOccurrences, List.map_cons, List.nodup_cons]
    refine ⟨?_, ih.sublist (List.filter_sublist.map key)⟩
    simp only [List.mem_map, List.mem_filter, decide_eq_true_eq, not_exists, not_and, and_imp]
    exact fun b _ hb => hb

theorem mem_distinct {α : Type u} [DecidableEq α] (l : List α) (a : α) :
    a ∈ distinct l ↔ a ∈ l := by
  have h := mem_firstOccurrences_key (id : α → α) l a
  simpa [distinct] using h

theorem nodup_distinct {α : Type u} [DecidableEq α] (l : List α) : (distinct l).Nodup := by
  have h := nodup_firstOccurrences (id : α → α) l
  simpa [distinct] using h

theorem distinct_cons {α : Type u} [DecidableEq α] (a : α) (l : List α) :
    distinct (a :: l) = a :: (distinct l).filter (fun b => decide (b ≠ a)) := rfl

/-- Keys that are repeated count once, where they first stand. -/
theorem map_firstOccurrences {α : Type u} {κ : Type w} [DecidableEq κ] (key : α → κ)
    (l : List α) : (firstOccurrences key l).map key = distinct (l.map key) := by
  induction l with
  | nil => rfl
  | cons a rest ih =>
    rw [firstOccurrences, List.map_cons, List.map_cons, distinct_cons, ← ih, List.filter_map]
    rfl

theorem distinct_filter {α : Type u} [DecidableEq α] (p : α → Bool) (l : List α) :
    distinct (l.filter p) = (distinct l).filter p := by
  induction l with
  | nil => rfl
  | cons a rest ih =>
    cases kept : p a with
    | true =>
      rw [List.filter_cons_of_pos kept, distinct_cons, distinct_cons, List.filter_cons_of_pos kept,
        ih, List.filter_filter, List.filter_filter]
      exact congrArg _ (List.filter_congr fun b _ => Bool.and_comm _ _)
    | false =>
      have other : ∀ b, (p b && decide (b ≠ a)) = p b := by
        intro b
        by_cases same : b = a
        · simp [same, kept]
        · simp [same]
      rw [List.filter_cons_of_neg (by simp [kept]), distinct_cons,
        List.filter_cons_of_neg (by simp [kept]), ih, List.filter_filter]
      exact List.filter_congr fun b _ => (other b).symm

/-- A member with a new key stands behind all others. -/
theorem firstOccurrences_concat_of_notMem {α : Type u} {κ : Type w} [DecidableEq κ] {key : α → κ}
    {a : α} {l : List α} (new : key a ∉ l.map key) :
    firstOccurrences key (l ++ [a]) = firstOccurrences key l ++ [a] := by
  induction l with
  | nil => rfl
  | cons b rest ih =>
    rw [List.map_cons, List.mem_cons, not_or] at new
    rw [List.cons_append, firstOccurrences, ih new.2, List.filter_append, firstOccurrences,
      List.cons_append, List.filter_cons_of_pos (by simp [new.1]), List.filter_nil]

theorem distinct_concat_of_notMem {α : Type u} [DecidableEq α] {a : α} {l : List α}
    (new : a ∉ l) : distinct (l ++ [a]) = distinct l ++ [a] :=
  firstOccurrences_concat_of_notMem (show id a ∉ l.map id by rwa [List.map_id])

theorem distinct_of_nodup {α : Type u} [DecidableEq α] {l : List α} (nodup : l.Nodup) :
    distinct l = l := by
  induction l with
  | nil => rfl
  | cons a rest ih =>
    rw [List.nodup_cons] at nodup
    rw [distinct_cons, ih nodup.2, List.filter_eq_self.mpr]
    intro b mem
    exact decide_eq_true fun same => nodup.1 (same ▸ mem)

/-- Of a second list, what the first one lacks is left. -/
theorem distinct_append {α : Type u} [DecidableEq α] (l r : List α) :
    distinct (l ++ r) = distinct l ++ (distinct r).filter (fun a => decide (a ∉ l)) := by
  induction l with
  | nil =>
    rw [List.nil_append, List.filter_eq_self.mpr (by simp)]
    rfl
  | cons a rest ih =>
    rw [List.cons_append, distinct_cons, ih, distinct_cons, List.filter_append,
      List.filter_filter, List.cons_append]
    congr 3
    ext b
    simp [List.mem_cons, not_or]

theorem distinct_distinct_append {α : Type u} [DecidableEq α] (l r : List α) :
    distinct (distinct l ++ r) = distinct (l ++ r) := by
  rw [distinct_append, distinct_append, distinct_of_nodup (nodup_distinct l)]
  simp only [mem_distinct]

/-- Members that are there already add nothing. -/
theorem distinct_append_of_subset {α : Type u} [DecidableEq α] {l r : List α} (nodup : l.Nodup)
    (known : ∀ a ∈ r, a ∈ l) : distinct (l ++ r) = l := by
  rw [distinct_append, distinct_of_nodup nodup, List.filter_eq_nil_iff.mpr, List.append_nil]
  intro a mem
  simpa using known a ((mem_distinct r a).mp mem)

/-- The distinct members stand in the order in which they first occur. -/
theorem pairwise_idxOf_distinct {α : Type u} [DecidableEq α] (l : List α) :
    (distinct l).Pairwise (fun a b => l.idxOf a < l.idxOf b) := by
  induction l with
  | nil => exact List.Pairwise.nil
  | cons a rest ih =>
    have later : ∀ {b : α}, b ≠ a → (a :: rest).idxOf b = rest.idxOf b + 1 :=
      fun ne => by rw [List.idxOf_cons, beq_false_of_ne ne.symm, cond_false]
    have others : ∀ b ∈ (distinct rest).filter (fun b => decide (b ≠ a)), b ≠ a :=
      fun b mem => of_decide_eq_true (List.mem_filter.mp mem).2
    rw [distinct_cons, List.pairwise_cons]
    constructor
    · intro b mem
      rw [later (others b mem), List.idxOf_cons_self]
      exact Nat.succ_pos _
    · refine (ih.filter _).imp_of_mem fun memB memC less => ?_
      rw [later (others _ memB), later (others _ memC)]
      exact Nat.succ_lt_succ less

end Sentential
