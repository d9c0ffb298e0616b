import Mathlib.Data.List.Dedup
import Mathlib.Data.List.Sort
import Rogichat.Lib.Outcome

/-!
# Sorted listings

Rows selected and then sorted, the way a query lists them. Sorting is stable, and so the part
of a sorted listing with some property is that part of the rows, sorted.

* **`filter_insertionSort`** — selecting before sorting or after it.
* **`filter_dedup`** — selecting before or after repetitions are dropped.
* **`mem_take_or_full`** — a row that a batch leaves stands behind a full batch.
* **`length_filter_taken`** — what a batch of a sorted listing leaves.
-/

namespace Lib.Listing

universe u v

variable {α : Type u} (r : α → α → Prop) [DecidableRel r] (p : α → Bool)

theorem orderedInsert_of_forall {a : α} {l : List α} (h : ∀ b ∈ l, r a b) :
    l.orderedInsert r a = a :: l := by
  cases l with
  | nil => rfl
  | cons b l => rw [List.orderedInsert, if_pos (h b List.mem_cons_self)]

/-- A row that is left out leaves no trace. -/
theorem filter_orderedInsert_neg {a : α} (ha : p a = false) (l : List α) :
    (l.orderedInsert r a).filter p = l.filter p := by
  induction l with
  | nil => simp [ha]
  | cons b l ih =>
    rw [List.orderedInsert]
    split
    · rw [List.filter_cons_of_neg (by simp [ha])]
    · rw [List.filter_cons, List.filter_cons, ih]

/-- A row that is kept takes its place among the rows that are. -/
theorem filter_orderedInsert_pos [IsTrans α r] {a : α} (ha : p a = true) {l : List α}
    (hl : l.Pairwise r) : (l.orderedInsert r a).filter p = (l.filter p).orderedInsert r a := by
  induction l with
  | nil => simp [ha]
  | cons b l ih =>
    rw [List.pairwise_cons] at hl
    rw [List.orderedInsert]
    by_cases hab : r a b
    · rw [if_pos hab, List.filter_cons_of_pos ha]
      refine (orderedInsert_of_forall r ?_).symm
      intro c hc
      rcases List.mem_cons.mp (List.mem_of_mem_filter hc) with rfl | hmem
      · exact hab
      · exact IsTrans.trans a b c hab (hl.1 c hmem)
    · rw [if_neg hab]
      by_cases hb : p b = true
      · rw [List.filter_cons_of_pos hb, List.filter_cons_of_pos hb, ih hl.2, List.orderedInsert,
          if_neg hab]
      · rw [List.filter_cons_of_neg hb, List.filter_cons_of_neg hb, ih hl.2]

theorem filter_insertionSort [Std.Total r] [IsTrans α r] (l : List α) :
    (l.insertionSort r).filter p = (l.filter p).insertionSort r := by
  induction l with
  | nil => rfl
  | cons a l ih =>
    rw [List.insertionSort_cons]
    by_cases ha : p a = true
    · rw [filter_orderedInsert_pos r p ha (List.pairwise_insertionSort r l), ih,
        List.filter_cons_of_pos ha, List.insertionSort_cons]
    · rw [filter_orderedInsert_neg r p (by simpa using ha), ih, List.filter_cons_of_neg ha]

/-- The part of the different rows is the different rows of the part. -/
theorem filter_dedup [DecidableEq α] (l : List α) : l.dedup.filter p = (l.filter p).dedup := by
  induction l with
  | nil => rfl
  | cons a l ih =>
    by_cases ha : p a = true
    · rw [List.filter_cons_of_pos ha]
      by_cases hmem : a ∈ l
      · rw [List.dedup_cons_of_mem hmem, ih,
          List.dedup_cons_of_mem (List.mem_filter.mpr ⟨hmem, ha⟩)]
      · rw [List.dedup_cons_of_notMem hmem, List.filter_cons_of_pos ha, ih,
          List.dedup_cons_of_notMem fun h => hmem (List.mem_of_mem_filter h)]
    · rw [List.filter_cons_of_neg ha, ← ih]
      by_cases hmem : a ∈ l
      · rw [List.dedup_cons_of_mem hmem]
      · rw [List.dedup_cons_of_notMem hmem, List.filter_cons_of_neg ha]

/-- Looking among the selected rows is looking for a selected row. -/
theorem find?_select {β : Type*} (l : List α) (f : α → Option β) (q : β → Bool) :
    ((l.filter p).filterMap f).find? q =
      (l.find? fun a => p a && (f a).any q).bind f := by
  rw [List.find?_filterMap, List.find?_filter]
  congr 2
  funext a
  rw [Bool.eq_iff_iff]
  simp

/-- Rows computed one by one, all of which went through. -/
theorem mapM_cons_ok {ε β : Type u} {f : α → Except ε β} {a : α} {as : List α} {bs : List β} :
    (a :: as).mapM f = .ok bs ↔ ∃ b bs', f a = .ok b ∧ as.mapM f = .ok bs' ∧ bs = b :: bs' := by
  simp only [List.mapM_cons, bind_ok, pure_ok]
  constructor
  · rintro ⟨b, hb, bs', hbs', rfl⟩
    exact ⟨b, bs', hb, hbs', rfl⟩
  · rintro ⟨b, bs', hb, hbs', rfl⟩
    exact ⟨b, hb, bs', hbs', rfl⟩

theorem length_mapM {ε β : Type u} {f : α → Except ε β} {as : List α} {bs : List β}
    (h : as.mapM f = .ok bs) : bs.length = as.length := by
  induction as generalizing bs with
  | nil =>
    rw [List.mapM_nil, pure_ok] at h
    rw [← h, List.length_nil, List.length_nil]
  | cons a as ih =>
    obtain ⟨b, bs', -, hbs', rfl⟩ := mapM_cons_ok.mp h
    rw [List.length_cons, List.length_cons, ih hbs']

theorem mem_mapM {ε β : Type u} {f : α → Except ε β} {as : List α} {bs : List β}
    (h : as.mapM f = .ok bs) :
    (∀ b ∈ bs, ∃ a ∈ as, f a = .ok b) ∧ ∀ a ∈ as, ∃ b ∈ bs, f a = .ok b := by
  induction as generalizing bs with
  | nil =>
    rw [List.mapM_nil, pure_ok] at h
    subst h
    exact ⟨fun b hb => absurd hb List.not_mem_nil, fun a ha => absurd ha List.not_mem_nil⟩
  | cons a as ih =>
    obtain ⟨b, bs', hb, hbs', rfl⟩ := mapM_cons_ok.mp h
    obtain ⟨hleft, hright⟩ := ih hbs'
    constructor
    · intro c hc
      rcases List.mem_cons.mp hc with rfl | hc
      · exact ⟨a, List.mem_cons_self, hb⟩
      · obtain ⟨d, hd, hdc⟩ := hleft c hc
        exact ⟨d, List.mem_cons_of_mem a hd, hdc⟩
    · intro c hc
      rcases List.mem_cons.mp hc with rfl | hc
      · exact ⟨b, List.mem_cons_self, hb⟩
      · obtain ⟨d, hd, hcd⟩ := hright c hc
        exact ⟨d, List.mem_cons_of_mem b hd, hcd⟩

omit [DecidableRel r] in
/-- A row of a sorted listing is in its batch, or the batch is full of rows before it. -/
theorem mem_take_or_full {l : List α} (hsorted : l.Pairwise r) (n : ℕ) {a : α} (ha : a ∈ l) :
    a ∈ l.take n ∨ (l.take n).length = n ∧ ∀ b ∈ l.take n, r b a := by
  rw [← List.take_append_drop n l, List.mem_append] at ha
  rcases ha with ha | ha
  · exact .inl ha
  · refine .inr ⟨List.length_take_of_le (Nat.le_of_lt ?_), fun b hb => ?_⟩
    · by_contra hshort
      rw [List.drop_of_length_le (Nat.le_of_not_lt hshort)] at ha
      exact absurd ha List.not_mem_nil
    · rw [← List.take_append_drop n l, List.pairwise_append] at hsorted
      exact hsorted.2.2 b hb a ha

/-- What is left of a list when the first of its sorted rows go. -/
theorem length_filter_taken {β : Type u} {κ : Type v} [DecidableEq κ] {key : β → κ} {l sorted : List β}
    (hperm : sorted.Perm l) (hkeys : (l.map key).Nodup) (n : Nat) :
    (l.filter fun x => decide (key x ∉ (sorted.take n).map key)).length + min n l.length =
      l.length := by
  have hnodup : ((sorted.take n).map key ++ (sorted.drop n).map key).Nodup := by
    rw [← List.map_append, List.take_append_drop]
    exact (hperm.map key).nodup_iff.mpr hkeys
  have htaken : (sorted.take n).filter
      (fun x => decide (key x ∉ (sorted.take n).map key)) = [] := by
    rw [List.filter_eq_nil_iff]
    intro x hx
    simp only [decide_eq_true_eq, not_not]
    exact List.mem_map_of_mem hx
  have hrest : (sorted.drop n).filter
      (fun x => decide (key x ∉ (sorted.take n).map key)) = sorted.drop n := by
    rw [List.filter_eq_self]
    intro x hx
    rw [decide_eq_true_eq]
    intro hmem
    exact (List.nodup_append.mp hnodup).2.2 _ hmem _ (List.mem_map_of_mem hx) rfl
  have hlength : (l.filter fun x => decide (key x ∉ (sorted.take n).map key)).length =
      (sorted.drop n).length := by
    rw [← (hperm.filter _).length_eq, ← List.take_append_drop n sorted, List.filter_append,
      List.take_append_drop, htaken, hrest, List.nil_append]
  rw [hlength, List.length_drop, hperm.length_eq]
  omega

end Lib.Listing
