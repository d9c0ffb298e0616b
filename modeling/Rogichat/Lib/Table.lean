import Mathlib.Data.List.Pairwise
import Mathlib.Tactic

/-!
# Keyed tables

A relational table as the list of its rows, in insertion order, together with
the proof that no two of them share a key. A row has one key for each unique
index it takes part in (`Row.keys`): its primary key, and the other unique
indexes whose columns it does not leave null. `insert` refuses a row that shares
a key with a stored one, `update` may only be used with a change that leaves the
keys alone, and so an ill-keyed table cannot be built.

* **`mem_insert`, `mem_put`, `mem_update`, `mem_delete`** — what each write leaves
  in the table, row by row. Every invariant is proved through these.
* **`Confined`** — writes that add rows to one part of the table only.
* **`eq_of_key`** — stored rows that share a key are the same row.
* **`find?_eq_some`** — a lookup by a unique index returns the row.
-/

namespace Lib

universe u

/-- Row types with the keys of their unique indexes. -/
class Row (ρ : Type u) where
  Key : Type
  decEq : DecidableEq Key
  keys : ρ → List Key
  keyed : ∀ r, keys r ≠ []

instance {ρ : Type u} [Row ρ] : DecidableEq (Row.Key ρ) := Row.decEq

/-- Agreement on some unique index. -/
def Row.Clash {ρ : Type u} [Row ρ] (r s : ρ) : Prop := ∃ k ∈ Row.keys r, k ∈ Row.keys s

instance {ρ : Type u} [Row ρ] (r s : ρ) : Decidable (Row.Clash r s) :=
  inferInstanceAs (Decidable (∃ k ∈ Row.keys r, k ∈ Row.keys s))

/-- A list of rows no two of which clash. -/
structure Table (ρ : Type u) [Row ρ] where
  rows : List ρ
  unique : rows.Pairwise fun r s => ¬Row.Clash r s

namespace Table

variable {ρ : Type u} [Row ρ]

/-- The table without rows. -/
def empty : Table ρ := ⟨[], List.Pairwise.nil⟩

instance : Membership ρ (Table ρ) := ⟨fun t r => r ∈ t.rows⟩

theorem mem_rows {t : Table ρ} {r : ρ} : r ∈ t.rows ↔ r ∈ t := Iff.rfl

@[simp] theorem not_mem_empty (r : ρ) : ¬ r ∈ (empty : Table ρ) := by
  intro h
  exact absurd h List.not_mem_nil

/-- The first row with the property. -/
def find? (t : Table ρ) (p : ρ → Prop) [DecidablePred p] : Option ρ :=
  t.rows.find? fun r => decide (p r)

/-- All rows with the property, in insertion order. -/
def select (t : Table ρ) (p : ρ → Prop) [DecidablePred p] : List ρ :=
  t.rows.filter fun r => decide (p r)

/-- Some row has the property. -/
def Has (t : Table ρ) (p : ρ → Prop) : Prop := ∃ r ∈ t.rows, p r

instance (t : Table ρ) (p : ρ → Prop) [DecidablePred p] : Decidable (t.Has p) :=
  inferInstanceAs (Decidable (∃ r ∈ t.rows, p r))

/-- Add a row, unless it clashes with a stored one. -/
def insert (t : Table ρ) (r : ρ) : Option (Table ρ) :=
  if h : ∀ s ∈ t.rows, ¬Row.Clash s r then
    some ⟨t.rows ++ [r], by
      rw [List.pairwise_append]
      refine ⟨t.unique, List.pairwise_singleton _ _, ?_⟩
      intro s hs r' hr'
      rw [List.mem_singleton.mp hr']
      exact h s hs⟩
  else none

/-- A change of a row that no unique index sees. -/
structure Keeps (f : ρ → ρ) : Prop where
  keys : ∀ r, Row.keys (f r) = Row.keys r

/-- Change the rows with the property. -/
def update (t : Table ρ) (p : ρ → Prop) [DecidablePred p] (f : ρ → ρ)
    (k : Keeps f := by exact ⟨fun _ => rfl⟩) : Table ρ :=
  ⟨t.rows.map fun r => if p r then f r else r, by
    rw [List.pairwise_map]
    refine t.unique.imp ?_
    intro r s h
    have keep : ∀ r : ρ, Row.keys (if p r then f r else r) = Row.keys r := by
      intro r
      split
      · exact k.keys r
      · rfl
    unfold Row.Clash
    rw [keep, keep]
    exact h⟩

/-- Add rows one by one. -/
def insertAll (t : Table ρ) : List ρ → Option (Table ρ)
  | [] => some t
  | r :: rs => (t.insert r).bind fun t' => t'.insertAll rs

/-- The least row with the property, for an order on the rows. -/
def first? (t : Table ρ) (p : ρ → Prop) [DecidablePred p] (le : ρ → ρ → Prop)
    [DecidableRel le] : Option ρ :=
  ((t.select p).insertionSort le).head?

/-- Drop the rows with the property. -/
def delete (t : Table ρ) (p : ρ → Prop) [DecidablePred p] : Table ρ :=
  ⟨t.rows.filter fun r => !decide (p r), t.unique.filter _⟩

/-- Add a row in place of those it clashes with, as `INSERT OR REPLACE` does. -/
def put (t : Table ρ) (r : ρ) : Table ρ :=
  ⟨(t.delete fun s => Row.Clash s r).rows ++ [r], by
    rw [List.pairwise_append]
    refine ⟨(t.delete fun s => Row.Clash s r).unique, List.pairwise_singleton _ _, ?_⟩
    intro s hs r' hr'
    rw [List.mem_singleton.mp hr']
    have hkept := (List.mem_filter.mp hs).2
    simpa using hkept⟩

/-! ## What a write leaves -/

theorem insert_eq_some {t t' : Table ρ} {r : ρ} :
    t.insert r = some t' ↔ (∀ s ∈ t, ¬Row.Clash s r) ∧ t'.rows = t.rows ++ [r] := by
  unfold insert
  constructor
  · intro h
    split at h
    · rename_i hc
      cases h
      exact ⟨hc, rfl⟩
    · cases h
  · rintro ⟨hc, hrows⟩
    cases t'
    cases hrows
    exact dif_pos hc

/-- A refused row clashed with a stored one. -/
theorem clash_of_insert {t : Table ρ} {r : ρ} (h : t.insert r = none) :
    ∃ s ∈ t, Row.Clash s r := by
  by_contra hfree
  unfold insert at h
  split at h
  · cases h
  · rename_i hclash
    exact hclash fun s hs hc => hfree ⟨s, hs, hc⟩

theorem mem_insert {t t' : Table ρ} {r s : ρ} (h : t.insert r = some t') :
    s ∈ t' ↔ s ∈ t ∨ s = r := by
  obtain ⟨-, hrows⟩ := insert_eq_some.mp h
  rw [← mem_rows, hrows, List.mem_append, List.mem_singleton, mem_rows]

/-- The new row clashed with nothing. -/
theorem fresh_of_insert {t t' : Table ρ} {r s : ρ} (h : t.insert r = some t')
    (hs : s ∈ t) : ¬Row.Clash s r :=
  (insert_eq_some.mp h).1 s hs

theorem mem_update {t : Table ρ} {p : ρ → Prop} [DecidablePred p] {f : ρ → ρ}
    {k : Keeps f} {s : ρ} :
    s ∈ t.update p f k ↔ ∃ r ∈ t, s = if p r then f r else r := by
  rw [← mem_rows]
  simp only [update, List.mem_map, mem_rows]
  constructor
  · rintro ⟨r, hr, rfl⟩
    exact ⟨r, hr, rfl⟩
  · rintro ⟨r, hr, rfl⟩
    exact ⟨r, hr, rfl⟩

theorem mem_update_of_mem {t : Table ρ} {p : ρ → Prop} [DecidablePred p] {f : ρ → ρ}
    {k : Keeps f} {r : ρ} (hr : r ∈ t) : (if p r then f r else r) ∈ t.update p f k :=
  mem_update.mpr ⟨r, hr, rfl⟩

theorem mem_insertAll {rs : List ρ} {t t' : Table ρ} {s : ρ} (h : t.insertAll rs = some t') :
    s ∈ t' ↔ s ∈ t ∨ s ∈ rs := by
  induction rs generalizing t with
  | nil =>
    simp only [insertAll, Option.some.injEq] at h
    simp [h]
  | cons r rs ih =>
    simp only [insertAll, Option.bind_eq_some_iff] at h
    obtain ⟨u, hu, hrest⟩ := h
    rw [ih hrest, mem_insert hu, List.mem_cons, or_assoc]

/-- Rows added at once stand at the end, in their order. -/
theorem rows_insertAll {rs : List ρ} {t t' : Table ρ} (h : t.insertAll rs = some t') :
    t'.rows = t.rows ++ rs := by
  induction rs generalizing t with
  | nil =>
    simp only [insertAll, Option.some.injEq] at h
    simp [h]
  | cons r rs ih =>
    simp only [insertAll, Option.bind_eq_some_iff] at h
    obtain ⟨u, hu, hrest⟩ := h
    rw [ih hrest, (insert_eq_some.mp hu).2, List.append_assoc, List.singleton_append]

/-- No row of a list added at once clashed with a stored one. -/
theorem fresh_of_insertAll {rs : List ρ} {t t' : Table ρ} {r s : ρ}
    (h : t.insertAll rs = some t') (hr : r ∈ rs) (hs : s ∈ t) : ¬Row.Clash s r := by
  induction rs generalizing t with
  | nil => exact absurd hr List.not_mem_nil
  | cons r' rs ih =>
    simp only [insertAll, Option.bind_eq_some_iff] at h
    obtain ⟨u, hu, hrest⟩ := h
    rcases List.mem_cons.mp hr with rfl | hr
    · exact fresh_of_insert hu hs
    · exact ih hrest hr ((mem_insert hu).mpr (.inl hs))

/-- Changing no row changes nothing. -/
theorem update_eq_self {t : Table ρ} {p : ρ → Prop} [DecidablePred p] {f : ρ → ρ}
    {k : Keeps f} (h : ∀ r ∈ t, ¬p r) : t.update p f k = t := by
  cases t with
  | mk rows unique =>
    have hrows : (rows.map fun r => if p r then f r else r) = rows :=
      calc (rows.map fun r => if p r then f r else r)
          = rows.map id := List.map_congr_left fun r hr => if_neg (h r hr)
        _ = rows := List.map_id rows
    simp only [update, hrows]

/-- Two changes of the same rows are one. -/
theorem update_update {t : Table ρ} {p : ρ → Prop} [DecidablePred p] {f g : ρ → ρ}
    {kf : Keeps f} {kg : Keeps g} (hp : ∀ r, p r → p (f r)) :
    (t.update p f kf).update p g kg =
      t.update p (fun r => g (f r)) ⟨fun r => (kg.keys (f r)).trans (kf.keys r)⟩ := by
  simp only [update, List.map_map]
  congr 1
  refine List.map_congr_left ?_
  intro r _
  by_cases h : p r
  · simp [h, hp r h]
  · simp [h]

theorem mem_delete {t : Table ρ} {p : ρ → Prop} [DecidablePred p] {s : ρ} :
    s ∈ t.delete p ↔ s ∈ t ∧ ¬p s := by
  rw [← mem_rows]
  simp [delete, List.mem_filter, mem_rows]

theorem mem_put {t : Table ρ} {r s : ρ} :
    s ∈ t.put r ↔ (s ∈ t ∧ ¬Row.Clash s r) ∨ s = r := by
  rw [← mem_rows]
  simp only [put, List.mem_append, List.mem_singleton, mem_rows, mem_delete]

/-! ## Writes within one part -/

/-- The rows of a table, by the part `f` puts them in: from `t` to `t'` only the part `k` may
have gained rows. -/
def Confined {κ : Type*} (f : ρ → κ) (k : κ) (t t' : Table ρ) : Prop :=
  ∀ r ∈ t', f r = k ∨ ∃ s ∈ t, f s = f r

namespace Confined

variable {κ : Type*} {f : ρ → κ} {k : κ} {t t' t'' : Table ρ}

theorem refl (t : Table ρ) : Confined f k t t := fun r hr => .inr ⟨r, hr, rfl⟩

theorem trans (h : Confined f k t t') (h' : Confined f k t' t'') : Confined f k t t'' := by
  intro r hr
  rcases h' r hr with hk | ⟨s, hs, hsr⟩
  · exact .inl hk
  · rcases h s hs with hk | ⟨u, hu, hus⟩
    · exact .inl (hsr ▸ hk)
    · exact .inr ⟨u, hu, hus.trans hsr⟩

theorem put {r : ρ} (hr : f r = k) : Confined f k t (t.put r) := by
  intro s hs
  rcases mem_put.mp hs with ⟨hs, -⟩ | rfl
  · exact .inr ⟨s, hs, rfl⟩
  · exact .inl hr

theorem update {p : ρ → Prop} [DecidablePred p] {g : ρ → ρ} {hg : Keeps g}
    (hf : ∀ r, f (g r) = f r) : Confined f k t (t.update p g hg) := by
  intro s hs
  obtain ⟨r, hr, rfl⟩ := mem_update.mp hs
  refine .inr ⟨r, hr, ?_⟩
  split
  · exact (hf r).symm
  · rfl

theorem delete {p : ρ → Prop} [DecidablePred p] : Confined f k t (t.delete p) := by
  intro s hs
  exact .inr ⟨s, (mem_delete.mp hs).1, rfl⟩

theorem insert {r : ρ} (h : t.insert r = some t') (hr : f r = k) : Confined f k t t' := by
  intro s hs
  rcases (mem_insert h).mp hs with hs | rfl
  · exact .inr ⟨s, hs, rfl⟩
  · exact .inl hr

theorem insertAll {rs : List ρ} (h : t.insertAll rs = some t') (hrs : ∀ r ∈ rs, f r = k) :
    Confined f k t t' := by
  intro s hs
  rcases (mem_insertAll h).mp hs with hs | hs
  · exact .inr ⟨s, hs, rfl⟩
  · exact .inl (hrs s hs)

/-- A part other than `k` that has a row had one before. -/
theorem has {l : κ} (h : Confined f k t t') (hl : l ≠ k) (hhas : t'.Has fun r => f r = l) :
    t.Has fun r => f r = l := by
  obtain ⟨r, hr, hrl⟩ := hhas
  rcases h r hr with hk | ⟨s, hs, hsr⟩
  · exact absurd (hrl.symm.trans hk) hl
  · exact ⟨s, hs, hsr.trans hrl⟩

end Confined

/-! ## Reads -/

theorem nodup (t : Table ρ) : t.rows.Nodup := by
  refine t.unique.imp ?_
  rintro r s h rfl
  obtain ⟨k, hk⟩ := List.exists_mem_of_ne_nil _ (Row.keyed r)
  exact h ⟨k, hk, hk⟩

theorem mem_select {t : Table ρ} {p : ρ → Prop} [DecidablePred p] {r : ρ} :
    r ∈ t.select p ↔ r ∈ t ∧ p r := by
  simp [select, List.mem_filter, mem_rows]

/-- The only row with a property is selected alone. -/
theorem select_eq_singleton {t : Table ρ} {p : ρ → Prop} [DecidablePred p] {r : ρ} (hr : r ∈ t)
    (hp : p r) (huniq : ∀ s ∈ t, p s → s = r) : t.select p = [r] := by
  have hnodup : (t.select p).Nodup := t.nodup.filter _
  have hall : ∀ s ∈ t.select p, s = r := by
    intro s hs
    obtain ⟨hs, hps⟩ := mem_select.mp hs
    exact huniq s hs hps
  have hmem : r ∈ t.select p := mem_select.mpr ⟨hr, hp⟩
  cases hrows : t.select p with
  | nil =>
    rw [hrows] at hmem
    exact absurd hmem List.not_mem_nil
  | cons s rest =>
    rw [hrows] at hnodup hall
    obtain rfl := hall s List.mem_cons_self
    cases rest with
    | nil => rfl
    | cons s' rest =>
      obtain rfl := hall s' (List.mem_cons_of_mem _ List.mem_cons_self)
      exact absurd List.mem_cons_self (List.nodup_cons.mp hnodup).1

/-- A selection that a change of other rows does not affect. -/
theorem select_update {t : Table ρ} {p q : ρ → Prop} [DecidablePred p] [DecidablePred q]
    {f : ρ → ρ} {k : Keeps f} (hq : ∀ r, q (f r) ↔ q r) (h : ∀ r ∈ t, p r → ¬q r) :
    (t.update p f k).select q = t.select q := by
  have hrows : ∀ rows : List ρ, (∀ r ∈ rows, p r → ¬q r) →
      (rows.map fun r => if p r then f r else r).filter (fun r => decide (q r)) =
        rows.filter fun r => decide (q r) := by
    intro rows hrows
    induction rows with
    | nil => rfl
    | cons r rows ih =>
      have htail := ih fun s hs => hrows s (List.mem_cons_of_mem _ hs)
      rw [List.map_cons, List.filter_cons, List.filter_cons, htail]
      by_cases hp : p r
      · have hnot := hrows r List.mem_cons_self hp
        simp [hp, hq, hnot]
      · simp [hp]
  exact hrows t.rows h

/-- A selection that a deletion of other rows does not affect. -/
theorem select_delete {t : Table ρ} {p q : ρ → Prop} [DecidablePred p] [DecidablePred q]
    (h : ∀ r ∈ t, p r → ¬q r) : (t.delete p).select q = t.select q := by
  unfold select delete
  rw [List.filter_filter]
  refine List.filter_congr ?_
  intro r hr
  by_cases hp : p r
  · simp [hp, h r hr hp]
  · simp [hp]

/-- A selection that an insertion of another row does not affect. -/
theorem select_insert {t t' : Table ρ} {r : ρ} (h : t.insert r = some t') {q : ρ → Prop}
    [DecidablePred q] (hr : ¬q r) : t'.select q = t.select q := by
  unfold select
  rw [(insert_eq_some.mp h).2, List.filter_append]
  simp [hr]

theorem has_iff {t : Table ρ} {p : ρ → Prop} : t.Has p ↔ ∃ r ∈ t, p r := Iff.rfl

theorem mem_of_find? {t : Table ρ} {p : ρ → Prop} [DecidablePred p] {r : ρ}
    (h : t.find? p = some r) : r ∈ t := List.mem_of_find?_eq_some h

theorem holds_of_find? {t : Table ρ} {p : ρ → Prop} [DecidablePred p] {r : ρ}
    (h : t.find? p = some r) : p r := by
  unfold find? at h
  have := List.find?_some h
  exact of_decide_eq_true this

/-- A lookup that a change of the rows does not affect. -/
theorem find?_update {t : Table ρ} {p q : ρ → Prop} [DecidablePred p] [DecidablePred q]
    {f : ρ → ρ} {k : Keeps f} (hq : ∀ r, q (f r) ↔ q r) :
    (t.update p f k).find? q = (t.find? q).map fun r => if p r then f r else r := by
  unfold find? update
  rw [List.find?_map]
  congr 2
  funext r
  by_cases hp : p r
  · simp [hp, hq]
  · simp [hp]

/-- A lookup after an insertion: the old rows come first. -/
theorem find?_insert {t t' : Table ρ} {r : ρ} (h : t.insert r = some t') (q : ρ → Prop)
    [DecidablePred q] : t'.find? q = (t.find? q).or (if q r then some r else none) := by
  unfold find?
  rw [(insert_eq_some.mp h).2, List.find?_append]
  by_cases hq : q r <;> simp [hq]

theorem has_update {t : Table ρ} {p q : ρ → Prop} [DecidablePred p] {f : ρ → ρ}
    {k : Keeps f} (hq : ∀ r, q (f r) ↔ q r) : (t.update p f k).Has q ↔ t.Has q := by
  constructor
  · rintro ⟨r, hr, hqr⟩
    obtain ⟨s, hs, rfl⟩ := mem_update.mp hr
    refine ⟨s, hs, ?_⟩
    split at hqr
    · exact (hq s).mp hqr
    · exact hqr
  · rintro ⟨r, hr, hqr⟩
    refine ⟨_, mem_update_of_mem hr, ?_⟩
    split
    · exact (hq r).mpr hqr
    · exact hqr

theorem first?_some {t : Table ρ} {p : ρ → Prop} [DecidablePred p] {le : ρ → ρ → Prop}
    [DecidableRel le] {r : ρ} (h : t.first? p le = some r) : r ∈ t ∧ p r := by
  have hmem := List.mem_of_head? h
  rw [List.mem_insertionSort] at hmem
  exact mem_select.mp hmem

/-- The first row of an order is below every row with the property. -/
theorem first?_le {t : Table ρ} {p : ρ → Prop} [DecidablePred p] {le : ρ → ρ → Prop}
    [DecidableRel le] [Std.Total le] [IsTrans ρ le] {r s : ρ} (h : t.first? p le = some r)
    (hs : s ∈ t) (hp : p s) : le r s := by
  have hsorted := List.pairwise_insertionSort le (t.select p)
  have hmem : s ∈ (t.select p).insertionSort le :=
    (List.mem_insertionSort le).mpr (mem_select.mpr ⟨hs, hp⟩)
  unfold first? at h
  obtain ⟨rest, hrest⟩ := List.head?_eq_some_iff.mp h
  rw [hrest] at hsorted hmem
  rcases List.mem_cons.mp hmem with rfl | hmem
  · exact (or_self_iff.mp (Std.Total.total (r := le) s s))
  · exact (List.pairwise_cons.mp hsorted).1 s hmem

theorem first?_eq_none {t : Table ρ} {p : ρ → Prop} [DecidablePred p] {le : ρ → ρ → Prop}
    [DecidableRel le] : t.first? p le = none ↔ ∀ r ∈ t, ¬p r := by
  unfold first?
  rw [List.head?_eq_none_iff, ← List.length_eq_zero_iff, List.length_insertionSort,
    List.length_eq_zero_iff]
  constructor
  · intro h r hr hp
    have := mem_select.mpr ⟨hr, hp⟩
    rw [h] at this
    exact absurd this List.not_mem_nil
  · intro h
    rw [List.eq_nil_iff_forall_not_mem]
    intro r hr
    obtain ⟨hr, hp⟩ := mem_select.mp hr
    exact h r hr hp

theorem find?_eq_none {t : Table ρ} {p : ρ → Prop} [DecidablePred p] :
    t.find? p = none ↔ ∀ r ∈ t, ¬p r := by
  unfold find?
  rw [List.find?_eq_none]
  simp [mem_rows]

theorem find?_isSome {t : Table ρ} {p : ρ → Prop} [DecidablePred p] :
    (t.find? p).isSome = true ↔ ∃ r ∈ t, p r := by
  unfold find?
  rw [List.find?_isSome]
  simp [mem_rows]

/-- Stored rows that share a key are one row. -/
theorem eq_of_key {t : Table ρ} {r s : ρ} (hr : r ∈ t) (hs : s ∈ t) {k : Row.Key ρ}
    (hkr : k ∈ Row.keys r) (hks : k ∈ Row.keys s) : r = s := by
  by_contra hne
  have : Std.Symm fun a b : ρ => ¬Row.Clash a b := by
    constructor
    rintro a b hab ⟨k, hb, ha⟩
    exact hab ⟨k, ha, hb⟩
  exact t.unique.forall hr hs hne ⟨k, hkr, hks⟩

/-- A lookup returns the row with the property when every other row with it
shares its key, as for a property that fixes a unique index. -/
theorem find?_eq_some {t : Table ρ} {p : ρ → Prop} [DecidablePred p] {r : ρ} (hr : r ∈ t)
    (hp : p r) {k : Row.Key ρ} (hk : k ∈ Row.keys r) (huniq : ∀ s, p s → k ∈ Row.keys s) :
    t.find? p = some r := by
  cases h : t.find? p with
  | none => exact absurd hp (find?_eq_none.mp h r hr)
  | some s => rw [eq_of_key (mem_of_find? h) hr (huniq s (holds_of_find? h)) hk]

end Table

end Lib
