import Rogichat.Lib.Table
import Rogichat.Lib.Trace

/-!
# Versioned rows

A row has a part that never changes and a version that every change of the rest raises. A
writer that names a version it has seen changes the row only while this is still its version.

* **`Ages.trans`** — over any sequence of writes every row has a later one.
* **`Ages.update`**, **`Ages.insert`** — the writes of a table.
* **`Run.ages`** — the run rule.
-/

namespace Lib

universe u v w

/-- A row's fixed part and its version. -/
structure Version (ρ : Type u) (κ : Type v) where
  fixed : ρ → κ
  version : ρ → Nat

namespace Version

variable {ρ : Type u} {κ : Type v} (V : Version ρ κ)

/-- The same row, unchanged or of a higher version. -/
def Later (r r' : ρ) : Prop :=
  V.fixed r' = V.fixed r ∧ (r' = r ∨ V.version r < V.version r')

variable {V}

theorem Later.refl (r : ρ) : V.Later r r := ⟨rfl, .inl rfl⟩

theorem Later.raised {r r' : ρ} (hfixed : V.fixed r' = V.fixed r)
    (h : V.version r < V.version r') : V.Later r r' := ⟨hfixed, .inr h⟩

theorem Later.le {r r' : ρ} (h : V.Later r r') : V.version r ≤ V.version r' := by
  rcases h.2 with rfl | hlt
  · exact Nat.le_refl _
  · exact Nat.le_of_lt hlt

theorem Later.trans {r r' r'' : ρ} (h : V.Later r r') (h' : V.Later r' r'') : V.Later r r'' := by
  refine ⟨h'.1.trans h.1, ?_⟩
  rcases h'.2 with rfl | hlt
  · exact h.2
  · exact .inr (Nat.lt_of_le_of_lt h.le hlt)

variable (V) [Row ρ]

/-- Every row of the first table has a later one in the second. -/
def Ages (t t' : Table ρ) : Prop := ∀ r ∈ t, ∃ r' ∈ t', V.Later r r'

variable {V}

theorem Ages.refl (t : Table ρ) : V.Ages t t := fun r hr => ⟨r, hr, .refl r⟩

theorem Ages.trans {t t' t'' : Table ρ} (h : V.Ages t t') (h' : V.Ages t' t'') :
    V.Ages t t'' := by
  intro r hr
  obtain ⟨r', hr', hlater⟩ := h r hr
  obtain ⟨r'', hr'', hlater'⟩ := h' r' hr'
  exact ⟨r'', hr'', hlater.trans hlater'⟩

/-- A change that raises the version of every row it changes. -/
theorem Ages.update {t : Table ρ} {p : ρ → Prop} [DecidablePred p] {f : ρ → ρ}
    {k : Table.Keeps f} (hf : ∀ r ∈ t, p r → V.Later r (f r)) : V.Ages t (t.update p f k) := by
  intro r hr
  refine ⟨_, Table.mem_update_of_mem hr, ?_⟩
  by_cases hp : p r
  · rw [if_pos hp]
    exact hf r hr hp
  · rw [if_neg hp]
    exact .refl r

theorem Ages.insert {t t' : Table ρ} {r : ρ} (h : t.insert r = some t') : V.Ages t t' :=
  fun s hs => ⟨s, (Table.mem_insert h).mpr (.inl hs), .refl s⟩

/-- What every step of a system leaves older, a run leaves older. -/
theorem Run.ages {σ : Type w} {α : Type*} {S : System σ α} (rows : σ → Table ρ)
    (hstep : ∀ s t c, S.step c s t → V.Ages (rows s) (rows t)) {s t : σ} {cs : List α}
    (h : S.Run s cs t) : V.Ages (rows s) (rows t) := by
  induction h with
  | nil => exact .refl _
  | cons hc _ ih => exact (hstep _ _ _ hc).trans ih

end Version

end Lib
