import Mathlib.Tactic

/-!
# Footprints

A state is read through named parts, and a step's footprint is a list of the
names it may have changed: every other part reads the same before and after.
Footprints compose along a sequence of steps, and a property of some parts
survives every step whose footprint avoids them.

* **`Writes.trans`** — two steps in a row write what either writes.
* **`Writes.mono`** — a footprint may be enlarged.
-/

namespace Lib

universe u v w

variable {ι : Type u} {σ : Type v} {β : ι → Type w}

/-- From `s` to `t` only the named parts changed. -/
def Writes (read : ∀ i, σ → β i) (is : List ι) (s t : σ) : Prop :=
  ∀ i, i ∉ is → read i t = read i s

namespace Writes

variable {read : ∀ i, σ → β i} {is js : List ι} {s t u : σ}

theorem refl (s : σ) : Writes read is s s := fun _ _ => rfl

theorem trans (h : Writes read is s t) (h' : Writes read is t u) : Writes read is s u := by
  intro i hi
  rw [h' i hi, h i hi]

theorem mono (h : Writes read is s t) (hsub : is ⊆ js) : Writes read js s t := by
  intro i hi
  exact h i fun hmem => hi (hsub hmem)

/-- A fold of steps that each keep to the footprint. -/
theorem foldl {α : Type*} {f : σ → α → σ} (hf : ∀ s a, Writes read is s (f s a)) (as : List α)
    (s : σ) : Writes read is s (as.foldl f s) := by
  induction as generalizing s with
  | nil => exact refl s
  | cons a as ih => exact (hf s a).trans (ih (f s a))

end Writes

end Lib
