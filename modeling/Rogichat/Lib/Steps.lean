import Mathlib.Algebra.Order.Ring.Int
import Mathlib.Order.Lattice

/-!
# Counting loops

The values a loop goes through that counts up by a constant step.
-/

namespace Lib

/-- The values of `for (let k = start; k <= stop; k += step)`. -/
def steps (start stop step : Int) : List Int :=
  (List.range ((stop - start) / step + 1).toNat).map fun (i : Nat) => start + step * i

theorem mem_steps {start stop step k : Int} (h : 0 < step) :
    k ∈ steps start stop step ↔ ∃ i : Nat, k = start + step * i ∧ k ≤ stop := by
  have hcount : ∀ i : Nat, i < ((stop - start) / step + 1).toNat ↔ start + step * i ≤ stop := by
    intro i
    have hdiv := @Int.le_ediv_iff_mul_le i (stop - start) step h
    rw [mul_comm] at hdiv
    omega
  unfold steps
  rw [List.mem_map]
  constructor
  · rintro ⟨i, hi, rfl⟩
    exact ⟨i, rfl, (hcount i).mp (List.mem_range.mp hi)⟩
  · rintro ⟨i, rfl, hi⟩
    exact ⟨i, List.mem_range.mpr ((hcount i).mpr hi), rfl⟩

theorem steps_sorted (start stop : Int) {step : Int} (h : 0 < step) :
    (steps start stop step).Pairwise (· < ·) := by
  unfold steps
  rw [List.pairwise_map]
  refine List.pairwise_lt_range.imp fun hlt => ?_
  exact Int.add_lt_add_left (Int.mul_lt_mul_of_pos_left (Int.ofNat_lt.mpr hlt) h) start

theorem mem_steps_one {start stop k : Int} : k ∈ steps start stop 1 ↔ start ≤ k ∧ k ≤ stop := by
  rw [mem_steps (by decide)]
  constructor
  · rintro ⟨i, rfl, hi⟩
    omega
  · rintro ⟨hstart, hstop⟩
    exact ⟨(k - start).toNat, by omega, hstop⟩

theorem le_of_mem_steps {first start stop k : Int} (h : k ∈ steps (max first start) stop 1) :
    first ≤ k :=
  (le_max_left first start).trans (mem_steps_one.mp h).1

end Lib
