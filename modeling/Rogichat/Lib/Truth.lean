import Mathlib.Tactic

/-!
# Truth values of a query

A condition of a query is true, false or unknown: a comparison with a missing value is
unknown, and the connectives are Kleene's. A `WHERE` clause keeps the rows whose condition
is true, so an unknown condition drops a row just as its negation does.

* **`holds_not`, `fails_or`** and their like — when a compound condition is true and when it
  is false, which is how a negated condition is read.
-/

namespace Lib

/-- SQL's three truth values. -/
inductive Truth
  | true | false | unknown
  deriving DecidableEq, Repr

namespace Truth

variable {α : Type*}

/-- A condition on values that are there. -/
def of (p : Prop) [Decidable p] : Truth := if p then .true else .false

/-- A comparison of a value that may be missing. -/
def cmp (x : Option α) (p : α → Prop) [DecidablePred p] : Truth :=
  match x with
  | none => .unknown
  | some a => of (p a)

protected def not : Truth → Truth
  | .true => .false
  | .false => .true
  | .unknown => .unknown

protected def and : Truth → Truth → Truth
  | .false, _ | _, .false => .false
  | .true, t => t
  | .unknown, _ => .unknown

protected def or : Truth → Truth → Truth
  | .true, _ | _, .true => .true
  | .false, t => t
  | .unknown, _ => .unknown

/-- What a `WHERE` clause asks of its condition. -/
def Holds (t : Truth) : Prop := t = .true

/-- The value is false, so that its negation holds. -/
def Fails (t : Truth) : Prop := t = .false

instance (t : Truth) : Decidable t.Holds := inferInstanceAs (Decidable (t = .true))

instance (t : Truth) : Decidable t.Fails := inferInstanceAs (Decidable (t = .false))

variable {s t : Truth}

@[simp] theorem holds_of {p : Prop} [Decidable p] : (of p).Holds ↔ p := by
  unfold of Holds
  split <;> simp [*]

@[simp] theorem fails_of {p : Prop} [Decidable p] : (of p).Fails ↔ ¬p := by
  unfold of Fails
  split <;> simp [*]

@[simp] theorem holds_cmp {x : Option α} {p : α → Prop} [DecidablePred p] :
    (cmp x p).Holds ↔ ∃ a, x = some a ∧ p a := by
  cases x with
  | none => simp [cmp, Holds]
  | some a => exact holds_of.trans ⟨fun h => ⟨a, rfl, h⟩, fun h => by
      obtain ⟨b, hb, hp⟩ := h
      exact Option.some.inj hb ▸ hp⟩

@[simp] theorem fails_cmp {x : Option α} {p : α → Prop} [DecidablePred p] :
    (cmp x p).Fails ↔ ∃ a, x = some a ∧ ¬p a := by
  cases x with
  | none => simp [cmp, Fails]
  | some a => exact fails_of.trans ⟨fun h => ⟨a, rfl, h⟩, fun h => by
      obtain ⟨b, hb, hp⟩ := h
      exact Option.some.inj hb ▸ hp⟩

@[simp] theorem holds_not : t.not.Holds ↔ t.Fails := by
  cases t <;> simp [Truth.not, Holds, Fails]

@[simp] theorem fails_not : t.not.Fails ↔ t.Holds := by
  cases t <;> simp [Truth.not, Holds, Fails]

@[simp] theorem holds_and : (s.and t).Holds ↔ s.Holds ∧ t.Holds := by
  cases s <;> cases t <;> simp [Truth.and, Holds]

@[simp] theorem fails_and : (s.and t).Fails ↔ s.Fails ∨ t.Fails := by
  cases s <;> cases t <;> simp [Truth.and, Fails]

@[simp] theorem holds_or : (s.or t).Holds ↔ s.Holds ∨ t.Holds := by
  cases s <;> cases t <;> simp [Truth.or, Holds]

@[simp] theorem fails_or : (s.or t).Fails ↔ s.Fails ∧ t.Fails := by
  cases s <;> cases t <;> simp [Truth.or, Fails]

/-- A condition is not true and false at once. -/
theorem Holds.not_fails (h : t.Holds) : ¬t.Fails := by
  intro hf
  rw [Holds] at h
  rw [h, Fails] at hf
  exact absurd hf (by decide)

end Truth

end Lib
