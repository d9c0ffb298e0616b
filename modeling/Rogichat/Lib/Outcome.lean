import Mathlib.Tactic

/-!
# Fallible commands

A command is a function into `Except ε`: it either returns a result or stops
with an error, and a command that stops has written nothing, because the state
it was building is part of the result it never returned. This file has the two
guards such a command is written with and the lemma that takes a finished
command apart, one bind at a time.

* **`ensure`** — go on only when a condition holds.
* **`require`** — go on only with the value of an optional lookup.
* **`bind_ok`** — a sequence returned iff its first part returned and its rest
  returned on that value.
* **`foldlM_rel`** — a loop whose rounds stay in a preorder stays in it.
* **`foldlM_total`** — a loop whose rounds go on from the loop's invariant goes
  through.
-/

namespace Lib

universe u v

/-- Stop with `e` unless `c` holds. -/
def ensure {ε : Type u} (c : Prop) [Decidable c] (e : ε) : Except ε Unit :=
  if c then .ok () else .error e

/-- The value of `o`, or stop with `e`. -/
def require {ε : Type u} {α : Type v} (o : Option α) (e : ε) : Except ε α :=
  match o with
  | some a => .ok a
  | none => .error e

@[simp] theorem ensure_ok {ε : Type u} {c : Prop} [Decidable c] {e : ε} {u : Unit} :
    ensure c e = .ok u ↔ c := by
  unfold ensure
  by_cases h : c <;> simp [h]

theorem ensure_error {ε : Type u} {c : Prop} [Decidable c] {e e' : ε} :
    ensure c e = .error e' ↔ ¬c ∧ e = e' := by
  unfold ensure
  by_cases h : c <;> simp [h]

@[simp] theorem require_ok {ε : Type u} {α : Type v} {o : Option α} {e : ε} {a : α} :
    require o e = .ok a ↔ o = some a := by
  cases o <;> simp [require]

theorem require_error {ε : Type u} {α : Type v} {o : Option α} {e e' : ε} :
    require o e = .error e' ↔ o = none ∧ e = e' := by
  cases o <;> simp [require]

@[simp] theorem pure_ok {ε : Type u} {α : Type v} {a b : α} :
    (pure a : Except ε α) = .ok b ↔ a = b := by
  simp [pure, Except.pure]

/-- Taking a finished sequence apart. -/
theorem bind_ok {ε : Type u} {α β : Type v} {x : Except ε α} {f : α → Except ε β} {b : β} :
    x >>= f = .ok b ↔ ∃ a, x = .ok a ∧ f a = .ok b := by
  cases x <;> simp [bind, Except.bind]

/-- Renaming errors does not change results. -/
@[simp] theorem mapError_ok {ε δ : Type u} {α : Type v} {f : ε → δ} {x : Except ε α} {a : α} :
    x.mapError f = .ok a ↔ x = .ok a := by
  cases x <;> simp [Except.mapError]

/-- A result is the result of a finished computation. -/
theorem toOption_eq_some {ε : Type u} {α : Type v} {x : Except ε α} {a : α} :
    x.toOption = some a ↔ x = .ok a := by
  cases x <;> simp [Except.toOption]

@[simp] theorem ok_bind {ε : Type u} {α β : Type v} (a : α) (f : α → Except ε β) :
    (Except.ok a >>= f) = f a := rfl

@[simp] theorem error_bind {ε : Type u} {α β : Type v} (e : ε) (f : α → Except ε β) :
    (Except.error e >>= f) = .error e := rfl

theorem ensure_pos {ε : Type u} {c : Prop} [Decidable c] (h : c) (e : ε) :
    ensure c e = .ok () := if_pos h

theorem ensure_neg {ε : Type u} {c : Prop} [Decidable c] (h : ¬c) (e : ε) :
    ensure c e = .error e := if_neg h

@[simp] theorem require_some {ε : Type u} {α : Type v} (a : α) (e : ε) :
    require (some a) e = .ok a := rfl

@[simp] theorem require_none {ε : Type u} {α : Type v} (e : ε) :
    require (none : Option α) e = .error e := rfl

/-- A sequence that stopped: in its first part, or in its rest. -/
theorem bind_error {ε : Type u} {α β : Type v} {x : Except ε α} {f : α → Except ε β} {e : ε} :
    x >>= f = .error e ↔ x = .error e ∨ ∃ a, x = .ok a ∧ f a = .error e := by
  cases x <;> simp [bind, Except.bind]

/-- A loop over a list: what relates the state before each round to the state after it, and
composes, relates the state before the loop to the state after it. -/
theorem foldlM_rel {ε σ : Type u} {α : Type v} {f : σ → α → Except ε σ} {R : σ → σ → Prop}
    (hrefl : ∀ s, R s s) (htrans : ∀ s t u, R s t → R t u → R s u) {as : List α}
    (hstep : ∀ a ∈ as, ∀ s t, f s a = .ok t → R s t) {s t : σ} (h : as.foldlM f s = .ok t) :
    R s t := by
  induction as generalizing s with
  | nil =>
    rw [List.foldlM_nil, pure_ok] at h
    subst h
    exact hrefl s
  | cons a as ih =>
    rw [List.foldlM_cons, bind_ok] at h
    obtain ⟨u, hu, hrest⟩ := h
    have hhead := hstep a List.mem_cons_self s u hu
    have htail := ih (fun b hb => hstep b (List.mem_cons_of_mem _ hb)) hrest
    exact htrans s u t hhead htail

/-- A loop goes through when each of its rounds does, from a state that keeps the loop's
invariant; the invariant may speak about what is left of the list. -/
theorem foldlM_total {ε σ : Type u} {α : Type v} {f : σ → α → Except ε σ}
    {P : List α → σ → Prop} (hstep : ∀ a as s, P (a :: as) s → ∃ t, f s a = .ok t ∧ P as t)
    {as : List α} {s : σ} (h : P as s) : ∃ t, as.foldlM f s = .ok t ∧ P [] t := by
  induction as generalizing s with
  | nil => exact ⟨s, rfl, h⟩
  | cons a as ih =>
    obtain ⟨u, hu, hrest⟩ := hstep a as s h
    obtain ⟨t, ht, hend⟩ := ih hrest
    refine ⟨t, ?_, hend⟩
    rw [List.foldlM_cons, hu, ok_bind, ht]

end Lib
