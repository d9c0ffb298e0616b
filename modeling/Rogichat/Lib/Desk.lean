import Mathlib.Data.Set.Basic
import Mathlib.Tactic

/-!
# Single-use permits

A desk hands out permits, each under an id that was never used and the desk's generation, and
takes a permit back once, if it is of the current generation. The generation grows when what the
permits were handed out for is given up; a desk that is cleared starts over without permits.

* **`Desk.Ok`** — an unused permit was not claimed, and one of the current generation was handed
  out since the generation's subject was chosen. Every step keeps it.
* **`Desk.Ok.claim`** — a permit is claimed once, for the subject it was handed out for.
-/

namespace Lib

/-- A right that may be used once. -/
structure Ticket where
  id : Nat
  generation : Nat
  used : Bool

/-- The tickets that are held, and what was issued and used so far. -/
structure Desk where
  held : Set Ticket
  generation : Nat
  /-- When the current subject was chosen. -/
  since : Nat
  /-- The ids handed out, each with its time. -/
  issued : List (Nat × Nat)
  claims : List Nat
  now : Nat

namespace Desk

/-- What one step does to a desk. -/
inductive Step (d d' : Desk) : Prop
  | keep (held : d'.held ⊆ d.held) (issued : d'.issued = d.issued) (claims : d'.claims = d.claims)
      (fence : d'.generation = d.generation ∧ d'.since = d.since ∨
        d.generation < d'.generation ∧ d'.since ≤ d.now)
  | issue (id : Nat) (fresh : ∀ e ∈ d.issued, e.2 ≠ id)
      (held : ∀ t ∈ d'.held, t ∈ d.held ∨ t = ⟨id, d'.generation, false⟩)
      (issued : d'.issued = (d.now, id) :: d.issued) (claims : d'.claims = d.claims)
      (fence : d.generation ≤ d'.generation) (since : d'.since = d.since)
  | claim (ticket : Ticket) (mem : ticket ∈ d.held) (unused : ticket.used = false)
      (current : ticket.generation = d.generation)
      (held : ∀ t ∈ d'.held, t ∈ d.held ∧ t.id ≠ ticket.id ∨ t = { ticket with used := true })
      (issued : d'.issued = d.issued) (claims : d'.claims = ticket.id :: d.claims)
      (generation : d'.generation = d.generation) (since : d'.since = d.since)
  | clear (held : d'.held = ∅) (issued : d'.issued = d.issued) (claims : d'.claims = d.claims)
      (since : d'.since ≤ d.now)

/-- Nothing is held that was not issued, and nothing is used twice. -/
structure Ok (d : Desk) : Prop where
  handed : ∀ t ∈ d.held, ∃ e ∈ d.issued, e.2 = t.id ∧ (t.generation = d.generation → d.since ≤ e.1)
  older : ∀ t ∈ d.held, t.generation ≤ d.generation
  unclaimed : ∀ t ∈ d.held, t.used = false → t.id ∉ d.claims
  claimed : ∀ id ∈ d.claims, ∃ e ∈ d.issued, e.2 = id
  since : d.since ≤ d.now

variable {d d' : Desk}

/-- A desk nothing was handed out at. -/
theorem Ok.of_empty (hheld : d.held = ∅) (hclaims : d.claims = [])
    (hsince : d.since ≤ d.now) : d.Ok := by
  constructor
  · intro t ht
    rw [hheld] at ht
    exact absurd ht (Set.notMem_empty t)
  · intro t ht
    rw [hheld] at ht
    exact absurd ht (Set.notMem_empty t)
  · intro t ht
    rw [hheld] at ht
    exact absurd ht (Set.notMem_empty t)
  · rw [hclaims]
    exact fun id hid => absurd hid List.not_mem_nil
  · exact hsince

/-- A permit is claimed once, for the subject it was handed out for. -/
theorem Ok.claim (h : d.Ok) {t : Ticket} (hmem : t ∈ d.held)
    (hunused : t.used = false) (hcurrent : t.generation = d.generation) :
    t.id ∉ d.claims ∧ ∃ e ∈ d.issued, e.2 = t.id ∧ d.since ≤ e.1 := by
  refine ⟨h.unclaimed t hmem hunused, ?_⟩
  obtain ⟨e, he, hid, hsince⟩ := h.handed t hmem
  exact ⟨e, he, hid, hsince hcurrent⟩

theorem Ok.step (h : d.Ok) (hnow : d'.now = d.now + 1) (hstep : d.Step d') : d'.Ok := by
  cases hstep with
  | keep held issued claims fence =>
    have hsince : d'.since ≤ d.now := by
      rcases fence with ⟨-, hs⟩ | ⟨-, hs⟩
      · exact hs ▸ h.since
      · exact hs
    constructor
    · intro t ht
      obtain ⟨e, he, hid, hcurrent⟩ := h.handed t (held ht)
      refine ⟨e, issued ▸ he, hid, ?_⟩
      intro hg
      rcases fence with ⟨hgen, hs⟩ | ⟨hgrown, -⟩
      · rw [hs]
        exact hcurrent (hg.trans hgen)
      · -- the generation has grown past every permit
        have := h.older t (held ht)
        omega
    · intro t ht
      have := h.older t (held ht)
      omega
    · rw [claims]
      exact fun t ht => h.unclaimed t (held ht)
    · rw [claims, issued]
      exact h.claimed
    · omega
  | issue id fresh held issued claims fence since =>
    constructor
    · intro t ht
      rcases held t ht with ht | rfl
      · obtain ⟨e, he, hid, hcurrent⟩ := h.handed t ht
        refine ⟨e, issued ▸ List.mem_cons_of_mem _ he, hid, ?_⟩
        intro hg
        have := h.older t ht
        rw [since]
        exact hcurrent (by omega)
      · refine ⟨(d.now, id), issued ▸ List.mem_cons_self, rfl, fun _ => ?_⟩
        rw [since]
        exact h.since
    · intro t ht
      rcases held t ht with ht | rfl
      · exact (h.older t ht).trans fence
      · exact le_refl _
    · intro t ht hunused
      rw [claims]
      rcases held t ht with ht | rfl
      · exact h.unclaimed t ht hunused
      · -- what was claimed was handed out before
        intro hclaimed
        obtain ⟨e, he, hid⟩ := h.claimed id hclaimed
        exact fresh e he hid
    · rw [claims, issued]
      intro id' hid'
      obtain ⟨e, he, hid⟩ := h.claimed id' hid'
      exact ⟨e, List.mem_cons_of_mem _ he, hid⟩
    · have := h.since
      omega
  | claim ticket mem unused current held issued claims generation since =>
    constructor
    · intro t ht
      rw [issued, generation, since]
      rcases held t ht with ⟨ht, -⟩ | rfl
      · exact h.handed t ht
      · exact h.handed ticket mem
    · intro t ht
      rw [generation]
      rcases held t ht with ⟨ht, -⟩ | rfl
      · exact h.older t ht
      · exact h.older ticket mem
    · intro t ht hunused
      rcases held t ht with ⟨ht, hne⟩ | rfl
      · rw [claims, List.mem_cons, not_or]
        exact ⟨hne, h.unclaimed t ht hunused⟩
      · cases hunused
    · rw [claims, issued]
      intro id hid
      rcases List.mem_cons.mp hid with rfl | hid
      · obtain ⟨e, he, hid, -⟩ := h.handed ticket mem
        exact ⟨e, he, hid⟩
      · exact h.claimed id hid
    · have := h.since
      omega
  | clear held issued claims since =>
    constructor
    · intro t ht
      rw [held] at ht
      exact absurd ht (Set.notMem_empty t)
    · intro t ht
      rw [held] at ht
      exact absurd ht (Set.notMem_empty t)
    · intro t ht
      rw [held] at ht
      exact absurd ht (Set.notMem_empty t)
    · rw [claims, issued]
      exact h.claimed
    · omega

end Desk

end Lib
