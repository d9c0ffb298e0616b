import Mathlib.Order.WithBot
import Mathlib.Tactic

/-!
# A register fed with keyed states

Full states of one history arrive in any order, some never and some more than once, and a
register keeps one of them. A state with the key `⊥` carries none. A keyed state replaces a
held one below it, and a state without a key replaces whatever is held.

* **`receive_stale`** — a keyed state that is not above the held one changes nothing.
* **`settled`** — once the latest state of the history has arrived, and as long as nothing
  without a key arrives after it, the register holds a state with its key.
-/

namespace Lib.Register

universe u v

variable {α : Type u} {κ : Type v} [LinearOrder κ] (key : α → WithBot κ)

/-- What the register holds after `a` arrived. -/
def receive (held : Option α) (a : α) : Option α :=
  match held with
  | none => some a
  | some b => if key a = ⊥ ∨ key b < key a then some a else some b

/-- What the register holds after a list of arrivals. -/
def fold (held : Option α) (as : List α) : Option α := as.foldl (receive key) held

/-- The register keeps what it holds or takes what arrives. -/
theorem receive_eq (held : Option α) (a : α) :
    receive key held a = some a ∨ ∃ b ∈ held, receive key held a = some b := by
  cases held with
  | none => exact .inl rfl
  | some b =>
    by_cases h : key a = ⊥ ∨ key b < key a
    · exact .inl (if_pos h)
    · exact .inr ⟨b, rfl, if_neg h⟩

variable {key}

/-- A keyed state not above the held one is dropped. -/
theorem receive_stale {a b : α} (ha : key a ≠ ⊥) (hle : key a ≤ key b) :
    receive key (some b) a = some b := by
  refine if_neg ?_
  rintro (hbot | hlt)
  · exact ha hbot
  · exact absurd hle (not_le.mpr hlt)

/-- A state above everything held is taken over, or stands beside a held one with its key. -/
theorem receive_latest {held : Option α} {z : α} (hle : ∀ b ∈ held, key b ≤ key z) :
    ∃ b, receive key held z = some b ∧ key b = key z ∧ (b = z ∨ b ∈ held) := by
  cases held with
  | none => exact ⟨z, rfl, rfl, .inl rfl⟩
  | some b =>
    by_cases h : key z = ⊥ ∨ key b < key z
    · exact ⟨z, if_pos h, rfl, .inl rfl⟩
    · have hge : key z ≤ key b := not_lt.mp fun hlt => h (.inr hlt)
      exact ⟨b, if_neg h, le_antisymm (hle b rfl) hge, .inr rfl⟩

/-- Whatever is held is one of the arrivals. -/
theorem mem_of_fold {as : List α} {held : Option α} {b : α} (h : fold key held as = some b) :
    b ∈ held ∨ b ∈ as := by
  induction as generalizing held with
  | nil => exact .inl h
  | cons a as ih =>
    rcases ih h with hb | hb
    · rcases receive_eq key held a with ha | ⟨c, hc, heq⟩
      · rw [ha] at hb
        cases hb
        exact .inr List.mem_cons_self
      · rw [heq] at hb
        cases hb
        exact .inl hc
    · exact .inr (List.mem_cons_of_mem _ hb)

/-- Keyed states not above the held one change nothing, however many arrive. -/
theorem fold_stale {as : List α} {b : α} (has : ∀ a ∈ as, key a ≠ ⊥ ∧ key a ≤ key b) :
    fold key (some b) as = some b := by
  induction as with
  | nil => rfl
  | cons a as ih =>
    have ha := has a List.mem_cons_self
    show fold key (receive key (some b) a) as = some b
    rw [receive_stale ha.1 ha.2]
    exact ih fun a ha => has a (List.mem_cons_of_mem _ ha)

/-- The register settles. `z` is above everything that arrives, and nothing without a key
arrives after it. -/
theorem settled {front back : List α} {z : α} (hle : ∀ a ∈ front ++ back, key a ≤ key z)
    (hkeyed : ∀ a ∈ back, key a ≠ ⊥) :
    ∃ b, fold key none (front ++ z :: back) = some b ∧ key b = key z ∧ (b = z ∨ b ∈ front) := by
  have hfront : ∀ b ∈ fold key none front, b ∈ front := by
    intro b hb
    rcases mem_of_fold hb with hnone | hb
    · cases hnone
    · exact hb
  have hbelow : ∀ b ∈ fold key none front, key b ≤ key z :=
    fun b hb => hle b (List.mem_append_left _ (hfront b hb))
  -- what is held once `z` has arrived, and nothing in `back` is above it
  obtain ⟨b, hheld, hkey, hfrom⟩ := receive_latest hbelow
  refine ⟨b, ?_, hkey, hfrom.imp_right (hfront b)⟩
  calc fold key none (front ++ z :: back)
      = fold key (receive key (fold key none front) z) back := by
        rw [fold, List.foldl_append, List.foldl_cons]
        rfl
    _ = fold key (some b) back := by rw [hheld]
    _ = some b := fold_stale fun a ha =>
        ⟨hkeyed a ha, hkey ▸ hle a (List.mem_append_right _ ha)⟩

end Lib.Register
