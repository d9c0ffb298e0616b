import Mathlib.Data.List.Chain
import Mathlib.Tactic

/-!
# Listings read page by page

A reader asks for the first page without a cursor, and for each further page with the cursor
the last one gave it. A page without a next cursor ends the listing. The pages a reader
accepted are a run when each answers the cursor of the one before it, no cursor is used
twice, and all belong to one generation of the listing.

* **`Follows.snoc`** — a page that answers the current cursor, not used before and of the same
  generation, continues the run.
* **`Complete`** — a run whose last page ends the listing.
-/

namespace Lib

universe u v w

/-- An accepted page: the cursor it answered, what it listed, and the cursor after it. -/
structure Paged (κ : Type u) (γ : Type v) (ι : Type w) where
  requested : Option κ
  generation : γ
  items : List ι
  next : Option κ

namespace Paging

variable {κ : Type u} {γ : Type v} {ι : Type w}

/-- The cursor after the pages. -/
def cursor (ps : List (Paged κ γ ι)) : Option κ := ps.getLast?.bind (·.next)

/-- What the pages list, in their order. -/
def items (ps : List (Paged κ γ ι)) : List ι := ps.flatMap (·.items)

/-- The pages of one run over one generation. -/
structure Follows (ps : List (Paged κ γ ι)) : Prop where
  first : ∀ p ∈ ps.head?, p.requested = none
  linked : ps.IsChain fun a b => b.requested = a.next ∧ a.next ≠ none
  once : (ps.map (·.requested)).Nodup
  same : ∀ p ∈ ps, ∀ q ∈ ps, p.generation = q.generation

/-- A run to the end of the listing. -/
structure Complete (ps : List (Paged κ γ ι)) : Prop extends Follows ps where
  nonempty : ps ≠ []
  last : cursor ps = none

@[simp] theorem cursor_snoc (ps : List (Paged κ γ ι)) (p : Paged κ γ ι) :
    cursor (ps ++ [p]) = p.next := by
  simp [cursor]

@[simp] theorem items_snoc (ps : List (Paged κ γ ι)) (p : Paged κ γ ι) :
    items (ps ++ [p]) = items ps ++ p.items := by
  simp [items]

theorem follows_nil : Follows ([] : List (Paged κ γ ι)) where
  first := by simp
  linked := .nil
  once := List.nodup_nil
  same := by simp

theorem Follows.snoc {ps : List (Paged κ γ ι)} (h : Follows ps) {p : Paged κ γ ι}
    (hopen : ps ≠ [] → cursor ps ≠ none) (hanswers : p.requested = cursor ps)
    (hfresh : p.requested ∉ ps.map (·.requested)) (hsame : ∀ q ∈ ps, q.generation = p.generation) :
    Follows (ps ++ [p]) where
  first := by
    cases ps with
    | nil =>
      intro q hq
      obtain rfl : p = q := Option.some.inj hq
      exact hanswers
    | cons q ps => exact h.first
  linked := by
    rw [List.isChain_append]
    refine ⟨h.linked, .singleton p, ?_⟩
    intro a ha b hb
    obtain rfl : p = b := Option.some.inj hb
    have hcursor : cursor ps = a.next := by
      rw [cursor, Option.mem_def.mp ha]
      rfl
    refine ⟨hanswers.trans hcursor, ?_⟩
    rw [← hcursor]
    apply hopen
    rintro rfl
    cases ha
  once := by
    rw [List.map_append, List.map_singleton, List.nodup_append]
    refine ⟨h.once, List.nodup_singleton _, ?_⟩
    intro a ha b hb
    obtain rfl := List.mem_singleton.mp hb
    exact fun hab => hfresh (hab ▸ ha)
  same := by
    intro q hq r hr
    rcases List.mem_append.mp hq with hq | hq <;> rcases List.mem_append.mp hr with hr | hr
    · exact h.same q hq r hr
    · rw [List.mem_singleton.mp hr]
      exact hsame q hq
    · rw [List.mem_singleton.mp hq]
      exact (hsame r hr).symm
    · rw [List.mem_singleton.mp hq, List.mem_singleton.mp hr]

theorem Follows.complete {ps : List (Paged κ γ ι)} (h : Follows ps) (hne : ps ≠ [])
    (hlast : cursor ps = none) : Complete ps := ⟨h, hne, hlast⟩

end Paging

end Lib
