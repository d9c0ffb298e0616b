import Rogichat.Lib.Canonical

/-!
# Canonical encodings

An encoding into JSON that is read back from the canonical text.

* **`Encodes`** — every value is well formed, and two values with the same canonical text are
  one.
* **`Encodes.record`**, **`Encodes.list`**, **`Encodes.nullable`** — encodings are put together
  from encodings.
* **`Encodes.canonical`** — one text is one value.
-/

namespace Lib

universe u

/-- A text, or null. -/
def Json.nullable {α : Type u} (f : α → Json) (o : Option α) : Json := o.elim .null f

/-- A natural number as a text: JSON numbers do not hold 64 bits. -/
def Json.bigint (n : Nat) : Json := .str (Json.num n).stringify

/-- Every value is well formed, and values with the same sorted encoding are one. -/
structure Encodes {α : Type u} (f : α → Json) : Prop where
  distinct : ∀ a, (f a).Distinct
  inj : ∀ a b, (f a).sorted = (f b).sorted → a = b

namespace Encodes

variable {α : Type u}

theorem str : Encodes Json.str where
  distinct s := by simp [Json.Distinct]
  inj a b h := by simpa using h

theorem bool : Encodes Json.bool where
  distinct b := by simp [Json.Distinct]
  inj a b h := by simpa using h

theorem num : Encodes fun n : Nat => Json.num n where
  distinct n := by simp [Json.Distinct]
  inj a b h := by simpa using h

theorem bigint : Encodes Json.bigint where
  distinct n := by simp [Json.bigint, Json.Distinct]
  inj a b h := by
    simp only [Json.bigint, Json.sorted_str, Json.str.injEq] at h
    have hnum := Json.stringify_inj (num.distinct a) (num.distinct b) h
    simpa using hnum

theorem nullable {f : α → Json} (hf : Encodes f) (hnull : ∀ a, (f a).sorted ≠ .null) :
    Encodes (Json.nullable f) where
  distinct o := by
    cases o with
    | none =>
      show Json.Distinct .null
      simp [Json.Distinct]
    | some a => exact hf.distinct a
  inj o o' h := by
    cases o with
    | none =>
      cases o' with
      | none => rfl
      | some b => exact absurd (Json.sorted_null.symm.trans h).symm (hnull b)
    | some a =>
      cases o' with
      | none => exact absurd (h.trans Json.sorted_null) (hnull a)
      | some b => rw [hf.inj a b h]

theorem nullable_str : Encodes (Json.nullable Json.str) := by
  refine nullable str ?_
  intro s
  simp

theorem list {f : α → Json} (hf : Encodes f) : Encodes fun as : List α => Json.arr (as.map f) where
  distinct as := by
    rw [Json.Distinct, Json.distinctItems_iff]
    intro v hv
    obtain ⟨a, -, rfl⟩ := List.mem_map.mp hv
    exact hf.distinct a
  inj as bs h := by
    simp only [Json.sorted_arr, Json.arr.injEq, List.map_map] at h
    exact List.map_injective_iff.mpr (fun a b hab => hf.inj a b hab) h

/-- An object with the same keys for every value. -/
theorem record {ks : List String} {f : α → List Json} (hks : ks.Nodup)
    (hlen : ∀ a, (f a).length = ks.length) (hf : ∀ a, ∀ v ∈ f a, v.Distinct)
    (hinj : ∀ a b, (f a).map Json.sorted = (f b).map Json.sorted → a = b) :
    Encodes fun a => Json.obj (ks.zip (f a)) where
  distinct a := Json.distinct_zip hks (hlen a) (hf a)
  inj a b h := hinj a b (Json.values_of_sorted ks _ _ hks (hlen a) (hlen b) h)

/-- An object is not null. -/
theorem sorted_obj_ne (fs : List (String × Json)) : (Json.obj fs).sorted ≠ .null := by
  rw [Json.sorted]
  exact Json.noConfusion

/-- One canonical text is one value. -/
theorem canonical {f : α → Json} (hf : Encodes f) {a b : α}
    (h : (f a).canonical = (f b).canonical) : a = b :=
  hf.inj a b (Json.sorted_of_canonical (hf.distinct a) (hf.distinct b) h)

end Encodes

end Lib
