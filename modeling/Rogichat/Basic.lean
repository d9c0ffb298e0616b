import Mathlib.Init

/-!
# Identifiers and clocks

Row ids are UUIDs, compared only for equality and, where a query sorts by id,
by their order; a natural number stands for one. Times are milliseconds.
-/

namespace Rogichat

/-- A row id. -/
abbrev Uuid := Nat

/-- Milliseconds since an epoch, the resolution of `UTC_TIMESTAMP(3)`. -/
abbrev Time := Nat

/-- The hexadecimal text of a SHA-256, compared only for equality and order; it is
never empty. -/
abbrev Digest := Nat

/-- The states of a login transaction. -/
inductive LoginStatus
  | pending | processing | succeeded | failed
  deriving DecidableEq, Repr

/-- The largest value of a `BIGINT UNSIGNED` column. -/
def maxUnsignedBigInt : Nat := 18446744073709551615

theorem one_fits : 1 ≤ maxUnsignedBigInt := by decide

end Rogichat
