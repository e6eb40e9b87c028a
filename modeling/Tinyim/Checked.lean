import Mathlib.Algebra.Order.Ring.Int
import Mathlib.Tactic.Linarith
import Mathlib.Tactic.Ring

/-! Signed 64-bit arithmetic of C++. Overflow and division by zero have no
defined behaviour, so every operation is partial. -/
namespace Checked

def int64 (x : Int) : Option Int := if -2 ^ 63 ≤ x ∧ x < 2 ^ 63 then some x else none

theorem int64_eq_some (h : int64 x = some y) : y = x := by
  simp only [int64, Option.ite_none_right_eq_some, Option.some.injEq] at h
  exact h.2.symm

theorem int64_of_bounds (nonneg : 0 ≤ x) (below : x < 2 ^ 63) : int64 x = some x := by
  rw [int64, if_pos ⟨by omega, below⟩]

def add (x y : Int) : Option Int := int64 (x + y)

def sub (x y : Int) : Option Int := int64 (x - y)

def mul (x y : Int) : Option Int := int64 (x * y)

def div (x y : Int) : Option Int := if y = 0 then none else int64 (x.tdiv y)

/-- The remainder takes the sign of `x` and is undefined where the quotient is. -/
def rem (x y : Int) : Option Int := (div x y).map fun _ => x.tmod y

theorem add_eq_some (h : add x y = some z) : z = x + y := int64_eq_some h

theorem sub_eq_some (h : sub x y = some z) : z = x - y := int64_eq_some h

theorem mul_eq_some (h : mul x y = some z) : z = x * y := int64_eq_some h

theorem div_eq_some (h : div x y = some z) : z = x.tdiv y := by
  simp only [div, Option.ite_none_left_eq_some] at h
  exact int64_eq_some h.2

theorem rem_eq_some (h : rem x y = some z) : z = x.tmod y := by
  simp only [rem, Option.map_eq_some_iff] at h
  obtain ⟨_, _, same⟩ := h
  exact same.symm

theorem div_of_pos (nonneg : 0 ≤ x) (below : x < 2 ^ 63) (positive : 0 < y) :
    div x y = some (x.tdiv y) := by
  have lower := Int.tdiv_nonneg nonneg positive.le
  have upper : x.tdiv y ≤ x := Int.tdiv_le_self y nonneg
  rw [div, if_neg (by omega)]
  exact int64_of_bounds lower (by omega)

theorem rem_of_pos (nonneg : 0 ≤ x) (below : x < 2 ^ 63) (positive : 0 < y) :
    rem x y = some (x.tmod y) := by
  rw [rem, div_of_pos nonneg below positive]
  rfl

theorem le_roundUp {n x : Int} (positive : 0 < n) : x ≤ (x + n - 1) / n * n := by
  have split := Int.emod_add_mul_ediv (x + n - 1) n
  have small := Int.emod_lt_of_pos (x + n - 1) positive
  have comm := mul_comm n ((x + n - 1) / n)
  linarith

theorem roundUp_le {n x q : Int} (positive : 0 < n) (below : x ≤ q * n) :
    (x + n - 1) / n * n ≤ q * n := by
  have quotient : (x + n - 1) / n < q + 1 := by
    apply (Int.ediv_lt_iff_lt_mul positive).mpr
    have expand : (q + 1) * n = q * n + n := by ring
    omega
  exact mul_le_mul_of_nonneg_right (by omega) positive.le

/-- Inside a block, that is off a multiple of `n`, a step that stays within the
block stays below the next multiple. -/
theorem add_le_roundUp {n x k : Int} (positive : 0 < n) (inside : x % n ≠ 0)
    (room : x % n + k ≤ n) : x + k ≤ (x + n - 1) / n * n := by
  have nonneg := Int.emod_nonneg x positive.ne'
  have split := Int.emod_add_mul_ediv x n
  have quotient : x / n + 1 ≤ (x + n - 1) / n := by
    apply (Int.le_ediv_iff_mul_le positive).mpr
    have expand : (x / n + 1) * n = n * (x / n) + n := by ring
    omega
  have scaled : (x / n + 1) * n ≤ (x + n - 1) / n * n :=
    mul_le_mul_of_nonneg_right quotient positive.le
  have expand : (x / n + 1) * n = n * (x / n) + n := by ring
  linarith

theorem roundUp_mono {n x y : Int} (positive : 0 < n) (le : x ≤ y) :
    (x + n - 1) / n * n ≤ (y + n - 1) / n * n :=
  roundUp_le positive (le.trans (le_roundUp positive))

theorem roundUp_self {n x : Int} (positive : 0 < n) (multiple : x % n = 0) :
    (x + n - 1) / n * n = x := by
  have split := Int.emod_add_mul_ediv x n
  have comm := mul_comm n (x / n)
  have upper := roundUp_le (x := x) (q := x / n) positive (by omega)
  have lower := le_roundUp (x := x) positive
  omega

end Checked
