import Mathlib.Logic.Function.Basic

/-! A map split over an array of `n` maps by the truncated remainder of its
integer key. A key whose remainder is negative addresses no element of the
array, so the lookup is partial. -/
namespace Sharding

/-- The array index of a key, `none` when it lies outside the array. -/
def index (n : Nat) (key : Int) : Option (Fin n) :=
  if bounds : 0 ≤ key.tmod n ∧ (key.tmod n).toNat < n then some ⟨(key.tmod n).toNat, bounds.2⟩
  else none

theorem index_isSome_iff :
    (index n key).isSome = true ↔ 0 ≤ key.tmod n ∧ key.tmod n < n := by
  rw [index]
  split
  · rename_i bounds
    exact iff_of_true rfl ⟨bounds.1, by omega⟩
  · rename_i outside
    exact iff_of_false Bool.false_ne_true fun bounds => outside ⟨bounds.1, by omega⟩

/-- A key addresses an element of the array unless its remainder is negative. -/
theorem index_isSome_iff_dvd (positive : 0 < n) :
    (index n key).isSome = true ↔ 0 ≤ key ∨ (n : Int) ∣ key := by
  rw [index_isSome_iff]
  constructor
  · rintro ⟨low, -⟩
    by_cases nonneg : 0 ≤ key
    · exact .inl nonneg
    · right
      have opposite := Int.tmod_nonneg (n : Int) (a := -key) (by omega)
      rw [Int.neg_tmod] at opposite
      exact Int.dvd_of_tmod_eq_zero (by omega)
  · rintro (nonneg | multiple)
    · have low := Int.tmod_nonneg (n : Int) nonneg
      exact ⟨low, Int.tmod_lt_of_pos key (by omega)⟩
    · rw [Int.tmod_eq_zero_of_dvd multiple]
      omega

abbrev Shards (n : Nat) (α : Type) := Fin n → Int → α

namespace Shards
variable {n : Nat} {α : Type}

def put (table : Shards n α) (bucket : Fin n) (key : Int) (value : α) : Shards n α :=
  Function.update table bucket (Function.update (table bucket) key value)

@[simp] theorem put_same (table : Shards n α) (bucket : Fin n) (key : Int) (value : α) :
    table.put bucket key value bucket key = value := by
  simp [put]

theorem put_other (table : Shards n α) (bucket : Fin n) (different : other ≠ key)
    (bucket' : Fin n) (value : α) :
    table.put bucket key value bucket' other = table bucket' other := by
  by_cases same : bucket' = bucket
  · subst same
    simp [put, different]
  · simp [put, same]

theorem put_eq_self (table : Shards n α) (same : table bucket key = value) :
    table.put bucket key value = table := by
  subst same
  simp [put]

theorem put_put (table : Shards n α) (bucket : Fin n) (key : Int) (first second : α) :
    (table.put bucket key first).put bucket key second = table.put bucket key second := by
  simp [put]

/-- The flat map that the array of maps stands for; `absent` where no element is addressed. -/
def view (table : Shards n α) (absent : α) (key : Int) : α :=
  match index n key with
  | some bucket => table bucket key
  | none => absent

theorem view_of_index (table : Shards n α) (found : index n key = some bucket) :
    table.view absent key = table bucket key := by
  simp only [view, found]

theorem view_put_same (table : Shards n α) (found : index n key = some bucket) (value : α) :
    (table.put bucket key value).view absent key = value := by
  simp only [view, found, put_same]

theorem view_put_other (table : Shards n α) (different : other ≠ key) (value : α) :
    (table.put bucket key value).view absent other = table.view absent other := by
  simp only [view]
  split
  · exact put_other table bucket different _ value
  · rfl

theorem view_put (table : Shards n α) (found : index n key = some bucket) (value : α) :
    (table.put bucket key value).view absent = Function.update (table.view absent) key value := by
  funext other
  by_cases same : other = key
  · subst same
    rw [view_put_same table found, Function.update_self]
  · rw [view_put_other table same, Function.update_of_ne same]

end Shards
end Sharding
