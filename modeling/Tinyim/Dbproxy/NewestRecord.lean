import Mathlib
import Tinyim.Dbproxy.LastSendRecord

/-! Concurrent saves reach Redis in any order. Each call of `SetUserLastSendData_` keeps the
newer of two records, so a sequence of calls leaves the newest record of all. -/
namespace Tinyim.Dbproxy

theorem argmax_perm [LinearOrder κ] {key : α → κ} {items others : List α}
    (nodup : (items.map key).Nodup) (perm : items.Perm others) :
    items.argmax key = others.argmax key := by
  cases found : items.argmax key with
  | none =>
      obtain rfl := List.argmax_eq_none.mp found
      rw [← perm.nil_eq]
      rfl
  | some m =>
      cases found' : others.argmax key with
      | none =>
          obtain rfl := List.argmax_eq_none.mp found'
          rw [List.perm_nil.mp perm] at found
          cases found
      | some m' =>
          have here := List.argmax_mem found
          have there := perm.mem_iff.mpr (List.argmax_mem found')
          have same : key m = key m' := le_antisymm
            (List.le_of_mem_argmax (perm.mem_iff.mp here) found')
            (List.le_of_mem_argmax there found)
          rw [List.inj_on_of_nodup_map nodup here there same]

variable {redis : Int → Option Text} {existing : Option UserLastSendData}
  {calls : List UserLastSendData} {userId : Int}

theorem storeLastSend_argmax (held : redis userId = existing.map recordText)
    (mine : ∀ data ∈ calls, data.userId = userId) :
    calls.foldl storeLastSend redis userId =
      ((existing.toList ++ calls).argmax UserLastSendData.clientTime).map recordText := by
  induction calls using List.reverseRecOn with
  | nil =>
      rw [List.foldl_nil, List.append_nil, held]
      cases existing with
      | none => rfl
      | some data => rfl
  | append_singleton calls data ih =>
      have stored := ih fun other member => mine other (List.mem_append_left _ member)
      have own : data.userId = userId := mine data (by simp)
      rw [List.foldl_append, List.foldl_cons, List.foldl_nil, storeLastSend, own,
        Function.update_self, stored, ← List.append_assoc, List.argmax_concat]
      cases (existing.toList ++ calls).argmax UserLastSendData.clientTime with
      | none => rfl
      | some old =>
          rw [Option.map_some, setUserLastSendData_recordText]
          simp only
          split <;> rfl

theorem storeLastSend_grows {done later : List UserLastSendData}
    (held : redis userId = existing.map recordText)
    (mine : ∀ data ∈ done ++ later, data.userId = userId)
    (before : done.foldl storeLastSend redis userId = some (recordText old))
    (after : (done ++ later).foldl storeLastSend redis userId = some (recordText new)) :
    old.clientTime ≤ new.clientTime := by
  rw [storeLastSend_argmax held fun data member => mine data (List.mem_append_left _ member),
    Option.map_eq_some_iff] at before
  rw [storeLastSend_argmax held mine, ← List.append_assoc, Option.map_eq_some_iff] at after
  obtain ⟨first, greatest, text⟩ := before
  obtain ⟨last, greatest', text'⟩ := after
  rw [← (recordText_injective text).2.1, ← (recordText_injective text').2.1]
  exact List.le_of_mem_argmax (List.mem_append_left _ (List.argmax_mem greatest)) greatest'

/-- The calls of one user leave the record with the greatest client time among them and the
existing one, in whatever order they are executed, and on the way the recorded client time
never decreases. -/
theorem newest_record_any_order (held : redis userId = existing.map recordText)
    (mine : ∀ data ∈ calls, data.userId = userId)
    (distinct : ((existing.toList ++ calls).map UserLastSendData.clientTime).Nodup) :
    (existing.toList ++ calls ≠ [] → ∃ newest ∈ existing.toList ++ calls,
      (∀ data ∈ existing.toList ++ calls, data.clientTime ≤ newest.clientTime) ∧
        calls.foldl storeLastSend redis userId = some (recordText newest)) ∧
    (∀ others : List UserLastSendData, others.Perm calls →
      others.foldl storeLastSend redis userId = calls.foldl storeLastSend redis userId) ∧
    ∀ done later old new, calls = done ++ later →
      done.foldl storeLastSend redis userId = some (recordText old) →
      calls.foldl storeLastSend redis userId = some (recordText new) →
        old.clientTime ≤ new.clientTime := by
  refine ⟨fun nonempty => ?_, fun others perm => ?_, ?_⟩
  · obtain ⟨newest, greatest⟩ := Option.ne_none_iff_exists'.mp
      (mt List.argmax_eq_none.mp nonempty : (existing.toList ++ calls).argmax
        UserLastSendData.clientTime ≠ none)
    refine ⟨newest, List.argmax_mem greatest, fun data member =>
      List.le_of_mem_argmax member greatest, ?_⟩
    rw [storeLastSend_argmax held mine, greatest, Option.map_some]
  · rw [storeLastSend_argmax held mine,
      storeLastSend_argmax held fun data member => mine data (perm.mem_iff.mp member),
      argmax_perm distinct (perm.symm.append_left existing.toList)]
  · rintro done later old new rfl before after
    exact storeLastSend_grows held mine before after

/-- The newest call comes first or last. -/
theorem newest_record_any_order_three :
    [⟨7, 3, 102, 52⟩, ⟨7, 1, 100, 50⟩, ⟨7, 2, 101, 51⟩].foldl storeLastSend
        (fun _ => some (recordText ⟨7, 9, 99, 49⟩)) 7 =
      [⟨7, 1, 100, 50⟩, ⟨7, 2, 101, 51⟩, ⟨7, 3, 102, 52⟩].foldl storeLastSend
        (fun _ => some (recordText ⟨7, 9, 99, 49⟩)) 7 ∧
    [⟨7, 1, 100, 50⟩, ⟨7, 2, 101, 51⟩, ⟨7, 3, 102, 52⟩].foldl storeLastSend
        (fun _ => some (recordText ⟨7, 9, 99, 49⟩)) 7 = some (recordText ⟨7, 3, 102, 52⟩) := by
  have any := @newest_record_any_order (fun _ => some (recordText ⟨7, 9, 99, 49⟩))
    (some ⟨7, 9, 99, 49⟩) [⟨7, 1, 100, 50⟩, ⟨7, 2, 101, 51⟩, ⟨7, 3, 102, 52⟩] 7 rfl
    (by decide) (by decide)
  exact ⟨any.2.1 _ (by decide), by decide⟩

end Tinyim.Dbproxy
