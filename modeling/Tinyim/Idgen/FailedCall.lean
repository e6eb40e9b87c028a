import Tinyim.Idgen.Grants

/-! What a failed call leaves behind. A slot that was loaded before the Put failed stays
loaded, and the next call takes the block it belongs to for persisted. -/
namespace Tinyim.IdGen
open Transition Checked Sharding

/-- What the callers and LevelDB see: the status or the id of every call, and the values
that LevelDB holds after it. `none` when a call has no defined result. -/
def outputs (eachGenIdNum : Int) (s : LevelDbIdGen) :
    List Event → Option (List (Option (Except Text Int) × (Int → Option Int)))
  | [] => some []
  | .call disk userId needMsgidNum :: es => do
      let (result, t) ← idGenerate eachGenIdNum disk userId needMsgidNum s
      let later ← outputs eachGenIdNum t es
      return (some result, t.db) :: later
  | .restart :: es => do
      let later ← outputs eachGenIdNum (restart s) es
      return (none, (restart s).db) :: later

/-- No sequence of calls and restarts tells the states apart. -/
def Indistinguishable (n : Int) (s t : LevelDbIdGen) : Prop :=
  ∀ es, outputs n s es = outputs n t es

def results (n : Int) (s : LevelDbIdGen) (es : List Event) :
    Option (List (Option (Except Text Int))) :=
  (outputs n s es).map (·.map Prod.fst)

variable {n userId need startId : Int} {disk : Disk} {reason : Text} {s t : LevelDbIdGen}

theorem refused_cases (refused : idGenerate n disk userId need s = some (.error reason, t)) :
    ∃ bucket, index kBucketNum userId = some bucket ∧
      ((disk.get ≠ none ∨ cached s userId ≠ 0) ∧ t = s ∨
        (disk.get = none ∧ cached s userId = 0) ∧
          t = s.setSlot bucket userId (stored s userId)) := by
  cases found : index kBucketNum userId with
  | none => simp [idGenerate, found] at refused
  | some bucket =>
      refine ⟨bucket, rfl, ?_⟩
      by_cases loaded : cached s userId = 0
      · cases answered : disk.get with
        | some unread =>
            rw [idGenerate_unread found loaded answered] at refused
            cases refused
            exact .inl ⟨.inl (Option.some_ne_none _), rfl⟩
        | none =>
            rw [idGenerate_read found loaded answered] at refused
            obtain ⟨_, -, -, same⟩ | ⟨served, -⟩ := allocate_cases refused
            · exact .inr ⟨⟨rfl, loaded⟩, same⟩
            · cases served
      · rw [idGenerate_loaded found loaded] at refused
        obtain ⟨_, -, -, same⟩ | ⟨served, -⟩ := allocate_cases refused
        · exact .inl ⟨.inr loaded, same⟩
        · cases served

theorem setSlot_zero (found : index kBucketNum userId = some bucket)
    (unloaded : cached s userId = 0) : s.setSlot bucket userId 0 = s := by
  have slot : s.idCache bucket userId = 0 := (Shards.view_of_index _ found).symm.trans unloaded
  have same : s.idCache.put bucket userId 0 = s.idCache := by
    rw [Shards.put, ← slot, Function.update_eq_self, Function.update_eq_self]
  rw [LevelDbIdGen.setSlot, same]

/-- A slot left loaded shows as soon as LevelDB cannot be read: the call is then served
where it would have failed. -/
theorem loaded_slot_observable (found : index kBucketNum userId = some bucket)
    (unloaded : cached s userId = 0) (nonzero : stored s userId ≠ 0) :
    ¬ Indistinguishable n (s.setSlot bucket userId (stored s userId)) s := by
  intro same
  have outcome := same [.call { get := some [] } userId 1]
  have loaded : cached (s.setSlot bucket userId (stored s userId)) userId ≠ 0 := by
    rwa [cached_setSlot s found, Function.update_self]
  have refused : idGenerate n { get := some [] } userId 1 s = some (.error [], s) :=
    idGenerate_unread found unloaded rfl
  simp only [outputs, refused, Option.bind_eq_bind, Option.bind_some,
    Option.pure_def] at outcome
  obtain ⟨⟨result, t⟩, called, rest⟩ := Option.bind_eq_some_iff.mp outcome
  rw [idGenerate_loaded found loaded] at called
  simp only [Option.some.injEq, List.cons.injEq, Prod.mk.injEq, and_true] at rest
  obtain ⟨_, refused, -⟩ | ⟨served, -⟩ := allocate_cases called
  · cases refused
  · rw [served] at rest
    cases rest.1

/-- A failed call can be told from one never made exactly when its Get succeeded on an
empty slot and found ids that had been given away. -/
theorem failed_call_untraced_iff
    (refused : idGenerate n disk userId need s = some (.error reason, t)) :
    Indistinguishable n t s ↔
      disk.get ≠ none ∨ cached s userId ≠ 0 ∨ stored s userId = 0 := by
  obtain ⟨bucket, found, ⟨untouched, rfl⟩ | ⟨⟨read, unloaded⟩, rfl⟩⟩ := refused_cases refused
  · exact ⟨fun _ => untouched.imp_right .inl, fun _ _ => rfl⟩
  · constructor
    · intro same
      by_contra traced
      push Not at traced
      exact loaded_slot_observable found unloaded traced.2.2 same
    · rintro (unread | loaded | zero)
      · exact absurd read unread
      · exact absurd unloaded loaded
      · intro es
        rw [zero, setSlot_zero found unloaded]

theorem failed_call_untraced_iff_fresh :
    ∃ t, idGenerate 1024 { put := some [] } 7 1 (.init fun _ => none) = some (.error [], t) ∧
      Indistinguishable 1024 t (.init fun _ => none) := by
  obtain ⟨t, refused⟩ : ∃ t, idGenerate 1024 { put := some [] } 7 1 (.init fun _ => none) =
      some (.error [], t) := ⟨_, rfl⟩
  exact ⟨t, refused, (failed_call_untraced_iff refused).mpr (.inr (.inr rfl))⟩

/-- A call served from the slot left loaded persists nothing, so the next process hands
out the same id. -/
theorem loaded_slot_persists_nothing (positive : 0 < n)
    (found : index kBucketNum userId = some bucket) (nonneg : 0 < stored s userId)
    (called : idGenerate n {} userId 1 (s.setSlot bucket userId (stored s userId)) =
      some (.ok startId, t)) :
    startId = stored s userId + 1 ∧ lastId (restart t) userId = stored s userId := by
  have loaded : cached (s.setSlot bucket userId (stored s userId)) userId = stored s userId := by
    rw [cached_setSlot s found, Function.update_self]
  have room := Int.tmod_lt_of_pos (stored s userId) positive
  rw [idGenerate_loaded found (by omega), loaded] at called
  obtain ⟨_, refused, -⟩ | ⟨served, -, ⟨absurd | crosses, -⟩ | ⟨-, kept⟩⟩ := allocate_cases called
  · cases refused
  · cases absurd
  · omega
  · refine ⟨Except.ok.inj served, ?_⟩
    rw [restart, lastId_init, kept, setSlot_db]
    rfl

/-- LevelDB holds 1024 after a restart. The failed Put makes the next call skip its own, so
the restart after it hands out the id 1025 again. -/
theorem failed_put_leaves_trace :
    ∃ s t, Run (step 1024) (fun _ e => Healthy e) (.init fun _ => none)
        [.call {} 7 1, .restart] s ∧
      idGenerate 1024 { put := some [] } 7 1 s.idgen = some (.error [], t) ∧
      results 1024 t [.call {} 7 1, .restart, .call {} 7 1] =
        some [some (.ok 1025), none, some (.ok 1025)] ∧
      results 1024 s.idgen [.call {} 7 1, .restart, .call {} 7 1] =
        some [some (.ok 1025), none, some (.ok 2049)] ∧
      ¬ Indistinguishable 1024 t s.idgen := by
  obtain ⟨s, run, checked⟩ := Run.of_check (step 1024) (fun _ e => decide (Healthy e))
    (.init fun _ => none) [.call {} 7 1, .restart]
    (fun s => (idGenerate 1024 { put := some [] } 7 1 s.idgen).any
      fun (called : Except Text Int × LevelDbIdGen) => decide (called.1 = .error [] ∧
      results 1024 called.2 [.call {} 7 1, .restart, .call {} 7 1] =
        some [some (.ok 1025), none, some (.ok 1025)] ∧
      results 1024 s.idgen [.call {} 7 1, .restart, .call {} 7 1] =
        some [some (.ok 1025), none, some (.ok 2049)]))
    (fun _ _ => of_decide_eq_true) (by decide)
  obtain ⟨⟨result, t⟩, called, both⟩ := (Option.any_eq_true _ _).mp checked
  obtain ⟨rfl, repeated, fresh⟩ := of_decide_eq_true both
  refine ⟨s, t, run, called, repeated, fresh, fun same => ?_⟩
  rw [results, same, ← results, fresh] at repeated
  exact absurd repeated (by decide)

end Tinyim.IdGen
