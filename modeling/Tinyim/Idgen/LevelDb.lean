import Tinyim.Checked
import Tinyim.Sharding
import Tinyim.Common.Messages

/-! `LevelDbIdGen::IdGenerate`: ids are handed out from a cached counter and
LevelDB is told the end of the current block. A call that overflows, divides by
zero or addresses a bucket outside the array has no result. -/
namespace Tinyim.IdGen
open Checked Sharding

def kBucketNum : Nat := 16

/-- Keys and values are kept as the numbers whose decimal text LevelDB stores. -/
structure LevelDbIdGen where
  /-- A slot that `operator[]` has just inserted reads zero, as one never touched does. -/
  idCache : Shards kBucketNum Int
  db : Int → Option Int

def LevelDbIdGen.init (db : Int → Option Int) : LevelDbIdGen := ⟨fun _ _ => 0, db⟩

/-- `original_id = value` through the reference into the bucket's map. -/
def LevelDbIdGen.setSlot (s : LevelDbIdGen) (bucket : Fin kBucketNum) (userId : Int)
    (value : Int) : LevelDbIdGen :=
  { s with idCache := s.idCache.put bucket userId value }

/-- What LevelDB answers to the Get and the Put of one call: `some reason` is a
status that is neither OK nor NotFound. -/
structure Disk where
  get : Option Text := none
  put : Option Text := none
  deriving DecidableEq, Repr

/-- The block test on the cached path, skipped when the slot was just loaded. -/
def needsPut (eachGenIdNum originalId needMsgidNum : Int) (updateDb : Bool) : Option Bool :=
  if updateDb then some true
  else do
    let used ← add (← rem originalId eachGenIdNum) needMsgidNum
    return decide (eachGenIdNum < used)

/-- The value persisted for a block, rounded up to a multiple of the block size. -/
def blockEnd (eachGenIdNum originalId needMsgidNum : Int) : Option Int := do
  let last ← add originalId needMsgidNum
  let padded ← sub (← add last eachGenIdNum) 1
  mul (← div padded eachGenIdNum) eachGenIdNum

/-- Lines 76 to 78. -/
def handOut (bucket : Fin kBucketNum) (userId originalId needMsgidNum : Int)
    (s : LevelDbIdGen) : Option (Except Text Int × LevelDbIdGen) := do
  let startId ← add originalId 1
  let lastId ← add originalId needMsgidNum
  return (.ok startId, s.setSlot bucket userId lastId)

/-- Lines 61 to 78, with the slot at `originalId`. -/
def allocate (eachGenIdNum : Int) (disk : Disk) (bucket : Fin kBucketNum)
    (userId originalId needMsgidNum : Int) (updateDb : Bool)
    (s : LevelDbIdGen) : Option (Except Text Int × LevelDbIdGen) := do
  if ← needsPut eachGenIdNum originalId needMsgidNum updateDb then
    let dbId ← blockEnd eachGenIdNum originalId needMsgidNum
    match disk.put with
    | some reason => return (.error reason, s)
    | none =>
      handOut bucket userId originalId needMsgidNum
        { s with db := Function.update s.db userId (some dbId) }
  else handOut bucket userId originalId needMsgidNum s

def idGenerate (eachGenIdNum : Int) (disk : Disk) (userId needMsgidNum : Int)
    (s : LevelDbIdGen) : Option (Except Text Int × LevelDbIdGen) := do
  let bucket ← index kBucketNum userId
  if s.idCache bucket userId = 0 then
    match disk.get with
    | some reason => return (.error reason, s)
    | none =>
      -- NotFound leaves the slot at zero.
      let loaded := (s.db userId).getD 0
      allocate eachGenIdNum disk bucket userId loaded needMsgidNum true
        (s.setSlot bucket userId loaded)
  else allocate eachGenIdNum disk bucket userId (s.idCache bucket userId) needMsgidNum false s

/-- A restart empties the caches and keeps the store. -/
def restart (s : LevelDbIdGen) : LevelDbIdGen := .init s.db

/-! The abstract counter behind a state: the last id that the process has handed
out to a user, or the stored one while nothing is cached. -/

def cached (s : LevelDbIdGen) (userId : Int) : Int := s.idCache.view 0 userId

def stored (s : LevelDbIdGen) (userId : Int) : Int := (s.db userId).getD 0

def lastId (s : LevelDbIdGen) (userId : Int) : Int :=
  if cached s userId = 0 then stored s userId else cached s userId

@[simp] theorem cached_init (db : Int → Option Int) (userId : Int) :
    cached (.init db) userId = 0 := by
  simp only [cached, Shards.view, LevelDbIdGen.init]
  split <;> rfl

@[simp] theorem lastId_init (db : Int → Option Int) (userId : Int) :
    lastId (.init db) userId = (db userId).getD 0 := by
  simp only [lastId, cached_init, if_true]
  rfl

@[simp] theorem setSlot_db (s : LevelDbIdGen) : (s.setSlot bucket userId value).db = s.db := rfl

theorem cached_setSlot (s : LevelDbIdGen) (found : index kBucketNum userId = some bucket) :
    cached (s.setSlot bucket userId value) = Function.update (cached s) userId value := by
  funext v
  simp only [cached, LevelDbIdGen.setSlot, Shards.view_put _ found]
  rfl

theorem handOut_eq_some (h : handOut bucket userId originalId need s = some (result, s')) :
    result = .ok (originalId + 1) ∧ s' = s.setSlot bucket userId (originalId + need) := by
  simp only [handOut, Option.bind_eq_bind, Option.bind_eq_some_iff, Option.pure_def,
    Option.some.injEq, Prod.mk.injEq] at h
  obtain ⟨startId, started, lastId, ended, rfl, rfl⟩ := h
  rw [add_eq_some started, add_eq_some ended]
  exact ⟨rfl, rfl⟩

theorem blockEnd_eq_some (h : blockEnd n originalId need = some dbId) :
    dbId = (originalId + need + n - 1).tdiv n * n := by
  simp only [blockEnd, Option.bind_eq_bind, Option.bind_eq_some_iff] at h
  obtain ⟨last, summed, raised, added, padded, lowered, block, divided, scaled⟩ := h
  rw [mul_eq_some scaled, div_eq_some divided, sub_eq_some lowered, add_eq_some added,
    add_eq_some summed]

theorem needsPut_eq_some (h : needsPut n originalId need updateDb = some puts) :
    puts = (updateDb || decide (n < originalId.tmod n + need)) := by
  cases updateDb with
  | true => simpa [needsPut] using h.symm
  | false =>
      simp only [needsPut, Bool.false_eq_true, if_false, Option.bind_eq_bind,
        Option.bind_eq_some_iff, Option.pure_def, Option.some.injEq] at h
      obtain ⟨place, reduced, used, summed, tested⟩ := h
      rw [add_eq_some summed, rem_eq_some reduced] at tested
      simpa using tested.symm

theorem allocate_cases
    (h : allocate n disk bucket userId originalId need updateDb s = some (result, s')) :
    (∃ reason, disk.put = some reason ∧ result = .error reason ∧ s' = s) ∨
    (result = .ok (originalId + 1) ∧
      cached s' = cached (s.setSlot bucket userId (originalId + need)) ∧
      ((updateDb = true ∨ n < originalId.tmod n + need) ∧
          s'.db = Function.update s.db userId (some ((originalId + need + n - 1).tdiv n * n)) ∨
        (updateDb = false ∧ originalId.tmod n + need ≤ n) ∧ s'.db = s.db)) := by
  simp only [allocate, Option.bind_eq_bind, Option.bind_eq_some_iff] at h
  obtain ⟨puts, tested, h⟩ := h
  have crosses := needsPut_eq_some tested
  cases puts with
  | true =>
      simp only [if_true, Option.bind_eq_some_iff] at h
      obtain ⟨dbId, ended, h⟩ := h
      cases answered : disk.put with
      | some reason =>
          simp only [answered, Option.pure_def, Option.some.injEq, Prod.mk.injEq] at h
          exact .inl ⟨reason, rfl, h.1.symm, h.2.symm⟩
      | none =>
          simp only [answered] at h
          obtain ⟨rfl, rfl⟩ := handOut_eq_some h
          rw [blockEnd_eq_some ended]
          exact .inr ⟨rfl, rfl, .inl ⟨by simpa using crosses.symm, rfl⟩⟩
  | false =>
      simp only [Bool.false_eq_true, if_false] at h
      obtain ⟨rfl, rfl⟩ := handOut_eq_some h
      exact .inr ⟨rfl, rfl, .inr ⟨by simpa using crosses.symm, rfl⟩⟩

/-! The three ways through a call: the slot holds an id, it is empty and LevelDB cannot be
read, or it is empty and gets what LevelDB holds. -/

theorem idGenerate_loaded (found : index kBucketNum userId = some bucket)
    (loaded : cached s userId ≠ 0) :
    idGenerate n disk userId need s =
      allocate n disk bucket userId (cached s userId) need false s := by
  have slot : s.idCache bucket userId = cached s userId := (Shards.view_of_index _ found).symm
  simp only [idGenerate, found, slot, loaded, Option.bind_eq_bind, Option.bind_some, if_false]

theorem idGenerate_unread (found : index kBucketNum userId = some bucket)
    (empty : cached s userId = 0) (unread : disk.get = some reason) :
    idGenerate n disk userId need s = some (.error reason, s) := by
  have slot : s.idCache bucket userId = cached s userId := (Shards.view_of_index _ found).symm
  simp only [idGenerate, found, slot, empty, unread, Option.bind_eq_bind, Option.bind_some,
    if_true, Option.pure_def]

theorem idGenerate_read (found : index kBucketNum userId = some bucket)
    (empty : cached s userId = 0) (read : disk.get = none) :
    idGenerate n disk userId need s =
      allocate n disk bucket userId (stored s userId) need true
        (s.setSlot bucket userId (stored s userId)) := by
  have slot : s.idCache bucket userId = cached s userId := (Shards.view_of_index _ found).symm
  simp only [idGenerate, found, slot, empty, read, Option.bind_eq_bind, Option.bind_some,
    if_true, stored]

theorem lastId_of_empty (empty : cached s userId = 0) : lastId s userId = stored s userId := by
  rw [lastId, if_pos empty]

theorem lastId_of_loaded (loaded : cached s userId ≠ 0) : lastId s userId = cached s userId := by
  rw [lastId, if_neg loaded]

theorem lastId_load (found : index kBucketNum userId = some bucket)
    (empty : cached s userId = 0) :
    lastId (s.setSlot bucket userId (stored s userId)) = lastId s := by
  funext v
  simp only [lastId, cached_setSlot s found, stored, setSlot_db]
  by_cases same : v = userId
  · subst same
    simp [empty]
  · simp only [Function.update_of_ne same]

/-- Everything a call can do. A failed call reports what LevelDB answered and leaves
the abstract counters and the store alone; a successful one hands out the ids that
follow the last one. -/
theorem idGenerate_cases (h : idGenerate n disk userId need s = some (result, s')) :
    (∃ reason, (disk.get = some reason ∨ disk.put = some reason) ∧ result = .error reason ∧
      s'.db = s.db ∧ ∀ v, lastId s' v = lastId s v) ∨
    (result = .ok (lastId s userId + 1) ∧
      cached s' = Function.update (cached s) userId (lastId s userId + need) ∧
      ((cached s userId = 0 ∨ n < (cached s userId).tmod n + need) ∧
          s'.db = Function.update s.db userId
            (some ((lastId s userId + need + n - 1).tdiv n * n)) ∨
        (cached s userId ≠ 0 ∧ (cached s userId).tmod n + need ≤ n) ∧ s'.db = s.db)) := by
  cases found : index kBucketNum userId with
  | none => simp [idGenerate, found] at h
  | some bucket =>
      by_cases empty : cached s userId = 0
      · rw [lastId_of_empty empty]
        cases answered : disk.get with
        | some reason =>
            rw [idGenerate_unread found empty answered] at h
            cases h
            exact .inl ⟨reason, .inl rfl, rfl, rfl, fun _ => rfl⟩
        | none =>
            rw [idGenerate_read found empty answered] at h
            rcases allocate_cases h with ⟨reason, refused, rfl, rfl⟩ | ⟨rfl, cache, persisted⟩
            · exact .inl ⟨reason, .inr refused, rfl, rfl, congrFun (lastId_load found empty)⟩
            · refine .inr ⟨rfl, ?_, ?_⟩
              · rw [cache, cached_setSlot _ found, cached_setSlot s found, Function.update_idem]
              · rcases persisted with ⟨-, put⟩ | ⟨⟨absurd, -⟩, -⟩
                · exact .inl ⟨.inl empty, by rw [put, setSlot_db]⟩
                · cases absurd
      · rw [lastId_of_loaded empty]
        rw [idGenerate_loaded found empty] at h
        rcases allocate_cases h with ⟨reason, refused, rfl, rfl⟩ | ⟨rfl, cache, persisted⟩
        · exact .inl ⟨reason, .inr refused, rfl, rfl, fun _ => rfl⟩
        · refine .inr ⟨rfl, by rw [cache, cached_setSlot s found], ?_⟩
          rcases persisted with ⟨crosses, put⟩ | ⟨⟨-, room⟩, kept⟩
          · exact .inl ⟨.inr (crosses.resolve_left Bool.false_ne_true), put⟩
          · exact .inr ⟨⟨empty, room⟩, kept⟩

theorem cached_served (served : idGenerate n disk userId need s = some (.ok startId, s')) :
    cached s' = Function.update (cached s) userId (lastId s userId + need) := by
  obtain ⟨_, -, failed, -⟩ | ⟨-, cache, -⟩ := idGenerate_cases served
  · cases failed
  · exact cache

theorem lastId_served (nonneg : 0 ≤ lastId s userId) (positive : 1 ≤ need)
    (served : idGenerate n disk userId need s = some (.ok startId, s')) :
    startId = lastId s userId + 1 ∧
      lastId s' = Function.update (lastId s) userId (lastId s userId + need) := by
  obtain ⟨_, -, failed, -⟩ | ⟨same, cache, persisted⟩ := idGenerate_cases served
  · cases failed
  refine ⟨Except.ok.inj same, ?_⟩
  funext v
  by_cases self : v = userId
  · subst self
    have fresh : cached s' v = lastId s v + need := by rw [cache, Function.update_self]
    rw [lastId, if_neg (by omega), fresh, Function.update_self]
  · have kept : stored s' v = stored s v := by
      obtain ⟨-, put⟩ | ⟨-, kept⟩ := persisted
      · simp only [stored, put, Function.update_of_ne self]
      · simp only [stored, kept]
    simp only [lastId, cache, Function.update_of_ne self, kept]

theorem lastId_refused (refused : idGenerate n disk userId need s = some (.error reason, s')) :
    lastId s' = lastId s := by
  obtain ⟨_, -, -, -, kept⟩ | ⟨absurd, -⟩ := idGenerate_cases refused
  · exact funext kept
  · cases absurd

theorem blockEnd_defined (positive : 0 < n) (nonneg : 0 ≤ originalId + need)
    (room : originalId + need + n < 2 ^ 63) : ∃ dbId, blockEnd n originalId need = some dbId := by
  have quotient := Int.tdiv_nonneg (a := originalId + need + n - 1) (by omega) positive.le
  have product := Int.mul_nonneg quotient positive.le
  have rounded := Int.mul_tdiv_self_le (x := originalId + need + n - 1) (k := n) (by omega)
  rw [Int.mul_comm] at rounded
  simp only [blockEnd, add, sub, mul, Option.bind_eq_bind]
  rw [int64_of_bounds nonneg (by omega), Option.bind_some,
    int64_of_bounds (by omega) room, Option.bind_some,
    int64_of_bounds (by omega) (by omega), Option.bind_some,
    div_of_pos (by omega) (by omega) positive, Option.bind_some,
    int64_of_bounds product (by omega)]
  exact ⟨_, rfl⟩

theorem allocate_defined (positive : 0 < n) (nonneg : 0 ≤ originalId) (need1 : 1 ≤ need)
    (room : originalId + need + n < 2 ^ 63) :
    ∃ result, allocate n disk bucket userId originalId need updateDb s = some result := by
  have handed : ∀ t, ∃ result, handOut bucket userId originalId need t = some result := by
    intro t
    simp only [handOut, add, Option.bind_eq_bind]
    rw [int64_of_bounds (by omega) (by omega), Option.bind_some,
      int64_of_bounds (by omega) (by omega), Option.bind_some]
    exact ⟨_, rfl⟩
  obtain ⟨puts, tested⟩ : ∃ puts, needsPut n originalId need updateDb = some puts := by
    cases updateDb with
    | true => exact ⟨true, rfl⟩
    | false =>
        have place := Int.tmod_nonneg n nonneg
        have inside := Int.tmod_lt_of_pos originalId positive
        simp only [needsPut, Bool.false_eq_true, if_false, Option.bind_eq_bind]
        rw [rem_of_pos nonneg (by omega) positive, Option.bind_some, add,
          int64_of_bounds (by omega) (by omega)]
        exact ⟨_, rfl⟩
  obtain ⟨dbId, ended⟩ : ∃ dbId, blockEnd n originalId need = some dbId :=
    blockEnd_defined positive (by omega) room
  simp only [allocate, tested, Option.bind_eq_bind, Option.bind_some, ended]
  cases puts with
  | false => exact handed _
  | true =>
      cases disk.put with
      | some reason => exact ⟨_, rfl⟩
      | none => exact handed _

/-- A call has a result as long as the user is not negative and its counter is more than
a block away from the end of the 64-bit range. -/
theorem idGenerate_defined (user : 0 ≤ userId) (positive : 0 < n) (need1 : 1 ≤ need)
    (nonneg : 0 ≤ lastId s userId) (room : lastId s userId + need + n < 2 ^ 63) :
    ∃ result, idGenerate n disk userId need s = some result := by
  obtain ⟨bucket, found⟩ : ∃ bucket, index kBucketNum userId = some bucket := by
    have place := Int.tmod_nonneg (kBucketNum : Int) user
    have inside := Int.tmod_lt_of_pos userId (b := kBucketNum) (by decide)
    rw [index, dif_pos ⟨place, by omega⟩]
    exact ⟨_, rfl⟩
  by_cases empty : cached s userId = 0
  · rw [lastId_of_empty empty] at nonneg room
    cases answered : disk.get with
    | some reason => exact ⟨_, idGenerate_unread found empty answered⟩
    | none =>
        rw [idGenerate_read found empty answered]
        exact allocate_defined positive nonneg need1 room
  · rw [lastId_of_loaded empty] at nonneg room
    rw [idGenerate_loaded found empty]
    exact allocate_defined positive nonneg need1 room

end Tinyim.IdGen
