import Tinyim.Idgen.LevelDb

/-! `LevelDbIdGen::IdGenerate` over one cache from users to ids, with the reads and writes of
its slot where the code has a reference into the map of a bucket. -/
namespace Tinyim.IdGen
open Checked Sharding

structure FlatIdGen where
  cache : Int → Int
  db : Int → Option Int

/-- What a call answers, and what it leaves in the slot of its user and in LevelDB. -/
abbrev SlotResult := Except Text Int × Int × (Int → Option Int)

def handOutSlot (originalId needMsgidNum : Int) (db : Int → Option Int) : Option SlotResult := do
  let startId ← add originalId 1
  let lastId ← add originalId needMsgidNum
  return (.ok startId, lastId, db)

def allocateSlot (eachGenIdNum : Int) (disk : Disk) (userId originalId needMsgidNum : Int)
    (updateDb : Bool) (db : Int → Option Int) : Option SlotResult := do
  if ← needsPut eachGenIdNum originalId needMsgidNum updateDb then
    let dbId ← blockEnd eachGenIdNum originalId needMsgidNum
    match disk.put with
    | some reason => return (.error reason, originalId, db)
    | none => handOutSlot originalId needMsgidNum (Function.update db userId (some dbId))
  else handOutSlot originalId needMsgidNum db

def generateSlot (eachGenIdNum : Int) (disk : Disk) (userId needMsgidNum : Int)
    (db : Int → Option Int) (slot : Int) : Option SlotResult :=
  if slot = 0 then
    match disk.get with
    | some reason => some (.error reason, slot, db)
    | none =>
      allocateSlot eachGenIdNum disk userId ((db userId).getD 0) needMsgidNum true db
  else allocateSlot eachGenIdNum disk userId slot needMsgidNum false db

namespace FlatIdGen

def idGenerate (eachGenIdNum : Int) (disk : Disk) (userId needMsgidNum : Int) (s : FlatIdGen) :
    Option (Except Text Int × FlatIdGen) := do
  let (result, slot, db) ← generateSlot eachGenIdNum disk userId needMsgidNum s.db (s.cache userId)
  return (result, ⟨Function.update s.cache userId slot, db⟩)

theorem idGenerate_frame {s t : FlatIdGen}
    (called : s.idGenerate n disk userId need = some (result, t)) (other : v ≠ userId) :
    t.cache v = s.cache v := by
  simp only [idGenerate, Option.bind_eq_bind, Option.bind_eq_some_iff, Option.pure_def,
    Option.some.injEq, Prod.mk.injEq] at called
  obtain ⟨result, -, -, rfl⟩ := called
  exact Function.update_of_ne other _ _

end FlatIdGen

def LevelDbIdGen.flatten (s : LevelDbIdGen) : FlatIdGen := ⟨s.idCache.view 0, s.db⟩

/-- The result of a call on its slot, in the state of the buckets. -/
def SlotResult.inBucket (s : LevelDbIdGen) (bucket : Fin kBucketNum) (userId : Int)
    (result : SlotResult) : Except Text Int × LevelDbIdGen :=
  (result.1, ⟨s.idCache.put bucket userId result.2.1, result.2.2⟩)

theorem handOut_eq (bucket : Fin kBucketNum) (userId originalId need : Int) (s : LevelDbIdGen) :
    handOut bucket userId originalId need s =
      (handOutSlot originalId need s.db).map (·.inBucket s bucket userId) := by
  simp only [handOut, handOutSlot]
  cases add originalId 1 with
  | none => rfl
  | some startId =>
      cases add originalId need with
      | none => rfl
      | some lastId => rfl

theorem allocate_eq (n : Int) (disk : Disk) (updateDb : Bool) (need : Int) (s : LevelDbIdGen)
    (slot : s.idCache bucket userId = originalId) :
    allocate n disk bucket userId originalId need updateDb s =
      (allocateSlot n disk userId originalId need updateDb s.db).map
        (·.inBucket s bucket userId) := by
  simp only [allocate, allocateSlot]
  cases needsPut n originalId need updateDb with
  | none => rfl
  | some puts =>
      cases puts with
      | true =>
          cases blockEnd n originalId need with
          | none => rfl
          | some dbId =>
              cases disk.put with
              | some reason =>
                  have kept : s.idCache.put bucket userId originalId = s.idCache :=
                    Shards.put_eq_self _ slot
                  simp only [Option.bind_eq_bind, Option.bind_some, if_true, Option.pure_def,
                    Option.map_some, SlotResult.inBucket, kept]
              | none => exact handOut_eq bucket userId originalId need _
      | false => exact handOut_eq bucket userId originalId need s

theorem inBucket_setSlot (s : LevelDbIdGen) (bucket : Fin kBucketNum) (userId loaded : Int)
    (result : SlotResult) :
    result.inBucket (s.setSlot bucket userId loaded) bucket userId =
      result.inBucket s bucket userId := by
  simp only [SlotResult.inBucket, LevelDbIdGen.setSlot, Shards.put_put]

theorem idGenerate_eq (n : Int) (disk : Disk) (need : Int) (s : LevelDbIdGen)
    (found : index kBucketNum userId = some bucket) :
    idGenerate n disk userId need s =
      (generateSlot n disk userId need s.db (s.idCache bucket userId)).map
        (·.inBucket s bucket userId) := by
  simp only [idGenerate, generateSlot, found, Option.bind_eq_bind, Option.bind_some]
  by_cases empty : s.idCache bucket userId = 0
  · rw [if_pos empty, if_pos empty]
    cases disk.get with
    | some reason =>
        simp only [Option.pure_def, Option.map_some, SlotResult.inBucket, Shards.put_eq_self]
    | none =>
        have loaded : (s.setSlot bucket userId ((s.db userId).getD 0)).idCache bucket userId =
            (s.db userId).getD 0 := Shards.put_same _ _ _ _
        simp only [allocate_eq n disk true need _ loaded, setSlot_db, inBucket_setSlot]
  · rw [if_neg empty, if_neg empty]
    exact allocate_eq n disk false need s rfl

theorem idGenerate_flatten (n : Int) (disk : Disk) (need : Int) (s : LevelDbIdGen)
    (found : index kBucketNum userId = some bucket) :
    (idGenerate n disk userId need s).map (fun called => (called.1, called.2.flatten)) =
      s.flatten.idGenerate n disk userId need := by
  have slot : s.flatten.cache userId = s.idCache bucket userId := Shards.view_of_index _ found
  have db : s.flatten.db = s.db := rfl
  rw [idGenerate_eq n disk need s found, FlatIdGen.idGenerate, slot, db]
  cases generateSlot n disk userId need s.db (s.idCache bucket userId) with
  | none => rfl
  | some result =>
      simp only [Option.map_some, Option.bind_eq_bind, Option.bind_some, Option.pure_def,
        SlotResult.inBucket, LevelDbIdGen.flatten, Shards.view_put _ found]

theorem idGenerate_unaddressed (n : Int) (disk : Disk) (need : Int) (s : LevelDbIdGen)
    (outside : index kBucketNum userId = none) : idGenerate n disk userId need s = none := by
  rw [idGenerate, outside]
  rfl

end Tinyim.IdGen
