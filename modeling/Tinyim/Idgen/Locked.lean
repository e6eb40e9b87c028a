import Mathlib.Data.Fintype.Basic
import Tinyim.Idgen.Ranges
import Tinyim.LockedSections

/-! `LevelDbIdGen::IdGenerate` as its callers really run it: each reads and writes its slot and
LevelDB one access at a time under the mutex of its bucket, and calls on other buckets go on in
between. The process may die between any two accesses. -/
namespace Tinyim.IdGen
open Transition Checked Sharding LockedSections

structure Call where
  userId : Int
  needMsgidNum : Int
  deriving DecidableEq, Repr

inductive Stage where
  /-- Line 43, the test of the slot. -/
  | lookup
  | get
  /-- LevelDB has answered, nothing for NotFound. -/
  | load (dbId : Option Int)
  /-- Line 61. -/
  | test (updateDb : Bool)
  | blockEnd
  | put (dbId : Int)
  | start
  | handOut (startId : Int)
  | returned (result : Except Text Int)
  deriving Repr

/-- One access; `answer` is the status of the Get or the Put, `none` for OK and NotFound. -/
def access (eachGenIdNum : Int) (bucket : Fin kBucketNum) (call : Call) (answer : Option Text)
    (stage : Stage) (s : LevelDbIdGen) : Option (Stage × LevelDbIdGen) :=
  let originalId := s.idCache bucket call.userId
  match stage with
  | .lookup => some (if originalId = 0 then .get else .test false, s)
  | .get =>
    match answer with
    | some reason => some (.returned (.error reason), s)
    | none => some (.load (s.db call.userId), s)
  | .load dbId => some (.test true, s.setSlot bucket call.userId (dbId.getD 0))
  | .test updateDb => do
    let puts ← needsPut eachGenIdNum originalId call.needMsgidNum updateDb
    return (if puts then .blockEnd else .start, s)
  | .blockEnd => do
    let dbId ← blockEnd eachGenIdNum originalId call.needMsgidNum
    return (.put dbId, s)
  | .put dbId =>
    match answer with
    | some reason => some (.returned (.error reason), s)
    | none => some (.start, { s with db := Function.update s.db call.userId (some dbId) })
  | .start => do
    let startId ← add originalId 1
    return (.handOut startId, s)
  | .handOut startId => do
    let lastId ← add originalId call.needMsgidNum
    return (.returned (.ok startId), s.setSlot bucket call.userId lastId)
  | .returned _ => none

def Stage.result : Stage → Option (Except Text Int)
  | .returned result => some result
  | _ => none

def sections (eachGenIdNum : Int) :
    Sections (Fin kBucketNum) Call (Option Text) Stage LevelDbIdGen (Except Text Int) where
  lock call := index kBucketNum call.userId
  enter _ := .lookup
  next := access eachGenIdNum
  result := Stage.result
  recover := restart

/-- The slots of a bucket and the keys of its users; without a bucket, the keys of the users
that have none. -/
def part (bucket : Option (Fin kBucketNum)) (s : LevelDbIdGen) :
    (Int → Int) × (Int → Option Int) :=
  (fun u => bucket.elim 0 (s.idCache · u),
    fun u => if index kBucketNum u = bucket then s.db u else none)

def Disk.Among (answers : Option Text → Prop) (disk : Disk) : Prop :=
  ∀ reason, disk.get = some reason ∨ disk.put = some reason → answers (some reason)

/-- The block end that a call which begins in `b` puts, if it gets there. -/
def PutsBlock (n : Int) (b : LevelDbIdGen) (call : Call) (dbId : Int) : Prop :=
  needsPut n (lastId b call.userId) call.needMsgidNum (cached b call.userId = 0) = some true ∧
    blockEnd n (lastId b call.userId) call.needMsgidNum = some dbId

/-- One call after the other. When the process dies, LevelDB may hold the block ends of the
calls that then hold the mutexes. -/
inductive Sequence (n : Int) (env : Environment Call (Option Text) LevelDbIdGen)
    (a : LevelDbIdGen) :
    List (Mark (Fin kBucketNum) Call (Except Text Int)) → LevelDbIdGen → Prop where
  | start : Sequence n env a [] a
  | call (prior : Sequence n env a log b) (begins : env.begins call b)
      (among : disk.Among env.answers)
      (called : idGenerate n disk call.userId call.needMsgidNum b = some (result, c)) :
      Sequence n env a (log ++ [.finished call result]) c
  | crash (prior : Sequence n env a log b) (may : env.crashes)
      (left : ∀ u, db u = b.db u ∨ ∃ (bucket : Fin kBucketNum) (call : Call) (dbId : Int),
        under bucket = some call ∧ call.userId = u ∧ env.begins call b ∧
        PutsBlock n b call dbId ∧ db u = some dbId) :
      Sequence n env a (log ++ [.crash under]) (.init db)

variable {n : Int} {bucket : Fin kBucketNum} {call : Call} {answer : Option Text}
  {stage there : Stage} {s s' t : LevelDbIdGen}

/-- An access depends on the slot and the key of its own user, and writes at most one of
them. -/
theorem access_cases (moved : access n bucket call answer stage s = some (there, s'))
    (slot : t.idCache bucket call.userId = s.idCache bucket call.userId)
    (key : t.db call.userId = s.db call.userId) :
    ∃ t', access n bucket call answer stage t = some (there, t') ∧
      ((s' = s ∧ t' = t) ∨
        (∃ value, s' = s.setSlot bucket call.userId value ∧
          t' = t.setSlot bucket call.userId value) ∨
        ∃ value, s' = { s with db := Function.update s.db call.userId value } ∧
          t' = { t with db := Function.update t.db call.userId value }) := by
  cases stage with
  | lookup =>
      cases moved
      exact ⟨t, by simp only [access, slot], .inl ⟨rfl, rfl⟩⟩
  | get =>
      cases answer with
      | some reason =>
          cases moved
          exact ⟨t, rfl, .inl ⟨rfl, rfl⟩⟩
      | none =>
          cases moved
          exact ⟨t, by simp only [access, key], .inl ⟨rfl, rfl⟩⟩
  | load dbId =>
      cases moved
      exact ⟨_, rfl, .inr (.inl ⟨_, rfl, rfl⟩)⟩
  | test updateDb =>
      simp only [access, Option.bind_eq_bind, Option.bind_eq_some_iff] at moved
      obtain ⟨puts, tested, same⟩ := moved
      cases same
      exact ⟨t, by simp only [access, slot, tested]; rfl, .inl ⟨rfl, rfl⟩⟩
  | blockEnd =>
      simp only [access, Option.bind_eq_bind, Option.bind_eq_some_iff] at moved
      obtain ⟨dbId, ended, same⟩ := moved
      cases same
      exact ⟨t, by simp only [access, slot, ended]; rfl, .inl ⟨rfl, rfl⟩⟩
  | put dbId =>
      cases answer with
      | some reason =>
          cases moved
          exact ⟨t, rfl, .inl ⟨rfl, rfl⟩⟩
      | none =>
          cases moved
          exact ⟨_, rfl, .inr (.inr ⟨_, rfl, rfl⟩)⟩
  | start =>
      simp only [access, Option.bind_eq_bind, Option.bind_eq_some_iff] at moved
      obtain ⟨startId, added, same⟩ := moved
      cases same
      exact ⟨t, by simp only [access, slot, added]; rfl, .inl ⟨rfl, rfl⟩⟩
  | handOut startId =>
      simp only [access, Option.bind_eq_bind, Option.bind_eq_some_iff] at moved
      obtain ⟨lastId, added, same⟩ := moved
      cases same
      exact ⟨_, by simp only [access, slot, added]; rfl, .inr (.inl ⟨_, rfl, rfl⟩)⟩
  | returned result => cases moved

theorem part_eq_iff {o : Option (Fin kBucketNum)} :
    part o t = part o s ↔
      (∀ b, o = some b → t.idCache b = s.idCache b) ∧
      ∀ u, index kBucketNum u = o → t.db u = s.db u := by
  simp only [part, Prod.mk.injEq, funext_iff]
  constructor
  · rintro ⟨slots, keys⟩
    refine ⟨?_, fun u home => ?_⟩
    · rintro b rfl u
      exact slots u
    · have same := keys u
      rwa [if_pos home, if_pos home] at same
  · rintro ⟨slots, keys⟩
    refine ⟨fun u => ?_, fun u => ?_⟩
    · cases o with
      | none => rfl
      | some b => exact slots b rfl u
    · by_cases home : index kBucketNum u = o
      · rw [if_pos home, if_pos home, keys u home]
      · rw [if_neg home, if_neg home]

theorem part_setSlot {o : Option (Fin kBucketNum)} (other : o ≠ some bucket) (u v : Int) :
    part o (s.setSlot bucket u v) = part o s := by
  apply part_eq_iff.mpr
  refine ⟨fun b same => ?_, fun _ _ => rfl⟩
  have different : b ≠ bucket := fun equal => other (equal ▸ same)
  exact Function.update_of_ne different _ _

theorem part_put {o : Option (Fin kBucketNum)} (home : index kBucketNum u = some bucket)
    (other : o ≠ some bucket) (value : Option Int) :
    part o { s with db := Function.update s.db u value } = part o s := by
  apply part_eq_iff.mpr
  refine ⟨fun _ _ => rfl, fun v found => ?_⟩
  have different : v ≠ u := fun equal => other (found ▸ equal ▸ home)
  exact Function.update_of_ne different _ _

/-- What an assumption on the beginning of a call may look at. -/
def Guarded (begins : Call → LevelDbIdGen → Prop) : Prop :=
  ∀ ⦃call s t bucket⦄, index kBucketNum call.userId = some bucket →
    part (some bucket) t = part (some bucket) s → begins call s → begins call t

theorem sections_separated (n : Int) {env : Environment Call (Option Text) LevelDbIdGen}
    (guarded : Guarded env.begins) : Separated (sections n) env part where
  frame {call bucket answer stage s there s' o} home moved other := by
    obtain ⟨_, -, ⟨rfl, -⟩ | ⟨value, rfl, -⟩ | ⟨value, rfl, -⟩⟩ := access_cases moved rfl rfl
    · rfl
    · exact part_setSlot other _ _
    · exact part_put home other value
  reads {call bucket answer stage s there s' t} home moved same := by
    obtain ⟨slots, keys⟩ := part_eq_iff.mp same
    have slot : t.idCache bucket = s.idCache bucket := slots bucket rfl
    obtain ⟨t', moves, both⟩ := access_cases moved (congrFun slot _) (keys _ home)
    refine ⟨t', moves, part_eq_iff.mpr ?_⟩
    obtain ⟨rfl, rfl⟩ | ⟨value, rfl, rfl⟩ | ⟨value, rfl, rfl⟩ := both
    · exact ⟨slots, keys⟩
    · refine ⟨fun b equal => ?_, keys⟩
      cases equal
      simp only [LevelDbIdGen.setSlot, Shards.put, Function.update_self, slot]
    · refine ⟨slots, fun u found => ?_⟩
      simp only [Function.update_apply, keys u found]
  begins home same begins := guarded home same begins
  ext {s t} same := by
    have slots : s.idCache = t.idCache := by
      funext b
      exact (part_eq_iff.mp (same (some b))).1 b rfl
    have keys : s.db = t.db := by
      funext u
      exact (part_eq_iff.mp (same (index kBucketNum u))).2 u rfl
    cases s
    cases t
    simp only at slots keys
    rw [slots, keys]

/-! What is left of a call that nobody interrupts, from each stage on. -/

def fromPut (bucket : Fin kBucketNum) (call : Call) (disk : Disk) (dbId : Int)
    (s : LevelDbIdGen) : Option (Except Text Int × LevelDbIdGen) :=
  match disk.put with
  | some reason => some (.error reason, s)
  | none =>
    handOut bucket call.userId (s.idCache bucket call.userId) call.needMsgidNum
      { s with db := Function.update s.db call.userId (some dbId) }

def fromLoad (n : Int) (bucket : Fin kBucketNum) (call : Call) (disk : Disk)
    (dbId : Option Int) (s : LevelDbIdGen) : Option (Except Text Int × LevelDbIdGen) :=
  allocate n disk bucket call.userId (dbId.getD 0) call.needMsgidNum true
    (s.setSlot bucket call.userId (dbId.getD 0))

def fromGet (n : Int) (bucket : Fin kBucketNum) (call : Call) (disk : Disk)
    (s : LevelDbIdGen) : Option (Except Text Int × LevelDbIdGen) :=
  match disk.get with
  | some reason => some (.error reason, s)
  | none => fromLoad n bucket call disk (s.db call.userId) s

def rest (n : Int) (bucket : Fin kBucketNum) (call : Call) (disk : Disk) (stage : Stage)
    (s : LevelDbIdGen) : Option (Except Text Int × LevelDbIdGen) :=
  let originalId := s.idCache bucket call.userId
  match stage with
  | .lookup =>
    if originalId = 0 then fromGet n bucket call disk s
    else allocate n disk bucket call.userId originalId call.needMsgidNum false s
  | .get => fromGet n bucket call disk s
  | .load dbId => fromLoad n bucket call disk dbId s
  | .test updateDb => allocate n disk bucket call.userId originalId call.needMsgidNum updateDb s
  | .blockEnd =>
    (blockEnd n originalId call.needMsgidNum).bind (fromPut bucket call disk · s)
  | .put dbId => fromPut bucket call disk dbId s
  | .start => handOut bucket call.userId originalId call.needMsgidNum s
  | .handOut startId =>
    (add originalId call.needMsgidNum).map fun lastId =>
      (.ok startId, s.setSlot bucket call.userId lastId)
  | .returned result => some (result, s)

variable {answers : Option Text → Prop} {disk : Disk}
  {returned : Except Text Int × LevelDbIdGen}

theorem rest_of_access (answered : answers answer)
    (moved : access n bucket call answer stage s = some (there, s'))
    (among : disk.Among answers) (later : rest n bucket call disk there s' = some returned) :
    ∃ earlier : Disk, earlier.Among answers ∧
      rest n bucket call earlier stage s = some returned := by
  cases stage with
  | lookup =>
      cases moved
      refine ⟨disk, among, ?_⟩
      by_cases empty : s.idCache bucket call.userId = 0
      · simpa only [rest, empty, if_true] using later
      · simpa only [rest, empty, if_false] using later
  | get =>
      cases answer with
      | some reason =>
          cases moved
          refine ⟨{ disk with get := some reason }, ?_, later⟩
          rintro other (same | refused)
          · cases same
            exact answered
          · exact among other (.inr refused)
      | none =>
          cases moved
          refine ⟨{ disk with get := none }, ?_, later⟩
          rintro other (absurd | refused)
          · cases absurd
          · exact among other (.inr refused)
  | load dbId =>
      cases moved
      refine ⟨disk, among, ?_⟩
      simpa only [rest, fromLoad, LevelDbIdGen.setSlot, Shards.put_same] using later
  | test updateDb =>
      simp only [access, Option.bind_eq_bind, Option.bind_eq_some_iff] at moved
      obtain ⟨puts, tested, same⟩ := moved
      cases same
      refine ⟨disk, among, ?_⟩
      simp only [rest, allocate, tested, Option.bind_eq_bind, Option.bind_some]
      cases puts with
      | true => exact later
      | false => exact later
  | blockEnd =>
      simp only [access, Option.bind_eq_bind, Option.bind_eq_some_iff] at moved
      obtain ⟨dbId, ended, same⟩ := moved
      cases same
      exact ⟨disk, among, by simpa only [rest, ended, Option.bind_some] using later⟩
  | put dbId =>
      cases answer with
      | some reason =>
          cases moved
          refine ⟨{ disk with put := some reason }, ?_, later⟩
          rintro other (unread | same)
          · exact among other (.inl unread)
          · cases same
            exact answered
      | none =>
          cases moved
          refine ⟨{ disk with put := none }, ?_, later⟩
          rintro other (unread | absurd)
          · exact among other (.inl unread)
          · cases absurd
  | start =>
      simp only [access, Option.bind_eq_bind, Option.bind_eq_some_iff] at moved
      obtain ⟨startId, added, same⟩ := moved
      cases same
      refine ⟨disk, among, ?_⟩
      simp only [rest, handOut, added, Option.bind_eq_bind, Option.bind_some]
      simp only [rest] at later
      rw [← later]
      cases add (s.idCache bucket call.userId) call.needMsgidNum <;> rfl
  | handOut startId =>
      simp only [access, Option.bind_eq_bind, Option.bind_eq_some_iff] at moved
      obtain ⟨lastId, added, same⟩ := moved
      cases same
      exact ⟨disk, among, by simpa only [rest, added, Option.map_some] using later⟩
  | returned result => cases moved

theorem rest_of_steps {env : Environment Call (Option Text) LevelDbIdGen}
    {result : Except Text Int}
    (steps : Steps (sections n) env bucket call (stage, s) (.returned result, s')) :
    ∃ disk : Disk, disk.Among env.answers ∧
      rest n bucket call disk stage s = some (result, s') := by
  suffices ends : ∀ p : Stage × LevelDbIdGen,
      Steps (sections n) env bucket call p (.returned result, s') →
      ∃ disk : Disk, disk.Among env.answers ∧
        rest n bucket call disk p.1 p.2 = some (result, s') from ends _ steps
  intro p steps
  induction steps using Relation.ReflTransGen.head_induction_on with
  | refl =>
      refine ⟨{}, ?_, rfl⟩
      rintro reason (absurd | absurd)
      · cases absurd
      · cases absurd
  | head first _ ih =>
      obtain ⟨answer, answered, moved⟩ := first
      obtain ⟨disk, among, later⟩ := ih
      exact rest_of_access answered moved among later

/-- A call that runs alone is `IdGenerate`. -/
theorem idGenerate_of_steps {env : Environment Call (Option Text) LevelDbIdGen}
    {result : Except Text Int} (home : index kBucketNum call.userId = some bucket)
    (steps : Steps (sections n) env bucket call (.lookup, s) (.returned result, s')) :
    ∃ disk : Disk, disk.Among env.answers ∧
      idGenerate n disk call.userId call.needMsgidNum s = some (result, s') := by
  obtain ⟨disk, among, whole⟩ := rest_of_steps steps
  refine ⟨disk, among, ?_⟩
  rw [← whole]
  simp only [idGenerate, home, Option.bind_eq_bind, Option.bind_some, rest]
  rfl

/-- Where a call that began in `b` can stand. -/
def Midway (n : Int) (bucket : Fin kBucketNum) (call : Call) (b : LevelDbIdGen) :
    Stage → LevelDbIdGen → Prop
  | .lookup, t => t = b
  | .get, t => t = b ∧ cached b call.userId = 0
  | .load dbId, t => t = b ∧ cached b call.userId = 0 ∧ dbId = b.db call.userId
  | .test updateDb, t =>
    t.idCache bucket call.userId = lastId b call.userId ∧ t.db = b.db ∧
      updateDb = decide (cached b call.userId = 0)
  | .blockEnd, t =>
    t.idCache bucket call.userId = lastId b call.userId ∧ t.db = b.db ∧
      needsPut n (lastId b call.userId) call.needMsgidNum (cached b call.userId = 0) = some true
  | .put dbId, t => t.db = b.db ∧ PutsBlock n b call dbId
  | .start, t | .handOut _, t | .returned _, t =>
    t.db = b.db ∨ ∃ dbId, PutsBlock n b call dbId ∧
      t.db = Function.update b.db call.userId (some dbId)

variable {a b c : LevelDbIdGen} {env : Environment Call (Option Text) LevelDbIdGen}
  {log : List (Mark (Fin kBucketNum) Call (Except Text Int))}
  {under : Fin kBucketNum → Option Call}

theorem midway_access (home : index kBucketNum call.userId = some bucket)
    (midway : Midway n bucket call b stage s)
    (moved : access n bucket call answer stage s = some (there, s')) :
    Midway n bucket call b there s' := by
  have slot : b.idCache bucket call.userId = cached b call.userId :=
    (Shards.view_of_index _ home).symm
  cases stage with
  | lookup =>
      cases moved
      obtain rfl : s = b := midway
      by_cases empty : s.idCache bucket call.userId = 0
      · rw [if_pos empty]
        exact ⟨rfl, slot ▸ empty⟩
      · rw [if_neg empty]
        have loaded : cached s call.userId ≠ 0 := slot ▸ empty
        exact ⟨by rw [lastId_of_loaded loaded, slot], rfl, (decide_eq_false loaded).symm⟩
  | get =>
      obtain ⟨rfl, empty⟩ := midway
      cases answer with
      | some reason =>
          cases moved
          exact .inl rfl
      | none =>
          cases moved
          exact ⟨rfl, empty, rfl⟩
  | load dbId =>
      cases moved
      obtain ⟨rfl, empty, rfl⟩ := midway
      refine ⟨?_, rfl, (decide_eq_true empty).symm⟩
      rw [lastId_of_empty empty]
      exact Shards.put_same _ _ _ _
  | test updateDb =>
      simp only [access, Option.bind_eq_bind, Option.bind_eq_some_iff] at moved
      obtain ⟨puts, tested, same⟩ := moved
      cases same
      obtain ⟨slot, keys, rfl⟩ := midway
      cases puts with
      | true => exact ⟨slot, keys, slot ▸ tested⟩
      | false => exact .inl keys
  | blockEnd =>
      simp only [access, Option.bind_eq_bind, Option.bind_eq_some_iff] at moved
      obtain ⟨dbId, ended, same⟩ := moved
      cases same
      obtain ⟨slot, keys, needed⟩ := midway
      exact ⟨keys, needed, slot ▸ ended⟩
  | put dbId =>
      obtain ⟨kept, ended⟩ := midway
      cases answer with
      | some reason =>
          cases moved
          exact .inl kept
      | none =>
          cases moved
          exact .inr ⟨dbId, ended, by rw [kept]⟩
  | start =>
      simp only [access, Option.bind_eq_bind, Option.bind_eq_some_iff] at moved
      obtain ⟨startId, -, same⟩ := moved
      cases same
      exact midway
  | handOut startId =>
      simp only [access, Option.bind_eq_bind, Option.bind_eq_some_iff] at moved
      obtain ⟨lastId, -, same⟩ := moved
      cases same
      exact midway
  | returned result => cases moved

theorem midway_steps (home : index kBucketNum call.userId = some bucket)
    (steps : Steps (sections n) env bucket call (.lookup, b) (stage, t)) :
    Midway n bucket call b stage t := by
  suffices along : ∀ p : Stage × LevelDbIdGen,
      Steps (sections n) env bucket call (.lookup, b) p → Midway n bucket call b p.1 p.2 from
    along _ steps
  intro p steps
  induction steps with
  | refl => exact rfl
  | tail _ last ih =>
      obtain ⟨answer, -, moved⟩ := last
      exact midway_access home ih moved

/-- All that a call ever does to LevelDB is to put the end of the block that its ids reach. -/
theorem Midway.db (midway : Midway n bucket call b stage t) (u : Int) :
    t.db u = b.db u ∨ ∃ dbId, call.userId = u ∧ PutsBlock n b call dbId ∧
      t.db u = some dbId := by
  have putting : t.db = b.db ∨ ∃ dbId, PutsBlock n b call dbId ∧
      t.db = Function.update b.db call.userId (some dbId) := by
    cases stage with
    | lookup => exact .inl (congrArg LevelDbIdGen.db midway)
    | get => exact .inl (congrArg LevelDbIdGen.db midway.1)
    | load => exact .inl (congrArg LevelDbIdGen.db midway.1)
    | test => exact .inl midway.2.1
    | blockEnd => exact .inl midway.2.1
    | put => exact .inl midway.1
    | start => exact midway
    | handOut => exact midway
    | returned => exact midway
  obtain kept | ⟨dbId, puts, put⟩ := putting
  · exact .inl (congrFun kept u)
  · by_cases self : u = call.userId
    · subst self
      exact .inr ⟨dbId, rfl, puts, by rw [put, Function.update_self]⟩
    · exact .inl (by rw [put, Function.update_of_ne self])

theorem torn_db (torn : Torn (sections n) env part under b c) (u : Int) :
    c.db u = b.db u ∨ ∃ (bucket : Fin kBucketNum) (call : Call) (dbId : Int),
      under bucket = some call ∧ call.userId = u ∧ env.begins call b ∧
      PutsBlock n b call dbId ∧ c.db u = some dbId := by
  cases home : index kBucketNum u with
  | none => exact .inl ((part_eq_iff.mp torn.unguarded).2 u home)
  | some bucket =>
      cases holder : under bucket with
      | none => exact .inl ((part_eq_iff.mp (torn.free holder)).2 u home)
      | some call =>
          obtain ⟨locked, begins, stage, t, steps, same⟩ := torn.held holder
          have keys : c.db u = t.db u := (part_eq_iff.mp same).2 u home
          obtain kept | ⟨dbId, self, puts, put⟩ := (midway_steps locked steps).db u
          · exact .inl (keys.trans kept)
          · exact .inr ⟨bucket, call, dbId, holder, self, begins, puts, keys.trans put⟩

theorem sequence_of_serial (serial : Serial (sections n) env part a log b) :
    Sequence n env a log b := by
  induction serial with
  | start => exact .start
  | @finish _ _ call _ stage _ result _ locked begins ran ended ih =>
      obtain rfl : stage = .returned result := by
        cases stage <;> cases ended
        rfl
      obtain ⟨disk, among, called⟩ := idGenerate_of_steps locked ran
      exact ih.call begins among called
  | crash _ may torn ih => exact ih.crash may (torn_db torn)

/-- However the accesses of the calls interleave, and wherever the process dies, the calls
return what they return one after the other in the order in which they give the mutexes back. -/
theorem sequence_of_run (guarded : Guarded env.begins)
    (run : Run (sections n).step env.Admits { shared := a } es m) :
    ∃ b, Sequence n env a m.log b ∧
      ∀ bucket, m.holders bucket = none → part (some bucket) b = part (some bucket) m.shared := by
  obtain ⟨b, serial, pending⟩ := serializable (sections_separated n guarded) run
  exact ⟨b, sequence_of_serial serial, fun bucket free => pending.free free⟩

theorem cached_of_part (home : index kBucketNum u = some bucket)
    (same : part (some bucket) t = part (some bucket) s) : cached t u = cached s u := by
  have slots := (part_eq_iff.mp same).1 bucket rfl
  rw [cached, cached, Shards.view_of_index _ home, Shards.view_of_index _ home, slots]

theorem db_of_part (home : index kBucketNum u = some bucket)
    (same : part (some bucket) t = part (some bucket) s) : t.db u = s.db u :=
  (part_eq_iff.mp same).2 u home

/-- Nothing is assumed of the callers, of LevelDB or of the process. -/
theorem calls_serialize
    (run : Run (sections n).step (fun _ _ => True) { shared := a } es m) :
    ∃ b, Sequence n {} a m.log b ∧
      ∀ bucket, m.holders bucket = none → ∀ u, index kBucketNum u = some bucket →
        cached b u = cached m.shared u ∧ b.db u = m.shared.db u := by
  have admitted : Run (sections n).step (Environment.Admits {}) { shared := a } es m := by
    refine run.mono fun m event _ => ?_
    cases event <;> trivial
  obtain ⟨b, sequence, agrees⟩ := sequence_of_run (fun _ _ _ _ _ _ begins => begins) admitted
  refine ⟨b, sequence, fun bucket free u home => ?_⟩
  exact ⟨cached_of_part home (agrees bucket free), db_of_part home (agrees bucket free)⟩

/-- The buckets of the users 7 and 9, and several accesses under one of their mutexes. -/
def bucket7 : Fin kBucketNum := ⟨7, by decide⟩

def bucket9 : Fin kBucketNum := ⟨9, by decide⟩

def accesses (bucket : Fin kBucketNum) (count : Nat) :
    List (LockedSections.Event (Fin kBucketNum) Call (Option Text)) :=
  List.replicate count (.advance bucket none)

/-- The process dies when one call has put its block and another has not. -/
def deathBetweenPuts : List (LockedSections.Event (Fin kBucketNum) Call (Option Text)) :=
  List.flatten [[.acquire ⟨7, 5⟩, .acquire ⟨9, 3⟩], accesses bucket7 6, accesses bucket9 3,
    [.crash, .acquire ⟨9, 3⟩, .acquire ⟨7, 1⟩], accesses bucket7 4,
    [.advance bucket9 none, .advance bucket9 (some []), .release bucket9], accesses bucket7 4,
    [.release bucket7]]

def callsAtDeath (bucket : Fin kBucketNum) : Option Call :=
  if bucket = bucket7 then some ⟨7, 5⟩ else if bucket = bucket9 then some ⟨9, 3⟩ else none

/-- The next call goes on behind the block that the dead process put. -/
theorem calls_serialize_death :
    ∃ m, Run (sections 1024).step (fun _ _ => True) { shared := .init fun _ => none }
        deathBetweenPuts m ∧
      m.log = [.crash callsAtDeath, .finished ⟨9, 3⟩ (.error []),
        .finished ⟨7, 1⟩ (.ok 1025)] ∧
      ∃ b, Sequence 1024 {} (.init fun _ => none) m.log b ∧
        cached b 7 = cached m.shared 7 ∧ b.db 7 = m.shared.db 7 := by
  obtain ⟨m, run, checked⟩ : ∃ m, Run (sections 1024).step (fun _ _ => True)
      { shared := .init fun _ => none } deathBetweenPuts m ∧ _ :=
    Run.of_check (sections 1024).step (fun _ _ => true) { shared := .init fun _ => none }
      deathBetweenPuts
      (fun m => decide (m.log =
          [.crash callsAtDeath, .finished ⟨9, 3⟩ (.error []), .finished ⟨7, 1⟩ (.ok 1025)] ∧
        (m.holders bucket7).isNone = true))
      (fun _ _ _ => trivial) (by decide +kernel)
  obtain ⟨log, free⟩ := of_decide_eq_true checked
  obtain ⟨b, sequence, agrees⟩ := calls_serialize run
  exact ⟨m, run, log, b, sequence, agrees bucket7 (Option.isNone_iff_eq_none.mp free) 7
    (by decide)⟩

/-- The ids that callers have got. -/
def granted (log : List (Mark (Fin kBucketNum) Call (Except Text Int))) : List Grant :=
  log.filterMap fun
    | .finished call (.ok startId) => some ⟨call.userId, startId, call.needMsgidNum⟩
    | _ => none

theorem granted_call
    (called : idGenerate n disk call.userId call.needMsgidNum b = some (result, c)) :
    step n ⟨b, granted log⟩ (.call disk call.userId call.needMsgidNum) =
      some ⟨c, granted (log ++ [.finished call result])⟩ := by
  simp only [step, called, Option.map_some, granted, List.filterMap_append]
  cases result with
  | ok startId => rfl
  | error reason => simp

theorem granted_crash : granted (log ++ [.crash under]) = granted log := by
  simp [granted]

/-- LevelDB answers, and calls that would skip the Put of a new block do not begin. The process
may die at any time. -/
def careful (n : Int) : Environment Call (Option Text) LevelDbIdGen where
  begins call s := 1 ≤ call.needMsgidNum ∧
    ¬ BoundaryCall n ⟨s, []⟩ (.call {} call.userId call.needMsgidNum)
  answers answer := answer = none

theorem guarded_careful : Guarded (careful n).begins := by
  intro call s t bucket home same
  rintro ⟨need1, offBoundary⟩
  refine ⟨need1, fun boundary => offBoundary ?_⟩
  simpa only [BoundaryCall, cached_of_part home same] using boundary

theorem disk_careful (among : disk.Among (careful n).answers) : disk = {} := by
  cases disk with
  | mk get put =>
      obtain rfl : get = none := by
        cases get with
        | none => rfl
        | some reason => exact among reason (.inl rfl)
      obtain rfl : put = none := by
        cases put with
        | none => rfl
        | some reason => exact among reason (.inr rfl)
      rfl

theorem lastId_le_blockEnd (positive : 0 < n) (nonneg : 0 ≤ lastId b u) (need1 : 1 ≤ need)
    (ended : blockEnd n (lastId b u) need = some dbId) : lastId b u ≤ dbId := by
  have quotient : (lastId b u + need + n - 1).tdiv n = (lastId b u + need + n - 1) / n :=
    Int.tdiv_eq_ediv_of_nonneg (by omega)
  have reached := le_roundUp (x := lastId b u + need) positive
  rw [blockEnd_eq_some ended, quotient]
  omega

theorem Covered.crash {grants : List Grant} (covered : Covered n ⟨b, grants⟩) (positive : 0 < n)
    (left : ∀ u, db u = b.db u ∨ ∃ (bucket : Fin kBucketNum) (call : Call) (dbId : Int),
      under bucket = some call ∧ call.userId = u ∧ (careful n).begins call b ∧
      PutsBlock n b call dbId ∧ db u = some dbId) :
    Covered n ⟨.init db, grants⟩ := by
  have kept : ∀ u, lastId b u ≤ lastId (.init db) u := by
    intro u
    rw [lastId_init]
    obtain same | ⟨-, call, dbId, -, rfl, ⟨need1, -⟩, ⟨-, ended⟩, put⟩ := left u
    · rw [same]
      exact covered.lastId_le_stored positive u
    · rw [put]
      exact lastId_le_blockEnd positive (covered.lastId_nonneg _) need1 ended
  refine ⟨fun u => ?_, fun u => ?_, fun u loaded => ?_, fun g member => ?_, covered.ordered⟩
  · rw [cached_init]
  · have above := (covered.lastId_nonneg u).trans (kept u)
    rwa [lastId_init] at above
  · exact absurd (cached_init db u) loaded
  · exact (covered.bounded g member).trans (kept g.userId)

theorem covered_sequence (positive : 0 < n) (covered : Covered n ⟨a, []⟩)
    (sequence : Sequence n (careful n) a log b) : Covered n ⟨b, granted log⟩ := by
  induction sequence with
  | start => exact covered
  | call _ begins among called ih =>
      obtain rfl := disk_careful among
      exact covered_step (e := .call {} _ _) ih positive ⟨rfl, begins.1⟩ begins.2
        (granted_call called)
  | crash _ _ left ih =>
      rw [granted_crash]
      exact ih.crash positive left

/-- Whatever interleaves and wherever the process dies, no id is given out twice, and the ids of
a user ascend in the order in which its calls return. -/
theorem granted_ordered (positive : 0 < n) (nonneg : ∀ u v, db u = some v → 0 ≤ v)
    (run : Run (sections n).step (careful n).Admits { shared := .init db } es m) :
    Ordered (granted m.log) := by
  obtain ⟨b, sequence, -⟩ := sequence_of_run guarded_careful run
  exact (covered_sequence positive (covered_init db nonneg) sequence).ordered

instance (m : Machine (Fin kBucketNum) Call Stage LevelDbIdGen (Except Text Int))
    (e : LockedSections.Event (Fin kBucketNum) Call (Option Text)) :
    Decidable ((careful n).Admits m e) :=
  match e with
  | .acquire call => inferInstanceAs (Decidable (1 ≤ call.needMsgidNum ∧
      ¬ BoundaryCall n ⟨m.shared, []⟩ (.call {} call.userId call.needMsgidNum)))
  | .advance _ answer => inferInstanceAs (Decidable (answer = none))
  | .release _ => inferInstanceAs (Decidable True)
  | .crash => inferInstanceAs (Decidable True)

/-- Two users at once; then a call that needs no Put is under way when the process dies. -/
def deathInBlock : List (LockedSections.Event (Fin kBucketNum) Call (Option Text)) :=
  List.flatten [[.acquire ⟨7, 5⟩, .acquire ⟨9, 3⟩], accesses bucket7 7, accesses bucket9 8,
    accesses bucket7 1, [.release bucket9, .release bucket7, .acquire ⟨7, 4⟩],
    accesses bucket7 3, [.crash, .acquire ⟨7, 2⟩], accesses bucket7 8, [.release bucket7]]

theorem granted_ordered_death :
    ∃ m, Run (sections 1024).step (careful 1024).Admits { shared := .init fun _ => none }
        deathInBlock m ∧
      granted m.log = [⟨9, 1, 3⟩, ⟨7, 1, 5⟩, ⟨7, 1025, 2⟩] ∧ Ordered (granted m.log) := by
  obtain ⟨m, run, grants⟩ : ∃ m, Run (sections 1024).step (careful 1024).Admits
      { shared := .init fun _ => none } deathInBlock m ∧ _ :=
    Run.of_check (sections 1024).step (fun m e => decide ((careful 1024).Admits m e))
      { shared := .init fun _ => none } deathInBlock
      (fun m => decide (granted m.log = [⟨9, 1, 3⟩, ⟨7, 1, 5⟩, ⟨7, 1025, 2⟩]))
      (fun _ _ => of_decide_eq_true) (by decide +kernel)
  exact ⟨m, run, of_decide_eq_true grants, granted_ordered (by decide) (by simp) run⟩

/-- One lifetime of the process, whatever LevelDB answers. -/
def lifetime : Environment Call (Option Text) LevelDbIdGen where
  begins call _ := 1 ≤ call.needMsgidNum
  crashes := False

theorem contiguous_sequence {first : Int → Int} (contiguous : Contiguous first ⟨a, []⟩)
    (sequence : Sequence n lifetime a log b) : Contiguous first ⟨b, granted log⟩ := by
  induction sequence with
  | start => exact contiguous
  | call _ begins _ called ih =>
      exact contiguous_step (e := .call _ _ _) ih begins (granted_call called)
  | crash _ may _ _ => exact may.elim

/-- At any moment, with calls under way, the ids that a user has got are the first ones after
the value that LevelDB held. -/
theorem granted_without_gap (nonneg : ∀ u v, db u = some v → 0 ≤ v)
    (run : Run (sections n).step lifetime.Admits { shared := .init db } es m) (userId : Int) :
    ∃ next, Tiles ((db userId).getD 0 + 1) next
      ((granted m.log).filter (·.userId = userId)) ∧
      ∀ bucket, index kBucketNum userId = some bucket → m.holders bucket = none →
        next = lastId m.shared userId + 1 := by
  obtain ⟨b, sequence, agrees⟩ := sequence_of_run (fun _ _ _ _ _ _ begins => begins) run
  have contiguous := contiguous_sequence (contiguous_init nonneg) sequence
  refine ⟨_, contiguous.tiles userId, fun bucket home free => ?_⟩
  have same := agrees bucket free
  rw [lastId, lastId, stored, stored, cached_of_part home same, db_of_part home same]

instance (m : Machine (Fin kBucketNum) Call Stage LevelDbIdGen (Except Text Int))
    (e : LockedSections.Event (Fin kBucketNum) Call (Option Text)) :
    Decidable (lifetime.Admits m e) :=
  match e with
  | .acquire call => inferInstanceAs (Decidable (1 ≤ call.needMsgidNum))
  | .advance _ _ => inferInstanceAs (Decidable True)
  | .release _ => inferInstanceAs (Decidable True)
  | .crash => inferInstanceAs (Decidable False)

/-- A failed Put of user 23 before the calls of user 7, which wait for the same mutex. -/
def sharedBucket : List (LockedSections.Event (Fin kBucketNum) Call (Option Text)) :=
  List.flatten [[.acquire ⟨23, 2⟩], accesses bucket7 5,
    [.advance bucket7 (some []), .release bucket7, .acquire ⟨7, 5⟩], accesses bucket7 8,
    [.release bucket7, .acquire ⟨7, 3⟩], accesses bucket7 4, [.release bucket7]]

theorem granted_without_gap_shared :
    ∃ m, Run (sections 1024).step lifetime.Admits
        { shared := .init fun u => if u = 7 then some 2048 else none } sharedBucket m ∧
      granted m.log = [⟨7, 2049, 5⟩, ⟨7, 2054, 3⟩] ∧
      Tiles 2049 2057 ((granted m.log).filter (·.userId = 7)) := by
  obtain ⟨m, run, checked⟩ : ∃ m, Run (sections 1024).step lifetime.Admits
      { shared := .init fun u => if u = 7 then some 2048 else none } sharedBucket m ∧ _ :=
    Run.of_check (sections 1024).step (fun m e => decide (lifetime.Admits m e))
      { shared := .init fun u => if u = 7 then some 2048 else none } sharedBucket
      (fun m => decide (granted m.log = [⟨7, 2049, 5⟩, ⟨7, 2054, 3⟩] ∧
        lastId m.shared 7 = 2056 ∧ (m.holders bucket7).isNone = true))
      (fun _ _ => of_decide_eq_true) (by decide +kernel)
  obtain ⟨grants, counter, free⟩ := of_decide_eq_true checked
  obtain ⟨next, tiles, reached⟩ := granted_without_gap (by simp) run 7
  obtain rfl := reached bucket7 (by decide) (Option.isNone_iff_eq_none.mp free)
  rw [counter] at tiles
  exact ⟨m, run, grants, tiles⟩

end Tinyim.IdGen
