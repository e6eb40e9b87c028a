import Tinyim.Dbproxy.LastSendRecord
import Tinyim.Idgen.Grants

/-! LevelDB as `IdGenerate` uses it: its keys and values are texts. The store of numbers is
what can be read of it, and no call can tell the two apart. -/
namespace Tinyim.IdGen
open Checked Sharding Transition Dbproxy

/-- `std::stoll`, which throws where this is `none`. -/
def stoll (text : Text) : Option Int := do
  let (value, _) ← scanInt text
  int64 value

inductive Return where
  | startId (id : Int)
  | status (reason : Text)
  | thrown
  deriving DecidableEq, Repr

def Return.ofResult : Except Text Int → Return
  | .ok id => .startId id
  | .error reason => .status reason

structure TextIdGen where
  idCache : Shards kBucketNum Int
  db : Text → Option Text

namespace TextIdGen

def init (db : Text → Option Text) : TextIdGen := ⟨fun _ _ => 0, db⟩

def setSlot (s : TextIdGen) (bucket : Fin kBucketNum) (userId value : Int) : TextIdGen :=
  { s with idCache := s.idCache.put bucket userId value }

def handOut (bucket : Fin kBucketNum) (userId originalId needMsgidNum : Int) (s : TextIdGen) :
    Option (Return × TextIdGen) := do
  let startId ← add originalId 1
  let lastId ← add originalId needMsgidNum
  return (.startId startId, s.setSlot bucket userId lastId)

/-- Lines 61 to 78; `std::to_string` writes the key and the value. -/
def allocate (eachGenIdNum : Int) (disk : Disk) (bucket : Fin kBucketNum)
    (userId originalId needMsgidNum : Int) (updateDb : Bool) (s : TextIdGen) :
    Option (Return × TextIdGen) := do
  if ← needsPut eachGenIdNum originalId needMsgidNum updateDb then
    let dbId ← blockEnd eachGenIdNum originalId needMsgidNum
    match disk.put with
    | some reason => return (.status reason, s)
    | none =>
      handOut bucket userId originalId needMsgidNum
        { s with db := Function.update s.db (decimal userId) (some (decimal dbId)) }
  else handOut bucket userId originalId needMsgidNum s

def idGenerate (eachGenIdNum : Int) (disk : Disk) (userId needMsgidNum : Int) (s : TextIdGen) :
    Option (Return × TextIdGen) := do
  let bucket ← index kBucketNum userId
  if s.idCache bucket userId = 0 then
    match disk.get with
    | some reason => return (.status reason, s)
    | none =>
      match s.db (decimal userId) with
      | none =>
        allocate eachGenIdNum disk bucket userId 0 needMsgidNum true (s.setSlot bucket userId 0)
      | some dbId =>
        match stoll dbId with
        | none => return (.thrown, s)
        | some loaded =>
          allocate eachGenIdNum disk bucket userId loaded needMsgidNum true
            (s.setSlot bucket userId loaded)
  else allocate eachGenIdNum disk bucket userId (s.idCache bucket userId) needMsgidNum false s

/-- The store of numbers that the texts stand for. -/
def view (s : TextIdGen) : LevelDbIdGen :=
  ⟨s.idCache, fun userId => (s.db (decimal userId)).bind stoll⟩

/-- What LevelDB holds for a user can be read. -/
def Readable (db : Text → Option Text) : Prop :=
  ∀ userId text, db (decimal userId) = some text → (stoll text).isSome = true

end TextIdGen

theorem stoll_decimal (fits : int64 i = some j) : stoll (decimal i) = some i := by
  have scanned := scanInt_decimal i [] (by simp)
  rw [List.append_nil] at scanned
  have same := int64_eq_some fits
  simp only [stoll, scanned, Option.bind_eq_bind, Option.bind_some, fits, same]

theorem blockEnd_fits (ended : blockEnd n originalId need = some dbId) :
    int64 dbId = some dbId := by
  simp only [blockEnd, Option.bind_eq_bind, Option.bind_eq_some_iff] at ended
  obtain ⟨last, -, raised, -, padded, -, block, -, scaled⟩ := ended
  have product : int64 (block * n) = some dbId := scaled
  rwa [← int64_eq_some product] at product

variable {n : Int} {disk : Disk} {userId need : Int} {t t' : TextIdGen} {bucket : Fin kBucketNum}

/-- The result and the state of a call as the store of numbers has them. -/
def Return.seen (called : Option (Except Text Int × LevelDbIdGen)) :
    Option (Return × LevelDbIdGen) :=
  called.map (Prod.map .ofResult id)

namespace TextIdGen

theorem view_put (t : TextIdGen) (read : stoll (decimal dbId) = some dbId) :
    view { t with db := Function.update t.db (decimal userId) (some (decimal dbId)) } =
      { t.view with db := Function.update t.view.db userId (some dbId) } := by
  simp only [view, LevelDbIdGen.mk.injEq, true_and]
  funext v
  by_cases same : v = userId
  · subst same
    simp only [Function.update_self, Option.bind_some, read]
  · have other : decimal v ≠ decimal userId := fun keys => same (decimal_injective keys)
    simp only [Function.update_of_ne same, Function.update_of_ne other]

theorem Readable.put {db : Text → Option Text} (readable : Readable db)
    (read : stoll (decimal dbId) = some dbId) :
    Readable (Function.update db (decimal userId) (some (decimal dbId))) := by
  intro v text held
  by_cases same : decimal v = decimal userId
  · rw [same, Function.update_self] at held
    cases held
    rw [read]
    rfl
  · rw [Function.update_of_ne same] at held
    exact readable v text held

theorem handOut_view (t : TextIdGen) (originalId : Int) :
    (handOut bucket userId originalId need t).map (Prod.map id view) =
      Return.seen (IdGen.handOut bucket userId originalId need t.view) := by
  simp only [handOut, IdGen.handOut, Return.seen, Option.bind_eq_bind, Option.pure_def]
  cases add originalId 1 with
  | none => rfl
  | some startId =>
      cases add originalId need with
      | none => rfl
      | some lastId => rfl

theorem allocate_view (t : TextIdGen) (originalId : Int) (updateDb : Bool) :
    (allocate n disk bucket userId originalId need updateDb t).map (Prod.map id view) =
      Return.seen (IdGen.allocate n disk bucket userId originalId need updateDb t.view) := by
  simp only [allocate, IdGen.allocate, Option.bind_eq_bind, Option.pure_def]
  cases tested : needsPut n originalId need updateDb with
  | none => rfl
  | some puts =>
      cases puts with
      | false => exact handOut_view t originalId
      | true =>
          simp only [Option.bind_some, if_true]
          cases ended : blockEnd n originalId need with
          | none => rfl
          | some dbId =>
              cases answered : disk.put with
              | some reason => rfl
              | none =>
                  have read := stoll_decimal (blockEnd_fits ended)
                  rw [Option.bind_some, Option.bind_some, ← view_put t read]
                  exact handOut_view _ originalId

theorem idGenerate_view (n : Int) (disk : Disk) (userId need : Int) (readable : Readable t.db) :
    (idGenerate n disk userId need t).map (Prod.map id view) =
      Return.seen (IdGen.idGenerate n disk userId need t.view) := by
  simp only [idGenerate, IdGen.idGenerate, Option.bind_eq_bind, Option.pure_def]
  cases found : index kBucketNum userId with
  | none => rfl
  | some bucket =>
      have slot : t.view.idCache bucket userId = t.idCache bucket userId := rfl
      simp only [Option.bind_some, slot]
      by_cases empty : t.idCache bucket userId = 0
      · simp only [empty, if_true]
        cases answered : disk.get with
        | some reason => rfl
        | none =>
            cases held : t.db (decimal userId) with
            | none =>
                have absent : t.view.db userId = none := by
                  simp only [view, held, Option.bind_none]
                rw [absent]
                exact allocate_view _ 0 true
            | some dbId =>
                obtain ⟨loaded, read⟩ := Option.isSome_iff_exists.mp (readable userId dbId held)
                have present : t.view.db userId = some loaded := by
                  simp only [view, held, Option.bind_some, read]
                rw [present]
                simp only [read]
                exact allocate_view _ loaded true
      · simp only [empty, if_false]
        exact allocate_view t _ false

/-! The store stays readable. -/

theorem handOut_db (handed : handOut bucket userId originalId need t = some (result, t')) :
    t'.db = t.db := by
  simp only [handOut, Option.bind_eq_bind, Option.bind_eq_some_iff, Option.pure_def,
    Option.some.injEq, Prod.mk.injEq] at handed
  obtain ⟨_, -, _, -, -, rfl⟩ := handed
  rfl

theorem Readable.allocate (readable : Readable t.db)
    (allocated : TextIdGen.allocate n disk bucket userId originalId need updateDb t =
      some (result, t')) : Readable t'.db := by
  simp only [TextIdGen.allocate, Option.bind_eq_bind, Option.bind_eq_some_iff,
    Option.pure_def] at allocated
  obtain ⟨puts, -, allocated⟩ := allocated
  cases puts with
  | false =>
      rw [handOut_db allocated]
      exact readable
  | true =>
      simp only [if_true, Option.bind_eq_some_iff] at allocated
      obtain ⟨dbId, ended, allocated⟩ := allocated
      split at allocated
      · cases allocated
        exact readable
      · rw [handOut_db allocated]
        exact readable.put (stoll_decimal (blockEnd_fits ended))

theorem Readable.idGenerate (readable : Readable t.db)
    (called : TextIdGen.idGenerate n disk userId need t = some (result, t')) :
    Readable t'.db := by
  simp only [TextIdGen.idGenerate, Option.bind_eq_bind, Option.bind_eq_some_iff,
    Option.pure_def] at called
  obtain ⟨bucket, -, called⟩ := called
  split at called
  · split at called
    · cases called
      exact readable
    · split at called
      · exact Readable.allocate (t := t.setSlot bucket userId 0) readable called
      · split at called
        · cases called
          exact readable
        · rename_i loaded _
          exact Readable.allocate (t := t.setSlot bucket userId loaded) readable called
  · exact readable.allocate called

theorem Readable.not_thrown (readable : Readable t.db) :
    TextIdGen.idGenerate n disk userId need t ≠ some (.thrown, t') := by
  intro called
  have seen := idGenerate_view n disk userId need readable
  rw [called] at seen
  cases result : IdGen.idGenerate n disk userId need t.view with
  | none => rw [result] at seen; contradiction
  | some returned =>
      obtain ⟨result', s⟩ := returned
      rw [result] at seen
      cases result' with
      | ok | error => cases seen

end TextIdGen

structure TextSession where
  idgen : TextIdGen
  log : List Grant

namespace TextSession

def init (db : Text → Option Text) : TextSession := ⟨.init db, []⟩

def view (s : TextSession) : Session := ⟨s.idgen.view, s.log⟩

/-- An exception leaves the handler and ends the process. -/
def step (eachGenIdNum : Int) (s : TextSession) : Event → Option TextSession
  | .call disk userId needMsgidNum => do
    match ← s.idgen.idGenerate eachGenIdNum disk userId needMsgidNum with
    | (.startId startId, idgen) => some ⟨idgen, s.log ++ [⟨userId, startId, needMsgidNum⟩]⟩
    | (.status _, idgen) => some ⟨idgen, s.log⟩
    | (.thrown, _) => none
  | .restart => some ⟨.init s.idgen.db, s.log⟩

theorem readable_step {s s' : TextSession} {e : Event} (readable : TextIdGen.Readable s.idgen.db)
    (stepped : step n s e = some s') : TextIdGen.Readable s'.idgen.db := by
  cases e with
  | restart =>
      cases stepped
      exact readable
  | call disk userId need =>
      simp only [step, Option.bind_eq_bind, Option.bind_eq_some_iff] at stepped
      obtain ⟨⟨result, idgen⟩, called, stepped⟩ := stepped
      have kept := readable.idGenerate called
      cases result with
      | startId | status =>
          cases stepped
          exact kept
      | thrown => contradiction

theorem view_step {s : TextSession} (e : Event) (readable : TextIdGen.Readable s.idgen.db) :
    (step n s e).map view = IdGen.step n s.view e := by
  cases e with
  | restart => rfl
  | call disk userId need =>
      have seen := TextIdGen.idGenerate_view n disk userId need readable
      simp only [step, IdGen.step, Option.bind_eq_bind]
      cases called : s.idgen.idGenerate n disk userId need with
      | none =>
          rw [called] at seen
          have stuck := Option.map_eq_none_iff.mp seen.symm
          rw [view, stuck]
          rfl
      | some returned =>
          obtain ⟨result, idgen⟩ := returned
          rw [called] at seen
          obtain ⟨⟨result', s'⟩, called', same⟩ := Option.map_eq_some_iff.mp seen.symm
          simp only [Prod.map_apply, id_eq, Prod.mk.injEq] at same
          obtain ⟨rfl, rfl⟩ := same
          rw [view, called']
          cases result' with
          | ok startId => rfl
          | error reason => rfl

end TextSession

/-- The machine over texts and the one over numbers have the same runs and give out the same
ids, from every store that can be read; no call of such a run ends in an exception. -/
theorem text_store_refines {db : Text → Option Text} {guard : Session → Event → Prop}
    {es : List Event} {s : Session} (readable : TextIdGen.Readable db) :
    ((∃ t, Run (TextSession.step n) (fun t e => guard t.view e) (.init db) es t ∧ t.view = s) ↔
      Run (step n) guard (.init fun userId => (db (decimal userId)).bind stoll) es s) ∧
    ∀ t, Run (TextSession.step n) (fun _ _ => True) (.init db) es t →
      ∀ disk userId need t', t.idgen.idGenerate n disk userId need ≠ some (.thrown, t') := by
  refine ⟨Run.view_iff (I := fun t => TextIdGen.Readable t.idgen.db) TextSession.readable_step
    (fun e kept => TextSession.view_step e kept) readable, ?_⟩
  intro t run disk userId need t'
  have kept : TextIdGen.Readable t.idgen.db := run.invariant
    (fun t => TextIdGen.Readable t.idgen.db)
    (fun before _ stepped => TextSession.readable_step before stepped) readable
  exact kept.not_thrown

/-- The store of user 7 is read from its text, also after a restart. -/
theorem text_store_refines_restart :
    let db : Text → Option Text :=
      fun key => if key = "7".toList then some "1024".toList else none
    ∃ t, Run (TextSession.step 1024) (fun _ e => Healthy e) (.init db)
        [.call {} 7 2, .call {} 8 1, .restart, .call {} 7 1] t ∧
      t.log = [⟨7, 1025, 2⟩, ⟨8, 1, 1⟩, ⟨7, 2049, 1⟩] ∧
      ∀ disk userId need t', t.idgen.idGenerate 1024 disk userId need ≠ some (.thrown, t') := by
  intro db
  have readable : TextIdGen.Readable db := by
    intro userId text held
    obtain ⟨-, same⟩ := Option.ite_none_right_eq_some.mp held
    cases same
    decide
  obtain ⟨s, run, granted⟩ := Run.of_check (step 1024) (fun _ e => decide (Healthy e))
    (.init fun userId => (db (decimal userId)).bind stoll)
    [.call {} 7 2, .call {} 8 1, .restart, .call {} 7 1]
    (fun s => decide (s.log = [⟨7, 1025, 2⟩, ⟨8, 1, 1⟩, ⟨7, 2049, 1⟩]))
    (fun _ _ => of_decide_eq_true) (by decide +kernel)
  obtain ⟨same, safe⟩ : (_ ↔ Run (step 1024) (fun _ e => Healthy e) _ _ s) ∧ _ :=
    text_store_refines readable
  obtain ⟨t, texts, rfl⟩ := same.mpr run
  refine ⟨t, texts, of_decide_eq_true granted, safe t (texts.mono fun _ _ _ => trivial)⟩

end Tinyim.IdGen
