import Tinyim.Delivery.FailedSaves

/-! The databases behind the pools. Wherever `ChooseDatabase` sends the rows of a user, all
`messages` tables together are one table with one unique key. -/
namespace Tinyim.Delivery
open Dbproxy Transition

/-- What dbproxy sends to MySQL, each statement in a session of its own. -/
inductive Statement where
  /-- The INSERT statement `i` of a save. -/
  | insert (request : SaveRequest) (i : Nat) (answer : InsertAnswer)
  | getUserLastSendData (userId : Int)
  | getMsgs (userId startMsgId endMsgId : Int)
  deriving DecidableEq

inductive SqlReply where
  | inserted (returned : Bool)
  | lastSend (data : UserLastSendData)
  | msgs (msgs : List Msg)
  deriving DecidableEq

structure Databases where
  messages : Pool → List Row := fun _ => []
  replies : List SqlReply := []

def Databases.step (choose : Int → Pool) (d : Databases) : Statement → Option Databases
  | .insert request i answer => do
    let (pool, rows) ← (insertsOf choose request)[i]?
    let (returned, messages) := runInsert answer pool rows d.messages
    return { messages, replies := d.replies ++ [.inserted returned] }
  | .getUserLastSendData userId =>
    some { d with
      replies := d.replies ++ [.lastSend (selectLastSend (d.messages (choose userId)) userId)] }
  | .getMsgs userId startMsgId endMsgId =>
    some { d with
      replies := d.replies ++
        [.msgs (getMsgs (d.messages (choose userId)) userId startMsgId endMsgId)] }

/-- A single table that is sent the same statements. -/
structure OneTable where
  messages : List Row := []
  replies : List SqlReply := []

namespace OneTable

def step (choose : Int → Pool) (t : OneTable) : Statement → Option OneTable
  | .insert request i answer => do
    let (_, rows) ← (insertsOf choose request)[i]?
    let (returned, messages) := runInsert answer 0 rows fun _ => t.messages
    return { messages := messages 0, replies := t.replies ++ [.inserted returned] }
  | .getUserLastSendData userId =>
    some { t with replies := t.replies ++ [.lastSend (selectLastSend t.messages userId)] }
  | .getMsgs userId startMsgId endMsgId =>
    some { t with
      replies := t.replies ++ [.msgs (getMsgs t.messages userId startMsgId endMsgId)] }

end OneTable

def rowsOf (choose : Int → Pool) (messages : List Row) (pool : Pool) : List Row :=
  messages.filter fun row => choose row.userId = pool

def OneTable.split (choose : Int → Pool) (t : OneTable) : Databases :=
  ⟨rowsOf choose t.messages, t.replies⟩

variable {choose : Int → Pool} {messages : List Row} {pool : Pool} {rows : List Row}

theorem insertsOf_placed {request : SaveRequest}
    (member : (pool, rows) ∈ insertsOf choose request) :
    ∀ row ∈ rows, choose row.userId = pool := by
  cases request with
  | privateMsg m =>
      simp only [insertsOf, privateInserts] at member
      split at member
      · rename_i same
        cases List.mem_singleton.mp member
        simp only [List.mem_cons, List.not_mem_nil, or_false, forall_eq_or_imp, forall_eq]
        exact ⟨rfl, same.symm⟩
      · simp only [List.mem_cons, List.not_mem_nil, or_false] at member
        obtain ⟨rfl, rfl⟩ | ⟨rfl, rfl⟩ := member
        · exact fun row inside => List.mem_singleton.mp inside ▸ rfl
        · exact fun row inside => List.mem_singleton.mp inside ▸ rfl
  | groupMsg m =>
      obtain ⟨user, -, same⟩ := List.mem_map.mp member
      cases same
      exact fun row inside => List.mem_singleton.mp inside ▸ rfl

theorem key_mem_rowsOf {row : Row} (placed : choose row.userId = pool) :
    row.key ∈ (rowsOf choose messages pool).map Row.key ↔ row.key ∈ messages.map Row.key := by
  simp only [rowsOf, List.mem_map, List.mem_filter, decide_eq_true_eq]
  constructor
  · rintro ⟨other, ⟨stored, -⟩, same⟩
    exact ⟨other, stored, same⟩
  · rintro ⟨other, stored, same⟩
    have user : other.userId = row.userId := congrArg Prod.fst same
    exact ⟨other, ⟨stored, by rw [user, placed]⟩, same⟩

theorem insertStatement_rowsOf (placed : ∀ row ∈ rows, choose row.userId = pool) :
    insertStatement (rowsOf choose messages pool) rows =
      (insertStatement messages rows).map (rowsOf choose · pool) := by
  induction rows generalizing messages with
  | nil => rfl
  | cons row rows ih =>
      have own := placed row List.mem_cons_self
      by_cases taken : row.key ∈ messages.map Row.key
      · rw [insertStatement, insertStatement, if_pos ((key_mem_rowsOf own).mpr taken),
          if_pos taken]
        rfl
      · have appended : rowsOf choose messages pool ++ [row] =
            rowsOf choose (messages ++ [row]) pool := by
          simp [rowsOf, own]
        rw [insertStatement, insertStatement, if_neg (mt (key_mem_rowsOf own).mp taken),
          if_neg taken, appended]
        exact ih fun other member => placed other (List.mem_cons_of_mem _ member)

theorem rowsOf_append (placed : ∀ row ∈ rows, choose row.userId = pool) :
    rowsOf choose (messages ++ rows) =
      Function.update (rowsOf choose messages) pool (rowsOf choose messages pool ++ rows) := by
  funext other
  by_cases same : other = pool
  · subst same
    rw [Function.update_self, rowsOf, List.filter_append, ← rowsOf]
    congr 1
    exact List.filter_eq_self.mpr fun row member => decide_eq_true (placed row member)
  · rw [Function.update_of_ne same, rowsOf, List.filter_append, ← rowsOf]
    have none : rows.filter (fun row => choose row.userId = other) = [] := by
      refine List.filter_eq_nil_iff.mpr fun row member => ?_
      simpa [placed row member] using Ne.symm same
    rw [none, List.append_nil]

theorem runInsert_rowsOf (answer : InsertAnswer)
    (placed : ∀ row ∈ rows, choose row.userId = pool) :
    runInsert answer pool rows (rowsOf choose messages) =
      (runInsert answer 0 rows fun _ => messages).map id fun after => rowsOf choose (after 0) := by
  have split : insertStatement (rowsOf choose messages pool) rows = _ :=
    insertStatement_rowsOf placed
  cases inserted : insertStatement messages rows with
  | none =>
      rw [inserted] at split
      cases answer <;> simp only [runInsert, split, inserted, Option.map_none] <;> rfl
  | some after =>
      obtain ⟨rfl, -⟩ := insertStatement_eq_some inserted
      rw [inserted] at split
      have updated : Function.update (fun _ : Pool => messages) 0 (messages ++ rows) 0 =
          messages ++ rows := Function.update_self ..
      have appended : rowsOf choose (messages ++ rows) =
          Function.update (rowsOf choose messages) pool
            (rowsOf choose (messages ++ rows) pool) := by
        rw [rowsOf_append placed, Function.update_self]
      cases answer with
      | refused => rfl
      | executed | lost =>
          simp only [runInsert, split, inserted, Option.map_some, ← appended]
          exact congrArg (Prod.mk _) (congrArg (rowsOf choose) updated.symm)

/-! The queries of a user ask for its own rows. -/

theorem selectLastSend_rowsOf (userId : Int) :
    selectLastSend (rowsOf choose messages (choose userId)) userId =
      selectLastSend messages userId := by
  have same : ownRows (rowsOf choose messages (choose userId)) userId =
      ownRows messages userId := by
    rw [ownRows, rowsOf, List.filter_filter]
    refine List.filter_congr fun row _ => ?_
    by_cases own : row.userId = userId <;> simp [own]
  unfold selectLastSend maxClientTime
  rw [same]

theorem getMsgs_rowsOf (userId startMsgId endMsgId : Int) :
    getMsgs (rowsOf choose messages (choose userId)) userId startMsgId endMsgId =
      getMsgs messages userId startMsgId endMsgId := by
  rw [getMsgs, rowsOf, List.filter_filter]
  congr 1
  refine List.filter_congr fun row _ => ?_
  by_cases own : row.userId = userId <;> simp [own]

theorem split_step (t : OneTable) (e : Statement) :
    (t.step choose e).map (OneTable.split choose) = (t.split choose).step choose e := by
  cases e with
  | insert request i answer =>
      simp only [OneTable.step, Databases.step, Option.bind_eq_bind, Option.pure_def]
      cases found : (insertsOf choose request)[i]? with
      | none => rfl
      | some statement =>
          obtain ⟨pool, rows⟩ := statement
          have placed := insertsOf_placed (List.mem_of_getElem? found)
          simp only [Option.bind_some, OneTable.split, runInsert_rowsOf answer placed]
          rfl
  | getUserLastSendData userId =>
      simp only [OneTable.step, Databases.step, OneTable.split, selectLastSend_rowsOf,
        Option.map_some]
  | getMsgs userId startMsgId endMsgId =>
      simp only [OneTable.step, Databases.step, OneTable.split, getMsgs_rowsOf, Option.map_some]

theorem runInsert_keyUnique (keys : KeyUnique messages) (answer : InsertAnswer) (rows : List Row) :
    KeyUnique ((runInsert answer 0 rows fun _ => messages).2 0) := by
  obtain ⟨same, -⟩ | ⟨returned, same, -, inserted⟩ :=
    runInsert_cases answer 0 rows fun _ => messages
  · rw [same]
    exact keys
  · have updated : Function.update (fun _ : Pool => messages) 0 (messages ++ rows) 0 =
        messages ++ rows := Function.update_self ..
    rw [same]
    dsimp only
    rw [updated]
    exact (insertStatement_eq_some inserted).2.1 keys

theorem OneTable.keyUnique_step {t t' : OneTable} {e : Statement} (keys : KeyUnique t.messages)
    (stepped : t.step choose e = some t') : KeyUnique t'.messages := by
  cases e with
  | insert request i answer =>
      simp only [OneTable.step, Option.bind_eq_bind, Option.bind_eq_some_iff, Option.pure_def,
        Option.some.injEq] at stepped
      obtain ⟨⟨pool, rows⟩, -, rfl⟩ := stepped
      exact runInsert_keyUnique keys answer rows
  | getUserLastSendData | getMsgs =>
      cases stepped
      exact keys

/-- Whatever `ChooseDatabase` returns, and however the statements of saves and queries follow
each other and fail: the databases reply as one table does, its rows are theirs, and its keys
are unique. -/
theorem databases_are_one_table (choose : Int → Pool) (es : List Statement) (d : Databases) :
    Run (Databases.step choose) (fun _ _ => True) {} es d ↔
      ∃ t, Run (OneTable.step choose) (fun _ _ => True) {} es t ∧ KeyUnique t.messages ∧
        t.split choose = d := by
  let free : Databases → Statement → Prop := fun _ _ => True
  have same : (∃ t, Run (OneTable.step choose) (fun t e => free (t.split choose) e) {} es t ∧
      t.split choose = d) ↔ Run (Databases.step choose) free (OneTable.split choose {}) es d :=
    Run.view_iff (I := fun _ => True) (fun _ _ => trivial) (fun e _ => split_step _ e) trivial
  refine Iff.trans same.symm ?_
  constructor
  · rintro ⟨t, run, split⟩
    have empty : KeyUnique (OneTable.messages {}) := List.nodup_nil
    have keys : KeyUnique t.messages := run.invariant (fun t : OneTable => KeyUnique t.messages)
      (fun keys _ stepped => OneTable.keyUnique_step keys stepped) empty
    exact ⟨t, run, keys, split⟩
  · rintro ⟨t, run, -, split⟩
    exact ⟨t, run, split⟩

end Tinyim.Delivery
