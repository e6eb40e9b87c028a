import Tinyim.Dbproxy.LastSendRecord
import Tinyim.Transition
import Tinyim.Delivery.Frame

/-! `SavePrivateMsg` and `SaveGroupMsg` as whole calls, for any choice of pools and any
pattern of failures. Every INSERT is committed on its own and nothing is undone. -/
namespace Tinyim.Delivery
open Dbproxy Transition

/-- The `messages` table behind each pool, and the keys `{user_id}u`. -/
structure Stores where
  messages : Pool → List Row
  redis : Int → Option Text

/-- What becomes of the statements of one call, and of its Redis command: whether the
script runs and whether its reply arrives. -/
structure Faults where
  insert : Nat → InsertAnswer := fun _ => .executed
  executed : Bool := true
  reported : Bool := true

def Faults.later (faults : Faults) : Faults :=
  { faults with insert := fun i => faults.insert (i + 1) }

/-- The INSERT statements of `SavePrivateMsg`, each with the pool of its session. -/
def privateInserts (choose : Int → Pool) (m : NewPrivateMsg) : List (Pool × List Row) :=
  let pool := choose m.sender
  let peerPool := choose m.receiver
  if pool = peerPool then [(pool, [NewPrivateMsg.senderRow m, NewPrivateMsg.receiverRow m])]
  else [(pool, [NewPrivateMsg.senderRow m]), (peerPool, [NewPrivateMsg.receiverRow m])]

def groupInserts (choose : Int → Pool) (m : NewGroupMsg) : List (Pool × List Row) :=
  m.userAndMsgids.map fun member => (choose member.userId, [NewGroupMsg.row m member])

/-- One statement in a session of its own: whether it returned, and the tables after it. -/
def runInsert (answer : InsertAnswer) (pool : Pool) (rows : List Row)
    (messages : Pool → List Row) : Bool × (Pool → List Row) :=
  match answer, insertStatement (messages pool) rows with
  | .executed, some after => (true, Function.update messages pool after)
  | .lost, some after => (false, Function.update messages pool after)
  | .refused, _ | _, none => (false, messages)

/-- The statements in order, up to the first exception. -/
def runInserts (faults : Faults) :
    List (Pool × List Row) → (Pool → List Row) → Bool × (Pool → List Row)
  | [], messages => (true, messages)
  | (pool, rows) :: inserts, messages =>
    match runInsert (faults.insert 0) pool rows messages with
    | (true, messages) => runInserts faults.later inserts messages
    | (false, messages) => (false, messages)

/-- `SetUserLastSendData_` at the end of a save. -/
def setLastSend (faults : Faults) (data : UserLastSendData) (stores : Stores) : Rpc Unit × Stores :=
  (if faults.reported then .ok () else .error redisSetFailed,
    if faults.executed then { stores with redis := storeLastSend stores.redis data } else stores)

def saveRows (faults : Faults) (inserts : List (Pool × List Row)) (data : UserLastSendData)
    (stores : Stores) : Rpc Unit × Stores :=
  match runInserts faults inserts stores.messages with
  | (true, messages) => setLastSend faults data { stores with messages }
  | (false, messages) => (.error insertFailed, { stores with messages })

def savePrivateMsg (choose : Int → Pool) (faults : Faults) (m : NewPrivateMsg) (stores : Stores) :
    Rpc Unit × Stores :=
  saveRows faults (privateInserts choose m) (SaveRequest.privateMsg m).lastSend stores

def saveGroupMsg (choose : Int → Pool) (faults : Faults) (m : NewGroupMsg) (stores : Stores) :
    Rpc Unit × Stores :=
  saveRows faults (groupInserts choose m) (SaveRequest.groupMsg m).lastSend stores

def insertsOf (choose : Int → Pool) : SaveRequest → List (Pool × List Row)
  | .privateMsg m => privateInserts choose m
  | .groupMsg m => groupInserts choose m

def save (choose : Int → Pool) (faults : Faults) : SaveRequest → Stores → Rpc Unit × Stores
  | .privateMsg m => savePrivateMsg choose faults m
  | .groupMsg m => saveGroupMsg choose faults m

def Untouched (request : SaveRequest) (before after : Stores) : Prop :=
  after.messages = before.messages ∧ after.redis request.sender = before.redis request.sender

def StopsAtOnce (choose : Int → Pool) (faults : Faults) (request : SaveRequest)
    (stores : Stores) : Prop :=
  match insertsOf choose request with
  | [] => faults.executed = true →
      setUserLastSendData (stores.redis request.sender) request.lastSend =
        stores.redis request.sender
  | (pool, rows) :: _ =>
      faults.insert 0 = .refused ∨ insertStatement (stores.messages pool) rows = none

variable {choose : Int → Pool} {faults : Faults} {request : SaveRequest} {stores : Stores}
  {messages : Pool → List Row} {pool : Pool}

theorem save_eq (choose : Int → Pool) (faults : Faults) (request : SaveRequest) (stores : Stores) :
    save choose faults request stores =
      saveRows faults (insertsOf choose request) request.lastSend stores := by
  cases request <;> rfl

theorem inserts_rows {statement : Pool × List Row} (member : statement ∈ insertsOf choose request) :
    statement.2 ≠ [] := by
  cases request with
  | privateMsg m =>
      simp only [insertsOf, privateInserts] at member
      split at member
      · cases List.mem_singleton.mp member
        exact List.cons_ne_nil _ _
      · simp only [List.mem_cons, List.not_mem_nil, or_false] at member
        obtain rfl | rfl := member
        · exact List.cons_ne_nil _ _
        · exact List.cons_ne_nil _ _
  | groupMsg m =>
      obtain ⟨user, -, rfl⟩ := List.mem_map.mp member
      exact List.cons_ne_nil _ _

theorem runInsert_cases (answer : InsertAnswer) (pool : Pool) (rows : List Row)
    (messages : Pool → List Row) :
    (runInsert answer pool rows messages = (false, messages) ∧
      (answer = .refused ∨ insertStatement (messages pool) rows = none)) ∨
    ∃ returned, runInsert answer pool rows messages =
        (returned, Function.update messages pool (messages pool ++ rows)) ∧
      answer ≠ .refused ∧ insertStatement (messages pool) rows = some (messages pool ++ rows) := by
  cases inserted : insertStatement (messages pool) rows with
  | none =>
      refine .inl ⟨?_, .inr rfl⟩
      cases answer <;> simp only [runInsert, inserted]
  | some after =>
      obtain ⟨rfl, -⟩ := insertStatement_eq_some inserted
      cases answer with
      | executed => exact .inr ⟨true, by simp only [runInsert, inserted], nofun, rfl⟩
      | lost => exact .inr ⟨false, by simp only [runInsert, inserted], nofun, rfl⟩
      | refused => exact .inl ⟨by simp only [runInsert], .inl rfl⟩

theorem runInserts_grow (faults : Faults) (inserts : List (Pool × List Row))
    (messages : Pool → List Row) (pool : Pool) :
    ∃ rows, (runInserts faults inserts messages).2 pool = messages pool ++ rows := by
  induction inserts generalizing faults messages with
  | nil => exact ⟨[], (List.append_nil _).symm⟩
  | cons statement inserts ih =>
      obtain ⟨target, rows⟩ := statement
      obtain ⟨stopped, -⟩ | ⟨returned, executed, -⟩ :=
        runInsert_cases (faults.insert 0) target rows messages
      · exact ⟨[], by simp only [runInserts, stopped, List.append_nil]⟩
      · have grown : ∃ rows', Function.update messages target (messages target ++ rows) pool =
            messages pool ++ rows' := by
          by_cases same : pool = target
          · subst same
            exact ⟨rows, Function.update_self ..⟩
          · exact ⟨[], by rw [Function.update_of_ne same, List.append_nil]⟩
        obtain ⟨rows', grown⟩ := grown
        cases returned with
        | false => exact ⟨rows', by simp only [runInserts, executed, grown]⟩
        | true =>
            obtain ⟨more, after⟩ :=
              ih faults.later (Function.update messages target (messages target ++ rows))
            refine ⟨rows' ++ more, ?_⟩
            simp only [runInserts, executed, after, grown, List.append_assoc]

theorem saveRows_messages (faults : Faults) (inserts : List (Pool × List Row))
    (data : UserLastSendData) (stores : Stores) :
    (saveRows faults inserts data stores).2.messages =
      (runInserts faults inserts stores.messages).2 := by
  simp only [saveRows]
  split
  · rename_i messages complete
    rw [complete, setLastSend]
    cases faults.executed <;> rfl
  · rename_i messages stopped
    rw [stopped]

/-- A statement that was executed leaves its rows, whatever happens afterwards. -/
theorem executed_first_stays (answer : faults.insert 0 ≠ .refused) (some_rows : rows ≠ [])
    (executed : insertStatement (messages pool) rows = some after) :
    (runInserts faults ((pool, rows) :: inserts) messages).2 ≠ messages := by
  intro same
  obtain ⟨-, refused | conflict⟩ | ⟨returned, result, -⟩ :=
    runInsert_cases (faults.insert 0) pool rows messages
  · exact answer refused
  · rw [executed] at conflict
    contradiction
  · have stored : ∃ more, (runInserts faults ((pool, rows) :: inserts) messages).2 pool =
        messages pool ++ rows ++ more := by
      cases returned with
      | false =>
          refine ⟨[], ?_⟩
          simp only [runInserts, result, Function.update_self, List.append_nil]
      | true =>
          obtain ⟨more, after⟩ := runInserts_grow faults.later inserts
            (Function.update messages pool (messages pool ++ rows)) pool
          exact ⟨more, by simp only [runInserts, result, after, Function.update_self]⟩
    obtain ⟨more, stored⟩ := stored
    rw [same, List.append_assoc, List.self_eq_append_right] at stored
    exact some_rows (List.append_eq_nil_iff.mp stored).1

/-- A save, whatever it reports, leaves no trace exactly when its first statement is not
executed; without statements, when the script has nothing to change. -/
theorem save_untouched_iff (choose : Int → Pool) (faults : Faults) (request : SaveRequest)
    (stores : Stores) :
    Untouched request stores (save choose faults request stores).2 ↔
      StopsAtOnce choose faults request stores := by
  rw [save_eq]
  simp only [Untouched, StopsAtOnce, saveRows_messages]
  cases inserts : insertsOf choose request with
  | nil =>
      simp only [saveRows, runInserts, setLastSend]
      cases executed : faults.executed with
      | false => simp
      | true =>
          simp only [if_true, true_and, storeLastSend, SaveRequest.lastSend, Function.update_self,
            forall_const]
  | cons statement rest =>
      obtain ⟨pool, rows⟩ := statement
      have first : (pool, rows) ∈ insertsOf choose request := by
        rw [inserts]
        exact List.mem_cons_self
      have some_rows : rows ≠ [] := inserts_rows first
      constructor
      · rintro ⟨same, -⟩
        by_contra executed
        obtain ⟨answer, stored⟩ := not_or.mp executed
        obtain ⟨after, stored⟩ := Option.ne_none_iff_exists'.mp stored
        exact executed_first_stays answer some_rows stored same
      · intro stopped
        obtain ⟨result, -⟩ | ⟨-, -, answer, stored⟩ :=
          runInsert_cases (faults.insert 0) pool rows stores.messages
        · simp only [saveRows, runInserts, result, and_self]
        · obtain refused | conflict := stopped
          · exact absurd refused answer
          · rw [stored] at conflict
            contradiction

/-- The second INSERT of a group message is refused and the row of the first one stays. -/
theorem failed_group_save_leaves_rows :
    let m : NewGroupMsg := ⟨5, [⟨7, 1⟩, ⟨8, 1⟩, ⟨9, 1⟩], 7, 1, "hi".toList, 50, 100⟩
    let faults : Faults := { insert := fun i => if i = 1 then .refused else .executed }
    let stores : Stores := ⟨fun _ => [], fun _ => none⟩
    let result := save chooseDatabase faults (.groupMsg m) stores
    result.1 = .error insertFailed ∧ (result.2.messages 0).map Row.key = [(7, 7, 100)] ∧
      ¬ Untouched (.groupMsg m) stores result.2 := by
  intro m faults stores result
  have rows : (result.2.messages 0).map Row.key = [(7, 7, 100)] := rfl
  refine ⟨rfl, rows, ?_⟩
  rintro ⟨same, -⟩
  rw [same] at rows
  contradiction

variable {n : Int} {w : World} {j : Nat} {job : SaveJob}

def OfSave (j : Nat) (_ : World) : Event → Prop
  | .insert i _ | .setLastSend i _ _ => i = j
  | _ => False

theorem insertsOf_chooseDatabase (request : SaveRequest) :
    (insertsOf chooseDatabase request).map Prod.snd = request.statements ∧
      ∀ statement ∈ insertsOf chooseDatabase request, statement.1 = 0 := by
  cases request with
  | privateMsg m => exact ⟨rfl, by simp [insertsOf, privateInserts, chooseDatabase]⟩
  | groupMsg m => exact ⟨by simp [insertsOf, groupInserts, SaveRequest.statements, groupStatements],
      by simp [insertsOf, groupInserts, chooseDatabase]⟩

theorem insert_step (answer : InsertAnswer) (found : w.saves[j]? = some job)
    (running : job.status = .running) (next : job.todo = rows :: todo)
    (table : messages 0 = w.messages) :
    ∃ w' later, step n w (.insert j answer) = some w' ∧ w'.saves[j]? = some later ∧
      later.request = job.request ∧ w'.redis = w.redis ∧
      (runInsert answer 0 rows messages).2 0 = w'.messages ∧
      ((runInsert answer 0 rows messages).1 = true ∧ later.status = .running ∧ later.todo = todo ∨
        (runInsert answer 0 rows messages).1 = false ∧ later.status = .failed insertFailed) := by
  obtain ⟨attempt, request, pending, status⟩ := job
  obtain rfl : status = .running := running
  obtain rfl : pending = rows :: todo := next
  cases inserted : insertStatement w.messages rows with
  | none =>
      have result : runInsert answer 0 rows messages = (false, messages) := by
        cases answer <;> simp only [runInsert, table, inserted]
      refine ⟨w.setSave j ⟨attempt, request, rows :: todo, .failed insertFailed⟩, _, ?_,
        get_set_self found, rfl, rfl, by rw [result]; exact table, .inr ⟨by rw [result], rfl⟩⟩
      cases answer <;> simp [step, World.insert, found, inserted]
  | some after =>
      have moved : ∀ status, ({ w with messages := after }.setSave j
          ⟨attempt, request, todo, status⟩).saves[j]? = some ⟨attempt, request, todo, status⟩ :=
        fun _ => get_set_self found
      have updated : Function.update messages 0 after 0 = after := Function.update_self ..
      cases answer with
      | executed =>
          have result : runInsert .executed 0 rows messages =
              (true, Function.update messages 0 after) := by simp only [runInsert, table, inserted]
          refine ⟨_, _, ?_, moved .running, rfl, rfl, by rw [result]; exact updated,
            .inl ⟨by rw [result], rfl, rfl⟩⟩
          simp [step, World.insert, found, inserted]
      | lost =>
          have result : runInsert .lost 0 rows messages =
              (false, Function.update messages 0 after) := by simp only [runInsert, table, inserted]
          refine ⟨_, _, ?_, moved (.failed insertFailed), rfl, rfl,
            by rw [result]; exact updated, .inr ⟨by rw [result], rfl⟩⟩
          simp [step, World.insert, found, inserted]
      | refused =>
          have result : runInsert .refused 0 rows messages = (false, messages) := by
            simp only [runInsert]
          refine ⟨w.setSave j ⟨attempt, request, rows :: todo, .failed insertFailed⟩, _, ?_,
            get_set_self found, rfl, rfl, by rw [result]; exact table, .inr ⟨by rw [result], rfl⟩⟩
          simp [step, World.insert, found]

theorem inserts_run (faults : Faults) (messages : Pool → List Row)
    (found : w.saves[j]? = some job) (running : job.status = .running)
    (todo : job.todo = inserts.map Prod.snd) (pools : ∀ statement ∈ inserts, statement.1 = 0)
    (table : messages 0 = w.messages) :
    ∃ es w' later, Run (step n) (OfSave j) w es w' ∧ w'.saves[j]? = some later ∧
      later.request = job.request ∧ w'.redis = w.redis ∧
      (runInserts faults inserts messages).2 0 = w'.messages ∧
      ((runInserts faults inserts messages).1 = true ∧ later.status = .running ∧
          later.todo = [] ∨
        (runInserts faults inserts messages).1 = false ∧ later.status = .failed insertFailed) := by
  induction inserts generalizing w job messages faults with
  | nil => exact ⟨[], w, job, .refl w, found, rfl, rfl, table, .inl ⟨rfl, running, todo⟩⟩
  | cons statement rest ih =>
      obtain ⟨pool, rows⟩ := statement
      obtain rfl : pool = 0 := pools _ List.mem_cons_self
      obtain ⟨w₁, middle, stepped, present, same, redis, stored, outcome⟩ :=
        insert_step (faults.insert 0) found running todo table
      cases result : runInsert (faults.insert 0) 0 rows messages with
      | mk returned after =>
          rw [result] at stored outcome
          obtain ⟨rfl, open_, todo'⟩ | ⟨rfl, failed⟩ := outcome
          · obtain ⟨es, w', later, run, last, same', redis', stored', outcome'⟩ :=
              ih faults.later after present open_
              todo' (fun statement member => pools statement (List.mem_cons_of_mem _ member)) stored
            refine ⟨.insert j (faults.insert 0) :: es, w', later, .next rfl stepped run, last,
              same'.trans same, redis'.trans redis, ?_⟩
            simp only [runInserts, result]
            exact ⟨stored', outcome'⟩
          · refine ⟨[.insert j (faults.insert 0)], w₁, middle, .next rfl stepped (.refl _), present,
              same, redis, ?_⟩
            simp only [runInserts, result]
            exact ⟨stored, .inr ⟨trivial, failed⟩⟩

/-- A call is what the steps of its save do when nothing comes in between. -/
theorem save_run (faults : Faults) (found : w.saves[j]? = some job)
    (running : job.status = .running) (todo : job.todo = job.request.statements) :
    let result := save chooseDatabase faults job.request ⟨fun _ => w.messages, w.redis⟩
    ∃ es w' later, Run (step n) (OfSave j) w es w' ∧ w'.saves[j]? = some later ∧
      later.status.result? = some result.1 ∧ w'.messages = result.2.messages 0 ∧
      w'.redis = result.2.redis := by
  intro result
  have called : result = saveRows faults (insertsOf chooseDatabase job.request)
      job.request.lastSend ⟨fun _ => w.messages, w.redis⟩ := save_eq ..
  obtain ⟨rows, pools⟩ := insertsOf_chooseDatabase job.request
  have statements := inserts_run (n := n) faults (fun _ => w.messages) found running
    (todo.trans rows.symm) pools rfl
  cases finished : runInserts faults (insertsOf chooseDatabase job.request) fun _ => w.messages with
  | mk returned tables =>
      rw [finished] at statements
      obtain ⟨es, w', later, run, present, same, redis, stored, outcome⟩ := statements
      simp only [saveRows, finished] at called
      obtain ⟨rfl, open_, complete⟩ | ⟨rfl, failed⟩ := outcome
      · obtain ⟨attempt, request, pending, status⟩ := later
        obtain rfl : status = .running := open_
        obtain rfl : pending = [] := complete
        obtain rfl : request = job.request := same
        have stepped : step n w' (.setLastSend j faults.executed faults.reported) = some
            ({ w' with redis := if faults.executed then
                storeLastSend w'.redis job.request.lastSend else w'.redis }.setSave j
              ⟨attempt, job.request, [],
                if faults.reported then .saved else .failed redisSetFailed⟩) := by
          simp only [step, World.setLastSend, present, Option.bind_eq_bind, Option.bind_some]
          rfl
        have settled : result = setLastSend faults job.request.lastSend ⟨tables, w.redis⟩ := called
        have recorded : Run (step n) (OfSave j) w'
            [.setLastSend j faults.executed faults.reported] _ := .next rfl stepped (.refl _)
        refine ⟨_, _, _, run.trans recorded, get_set_self present, ?_, ?_, ?_⟩
        · rw [settled]
          cases reported : faults.reported <;> simp [setLastSend, reported, SaveStatus.result?]
        · rw [settled, ← stored]
          cases executed : faults.executed <;> simp [setLastSend, executed]
        · rw [settled]
          cases executed : faults.executed <;> simp [setLastSend, executed, redis]
      · refine ⟨es, w', later, run, present, ?_, ?_, ?_⟩
        all_goals rw [called]
        · rw [failed]
          rfl
        · exact stored.symm
        · exact redis

end Tinyim.Delivery
