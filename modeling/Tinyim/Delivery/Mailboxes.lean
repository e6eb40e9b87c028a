import Tinyim.Mailbox
import Tinyim.Delivery.Order

/-! The services keep the mailboxes that the clients see. A message is sent when its first call
reaches logic, delivered row by row by the INSERT statements and acknowledged by the replies. -/
namespace Tinyim.Delivery
open IdGen Dbproxy Logic Transition

def messageKey (m : NewMsg) : Int × Int := (m.userId, m.clientTime)

/-- What a reader sees of a message beside its number: receiver, group and text. -/
def messageBody (m : NewMsg) : Int × Int × Text :=
  (m.peerId, match m.msgType with | .PRIVATE => 0 | .GROUP => m.peerId, m.message)

abbrev MailboxState := Mailbox.State Int (Int × Int) (Int × Int × Text)

abbrev MailboxOp := Mailbox.Op Int (Int × Int) (Int × Int × Text)

def mailboxesOf (newMsgs : List NewMsg) (messages : List Row) : MailboxState where
  sent key := (newMsgs.find? (messageKey · = key)).map messageBody
  boxes owner key := (messages.find? (·.key = (owner, key.1, key.2))).map (·.msgId)

def mailboxes (w : World) : MailboxState := mailboxesOf (w.attempts.map (·.newMsg)) w.messages

def delivered (row : Row) : MailboxOp := .deliver row.userId (row.sender, row.clientTime) row.msgId

def newReply (w w' : World) (a : Nat) : Option MailboxOp := do
  let att ← w'.attempts[a]?
  let reply ← att.stage.reply?
  if (w.attempts[a]?.bind (·.stage.reply?)).isSome then none
  else return .acknowledge (messageKey att.newMsg) reply.msgId

def opsOf (w w' : World) : Event → List MailboxOp
  | .start m =>
    if messageKey m ∈ w.attempts.map (messageKey ·.newMsg) then []
    else [.send (messageKey m) (messageBody m)]
  | _ => (w'.messages.drop w.messages.length).map delivered ++
      (List.range w'.attempts.length).filterMap (newReply w w')

/-- What a run does to the mailboxes, in its order. -/
def traceOf (n : Int) (w : World) : List Event → List MailboxOp
  | [] => []
  | e :: es =>
    match step n w e with
    | some w' => opsOf w w' e ++ traceOf n w' es
    | none => []

def SentBefore (older newer : Int × Int) : Prop := older.1 = newer.1 ∧ older.2 < newer.2

abbrev MailboxTrace : MailboxState → List MailboxOp → MailboxState → Prop :=
  Mailbox.Trace Prod.fst SentBefore

variable {n : Int} {w w₀ w' : World} {e : Event}

theorem newMsgs_kept (moved : Moves n w e w') (other : ∀ m, e ≠ .start m) :
    w'.attempts.map (·.newMsg) = w.attempts.map (·.newMsg) := by
  apply List.ext_getElem?
  intro a
  rw [List.getElem?_map, List.getElem?_map]
  cases found : w.attempts[a]? with
  | some att =>
      obtain ⟨next, after, evolved⟩ := attempt_after moved found
      rw [after, Option.map_some, Option.map_some, evolved.newMsg]
  | none =>
      cases after : w'.attempts[a]? with
      | none => rfl
      | some next =>
          obtain ⟨m, started, -⟩ | ⟨att, present, -⟩ := attempt_before moved after
          · exact absurd started (other m)
          · rw [found] at present
            contradiction

theorem boxes_eq_some (keys : KeyUnique messages) :
    (mailboxesOf newMsgs messages).boxes owner key = some msgId ↔
      ∃ row ∈ messages, row.key = (owner, key.1, key.2) ∧ row.msgId = msgId := by
  constructor
  · intro boxed
    obtain ⟨row, found, rfl⟩ := Option.map_eq_some_iff.mp boxed
    exact ⟨row, List.mem_of_find?_eq_some found, by simpa using List.find?_some found, rfl⟩
  · rintro ⟨row, member, same, rfl⟩
    cases found : messages.find? (·.key = (owner, key.1, key.2)) with
    | none => exact absurd same (by simpa using List.find?_eq_none.mp found row member)
    | some other =>
        have key' : other.key = (owner, key.1, key.2) := by simpa using List.find?_some found
        have equal := keys.eq (List.mem_of_find?_eq_some found) member (key'.trans same.symm)
        simp only [mailboxesOf, found, Option.map_some, equal]

theorem boxes_ne_none (keys : KeyUnique messages) :
    (mailboxesOf newMsgs messages).boxes owner key ≠ none ↔
      ∃ row ∈ messages, row.key = (owner, key.1, key.2) := by
  rw [Option.ne_none_iff_exists']
  constructor
  · rintro ⟨msgId, boxed⟩
    obtain ⟨row, member, same, -⟩ := (boxes_eq_some keys).mp boxed
    exact ⟨row, member, same⟩
  · rintro ⟨row, member, same⟩
    exact ⟨row.msgId, (boxes_eq_some keys).mpr ⟨row, member, same, rfl⟩⟩

/-- A table whose rows are numbered as mailboxes are. -/
structure Orderly (newMsgs : List NewMsg) (messages : List Row) : Prop where
  keys : KeyUnique messages
  ids : ∀ row ∈ messages, ∀ other ∈ messages, row.userId = other.userId →
    row.msgId = other.msgId → row = other
  order : ∀ row ∈ messages, ∀ other ∈ messages, row.userId = other.userId →
    row.sender = other.sender → row.clientTime < other.clientTime → row.msgId < other.msgId
  sent : ∀ row ∈ messages, ∃ m ∈ newMsgs, messageKey m = (row.sender, row.clientTime)

theorem Orderly.front (orderly : Orderly newMsgs (messages ++ rows)) :
    Orderly newMsgs messages where
  keys := by
    have unique := orderly.keys
    rw [KeyUnique, List.map_append] at unique
    exact unique.of_append_left
  ids row left other right := orderly.ids row (List.mem_append_left _ left) other
    (List.mem_append_left _ right)
  order row left other right := orderly.order row (List.mem_append_left _ left) other
    (List.mem_append_left _ right)
  sent row member := orderly.sent row (List.mem_append_left _ member)

theorem sent_ne_none :
    (mailboxesOf newMsgs messages).sent key ≠ none ↔ ∃ m ∈ newMsgs, messageKey m = key := by
  rw [Option.ne_none_iff_isSome, mailboxesOf, Option.isSome_map, List.find?_isSome]
  simp

theorem mailboxesOf_concat (keys : KeyUnique (messages ++ [row])) :
    mailboxesOf newMsgs (messages ++ [row]) =
      (mailboxesOf newMsgs messages).deliver row.userId (row.sender, row.clientTime)
        row.msgId := by
  have absent : row.key ∉ messages.map Row.key := by
    intro present
    rw [KeyUnique, List.map_append, List.nodup_append] at keys
    exact keys.2.2 _ present _ (by simp) rfl
  have boxes : (mailboxesOf newMsgs (messages ++ [row])).boxes =
      ((mailboxesOf newMsgs messages).deliver row.userId (row.sender, row.clientTime)
        row.msgId).boxes := by
    funext owner key
    rw [Mailbox.State.deliver_boxes]
    split
    · rename_i new
      obtain ⟨rfl, rfl⟩ := new
      exact (boxes_eq_some keys).mpr ⟨row, by simp, rfl, rfl⟩
    · rename_i other
      have different : ¬ row.key = (owner, key.1, key.2) := by
        intro same
        simp only [Row.key, Prod.mk.injEq] at same
        exact other ⟨same.1.symm, Prod.ext same.2.1.symm same.2.2.symm⟩
      simp [mailboxesOf, List.find?_append, different]
  exact congrArg (Mailbox.State.mk _) boxes

theorem trace_rows (orderly : Orderly newMsgs (messages ++ rows))
    (first : ∀ before row after, rows = before ++ row :: after → row.userId = row.sender ∨
      ∃ own ∈ messages ++ before, own.key = (row.sender, row.sender, row.clientTime)) :
    MailboxTrace (mailboxesOf newMsgs messages) (rows.map delivered)
      (mailboxesOf newMsgs (messages ++ rows)) := by
  induction rows generalizing messages with
  | nil =>
      rw [List.append_nil]
      exact .refl _
  | cons row rows ih =>
      have split : messages ++ row :: rows = (messages ++ [row]) ++ rows := by simp
      rw [split] at orderly
      have here := orderly.front
      have keys := here.front.keys
      have present : row ∈ messages ++ [row] := by simp
      have old : ∀ other ∈ messages, other ∈ messages ++ [row] := fun other member =>
        List.mem_append_left _ member
      have fresh : row.key ∉ messages.map Row.key := by
        intro member
        have unique := here.keys
        rw [KeyUnique, List.map_append, List.nodup_append] at unique
        exact unique.2.2 _ member _ (by simp) rfl
      rw [split, List.map_cons]
      refine .next (t := mailboxesOf newMsgs (messages ++ [row])) ?_ (ih orderly ?_)
      · rw [mailboxesOf_concat here.keys]
        apply Mailbox.Step.deliver
        · exact sent_ne_none.mpr (here.sent row present)
        · by_contra boxed
          obtain ⟨other, member, same⟩ := (boxes_ne_none keys).mp boxed
          exact fresh (List.mem_map.mpr ⟨other, member, same⟩)
        · obtain own | ⟨own, member, same⟩ := first [] row rows rfl
          · exact .inl own
          · rw [List.append_nil] at member
            exact .inr ((boxes_ne_none keys).mpr ⟨own, member, same⟩)
        · intro key boxed
          obtain ⟨other, member, same, number⟩ := (boxes_eq_some keys).mp boxed
          have user : other.userId = row.userId := congrArg Prod.fst same
          have equal := here.ids other (old other member) row present user number
          exact fresh (List.mem_map.mpr ⟨other, member, congrArg Row.key equal⟩)
        · intro key before i boxed
          obtain ⟨other, member, same, rfl⟩ := (boxes_eq_some keys).mp boxed
          simp only [Row.key, Prod.mk.injEq] at same
          refine here.order other (old other member) row present same.1 ?_ ?_
          · rw [same.2.1, before.1]
          · rw [same.2.2]
            exact before.2
        · intro key before i boxed
          obtain ⟨other, member, same, rfl⟩ := (boxes_eq_some keys).mp boxed
          simp only [Row.key, Prod.mk.injEq] at same
          refine here.order row present other (old other member) same.1.symm ?_ ?_
          · rw [same.2.1, ← before.1]
          · rw [same.2.2]
            exact before.2
      · intro before other after shape
        obtain own | ⟨own, member, same⟩ := first (row :: before) other after (by simp [shape])
        · exact .inl own
        · exact .inr ⟨own, by simpa using member, same⟩

theorem Sequenced.orderly (sequenced : Sequenced w) :
    Orderly (w.attempts.map (·.newMsg)) w.messages where
  keys := sequenced.consistent.keys
  ids row left other right := sequenced.row_eq left right
  order row left other right := sequenced.row_lt left right
  sent row member := by
    obtain ⟨j, job, att, -, -, owned, -, -, ids, -, rfl⟩ :=
      sequenced.originates.save sequenced.consistent member
    exact ⟨att.newMsg, List.mem_map.mpr ⟨att, List.mem_of_getElem? owned, rfl⟩, rfl⟩

theorem own_row_first {j : Nat} {job : SaveJob} (consistent : Consistent listed w)
    (found : w.saves[j]? = some job)
    (next : job.todo = rows :: todo) :
    ∀ before row after, rows = before ++ row :: after → row.userId = row.sender ∨
      ∃ own ∈ w.messages ++ before, own.key = (row.sender, row.sender, row.clientTime) := by
  intro before row after shape
  obtain ⟨att, -, -, built⟩ := consistent.built found
  obtain ⟨done, split, -⟩ := consistent.stored j job found
  obtain ⟨own, others, -, ownUser, -, more, later, statements⟩ := built.first_row
  have stated : row ∈ job.request.statements.flatten := by
    rw [split, next, shape]
    simp
  rw [built.rows] at stated
  obtain ⟨ids, -, rfl⟩ := List.mem_map.mp stated
  cases done with
  | nil =>
      rw [statements, List.nil_append, next] at split
      obtain ⟨rfl, -⟩ := List.cons.inj split
      cases before with
      | nil =>
          obtain ⟨same, -⟩ := List.cons.inj shape
          left
          rw [← same]
          exact ownUser
      | cons head before =>
          obtain ⟨rfl, -⟩ := List.cons.inj shape
          refine .inr ⟨_, List.mem_append_right _ List.mem_cons_self, ?_⟩
          simp only [Row.key, participantRow, ownUser]
  | cons done rest =>
      have started : job.Started := by
        rw [SaveJob.Started, split, List.length_append, List.length_cons]
        omega
      obtain ⟨row, member, key, -⟩ := consistent.started_quotes found started
      refine .inr ⟨row, List.mem_append_left _ member, ?_⟩
      rw [key, built.sender, built.clientTime]
      rfl

theorem Sequenced.delivers (sequenced : Sequenced w) (after : Sequenced w')
    (moved : Moves n w e w') (other : ∀ m, e ≠ .start m) :
    MailboxTrace (mailboxes w) ((w'.messages.drop w.messages.length).map delivered)
      (mailboxes w') := by
  have orderly := after.orderly
  rw [newMsgs_kept moved other] at orderly
  rw [mailboxes, mailboxes, newMsgs_kept moved other]
  obtain same | ⟨j, job, rows, todo, status, found, next, stored, -⟩ := messages_after moved
  · rw [same, List.drop_length, List.map_nil]
    exact .refl _
  · have appended := (insertStatement_eq_some stored).1
    rw [appended] at orderly ⊢
    rw [List.drop_left]
    exact trace_rows orderly (own_row_first sequenced.consistent found next)

theorem Sequenced.acknowledges (sequenced : Sequenced w) (before : World) (slots : List Nat) :
    MailboxTrace (mailboxes w) (slots.filterMap (newReply before w)) (mailboxes w) := by
  induction slots with
  | nil => exact .refl _
  | cons a slots ih =>
      cases given : newReply before w a with
      | none => rwa [List.filterMap_cons_none given]
      | some op =>
          rw [List.filterMap_cons_some given]
          simp only [newReply, Option.bind_eq_bind, Option.bind_eq_some_iff] at given
          obtain ⟨att, found, reply, replied, given⟩ := given
          split at given
          · contradiction
          · cases given
            have timed := sequenced.identified.timed att (List.mem_of_getElem? found)
            obtain ⟨row, member, key, msgId, -⟩ :=
              sequenced.consistent.reply_quotes found (by omega) replied
            refine .next (.acknowledge ?_) ih
            exact (boxes_eq_some sequenced.consistent.keys).mpr ⟨row, member, key, msgId⟩

theorem Sequenced.sends (sequenced : Sequenced w) (contract : ClientContract w (.start m)) :
    MailboxTrace (mailboxes w)
      (if messageKey m ∈ w.attempts.map (messageKey ·.newMsg) then []
        else [.send (messageKey m) (messageBody m)])
      (mailboxesOf (w.attempts.map (·.newMsg) ++ [m]) w.messages) := by
  split
  · rename_i resent
    have same : mailboxesOf (w.attempts.map (·.newMsg) ++ [m]) w.messages = mailboxes w := by
      have sent : (mailboxesOf (w.attempts.map (·.newMsg) ++ [m]) w.messages).sent =
          (mailboxes w).sent := by
        funext key
        by_cases own : messageKey m = key
        · subst own
          have found : ((w.attempts.map (·.newMsg)).find?
              (messageKey · = messageKey m)).isSome := by
            simpa [List.find?_isSome] using resent
          simp only [mailboxesOf, mailboxes, List.find?_append, Option.or_of_isSome found]
        · simp [mailboxesOf, mailboxes, List.find?_append, own]
      exact congrArg (Mailbox.State.mk · _) sent
    rw [same]
    exact .refl _
  · rename_i fresh
    have next : SendsNext w m := by
      obtain ⟨att, member, rfl⟩ | next := contract.2
      · exact absurd (List.mem_map.mpr ⟨att, member, rfl⟩) fresh
      · exact next
    have absent : ∀ att ∈ w.attempts, messageKey att.newMsg ≠ messageKey m := by
      intro att member same
      exact fresh (List.mem_map.mpr ⟨att, member, same⟩)
    have sends : mailboxesOf (w.attempts.map (·.newMsg) ++ [m]) w.messages =
        (mailboxes w).send (messageKey m) (messageBody m) := by
      have sent : (mailboxesOf (w.attempts.map (·.newMsg) ++ [m]) w.messages).sent =
          ((mailboxes w).send (messageKey m) (messageBody m)).sent := by
        funext key
        by_cases own : key = messageKey m
        · subst own
          have unsent : (w.attempts.map (·.newMsg)).find?
              (messageKey · = messageKey m) = none := by
            simpa using absent
          simp only [mailboxesOf, Mailbox.State.send, List.find?_append, unsent,
            Option.none_or, Function.update_self]
          simp
        · simp [mailboxesOf, mailboxes, Mailbox.State.send, List.find?_append, own,
            Ne.symm own]
      exact congrArg (Mailbox.State.mk · _) sent
    rw [sends]
    refine .next (.send ?_ ?_) (.refl _)
    · by_contra sent
      obtain ⟨m', member, same⟩ := sent_ne_none.mp sent
      obtain ⟨att, present, rfl⟩ := List.mem_map.mp member
      exact absent att present same
    · intro older user sent
      obtain ⟨m', member, rfl⟩ := sent_ne_none.mp sent
      obtain ⟨att, present, rfl⟩ := List.mem_map.mp member
      obtain ⟨newer, acknowledged⟩ := next att present user
      obtain ⟨row, stored, key⟩ :=
        acknowledged_own_row sequenced.consistent sequenced.identified acknowledged
      refine ⟨⟨user, newer⟩, (boxes_ne_none sequenced.consistent.keys).mpr ⟨row, stored, ?_⟩⟩
      rw [key]
      exact congrArg (·, _) user

theorem started_moves (moved : Moves n w (.start m) w') :
    w' = { w with attempts := w.attempts ++ [{ newMsg := m }] } := by
  cases moved with
  | started => rfl
  | advanced found adv =>
      cases adv with
      | failed fault => obtain ⟨⟨⟩⟩ | ⟨⟨⟩⟩ | ⟨_, ⟨⟩⟩ := fault

/-- One step of the services does to the mailboxes what it is for. -/
theorem Sequenced.refines (sequenced : Sequenced w) (after : Sequenced w')
    (contract : ClientContract w e) (moved : Moves n w e w') :
    MailboxTrace (mailboxes w) (opsOf w w' e) (mailboxes w') := by
  cases e with
  | start m =>
      obtain rfl := started_moves moved
      simpa only [mailboxes, List.map_append, List.map_cons, List.map_nil, opsOf] using
        sequenced.sends contract
  | redisGet | select | lookedUp | groupMembers | idGenerate | idReplied | saveArrives | insert
  | setLastSend | saveReplied | rpcFails | strayIds | idgenRestarts | redisExpires =>
      exact (sequenced.delivers after moved nofun).append (after.acknowledges w _)

theorem traces_of_run (sequenced : Sequenced w₀)
    (run : Run (step n) (fun w e => ClientContract w e ∧ KeepsIds e) w₀ es w) :
    Sequenced w ∧ MailboxTrace (mailboxes w₀) (traceOf n w₀ es) (mailboxes w) := by
  induction run with
  | refl => exact ⟨sequenced, .refl _⟩
  | next admitted stepped _ ih =>
      have moved := moves_of_step stepped
      have after := sequenced.step admitted.1 admitted.2 moved
      obtain ⟨last, rest⟩ := ih after
      rw [traceOf, stepped]
      exact ⟨last, (sequenced.refines after admitted.1 moved).append rest⟩

theorem mailboxes_fresh (fresh : Fresh w) : mailboxes w = .empty := by
  simp only [mailboxes, fresh.attempts, fresh.messages]
  rfl

theorem Sequenced.shows (sequenced : Sequenced w) :
    (∃ msg ∈ getMsgs w.messages u lo hi, (msg.sender, msg.clientTime) = key ∧
        msg.msgId = msgId ∧ (msg.receiver, msg.groupId, msg.message) = body) ↔
      lo ≤ msgId ∧ msgId ≤ hi ∧ (mailboxes w).Shows u key msgId body := by
  have content : ∀ row ∈ w.messages, row.deleted = 0 ∧
      (mailboxes w).sent (row.sender, row.clientTime) =
        some (row.receiver, row.groupId, row.message) := by
    intro row member
    obtain ⟨j, job, att, -, -, owned, -, -, ids, -, rfl⟩ :=
      sequenced.originates.save sequenced.consistent member
    refine ⟨rfl, ?_⟩
    have asked : att.newMsg ∈ w.attempts.map (·.newMsg) :=
      List.mem_map.mpr ⟨att, List.mem_of_getElem? owned, rfl⟩
    cases found : (w.attempts.map (·.newMsg)).find?
        (messageKey · = messageKey att.newMsg) with
    | none => simpa using List.find?_eq_none.mp found _ asked
    | some m =>
        have key : messageKey m = messageKey att.newMsg := by
          simpa using List.find?_some found
        obtain ⟨other, present, rfl⟩ := List.mem_map.mp (List.mem_of_find?_eq_some found)
        have same := sequenced.identified.same other present att (List.mem_of_getElem? owned)
          (congrArg Prod.fst key) (congrArg Prod.snd key)
        have sent : (mailboxes w).sent (messageKey att.newMsg) = some (messageBody att.newMsg) := by
          simp only [mailboxes, mailboxesOf, found, same, Option.map_some]
        exact sent
  constructor
  · rintro ⟨msg, read, rfl, rfl, rfl⟩
    obtain ⟨row, member, rfl, first, last, -, rfl⟩ := mem_getMsgs.mp read
    exact ⟨first, last, (boxes_eq_some sequenced.consistent.keys).mpr ⟨row, member, rfl, rfl⟩,
      (content row member).2⟩
  · rintro ⟨first, last, boxed, sent⟩
    obtain ⟨row, member, same, rfl⟩ := (boxes_eq_some sequenced.consistent.keys).mp boxed
    simp only [Row.key, Prod.mk.injEq] at same
    obtain ⟨visible, carried⟩ := content row member
    have key' : (row.sender, row.clientTime) = key := Prod.ext same.2.1 same.2.2
    refine ⟨row.pulled, mem_getMsgs.mpr ⟨row, member, same.1, first, last, visible, rfl⟩, key',
      rfl, ?_⟩
    rw [key', sent] at carried
    exact (Option.some.inj carried).symm

/-- Without a restart of idgen the services are a mailbox service, in every run: what they
store and reply is a history of the mailboxes, and `GetMsgs` shows the mailboxes. -/
theorem services_keep_mailboxes (fresh : Fresh w₀)
    (run : Run (step n) (fun w e => ClientContract w e ∧ KeepsIds e) w₀ es w) :
    MailboxTrace .empty (traceOf n w₀ es) (mailboxes w) ∧
    ∀ u lo hi key msgId body,
      (∃ msg ∈ getMsgs w.messages u lo hi, (msg.sender, msg.clientTime) = key ∧
        msg.msgId = msgId ∧ (msg.receiver, msg.groupId, msg.message) = body) ↔
      lo ≤ msgId ∧ msgId ≤ hi ∧ (mailboxes w).Shows u key msgId body := by
  obtain ⟨sequenced, trace⟩ := traces_of_run (sequenced_fresh fresh) run
  rw [mailboxes_fresh fresh] at trace
  exact ⟨trace, fun _ _ _ _ _ _ => sequenced.shows⟩

/-- The second message of the late duplicate is acknowledged, too. -/
def bothAcknowledged : List Event :=
  lateDuplicate ++ [.setLastSend 1 true true, .saveReplied 2 1]

theorem bothAcknowledged_run :
    ∃ w, Run (step 1024) (fun w e => ClientContract w e ∧ KeepsIds e) .empty
      bothAcknowledged w := by
  obtain ⟨w, run, -⟩ := Run.of_check (step 1024)
    (fun w e => decide (ClientContract w e ∧ KeepsIds e)) .empty bothAcknowledged
    (fun _ => true) (fun _ _ => of_decide_eq_true) (by decide +kernel)
  exact ⟨w, run⟩

theorem bothAcknowledged_trace : traceOf 1024 .empty bothAcknowledged =
    [.send (7, 100) (8, 0, "hi".toList), .deliver 7 (7, 100) 1, .deliver 8 (7, 100) 1,
      .acknowledge (7, 100) 1, .send (7, 101) (8, 0, "ho".toList), .deliver 7 (7, 101) 2,
      .deliver 8 (7, 101) 2, .acknowledge (7, 101) 2] := by decide +kernel

theorem services_keep_mailboxes_late_duplicate :
    ∃ w, Run (step 1024) (fun w e => ClientContract w e ∧ KeepsIds e) .empty
        bothAcknowledged w ∧
      MailboxTrace .empty
        [.send (7, 100) (8, 0, "hi".toList), .deliver 7 (7, 100) 1, .deliver 8 (7, 100) 1,
          .acknowledge (7, 100) 1, .send (7, 101) (8, 0, "ho".toList), .deliver 7 (7, 101) 2,
          .deliver 8 (7, 101) 2, .acknowledge (7, 101) 2] (mailboxes w) := by
  obtain ⟨w, run⟩ := bothAcknowledged_run
  refine ⟨w, run, ?_⟩
  rw [← bothAcknowledged_trace]
  exact (services_keep_mailboxes fresh_empty run).1

/-- The ids that success replies name to one sender, to whichever attempt and whether or not
the reply arrives, increase with the client time. -/
theorem replied_ids_ascend (fresh : Fresh w₀)
    (run : Run (step n) (fun w e => ClientContract w e ∧ KeepsIds e) w₀ es w)
    (left : .acknowledge (sender, older) i ∈ traceOf n w₀ es)
    (right : .acknowledge (sender, newer) j ∈ traceOf n w₀ es) : older < newer ↔ i < j := by
  obtain ⟨-, trace⟩ := traces_of_run (sequenced_fresh fresh) run
  rw [mailboxes_fresh fresh] at trace
  have irrefl : ∀ key, ¬ SentBefore key key := fun _ before => lt_irrefl _ before.2
  rcases lt_trichotomy older newer with before | rfl | after
  · have order : SentBefore (sender, older) (sender, newer) := ⟨rfl, before⟩
    exact iff_of_true before (trace.acknowledgements_ordered irrefl order rfl left right)
  · have same := (trace.acknowledged left).symm.trans (trace.acknowledged right)
    cases same
    exact iff_of_false (lt_irrefl _) (lt_irrefl _)
  · have order : SentBefore (sender, newer) (sender, older) := ⟨rfl, after⟩
    have above := trace.acknowledgements_ordered irrefl order rfl right left
    exact iff_of_false (lt_asymm after) (lt_asymm above)

theorem replied_ids_ascend_late_duplicate :
    ∃ i j, .acknowledge (7, 100) i ∈ traceOf 1024 .empty bothAcknowledged ∧
      .acknowledge (7, 101) j ∈ traceOf 1024 .empty bothAcknowledged ∧
      ((100 : Int) < 101 ↔ i < j) := by
  obtain ⟨w, run⟩ := bothAcknowledged_run
  have left : .acknowledge (7, 100) 1 ∈ traceOf 1024 .empty bothAcknowledged := by
    rw [bothAcknowledged_trace]
    decide
  have right : .acknowledge (7, 101) 2 ∈ traceOf 1024 .empty bothAcknowledged := by
    rw [bothAcknowledged_trace]
    decide
  exact ⟨1, 2, left, right, replied_ids_ascend fresh_empty run left right⟩

end Tinyim.Delivery
