import Tinyim.Delivery.Numbering

/-! Ids in stored rows are unique for each user and ordered for each sender. A newer
message gets ids only when the one save of the older message that counts has all of its. -/
namespace Tinyim.Delivery
open IdGen Dbproxy Logic Transition

/-- Whoever sends a newer message has the own row of every older one. -/
def Precedes (w : World) : Prop :=
  ∀ older ∈ w.attempts, ∀ newer ∈ w.attempts, older.newMsg.userId = newer.newMsg.userId →
    older.newMsg.clientTime < newer.newMsg.clientTime →
    ∃ row ∈ w.messages,
      row.key = (older.newMsg.userId, older.newMsg.userId, older.newMsg.clientTime)

/-- The ids of a save that has started are below the ids of every newer message. -/
def Above (w : World) : Prop :=
  ∀ (j : Nat) job (b : Nat) newer owner, w.saves[j]? = some job → job.Started →
    w.attempts[job.attempt]? = some owner → w.attempts[b]? = some newer →
    newer.newMsg.userId = owner.newMsg.userId →
    owner.newMsg.clientTime < newer.newMsg.clientTime →
    ∀ ids ∈ owner.idReply, ∀ other ∈ newer.idReply, ids.userId = other.userId →
      ids.startMsgId < other.startMsgId

structure Sequenced (w : World) : Prop where
  consistent : Consistent (fun _ _ => True) w
  identified : Identified w
  originates : Originates w
  numbered : Numbered w
  precedes : Precedes w
  above : Above w

variable {listed : Int → List Int → Prop} {n : Int} {w w₀ w' : World} {e : Event} {a : Nat}
  {att next : Attempt}

theorem sequenced_fresh (fresh : Fresh w) : Sequenced w where
  consistent := initial_consistent fresh.toInitial
  identified := .initial fresh.toInitial
  originates := originates_fresh fresh
  numbered := numbered_fresh fresh
  precedes older member := by simp [fresh.attempts] at member
  above j job _ _ _ found := by simp [fresh.saves] at found

theorem acknowledged_own_row (consistent : Consistent listed w) (identified : Identified w)
    (acknowledged : Acknowledged w m) :
    ∃ row ∈ w.messages, row.key = (m.userId, m.userId, m.clientTime) := by
  obtain ⟨att, member, rfl, replied⟩ := acknowledged
  obtain ⟨a, found⟩ := List.mem_iff_getElem?.mp member
  obtain ⟨reply, replied⟩ := Option.isSome_iff_exists.mp replied
  have timed := identified.timed att member
  obtain ⟨row, present, key, -⟩ := consistent.reply_quotes found (by omega) replied
  exact ⟨row, present, key⟩

theorem Precedes.step (precedes : Precedes w) (consistent : Consistent listed w)
    (identified : Identified w) (contract : ClientContract w e) (moved : Moves n w e w') :
    Precedes w' := by
  have stored : ∀ m m' : NewMsg, m.userId = m'.userId → m.clientTime < m'.clientTime →
      (∃ att ∈ w.attempts, att.newMsg = m) → (∃ att ∈ w.attempts, att.newMsg = m') →
      ∃ row ∈ w'.messages, row.key = (m.userId, m.userId, m.clientTime) := by
    rintro _ _ user time ⟨older, olderMember, rfl⟩ ⟨newer, newerMember, rfl⟩
    obtain ⟨row, present, key⟩ := precedes older olderMember newer newerMember user time
    exact ⟨row, messages_kept moved present, key⟩
  intro older olderMember newer newerMember user time
  obtain ⟨m, rfl, same⟩ | ⟨old, oldMember, same⟩ := newMsg_before moved olderMember
  · obtain ⟨m', started, same'⟩ | ⟨old', oldMember', same'⟩ := newMsg_before moved newerMember
    · cases started
      rw [same, same'] at time
      exact absurd time (lt_irrefl _)
    · rw [same, same'] at user time
      rw [same]
      obtain resends | next := contract.2
      · exact stored m old'.newMsg user time resends ⟨old', oldMember', rfl⟩
      · have newest := (next old' oldMember' user.symm).1
        omega
  · obtain ⟨m', rfl, same'⟩ | ⟨old', oldMember', same'⟩ := newMsg_before moved newerMember
    · rw [same, same'] at user time
      rw [same]
      obtain resends | next := contract.2
      · exact stored old.newMsg m' user time ⟨old, oldMember, rfl⟩ resends
      · obtain ⟨row, present, key⟩ :=
          acknowledged_own_row consistent identified (next old oldMember user).2
        exact ⟨row, messages_kept moved present, key⟩
    · rw [same, same'] at user time
      rw [same]
      exact stored _ _ user time ⟨old, oldMember, rfl⟩ ⟨old', oldMember', rfl⟩

theorem Above.step (above : Above w) (consistent : Consistent listed w) (precedes : Precedes w)
    (numbered : Numbered w) (moved : Moves n w e w') : Above w' := by
  intro j later b newer owner found started owned present user time ids held other held' same
  obtain ⟨job, before, begun, asked, request⟩ |
    ⟨job, rows, before, unstarted, asked, request, todo, stored, -⟩ :=
    started_before moved found started
  · rw [asked] at owned
    obtain ⟨own, owned', requested, built⟩ := consistent.built before
    obtain ⟨own', after, evolved⟩ := attempt_after moved owned'
    cases owned.symm.trans after
    rw [idReply_evolves (consistent.shape _ own owned') evolved requested] at held
    rw [evolved.newMsg] at user time
    obtain ⟨old, present', message, held''⟩ | ⟨_, -, fresh, -⟩ :=
      numbered.id_before consistent moved present held'
    · rw [message] at user time
      exact above j job b old own before begun owned' present' user time ids held
        other held'' same
    · have bound := numbered.issued _ own owned' ids held
      rw [same] at bound
      omega
  · -- A newer message exists, so the own row of this one was stored before its first statement.
    rw [asked] at owned
    obtain ⟨own, owned', -, built⟩ := consistent.built before
    obtain ⟨own', after, evolved⟩ := attempt_after moved owned'
    cases owned.symm.trans after
    rw [evolved.newMsg] at user time
    obtain ⟨m, -, rfl, -⟩ | ⟨old, present', evolved'⟩ := attempt_before moved present
    · exact absurd held' List.not_mem_nil
    · rw [evolved'.newMsg] at user time
      obtain ⟨row, stored', key⟩ := precedes own (List.mem_of_getElem? owned') old
        (List.mem_of_getElem? present') user.symm time
      refine absurd ⟨row, stored', ?_, rfl, rfl⟩
        (consistent.first_statement_fresh before unstarted todo stored)
      rw [key, built.sender, built.clientTime]

namespace Sequenced

theorem step (sequenced : Sequenced w) (contract : ClientContract w e) (keeps : KeepsIds e)
    (moved : Moves n w e w') : Sequenced w' where
  consistent := sequenced.consistent.step (lists_any w e) moved
  identified := sequenced.identified.step contract moved
  originates := sequenced.originates.step sequenced.consistent moved
  numbered := sequenced.numbered.step sequenced.consistent
    (sequenced.numbered.lastId_le sequenced.consistent keeps moved) moved
  precedes := sequenced.precedes.step sequenced.consistent sequenced.identified contract moved
  above := sequenced.above.step sequenced.consistent sequenced.precedes sequenced.numbered moved

theorem row_eq (sequenced : Sequenced w) (left : row ∈ w.messages) (right : other ∈ w.messages)
    (user : row.userId = other.userId) (id : row.msgId = other.msgId) : row = other := by
  obtain ⟨i, job, att, -, -, owned, -, -, ids, held, rfl⟩ :=
    sequenced.originates.save sequenced.consistent left
  obtain ⟨j, job', att', -, -, owned', -, -, ids', held', rfl⟩ :=
    sequenced.originates.save sequenced.consistent right
  have attempt : job.attempt = job'.attempt := by
    by_contra different
    exact sequenced.numbered.distinct _ _ att att' owned owned' different ids held ids' held'
      user id
  rw [attempt] at owned
  cases owned.symm.trans owned'
  apply sequenced.consistent.keys.eq left right
  have user : ids.userId = ids'.userId := user
  simp only [Row.key, participantRow, user]

theorem row_lt (sequenced : Sequenced w) (left : row ∈ w.messages) (right : other ∈ w.messages)
    (user : row.userId = other.userId) (sender : row.sender = other.sender)
    (time : row.clientTime < other.clientTime) : row.msgId < other.msgId := by
  obtain ⟨i, job, att, present, started, owned, -, -, ids, held, rfl⟩ :=
    sequenced.originates.save sequenced.consistent left
  obtain ⟨j, job', att', -, -, owned', -, -, ids', held', rfl⟩ :=
    sequenced.originates.save sequenced.consistent right
  exact sequenced.above i job _ att' att present started owned owned' sender.symm time
    ids held ids' held' user

end Sequenced

/-- Without a restart of idgen the rows of a user have different ids, and the ids that
one sender's messages have at one user increase with the client time. -/
theorem ids_unique_and_ordered (fresh : Fresh w₀)
    (run : Run (step n) (fun w e => ClientContract w e ∧ KeepsIds e) w₀ es w) :
    (w.messages.map fun row => (row.userId, row.msgId)).Nodup ∧
    ∀ row ∈ w.messages, ∀ other ∈ w.messages, row.userId = other.userId →
      row.sender = other.sender → row.clientTime < other.clientTime →
        row.msgId < other.msgId := by
  have sequenced := run.invariant Sequenced (fun sequenced admitted stepped =>
    sequenced.step admitted.1 admitted.2 (moves_of_step stepped)) (sequenced_fresh fresh)
  constructor
  · refine List.Nodup.map_on ?_ (List.Nodup.of_map _ sequenced.consistent.keys)
    intro row left other right same
    exact sequenced.row_eq left right (congrArg Prod.fst same) (congrArg Prod.snd same)
  · intro row left other right user sender time
    exact sequenced.row_lt left right user sender time

/-- A late duplicate of the first message takes larger ids than the second message has;
its save is refused. -/
def lateDuplicate : List Event :=
  let first : NewMsg := ⟨7, 8, .PRIVATE, "hi".toList, 100, 0⟩
  let second : NewMsg := ⟨7, 8, .PRIVATE, "ho".toList, 101, 0⟩
  [.start first, .start first, .redisGet 0 .value, .redisGet 1 .value, .select 0 true,
    .select 1 true, .lookedUp 0, .lookedUp 1, .idGenerate 0 {}, .idGenerate 0 {},
    .idReplied 0 50, .saveArrives 0, .insert 0 .executed, .setLastSend 0 true true,
    .saveReplied 0 0, .start second, .redisGet 2 .value, .lookedUp 2, .idGenerate 2 {},
    .idGenerate 2 {}, .idGenerate 1 {}, .idGenerate 1 {}, .idReplied 2 51, .idReplied 1 52,
    .saveArrives 2, .saveArrives 1, .insert 1 .executed, .insert 2 .executed]

theorem ids_unique_and_ordered_late_duplicate :
    ∃ w, Run (step 1024) (fun w e => ClientContract w e ∧ KeepsIds e) .empty lateDuplicate w ∧
      w.messages.map (fun row => (row.userId, row.clientTime, row.msgId)) =
        [(7, 100, 1), (8, 100, 1), (7, 101, 2), (8, 101, 2)] ∧
      (w.messages.map fun row => (row.userId, row.msgId)).Nodup := by
  obtain ⟨w, run, rows⟩ := Run.of_check (step 1024)
    (fun w e => decide (ClientContract w e ∧ KeepsIds e)) .empty lateDuplicate
    (fun w => decide (w.messages.map (fun row => (row.userId, row.clientTime, row.msgId)) =
      [(7, 100, 1), (8, 100, 1), (7, 101, 2), (8, 101, 2)]))
    (fun _ _ => of_decide_eq_true) (by decide)
  exact ⟨w, run, of_decide_eq_true rows, (ids_unique_and_ordered fresh_empty run).1⟩

end Tinyim.Delivery
