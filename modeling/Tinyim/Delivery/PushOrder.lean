import Tinyim.Delivery.Pushing

/-! The order of the pushes. Ids follow the order of sending, so the calls for one recipient do
too as long as no two tasks of a sender are under way at once. -/
namespace Tinyim.Delivery
open IdGen Dbproxy Logic Transition

def Ascends (earlier later : Text × Msg) : Prop :=
  earlier.2.sender = later.2.sender → earlier.2.userId = later.2.userId →
    earlier.2.msgId < later.2.msgId

/-- A restart finds every id that idgen has handed out in LevelDB. -/
def KeepsCounters (w : World) : Event → Prop
  | .idgenRestarts => ∀ userId, lastId w.idgen userId ≤ stored w.idgen userId
  | e => KeepsIds e

/-- Before a sender starts a new message, its calls have returned and its tasks have ended. -/
def Awaits (s : Pushing) : Event → Prop
  | .start m => Resends s.world m ∨
      (∀ att ∈ s.world.attempts, att.newMsg.userId = m.userId →
        ∃ outcome, att.stage = .finished outcome) ∧
      ∀ task ∈ s.tasks, task.args.sender = m.userId → task.calls = some []
  | _ => True

def OneByOne (s : Pushing) : PushEvent → Prop
  | .world e => ClientContract s.world e ∧ KeepsCounters s.world e ∧ Awaits s e
  | _ => True

/-- The clients keep their contract and idgen keeps running; nothing is said about the tasks. -/
def InTurn (s : Pushing) : PushEvent → Prop
  | .world e => ClientContract s.world e ∧ KeepsIds e
  | _ => True

instance : Decidable (Ascends earlier later) := by unfold Ascends; infer_instance

instance : DecidablePred fun stage => ∃ outcome, stage = Stage.finished outcome
  | .finished outcome => .isTrue ⟨outcome, rfl⟩
  | .getUserLastSendData | .getGroupMembers | .idGenerate _ | .save _ _ =>
      .isFalse (by rintro ⟨_, ⟨⟩⟩)

instance : (s : Pushing) → (e : Event) → Decidable (Awaits s e)
  | s, .start m => inferInstanceAs (Decidable (Resends s.world m ∨
      (∀ att ∈ s.world.attempts, att.newMsg.userId = m.userId →
        ∃ outcome, att.stage = .finished outcome) ∧
      ∀ task ∈ s.tasks, task.args.sender = m.userId → task.calls = some []))
  | _, .redisGet .. | _, .select .. | _, .lookedUp _ | _, .groupMembers .. | _, .idGenerate ..
  | _, .idReplied .. | _, .saveArrives _ | _, .insert .. | _, .setLastSend .. | _, .saveReplied ..
  | _, .rpcFails .. | _, .strayIds .. | _, .redisExpires _ | _, .idgenRestarts =>
    inferInstanceAs (Decidable True)

instance : Decidable (InTurn s pe) := by unfold InTurn; split <;> infer_instance

/-- The ids of every message follow the order of sending. -/
structure Ranked (w : World) : Prop where
  hands : HandsOver (fun _ _ => True) w
  identified : Identified w
  numbered : Numbered w
  precedes : Precedes w
  above : Above w
  ascending : ∀ (a : Nat) att, w.attempts[a]? = some att →
    att.idReply.Pairwise fun ids later => ids.userId = later.userId →
      ids.startMsgId < later.startMsgId

/-- An attempt that a newer message has left behind: its task has ended, and it gets no task
any more. -/
structure Superseded (s : Pushing) (a : Nat) (att : Attempt) : Prop where
  ended : ∀ task ∈ s.tasks, task.attempt = a → task.calls = some []
  closed : (∃ outcome, att.stage = .finished outcome) ∨
    (∃ row ∈ s.world.messages,
      row.key = (att.newMsg.userId, att.newMsg.userId, att.newMsg.clientTime)) ∧
    ∀ job ∈ s.world.saves, job.attempt = a → ¬ job.Started

def Carries (args : SendtoPeersArgs) (call : Text × Msg) : Prop :=
  call.2.sender = args.sender ∧
    ∃ ids ∈ args.idReply, call.2.userId = ids.userId ∧ call.2.msgId = ids.startMsgId

structure InOrder (s : Pushing) : Prop where
  ranked : Ranked s.world
  accepted : ∀ (t : Nat) task, s.tasks[t]? = some task →
    ∃ att reply, s.world.attempts[task.attempt]? = some att ∧
      att.stage = .finished (.accepted reply task.args)
  once : ∀ (t u : Nat) task other, s.tasks[t]? = some task → s.tasks[u]? = some other →
    task.attempt = other.attempt → t = u
  superseded : ∀ (a b : Nat) older newer, s.world.attempts[a]? = some older →
    s.world.attempts[b]? = some newer → older.newMsg.userId = newer.newMsg.userId →
    older.newMsg.clientTime < newer.newMsg.clientTime → Superseded s a older
  planned : ∀ (t : Nat) task calls, s.tasks[t]? = some task → task.calls = some calls →
    calls.Pairwise Ascends ∧
      ∀ call ∈ calls, Carries task.args call ∧ ∀ old ∈ s.issued, Ascends old call
  issued : ∀ call ∈ s.issued, ∃ (t : Nat) (task : PushTask), s.tasks[t]? = some task ∧
    task.calls ≠ none ∧ Carries task.args call
  ordered : s.issued.Pairwise Ascends

variable {n : Int} {s s₀ s' : Pushing} {pe : PushEvent} {w w' : World} {e : Event} {a : Nat}
  {att next : Attempt}

theorem lastId_grows (ranked : Ranked w) (keeps : KeepsCounters w e) (moved : Moves n w e w')
    (userId : Int) : lastId w.idgen userId ≤ lastId w'.idgen userId := by
  by_cases restarts : e = .idgenRestarts
  · subst restarts
    cases moved with
    | idgenRestarted => exact (keeps userId).trans (lastId_init _ _).ge
    | advanced _ adv => cases adv with
      | failed fault => obtain absurd | absurd | ⟨_, absurd⟩ := fault <;> cases absurd
  · refine ranked.numbered.lastId_le ranked.hands.consistent ?_ moved userId
    cases e with
    | idgenRestarts => exact absurd rfl restarts
    | start | redisGet | select | lookedUp | groupMembers | idGenerate | idReplied | saveArrives
    | insert | setLastSend | saveReplied | rpcFails | strayIds | redisExpires => exact keeps

theorem Ranked.step (ranked : Ranked w) (contract : ClientContract w e)
    (keeps : KeepsCounters w e) (moved : Moves n w e w') : Ranked w' where
  hands := ranked.hands.step (lists_any w e) moved
  identified := ranked.identified.step contract moved
  numbered := ranked.numbered.step ranked.hands.consistent (lastId_grows ranked keeps moved) moved
  precedes := ranked.precedes.step ranked.hands.consistent ranked.identified contract moved
  above := ranked.above.step ranked.hands.consistent ranked.precedes ranked.numbered moved
  ascending a att found := by
    obtain ⟨m, -, rfl, -⟩ | ⟨old, present, evolved⟩ := attempt_before moved found
    · exact .nil
    · have before := ranked.ascending a old present
      cases evolved with
      | kept | idRefused => exact before
      | advanced adv => cases adv <;> exact before
      | identified user served =>
          have need := nextUser_need ranked.hands.consistent present user
          obtain ⟨start, -⟩ := lastId_served (ranked.numbered.nonneg _) (by rw [need]) served
          refine List.pairwise_append.mpr ⟨before, List.pairwise_singleton _ _, ?_⟩
          intro ids held fresh single same
          rw [List.mem_singleton] at single
          subst single
          have bound := ranked.numbered.issued a old present ids held
          rw [same] at bound
          simp only [start] at bound ⊢
          omega

theorem ranked_initial (initial : Initial w) (nonneg : ∀ userId, 0 ≤ lastId w.idgen userId) :
    Ranked w where
  hands := .initial initial
  identified := .initial initial
  numbered := {
    nonneg
    issued := fun a att found => by simp [initial.attempts] at found
    distinct := fun a b left right found => by simp [initial.attempts] at found }
  precedes older member := by simp [initial.attempts] at member
  above j job _ _ _ found := by simp [initial.saves] at found
  ascending a att found := by simp [initial.attempts] at found

theorem Ranked.task (ranked : Ranked w) (found : w.attempts[a]? = some att)
    (finished : att.stage = .finished (.accepted reply args)) :
    args.sender = att.newMsg.userId ∧ args.idReply = att.idReply ∧
      args.idReply.map MsgIds.userId = args.idRequest.map UserAndIdNum.userId := by
  obtain ⟨request, -, answers, handed, -⟩ := ranked.hands.accepted found finished
  have reply : args.idReply = att.idReply := congrArg SendtoPeersArgs.idReply handed
  exact ⟨congrArg SendtoPeersArgs.sender handed, reply, reply ▸ answers⟩

theorem Ranked.plan (ranked : Ranked w) (found : w.attempts[a]? = some att)
    (finished : att.stage = .finished (.accepted reply args)) (value : Int → Option Text) :
    (sendtoPeers args (getSessions value (recipients args))).Pairwise Ascends ∧
      ∀ call ∈ sendtoPeers args (getSessions value (recipients args)), Carries args call := by
  obtain ⟨-, reply, answers⟩ := ranked.task found finished
  rw [sendtoPeers_eq value answers]
  constructor
  · rw [List.pairwise_filterMap]
    have ascending := ranked.ascending a att found
    rw [← reply] at ascending
    refine (ascending.sublist (List.drop_sublist 1 _)).imp ?_
    intro ids later before first sent last sent' sender user
    obtain ⟨_, -, rfl⟩ := Option.map_eq_some_iff.mp sent
    obtain ⟨_, -, rfl⟩ := Option.map_eq_some_iff.mp sent'
    exact before user
  · intro call member
    obtain ⟨ids, served, sent⟩ := List.mem_filterMap.mp member
    obtain ⟨_, -, rfl⟩ := Option.map_eq_some_iff.mp sent
    exact ⟨rfl, ids, List.mem_of_mem_drop served, rfl, rfl⟩

theorem unstarted_kept (ranked : Ranked w) (moved : Moves n w e w')
    (found : w.attempts[a]? = some att)
    (own : ∃ row ∈ w.messages,
      row.key = (att.newMsg.userId, att.newMsg.userId, att.newMsg.clientTime))
    (unstarted : ∀ job ∈ w.saves, job.attempt = a → ¬ job.Started) :
    ∀ job ∈ w'.saves, job.attempt = a → ¬ job.Started := by
  intro later member asked started
  obtain ⟨j, place⟩ := List.mem_iff_getElem?.mp member
  obtain ⟨job, before, begun, same, -⟩ | ⟨job, rows, before, fresh, same, -, todo, stored, -⟩ :=
    started_before moved place started
  · exact unstarted job (List.mem_of_getElem? before) (same ▸ asked) begun
  · obtain ⟨owner, owned, -, built⟩ := ranked.hands.consistent.built before
    rw [← same, asked] at owned
    cases found.symm.trans owned
    obtain ⟨row, present, key⟩ := own
    refine ranked.hands.consistent.first_statement_fresh before fresh todo stored
      ⟨row, present, ?_, rfl, rfl⟩
    rw [key, built.sender, built.clientTime]

theorem accepted_started (ranked : Ranked w) (found : w.attempts[a]? = some att)
    (finished : att.stage = .finished (.accepted reply args)) :
    ∃ job ∈ w.saves, job.attempt = a ∧ job.Started := by
  obtain ⟨j, job, present, asked, -, started, -⟩ :=
    ranked.hands.consistent.accepted_save found finished
  exact ⟨job, List.mem_of_getElem? present, asked, started⟩

theorem Superseded.world (superseded : Superseded s a att) (ranked : Ranked s.world)
    (ranked' : Ranked w') (moved : Moves n s.world e w') (found : s.world.attempts[a]? = some att)
    (found' : w'.attempts[a]? = some next) (evolved : Evolves n s.world w' a att e next) :
    Superseded { s with world := w', tasks := s.tasks ++ startedTasks w' e } a next where
  ended task member asked := by
    obtain old | new := List.mem_append.mp member
    · exact superseded.ended task old asked
    · obtain ⟨b, j, reply, other, rfl, -, -, rfl, present, finished⟩ := startedTasks_cases new
      subst asked
      obtain ⟨before, idRequest, request, waiting, stage⟩ := saveReplied_before moved
      cases found.symm.trans waiting
      obtain ⟨outcome, ended⟩ | ⟨own, unstarted⟩ := superseded.closed
      · cases stage.symm.trans ended
      · obtain ⟨job, saved, mine, started⟩ := accepted_started ranked' present finished
        exact absurd started (unstarted_kept ranked moved found own unstarted job saved mine)
  closed := by
    obtain ⟨outcome, ended⟩ | ⟨⟨row, present, key⟩, unstarted⟩ := superseded.closed
    · exact .inl ⟨outcome, outcome_evolves evolved ended⟩
    · refine .inr ⟨⟨row, messages_kept moved present, ?_⟩,
        unstarted_kept ranked moved found ⟨row, present, key⟩ unstarted⟩
      rw [key, evolved.newMsg]

theorem Superseded.setTask (superseded : Superseded s a att) (found : s.tasks[t]? = some task)
    (active : task.calls ≠ some []) :
    Superseded (s.setTask t { task with calls }) a att where
  ended other member asked := by
    obtain old | rfl := List.mem_or_eq_of_mem_set member
    · exact superseded.ended other old asked
    · exact absurd (superseded.ended task (List.mem_of_getElem? found) asked) active
  closed := superseded.closed

theorem get_started_cases {t : Nat} (found : (s.tasks ++ startedTasks w e)[t]? = some task) :
    s.tasks[t]? = some task ∨ t = s.tasks.length ∧ task ∈ startedTasks w e := by
  rcases Nat.lt_or_ge t s.tasks.length with old | new
  · exact .inl (by rwa [List.getElem?_append_left old] at found)
  · rw [List.getElem?_append_right new] at found
    have started := List.mem_of_getElem? found
    obtain ⟨_, _, _, _, -, single, -⟩ := startedTasks_cases started
    rw [single, List.getElem?_singleton] at found
    split at found
    · exact .inr ⟨by omega, started⟩
    · contradiction

namespace InOrder

/-- Two tasks of one sender are never both under way, and the ids of the one that has ended
are the smaller ones. -/
theorem earlier (inOrder : InOrder s) {t u : Nat} (left : s.tasks[t]? = some task)
    (right : s.tasks[u]? = some other) (different : t ≠ u)
    (sender : task.args.sender = other.args.sender) (active : other.calls ≠ some []) :
    task.calls = some [] ∧ ∀ ids ∈ task.args.idReply, ∀ later ∈ other.args.idReply,
      ids.userId = later.userId → ids.startMsgId < later.startMsgId := by
  obtain ⟨att, reply, found, finished⟩ := inOrder.accepted t task left
  obtain ⟨att', reply', found', finished'⟩ := inOrder.accepted u other right
  obtain ⟨user, held, -⟩ := inOrder.ranked.task found finished
  obtain ⟨user', held', -⟩ := inOrder.ranked.task found' finished'
  have same : att.newMsg.userId = att'.newMsg.userId := by rw [← user, ← user', sender]
  have consistent := inOrder.ranked.hands.consistent
  obtain ⟨i, job, saved, asked, -, started, mine, time, -⟩ :=
    consistent.accepted_save found finished
  obtain ⟨j, job', saved', asked', -, started', mine', time', -⟩ :=
    consistent.accepted_save found' finished'
  rcases lt_trichotomy att.newMsg.clientTime att'.newMsg.clientTime with older | equal | newer
  · have behind := inOrder.superseded _ _ att att' found found' same older
    refine ⟨behind.ended task (List.mem_of_getElem? left) rfl, ?_⟩
    rw [held, held']
    exact inOrder.ranked.above i job _ att' att saved started (asked ▸ found) found' same.symm older
  · have once : i = j := consistent.single i j job job' saved saved' started started'
      (by rw [mine, mine', same]) (by rw [time, time', equal])
    subst once
    cases saved.symm.trans saved'
    exact absurd (inOrder.once t u task other left right (asked.symm.trans asked')) different
  · have behind := inOrder.superseded _ _ att' att found' found same.symm newer
    exact absurd (behind.ended other (List.mem_of_getElem? right) rfl) active

theorem left_behind (inOrder : InOrder s) (found : s.world.attempts[a]? = some att)
    (awaits : Awaits s (.start m)) (user : att.newMsg.userId = m.userId)
    (older : att.newMsg.clientTime < m.clientTime) : Superseded s a att := by
  obtain ⟨resent, member, rfl⟩ | ⟨returned, ended⟩ := awaits
  · obtain ⟨b, present⟩ := List.mem_iff_getElem?.mp member
    exact inOrder.superseded a b att resent found present user older
  · refine ⟨?_, .inl (returned att (List.mem_of_getElem? found) user)⟩
    intro task member asked
    obtain ⟨t, place⟩ := List.mem_iff_getElem?.mp member
    obtain ⟨owner, reply, owned, finished⟩ := inOrder.accepted t task place
    rw [asked] at owned
    cases found.symm.trans owned
    obtain ⟨sender, -⟩ := inOrder.ranked.task found finished
    exact ended task member (sender.trans user)

theorem fresh_superseded (inOrder : InOrder s) (ranked' : Ranked w')
    (moved : Moves n s.world (.start m) w') {b : Nat}
    (found : w'.attempts[s.world.attempts.length]? = some att)
    (present : w'.attempts[b]? = some next) (user : att.newMsg.userId = next.newMsg.userId)
    (older : att.newMsg.clientTime < next.newMsg.clientTime) :
    Superseded { s with world := w', tasks := s.tasks ++ startedTasks w' (.start m) }
      s.world.attempts.length att where
  ended task member asked := by
    obtain old | new := List.mem_append.mp member
    · obtain ⟨t, place⟩ := List.mem_iff_getElem?.mp old
      obtain ⟨owner, reply, owned, -⟩ := inOrder.accepted t task place
      have bound := (List.getElem?_eq_some_iff.mp owned).1
      omega
    · exact absurd new List.not_mem_nil
  closed := by
    refine .inr ⟨ranked'.precedes att (List.mem_of_getElem? found) next
      (List.mem_of_getElem? present) user older, ?_⟩
    intro later member asked started
    obtain ⟨j, place⟩ := List.mem_iff_getElem?.mp member
    obtain ⟨job, before, -, same, -⟩ | ⟨job, _, before, -, same, -⟩ :=
      started_before moved place started
    · obtain ⟨owner, owned, -⟩ := inOrder.ranked.hands.consistent.built before
      have bound := (List.getElem?_eq_some_iff.mp owned).1
      omega
    · obtain ⟨owner, owned, -⟩ := inOrder.ranked.hands.consistent.built before
      have bound := (List.getElem?_eq_some_iff.mp owned).1
      omega

theorem world (inOrder : InOrder s) (contract : ClientContract s.world e)
    (keeps : KeepsCounters s.world e) (awaits : Awaits s e) (moved : Moves n s.world e w') :
    InOrder { s with world := w', tasks := s.tasks ++ startedTasks w' e } := by
  have ranked' := inOrder.ranked.step contract keeps moved
  have fresh : ∀ (t : Nat) task other, s.tasks[t]? = some task → other ∈ startedTasks w' e →
      task.attempt ≠ other.attempt := by
    rintro t task other found started same
    obtain ⟨att, reply, present, finished⟩ := inOrder.accepted t task found
    obtain ⟨_, j, _, _, rfl, -, -, rfl, -⟩ := startedTasks_cases started
    obtain ⟨before, _, _, waiting, stage⟩ := saveReplied_before moved
    rw [same] at present
    cases present.symm.trans waiting
    cases stage.symm.trans finished
  exact {
    ranked := ranked'
    accepted := by
      intro t task found
      obtain old | ⟨-, new⟩ := get_started_cases found
      · obtain ⟨att, reply, present, finished⟩ := inOrder.accepted t task old
        obtain ⟨next, after, evolved⟩ := attempt_after moved present
        exact ⟨next, reply, after, outcome_evolves evolved finished⟩
      · obtain ⟨_, _, reply, next, -, -, -, rfl, after, finished⟩ := startedTasks_cases new
        exact ⟨next, reply, after, finished⟩
    once := by
      intro t u task other left right same
      obtain old | ⟨last, new⟩ := get_started_cases left
      · obtain old' | ⟨-, new'⟩ := get_started_cases right
        · exact inOrder.once t u task other old old' same
        · exact absurd same (fresh t task other old new')
      · obtain old' | ⟨last', -⟩ := get_started_cases right
        · exact absurd same.symm (fresh u other task old' new)
        · rw [last, last']
    superseded := by
      intro a b older newer found present user time
      obtain ⟨m, rfl, rfl, rfl⟩ | ⟨old, before, evolved⟩ := attempt_before moved found
      · exact inOrder.fresh_superseded ranked' moved found present user time
      · rw [evolved.newMsg] at user time
        obtain ⟨m, rfl, rfl, -⟩ | ⟨old', before', evolved'⟩ := attempt_before moved present
        · exact (inOrder.left_behind before awaits user time).world inOrder.ranked ranked' moved
            before found evolved
        · rw [evolved'.newMsg] at user time
          exact (inOrder.superseded a b old old' before before' user time).world inOrder.ranked
            ranked' moved before found evolved
    planned := by
      intro t task calls found waiting
      obtain old | ⟨-, new⟩ := get_started_cases found
      · exact inOrder.planned t task calls old waiting
      · obtain ⟨_, _, _, _, -, -, none, -⟩ := startedTasks_cases new
        cases none.symm.trans waiting
    issued := by
      intro call member
      obtain ⟨t, task, found, planned, carries⟩ := inOrder.issued call member
      refine ⟨t, task, ?_, planned, carries⟩
      rw [List.getElem?_append_left (List.getElem?_eq_some_iff.mp found).1, found]
    ordered := inOrder.ordered }

theorem setTask (inOrder : InOrder s) {t : Nat} (found : s.tasks[t]? = some task)
    (active : task.calls ≠ some [])
    (planned : calls.Pairwise Ascends ∧
      ∀ call ∈ calls, Carries task.args call ∧ ∀ old ∈ s.issued, Ascends old call) :
    InOrder (s.setTask t { task with calls := some calls }) where
  ranked := inOrder.ranked
  accepted u other present := by
    obtain ⟨rfl, rfl⟩ | ⟨-, old⟩ := get_set_cases present
    · exact inOrder.accepted u task found
    · exact inOrder.accepted u other old
  once u v left right present present' same := by
    obtain ⟨rfl, rfl⟩ | ⟨-, old⟩ := get_set_cases present
    · obtain ⟨rfl, rfl⟩ | ⟨-, old'⟩ := get_set_cases present'
      · rfl
      · exact inOrder.once u v task right found old' same
    · obtain ⟨rfl, rfl⟩ | ⟨-, old'⟩ := get_set_cases present'
      · exact inOrder.once u v left task old found same
      · exact inOrder.once u v left right old old' same
  superseded a b older newer present present' user time :=
    (inOrder.superseded a b older newer present present' user time).setTask found active
  planned u other rest present waiting := by
    obtain ⟨rfl, rfl⟩ | ⟨-, old⟩ := get_set_cases present
    · cases waiting
      exact planned
    · exact inOrder.planned u other rest old waiting
  issued call member := by
    obtain ⟨u, other, present, issuing, carries⟩ := inOrder.issued call member
    by_cases same : u = t
    · subst same
      cases found.symm.trans present
      exact ⟨u, _, get_set_self found, nofun, carries⟩
    · exact ⟨u, other, by rwa [Pushing.setTask, List.getElem?_set_ne (Ne.symm same)],
        issuing, carries⟩
  ordered := inOrder.ordered

theorem plan (inOrder : InOrder s) {t : Nat} (found : s.tasks[t]? = some task)
    (waiting : task.calls = none)
    (plan : calls = [] ∨
      ∃ value, calls = sendtoPeers task.args (getSessions value (recipients task.args))) :
    InOrder (s.setTask t { task with calls := some calls }) := by
  have active : task.calls ≠ some [] := by simp [waiting]
  refine inOrder.setTask found active ?_
  obtain rfl | ⟨value, rfl⟩ := plan
  · exact ⟨.nil, fun call member => absurd member List.not_mem_nil⟩
  · obtain ⟨att, reply, present, finished⟩ := inOrder.accepted t task found
    obtain ⟨ascending, carried⟩ := inOrder.ranked.plan present finished value
    refine ⟨ascending, fun call member => ⟨carried call member, ?_⟩⟩
    intro old issued sender user
    -- The old call comes from a task that has ended, and so from an older message.
    obtain ⟨u, other, present', issuing, mine, ids, held, oldUser, oldId⟩ :=
      inOrder.issued old issued
    obtain ⟨yours, ids', held', newUser, newId⟩ := carried call member
    have different : u ≠ t := by
      rintro rfl
      cases found.symm.trans present'
      exact issuing waiting
    have below := (inOrder.earlier present' found different
      (by rw [← mine, ← yours, sender]) active).2 ids held ids' held'
    rw [oldId, newId]
    exact below (by rw [← oldUser, ← newUser, user])

theorem issue (inOrder : InOrder s) {t : Nat} (found : s.tasks[t]? = some task)
    (next : task.calls = some (call :: calls)) :
    InOrder { s.setTask t { task with calls := some calls } with
      issued := s.issued ++ [call] } := by
  have active : task.calls ≠ some [] := by simp [next]
  obtain ⟨ascending, carried⟩ := inOrder.planned t task _ found next
  obtain ⟨above, rest⟩ := List.pairwise_cons.mp ascending
  have before := inOrder.setTask found active
    ⟨rest, fun other member => carried other (List.mem_cons_of_mem _ member)⟩
  exact {
    ranked := before.ranked
    accepted := before.accepted
    once := before.once
    superseded := fun a b older newer present present' user time =>
      have behind := before.superseded a b older newer present present' user time
      ⟨behind.ended, behind.closed⟩
    planned := by
      intro u other later present waiting
      obtain ⟨inside, carried'⟩ := before.planned u other later present waiting
      refine ⟨inside, fun last member => ⟨(carried' last member).1, ?_⟩⟩
      intro old issued
      obtain issued | single := List.mem_append.mp issued
      · exact (carried' last member).2 old issued
      · rw [List.mem_singleton] at single
        subst single
        obtain ⟨-, rfl⟩ | ⟨different, kept⟩ := get_set_cases present
        · cases waiting
          exact above last member
        · intro sender
          -- Two tasks with calls left cannot belong to one sender.
          have mine := (carried old List.mem_cons_self).1.1
          have yours := (carried' last member).1.1
          have unfinished : other.calls ≠ some [] := by
            rw [waiting]
            rintro ⟨⟩
            exact absurd member List.not_mem_nil
          exact absurd (inOrder.earlier found kept (Ne.symm different)
            (by rw [← mine, ← yours, sender]) unfinished).1 active
    issued := by
      intro old member
      obtain issued | single := List.mem_append.mp member
      · exact before.issued old issued
      · rw [List.mem_singleton] at single
        subst single
        exact ⟨t, _, get_set_self found, nofun, (carried old List.mem_cons_self).1⟩
    ordered := by
      refine List.pairwise_append.mpr ⟨inOrder.ordered, List.pairwise_singleton _ _, ?_⟩
      intro old issued last single
      rw [List.mem_singleton] at single
      subst single
      exact (carried last List.mem_cons_self).2 old issued }

theorem step (inOrder : InOrder s) (oneByOne : OneByOne s pe) (pushes : Pushes n s pe s') :
    InOrder s' := by
  cases pushes with
  | world moved => exact inOrder.world oneByOne.1 oneByOne.2.1 oneByOne.2.2 moved
  | planned found waiting plan => exact inOrder.plan found waiting plan
  | issued found next => exact inOrder.issue found next

end InOrder

theorem KeepsIds.keepsCounters (keeps : KeepsIds e) : KeepsCounters w e := by
  cases e with
  | idgenRestarts => exact keeps.elim
  | start | redisGet | select | lookedUp | groupMembers | idGenerate | idReplied | saveArrives
  | insert | setLastSend | saveReplied | rpcFails | strayIds | redisExpires => exact keeps

/-- The steps from the start of attempt `a` to its acceptance, for a private message. -/
def acceptPrivate (a : Nat) (m : NewMsg) : List PushEvent :=
  [.redisExpires m.userId, .start m, .redisGet a .value, .select a true, .lookedUp a,
    .idGenerate a {}, .idGenerate a {}, .idReplied a 50, .saveArrives a, .insert a .executed,
    .setLastSend a true true, .saveReplied a a].map .world

/-- The steps of a task with one recipient, who has a session at `a:1`. -/
def pushOne (t : Nat) : List PushEvent :=
  [.getSessions t fun _ => some "a:1".toList, .sendtoAccess t]

/-- User 7 sends two messages to user 8 and waits for the first task. -/
def tasksInTurn : List PushEvent :=
  acceptPrivate 0 ⟨7, 8, .PRIVATE, "hi".toList, 100, 0⟩ ++ pushOne 0 ++
    acceptPrivate 1 ⟨7, 8, .PRIVATE, "ho".toList, 101, 0⟩ ++ pushOne 1

/-- The task of the second message overtakes the one of the first. -/
def tasksOverlap : List PushEvent :=
  acceptPrivate 0 ⟨7, 8, .PRIVATE, "hi".toList, 100, 0⟩ ++
    acceptPrivate 1 ⟨7, 8, .PRIVATE, "ho".toList, 101, 0⟩ ++ pushOne 1 ++ pushOne 0

/-- A retry is acknowledged while the group save is half done; the first call is accepted when
the second message has been pushed. -/
def callOutlived : List PushEvent :=
  let first : NewMsg := ⟨7, 5, .GROUP, "hi".toList, 100, 0⟩
  let second : NewMsg := ⟨7, 5, .GROUP, "ho".toList, 101, 0⟩
  [.start first, .redisGet 0 .value, .select 0 true, .lookedUp 0, .groupMembers 0 [7, 8],
    .idGenerate 0 {}, .idGenerate 0 {}, .idReplied 0 50, .saveArrives 0, .insert 0 .executed,
    .start first, .redisGet 1 .value, .select 1 true, .lookedUp 1,
    .start second, .redisGet 2 .value, .select 2 true, .lookedUp 2, .groupMembers 2 [7, 8],
    .idGenerate 2 {}, .idGenerate 2 {}, .idReplied 2 51, .saveArrives 2, .insert 1 .executed,
    .insert 1 .executed, .setLastSend 1 true true, .saveReplied 2 1].map PushEvent.world ++
    pushOne 0 ++ [.insert 0 .executed, .setLastSend 0 true true, .saveReplied 0 0].map .world ++
    pushOne 1

end Tinyim.Delivery
