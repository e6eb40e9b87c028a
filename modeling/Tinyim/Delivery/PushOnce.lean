import Tinyim.Delivery.PushOrder
import Tinyim.Delivery.Routing

/-! What the tasks push. Every call carries a copy of a stored row of its recipient, and no two
calls carry the same message to the same recipient, however many attempts it took. -/
namespace Tinyim.Delivery
open IdGen Dbproxy Logic Transition

/-- The copy of a row that `SendtoPeers` makes. -/
def pushedCopy (row : Row) : Msg :=
  { row.pulled with receiver := row.userId, message := cStr row.message }

def msgKey (msg : Msg) : Int × Int × Int := (msg.userId, msg.sender, msg.clientTime)

def Differ (call other : Text × Msg) : Prop := msgKey call.2 ≠ msgKey other.2

/-- The call is for the message of the task, and the row of its recipient is stored. -/
structure CallOf (w : World) (task : PushTask) (call : Text × Msg) : Prop where
  sender : call.2.sender = task.args.sender
  time : call.2.clientTime = task.args.newMsg.clientTime
  stored : ∃ row ∈ w.messages, row.deleted = 0 ∧ call.2 = pushedCopy row

structure Sound (s : Pushing) : Prop where
  delivering : Delivering (fun _ _ => True) s.world
  accepted : ∀ (t : Nat) task, s.tasks[t]? = some task →
    ∃ att reply, s.world.attempts[task.attempt]? = some att ∧
      att.stage = .finished (.accepted reply task.args)
  once : ∀ (t u : Nat) task other, s.tasks[t]? = some task → s.tasks[u]? = some other →
    task.attempt = other.attempt → t = u
  planned : ∀ (t : Nat) task calls, s.tasks[t]? = some task → task.calls = some calls →
    calls.Pairwise Differ ∧
      ∀ call ∈ calls, CallOf s.world task call ∧ ∀ old ∈ s.issued, Differ old call
  issued : ∀ call ∈ s.issued, ∃ (t : Nat) (task : PushTask), s.tasks[t]? = some task ∧
    task.calls ≠ none ∧ CallOf s.world task call
  distinct : s.issued.Pairwise Differ

variable {n : Int} {s s₀ s' : Pushing} {pe : PushEvent} {w w' : World} {e : Event}
  {task other : PushTask} {call : Text × Msg}

theorem Sound.initial (initial : Initial s.world) (idle : s.tasks = [] ∧ s.issued = []) :
    Sound s where
  delivering := .initial initial
  accepted t task found := by simp [idle.1] at found
  once t u task other found := by simp [idle.1] at found
  planned t task calls found := by simp [idle.1] at found
  issued call member := by simp [idle.2] at member
  distinct := by simp [idle.2]

theorem CallOf.kept (carried : CallOf w task call) (moved : Moves n w e w') :
    CallOf w' task call where
  sender := carried.sender
  time := carried.time
  stored := by
    obtain ⟨row, present, same⟩ := carried.stored
    exact ⟨row, messages_kept moved present, same⟩

namespace Sound

theorem apart (sound : Sound s) {t u : Nat} (left : s.tasks[t]? = some task)
    (right : s.tasks[u]? = some other) (different : t ≠ u) (mine : CallOf s.world task call)
    (yours : CallOf s.world other call') : Differ call call' := by
  intro same
  simp only [msgKey, Prod.mk.injEq] at same
  obtain ⟨att, reply, found, finished⟩ := sound.accepted t task left
  obtain ⟨att', reply', found', finished'⟩ := sound.accepted u other right
  have hands := sound.delivering.hands
  obtain ⟨request, -, -, handed, -⟩ := hands.accepted found finished
  obtain ⟨request', -, -, handed', -⟩ := hands.accepted found' finished'
  obtain ⟨i, job, saved, asked, -, started, sender, time, -⟩ :=
    hands.consistent.accepted_save found finished
  obtain ⟨j, job', saved', asked', -, started', sender', time', -⟩ :=
    hands.consistent.accepted_save found' finished'
  have user : att.newMsg.userId = att'.newMsg.userId := by
    have first := mine.sender
    have second := yours.sender
    rw [handed] at first
    rw [handed'] at second
    exact first.symm.trans (same.2.1.trans second)
  have clock : att.newMsg.clientTime = att'.newMsg.clientTime := by
    have first := mine.time
    have second := yours.time
    rw [handed] at first
    rw [handed'] at second
    exact first.symm.trans (same.2.2.trans second)
  have one : i = j := hands.consistent.single i j job job' saved saved' started started'
    (by rw [sender, sender', user]) (by rw [time, time', clock])
  subst one
  cases saved.symm.trans saved'
  exact different (sound.once t u task other left right (asked.symm.trans asked'))

theorem plan (sound : Sound s) {t : Nat} (found : s.tasks[t]? = some task)
    (value : Int → Option Text) :
    (sendtoPeers task.args (getSessions value (recipients task.args))).Pairwise Differ ∧
      ∀ call ∈ sendtoPeers task.args (getSessions value (recipients task.args)),
        CallOf s.world task call := by
  obtain ⟨att, reply, present, finished⟩ := sound.accepted t task found
  obtain ⟨request, built, answers, handed, stored⟩ :=
    sound.delivering.hands.accepted present finished
  have sameReply : task.args.idReply = att.idReply := congrArg SendtoPeersArgs.idReply handed
  have users := sound.delivering.users_nodup present finished
  rw [sendtoPeers_eq value (sameReply ▸ answers), sameReply]
  constructor
  · rw [List.pairwise_filterMap]
    have apart : (att.idReply.drop 1).Pairwise fun ids later => ids.userId ≠ later.userId :=
      (List.pairwise_map.mp users).sublist (List.drop_sublist 1 _)
    refine apart.imp ?_
    intro ids later other first sent last sent' same
    obtain ⟨_, -, rfl⟩ := Option.map_eq_some_iff.mp sent
    obtain ⟨_, -, rfl⟩ := Option.map_eq_some_iff.mp sent'
    exact other (congrArg Prod.fst same)
  · intro call member
    obtain ⟨ids, served, sent⟩ := List.mem_filterMap.mp member
    obtain ⟨_, -, rfl⟩ := Option.map_eq_some_iff.mp sent
    refine ⟨rfl, rfl, _, stored ids (List.mem_of_mem_drop served), rfl, ?_⟩
    rw [handed]
    cases kind : att.newMsg.msgType <;>
      simp only [pushedMsg, sendtoPeersArgs, pushedCopy, Row.pulled, participantRow, kind]

theorem world (sound : Sound s) (moved : Moves n s.world e w') :
    Sound { s with world := w', tasks := s.tasks ++ startedTasks w' e } where
  delivering := sound.delivering.step (lists_any s.world e) moved
  accepted t task found := by
    obtain old | ⟨-, new⟩ := get_started_cases found
    · obtain ⟨att, reply, present, finished⟩ := sound.accepted t task old
      obtain ⟨next, after, evolved⟩ := attempt_after moved present
      exact ⟨next, reply, after, outcome_evolves evolved finished⟩
    · obtain ⟨_, _, reply, next, -, -, -, rfl, after, finished⟩ := startedTasks_cases new
      exact ⟨next, reply, after, finished⟩
  once t u task other left right same := by
    have fresh : ∀ (t : Nat) task other, s.tasks[t]? = some task → other ∈ startedTasks w' e →
        task.attempt ≠ other.attempt := by
      rintro t task other found started same
      obtain ⟨att, reply, present, finished⟩ := sound.accepted t task found
      obtain ⟨_, j, _, _, rfl, -, -, rfl, -⟩ := startedTasks_cases started
      obtain ⟨before, _, _, waiting, stage⟩ := saveReplied_before moved
      rw [same] at present
      cases present.symm.trans waiting
      cases stage.symm.trans finished
    obtain old | ⟨last, new⟩ := get_started_cases left
    · obtain old' | ⟨-, new'⟩ := get_started_cases right
      · exact sound.once t u task other old old' same
      · exact absurd same (fresh t task other old new')
    · obtain old' | ⟨last', -⟩ := get_started_cases right
      · exact absurd same.symm (fresh u other task old' new)
      · rw [last, last']
  planned t task calls found waiting := by
    obtain old | ⟨-, new⟩ := get_started_cases found
    · obtain ⟨apart, carried⟩ := sound.planned t task calls old waiting
      exact ⟨apart, fun call member =>
        ⟨(carried call member).1.kept moved, (carried call member).2⟩⟩
    · obtain ⟨_, _, _, _, -, -, none, -⟩ := startedTasks_cases new
      cases none.symm.trans waiting
  issued call member := by
    obtain ⟨t, task, found, planned, carried⟩ := sound.issued call member
    refine ⟨t, task, ?_, planned, carried.kept moved⟩
    rw [List.getElem?_append_left (List.getElem?_eq_some_iff.mp found).1, found]
  distinct := sound.distinct

theorem setTask (sound : Sound s) {t : Nat} (found : s.tasks[t]? = some task)
    (planned : calls.Pairwise Differ ∧
      ∀ call ∈ calls, CallOf s.world task call ∧ ∀ old ∈ s.issued, Differ old call) :
    Sound (s.setTask t { task with calls := some calls }) where
  delivering := sound.delivering
  accepted u other present := by
    obtain ⟨rfl, rfl⟩ | ⟨-, old⟩ := get_set_cases present
    · exact sound.accepted u task found
    · exact sound.accepted u other old
  once u v left right present present' same := by
    obtain ⟨rfl, rfl⟩ | ⟨-, old⟩ := get_set_cases present
    · obtain ⟨rfl, rfl⟩ | ⟨-, old'⟩ := get_set_cases present'
      · rfl
      · exact sound.once u v task right found old' same
    · obtain ⟨rfl, rfl⟩ | ⟨-, old'⟩ := get_set_cases present'
      · exact sound.once u v left task old found same
      · exact sound.once u v left right old old' same
  planned u other rest present waiting := by
    obtain ⟨rfl, rfl⟩ | ⟨-, old⟩ := get_set_cases present
    · cases waiting
      refine ⟨planned.1, fun call member => ?_⟩
      obtain ⟨carried, apart⟩ := planned.2 call member
      exact ⟨⟨carried.sender, carried.time, carried.stored⟩, apart⟩
    · exact sound.planned u other rest old waiting
  issued call member := by
    obtain ⟨u, other, present, issuing, carried⟩ := sound.issued call member
    by_cases same : u = t
    · subst same
      cases found.symm.trans present
      exact ⟨u, _, get_set_self found, nofun, carried.sender, carried.time, carried.stored⟩
    · exact ⟨u, other, by rwa [Pushing.setTask, List.getElem?_set_ne (Ne.symm same)],
        issuing, carried⟩
  distinct := sound.distinct

theorem planTask (sound : Sound s) {t : Nat} (found : s.tasks[t]? = some task)
    (waiting : task.calls = none)
    (plan : calls = [] ∨
      ∃ value, calls = sendtoPeers task.args (getSessions value (recipients task.args))) :
    Sound (s.setTask t { task with calls := some calls }) := by
  refine sound.setTask found ?_
  obtain rfl | ⟨value, rfl⟩ := plan
  · exact ⟨.nil, fun call member => absurd member List.not_mem_nil⟩
  · obtain ⟨apart, carried⟩ := sound.plan found value
    refine ⟨apart, fun call member => ⟨carried call member, ?_⟩⟩
    intro old issued
    obtain ⟨u, other, present, issuing, earlier⟩ := sound.issued old issued
    have different : u ≠ t := by
      rintro rfl
      cases found.symm.trans present
      exact issuing waiting
    exact sound.apart present found different earlier (carried call member)

theorem issue (sound : Sound s) {t : Nat} (found : s.tasks[t]? = some task)
    (next : task.calls = some (call :: calls)) :
    Sound { s.setTask t { task with calls := some calls } with issued := s.issued ++ [call] } := by
  obtain ⟨apart, carried⟩ := sound.planned t task _ found next
  obtain ⟨first, rest⟩ := List.pairwise_cons.mp apart
  have mine := (carried call List.mem_cons_self).1
  have before := sound.setTask found
    ⟨rest, fun other member => carried other (List.mem_cons_of_mem _ member)⟩
  exact {
    delivering := before.delivering
    accepted := before.accepted
    once := before.once
    planned := by
      intro u other later present waiting
      obtain ⟨inside, carried'⟩ := before.planned u other later present waiting
      refine ⟨inside, fun last member => ⟨(carried' last member).1, ?_⟩⟩
      intro old issued
      obtain issued | single := List.mem_append.mp issued
      · exact (carried' last member).2 old issued
      · rw [List.mem_singleton] at single
        subst single
        obtain ⟨-, rfl⟩ | ⟨different, kept⟩ := get_set_cases present
        · cases waiting
          exact first last member
        · exact sound.apart found kept (Ne.symm different) mine (carried' last member).1
    issued := by
      intro old member
      obtain issued | single := List.mem_append.mp member
      · exact before.issued old issued
      · rw [List.mem_singleton] at single
        subst single
        exact ⟨t, _, get_set_self found, nofun, mine.sender, mine.time, mine.stored⟩
    distinct := by
      refine List.pairwise_append.mpr ⟨sound.distinct, List.pairwise_singleton _ _, ?_⟩
      intro old issued last single
      rw [List.mem_singleton] at single
      subst single
      exact (carried last List.mem_cons_self).2 old issued }

theorem step (sound : Sound s) (pushes : Pushes n s pe s') : Sound s' := by
  cases pushes with
  | world moved => exact sound.world moved
  | planned found waiting plan => exact sound.planTask found waiting plan
  | issued found next => exact sound.issue found next

end Sound
structure Outward (s : Pushing) : Prop where
  planned : ∀ (t : Nat) task calls, s.tasks[t]? = some task → task.calls = some calls →
    ∀ call ∈ calls, call.2.userId ≠ call.2.sender
  issued : ∀ call ∈ s.issued, call.2.userId ≠ call.2.sender

theorem Outward.initial (idle : s.tasks = [] ∧ s.issued = []) : Outward s where
  planned t task calls found := by simp [idle.1] at found
  issued call member := by simp [idle.2] at member

/-- The sender is the first user of the id reply, which the loop skips. -/
theorem Sound.plan_outward (sound : Sound s) {t : Nat} (found : s.tasks[t]? = some task)
    (value : Int → Option Text) :
    ∀ call ∈ sendtoPeers task.args (getSessions value (recipients task.args)),
      call.2.userId ≠ call.2.sender := by
  obtain ⟨att, reply, present, finished⟩ := sound.accepted t task found
  obtain ⟨request, built, answers, handed, -⟩ :=
    sound.delivering.hands.accepted present finished
  have sameReply : task.args.idReply = att.idReply := congrArg SendtoPeersArgs.idReply handed
  have sender : task.args.sender = att.newMsg.userId := congrArg SendtoPeersArgs.sender handed
  have users := sound.delivering.users_nodup present finished
  obtain ⟨idRequest, asked, same⟩ := built.answers
  obtain ⟨others, head⟩ := asked.head
  rw [sendtoPeers_eq value (sameReply ▸ answers), sameReply]
  intro call member
  obtain ⟨ids, served, sent⟩ := List.mem_filterMap.mp member
  obtain ⟨_, -, rfl⟩ := Option.map_eq_some_iff.mp sent
  simp only [pushedMsg, sender]
  cases entries : att.idReply with
  | nil => simp [entries] at served
  | cons own peers =>
      rw [entries, head] at same
      rw [entries] at users served
      obtain ⟨absent, -⟩ := List.nodup_cons.mp users
      have first : own.userId = att.newMsg.userId := (List.cons.inj same).1
      intro equal
      rw [first, ← equal] at absent
      exact absent (List.mem_map_of_mem served)

theorem Outward.step (outward : Outward s) (sound : Sound s) (pushes : Pushes n s pe s') :
    Outward s' := by
  cases pushes with
  | world moved =>
      refine ⟨fun t task calls found waiting => ?_, outward.issued⟩
      obtain old | ⟨-, new⟩ := get_started_cases found
      · exact outward.planned t task calls old waiting
      · obtain ⟨_, _, _, _, -, -, none, -⟩ := startedTasks_cases new
        cases none.symm.trans waiting
  | planned found _ plan =>
      rename_i task calls t
      refine ⟨fun u other later present waiting => ?_, outward.issued⟩
      obtain ⟨rfl, rfl⟩ | ⟨-, old⟩ := get_set_cases present
      · cases waiting
        obtain rfl | ⟨value, rfl⟩ := plan
        · exact fun call member => absurd member List.not_mem_nil
        · exact sound.plan_outward found value
      · exact outward.planned u other later old waiting
  | issued found next =>
      rename_i task call calls t
      have before := outward.planned t task _ found next
      constructor
      · intro u other later present waiting
        obtain ⟨rfl, rfl⟩ | ⟨-, old⟩ := get_set_cases present
        · cases waiting
          exact fun last member => before last (List.mem_cons_of_mem _ member)
        · exact outward.planned u other later old waiting
      · intro old member
        obtain issued | single := List.mem_append.mp member
        · exact outward.issued old issued
        · rw [List.mem_singleton.mp single]
          exact before call List.mem_cons_self

end Tinyim.Delivery
