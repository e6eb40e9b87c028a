import Tinyim.CmdClient.ClientTime
import Tinyim.CmdClient.Command
import Tinyim.Delivery.Order

/-! The client processes beside the services that they call, with one send loop for each
user. The loop does what the contract of the clients asks for, as long as its clock does not
make it use a time twice. -/
namespace Tinyim.SendLoop
open Transition CmdClient Dbproxy Delivery Logic

structure Process where
  lastSendTime : Int := 0
  /-- The message that the inner loop is sending. -/
  sending : Option NewMsg := none
  /-- The replies that were printed, each with its message. -/
  received : List (NewMsg × MsgReply) := []
  ended : Bool := false
  deriving DecidableEq

/-- What the loop does with one line, `canceled` if Ctrl-C was pressed at its prompt. -/
def prompted (userId : Int) (groupIds : List Int) (line : Option Text) (canceled : Bool) :
    Reaction :=
  if canceled then
    if cStr (line.getD []) = [] then .quit else .ignored
  else react userId groupIds 0 line

/-- One turn of the outer loop, up to the inner one. -/
def Process.readline (userId : Int) (groupIds : List Int) (line : Option Text) (canceled : Bool)
    (reading : Int) (p : Process) : Option Process :=
  match prompted userId groupIds line canceled with
  | .ignored | .help => some p
  | .quit | .aborted => some { p with ended := true }
  | .sends newMsg => do
    let msgTime ← assignTime p.lastSendTime reading
    return { p with
      lastSendTime := msgTime
      sending := some { newMsg with clientTime := msgTime } }

structure System where
  world : World
  processes : Int → Process := fun _ => {}

inductive Event where
  | readline (userId : Int) (line : Option Text) (canceled : Bool) (reading : Int)
  /-- The call of the inner loop, or another copy of it, reaches logic. -/
  | sendMsg (userId : Int)
  /-- A copy of a call arrives after its process has gone on. -/
  | lateCopy (m : NewMsg)
  /-- The success reply of an attempt reaches the process. A failed call changes nothing. -/
  | reply (userId : Int) (attempt : Nat)
  | askedToQuit (userId : Int)
  | services (e : Delivery.Event)
  deriving DecidableEq

def System.setProcess (s : System) (u : Int) (p : Process) : System :=
  { s with processes := Function.update s.processes u p }

def System.serve (n : Int) (s : System) (e : Delivery.Event) : Option System :=
  (Delivery.step n s.world e).map fun world => { s with world }

/-- `groupIds` are the groups that each process has asked for when it started. -/
def step (n : Int) (groupIds : Int → List Int) (s : System) : Event → Option System
  | .readline u line canceled reading =>
    if (s.processes u).ended = false ∧ (s.processes u).sending = none then
      ((s.processes u).readline u (groupIds u) line canceled reading).map (s.setProcess u)
    else none
  | .sendMsg u => do
    let m ← (s.processes u).sending
    s.serve n (.start m)
  | .lateCopy m => if Resends s.world m then s.serve n (.start m) else none
  | .reply u a => do
    let m ← (s.processes u).sending
    let att ← s.world.attempts[a]?
    let reply ← att.stage.reply?
    if att.newMsg = m ∧ (s.processes u).ended = false then
      return s.setProcess u { s.processes u with
        sending := none
        received := (s.processes u).received ++ [(m, reply)] }
    else none
  | .askedToQuit u => some (s.setProcess u { s.processes u with ended := true })
  | .services (.start _) => none
  | .services e => s.serve n e

/-- The steps of the services that an event asks for. -/
def requests (s : System) : Event → List Delivery.Event
  | .sendMsg u => (s.processes u).sending.toList.map .start
  | .lateCopy m => [.start m]
  | .services e => [e]
  | .readline .. | .reply .. | .askedToQuit _ => []

inductive Moves (n : Int) (groupIds : Int → List Int) (s : System) : Event → System → Prop where
  | read {p : Process} (silent : ∀ m, prompted u (groupIds u) line canceled ≠ .sends m)
      (time : p.lastSendTime = (s.processes u).lastSendTime)
      (sending : p.sending = (s.processes u).sending)
      (received : p.received = (s.processes u).received) :
      Moves n groupIds s (.readline u line canceled reading) (s.setProcess u p)
  | begun (prompt : (s.processes u).sending = none)
      (sends : prompted u (groupIds u) line canceled = .sends m)
      (time : assignTime (s.processes u).lastSendTime reading = some msgTime) :
      Moves n groupIds s (.readline u line canceled reading) (s.setProcess u { s.processes u with
        lastSendTime := msgTime, sending := some { m with clientTime := msgTime } })
  | called (sending : (s.processes u).sending = some m)
      (moved : Delivery.step n s.world (.start m) = some w') :
      Moves n groupIds s (.sendMsg u) { s with world := w' }
  | copied (resends : Resends s.world m)
      (moved : Delivery.step n s.world (.start m) = some w') :
      Moves n groupIds s (.lateCopy m) { s with world := w' }
  | replied (sending : (s.processes u).sending = some att.newMsg)
      (found : s.world.attempts[a]? = some att) (success : att.stage.reply? = some reply) :
      Moves n groupIds s (.reply u a) (s.setProcess u { s.processes u with
        sending := none, received := (s.processes u).received ++ [(att.newMsg, reply)] })
  | quit : Moves n groupIds s (.askedToQuit u)
      (s.setProcess u { s.processes u with ended := true })
  | served (other : ∀ m, e ≠ .start m) (moved : Delivery.step n s.world e = some w') :
      Moves n groupIds s (.services e) { s with world := w' }

variable {n : Int} {groupIds : Int → List Int} {s s' : System} {e : Event} {u : Int}

theorem serve_eq_some {e : Delivery.Event} (served : s.serve n e = some s') :
    ∃ w', Delivery.step n s.world e = some w' ∧ s' = { s with world := w' } := by
  obtain ⟨w', moved, rfl⟩ := Option.map_eq_some_iff.mp served
  exact ⟨w', moved, rfl⟩

theorem moves_of_step (stepped : step n groupIds s e = some s') : Moves n groupIds s e s' := by
  cases e with
  | readline u line canceled reading =>
      obtain ⟨⟨-, prompt⟩, rest⟩ := Option.ite_none_right_eq_some.mp stepped
      obtain ⟨p, turned, rfl⟩ := Option.map_eq_some_iff.mp rest
      cases reaction : prompted u (groupIds u) line canceled with
      | sends m =>
          simp only [Process.readline, reaction, Option.bind_eq_bind,
            Option.bind_eq_some_iff] at turned
          obtain ⟨msgTime, time, made⟩ := turned
          cases made
          exact .begun prompt reaction time
      | ignored | help | quit | aborted =>
          simp only [Process.readline, reaction] at turned
          cases turned
          exact .read (by simp [reaction]) rfl rfl rfl
  | sendMsg u =>
      obtain ⟨m, sending, rest⟩ := Option.bind_eq_some_iff.mp stepped
      obtain ⟨w', moved, rfl⟩ := serve_eq_some rest
      exact .called sending moved
  | lateCopy m =>
      obtain ⟨resends, rest⟩ := Option.ite_none_right_eq_some.mp stepped
      obtain ⟨w', moved, rfl⟩ := serve_eq_some rest
      exact .copied resends moved
  | reply u a =>
      obtain ⟨m, sending, rest⟩ := Option.bind_eq_some_iff.mp stepped
      obtain ⟨att, found, rest⟩ := Option.bind_eq_some_iff.mp rest
      obtain ⟨reply, success, rest⟩ := Option.bind_eq_some_iff.mp rest
      obtain ⟨⟨rfl, -⟩, made⟩ := Option.ite_none_right_eq_some.mp rest
      cases made
      exact .replied sending found success
  | askedToQuit u =>
      cases stepped
      exact .quit
  | services e =>
      have other : ∀ m, e ≠ .start m := by
        rintro m rfl
        cases stepped
      have served : s.serve n e = some s' := by
        cases e with
        | start m => exact absurd rfl (other m)
        | _ => exact stepped
      obtain ⟨w', moved, rfl⟩ := serve_eq_some served
      exact .served other moved

/-! The clock. -/

/-- The reading that a step takes for a new message of `u`. -/
def Event.reading? (groupIds : Int → List Int) (u : Int) : Event → Option Int
  | .readline v line canceled reading =>
    match prompted v (groupIds v) line canceled with
    | .sends _ => if v = u then some reading else none
    | .ignored | .help | .quit | .aborted => none
  | _ => none

def readings (groupIds : Int → List Int) (es : List Event) (u : Int) : List Int :=
  es.filterMap (·.reading? groupIds u)

/-- The clock of every process runs ahead of its messages: readings that are `k` messages apart
are at least `k - 1` seconds apart, counted from the second 0. -/
def Clocked (groupIds : Int → List Int) (es : List Event) : Prop :=
  ∀ u, Spread (0 :: (readings groupIds es u).map intOfTime)

theorem readings_append (groupIds : Int → List Int) (es fs : List Event) (u : Int) :
    readings groupIds (es ++ fs) u = readings groupIds es u ++ readings groupIds fs u := by
  simp [readings, List.filterMap_append]

theorem readings_singleton (groupIds : Int → List Int) (e : Event) (u : Int) :
    readings groupIds [e] u = (e.reading? groupIds u).toList := by
  cases taken : e.reading? groupIds u <;> simp [readings, taken]

theorem readings_eq_nil
    (absent : ∀ line canceled reading, Event.readline u line canceled reading ∉ es) :
    readings groupIds es u = [] := by
  refine List.filterMap_eq_nil_iff.mpr fun e member => ?_
  cases e with
  | readline v line canceled reading =>
      have other : v ≠ u := by
        rintro rfl
        exact absent line canceled reading member
      simp only [Event.reading?, if_neg other]
      split <;> rfl
  | sendMsg | lateCopy | reply | askedToQuit | services => rfl

theorem readings_sends (sends : prompted u (groupIds u) line canceled = .sends m) (v : Int) :
    readings groupIds [.readline u line canceled reading] v =
      if u = v then [reading] else [] := by
  rw [readings_singleton, Event.reading?, sends]
  exact apply_ite Option.toList _ _ _

theorem Clocked.before (clocked : Clocked groupIds (es ++ fs)) : Clocked groupIds es := by
  intro u i k x y before left right
  have longer {j : Nat} {z : Int}
      (found : (0 :: (readings groupIds es u).map intOfTime)[j]? = some z) :
      (0 :: (readings groupIds (es ++ fs) u).map intOfTime)[j]? = some z := by
    rw [readings_append, List.map_append, ← List.cons_append,
      List.getElem?_append_left (List.getElem?_eq_some_iff.mp found).1]
    exact found
  exact clocked u i k x y before (longer left) (longer right)

theorem assignTimes_concat (assigned : assignTimes last times = some assignedTimes)
    (final : (last :: assignedTimes).getLast? = some latest)
    (time : assignTime latest reading = some msgTime) :
    assignTimes last (times ++ [reading]) = some (assignedTimes ++ [msgTime]) := by
  induction times generalizing last assignedTimes with
  | nil =>
      cases assigned
      obtain rfl : last = latest := Option.some.inj final
      simp [assignTimes, time]
  | cons first times ih =>
      simp only [assignTimes, Option.bind_eq_bind, Option.bind_eq_some_iff, Option.pure_def,
        Option.some.injEq] at assigned
      obtain ⟨firstTime, begun, later, rest, rfl⟩ := assigned
      rw [List.getLast?_cons_cons] at final
      simp [assignTimes, begun, ih rest final]

def Timed (taken : List Int) (p : Process) : Prop :=
  ∃ times, assignTimes 0 taken = some times ∧ (0 :: times).getLast? = some p.lastSendTime

theorem Timed.begun (timed : Timed taken p)
    (spread : Spread (0 :: (taken ++ [reading]).map intOfTime))
    (time : assignTime p.lastSendTime reading = some msgTime) :
    p.lastSendTime < msgTime ∧ 0 < msgTime ∧
      ∃ times, assignTimes 0 (taken ++ [reading]) = some times ∧
        (0 :: times).getLast? = some msgTime := by
  obtain ⟨times, assigned, final⟩ := timed
  have longer := assignTimes_concat assigned final time
  have increasing := (assignTimes_increasing_iff longer).mpr spread
  rw [← List.cons_append, List.pairwise_append] at increasing
  have later := fun t member => increasing.2.2 t member msgTime (List.mem_singleton.mpr rfl)
  refine ⟨later _ (List.mem_of_getLast? final), later 0 List.mem_cons_self, _, longer, ?_⟩
  rw [← List.cons_append, List.getLast?_concat]

/-! The loop of one user. -/

def Process.Sent (p : Process) (m : NewMsg) : Prop :=
  m.clientTime ≤ p.lastSendTime ∧ ∀ current ∈ p.sending, m.clientTime < current.clientTime

structure Loop (w : World) (u : Int) (p : Process) : Prop where
  current : ∀ m ∈ p.sending, m.userId = u ∧ 0 < m.clientTime ∧ m.clientTime = p.lastSendTime ∧
    ProperPeer (.start m)
  called : ∀ att ∈ w.attempts, att.newMsg.userId = u →
    p.sending = some att.newMsg ∨ p.Sent att.newMsg ∧ Acknowledged w att.newMsg
  received : ∀ entry ∈ p.received, entry.1.userId = u ∧ p.Sent entry.1 ∧
    ∃ a, Replied w a entry.1 entry.2
  ascending : p.received.Pairwise fun earlier later =>
    earlier.1.clientTime < later.1.clientTime

namespace Loop
variable {w w' : World} {p q : Process}

theorem world (loop : Loop w u p) {e : Delivery.Event} (moved : Delivery.Moves n w e w')
    (starts : ∀ m, e = .start m → m.userId = u → p.sending = some m ∨ Resends w m) :
    Loop w' u p where
  current := loop.current
  called att member user := by
    have earlier : ∀ old ∈ w.attempts, att.newMsg = old.newMsg →
        p.sending = some att.newMsg ∨ p.Sent att.newMsg ∧ Acknowledged w' att.newMsg := by
      intro old present same
      rw [same] at user ⊢
      obtain sending | ⟨sent, acknowledged⟩ := loop.called old present user
      · exact .inl sending
      · exact .inr ⟨sent, acknowledged.kept moved.recalls⟩
    obtain ⟨m, rfl, same⟩ | ⟨old, present, same⟩ := newMsg_before moved member
    · obtain sending | ⟨old, present, message⟩ := starts m rfl (same ▸ user)
      · exact .inl (same ▸ sending)
      · exact earlier old present (same.trans message.symm)
    · exact earlier old present same
  received entry member := by
    obtain ⟨user, sent, a, replied⟩ := loop.received entry member
    exact ⟨user, sent, a, replied.kept moved.recalls⟩
  ascending := loop.ascending

theorem read (loop : Loop w u p) (time : q.lastSendTime = p.lastSendTime)
    (sending : q.sending = p.sending) (received : q.received = p.received) : Loop w u q := by
  have sent : q.Sent = p.Sent := by
    funext m
    rw [Process.Sent, Process.Sent, time, sending]
  constructor
  · rw [sending, time]
    exact loop.current
  · rw [sending, sent]
    exact loop.called
  · rw [received, sent]
    exact loop.received
  · rw [received]
    exact loop.ascending

theorem begun (loop : Loop w u p) (prompt : p.sending = none)
    (user : m.userId = u) (proper : ProperPeer (.start m)) (later : p.lastSendTime < msgTime)
    (positive : 0 < msgTime) :
    Loop w u { p with lastSendTime := msgTime, sending := some { m with clientTime := msgTime } }
    where
  current := by
    rintro _ ⟨⟩
    exact ⟨user, positive, rfl, proper⟩
  called att member own := by
    obtain sending | ⟨sent, acknowledged⟩ := loop.called att member own
    · rw [prompt] at sending
      contradiction
    · refine .inr ⟨⟨sent.1.trans later.le, ?_⟩, acknowledged⟩
      rintro _ ⟨⟩
      exact lt_of_le_of_lt sent.1 later
  received entry member := by
    obtain ⟨own, sent, replied⟩ := loop.received entry member
    refine ⟨own, ⟨sent.1.trans later.le, ?_⟩, replied⟩
    rintro _ ⟨⟩
    exact lt_of_le_of_lt sent.1 later
  ascending := loop.ascending

theorem replied (loop : Loop w u p) (sending : p.sending = some m)
    (success : Replied w a m reply) :
    Loop w u { p with sending := none, received := p.received ++ [(m, reply)] } := by
  obtain ⟨user, -, time, -⟩ := loop.current m sending
  have sent : ∀ older, p.Sent older →
      { p with sending := none, received := p.received ++ [(m, reply)] }.Sent older :=
    fun _ sent => ⟨sent.1, nofun⟩
  have last : { p with sending := none, received := p.received ++ [(m, reply)] }.Sent m :=
    ⟨time.le, nofun⟩
  constructor
  · nofun
  · intro att member own
    obtain same | ⟨before, acknowledged⟩ := loop.called att member own
    · cases sending.symm.trans same
      exact .inr ⟨last, success.acknowledged⟩
    · exact .inr ⟨sent _ before, acknowledged⟩
  · intro entry member
    obtain old | new := List.mem_append.mp member
    · obtain ⟨own, before, replied⟩ := loop.received entry old
      exact ⟨own, sent _ before, replied⟩
    · cases List.mem_singleton.mp new
      exact ⟨user, last, a, success⟩
  · refine List.pairwise_append.mpr ⟨loop.ascending, List.pairwise_singleton _ _, ?_⟩
    intro entry member _ new
    cases List.mem_singleton.mp new
    exact (loop.received entry member).2.1.2 m sending

end Loop

/-! Runs of the whole system. -/

/-- `guard` restricts the steps of the services, the client processes do as they do. -/
def Serving (guard : World → Delivery.Event → Prop) (s : System) : Event → Prop
  | .services e => guard s.world e
  | _ => True

instance {guard : World → Delivery.Event → Prop} [∀ w e, Decidable (guard w e)] :
    Decidable (Serving guard s e) := by
  cases e <;> unfold Serving <;> infer_instance

structure Begins (s : System) : Prop where
  attempts : s.world.attempts = []
  processes : ∀ u, s.processes u = {}

structure Abiding (groupIds : Int → List Int) (es : List Event) (s : System) : Prop where
  asked : ∀ att ∈ s.world.attempts, 0 < att.newMsg.clientTime ∧ ProperPeer (.start att.newMsg)
  timed : ∀ u, Timed (readings groupIds es u) (s.processes u)
  loop : ∀ u, Loop s.world u (s.processes u)

variable {guard : World → Delivery.Event → Prop} {es : List Event}

theorem Abiding.begins (begins : Begins s) : Abiding groupIds [] s where
  asked att member := by simp [begins.attempts] at member
  timed u := ⟨[], rfl, by rw [begins.processes]; rfl⟩
  loop u := by
    rw [begins.processes]
    refine ⟨nofun, fun att member => ?_, nofun, List.Pairwise.nil⟩
    simp [begins.attempts] at member

theorem prompted_sends (sends : prompted u ids line canceled = .sends m) :
    m.userId = u ∧ m.peerId ≠ u := by
  simp only [prompted, react] at sends
  split_ifs at sends with _ _ _ _ _ _ other
  all_goals
    cases sends
    exact ⟨rfl, other⟩

theorem prompted_kind (sends : prompted u ids line canceled = .sends m) :
    m.msgType = if m.peerId ∈ ids then .GROUP else .PRIVATE := by
  simp only [prompted, react] at sends
  split_ifs at sends with _ _ _ _ _ _ _ known
  · cases sends
    exact (if_pos known).symm
  · cases sends
    exact (if_neg known).symm

theorem calm {w : World} {e : Delivery.Event} (other : ∀ m, e ≠ .start m) :
    ClientContract w e ∧ ProperPeer e := by
  cases e with
  | start m => exact absurd rfl (other m)
  | _ => exact ⟨trivial, trivial⟩

namespace Abiding

theorem world (abiding : Abiding groupIds es s) {e : Delivery.Event}
    (moved : Delivery.step n s.world e = some w') (contract : ClientContract s.world e)
    (proper : ProperPeer e) (same : ∀ u, readings groupIds fs u = [])
    (starts : ∀ u m, e = .start m → m.userId = u →
      (s.processes u).sending = some m ∨ Resends s.world m) :
    Abiding groupIds (es ++ fs) { s with world := w' } where
  asked att member := by
    obtain ⟨m, rfl, rfl⟩ | ⟨old, present, kept⟩ :=
      newMsg_before (Delivery.moves_of_step moved) member
    · exact ⟨contract.1, proper⟩
    · rw [kept]
      exact abiding.asked old present
  timed u := by
    rw [readings_append, same, List.append_nil]
    exact abiding.timed u
  loop u := (abiding.loop u).world (Delivery.moves_of_step moved) (starts u)

theorem process (abiding : Abiding groupIds es s)
    (timed : Timed (readings groupIds (es ++ fs) u) p) (loop : Loop s.world u p)
    (same : ∀ v, v ≠ u → readings groupIds fs v = []) :
    Abiding groupIds (es ++ fs) (s.setProcess u p) where
  asked := abiding.asked
  timed v := by
    by_cases own : v = u
    · subst own
      simpa only [System.setProcess, Function.update_self] using timed
    · rw [readings_append, same v own, List.append_nil]
      simpa only [System.setProcess, Function.update_of_ne own] using abiding.timed v
  loop v := by
    by_cases own : v = u
    · subst own
      simpa only [System.setProcess, Function.update_self] using loop
    · simpa only [System.setProcess, Function.update_of_ne own] using abiding.loop v

theorem contract (abiding : Abiding groupIds es s)
    (sending : (s.processes u).sending = some m) :
    ClientContract s.world (.start m) ∧ ProperPeer (.start m) ∧ m.userId = u := by
  obtain ⟨user, positive, -, proper⟩ := (abiding.loop u).current m sending
  refine ⟨⟨positive, ?_⟩, proper, user⟩
  by_cases resends : Resends s.world m
  · exact .inl resends
  · refine .inr fun att member own => ?_
    obtain same | ⟨sent, acknowledged⟩ := (abiding.loop u).called att member (own.trans user)
    · cases sending.symm.trans same
      exact absurd ⟨att, member, rfl⟩ resends
    · exact ⟨sent.2 m sending, acknowledged⟩

theorem step (abiding : Abiding groupIds es s) (clocked : Clocked groupIds (es ++ [e]))
    (moved : Moves n groupIds s e s') : Abiding groupIds (es ++ [e]) s' := by
  cases moved with
  | read silent time sending received =>
      rename_i u line canceled reading p
      have none (v : Int) : readings groupIds [.readline u line canceled reading] v = [] := by
        rw [readings_singleton, Event.reading?]
        cases reaction : prompted u (groupIds u) line canceled with
        | sends m => exact absurd reaction (silent m)
        | ignored | help | quit | aborted => rfl
      refine abiding.process ?_ ((abiding.loop u).read time sending received) fun v _ => none v
      rw [readings_append, none u, List.append_nil, Timed, time]
      exact abiding.timed u
  | begun prompt sends time =>
      rename_i u line canceled m reading msgTime
      have taken (v : Int) : readings groupIds [.readline u line canceled reading] v =
          if u = v then [reading] else [] := readings_sends sends v
      obtain ⟨user, peer⟩ := prompted_sends sends
      have spread := clocked u
      rw [readings_append, taken u, if_pos rfl] at spread
      obtain ⟨later, positive, timed⟩ := (abiding.timed u).begun spread time
      refine abiding.process ?_ ((abiding.loop u).begun prompt user ?_ later positive) ?_
      · rw [readings_append, taken u, if_pos rfl]
        exact timed
      · intro _
        rw [user]
        exact peer
      · intro v other
        rw [taken v, if_neg (Ne.symm other)]
  | called sending moved =>
      rename_i u m w'
      obtain ⟨contract, proper, user⟩ := abiding.contract sending
      refine abiding.world moved contract proper (fun _ => rfl) ?_
      rintro v _ ⟨⟩ own
      obtain rfl := user.symm.trans own
      exact .inl sending
  | copied resends moved =>
      have resent := resends
      obtain ⟨att, member, rfl⟩ := resent
      obtain ⟨positive, proper⟩ := abiding.asked att member
      refine abiding.world moved ⟨positive, .inl resends⟩ proper (fun _ => rfl) ?_
      rintro v _ ⟨⟩ own
      exact .inr resends
  | replied sending found success =>
      rename_i u a att reply
      refine abiding.process ?_ ((abiding.loop u).replied sending ⟨att, found, rfl, success⟩)
        fun _ _ => rfl
      rw [readings_append]
      exact (List.append_nil _).symm ▸ abiding.timed u
  | quit =>
      rename_i u
      refine abiding.process ?_ ((abiding.loop u).read rfl rfl rfl) fun _ _ => rfl
      rw [readings_append]
      exact (List.append_nil _).symm ▸ abiding.timed u
  | served other moved =>
      rename_i e w'
      obtain ⟨contract, proper⟩ := calm other
      exact abiding.world moved contract proper (fun _ => rfl)
        fun _ m started => absurd started (other m)

theorem requests (abiding : Abiding groupIds es s) (starts : ∀ w m, guard w (.start m))
    (admitted : Serving guard s e) (moved : Moves n groupIds s e s') :
    Run (Delivery.step n) (fun w e => ClientContract w e ∧ ProperPeer e ∧ guard w e)
      s.world (requests s e) s'.world := by
  cases moved with
  | read | begun | replied | quit => exact .refl _
  | called sending moved =>
      obtain ⟨contract, proper, -⟩ := abiding.contract sending
      simp only [SendLoop.requests, sending, Option.toList_some, List.map_cons, List.map_nil]
      exact .next ⟨contract, proper, starts _ _⟩ moved (.refl _)
  | copied resends moved =>
      have resent := resends
      obtain ⟨att, member, rfl⟩ := resent
      obtain ⟨positive, proper⟩ := abiding.asked att member
      exact .next ⟨⟨positive, .inl resends⟩, proper, starts _ _⟩ moved (.refl _)
  | served other moved =>
      obtain ⟨contract, proper⟩ := calm other
      exact .next ⟨contract, proper, admitted⟩ moved (.refl _)

theorem run (abiding : Abiding groupIds es s) (starts : ∀ w m, guard w (.start m))
    (run : Run (SendLoop.step n groupIds) (Serving guard) s fs s')
    (clocked : Clocked groupIds (es ++ fs)) :
    Abiding groupIds (es ++ fs) s' ∧
      Run (Delivery.step n) (fun w e => ClientContract w e ∧ ProperPeer e ∧ guard w e)
        s.world (passed (SendLoop.step n groupIds) SendLoop.requests s fs) s'.world := by
  induction run generalizing es with
  | refl =>
      rw [List.append_nil]
      exact ⟨abiding, .refl _⟩
  | @next s e t fs s' admitted stepped _ ih =>
      have moved := moves_of_step stepped
      rw [List.append_cons] at clocked ⊢
      obtain ⟨final, rest⟩ := ih (abiding.step clocked.before moved) clocked
      refine ⟨final, ?_⟩
      simp only [passed, stepped]
      exact (abiding.requests starts admitted moved).trans rest

end Abiding

/-- User 7 sends two messages in the second 100. The reply to the first call of the first one
is lost and the retry is answered, and a copy of it arrives late. -/
def twoLines : List Event :=
  let first : NewMsg := ⟨7, 8, .PRIVATE, "hi".toList, 100, 0⟩
  [.readline 7 (some "sendmsgto 8 hi".toList) false 100, .sendMsg 7,
    .services (.redisGet 0 .value), .services (.select 0 true), .services (.lookedUp 0),
    .services (.idGenerate 0 {}), .services (.idGenerate 0 {}), .services (.idReplied 0 50),
    .services (.saveArrives 0), .services (.insert 0 .executed),
    .services (.setLastSend 0 true true), .sendMsg 7, .services (.redisExpires 7),
    .services (.redisGet 1 .value), .services (.select 1 true), .services (.lookedUp 1),
    .reply 7 1, .readline 7 (some "sendmsgto 8 ho".toList) false 100, .lateCopy first,
    .sendMsg 7, .services (.redisGet 3 .value), .services (.select 3 true),
    .services (.lookedUp 3),
    .services (.idGenerate 3 {}), .services (.idGenerate 3 {}), .services (.idReplied 3 51),
    .services (.saveArrives 3), .services (.insert 1 .executed),
    .services (.setLastSend 1 true true), .services (.saveReplied 3 1), .reply 7 3]

theorem twoLines_clocked : Clocked (fun _ => []) twoLines := by
  intro u
  by_cases own : u = 7
  · subst own
    have assigned : assignTimes 0 (readings (fun _ => []) twoLines 7) = some [100, 101] := by
      decide
    exact (assignTimes_increasing_iff assigned).mp (by decide)
  · have absent : readings (fun _ => []) twoLines u = [] :=
      readings_eq_nil fun line canceled reading => by simp [twoLines, own]
    have assigned : assignTimes 0 [] = some [] := rfl
    rw [absent]
    exact (assignTimes_increasing_iff assigned).mp (by decide)

theorem begins_empty : Begins { world := .empty } := ⟨rfl, fun _ => rfl⟩

/-- Clients whose clocks run ahead of their messages keep the contract in every run. -/
theorem clients_abide (begins : Begins s) (starts : ∀ w m, guard w (.start m))
    (run : Run (step n groupIds) (Serving guard) s es s') (clocked : Clocked groupIds es) :
    Run (Delivery.step n) (fun w e => ClientContract w e ∧ ProperPeer e ∧ guard w e)
      s.world (passed (step n groupIds) requests s es) s'.world :=
  ((Abiding.begins begins).run starts run clocked).2

theorem clients_abide_two_lines :
    ∃ s, Run (step 1024 fun _ => []) (Serving fun _ _ => True) { world := .empty } twoLines s ∧
      s.world.attempts.map (·.newMsg.clientTime) = [100, 100, 100, 101] ∧
      Run (Delivery.step 1024) (fun w e => ClientContract w e ∧ ProperPeer e ∧ True)
        .empty (passed (step 1024 fun _ => []) requests { world := .empty } twoLines) s.world := by
  obtain ⟨s, run, times⟩ := Run.of_check (step 1024 fun _ => [])
    (fun s e => decide (Serving (fun _ _ => True) s e)) { world := .empty } twoLines
    (fun s => decide (s.world.attempts.map (·.newMsg.clientTime) = [100, 100, 100, 101]))
    (fun _ _ => of_decide_eq_true) (by decide +kernel)
  exact ⟨s, run, of_decide_eq_true times,
    clients_abide begins_empty (fun _ _ => trivial) run twoLines_clocked⟩

/-- The replies that a process prints: each one names the stored row of its message, and the
ids go up. -/
theorem printed_ids_ascend (begins : Begins s) (fresh : Fresh s.world)
    (run : Run (step n groupIds) (Serving fun _ e => KeepsIds e) s es s')
    (clocked : Clocked groupIds es) (u : Int) :
    (s'.processes u).received.Pairwise
      (fun earlier later => earlier.2.msgId < later.2.msgId) ∧
    ∀ entry ∈ (s'.processes u).received, ∃ ids, ids.userId = u ∧
      ids.startMsgId = entry.2.msgId ∧
      participantRow entry.1 entry.2.msgTime ids ∈ s'.world.messages := by
  obtain ⟨abiding, served⟩ := (Abiding.begins begins).run (fun _ _ => trivial) run clocked
  have sequenced := served.invariant Sequenced (fun sequenced admitted stepped =>
    sequenced.step admitted.1 admitted.2.2 (Delivery.moves_of_step stepped))
    (sequenced_fresh fresh)
  have loop := abiding.loop u
  have quoted : ∀ entry ∈ (s'.processes u).received, ∃ ids, ids.userId = u ∧
      ids.startMsgId = entry.2.msgId ∧
      participantRow entry.1 entry.2.msgTime ids ∈ s'.world.messages := by
    intro entry member
    obtain ⟨user, -, a, att, found, message, success⟩ := loop.received entry member
    have timed := sequenced.identified.timed att (List.mem_of_getElem? found)
    obtain ⟨row, stored, key, msgId, msgTime⟩ :=
      sequenced.consistent.reply_quotes found (by omega) success
    obtain ⟨j, job, origin, -, -, owned, -, -, ids, -, rfl⟩ :=
      sequenced.originates.save sequenced.consistent stored
    simp only [Row.key, participantRow, Prod.mk.injEq] at key
    have same : origin.newMsg = att.newMsg :=
      sequenced.identified.same origin (List.mem_of_getElem? owned) att
        (List.mem_of_getElem? found) key.2.1 key.2.2
    refine ⟨ids, by rw [key.1, message, user], msgId, ?_⟩
    rw [← message, ← same, ← msgTime]
    exact stored
  refine ⟨loop.ascending.imp_of_mem ?_, quoted⟩
  intro earlier later left right before
  obtain ⟨ids, own, id, stored⟩ := quoted earlier left
  obtain ⟨ids', own', id', stored'⟩ := quoted later right
  obtain ⟨user, -⟩ := loop.received earlier left
  obtain ⟨user', -⟩ := loop.received later right
  rw [← id, ← id']
  exact sequenced.row_lt stored stored' (own.trans own'.symm) (user.trans user'.symm) before

theorem printed_ids_ascend_two_lines :
    ∃ s, Run (step 1024 fun _ => []) (Serving fun _ e => KeepsIds e) { world := .empty }
        twoLines s ∧
      (s.processes 7).received.map (·.2) = [⟨1, 0, 50⟩, ⟨2, 2, 51⟩] ∧
      (s.processes 7).received.Pairwise
        (fun earlier later => earlier.2.msgId < later.2.msgId) := by
  obtain ⟨s, run, replies⟩ := Run.of_check (step 1024 fun _ => [])
    (fun s e => decide (Serving (fun _ e => KeepsIds e) s e)) { world := .empty } twoLines
    (fun s => decide ((s.processes 7).received.map (·.2) = [⟨1, 0, 50⟩, ⟨2, 2, 51⟩]))
    (fun _ _ => of_decide_eq_true) (by decide +kernel)
  exact ⟨s, run, of_decide_eq_true replies,
    (printed_ids_ascend begins_empty fresh_empty run twoLines_clocked 7).1⟩

end Tinyim.SendLoop
