import Tinyim.Delivery.PushOnce
import Tinyim.Access.Pushes

/-! From the stored row to the long poll: the tasks of logic, the `SendtoAccess` calls on their
way and the access servers that they are sent to. A call may be lost and may arrive more than
once, and calls overtake each other. -/
namespace Tinyim.PushNetwork
open Access Access.Service Delivery Dbproxy Transition

/-- A copy of an issued call at its server, with the poll that it took. -/
structure Arrival where
  call : Nat
  addr : Text
  msg : Msg
  poll : Option Nat
  deriving DecidableEq

structure Network where
  pushing : Pushing
  /-- The access servers by their addresses. -/
  servers : Text → Service := fun _ => {}
  arrived : List Arrival := []

inductive Event where
  | logic (pe : PushEvent)
  /-- The call at this place of `issued`, or another copy of it, reaches its server. -/
  | arrives (call : Nat)
  | access (addr : Text) (e : Access.Event)

def Network.setServer (s : Network) (addr : Text) (server : Service) : Network :=
  { s with servers := Function.update s.servers addr server }

def step (n : Int) (s : Network) : Event → Option Network
  | .logic pe => (pushStep n s.pushing pe).map fun pushing => { s with pushing }
  | .arrives call => do
    let (addr, msg) ← s.pushing.issued[call]?
    let server ← (s.servers addr).step (.sendtoAccess msg)
    let poll := ((s.servers addr).entry msg.userId).bind Data.done
    return { s.setServer addr server with arrived := s.arrived ++ [{ call, addr, msg, poll }] }
  | .access _ (.sendtoAccess _) => none
  | .access addr e => ((s.servers addr).step e).map (s.setServer addr)

inductive Moves (n : Int) (s : Network) : Event → Network → Prop where
  | logic (pushes : Pushes n s.pushing pe pushing) : Moves n s (.logic pe) { s with pushing }
  | arrived (found : s.pushing.issued[call]? = some (addr, msg))
      (served : (s.servers addr).step (.sendtoAccess msg) = some server) :
      Moves n s (.arrives call) { s.setServer addr server with
        arrived := s.arrived ++
          [{ call, addr, msg, poll := ((s.servers addr).entry msg.userId).bind Data.done }] }
  | access (other : ∀ msg, e ≠ .sendtoAccess msg)
      (served : (s.servers addr).step e = some server) :
      Moves n s (.access addr e) (s.setServer addr server)

variable {n : Int} {s s₀ s' : Network} {e : Event} {addr : Text} {msg : Msg}

theorem moves_of_step (stepped : step n s e = some s') : Moves n s e s' := by
  cases e with
  | logic pe =>
      obtain ⟨pushing, pushed, rfl⟩ := Option.map_eq_some_iff.mp stepped
      exact .logic (pushes_of_step pushed)
  | arrives call =>
      obtain ⟨⟨addr, msg⟩, found, rest⟩ := Option.bind_eq_some_iff.mp stepped
      obtain ⟨server, served, made⟩ := Option.bind_eq_some_iff.mp rest
      cases made
      exact .arrived found served
  | access addr e =>
      have other : ∀ msg, e ≠ .sendtoAccess msg := by
        rintro msg rfl
        cases stepped
      have served : ((s.servers addr).step e).map (s.setServer addr) = some s' := by
        cases e with
        | sendtoAccess msg => exact absurd rfl (other msg)
        | _ => exact stepped
      obtain ⟨server, moved, rfl⟩ := Option.map_eq_some_iff.mp served
      exact .access other moved

/-- The calls that found a poll at a server, in the order in which they took it. -/
def acceptedAt (arrived : List Arrival) (addr : Text) : List (Nat × Msg) :=
  arrived.filterMap fun r => if r.addr = addr then r.poll.map (·, r.msg) else none

theorem mem_acceptedAt : (call, msg) ∈ acceptedAt arrived addr ↔
    ∃ r ∈ arrived, r.addr = addr ∧ r.poll = some call ∧ r.msg = msg := by
  simp only [acceptedAt, List.mem_filterMap]
  constructor
  · rintro ⟨r, member, took⟩
    obtain ⟨here, took⟩ := Option.ite_none_right_eq_some.mp took
    obtain ⟨poll, taken, same⟩ := Option.map_eq_some_iff.mp took
    cases same
    exact ⟨r, member, here, taken, rfl⟩
  · rintro ⟨r, member, here, taken, rfl⟩
    exact ⟨r, member, by rw [if_pos here, taken, Option.map_some]⟩

theorem acceptedAt_here (here : r.addr = addr) : acceptedAt (arrived ++ [r]) addr =
    acceptedAt arrived addr ++ (r.poll.map (·, r.msg)).toList := by
  rw [acceptedAt, List.filterMap_append]
  cases taken : r.poll <;> simp [acceptedAt, here, taken]

theorem acceptedAt_elsewhere (elsewhere : r.addr ≠ addr) :
    acceptedAt (arrived ++ [r]) addr = acceptedAt arrived addr := by
  simp [acceptedAt, List.filterMap_append, elsewhere]

/-- The pushes of every server are accounted for, and they are calls that logic has issued. -/
structure Balanced (s : Network) : Prop where
  sound : Sound s.pushing
  ledger : ∀ addr, PushLedger (acceptedAt s.arrived addr) (s.servers addr)
  sent : ∀ r ∈ s.arrived, s.pushing.issued[r.call]? = some (r.addr, r.msg)

/-- Nothing is on its way and no server has been called. -/
structure Begins (s : Network) : Prop where
  world : Initial s.pushing.world
  idle : s.pushing.tasks = [] ∧ s.pushing.issued = []
  servers : ∀ addr, s.servers addr = {}
  arrived : s.arrived = []

theorem Balanced.begins (begins : Begins s) : Balanced s where
  sound := .initial begins.world begins.idle
  ledger addr := by
    rw [begins.arrived, begins.servers]
    exact initial_pushLedger
  sent r member := by simp [begins.arrived] at member

theorem issued_grow {p p' : Pushing} (pushes : Pushes n p pe p') {call : Nat}
    (found : p.issued[call]? = some sent) : p'.issued[call]? = some sent := by
  cases pushes with
  | world | planned => exact found
  | issued => exact get_push_old found

theorem Balanced.step (balanced : Balanced s) (moved : Moves n s e s') : Balanced s' := by
  cases moved with
  | logic pushes =>
      exact {
        sound := balanced.sound.step pushes
        ledger := balanced.ledger
        sent := fun r member => issued_grow pushes (balanced.sent r member) }
  | arrived found served =>
      rename_i call addr msg server
      exact {
        sound := balanced.sound
        ledger := by
          intro other
          have after := step_pushLedger (balanced.ledger addr) served
          by_cases here : addr = other
          · subst here
            rw [acceptedAt_here rfl]
            simpa only [Network.setServer, Function.update_self, Service.taken] using after
          · rw [acceptedAt_elsewhere here]
            simpa only [Network.setServer, Function.update_of_ne (Ne.symm here)] using
              balanced.ledger other
        sent := by
          intro r member
          obtain old | new := List.mem_append.mp member
          · exact balanced.sent r old
          · cases List.mem_singleton.mp new
            exact found }
  | access other served =>
      rename_i e addr server
      have nothing : (s.servers addr).taken e = none := by
        cases e with
        | sendtoAccess msg => exact absurd rfl (other msg)
        | _ => rfl
      exact {
        sound := balanced.sound
        ledger := by
          intro here
          have after := step_pushLedger (balanced.ledger addr) served
          rw [nothing, Option.toList_none, List.append_nil] at after
          by_cases same : here = addr
          · subst same
            simpa only [Network.setServer, Function.update_self] using after
          · simpa only [Network.setServer, Function.update_of_ne same] using
              balanced.ledger here
        sent := balanced.sent }

theorem balanced_of_run (begins : Begins s₀) (run : Run (step n) allowed s₀ es s) : Balanced s :=
  run.invariant Balanced (fun balanced _ stepped => balanced.step (moves_of_step stepped))
    (.begins begins)

theorem Balanced.arrival (balanced : Balanced s) {call : Nat}
    (answered : msg ∈ (s.servers addr).replies call) :
    ∃ r ∈ s.arrived, r.addr = addr ∧ r.poll = some call ∧ r.msg = msg ∧
      s.pushing.issued[r.call]? = some (addr, msg) := by
  obtain ⟨r, member, here, taken, same⟩ :=
    mem_acceptedAt.mp ((balanced.ledger addr).answered call msg answered)
  exact ⟨r, member, here, taken, same, by rw [balanced.sent r member, here, same]⟩

/-- Whatever is lost, repeated or overtaken: a reply of a long poll that is not empty holds one
message, which copies a stored row of the user that polled, and `GetMsgs` returns this row. -/
theorem polls_show_stored_rows (begins : Begins s₀) (run : Run (step n) (fun _ _ => True) s₀ es s)
    {call : Nat} (answered : msg ∈ (s.servers addr).replies call) :
    (s.servers addr).replies call = [msg] ∧ call ∈ (s.servers addr).ran ∧
    (s.servers addr).pulls[call]? = some msg.userId ∧
    ∃ row ∈ s.pushing.world.messages, msg = pushedCopy row ∧
      ∀ first last, row.pulled ∈ getMsgs s.pushing.world.messages msg.userId first last ↔
        first ≤ msg.msgId ∧ msg.msgId ≤ last := by
  have balanced := balanced_of_run begins run
  have ledger := balanced.ledger addr
  have logged := ledger.answered call msg answered
  obtain ⟨r, -, -, -, -, sent⟩ := balanced.arrival answered
  obtain ⟨t, task, -, -, carried⟩ := balanced.sound.issued _ (List.mem_of_getElem? sent)
  obtain ⟨row, stored, visible, copy⟩ := carried.stored
  obtain ⟨-, empty⟩ | ⟨whole, done⟩ := ledger.placed call msg logged
  · rw [empty] at answered
    exact absurd answered List.not_mem_nil
  · refine ⟨whole, done, ledger.owner call msg logged, row, stored, copy, ?_⟩
    have copy : msg = pushedCopy row := copy
    intro first last
    rw [mem_getMsgs, copy]
    constructor
    · rintro ⟨other, -, -, lower, upper, -, same⟩
      have id : row.msgId = other.msgId := congrArg Msg.msgId same
      rw [← id] at lower upper
      exact ⟨lower, upper⟩
    · rintro ⟨lower, upper⟩
      exact ⟨row, stored, rfl, lower, upper, visible, rfl⟩

/-- User 7 sends "hi" to user 8, who polls at `a:1`. -/
def pushedToPoll : List Event :=
  (acceptPrivate 0 ⟨7, 8, .PRIVATE, "hi".toList, 100, 0⟩ ++ pushOne 0).map .logic ++
    [.access "a:1".toList (.pullData 8 1), .arrives 0, .access "a:1".toList (.complete 0)]

theorem begins_empty : Begins { pushing := { world := .empty } } where
  world := initial_empty
  idle := ⟨rfl, rfl⟩
  servers _ := rfl
  arrived := rfl

theorem polls_show_stored_rows_private :
    ∃ s, Run (step 1024) (fun _ _ => True) { pushing := { world := .empty } } pushedToPoll s ∧
      (s.servers "a:1".toList).replies 0 = [⟨8, 1, 7, 8, "hi".toList, 0, 100, 50⟩] ∧
      ∃ row ∈ s.pushing.world.messages,
        ∀ first last, row.pulled ∈ getMsgs s.pushing.world.messages 8 first last ↔
          first ≤ 1 ∧ 1 ≤ last := by
  obtain ⟨s, run, shown⟩ : ∃ s, Run (step 1024) (fun _ _ => True) _ pushedToPoll s ∧ _ :=
    Run.of_check (step 1024) (fun _ _ => true) { pushing := { world := .empty } } pushedToPoll
      (fun s => decide ((s.servers "a:1".toList).replies 0 =
        [⟨8, 1, 7, 8, "hi".toList, 0, 100, 50⟩])) (fun _ _ _ => trivial) (by decide +kernel)
  have shown := of_decide_eq_true shown
  obtain ⟨-, -, -, row, stored, -, read⟩ :=
    polls_show_stored_rows begins_empty run (shown ▸ List.mem_cons_self)
  exact ⟨s, run, shown, row, stored, read⟩

def Once (s : Network) : Event → Prop
  | .arrives call => ∀ r ∈ s.arrived, r.call ≠ call
  | _ => True

instance : Decidable (Once s e) := by cases e <;> unfold Once <;> infer_instance

theorem arrived_once (once : (s.arrived.map Arrival.call).Nodup) (admitted : Once s e)
    (moved : Moves n s e s') : (s'.arrived.map Arrival.call).Nodup := by
  cases moved with
  | logic | access => exact once
  | arrived found served =>
      rw [List.map_append, List.nodup_append]
      refine ⟨once, List.nodup_singleton _, ?_⟩
      rintro _ present _ single rfl
      obtain ⟨r, member, same⟩ := List.mem_map.mp present
      exact admitted r member (same.trans (List.mem_singleton.mp single))

theorem Balanced.taken_once (balanced : Balanced s)
    (once : (s.arrived.map Arrival.call).Nodup) {addr addr' : Text} {call call' : Nat}
    (left : (call, msg) ∈ acceptedAt s.arrived addr)
    (right : (call', msg') ∈ acceptedAt s.arrived addr') (same : msgKey msg = msgKey msg') :
    addr = addr' ∧ call = call' ∧ msg = msg' := by
  obtain ⟨r, member, here, taken, rfl⟩ := mem_acceptedAt.mp left
  obtain ⟨r', member', here', taken', rfl⟩ := mem_acceptedAt.mp right
  have sent := balanced.sent r member
  have sent' := balanced.sent r' member'
  have keys : (s.pushing.issued.map (msgKey ·.2)).Nodup :=
    List.pairwise_map.mpr balanced.sound.distinct
  have place : r.call = r'.call := by
    have bound := (List.getElem?_eq_some_iff.mp sent).1
    apply (List.getElem?_inj (by rwa [List.length_map]) keys).mp
    rw [List.getElem?_map, List.getElem?_map, sent, sent', Option.map_some, Option.map_some, same]
  have arrival : r = r' := List.inj_on_of_nodup_map once member member' place
  subst arrival
  cases taken.symm.trans taken'
  exact ⟨here.symm.trans here', rfl, rfl⟩

/-- Where no `SendtoAccess` is executed twice, no message is shown twice to a user: neither in
two polls nor by two servers, however often the message was sent and wherever the user polls. -/
theorem messages_shown_once (begins : Begins s₀) (run : Run (step n) Once s₀ es s)
    {addr addr' : Text} {call call' : Nat} (left : msg ∈ (s.servers addr).replies call)
    (right : msg' ∈ (s.servers addr').replies call') (same : msgKey msg = msgKey msg') :
    addr = addr' ∧ call = call' ∧ msg = msg' := by
  have balanced := balanced_of_run begins run
  have once : (s.arrived.map Arrival.call).Nodup :=
    run.invariant (fun s => (s.arrived.map Arrival.call).Nodup)
      (fun once admitted stepped => arrived_once once admitted (moves_of_step stepped))
      (by simp [begins.arrived])
  exact balanced.taken_once once ((balanced.ledger addr).answered call msg left)
    ((balanced.ledger addr').answered call' msg' right) same

theorem messages_shown_once_private :
    ∃ s, Run (step 1024) Once { pushing := { world := .empty } } pushedToPoll s ∧
      (s.servers "a:1".toList).replies 0 = [⟨8, 1, 7, 8, "hi".toList, 0, 100, 50⟩] ∧
      ∀ addr call msg, msg ∈ (s.servers addr).replies call → msgKey msg = (8, 7, 100) →
        addr = "a:1".toList ∧ call = 0 := by
  obtain ⟨s, run, shown⟩ := Run.of_check (step 1024) (fun s e => decide (Once s e))
    { pushing := { world := .empty } } pushedToPoll
    (fun s => decide ((s.servers "a:1".toList).replies 0 =
      [⟨8, 1, 7, 8, "hi".toList, 0, 100, 50⟩])) (fun _ _ => of_decide_eq_true)
    (by decide +kernel)
  have shown := of_decide_eq_true shown
  refine ⟨s, run, shown, ?_⟩
  intro addr call msg answered key
  have polled : ⟨8, 1, 7, 8, "hi".toList, 0, 100, 50⟩ ∈ (s.servers "a:1".toList).replies 0 := by
    rw [shown]
    exact List.mem_cons_self
  obtain ⟨here, first, -⟩ := messages_shown_once begins_empty run answered polled key
  exact ⟨here, first⟩

end Tinyim.PushNetwork
