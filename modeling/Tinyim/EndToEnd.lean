import Tinyim.Dbproxy.Directory
import Tinyim.PushNetwork
import Tinyim.SendLoop

/-! Both ends together: the send loops and the PullData threads of the client processes, the
services between them and the calls on their way. What a thread prints has been announced by a
send loop. -/
namespace Tinyim.EndToEnd
open Transition Delivery Dbproxy Logic PushNetwork SendLoop

/-- A printed message, with the poll in whose reply it came. -/
structure Printed where
  addr : Text
  call : Nat
  msg : Msg
  deriving DecidableEq

/-- The PullData thread of one process. -/
structure Puller where
  /-- The server and the number of the outstanding call. -/
  awaiting : Option (Text × Nat) := none
  printed : List Printed := []

structure System where
  network : Network
  processes : Int → Process := fun _ => {}
  pullers : Int → Puller := fun _ => {}
  /-- What the send loops print when they begin to send, over all processes. -/
  announced : List NewMsg := []

inductive Event where
  | client (e : SendLoop.Event)
  /-- The background tasks, `SendtoAccess` and the access servers. -/
  | network (e : PushNetwork.Event)
  | pullData (userId : Int) (addr : Text) (timer : Nat)
  /-- The outstanding call returns and its messages are printed. -/
  | pulled (userId : Int)
  /-- It fails, whether the server has run it or not. -/
  | pullFails (userId : Int)

def started (w : World) : SendLoop.Event → List PushTask
  | .services e => startedTasks w e
  | _ => []

def announces (groupIds : Int → List Int) (t : SendLoop.System) : SendLoop.Event → List NewMsg
  | .readline u line canceled _ =>
    match prompted u (groupIds u) line canceled with
    | .sends _ => (t.processes u).sending.toList
    | .ignored | .help | .quit | .aborted => []
  | _ => []

namespace System

def world (s : System) : World := s.network.pushing.world

def clients (s : System) : SendLoop.System := ⟨s.world, s.processes⟩

def serve (s : System) (w : World) (tasks : List PushTask) : System :=
  { s with network := { s.network with
      pushing := { s.network.pushing with
        world := w
        tasks := s.network.pushing.tasks ++ tasks } } }

def setPuller (s : System) (u : Int) (puller : Puller) : System :=
  { s with pullers := Function.update s.pullers u puller }

def setServer (s : System) (addr : Text) (server : Access.Service) : System :=
  { s with network := s.network.setServer addr server }

end System

def step (n : Int) (groupIds : Int → List Int) (s : System) : Event → Option System
  | .client e => do
    let t ← SendLoop.step n groupIds s.clients e
    return { s.serve t.world (started t.world e) with
      processes := t.processes, announced := s.announced ++ announces groupIds t e }
  | .network (.logic (.world _)) => none
  | .network e => (PushNetwork.step n s.network e).map fun network => { s with network }
  | .pullData u addr timer =>
    match (s.pullers u).awaiting with
    | none => do
      let server ← (s.network.servers addr).step (.pullData u timer)
      return (s.setServer addr server).setPuller u { s.pullers u with
        awaiting := some (addr, (s.network.servers addr).pulls.length) }
    | some _ => none
  | .pulled u => do
    let (addr, call) ← (s.pullers u).awaiting
    let server := s.network.servers addr
    if call ∈ server.ran ∧ call ∉ server.closed then
      return s.setPuller u {
        awaiting := none
        printed := (s.pullers u).printed ++ (server.replies call).map (⟨addr, call, ·⟩) }
    else none
  | .pullFails u => some (s.setPuller u { s.pullers u with awaiting := none })

inductive Moves (n : Int) (groupIds : Int → List Int) (s : System) : Event → System → Prop where
  | client (moved : SendLoop.Moves n groupIds s.clients e t) :
      Moves n groupIds s (.client e) { s.serve t.world (started t.world e) with
        processes := t.processes, announced := s.announced ++ announces groupIds t e }
  | network (moved : PushNetwork.Moves n s.network e network)
      (other : ∀ we, e ≠ .logic (.world we)) :
      Moves n groupIds s (.network e) { s with network }
  | polled (idle : (s.pullers u).awaiting = none)
      (served : (s.network.servers addr).step (.pullData u timer) = some server) :
      Moves n groupIds s (.pullData u addr timer)
        ((s.setServer addr server).setPuller u { s.pullers u with
          awaiting := some (addr, (s.network.servers addr).pulls.length) })
  | pulled (awaiting : (s.pullers u).awaiting = some (addr, call))
      (ran : call ∈ (s.network.servers addr).ran) :
      Moves n groupIds s (.pulled u) (s.setPuller u {
        awaiting := none
        printed := (s.pullers u).printed ++
          ((s.network.servers addr).replies call).map (⟨addr, call, ·⟩) })
  | failed : Moves n groupIds s (.pullFails u)
      (s.setPuller u { s.pullers u with awaiting := none })

variable {n : Int} {groupIds : Int → List Int} {s s₀ s' : System} {e : Event}

theorem moves_of_step (stepped : step n groupIds s e = some s') : Moves n groupIds s e s' := by
  cases e with
  | client e =>
      obtain ⟨t, moved, made⟩ := Option.bind_eq_some_iff.mp stepped
      cases made
      exact .client (SendLoop.moves_of_step moved)
  | network e =>
      have other : ∀ we, e ≠ .logic (.world we) := by
        rintro we rfl
        cases stepped
      have made : (PushNetwork.step n s.network e).map
          (fun network => { s with network }) = some s' := by
        cases e with
        | logic pe =>
            cases pe with
            | world we => exact absurd rfl (other we)
            | getSessions | getSessionsFails | sendtoAccess => exact stepped
        | arrives | access => exact stepped
      obtain ⟨network, moved, rfl⟩ := Option.map_eq_some_iff.mp made
      exact .network (PushNetwork.moves_of_step moved) other
  | pullData u addr timer =>
      simp only [step] at stepped
      split at stepped
      · rename_i idle
        obtain ⟨server, served, made⟩ := Option.bind_eq_some_iff.mp stepped
        cases made
        exact .polled idle served
      · contradiction
  | pulled u =>
      obtain ⟨⟨addr, call⟩, awaiting, rest⟩ := Option.bind_eq_some_iff.mp stepped
      obtain ⟨⟨ran, -⟩, made⟩ := Option.ite_none_right_eq_some.mp rest
      cases made
      exact .pulled awaiting ran
  | pullFails u =>
      cases stepped
      exact .failed

theorem announces_begun {t : SendLoop.System} {p : Process}
    (sends : prompted u (groupIds u) line canceled = .sends m) :
    announces groupIds (t.setProcess u { p with
      lastSendTime := msgTime, sending := some { m with clientTime := msgTime } })
      (.readline u line canceled reading) = [{ m with clientTime := msgTime }] := by
  simp [announces, sends, SendLoop.System.setProcess]

theorem announces_read {t : SendLoop.System}
    (silent : ∀ m, prompted u (groupIds u) line canceled ≠ .sends m) :
    announces groupIds t (.readline u line canceled reading) = [] := by
  cases reaction : prompted u (groupIds u) line canceled with
  | sends m => exact absurd reaction (silent m)
  | ignored | help | quit | aborted => simp only [announces, reaction]

/-! The sending end: whatever logic has been asked to send was announced. -/

structure Asked (listed : Int → List Int → Prop) (w : World) (processes : Int → Process)
    (announced : List NewMsg) : Prop where
  consistent : Consistent listed w
  originates : Originates w
  sending : ∀ u, ∀ m ∈ (processes u).sending, m ∈ announced
  attempts : ∀ att ∈ w.attempts, att.newMsg ∈ announced

namespace Asked
variable {listed : Int → List Int → Prop} {w w' : World} {processes : Int → Process}
  {announced : List NewMsg}

theorem world (asked : Asked listed w processes announced) {we : Delivery.Event}
    (moved : Delivery.Moves n w we w') (lists : Lists listed w we)
    (starts : ∀ m, we = .start m → m ∈ announced) : Asked listed w' processes announced where
  consistent := asked.consistent.step lists moved
  originates := asked.originates.step asked.consistent moved
  sending := asked.sending
  attempts att member := by
    obtain ⟨m, begun, rfl⟩ | ⟨old, present, same⟩ := newMsg_before moved member
    · exact starts _ begun
    · rw [same]
      exact asked.attempts old present

theorem process (asked : Asked listed w processes announced) {u : Int} {p : Process}
    {more : List NewMsg} (sending : ∀ m ∈ p.sending, m ∈ announced ++ more) :
    Asked listed w (Function.update processes u p) (announced ++ more) where
  consistent := asked.consistent
  originates := asked.originates
  sending v m member := by
    rw [Function.update_apply] at member
    split at member
    · exact sending m member
    · exact List.mem_append_left _ (asked.sending v m member)
  attempts att member := List.mem_append_left _ (asked.attempts att member)

end Asked

def Reports (listed : Int → List Int → Prop) (s : System) : Event → Prop
  | .client (.services e) => Lists listed s.world e
  | _ => True

theorem asked_client {listed : Int → List Int → Prop} {e : SendLoop.Event} {t : SendLoop.System}
    (asked : Asked listed s.world s.processes s.announced)
    (reports : Reports listed s (.client e)) (moved : SendLoop.Moves n groupIds s.clients e t) :
    Asked listed t.world t.processes (s.announced ++ announces groupIds t e) := by
  cases moved with
  | @read u line canceled reading p silent time sending received =>
      refine asked.process fun m member => ?_
      rw [sending] at member
      exact List.mem_append_left _ (asked.sending u m member)
  | @begun u line canceled m reading msgTime prompt sends time =>
      refine asked.process fun begun member => List.mem_append_right _ ?_
      cases member
      rw [announces_begun sends]
      exact List.mem_singleton_self _
  | called sending moved =>
      simp only [announces, List.append_nil]
      refine asked.world (Delivery.moves_of_step moved) trivial ?_
      rintro m ⟨⟩
      exact asked.sending _ _ sending
  | copied resends moved =>
      simp only [announces, List.append_nil]
      refine asked.world (Delivery.moves_of_step moved) trivial ?_
      rintro m ⟨⟩
      obtain ⟨att, member, rfl⟩ := resends
      exact asked.attempts att member
  | replied sending _ _ =>
      refine asked.process fun m member => ?_
      cases member
  | quit =>
      rename_i u
      refine asked.process fun m member => ?_
      exact List.mem_append_left _ (asked.sending u m member)
  | served other moved =>
      simp only [announces, List.append_nil]
      refine asked.world (Delivery.moves_of_step moved) reports ?_
      rintro m rfl
      exact absurd rfl (other m)

theorem network_client {e : SendLoop.Event} {t : SendLoop.System}
    (moved : SendLoop.Moves n groupIds s.clients e t) :
    (s.serve t.world (started t.world e)).network = s.network ∨
      ∃ we, PushNetwork.Moves n s.network (.logic (.world we))
        (s.serve t.world (started t.world e)).network := by
  have unmoved : (s.serve s.world []).network = s.network := by
    simp [System.serve, System.world]
  cases moved with
  | read => exact .inl unmoved
  | begun => exact .inl unmoved
  | replied => exact .inl unmoved
  | quit => exact .inl unmoved
  | called _ moved => exact .inr ⟨_, .logic (.world (Delivery.moves_of_step moved))⟩
  | copied _ moved => exact .inr ⟨_, .logic (.world (Delivery.moves_of_step moved))⟩
  | served _ moved => exact .inr ⟨_, .logic (.world (Delivery.moves_of_step moved))⟩

/-! The receiving end: every printed message took a poll of its reader. -/

structure Pulled (network : Network) (u : Int) (puller : Puller) : Prop where
  awaited : ∀ addr call, puller.awaiting = some (addr, call) →
    (network.servers addr).pulls[call]? = some u ∧
      ∀ p ∈ puller.printed, (p.addr, p.call) ≠ (addr, call)
  printed : ∀ p ∈ puller.printed,
    p.msg.userId = u ∧ (p.call, p.msg) ∈ acceptedAt network.arrived p.addr
  apart : puller.printed.Pairwise fun p q => (p.addr, p.call) ≠ (q.addr, q.call)

variable {network network' : Network} {ne : PushNetwork.Event} {u : Int} {puller : Puller}

theorem network_pulls (moved : PushNetwork.Moves n network ne network') {addr : Text} {call : Nat}
    (owner : (network.servers addr).pulls[call]? = some u) :
    (network'.servers addr).pulls[call]? = some u := by
  have served : ∀ {at' : Text} {e server}, (network.servers at').step e = some server →
      ((network.setServer at' server).servers addr).pulls[call]? = some u := by
    intro at' e server stepped
    simp only [Network.setServer, Function.update_apply]
    split
    · rename_i same
      subst same
      exact Access.Service.pulls_kept stepped owner
    · exact owner
  cases moved with
  | logic => exact owner
  | arrived _ stepped => exact served stepped
  | access _ stepped => exact served stepped

theorem network_accepted (moved : PushNetwork.Moves n network ne network')
    (member : accepted ∈ acceptedAt network.arrived addr) :
    accepted ∈ acceptedAt network'.arrived addr := by
  cases moved with
  | logic => exact member
  | arrived =>
      rw [acceptedAt, List.filterMap_append]
      exact List.mem_append_left _ member
  | access => exact member

namespace Pulled

theorem kept (pulled : Pulled network u puller)
    (moved : PushNetwork.Moves n network ne network') : Pulled network' u puller where
  awaited addr call awaiting := by
    obtain ⟨owner, others⟩ := pulled.awaited addr call awaiting
    exact ⟨network_pulls moved owner, others⟩
  printed p member := by
    obtain ⟨reader, accepted⟩ := pulled.printed p member
    exact ⟨reader, network_accepted moved accepted⟩
  apart := pulled.apart

theorem polled (pulled : Pulled network u puller) (balanced : Balanced network)
    (served : (network.servers addr).step (.pullData u timer) = some server) :
    Pulled (network.setServer addr server) u { puller with
      awaiting := some (addr, (network.servers addr).pulls.length) } where
  awaited := by
    rintro _ _ ⟨⟩
    constructor
    · simp [Network.setServer, Access.Service.pulls_step served, Access.Service.caller]
    · intro p member equal
      obtain ⟨-, accepted⟩ := pulled.printed p member
      have owner := (balanced.ledger p.addr).owner p.call p.msg accepted
      have bound := (List.getElem?_eq_some_iff.mp owner).1
      obtain ⟨here, last⟩ := Prod.mk.inj equal
      rw [here, last] at bound
      omega
  printed := pulled.printed
  apart := pulled.apart

theorem answered (pulled : Pulled network u puller) (balanced : Balanced network)
    (awaiting : puller.awaiting = some (addr, call)) :
    Pulled network u {
      awaiting := none
      printed := puller.printed ++ ((network.servers addr).replies call).map (⟨addr, call, ·⟩) }
    where
  awaited := nofun
  printed := by
    intro p member
    obtain old | new := List.mem_append.mp member
    · exact pulled.printed p old
    · obtain ⟨msg, answered, rfl⟩ := List.mem_map.mp new
      obtain ⟨owner, -⟩ := pulled.awaited addr call awaiting
      have accepted := (balanced.ledger addr).answered call msg answered
      have reader := (balanced.ledger addr).owner call msg accepted
      exact ⟨Option.some.inj (reader.symm.trans owner), accepted⟩
  apart := by
    refine List.pairwise_append.mpr ⟨pulled.apart, ?_, ?_⟩
    · cases replies : (network.servers addr).replies call with
      | nil => exact .nil
      | cons msg rest =>
          have answered : msg ∈ (network.servers addr).replies call := by simp [replies]
          have accepted := (balanced.ledger addr).answered call msg answered
          obtain ⟨-, empty⟩ | ⟨single, -⟩ := (balanced.ledger addr).placed call msg accepted
          · rw [empty] at replies
            cases replies
          · rw [single] at replies
            cases replies
            exact List.pairwise_singleton _ _
    · intro p old q new
      obtain ⟨msg, -, rfl⟩ := List.mem_map.mp new
      exact (pulled.awaited addr call awaiting).2 p old

end Pulled

/-! Runs of the whole system. -/

structure Traced (listed : Int → List Int → Prop) (s : System) : Prop where
  asked : Asked listed s.world s.processes s.announced
  balanced : Balanced s.network
  outward : Outward s.network.pushing
  pulled : ∀ u, Pulled s.network u (s.pullers u)

/-- Nothing is stored, sent or printed. -/
structure Begins (s : System) : Prop where
  network : PushNetwork.Begins s.network
  messages : s.world.messages = []
  processes : ∀ u, s.processes u = {}
  pullers : ∀ u, s.pullers u = {}
  announced : s.announced = []

theorem outward_network (balanced : Balanced network) (outward : Outward network.pushing)
    (moved : PushNetwork.Moves n network ne network') : Outward network'.pushing := by
  cases moved with
  | logic pushes => exact outward.step balanced.sound pushes
  | arrived => exact outward
  | access => exact outward

theorem network_world (moved : PushNetwork.Moves n network ne network')
    (other : ∀ we, ne ≠ .logic (.world we)) :
    network'.pushing.world = network.pushing.world := by
  cases moved with
  | logic pushes =>
      cases pushes with
      | world => exact absurd rfl (other _)
      | planned | issued => rfl
  | arrived | access => rfl

namespace Traced
variable {listed : Int → List Int → Prop}

theorem begins (begins : Begins s) : Traced listed s where
  asked := {
    consistent := initial_consistent begins.network.world
    originates := originates_of_empty begins.messages
    sending := by simp [begins.processes]
    attempts := by
      have none : s.world.attempts = [] := begins.network.world.attempts
      simp [none] }
  balanced := .begins begins.network
  outward := .initial begins.network.idle
  pulled u := by
    rw [begins.pullers]
    exact ⟨nofun, nofun, .nil⟩

theorem carried (traced : Traced listed s) (moved : PushNetwork.Moves n s.network ne network')
    (asked : Asked listed network'.pushing.world s'.processes s'.announced)
    (same : s'.network = network') (pullers : s'.pullers = s.pullers) : Traced listed s' where
  asked := by
    rw [System.world, same]
    exact asked
  balanced := by
    rw [same]
    exact traced.balanced.step moved
  outward := by
    rw [same]
    exact outward_network traced.balanced traced.outward moved
  pulled u := by
    rw [same, pullers]
    exact (traced.pulled u).kept moved

theorem setPuller (traced : Traced listed s) (pulled : Pulled s.network u puller) :
    Traced listed (s.setPuller u puller) where
  asked := traced.asked
  balanced := traced.balanced
  outward := traced.outward
  pulled v := by
    simp only [System.setPuller, Function.update_apply]
    split
    · rename_i same
      rw [same]
      exact pulled
    · exact traced.pulled v

theorem step (traced : Traced listed s) (reports : Reports listed s e)
    (moved : Moves n groupIds s e s') : Traced listed s' := by
  cases moved with
  | @client e t moved =>
      have asked := asked_client traced.asked reports moved
      obtain unmoved | ⟨we, served⟩ := network_client moved
      · exact {
          asked := asked
          balanced := by
            change Balanced (s.serve t.world (started t.world e)).network
            rw [unmoved]
            exact traced.balanced
          outward := by
            change Outward (s.serve t.world (started t.world e)).network.pushing
            rw [unmoved]
            exact traced.outward
          pulled := fun u => by
            change Pulled (s.serve t.world (started t.world e)).network u (s.pullers u)
            rw [unmoved]
            exact traced.pulled u }
      · exact traced.carried served asked rfl rfl
  | @network ne network' moved other =>
      have asked := traced.asked
      rw [System.world, ← network_world moved other] at asked
      exact traced.carried moved asked rfl rfl
  | @polled u addr timer server idle served =>
      have moved : PushNetwork.Moves n s.network (.access addr (.pullData u timer))
          (s.network.setServer addr server) := .access (fun _ => nofun) served
      have after : Traced listed (s.setServer addr server) :=
        traced.carried moved traced.asked rfl rfl
      exact after.setPuller ((traced.pulled u).polled traced.balanced served)
  | pulled awaiting _ =>
      exact traced.setPuller ((traced.pulled _).answered traced.balanced awaiting)
  | @failed u =>
      have pulled := traced.pulled u
      exact traced.setPuller ⟨nofun, pulled.printed, pulled.apart⟩

end Traced

/-- What the reader of an announced message is shown of it. -/
structure Shows (listed : Int → List Int → Prop) (m : NewMsg) (msg : Msg) : Prop where
  sender : msg.sender = m.userId
  time : msg.clientTime = m.clientTime
  text : msg.message = cStr m.message
  abroad : msg.userId ≠ m.userId
  audience : match m.msgType with
    | .PRIVATE => msg.userId = m.peerId ∧ msg.groupId = 0
    | .GROUP => msg.groupId = m.peerId ∧
      ∃ members, listed m.peerId members ∧ msg.userId ∈ members

theorem traced_of_run {listed : Int → List Int → Prop} {allowed : System → Event → Prop}
    (reports : ∀ s e, allowed s e → Reports listed s e) (begins : Begins s₀)
    (run : Run (step n groupIds) allowed s₀ es s) : Traced listed s :=
  run.invariant (Traced listed)
    (fun traced admitted stepped => traced.step (reports _ _ admitted) (moves_of_step stepped))
    (.begins begins)

/-- The attempt that has stored the row which a printed message copies. -/
structure Behind (w : World) (msg : Msg) (a : Nat) (att : Attempt) (request : SaveRequest)
    (ids : MsgIds) : Prop where
  found : w.attempts[a]? = some att
  requested : att.request = some request
  served : ids ∈ att.idReply
  stored : participantRow att.newMsg request.msgTime ids ∈ w.messages
  copied : msg = pushedCopy (participantRow att.newMsg request.msgTime ids)
  abroad : ids.userId ≠ att.newMsg.userId

theorem Traced.behind {listed : Int → List Int → Prop} (traced : Traced listed s) {p : Printed}
    (member : p ∈ (s.pullers u).printed) :
    ∃ a att request ids, Behind s.world p.msg a att request ids := by
  obtain ⟨-, accepted⟩ := (traced.pulled u).printed p member
  obtain ⟨r, arrived, here, -, same⟩ := mem_acceptedAt.mp accepted
  have sent := traced.balanced.sent r arrived
  rw [here, same] at sent
  have issued := List.mem_of_getElem? sent
  obtain ⟨_, _, -, -, carried⟩ := traced.balanced.sound.issued _ issued
  have abroad : p.msg.userId ≠ p.msg.sender := traced.outward.issued _ issued
  obtain ⟨row, stored, -, copy⟩ := carried.stored
  obtain ⟨j, job, att, -, -, found, requested, -, ids, served, rfl⟩ :=
    traced.asked.originates.save traced.asked.consistent stored
  have copy : p.msg = pushedCopy (participantRow att.newMsg job.request.msgTime ids) := copy
  rw [copy] at abroad
  exact ⟨job.attempt, att, job.request, ids, found, requested, served, stored, copy, abroad⟩

theorem Behind.shows {listed : Int → List Int → Prop} {w : World} {msg : Msg}
    (behind : Behind w msg a att request ids) (shape : att.Shape listed) :
    Shows listed att.newMsg msg := by
  obtain ⟨idRequest, asked, users⟩ := (shape.built behind.requested).answers
  have requested : ids.userId ∈ idRequest.map UserAndIdNum.userId := by
    rw [← users]
    exact List.mem_map_of_mem behind.served
  rw [behind.copied]
  refine ⟨rfl, rfl, rfl, behind.abroad, ?_⟩
  cases kind : att.newMsg.msgType with
  | PRIVATE =>
      simp only [RequestOf, kind] at asked
      subst asked
      simp only [privateIdRequest, List.map_cons, List.map_nil, List.mem_cons,
        List.not_mem_nil, or_false] at requested
      exact ⟨requested.resolve_left behind.abroad,
        by simp [pushedCopy, participantRow, Row.pulled, kind]⟩
  | GROUP =>
      simp only [RequestOf, kind] at asked
      obtain ⟨members, reported, rfl⟩ := asked
      simp only [groupIdRequest, List.map_cons, List.map_map, List.mem_cons] at requested
      refine ⟨by simp [pushedCopy, participantRow, Row.pulled, kind], members, reported, ?_⟩
      obtain ⟨user, listing, rfl⟩ := List.mem_map.mp (requested.resolve_left behind.abroad)
      exact (List.mem_filter.mp listing).1

/-- The row behind a printed message was stored for an announced one. -/
theorem Traced.shows {listed : Int → List Int → Prop} (traced : Traced listed s) {p : Printed}
    (member : p ∈ (s.pullers u).printed) : ∃ m ∈ s.announced, Shows listed m p.msg := by
  obtain ⟨a, att, request, ids, behind⟩ := traced.behind member
  exact ⟨att.newMsg, traced.asked.attempts att (List.mem_of_getElem? behind.found),
    behind.shows (traced.asked.consistent.shape a att behind.found)⟩

/-- Whatever fails, is lost, repeated or overtaken: a process prints messages for its own user
only, and each was announced by the process of the sender that it names, with this time and
text, for this user or for a group that lists it. -/
theorem printed_was_announced {listed : Int → List Int → Prop} (begins : Begins s₀)
    (run : Run (step n groupIds) (Reports listed) s₀ es s) {p : Printed}
    (member : p ∈ (s.pullers u).printed) :
    p.msg.userId = u ∧ ∃ m ∈ s.announced, Shows listed m p.msg := by
  have traced := traced_of_run (fun _ _ reports => reports) begins run
  exact ⟨((traced.pulled u).printed p member).1, traced.shows member⟩

/-- Beside the two messages of `twoLines`, user 8 polls at `a:1`. The save call of the first
message returns at the end, so it is printed after the second one. -/
def printedLate : List Event :=
  twoLines.map .client ++
    [.client (.services (.saveReplied 0 0)), .pullData 8 "a:1".toList 1,
      .network (.logic (.getSessions 0 fun _ => some "a:1".toList)),
      .network (.logic (.sendtoAccess 0)), .network (.arrives 0),
      .network (.access "a:1".toList (.complete 0)), .pulled 8, .pullData 8 "a:1".toList 2,
      .network (.logic (.getSessions 1 fun _ => some "a:1".toList)),
      .network (.logic (.sendtoAccess 1)), .network (.arrives 1),
      .network (.access "a:1".toList (.complete 0)), .pulled 8]

theorem begins_empty : Begins { network := { pushing := { world := .empty } } } where
  network := PushNetwork.begins_empty
  messages := rfl
  processes _ := rfl
  pullers _ := rfl
  announced := rfl

theorem reports_any (s : System) (e : Event) : Reports (fun _ _ => True) s e := by
  cases e with
  | client e =>
      cases e with
      | services e => exact lists_any s.world e
      | readline | sendMsg | lateCopy | reply | askedToQuit => trivial
  | network | pullData | pulled | pullFails => trivial

theorem printed_was_announced_late :
    ∃ s, Run (step 1024 fun _ => []) (Reports fun _ _ => True)
        { network := { pushing := { world := .empty } } } printedLate s ∧
      (s.pullers 8).printed.map (·.msg.message) = ["ho".toList, "hi".toList] ∧
      ∀ p ∈ (s.pullers 8).printed, p.msg.userId = 8 ∧
        ∃ m ∈ s.announced, Shows (fun _ _ => True) m p.msg := by
  obtain ⟨s, run, printed⟩ := Run.of_check (step 1024 fun _ => []) (fun _ _ => true)
    { network := { pushing := { world := .empty } } } printedLate
    (fun s => decide ((s.pullers 8).printed.map (·.msg.message) = ["ho".toList, "hi".toList]))
    (fun s e _ => reports_any s e) (by decide +kernel)
  exact ⟨s, run, of_decide_eq_true printed, fun _ => printed_was_announced begins_empty run⟩

/-! The groups of a process are those that `GetGroups` has listed for its user at the start, and
logic sends a group message to those that `GetGroupMembers` lists. -/

/-- What `group_members` held when the process of each user started. -/
def groupsAtStart (start : Int → List GroupMember) (userId : Int) : List Int :=
  (getGroups (start userId) userId).map GroupInfo.groupId

def membersIn (table : List GroupMember) (groupId : Int) : List Int :=
  (getGroupMembers table groupId).map UserInfo.userId

/-- The answers of `GetGroupMembers` while `group_members` goes through these states. -/
def ListedIn (tables : Set (List GroupMember)) (groupId : Int) (members : List Int) : Prop :=
  ∃ table ∈ tables, members = membersIn table groupId

/-- Every announcement has the type that the groups of its sender give it. -/
def Typed (groupIds : Int → List Int) (s : System) : Prop :=
  ∀ m ∈ s.announced, m.msgType = if m.peerId ∈ groupIds m.userId then .GROUP else .PRIVATE

theorem typed_step (typed : Typed groupIds s) (moved : Moves n groupIds s e s') :
    Typed groupIds s' := by
  cases moved with
  | @client e t moved =>
      intro m member
      obtain old | new := List.mem_append.mp member
      · exact typed m old
      · cases moved with
        | @begun u line canceled m' reading msgTime prompt sends time =>
            rw [announces_begun sends] at new
            cases List.mem_singleton.mp new
            obtain ⟨user, -⟩ := prompted_sends sends
            rw [prompted_kind sends, user]
        | read silent => simp [announces_read silent] at new
        | called | copied | replied | quit | served => simp [announces] at new
  | network | polled | pulled | failed => exact typed

/-- `GetGroupMembers` has given this answer to the attempt. -/
def Answered (es : List Event) (a : Nat) (members : List Int) : Prop :=
  .client (.services (.groupMembers a members)) ∈ es

/-- Every attempt has asked ids for the list that it was given itself. -/
def Heard (listed : Int → List Int → Prop) (es : List Event) (w : World) : Prop :=
  ∀ (a : Nat) att, w.attempts[a]? = some att →
    att.Shape fun group members => listed group members ∧ Answered es a members

theorem Heard.world {listed : Int → List Int → Prop} {w w' : World} {we : Delivery.Event}
    (heard : Heard listed es w) (moved : Delivery.Moves n w we w') (lists : Lists listed w we)
    (member : ∀ a members, we = .groupMembers a members → Answered es a members) :
    Heard listed es w' := by
  intro a att found
  obtain ⟨m, -, rfl, -⟩ | ⟨old, present, evolved⟩ := attempt_before moved found
  · exact ⟨rfl, rfl⟩
  · refine (heard a old present).evolves (fun members same => ⟨?_, member a members same⟩) evolved
    exact lists.answer present members same

theorem heard_step {listed : Int → List Int → Prop} (heard : Heard listed es s.world)
    (reports : Reports listed s e) (member : e ∈ es) (moved : Moves n groupIds s e s') :
    Heard listed es s'.world := by
  cases moved with
  | client moved =>
      cases moved with
      | read | begun | replied | quit => exact heard
      | called _ moved => exact heard.world (Delivery.moves_of_step moved) trivial nofun
      | copied _ moved => exact heard.world (Delivery.moves_of_step moved) trivial nofun
      | served _ moved =>
          refine heard.world (Delivery.moves_of_step moved) reports ?_
          rintro a members rfl
          exact member
  | network moved other =>
      have same := network_world moved other
      rw [System.world] at heard ⊢
      rwa [same]
  | polled | pulled | failed => exact heard

/-- Nobody outside a group reads what is sent to it, and nobody outside sends to it: the sender
of a printed group message was listed when his process started, and the reader is in the answer
that logic got for this message when it asked for the members. The peer of a private message is
its reader. -/
theorem groups_stay_closed {tables : Set (List GroupMember)} {start : Int → List GroupMember}
    (begins : Begins s₀)
    (run : Run (step n (groupsAtStart start)) (Reports (ListedIn tables)) s₀ es s) {p : Printed}
    (member : p ∈ (s.pullers u).printed) :
    ∃ a att request ids, Behind s.world p.msg a att request ids ∧ att.newMsg ∈ s.announced ∧
      att.newMsg.userId = p.msg.sender ∧ att.newMsg.clientTime = p.msg.clientTime ∧
      match att.newMsg.msgType with
      | .PRIVATE => att.newMsg.peerId = u ∧ p.msg.groupId = 0
      | .GROUP => p.msg.groupId = att.newMsg.peerId ∧
        p.msg.sender ∈ membersIn (start p.msg.sender) att.newMsg.peerId ∧
        ∃ members, Answered es a members ∧ u ∈ members ∧
          ∃ table ∈ tables, members = membersIn table att.newMsg.peerId := by
  have traced := traced_of_run (fun _ _ reports => reports) begins run
  have typed : Typed (groupsAtStart start) s :=
    run.invariant (Typed (groupsAtStart start))
      (fun typed _ stepped => typed_step typed (moves_of_step stepped))
      (by simp [Typed, begins.announced])
  have heard : Heard (ListedIn tables) es s.world :=
    run.listed.invariant (fun s => Heard (ListedIn tables) es s.world)
      (fun heard admitted stepped => heard_step heard admitted.1 admitted.2 (moves_of_step stepped))
      (by simp [Heard, show s₀.world.attempts = [] from begins.network.world.attempts])
  obtain ⟨a, att, request, ids, behind⟩ := traced.behind member
  have announced := traced.asked.attempts att (List.mem_of_getElem? behind.found)
  have shows := behind.shows (heard a att behind.found)
  obtain ⟨reader, -⟩ := (traced.pulled u).printed p member
  refine ⟨a, att, request, ids, behind, announced, shows.sender.symm, shows.time.symm, ?_⟩
  have audience := shows.audience
  rw [reader] at audience
  have kind := typed att.newMsg announced
  cases own : att.newMsg.msgType with
  | PRIVATE =>
      rw [own] at audience
      exact ⟨audience.1.symm, audience.2⟩
  | GROUP =>
      rw [own] at audience kind
      obtain ⟨group, members, ⟨⟨table, present, listed⟩, answered⟩, reads⟩ := audience
      have known : att.newMsg.peerId ∈ groupsAtStart start att.newMsg.userId := by
        by_contra unknown
        rw [if_neg unknown] at kind
        cases kind
      refine ⟨group, ?_, members, answered, reads, table, present, listed⟩
      rw [shows.sender]
      exact (mem_groups_iff_mem_members _ _ _).mp known

instance {membership : Int → List Int} : Decidable (Reports (Fixed membership) s e) :=
  match e with
  | .client (.services e) => inferInstanceAs (Decidable (Lists (Fixed membership) s.world e))
  | .client (.readline ..) | .client (.sendMsg _) | .client (.lateCopy _) | .client (.reply ..)
  | .client (.askedToQuit _) | .network _ | .pullData .. | .pulled _ | .pullFails _ =>
    inferInstanceAs (Decidable True)

theorem reports_of_fixed {table : List GroupMember}
    (reports : Reports (Fixed (membersIn table)) s e) : Reports (ListedIn {table}) s e := by
  cases e with
  | client e =>
      cases e with
      | services e =>
          cases e with
          | groupMembers a members =>
              intro att found
              exact ⟨table, rfl, reports att found⟩
          | _ => trivial
      | _ => trivial
  | network | pullData | pulled | pullFails => trivial

def twoMembers : List GroupMember :=
  [⟨50, "g".toList, 7, "a".toList⟩, ⟨50, "g".toList, 8, "b".toList⟩]

/-- User 7 sends "hi" to the group, and user 8 polls at `a:1`. -/
def printedInGroup : List Event :=
  [.readline 7 (some "sendmsgto 50 hi".toList) false 100, .sendMsg 7,
    .services (.redisGet 0 .value), .services (.select 0 true), .services (.lookedUp 0),
    .services (.groupMembers 0 [7, 8]), .services (.idGenerate 0 {}),
    .services (.idGenerate 0 {}), .services (.idReplied 0 50), .services (.saveArrives 0),
    .services (.insert 0 .executed), .services (.insert 0 .executed),
    .services (.setLastSend 0 true true), .services (.saveReplied 0 0)].map .client ++
    [.pullData 8 "a:1".toList 1,
      .network (.logic (.getSessions 0 fun u => if u = 8 then some "a:1".toList else none)),
      .network (.logic (.sendtoAccess 0)), .network (.arrives 0),
      .network (.access "a:1".toList (.complete 0)), .pulled 8]

theorem groups_stay_closed_two_members :
    ∃ s, Run (step 1024 (groupsAtStart fun _ => twoMembers)) (Reports (ListedIn {twoMembers}))
        { network := { pushing := { world := .empty } } } printedInGroup s ∧
      (s.pullers 8).printed.map (·.msg.groupId) = [50] ∧
      ∀ p ∈ (s.pullers 8).printed, ∃ a att request ids,
        Behind s.world p.msg a att request ids ∧ att.newMsg.userId = p.msg.sender := by
  obtain ⟨s, run, printed⟩ := Run.of_check (step 1024 (groupsAtStart fun _ => twoMembers))
    (fun s e => decide (Reports (Fixed (membersIn twoMembers)) s e))
    { network := { pushing := { world := .empty } } } printedInGroup
    (fun s => decide ((s.pullers 8).printed.map (·.msg.groupId) = [50]))
    (fun _ _ fixed => reports_of_fixed (of_decide_eq_true fixed)) (by decide +kernel)
  refine ⟨s, run, of_decide_eq_true printed, fun p member => ?_⟩
  obtain ⟨a, att, request, ids, behind, -, sender, -⟩ :=
    groups_stay_closed begins_empty run member
  exact ⟨a, att, request, ids, behind, sender⟩

/-! With clocks that run ahead of the messages, and calls that arrive once at most. -/

def clientEvents (es : List Event) : List SendLoop.Event :=
  es.filterMap fun
    | .client e => some e
    | _ => none

theorem clientEvents_append (es fs : List Event) :
    clientEvents (es ++ fs) = clientEvents es ++ clientEvents fs := List.filterMap_append

def Once (s : System) : Event → Prop
  | .network e => PushNetwork.Once s.network e
  | _ => True

instance : Decidable (Once s e) :=
  match e with
  | .network e => inferInstanceAs (Decidable (PushNetwork.Once s.network e))
  | .client _ | .pullData .. | .pulled _ | .pullFails _ => inferInstanceAs (Decidable True)

/-- The announcements of a process go up in time. -/
structure Distinct (s : System) : Prop where
  ascending : s.announced.Pairwise fun earlier later =>
    earlier.userId = later.userId → earlier.clientTime < later.clientTime
  last : ∀ m ∈ s.announced, m.clientTime ≤ (s.processes m.userId).lastSendTime

def Looping (groupIds : Int → List Int) (es : List Event) (s : System) : Prop :=
  Abiding groupIds (clientEvents es) s.clients

theorem distinct_client {e : SendLoop.Event} {t : SendLoop.System} {es : List Event}
    (looping : Looping groupIds es s) (distinct : Distinct s)
    (clocked : Clocked groupIds (clientEvents es ++ [e]))
    (moved : SendLoop.Moves n groupIds s.clients e t) :
    Distinct { s.serve t.world (started t.world e) with
      processes := t.processes, announced := s.announced ++ announces groupIds t e } := by
  have silent : announces groupIds t e = [] →
      (∀ v, (t.processes v).lastSendTime = (s.processes v).lastSendTime) →
      Distinct { s.serve t.world (started t.world e) with
        processes := t.processes, announced := s.announced ++ announces groupIds t e } := by
    intro nothing same
    rw [nothing, List.append_nil]
    refine ⟨distinct.ascending, fun m member => ?_⟩
    simp only [same]
    exact distinct.last m member
  have updated : ∀ {v : Int} {p : Process}, p.lastSendTime = (s.processes v).lastSendTime →
      ∀ x, (Function.update s.processes v p x).lastSendTime = (s.processes x).lastSendTime := by
    intro v p same x
    rw [Function.update_apply]
    split
    · rename_i here
      rw [same, here]
    · rfl
  cases moved with
  | @read u line canceled reading p quiet time sending received =>
      exact silent (announces_read quiet) (updated time)
  | @begun u line canceled m reading msgTime prompt sends time =>
      obtain ⟨user, -⟩ := prompted_sends sends
      have spread := clocked u
      rw [readings_append, readings_sends sends, if_pos rfl] at spread
      obtain ⟨later, -⟩ := (looping.timed u).begun spread time
      rw [announces_begun sends]
      constructor
      · refine List.pairwise_append.mpr ⟨distinct.ascending, List.pairwise_singleton _ _, ?_⟩
        intro old member new single same
        rw [List.mem_singleton.mp single] at same ⊢
        have before := distinct.last old member
        rw [same, user] at before
        exact lt_of_le_of_lt before later
      · intro old member
        obtain before | new := List.mem_append.mp member
        · have bound := distinct.last old before
          change old.clientTime ≤ (Function.update s.processes u _ old.userId).lastSendTime
          rw [Function.update_apply]
          split
          · rename_i here
            rw [here] at bound
            exact bound.trans later.le
          · exact bound
        · rw [List.mem_singleton.mp new]
          change msgTime ≤ (Function.update s.processes u _ m.userId).lastSendTime
          rw [user, Function.update_self]
  | called | copied | served => exact silent rfl fun _ => rfl
  | replied => exact silent rfl (updated rfl)
  | quit => exact silent rfl (updated rfl)

theorem Distinct.kept (distinct : Distinct s) (announced : s'.announced = s.announced)
    (processes : s'.processes = s.processes) : Distinct s' := by
  constructor
  · rw [announced]
    exact distinct.ascending
  · rw [announced, processes]
    exact distinct.last

/-- What holds along a run with clocks that run ahead and calls that arrive once. -/
structure Orderly (listed : Int → List Int → Prop) (groupIds : Int → List Int)
    (es : List Event) (s : System) : Prop where
  traced : Traced listed s
  looping : Looping groupIds es s
  distinct : Distinct s
  once : (s.network.arrived.map Arrival.call).Nodup

namespace Orderly
variable {listed : Int → List Int → Prop} {es : List Event}

theorem begins (begins : Begins s) : Orderly listed groupIds [] s where
  traced := .begins begins
  looping := Abiding.begins (s := s.clients) ⟨begins.network.world.attempts, begins.processes⟩
  distinct := by
    constructor
    · rw [begins.announced]
      exact .nil
    · simp [begins.announced]
  once := by simp [begins.network.arrived]

theorem step (orderly : Orderly listed groupIds es s)
    (clocked : Clocked groupIds (clientEvents (es ++ [e])))
    (admitted : Reports listed s e ∧ Once s e) (moved : Moves n groupIds s e s') :
    Orderly listed groupIds (es ++ [e]) s' := by
  have traced := orderly.traced.step admitted.1 moved
  cases moved with
  | @client e t moved =>
      rw [clientEvents_append] at clocked
      refine ⟨traced, ?_, distinct_client orderly.looping orderly.distinct clocked moved, ?_⟩
      · rw [Looping, clientEvents_append]
        exact Abiding.step orderly.looping clocked moved
      · exact orderly.once
  | @network ne network' moved other =>
      refine ⟨traced, ?_, orderly.distinct.kept rfl rfl, arrived_once orderly.once admitted.2 moved⟩
      have looping := orderly.looping
      rw [Looping, System.clients, System.world, ← network_world moved other] at looping
      rw [Looping, clientEvents_append, show clientEvents [.network ne] = [] from rfl,
        List.append_nil]
      exact looping
  | polled | pulled | failed =>
      refine ⟨traced, ?_, orderly.distinct.kept rfl rfl, orderly.once⟩
      rw [Looping, clientEvents_append]
      exact (List.append_nil _).symm ▸ orderly.looping

end Orderly

theorem orderly_of_run {listed : Int → List Int → Prop} (begins : Begins s₀)
    (run : Run (step n groupIds) (fun s e => Reports listed s e ∧ Once s e) s₀ es s)
    (clocked : Clocked groupIds (clientEvents es)) :
    Orderly listed groupIds es s := by
  refine run.history (fun es t => Clocked groupIds (clientEvents es) →
    Orderly listed groupIds es t) ?_ (fun _ => .begins begins) clocked
  intro es t e t' orderly admitted stepped clocked
  have before : Clocked groupIds (clientEvents es) := by
    rw [clientEvents_append] at clocked
    exact clocked.before
  exact (orderly before).step clocked admitted (moves_of_step stepped)

theorem Distinct.unique (distinct : Distinct s) (left : m ∈ s.announced) (right : m' ∈ s.announced)
    (user : m.userId = m'.userId) (time : m.clientTime = m'.clientTime) : m = m' := by
  have symmetric : Std.Symm fun a b : NewMsg =>
      a.userId = b.userId → a.clientTime ≠ b.clientTime :=
    ⟨fun _ _ apart same => (apart same.symm).symm⟩
  by_contra different
  have apart := distinct.ascending.imp fun before same => (before same).ne
  exact apart.forall left right different user time

/-- Where moreover no `SendtoAccess` is executed twice and the clocks of the processes run ahead
of their messages: no process prints a message twice, whatever was sent again on the way, and
its sender and time belong to one announcement. -/
theorem printed_once {listed : Int → List Int → Prop} (begins : Begins s₀)
    (run : Run (step n groupIds) (fun s e => Reports listed s e ∧ Once s e) s₀ es s)
    (clocked : Clocked groupIds (clientEvents es)) (u : Int) :
    (s.pullers u).printed.Pairwise (fun p q => msgKey p.msg ≠ msgKey q.msg) ∧
    ∀ p ∈ (s.pullers u).printed, ∃ m ∈ s.announced, Shows listed m p.msg ∧
      ∀ other ∈ s.announced, other.userId = p.msg.sender →
        other.clientTime = p.msg.clientTime → other = m := by
  have orderly := orderly_of_run begins run clocked
  have pulled := orderly.traced.pulled u
  constructor
  · refine pulled.apart.imp_of_mem fun left right apart same => ?_
    obtain ⟨-, accepted⟩ := pulled.printed _ left
    obtain ⟨-, accepted'⟩ := pulled.printed _ right
    obtain ⟨addr, call, -⟩ :=
      orderly.traced.balanced.taken_once orderly.once accepted accepted' same
    exact apart (Prod.ext addr call)
  · intro p member
    obtain ⟨m, announced, shows⟩ := orderly.traced.shows member
    refine ⟨m, announced, shows, fun other present sender time => ?_⟩
    exact orderly.distinct.unique present announced (sender.trans shows.sender)
      (time.trans shows.time)

theorem printedLate_clocked : Clocked (fun _ => []) (clientEvents printedLate) := by
  have lines : clientEvents printedLate = twoLines ++ [.services (.saveReplied 0 0)] := rfl
  intro u
  have same : readings (fun _ => []) (clientEvents printedLate) u =
      readings (fun _ => []) twoLines u := by
    rw [lines, readings_append]
    exact List.append_nil _
  rw [same]
  exact twoLines_clocked u

theorem printed_once_late :
    ∃ s, Run (step 1024 fun _ => []) (fun s e => Reports (fun _ _ => True) s e ∧ Once s e)
        { network := { pushing := { world := .empty } } } printedLate s ∧
      (s.pullers 8).printed.map (·.msg.clientTime) = [101, 100] ∧
      (s.pullers 8).printed.Pairwise (fun p q => msgKey p.msg ≠ msgKey q.msg) := by
  obtain ⟨s, run, printed⟩ := Run.of_check (step 1024 fun _ => []) (fun s e => decide (Once s e))
    { network := { pushing := { world := .empty } } } printedLate
    (fun s => decide ((s.pullers 8).printed.map (·.msg.clientTime) = [101, 100]))
    (fun s e once => And.intro (reports_any s e) (of_decide_eq_true once)) (by decide +kernel)
  exact ⟨s, run, of_decide_eq_true printed,
    (printed_once begins_empty run printedLate_clocked 8).1⟩

end Tinyim.EndToEnd
