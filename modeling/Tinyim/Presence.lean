import Tinyim.Transition
import Tinyim.Access.Eviction
import Tinyim.Logic.SendtoPeers

/-! The session registry beside the presence of the users: any number of access servers,
the keys `{user_id}a` in Redis, and one clock. -/
namespace Tinyim.Presence
open Transition Access Dbproxy

/-- An address as SignIn writes it from `local_side()`: it holds no NUL. -/
abbrev Addr := { text : Text // nul ∉ text }

/-- What is known of a user from outside. No server reads it. -/
structure Observation where
  /-- The server and the time of the last SignIn. -/
  signedIn : Option (Addr × Int) := none
  /-- The last signal of a user who has stayed present since then. -/
  lastSeen : Option Int := none
  /-- Signed out or evicted since then. -/
  gone : Bool := false
  deriving DecidableEq

structure Cluster where
  now : Int
  sessions : SessionStore := fun _ => none
  servers : Addr → Service := fun _ => {}
  observed : Int → Observation := fun _ => {}

/-- A timer may fire at any time, so that nothing depends on when it is due. -/
inductive Event where
  | tick (microseconds : Nat)
  | signIn (addr : Addr) (userId : Int)
  | signOut (addr : Addr) (userId : Int)
  | access (addr : Addr) (event : Access.Event)
  deriving DecidableEq

/-- `AccessServiceImpl::SignIn`, with the call that dbproxy serves. -/
def signIn (now : Int) (addr : Addr) (userId : Int) (sessions : SessionStore) : SessionStore :=
  authAndSaveSession now userId addr sessions

/-- `AccessServiceImpl::SignOut` builds a stub, a Pong and a controller, and calls nothing. -/
def signOut (_userId : Int) (sessions : SessionStore) : SessionStore := sessions

def evicts (s : Service) : Access.Event → Option Int
  | .clearUserData timer => do
    let task ← s.timers timer
    let _ ← s.entry task.argument.userId
    return task.argument.userId
  | _ => none

namespace Observation

def presentElsewhere (o : Observation) (addr : Addr) : Bool :=
  o.lastSeen.isSome && o.signedIn.any fun (server, _) => server ≠ addr

/-- Presence ends when the timeout has passed without a signal. -/
def wait (timeout now : Int) (o : Observation) : Observation :=
  { o with lastSeen := o.lastSeen.filter fun seen => now < seen + timeout }

def signIn (addr : Addr) (now : Int) : Observation := ⟨some (addr, now), some now, false⟩

def signOut (o : Observation) : Observation := { o with lastSeen := none, gone := true }

/-- A HeartBeat, SendMsg or PullData. -/
def signal (now : Int) (o : Observation) : Observation :=
  { o with lastSeen := o.lastSeen.map fun _ => now }

/-- An eviction by a server that the user has left for another one does not count. -/
def evict (addr : Addr) (o : Observation) : Observation :=
  if o.presentElsewhere addr then o else { o with gone := true }

def access (now : Int) (addr : Addr) (before : Service) (event : Access.Event) (userId : Int)
    (o : Observation) : Observation :=
  let o := if (event.arms userId).isSome then o.signal now else o
  if evicts before event = some userId then o.evict addr else o

end Observation

namespace Cluster

def observe (c : Cluster) (userId : Int) (o : Observation) : Int → Observation :=
  Function.update c.observed userId o

/-- `timeout` is `recv_heartbeat_timeout_s` in microseconds. -/
def step (timeout : Int) (c : Cluster) : Event → Option Cluster
  | .tick microseconds =>
    let now := c.now + microseconds
    some { c with now := now, observed := fun u => (c.observed u).wait timeout now }
  | .signIn addr userId => some { c with
      sessions := signIn c.now addr userId c.sessions
      observed := c.observe userId (.signIn addr c.now) }
  | .signOut _ userId => some { c with
      sessions := signOut userId c.sessions
      observed := c.observe userId (c.observed userId).signOut }
  | .access addr event => do
    let s ← (c.servers addr).step event
    return { c with
      servers := Function.update c.servers addr s
      observed := fun u => (c.observed u).access c.now addr (c.servers addr) event u }

/-- Every answer of `GetSessions` has this to say about the user, whatever the request is. -/
def Reports (c : Cluster) (u : Int) (answer : Bool → Text → Prop) : Prop :=
  ∀ userIds, ∀ session ∈ getSessions (c.sessions.value c.now) userIds,
    session.userId = u → answer session.hasSession session.addr

/-- A present user is reported at the server of its SignIn, and a user who is gone is not
reported. -/
structure Agrees (c : Cluster) (u : Int) : Prop where
  present : ∀ addr since, (c.observed u).signedIn = some (addr, since) →
    (c.observed u).lastSeen.isSome →
    c.Reports u fun hasSession reported => hasSession = true ∧ reported = addr.val
  gone : (c.observed u).gone = true → c.Reports u fun hasSession _ => hasSession = false

/-- A present user has signed in less than the lifetime of a key ago, and a user who is gone has
not. -/
structure InTime (c : Cluster) (u : Int) : Prop where
  present : ∀ addr since, (c.observed u).signedIn = some (addr, since) →
    (c.observed u).lastSeen.isSome → c.now < since + sessionLifetime
  gone : ∀ addr since, (c.observed u).signedIn = some (addr, since) →
    (c.observed u).gone = true → since + sessionLifetime ≤ c.now

variable {c c' : Cluster} {u : Int} {e : Event} {timeout : Int}

theorem observe_cases (c : Cluster) (v : Int) (o : Observation) (u : Int) :
    u = v ∧ c.observe v o u = o ∨ u ≠ v ∧ c.observe v o u = c.observed u := by
  by_cases same : u = v
  · subst same
    exact .inl ⟨rfl, Function.update_self ..⟩
  · exact .inr ⟨same, Function.update_of_ne same ..⟩

/-- Redis holds the address of the last SignIn, and nothing else has an effect on it. -/
def Recorded (c : Cluster) : Prop :=
  ∀ u, c.sessions u = (c.observed u).signedIn.map fun (addr, since) =>
    { addr := addr.val, expireAt := since + sessionLifetime }

theorem evict_kept (addr : Addr) (o : Observation) :
    (o.evict addr).signedIn = o.signedIn ∧ (o.evict addr).lastSeen = o.lastSeen := by
  simp only [Observation.evict]
  split <;> exact ⟨rfl, rfl⟩

theorem access_cases (now : Int) (addr : Addr) (s : Service) (event : Access.Event) (u : Int)
    (o : Observation) :
    (o.access now addr s event u).signedIn = o.signedIn ∧
      ((o.access now addr s event u).lastSeen = o.lastSeen ∨
        (o.access now addr s event u).lastSeen = o.lastSeen.map fun _ => now) := by
  have signalled : ∀ o' : Observation, o' = o ∨ o' = o.signal now →
      o'.signedIn = o.signedIn ∧
        (o'.lastSeen = o.lastSeen ∨ o'.lastSeen = o.lastSeen.map fun _ => now) := by
    rintro o' (rfl | rfl)
    · exact ⟨rfl, .inl rfl⟩
    · exact ⟨rfl, .inr rfl⟩
  have before := signalled (if (event.arms u).isSome then o.signal now else o) (by
    split
    · exact .inr rfl
    · exact .inl rfl)
  simp only [Observation.access]
  by_cases evicted : evicts s event = some u
  · rw [if_pos evicted, (evict_kept addr _).1, (evict_kept addr _).2]
    exact before
  · rw [if_neg evicted]
    exact before

theorem step_recorded (recorded : c.Recorded) (stepped : c.step timeout e = some c') :
    c'.Recorded := by
  intro u
  cases e with
  | tick =>
      cases stepped
      exact recorded u
  | signIn addr v =>
      cases stepped
      simp only [signIn, authAndSaveSession]
      rw [cStr_eq_self_iff.mpr addr.property]
      obtain ⟨rfl, new⟩ | ⟨other, kept⟩ := observe_cases c v (.signIn addr c.now) u
      · rw [new, Function.update_self]
        rfl
      · rw [kept, Function.update_of_ne other]
        exact recorded u
  | signOut _ v =>
      cases stepped
      simp only [signOut]
      obtain ⟨rfl, new⟩ | ⟨-, kept⟩ := observe_cases c v (c.observed v).signOut u
      · rw [new]
        exact recorded u
      · rw [kept]
        exact recorded u
  | access addr event =>
      obtain ⟨s, -, same⟩ := Option.bind_eq_some_iff.mp stepped
      cases same
      simp only [(access_cases _ _ _ _ _ _).1]
      exact recorded u

theorem reports_iff {answer : Bool → Text → Prop} :
    c.Reports u answer ↔ answer (c.sessions.value c.now u).isSome
      (cStr ((c.sessions.value c.now u).getD [])) := by
  constructor
  · intro reports
    obtain ⟨session, member, same⟩ :=
      getSessions_covers (c.sessions.value c.now) (List.mem_singleton_self u)
    have reported := reports _ session member same
    obtain ⟨present, named⟩ := mem_getSessions member
    rwa [present, named, same] at reported
  · rintro holds userIds session member rfl
    obtain ⟨present, named⟩ := mem_getSessions member
    rw [present, named]
    exact holds

theorem Recorded.value (recorded : c.Recorded)
    (signedIn : (c.observed u).signedIn = some (addr, since)) :
    c.sessions.value c.now u =
      if c.now < since + sessionLifetime then some addr.val else none := by
  rw [SessionStore.value, recorded u, signedIn]
  rfl

theorem Recorded.value_none (recorded : c.Recorded) (never : (c.observed u).signedIn = none) :
    c.sessions.value c.now u = none := by
  rw [SessionStore.value, recorded u, never]
  rfl

theorem Recorded.present_iff (recorded : c.Recorded)
    (signedIn : (c.observed u).signedIn = some (addr, since)) :
    c.Reports u (fun hasSession reported => hasSession = true ∧ reported = addr.val) ↔
      c.now < since + sessionLifetime := by
  rw [reports_iff, recorded.value signedIn]
  by_cases early : c.now < since + sessionLifetime
  · rw [if_pos early]
    exact iff_of_true ⟨rfl, cStr_eq_self_iff.mpr addr.property⟩ early
  · rw [if_neg early]
    exact iff_of_false (fun reported => nomatch reported.1) early

theorem Recorded.gone_iff (recorded : c.Recorded) :
    c.Reports u (fun hasSession _ => hasSession = false) ↔
      ∀ addr since, (c.observed u).signedIn = some (addr, since) →
        since + sessionLifetime ≤ c.now := by
  rw [reports_iff]
  cases signedIn : (c.observed u).signedIn with
  | none =>
      rw [recorded.value_none signedIn]
      exact iff_of_true rfl nofun
  | some record =>
      obtain ⟨addr, since⟩ := record
      rw [recorded.value signedIn]
      by_cases early : c.now < since + sessionLifetime
      · rw [if_pos early]
        refine iff_of_false nofun fun late => ?_
        exact absurd (late addr since rfl) (Int.not_le.mpr early)
      · rw [if_neg early]
        refine iff_of_true rfl ?_
        rintro _ _ ⟨⟩
        exact Int.not_lt.mp early

theorem Recorded.agrees_iff (recorded : c.Recorded) (u : Int) : c.Agrees u ↔ c.InTime u := by
  constructor
  · intro agrees
    constructor
    · intro addr since signedIn present
      exact (recorded.present_iff signedIn).mp (agrees.present addr since signedIn present)
    · intro addr since signedIn gone
      exact recorded.gone_iff.mp (agrees.gone gone) addr since signedIn
  · intro inTime
    constructor
    · intro addr since signedIn present
      exact (recorded.present_iff signedIn).mpr (inTime.present addr since signedIn present)
    · intro gone
      exact recorded.gone_iff.mpr fun addr since signedIn => inTime.gone addr since signedIn gone

/-- The registry agrees with the presence of a user exactly as long as the fixed lifetime of the
key does: refreshes do not prolong it, and leaving does not end it. -/
theorem registry_agrees_iff (start : Int)
    (run : Run (step timeout) (fun _ _ => True) { now := start } es c) (u : Int) :
    c.Agrees u ↔ c.InTime u := by
  have recorded : c.Recorded := run.invariant Recorded
    (fun recorded _ stepped => step_recorded recorded stepped) (fun _ => rfl)
  exact recorded.agrees_iff u

theorem evicts_erases {s s' : Service} {event : Access.Event} (evicted : evicts s event = some u)
    (stepped : s.step event = some s') : (s.entry u).isSome ∧ s'.entry u = none := by
  cases event with
  | clearUserData t =>
      obtain ⟨task, found, rest⟩ := Option.bind_eq_some_iff.mp evicted
      obtain ⟨data, present, same⟩ := Option.bind_eq_some_iff.mp rest
      cases same
      cases Service.moves_of_step stepped with
      | cleared running _ entry =>
          cases found.symm.trans running
          rw [entry, Function.update_self]
          exact ⟨by rw [present]; rfl, rfl⟩
      | vacant running absent =>
          cases found.symm.trans running
          cases present.symm.trans absent
      | refreshed signal => exact signal.elim nofun nofun
  | pullData | heartBeat | sendMsg | sendtoAccess | complete | fire | handlerReturns =>
      cases evicted

/-- The last signal of a present user is less than the timeout ago. -/
def Recent (timeout : Int) (c : Cluster) : Prop :=
  ∀ u seen, (c.observed u).lastSeen = some seen → seen ≤ c.now ∧ c.now < seen + timeout

theorem step_recent (positive : 0 < timeout) (recent : c.Recent timeout)
    (stepped : c.step timeout e = some c') : c'.Recent timeout := by
  intro u seen present
  cases e with
  | tick microseconds =>
      cases stepped
      obtain ⟨before, early⟩ := Option.filter_eq_some_iff.mp present
      obtain ⟨past, -⟩ := recent u seen before
      have later : c.now ≤ c.now + microseconds :=
        Int.le_add_of_nonneg_right (Int.natCast_nonneg microseconds)
      exact ⟨Int.le_trans past later, of_decide_eq_true early⟩
  | signIn addr v =>
      cases stepped
      simp only at present
      obtain ⟨-, new⟩ | ⟨-, kept⟩ := observe_cases c v (.signIn addr c.now) u
      · rw [new] at present
        cases present
        exact ⟨Int.le_refl _, Int.lt_add_of_pos_right _ positive⟩
      · rw [kept] at present
        exact recent u seen present
  | signOut _ v =>
      cases stepped
      simp only at present
      obtain ⟨-, new⟩ | ⟨-, kept⟩ := observe_cases c v (c.observed v).signOut u
      · rw [new] at present
        cases present
      · rw [kept] at present
        exact recent u seen present
  | access addr event =>
      obtain ⟨s, -, same⟩ := Option.bind_eq_some_iff.mp stepped
      cases same
      simp only at present
      obtain kept | refreshed := (access_cases c.now addr (c.servers addr) event u (c.observed u)).2
      · exact recent u seen (kept ▸ present)
      · rw [refreshed] at present
        obtain ⟨_, -, rfl⟩ := Option.map_eq_some_iff.mp present
        exact ⟨Int.le_refl _, Int.lt_add_of_pos_right _ positive⟩

theorem present_recent (start : Int) (positive : 0 < timeout)
    (run : Run (step timeout) (fun _ _ => True) { now := start } es c) : c.Recent timeout :=
  run.invariant (Recent timeout)
    (fun recent _ stepped => step_recent positive recent stepped) nofun

/-- A user signs in and sends a heartbeat every 300 seconds, as the client does. -/
def heartbeats (addr : Addr) (rounds : Nat) : List Event :=
  .signIn addr 7 :: (List.range rounds).flatMap fun i =>
    [.tick 300000000, .access addr (.heartBeat 7 (i + 1))]

def localhost : Addr := ⟨"127.0.0.1:5000".toList, by decide⟩

def defaultTimeout : Int := 400 * 1000000

theorem registry_agrees_iff_early :
    ∃ c, Run (step defaultTimeout) (fun _ _ => True) { now := 0 } (heartbeats localhost 2) c ∧
      c.Agrees 7 := by
  obtain ⟨c, run, checked⟩ : ∃ c, Run (step defaultTimeout) (fun _ _ => True) { now := 0 }
      (heartbeats localhost 2) c ∧ _ :=
    Run.of_check (step defaultTimeout) (fun _ _ => true) { now := 0 } (heartbeats localhost 2)
      (fun c => decide (c.now = 600000000 ∧
        c.observed 7 = ⟨some (localhost, 0), some 600000000, false⟩))
      (fun _ _ _ => trivial) (by decide)
  obtain ⟨now, observed⟩ := of_decide_eq_true checked
  refine ⟨c, run, (registry_agrees_iff 0 run 7).mpr ⟨?_, ?_⟩⟩
  · intro addr since signedIn _
    rw [observed] at signedIn
    cases signedIn
    rw [now]
    decide
  · intro addr since _ gone
    rw [observed] at gone
    cases gone

/-- After an hour of heartbeats the present user is not reported any more, and a user who has
signed out still is. -/
theorem registry_disagrees :
    (∃ c, Run (step defaultTimeout) (fun _ _ => True) { now := 0 } (heartbeats localhost 12) c ∧
      c.observed 7 = ⟨some (localhost, 0), some c.now, false⟩ ∧
      getSessions (c.sessions.value c.now) [7] = [⟨false, 7, []⟩] ∧ ¬ c.Agrees 7) ∧
    ∃ c, Run (step defaultTimeout) (fun _ _ => True) { now := 0 }
        [.signIn localhost 7, .signOut localhost 7] c ∧
      c.observed 7 = ⟨some (localhost, 0), none, true⟩ ∧
      getSessions (c.sessions.value c.now) [7] = [⟨true, 7, localhost.val⟩] ∧ ¬ c.Agrees 7 := by
  constructor
  · obtain ⟨c, run, checked⟩ : ∃ c, Run (step defaultTimeout) (fun _ _ => True) { now := 0 }
        (heartbeats localhost 12) c ∧ _ :=
      Run.of_check (step defaultTimeout) (fun _ _ => true) { now := 0 } (heartbeats localhost 12)
        (fun c => decide (c.observed 7 = ⟨some (localhost, 0), some c.now, false⟩ ∧
          getSessions (c.sessions.value c.now) [7] = [⟨false, 7, []⟩]))
        (fun _ _ _ => trivial) (by decide)
    obtain ⟨observed, answered⟩ := of_decide_eq_true checked
    refine ⟨c, run, observed, answered, fun agrees => ?_⟩
    have reported := agrees.present localhost 0 (by rw [observed]) (by rw [observed]; rfl) [7] _
      (by rw [answered]; exact List.mem_singleton_self _) rfl
    exact nomatch reported.1
  · obtain ⟨c, run, checked⟩ : ∃ c, Run (step defaultTimeout) (fun _ _ => True) { now := 0 }
        [.signIn localhost 7, .signOut localhost 7] c ∧ _ :=
      Run.of_check (step defaultTimeout) (fun _ _ => true) { now := 0 }
        [.signIn localhost 7, .signOut localhost 7]
        (fun c => decide (c.observed 7 = ⟨some (localhost, 0), none, true⟩ ∧
          getSessions (c.sessions.value c.now) [7] = [⟨true, 7, localhost.val⟩]))
        (fun _ _ _ => trivial) (by decide)
    obtain ⟨observed, answered⟩ := of_decide_eq_true checked
    refine ⟨c, run, observed, answered, fun agrees => ?_⟩
    have reported := agrees.gone (by rw [observed]) [7] _
      (by rw [answered]; exact List.mem_singleton_self _) rfl
    exact nomatch reported

end Cluster
end Tinyim.Presence
