import Tinyim.Dbproxy.LastSendRecord
import Tinyim.Dbproxy.Sessions
import Tinyim.ExpiringRegisters

/-! Redis as dbproxy uses it. Sessions and last-send records are texts in one space of keys, and
both are written for an hour. -/
namespace Tinyim.Dbproxy
open ExpiringRegisters

/-- `{user_id}a` and `{user_id}u`. -/
def userKey (kind : Char) (userId : Int) : Text := '{' :: (decimal userId ++ ['}', kind])

def sessionKey (userId : Int) : Text := userKey 'a' userId

def lastSendKey (userId : Int) : Text := userKey 'u' userId

inductive RedisCommand where
  /-- `SET key value EX 3600`. -/
  | set (value : Text)
  | del
  /-- The script of `SetUserLastSendData_`, whose SETEX has the same lifetime. -/
  | eval (data : UserLastSendData)
  deriving DecidableEq, Repr

def RedisCommand.effect : RedisCommand → Option Text → Effect Text
  | .set value, _ => .write value
  | .del, _ => .delete
  | .eval data, none => .write (recordText data)
  | .eval data, some record =>
    if recordOlder record data = some true then .write (recordText data) else .keep

/-- The calls that write to Redis, and the time between them. -/
inductive Call where
  | authAndSaveSession (userId : Int) (accessAddr : Text)
  | clearSession (userId : Int)
  | setUserLastSendData (data : UserLastSendData)
  | passes (microseconds : Nat)
  deriving DecidableEq, Repr

def Call.event : Call → Event Text RedisCommand
  | .authAndSaveSession userId accessAddr => .command (sessionKey userId) (.set (cStr accessAddr))
  | .clearSession userId => .command (sessionKey userId) .del
  | .setUserLastSendData data => .command (lastSendKey data.userId) (.eval data)
  | .passes microseconds => .passes microseconds

abbrev Keyspace := Registers Text Text

def Keyspace.call (r : Keyspace) (call : Call) : Keyspace :=
  r.step sessionLifetime RedisCommand.effect call.event

def keyspace (calls : List Call) : Keyspace :=
  exec sessionLifetime RedisCommand.effect (calls.map Call.event)

/-! The keys of two users differ, and no session key is a record key. -/

theorem userKey_injective (same : userKey kind u = userKey kind' v) : kind = kind' ∧ u = v := by
  obtain ⟨-, rest⟩ := List.cons.inj same
  obtain ⟨digits, ends⟩ := List.append_inj' rest rfl
  simp only [List.cons.injEq, and_true, true_and] at ends
  exact ⟨ends, decimal_injective digits⟩

theorem sessionKey_inj : sessionKey u = sessionKey v ↔ u = v :=
  ⟨fun same => (userKey_injective same).2, congrArg sessionKey⟩

theorem lastSendKey_inj : lastSendKey u = lastSendKey v ↔ u = v :=
  ⟨fun same => (userKey_injective same).2, congrArg lastSendKey⟩

theorem sessionKey_ne_lastSendKey (u v : Int) : sessionKey u ≠ lastSendKey v := by
  intro same
  exact absurd (userKey_injective same).1 (by decide)

/-! What the models of the sessions and of the records keep of a keyspace. -/

def stored (entry : Text × Int) : StoredSession := ⟨entry.1, entry.2⟩

def sessionsOf (r : Keyspace) : SessionStore := fun u => (r.held (sessionKey u)).map stored

def recordsOf (r : Keyspace) : Int → Option Text := fun u => r.live (lastSendKey u)

theorem sessionsOf_value (r : Keyspace) (u : Int) :
    (sessionsOf r).value r.now u = r.live (sessionKey u) := by
  simp only [SessionStore.value, sessionsOf, Registers.live]
  cases r.held (sessionKey u) <;> rfl

variable {r : Keyspace} {content : Option (Text × Int)} {record : Text} {expireAt : Int}

theorem sessionsOf_hold_session (u : Int) : sessionsOf (r.hold (sessionKey u) content) =
    Function.update (sessionsOf r) u (content.map stored) := by
  funext v
  simp only [sessionsOf, Registers.hold, Function.update_apply, sessionKey_inj]
  split <;> rfl

theorem sessionsOf_hold_record (u : Int) :
    sessionsOf (r.hold (lastSendKey u) content) = sessionsOf r := by
  funext v
  simp only [sessionsOf, Registers.hold, Function.update_of_ne (sessionKey_ne_lastSendKey v u)]

theorem recordsOf_hold_session (u : Int) :
    recordsOf (r.hold (sessionKey u) content) = recordsOf r := by
  funext v
  have other := (sessionKey_ne_lastSendKey u v).symm
  simp only [recordsOf, Registers.live, Registers.hold, Function.update_of_ne other]
  rfl

theorem recordsOf_hold_record (u : Int) (later : r.now < expireAt) :
    recordsOf (r.hold (lastSendKey u) (some (record, expireAt))) =
      Function.update (recordsOf r) u (some record) := by
  funext v
  simp only [recordsOf, Registers.live, Registers.hold, Function.update_apply, lastSendKey_inj]
  split
  · simp [later]
  · rfl

theorem sessionsOf_call (r : Keyspace) (call : Call) : sessionsOf (r.call call) =
    match call with
    | .authAndSaveSession u accessAddr => authAndSaveSession r.now u accessAddr (sessionsOf r)
    | .clearSession u => Function.update (sessionsOf r) u none
    | .setUserLastSendData _ | .passes _ => sessionsOf r := by
  cases call with
  | authAndSaveSession u accessAddr => exact sessionsOf_hold_session u
  | clearSession u => exact sessionsOf_hold_session u
  | setUserLastSendData data =>
      simp only [Keyspace.call, Call.event, Registers.step]
      split
      · rfl
      · exact sessionsOf_hold_record data.userId
      · exact sessionsOf_hold_record data.userId
  | passes => rfl

theorem recordsOf_call (r : Keyspace) (call : Call) :
    match call with
    | .setUserLastSendData data => recordsOf (r.call call) = storeLastSend (recordsOf r) data
    | .authAndSaveSession .. | .clearSession _ => recordsOf (r.call call) = recordsOf r
    | .passes _ => ∀ u,
      recordsOf (r.call call) u = recordsOf r u ∨ recordsOf (r.call call) u = none := by
  cases call with
  | authAndSaveSession u accessAddr => exact recordsOf_hold_session u
  | clearSession u => exact recordsOf_hold_session u
  | setUserLastSendData data =>
      have later : r.now < r.now + sessionLifetime := by
        have positive : 0 < sessionLifetime := by decide
        omega
      have kept (old : Option Text) (same : recordsOf r data.userId = old)
          (left : setUserLastSendData old data = old) :
          recordsOf r = storeLastSend (recordsOf r) data := by
        rw [storeLastSend, same, left, ← same, Function.update_eq_self]
      simp only [Keyspace.call, Call.event, Registers.step]
      cases found : r.live (lastSendKey data.userId) with
      | none =>
          have held : recordsOf r data.userId = none := found
          simp only [RedisCommand.effect, recordsOf_hold_record _ later, storeLastSend, held,
            setUserLastSendData]
      | some record =>
          have held : recordsOf r data.userId = some record := found
          by_cases older : recordOlder record data = some true
          · simp only [RedisCommand.effect, older, if_true, recordsOf_hold_record _ later,
              storeLastSend, held, setUserLastSendData]
          · simp only [RedisCommand.effect, older, if_false]
            exact kept _ held (if_neg older)
  | passes time =>
      intro u
      simp only [Keyspace.call, Call.event, Registers.step, recordsOf, Registers.live]
      cases r.held (lastSendKey u) with
      | none => exact .inl rfl
      | some entry =>
          obtain ⟨record, expireAt⟩ := entry
          by_cases due : r.now + time < expireAt
          · have before : r.now < expireAt := by omega
            simp [due, before]
          · simp [due]

/-! What Redis answers after any calls, in the words of the calls. -/

def waited (calls : List Call) : Nat :=
  (calls.map fun
    | .passes microseconds => microseconds
    | .authAndSaveSession .. | .clearSession _ | .setUserLastSendData _ => 0).sum

theorem elapsed_events (calls : List Call) : elapsed (calls.map Call.event) = waited calls := by
  rw [elapsed, waited, List.map_map]
  congr 2
  funext call
  cases call <;> rfl

theorem session_event {call : Call} (names : call.event = .command (sessionKey u) w) :
    (∃ addr, call = .authAndSaveSession u addr ∧ w = .set (cStr addr)) ∨
      call = .clearSession u ∧ w = .del := by
  cases call with
  | authAndSaveSession v addr =>
      injection names with key command
      obtain rfl := sessionKey_inj.mp key
      exact .inl ⟨addr, rfl, command.symm⟩
  | clearSession v =>
      injection names with key command
      obtain rfl := sessionKey_inj.mp key
      exact .inr ⟨rfl, command.symm⟩
  | setUserLastSendData data =>
      injection names with key
      exact absurd key.symm (sessionKey_ne_lastSendKey u data.userId)
  | passes => cases names

theorem record_event {call : Call} (names : call.event = .command (lastSendKey u) w) :
    ∃ data, call = .setUserLastSendData data ∧ data.userId = u ∧ w = .eval data := by
  cases call with
  | authAndSaveSession v | clearSession v =>
      injection names with key
      exact absurd key (sessionKey_ne_lastSendKey v u)
  | setUserLastSendData data =>
      injection names with key command
      exact ⟨data, rfl, lastSendKey_inj.mp key, command.symm⟩
  | passes => cases names

theorem live_keyspace_iff {calls : List Call} : (keyspace calls).live k = some v ↔
    ∃ before call after w, calls = before ++ call :: after ∧ call.event = .command k w ∧
      WrittenBy sessionLifetime RedisCommand.effect k v (before.map Call.event) w
        (after.map Call.event) := by
  rw [keyspace, live_iff]
  constructor
  · rintro ⟨front, w, back, split, written⟩
    obtain ⟨before, rest, rfl, rfl, tail⟩ := List.map_eq_append_iff.mp split
    obtain ⟨call, after, rfl, names, rfl⟩ := List.map_eq_cons_iff.mp tail
    exact ⟨before, call, after, w, rfl, names, written⟩
  · rintro ⟨before, call, after, w, rfl, names, written⟩
    exact ⟨_, w, _, by rw [List.map_append, List.map_cons, names], written⟩

/-- The last SignIn of the user was less than an hour ago and has not been cleared. -/
def SignedIn (calls : List Call) (u : Int) (addr : Text) : Prop :=
  ∃ before after, calls = before ++ .authAndSaveSession u addr :: after ∧
    waited after < sessionLifetime ∧
    ∀ call ∈ after, (∀ other, call ≠ .authAndSaveSession u other) ∧ call ≠ .clearSession u

theorem live_session_iff {calls : List Call} : (keyspace calls).live (sessionKey u) = some text ↔
    ∃ addr, SignedIn calls u addr ∧ text = cStr addr := by
  rw [live_keyspace_iff]
  constructor
  · rintro ⟨before, call, after, w, rfl, names, written⟩
    have wrote := written.written
    obtain ⟨addr, rfl, rfl⟩ | ⟨rfl, rfl⟩ := session_event names
    · cases wrote
      refine ⟨addr, ⟨before, after, rfl, ?_, fun later member => ⟨?_, ?_⟩⟩, rfl⟩
      · rw [← elapsed_events]
        exact written.young
      · rintro other rfl
        cases written.kept _ (List.mem_map_of_mem member)
      · rintro rfl
        cases written.kept _ (List.mem_map_of_mem member)
    · cases wrote
  · rintro ⟨addr, ⟨before, after, rfl, young, last⟩, rfl⟩
    refine ⟨before, _, after, _, rfl, rfl, rfl, ?_, fun later member => ?_⟩
    · rw [elapsed_events]
      exact young
    · obtain ⟨call, present, names⟩ := List.mem_map.mp member
      obtain ⟨other, rfl, -⟩ | ⟨rfl, -⟩ := session_event names
      · exact absurd rfl ((last _ present).1 other)
      · exact absurd rfl (last _ present).2

theorem eval_writes {old : Option Text}
    (wrote : RedisCommand.effect (.eval data) old = .write text) : text = recordText data := by
  cases old with
  | none =>
      cases wrote
      rfl
  | some record =>
      simp only [RedisCommand.effect] at wrote
      split at wrote
      · cases wrote
        rfl
      · cases wrote

theorem live_record {calls : List Call} (live : (keyspace calls).live (lastSendKey u) = some text) :
    ∃ data : UserLastSendData, text = recordText data := by
  obtain ⟨before, call, after, w, rfl, names, written⟩ := live_keyspace_iff.mp live
  obtain ⟨data, rfl, own, rfl⟩ := record_event names
  exact ⟨data, eval_writes written.written⟩

theorem effect_eval_recordText (old new : UserLastSendData) :
    RedisCommand.effect (.eval new) (some (recordText old)) =
      if old.clientTime < new.clientTime then .write (recordText new) else .keep := by
  simp only [RedisCommand.effect, recordOlder_recordText, Option.some.injEq, decide_eq_true_eq]

/-- The record was written less than an hour ago. It was newer than the one that was live then,
and no later save of the user has been newer. -/
def Recorded (calls : List Call) (u : Int) (data : UserLastSendData) : Prop :=
  data.userId = u ∧ ∃ before after, calls = before ++ .setUserLastSendData data :: after ∧
    waited after < sessionLifetime ∧
    (∀ old, recordsOf (keyspace before) u = some (recordText old) →
      old.clientTime < data.clientTime) ∧
    ∀ later, .setUserLastSendData later ∈ after → later.userId = u →
      later.clientTime ≤ data.clientTime

theorem eval_writes_iff {calls : List Call} (data : UserLastSendData) :
    RedisCommand.effect (.eval data) (recordsOf (keyspace calls) u) = .write (recordText data) ↔
      ∀ old, recordsOf (keyspace calls) u = some (recordText old) →
        old.clientTime < data.clientTime := by
  cases found : recordsOf (keyspace calls) u with
  | none => exact iff_of_true rfl nofun
  | some text =>
      obtain ⟨old, rfl⟩ := live_record found
      rw [effect_eval_recordText]
      constructor
      · intro wrote other same
        obtain ⟨-, time, -⟩ := recordText_injective (Option.some.inj same)
        split at wrote
        · rwa [← time]
        · cases wrote
      · intro newer
        rw [if_pos (newer old rfl)]

/-- Redis holds a record of a user exactly while a save of the user that it has accepted is less
than an hour old, and it is the newest one since then. A refused save does not renew it. -/
theorem record_held_iff (calls : List Call) (u : Int) (text : Text) :
    recordsOf (keyspace calls) u = some text ↔
      ∃ data, Recorded calls u data ∧ text = recordText data := by
  rw [recordsOf, live_keyspace_iff]
  constructor
  · rintro ⟨before, call, after, w, rfl, names, written⟩
    obtain ⟨data, rfl, own, rfl⟩ := record_event names
    have wrote := written.written
    obtain rfl := eval_writes wrote
    refine ⟨data, ⟨own, before, after, rfl, ?_, (eval_writes_iff data).mp wrote, ?_⟩, rfl⟩
    · rw [← elapsed_events]
      exact written.young
    · rintro later member rfl
      have event : .command (lastSendKey later.userId) (.eval later) ∈ after.map Call.event :=
        List.mem_map_of_mem (f := Call.event) member
      have kept := written.kept (.eval later) event
      rw [effect_eval_recordText] at kept
      split at kept
      · cases kept
      · omega
  · rintro ⟨data, ⟨rfl, before, after, rfl, young, newer, last⟩, rfl⟩
    refine ⟨before, _, after, _, rfl, rfl, (eval_writes_iff data).mpr newer, ?_, ?_⟩
    · rw [elapsed_events]
      exact young
    · intro later member
      obtain ⟨call, present, names⟩ := List.mem_map.mp member
      obtain ⟨other, rfl, own, rfl⟩ := record_event names
      rw [effect_eval_recordText, if_neg (not_lt.mpr (last other present own))]

/-- `GetSessions` reports a user exactly while the last SignIn is less than an hour old and not
cleared, with the address that it has sent, whatever is done for other users and with the
records. -/
theorem sessions_answered (calls : List Call)
    (member : session ∈ getSessions (fun u => (keyspace calls).live (sessionKey u)) userIds) :
    (session.hasSession = true ↔ ∃ addr, SignedIn calls session.userId addr) ∧
      ∀ addr, SignedIn calls session.userId addr → session.addr = cStr addr := by
  obtain ⟨has, addr⟩ := mem_getSessions member
  constructor
  · rw [has, Option.isSome_iff_exists]
    simp only [live_session_iff]
    constructor
    · rintro ⟨_, reported, signedIn, -⟩
      exact ⟨reported, signedIn⟩
    · rintro ⟨reported, signedIn⟩
      exact ⟨_, reported, signedIn, rfl⟩
  · intro reported signedIn
    have live := live_session_iff.mpr ⟨reported, signedIn, rfl⟩
    rw [addr, live, Option.getD_some]
    exact List.takeWhile_idem

/-- User 7 stays signed in while user 8 signs in and leaves, and a record of user 7 is written. -/
def sessionCalls : List Call :=
  [.authAndSaveSession 7 "a:1".toList, .authAndSaveSession 8 "b:2".toList, .passes 1000000,
    .setUserLastSendData ⟨7, 1, 100, 50⟩, .clearSession 8, .passes 1000000]

theorem sessions_answered_two :
    (∃ addr, SignedIn sessionCalls 7 addr) ∧ ¬ ∃ addr, SignedIn sessionCalls 8 addr := by
  have reply : getSessions (fun u => (keyspace sessionCalls).live (sessionKey u)) [7, 8] =
      [⟨true, 7, "a:1".toList⟩, ⟨false, 8, []⟩] := by
    decide +kernel
  have present : (⟨true, 7, "a:1".toList⟩ : Session) ∈
      getSessions (fun u => (keyspace sessionCalls).live (sessionKey u)) [7, 8] := by
    rw [reply]
    exact List.mem_cons_self
  have absent : (⟨false, 8, []⟩ : Session) ∈
      getSessions (fun u => (keyspace sessionCalls).live (sessionKey u)) [7, 8] := by
    rw [reply]
    exact List.mem_cons_of_mem _ List.mem_cons_self
  constructor
  · exact (sessions_answered sessionCalls present).1.mp rfl
  · intro signedIn
    cases (sessions_answered sessionCalls absent).1.mpr signedIn

end Tinyim.Dbproxy
