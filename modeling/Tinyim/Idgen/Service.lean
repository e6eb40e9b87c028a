import Tinyim.Idgen.LevelDb
import Tinyim.Transition

/-! `IdGenServiceImpl::IdGenerate`, one round of its loop a step, so that the requests of
different callers interleave between any two entries of a reply. -/
namespace Tinyim.IdGen
open Transition

/-- One execution of the handler. -/
structure IdCall where
  userIds : List UserAndIdNum
  /-- The loop variable. -/
  i : Nat := 0
  msgIds : List MsgIds := []
  /-- The status text of the round that ended the call. -/
  failed : Option Text := none
  deriving DecidableEq, Repr

structure Service where
  idGen : LevelDbIdGen
  calls : List IdCall := []

inductive ServiceEvent where
  | receive (userIds : List UserAndIdNum)
  | round (call : Nat) (disk : Disk)
  deriving DecidableEq, Repr

namespace IdCall

/-- The entry of this round, while the call goes on. -/
def next (call : IdCall) : Option UserAndIdNum :=
  match call.failed with
  | none => call.userIds[call.i]?
  | some _ => none

def answered (user : UserAndIdNum) (call : IdCall) : Except Text Int → IdCall
  | .ok startMsgid =>
    { call with
      msgIds := call.msgIds ++ [⟨user.userId, startMsgid, user.needMsgidNum⟩], i := call.i + 1 }
  | .error status => { call with failed := some status }

def Succeeded (call : IdCall) : Prop := call.failed = none ∧ call.userIds.length ≤ call.i

instance (call : IdCall) : Decidable call.Succeeded :=
  inferInstanceAs (Decidable (_ ∧ _))

end IdCall

def Service.round (n : Int) (k : Nat) (disk : Disk) (s : Service) : Option Service := do
  let call ← s.calls[k]?
  let user ← call.next
  let (result, idGen) ← idGenerate n disk user.userId user.needMsgidNum s.idGen
  return { idGen, calls := s.calls.set k (call.answered user result) }

def serve (n : Int) (s : Service) : ServiceEvent → Option Service
  | .receive userIds => some { s with calls := s.calls ++ [{ userIds }] }
  | .round k disk => s.round n k disk

def AsksIds : ServiceEvent → Prop
  | .receive userIds => ∀ user ∈ userIds, 1 ≤ user.needMsgidNum
  | .round _ _ => True

instance : DecidablePred AsksIds
  | .receive userIds => inferInstanceAs (Decidable (∀ user ∈ userIds, 1 ≤ user.needMsgidNum))
  | .round _ _ => inferInstanceAs (Decidable True)

def HoldsId (ids : MsgIds) (id : Int) : Prop :=
  ids.startMsgId ≤ id ∧ id < ids.startMsgId + ids.msgIdNum

def DisjointRanges (msgIds : List MsgIds) : Prop :=
  msgIds.Pairwise fun ids other => ids.userId = other.userId →
    ∀ id, ¬ (HoldsId ids id ∧ HoldsId other id)

/-- What a successful reply says. -/
structure Aligned (userIds : List UserAndIdNum) (msgIds : List MsgIds) : Prop where
  entries : msgIds.map (fun ids => ⟨ids.userId, ids.msgIdNum⟩) = userIds
  positive : ∀ ids ∈ msgIds, 1 ≤ ids.startMsgId
  disjoint : DisjointRanges msgIds

/-- What a call has in hand at each round, when the counters of the users stand at `last`. -/
structure IdCall.Filled (last : Int → Int) (call : IdCall) : Prop where
  asks : ∀ user ∈ call.userIds, 1 ≤ user.needMsgidNum
  aligned : Aligned (call.userIds.take call.i) call.msgIds
  issued : ∀ ids ∈ call.msgIds, ids.startMsgId + ids.msgIdNum - 1 ≤ last ids.userId

structure Issuing (s : Service) : Prop where
  nonneg : ∀ u, 0 ≤ lastId s.idGen u
  calls : ∀ (k : Nat) call, s.calls[k]? = some call → call.Filled (lastId s.idGen)

variable {n : Int} {disk : Disk} {s t : Service} {call : IdCall} {user : UserAndIdNum}
  {last later : Int → Int}

theorem Aligned.append (aligned : Aligned userIds msgIds) (positive : 1 ≤ startMsgid)
    (issued : ∀ ids ∈ msgIds, ids.userId = user.userId →
      ids.startMsgId + ids.msgIdNum - 1 < startMsgid) :
    Aligned (userIds ++ [user]) (msgIds ++ [⟨user.userId, startMsgid, user.needMsgidNum⟩]) where
  entries := by
    rw [List.map_append, aligned.entries]
    rfl
  positive ids member := by
    obtain old | new := List.mem_append.mp member
    · exact aligned.positive ids old
    · rw [List.mem_singleton.mp new]
      exact positive
  disjoint := by
    refine List.pairwise_append.mpr ⟨aligned.disjoint, List.pairwise_singleton _ _, ?_⟩
    intro ids member other single same id both
    rw [List.mem_singleton] at single
    subst other
    have below := issued ids member same
    have upper := both.1.2
    have lower : startMsgid ≤ id := both.2.1
    omega

namespace IdCall.Filled

theorem grow (filled : call.Filled last) (grown : ∀ u, last u ≤ later u) : call.Filled later :=
  ⟨filled.asks, filled.aligned, fun ids member =>
    (filled.issued ids member).trans (grown ids.userId)⟩

theorem refused (filled : call.Filled last) (status : Text) :
    (call.answered user (.error status)).Filled last :=
  ⟨filled.asks, filled.aligned, filled.issued⟩

theorem served (filled : call.Filled last) (round : call.next = some user)
    (nonneg : 0 ≤ last user.userId) (grown : ∀ u, last u ≤ later u)
    (counter : later user.userId = last user.userId + user.needMsgidNum) :
    (call.answered user (.ok (last user.userId + 1))).Filled later where
  asks := filled.asks
  aligned := by
    have place : call.userIds[call.i]? = some user := by
      simp only [IdCall.next] at round
      split at round
      · exact round
      · cases round
    simp only [IdCall.answered, List.take_add_one, place, Option.toList_some]
    refine filled.aligned.append (by omega) ?_
    intro ids member same
    have bound := filled.issued ids member
    rw [same] at bound
    omega
  issued ids member := by
    obtain old | new := List.mem_append.mp member
    · exact (filled.issued ids old).trans (grown ids.userId)
    · rw [List.mem_singleton.mp new]
      simp only [counter]
      omega

end IdCall.Filled

theorem next_mem (round : call.next = some user) : user ∈ call.userIds := by
  simp only [IdCall.next] at round
  split at round
  · exact List.mem_of_getElem? round
  · cases round

theorem issuing_init (nonneg : ∀ u v, db u = some v → 0 ≤ v) : Issuing ⟨.init db, []⟩ where
  nonneg u := by
    rw [lastId_init]
    cases held : db u with
    | none => exact le_refl _
    | some v => exact nonneg u v held
  calls k call found := by cases found

theorem Issuing.round (issuing : Issuing s) (round : s.round n k disk = some t) : Issuing t := by
  simp only [Service.round, Option.bind_eq_bind, Option.bind_eq_some_iff, Option.pure_def,
    Option.some.injEq] at round
  obtain ⟨call, found, user, next, ⟨result, idGen⟩, called, rfl⟩ := round
  have filled := issuing.calls k call found
  have need1 := filled.asks user (next_mem next)
  cases result with
  | error status =>
      have kept := lastId_refused called
      refine ⟨fun u => kept ▸ issuing.nonneg u, fun j other present => ?_⟩
      simp only [kept]
      obtain ⟨-, rfl⟩ | ⟨-, old⟩ := get_set_cases present
      · exact filled.refused status
      · exact issuing.calls j other old
  | ok startMsgid =>
      obtain ⟨rfl, counter⟩ := lastId_served (issuing.nonneg user.userId) need1 called
      have grown : ∀ u, lastId s.idGen u ≤ lastId idGen u := by
        intro u
        rw [counter, Function.update_apply]
        split
        · rename_i same
          subst same
          omega
        · exact le_refl _
      refine ⟨fun u => (issuing.nonneg u).trans (grown u), fun j other present => ?_⟩
      obtain ⟨-, rfl⟩ | ⟨-, old⟩ := get_set_cases present
      · exact filled.served next (issuing.nonneg _) grown (by rw [counter, Function.update_self])
      · exact (issuing.calls j other old).grow grown

theorem issuing_serve (issuing : Issuing s) (asks : AsksIds e) (stepped : serve n s e = some t) :
    Issuing t := by
  cases e with
  | round k disk => exact issuing.round stepped
  | receive userIds =>
      cases Option.some.inj stepped
      refine ⟨issuing.nonneg, fun j other present => ?_⟩
      obtain ⟨-, rfl⟩ | old := get_push_cases present
      · exact ⟨asks, ⟨rfl, nofun, .nil⟩, nofun⟩
      · exact issuing.calls j other old

theorem reply_aligned (nonneg : ∀ u v, db u = some v → 0 ≤ v)
    (run : Run (serve n) (fun _ e => AsksIds e) ⟨.init db, []⟩ es s)
    {k : Nat} (found : s.calls[k]? = some call) (succeeded : call.Succeeded) :
    Aligned call.userIds call.msgIds := by
  have issuing : Issuing s := run.invariant Issuing
    (fun issuing asks stepped => issuing_serve issuing asks stepped) (issuing_init nonneg)
  have aligned := (issuing.calls k call found).aligned
  rwa [List.take_of_length_le succeeded.2] at aligned

end Tinyim.IdGen
