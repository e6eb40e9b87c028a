import Tinyim.Delivery.Contract

/-! Ids while idgen keeps running: every id that an attempt holds is below the counter
of its user, and no two attempts hold the same id of a user. -/
namespace Tinyim.Delivery
open IdGen Dbproxy Logic Transition

/-- idgen does not restart, and a request whose reply is lost asks for ids as any other does. -/
def KeepsIds : Event → Prop
  | .idgenRestarts => False
  | .strayIds _ _ needMsgidNum => 1 ≤ needMsgidNum
  | _ => True

structure Numbered (w : World) : Prop where
  nonneg : ∀ userId, 0 ≤ lastId w.idgen userId
  issued : ∀ (a : Nat) att, w.attempts[a]? = some att → ∀ ids ∈ att.idReply,
    ids.startMsgId ≤ lastId w.idgen ids.userId
  distinct : ∀ (a b : Nat) left right, w.attempts[a]? = some left → w.attempts[b]? = some right →
    a ≠ b → ∀ ids ∈ left.idReply, ∀ other ∈ right.idReply, ids.userId = other.userId →
      ids.startMsgId ≠ other.startMsgId

instance : DecidablePred KeepsIds
  | .idgenRestarts => inferInstanceAs (Decidable False)
  | .strayIds _ _ needMsgidNum => inferInstanceAs (Decidable (1 ≤ needMsgidNum))
  | .start _ | .redisGet .. | .select .. | .lookedUp _ | .groupMembers .. | .idGenerate ..
  | .idReplied .. | .saveArrives _ | .insert .. | .setLastSend .. | .saveReplied ..
  | .rpcFails .. | .redisExpires _ => inferInstanceAs (Decidable True)

variable {listed : Int → List Int → Prop} {n : Int} {w w₀ w' : World} {e : Event} {a : Nat}
  {att next : Attempt}

theorem nextUser_need (consistent : Consistent listed w) (found : w.attempts[a]? = some att)
    (user : att.nextUser = some requested) : requested.needMsgidNum = 1 := by
  obtain ⟨idRequest, stage, place⟩ := nextUser_eq_some user
  have shape := consistent.shape a att found
  simp only [Attempt.Shape, stage] at shape
  exact shape.1.need (List.mem_of_getElem? place)

theorem numbered_fresh (fresh : Fresh w) : Numbered w where
  nonneg userId := by simp [fresh.idgen]
  issued a att found := by simp [fresh.attempts] at found
  distinct a b left right found := by simp [fresh.attempts] at found

namespace Numbered

theorem lastId_le (numbered : Numbered w) (consistent : Consistent listed w) (keeps : KeepsIds e)
    (moved : Moves n w e w') (userId : Int) : lastId w.idgen userId ≤ lastId w'.idgen userId := by
  have grown : ∀ {disk user need startId idgen}, 1 ≤ need →
      IdGen.idGenerate n disk user need w.idgen = some (.ok startId, idgen) →
      lastId w.idgen userId ≤ lastId idgen userId := by
    intro disk user need startId idgen positive served
    rw [(lastId_served (numbered.nonneg user) positive served).2, Function.update_apply]
    split
    · rename_i same
      subst same
      omega
    · exact le_refl _
  cases moved with
  | identified found user served =>
      exact grown (by rw [nextUser_need consistent found user]) served
  | idRefused found user served =>
      exact (congrFun (lastId_refused served) userId).ge
  | strayed served =>
      rename_i result idgen
      cases result with
      | ok startId => exact grown keeps served
      | error reason => exact (congrFun (lastId_refused served) userId).ge
  | idgenRestarted => exact keeps.elim
  | started | advanced | saveArrived | inserted | insertRefused | lastSendSet
  | redisExpired => exact le_refl _

theorem id_before (numbered : Numbered w) (consistent : Consistent listed w)
    (moved : Moves n w e w') (found : w'.attempts[a]? = some next) (held : ids ∈ next.idReply) :
    (∃ att, w.attempts[a]? = some att ∧ next.newMsg = att.newMsg ∧ ids ∈ att.idReply) ∨
      ∃ disk, e = .idGenerate a disk ∧ ids.startMsgId = lastId w.idgen ids.userId + 1 ∧
        ids.startMsgId ≤ lastId w'.idgen ids.userId := by
  obtain ⟨m, -, rfl, -⟩ | ⟨att, present, evolved⟩ := attempt_before moved found
  · exact absurd held List.not_mem_nil
  · have same := evolved.newMsg
    cases evolved with
    | kept | idRefused => exact .inl ⟨_, present, rfl, held⟩
    | advanced adv =>
        refine .inl ⟨att, present, same, ?_⟩
        cases adv <;> exact held
    | identified user served =>
        obtain old | new := List.mem_append.mp held
        · exact .inl ⟨att, present, rfl, old⟩
        · rw [List.mem_singleton] at new
          subst new
          have need := nextUser_need consistent present user
          obtain ⟨start, counter⟩ :=
            lastId_served (numbered.nonneg _) (by rw [need]) served
          refine .inr ⟨_, rfl, start, ?_⟩
          rw [counter, Function.update_self, start, need]

theorem step (numbered : Numbered w) (consistent : Consistent listed w)
    (grows : ∀ userId, lastId w.idgen userId ≤ lastId w'.idgen userId)
    (moved : Moves n w e w') : Numbered w' where
  nonneg userId := (numbered.nonneg userId).trans (grows userId)
  issued a att found ids held := by
    obtain ⟨old, present, -, before⟩ | ⟨_, -, -, bounded⟩ :=
      numbered.id_before consistent moved found held
    · exact (numbered.issued a old present ids before).trans (grows ids.userId)
    · exact bounded
  distinct a b left right leftFound rightFound different ids held other held' user := by
    obtain ⟨old, present, -, before⟩ | ⟨_, rfl, fresh, -⟩ :=
      numbered.id_before consistent moved leftFound held
    · obtain ⟨old', present', -, before'⟩ | ⟨_, -, fresh', -⟩ :=
        numbered.id_before consistent moved rightFound held'
      · exact numbered.distinct a b old old' present present' different ids before other
          before' user
      · have bound := numbered.issued a old present ids before
        rw [← user] at fresh'
        omega
    · obtain ⟨old', present', -, before'⟩ | ⟨_, same, -, -⟩ :=
        numbered.id_before consistent moved rightFound held'
      · have bound := numbered.issued b old' present' other before'
        rw [← user] at bound
        omega
      · exact absurd (Event.idGenerate.inj same).1 different

end Numbered
end Tinyim.Delivery
