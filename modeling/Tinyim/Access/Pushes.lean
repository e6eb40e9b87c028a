import Mathlib.Data.List.Nodup
import Tinyim.Access.Completion

/-! What becomes of a pushed message. An entry holds one poll and no queue, so a push is carried
by the poll that it finds or by nothing. -/
namespace Tinyim.Access
open Transition

namespace Service
variable {s s' : Service} {u v : Int} {call : Nat} {msg : Msg} {log : List (Nat × Msg)}
  {es : List Event} {e : Event}

def taken (s : Service) : Event → Option (Nat × Msg)
  | .sendtoAccess msg => ((s.entry msg.userId).bind Data.done).map (·, msg)
  | .pullData _ _ | .heartBeat _ _ | .sendMsg _ _ | .complete _ | .fire _ | .clearUserData _
  | .handlerReturns _ => none

/-- The pushes that found a poll along a run, in the order in which they took it. -/
def accepted (s : Service) : List Event → List (Nat × Msg)
  | [] => []
  | e :: es => (s.taken e).toList ++
      match s.step e with
      | some s' => accepted s' es
      | none => []

/-- Every push of the log has its own poll, which waits for its completion or carries the push
alone; replies have no other contents. -/
structure PushLedger (log : List (Nat × Msg)) (s : Service) : Prop where
  custody : s.Custody
  owner : ∀ call msg, (call, msg) ∈ log → s.pulls[call]? = some msg.userId
  placed : ∀ call msg, (call, msg) ∈ log →
    .sendtoAccess call (some call) msg ∈ s.held ∧ s.replies call = [] ∨
      s.replies call = [msg] ∧ call ∈ s.ran
  logged : ∀ call msgs msg, .sendtoAccess call msgs msg ∈ s.held →
    msgs = some call ∧ (call, msg) ∈ log
  answered : ∀ call msg, msg ∈ s.replies call → (call, msg) ∈ log
  once : (log.map Prod.fst).Nodup
  ordered : log.Pairwise fun earlier later =>
    earlier.2.userId = later.2.userId → earlier.1 < later.1
  behind : ∀ call msg, (call, msg) ∈ log → ∀ stored,
    (s.entry msg.userId).bind Data.done = some stored → call < stored

theorem initial_pushLedger : PushLedger [] {} where
  custody := initial_custody
  owner _ _ member := absurd member List.not_mem_nil
  placed _ _ member := absurd member List.not_mem_nil
  logged _ _ _ member := absurd member List.not_mem_nil
  answered _ _ member := absurd member List.not_mem_nil
  once := .nil
  ordered := .nil
  behind _ _ member := absurd member List.not_mem_nil

theorem PushLedger.kept (ledger : PushLedger log s) (custody : s'.Custody)
    (pulls : ∀ (call : Nat) u, s.pulls[call]? = some u → s'.pulls[call]? = some u)
    (held : ∃ more, s'.held = s.held ++ more ∧ ∀ call msgs msg, .sendtoAccess call msgs msg ∉ more)
    (replies : s'.replies = s.replies) (ran : s'.ran = s.ran)
    (stored : ∀ v call, (s'.entry v).bind Data.done = some call →
      (s.entry v).bind Data.done = some call ∨ s.pulls.length ≤ call) : PushLedger log s' where
  custody := custody
  owner call msg member := pulls call _ (ledger.owner call msg member)
  placed call msg member := by
    obtain ⟨more, held, -⟩ := held
    rw [replies, ran, held]
    exact (ledger.placed call msg member).imp_left (And.imp_left (List.mem_append_left _))
  logged call msgs msg member := by
    obtain ⟨more, held, others⟩ := held
    rw [held] at member
    obtain old | new := List.mem_append.mp member
    · exact ledger.logged call msgs msg old
    · exact absurd new (others call msgs msg)
  answered call msg member := ledger.answered call msg (replies ▸ member)
  once := ledger.once
  ordered := ledger.ordered
  behind call msg member last present := by
    obtain old | new := stored msg.userId last present
    · exact ledger.behind call msg member last old
    · have bound := (List.getElem?_eq_some_iff.mp (ledger.owner call msg member)).1
      omega

theorem PushLedger.quiet (ledger : PushLedger log s) (custody : s'.Custody)
    (polls : SamePolls s s')
    (stored : ∀ v call, (s'.entry v).bind Data.done = some call →
      (s.entry v).bind Data.done = some call) : PushLedger log s' :=
  ledger.kept custody (fun _ _ owner => by rw [polls.pulls, owner])
    ⟨[], by rw [polls.held, List.append_nil], fun _ _ _ => List.not_mem_nil⟩
    polls.replies polls.ran fun v call present => .inl (stored v call present)

theorem PushLedger.fresh (ledger : PushLedger log s)
    (found : (s.entry u).bind Data.done = some call) (msg : Msg) : (call, msg) ∉ log := by
  intro member
  have user := (ledger.owner call msg member).symm.trans (ledger.custody.owner found)
  rw [Option.some.injEq] at user
  exact absurd (ledger.behind call msg member call (user ▸ found)) (lt_irrefl _)

theorem PushLedger.taken (ledger : PushLedger log s) (custody : s'.Custody)
    (found : (s.entry msg.userId).bind Data.done = some call)
    (emptied : ∀ v, v ≠ msg.userId → s'.entry v = s.entry v)
    (empty : (s'.entry msg.userId).bind Data.done = none)
    (held : s'.held = s.held ++ [.sendtoAccess call (some call) msg])
    (pulls : s'.pulls = s.pulls) (replies : s'.replies = s.replies) (ran : s'.ran = s.ran) :
    PushLedger (log ++ [(call, msg)]) s' := by
  have mine := ledger.custody.owner found
  have fresh := ledger.fresh found
  have unanswered : s.replies call = [] := by
    rw [List.eq_nil_iff_forall_not_mem]
    intro other member
    exact fresh other (ledger.answered call other member)
  exact {
    custody := custody
    owner := by
      intro c m member
      rw [pulls]
      obtain old | new := List.mem_append.mp member
      · exact ledger.owner c m old
      · cases List.mem_singleton.mp new
        exact mine
    placed := by
      intro c m member
      rw [replies, ran, held]
      obtain old | new := List.mem_append.mp member
      · exact (ledger.placed c m old).imp_left (And.imp_left (List.mem_append_left _))
      · cases List.mem_singleton.mp new
        exact .inl ⟨List.mem_append_right _ List.mem_cons_self, unanswered⟩
    logged := by
      intro c msgs m member
      rw [held] at member
      obtain old | new := List.mem_append.mp member
      · obtain ⟨same, logged⟩ := ledger.logged c msgs m old
        exact ⟨same, List.mem_append_left _ logged⟩
      · cases List.mem_singleton.mp new
        exact ⟨rfl, List.mem_append_right _ List.mem_cons_self⟩
    answered := by
      intro c m member
      rw [replies] at member
      exact List.mem_append_left _ (ledger.answered c m member)
    once := by
      rw [List.map_append, List.nodup_append]
      refine ⟨ledger.once, List.nodup_singleton _, ?_⟩
      rintro c present _ single rfl
      obtain ⟨⟨other, m⟩, member, rfl⟩ := List.mem_map.mp present
      obtain rfl : other = call := List.mem_singleton.mp single
      exact fresh m member
    ordered := by
      refine List.pairwise_append.mpr ⟨ledger.ordered, List.pairwise_singleton _ _, ?_⟩
      intro earlier member later single user
      rw [List.mem_singleton] at single
      subst single
      exact ledger.behind earlier.1 earlier.2 member call (user ▸ found)
    behind := by
      intro c m member last present
      by_cases same : m.userId = msg.userId
      · rw [same, empty] at present
        cases present
      · rw [emptied _ same] at present
        obtain old | new := List.mem_append.mp member
        · exact ledger.behind c m old last present
        · cases List.mem_singleton.mp new
          exact absurd rfl same }

theorem mem_eraseIdx_of_ne {slots : List α} {place : Nat} (found : slots[place]? = some gone)
    (member : x ∈ slots) (different : x ≠ gone) : x ∈ slots.eraseIdx place := by
  obtain ⟨i, here⟩ := List.mem_iff_getElem?.mp member
  refine List.mem_eraseIdx_iff_getElem?.mpr ⟨i, ?_, here⟩
  rintro rfl
  exact different (Option.some.inj (here.symm.trans found))

theorem PushLedger.completed (ledger : PushLedger log s) (custody : s'.Custody)
    (found : s.held[place]? = some completion)
    (other : ∀ call msgs msg, completion ≠ .sendtoAccess call msgs msg)
    (held : s'.held = s.held.eraseIdx place) (ran : ∀ call, call ∈ s.ran → call ∈ s'.ran)
    (replies : s'.replies = s.replies) (pulls : s'.pulls = s.pulls) (entry : s'.entry = s.entry) :
    PushLedger log s' where
  custody := custody
  owner call msg member := by
    rw [pulls]
    exact ledger.owner call msg member
  placed call msg member := by
    rw [replies, held]
    obtain ⟨waiting, empty⟩ | ⟨carried, done⟩ := ledger.placed call msg member
    · exact .inl ⟨mem_eraseIdx_of_ne found waiting (Ne.symm (other call _ msg)), empty⟩
    · exact .inr ⟨carried, ran call done⟩
  logged call msgs msg member := by
    rw [held] at member
    exact ledger.logged call msgs msg (List.mem_of_mem_eraseIdx member)
  answered call msg member := ledger.answered call msg (replies ▸ member)
  once := ledger.once
  ordered := ledger.ordered
  behind call msg member stored present := by
    rw [entry] at present
    exact ledger.behind call msg member stored present

theorem PushLedger.unanswered (ledger : PushLedger log s)
    (waiting : .sendtoAccess call msgs msg ∈ s.held) : s.replies call = [] := by
  obtain ⟨-, logged⟩ := ledger.logged call msgs msg waiting
  obtain ⟨-, empty⟩ | ⟨-, done⟩ := ledger.placed call msg logged
  · exact empty
  · have once := ledger.custody.once call msg.userId (ledger.owner call msg logged)
    have held : 0 < s.heldBy call := List.countP_pos_iff.mpr ⟨_, waiting, by simp [Completion.done]⟩
    have ran : 0 < s.timesRun call := List.count_pos_iff.mpr done
    omega

theorem PushLedger.replied (ledger : PushLedger log s) (custody : s'.Custody)
    (found : s.held[place]? = some (.sendtoAccess call msgs msg))
    (held : s'.held = s.held.eraseIdx place) (ran : s'.ran = s.ran ++ [call])
    (replies : s'.replies = Function.update s.replies call (s.replies call ++ [msg]))
    (pulls : s'.pulls = s.pulls) (entry : s'.entry = s.entry) : PushLedger log s' := by
  have waiting := List.mem_of_getElem? found
  obtain ⟨-, logged⟩ := ledger.logged call msgs msg waiting
  rw [ledger.unanswered waiting, List.nil_append] at replies
  exact {
    custody := custody
    owner := by
      intro c m member
      rw [pulls]
      exact ledger.owner c m member
    placed := by
      intro c m member
      rw [replies, ran, held]
      by_cases same : c = call
      · obtain rfl : m = msg := congrArg Prod.snd
          (List.inj_on_of_nodup_map ledger.once member logged same)
        subst same
        rw [Function.update_self]
        exact .inr ⟨rfl, List.mem_append_right _ List.mem_cons_self⟩
      · rw [Function.update_of_ne same]
        obtain ⟨still, empty⟩ | ⟨carried, done⟩ := ledger.placed c m member
        · refine .inl ⟨mem_eraseIdx_of_ne found still ?_, empty⟩
          rintro ⟨⟩
          exact same rfl
        · exact .inr ⟨carried, List.mem_append_left _ done⟩
    logged := by
      intro c ms m member
      rw [held] at member
      exact ledger.logged c ms m (List.mem_of_mem_eraseIdx member)
    answered := by
      intro c m member
      rw [replies] at member
      by_cases same : c = call
      · subst same
        rw [Function.update_self, List.mem_singleton] at member
        rw [member]
        exact logged
      · rw [Function.update_of_ne same] at member
        exact ledger.answered c m member
    once := ledger.once
    ordered := ledger.ordered
    behind := by
      intro c m member stored present
      rw [entry] at present
      exact ledger.behind c m member stored present }

theorem complete_pushLedger (ledger : PushLedger log s) (found : s.held[place]? = some completion)
    (done : complete { s with held := s.held.eraseIdx place } completion = some s') :
    PushLedger log s' := by
  have custody := completed_custody ledger.custody found done
  cases completion with
  | lazyRun call =>
      cases done
      exact ledger.completed custody found (fun _ _ _ => nofun) rfl
        (fun _ => List.mem_append_left _) rfl rfl rfl
  | sendtoAccess call msgs msg =>
      obtain ⟨rfl, -⟩ := ledger.logged call msgs msg (List.mem_of_getElem? found)
      cases done
      exact ledger.replied custody found rfl rfl rfl rfl rfl
  | clearUserData originData timer =>
      obtain ⟨cntl, -, rest⟩ := Option.bind_eq_some_iff.mp done
      obtain ⟨call, -, same⟩ := Option.bind_eq_some_iff.mp rest
      cases same
      exact ledger.completed custody found (fun _ _ _ => nofun) rfl
        (fun _ => List.mem_append_left _) rfl rfl rfl

theorem PushLedger.pulled (ledger : PushLedger log s) (custody : s'.Custody)
    (entry : s'.entry = Function.update s.entry u (some data))
    (ofCall : data.OfCall s.pulls.length)
    (held : s'.held = s.held ++ ((s.entry u).bind Data.done).toList.map .lazyRun)
    (pulls : s'.pulls = s.pulls ++ [u]) (replies : s'.replies = s.replies)
    (ran : s'.ran = s.ran) : PushLedger log s' := by
  refine ledger.kept custody ?_ ⟨_, held, ?_⟩ replies ran ?_
  · intro call v owner
    rw [pulls, List.getElem?_append_left (List.getElem?_eq_some_iff.mp owner).1, owner]
  · intro call msgs msg member
    obtain ⟨_, -, absurd⟩ := List.mem_map.mp member
    cases absurd
  · intro v call present
    rw [entry, Function.update_apply] at present
    split at present
    · rw [Option.bind_some, ofCall.1] at present
      exact .inr (Option.some.inj present).le
    · exact .inl present

theorem PushLedger.popped (ledger : PushLedger log s) (custody : s'.Custody)
    (found : s.entry msg.userId = some data)
    (entry : s'.entry = Function.update s.entry msg.userId
      (some { data with done := none, msgs := none, cntl := none }))
    (held : s'.held = s.held ++ data.done.toList.map (.sendtoAccess · data.msgs msg))
    (pulls : s'.pulls = s.pulls) (replies : s'.replies = s.replies) (ran : s'.ran = s.ran) :
    PushLedger (log ++ (s.taken (.sendtoAccess msg)).toList) s' := by
  have emptied : ∀ v, v ≠ msg.userId → s'.entry v = s.entry v := fun v other => by
    rw [entry, Function.update_of_ne other]
  have empty : (s'.entry msg.userId).bind Data.done = none := by
    rw [entry, Function.update_self]
    rfl
  cases waiting : data.done with
  | none =>
      have nothing : s.taken (.sendtoAccess msg) = none := by simp [Service.taken, found, waiting]
      rw [nothing, Option.toList_none, List.append_nil]
      rw [waiting] at held
      refine ledger.kept custody (fun _ _ owner => by rw [pulls, owner])
        ⟨[], held, fun _ _ _ => List.not_mem_nil⟩ replies ran ?_
      intro v call present
      by_cases same : v = msg.userId
      · rw [same, empty] at present
        cases present
      · rw [emptied v same] at present
        exact .inl present
  | some call =>
      have took : s.taken (.sendtoAccess msg) = some (call, msg) := by
        simp [Service.taken, found, waiting]
      rw [took]
      have stored : (s.entry msg.userId).bind Data.done = some call := by
        rw [found, Option.bind_some, waiting]
      obtain ⟨nothing, -⟩ | ⟨c, -, done, msgs, -⟩ := ledger.custody.fields _ data found
      · cases nothing.symm.trans waiting
      · cases done.symm.trans waiting
        rw [waiting, msgs] at held
        exact ledger.taken custody stored emptied empty held pulls replies ran

theorem step_pushLedger (ledger : PushLedger log s) (stepped : s.step e = some s') :
    PushLedger (log ++ (s.taken e).toList) s' := by
  have custody := step_custody ledger.custody stepped
  have quiet : s'.entry = s.entry ∧ SamePolls s s' → PushLedger log s' := by
    rintro ⟨entry, polls⟩
    refine ledger.quiet custody polls ?_
    intro v call present
    rwa [entry] at present
  cases moves_of_step stepped with
  | pulled arms ofCall _ held pulls replies _ ran =>
      simp only [taken, Option.toList_none, List.append_nil]
      exact ledger.pulled custody arms.entry ofCall held pulls replies ran
  | refreshed signal arms _ old polls =>
      have nothing : s.taken e = none := by obtain rfl | rfl := signal <;> rfl
      rw [nothing, Option.toList_none, List.append_nil]
      refine ledger.quiet custody polls ?_
      intro v call present
      rw [arms.entry, Function.update_apply] at present
      split at present
      · rename_i same
        subst same
        rw [old] at present
        cases before : s.entry v with
        | none => rw [before] at present; cases present
        | some data => rw [before] at present; exact present
      · exact present
  | popped found entry held pulls replies _ ran _ =>
      exact ledger.popped custody found entry held pulls replies ran
  | @unserved msg absent same =>
      subst same
      have nothing : s'.taken (.sendtoAccess msg) = none := by simp [taken, absent]
      rw [nothing, Option.toList_none, List.append_nil]
      exact ledger
  | completed found done =>
      simp only [taken, Option.toList_none, List.append_nil]
      exact complete_pushLedger ledger found done
  | fired _ moved =>
      simp only [taken, Option.toList_none, List.append_nil]
      exact quiet (quiet_of_mark moved)
  | cleared _ present entry _ held pulls replies _ ran =>
      simp only [taken, Option.toList_none, List.append_nil]
      refine ledger.kept custody (fun _ _ owner => by rw [pulls, owner]) ⟨_, held, ?_⟩
        replies ran ?_
      · intro call msgs msg member
        split at member
        · cases List.mem_singleton.mp member
        · exact List.not_mem_nil member
      · intro v call stored
        rw [entry, Function.update_apply] at stored
        split at stored
        · cases stored
        · exact .inl stored
  | vacant _ _ moved =>
      simp only [taken, Option.toList_none, List.append_nil]
      exact quiet (quiet_of_mark moved)
  | returned _ _ moved =>
      simp only [taken, Option.toList_none, List.append_nil]
      exact quiet (quiet_of_mark moved)

def caller : Event → Option Int
  | .pullData u _ => some u
  | .heartBeat _ _ | .sendMsg _ _ | .sendtoAccess _ | .complete _ | .fire _ | .clearUserData _
  | .handlerReturns _ => none

theorem pulls_step (stepped : s.step e = some s') : s'.pulls = s.pulls ++ (caller e).toList := by
  have unchanged : caller e = none → s'.pulls = s.pulls →
      s'.pulls = s.pulls ++ (caller e).toList := by
    intro nobody same
    rw [nobody, same, Option.toList_none, List.append_nil]
  cases moves_of_step stepped with
  | pulled _ _ _ _ pulls => exact pulls
  | refreshed signal _ _ _ polls =>
      refine unchanged ?_ polls.pulls
      obtain rfl | rfl := signal <;> rfl
  | popped _ _ _ pulls => exact unchanged rfl pulls
  | unserved _ same => exact unchanged rfl (congrArg pulls same)
  | @completed _ completion _ done =>
      refine unchanged rfl ?_
      cases completion with
      | lazyRun call =>
          cases done
          rfl
      | sendtoAccess call msgs msg =>
          obtain ⟨_, -, made⟩ := Option.bind_eq_some_iff.mp done
          cases made
          rfl
      | clearUserData data timer =>
          obtain ⟨_, -, rest⟩ := Option.bind_eq_some_iff.mp done
          obtain ⟨_, -, made⟩ := Option.bind_eq_some_iff.mp rest
          cases made
          rfl
  | fired _ moved => exact unchanged rfl (quiet_of_mark moved).2.pulls
  | cleared _ _ _ _ _ pulls => exact unchanged rfl pulls
  | vacant _ _ moved => exact unchanged rfl (quiet_of_mark moved).2.pulls
  | returned _ _ moved => exact unchanged rfl (quiet_of_mark moved).2.pulls

theorem pulls_kept (stepped : s.step e = some s') {call : Nat} (owner : s.pulls[call]? = some u) :
    s'.pulls[call]? = some u := by
  rw [pulls_step stepped, List.getElem?_append_left (List.getElem?_eq_some_iff.mp owner).1, owner]

theorem run_pushLedger (ledger : PushLedger log s) (run : Run step allowed s es s') :
    PushLedger (log ++ accepted s es) s' := by
  induction run generalizing log with
  | refl => rwa [accepted, List.append_nil]
  | next _ moved _ ih =>
      have rest := ih (step_pushLedger ledger moved)
      rw [List.append_assoc] at rest
      simpa only [accepted, moved] using rest

/-- Every push that has found a poll is the whole reply of that poll once its completion has
run, replies have no other contents, and the pushes of a user take its polls in order. -/
theorem accepted_pushes_answered (run : Run step AnyOrder {} es s) :
    (∀ call msg, (call, msg) ∈ accepted {} es → s.pulls[call]? = some msg.userId ∧
      (s.replies call = [msg] ∧ call ∈ s.ran ∨
        s.replies call = [] ∧ .sendtoAccess call (some call) msg ∈ s.held)) ∧
    (∀ call msg, msg ∈ s.replies call → (call, msg) ∈ accepted {} es) ∧
    ((accepted {} es).map Prod.fst).Nodup ∧
    (accepted {} es).Pairwise fun earlier later =>
      earlier.2.userId = later.2.userId → earlier.1 < later.1 := by
  have ledger := run_pushLedger initial_pushLedger run
  rw [List.nil_append] at ledger
  refine ⟨?_, ledger.answered, ledger.once, ledger.ordered⟩
  intro call msg member
  refine ⟨ledger.owner call msg member, ?_⟩
  obtain ⟨waiting, empty⟩ | answered := ledger.placed call msg member
  · exact .inr ⟨empty, waiting⟩
  · exact .inl answered

def pushTo7 (msgId : Int) : Msg := ⟨7, msgId, 8, 7, "hi".toList, 0, 100, 50⟩

/-- Two pushes, each of which finds a poll. -/
def pushesInTurn : List Event :=
  [.pullData 7 1, .sendtoAccess (pushTo7 1), .complete 0, .heartBeat 7 2, .pullData 7 3,
    .sendtoAccess (pushTo7 2), .complete 0]

theorem accepted_pushes_answered_two :
    ∃ s, Run step AnyOrder {} pushesInTurn s ∧
      accepted {} pushesInTurn = [(0, pushTo7 1), (1, pushTo7 2)] ∧
      s.replies 0 = [pushTo7 1] ∧ s.replies 1 = [pushTo7 2] := by
  obtain ⟨s, run, settled⟩ : ∃ s, Run step AnyOrder {} pushesInTurn s ∧ _ :=
    Run.of_check step (fun _ _ => true) {} pushesInTurn (fun s => decide (s.held = []))
      (fun _ _ _ => trivial) (by decide)
  have settled := of_decide_eq_true settled
  have log : accepted {} pushesInTurn = [(0, pushTo7 1), (1, pushTo7 2)] := by decide
  have answered := (accepted_pushes_answered run).1
  rw [log, settled] at answered
  refine ⟨s, run, log, ?_, ?_⟩
  · obtain ⟨-, ⟨reply, -⟩ | ⟨-, waits⟩⟩ := answered 0 (pushTo7 1) (by decide)
    · exact reply
    · exact absurd waits List.not_mem_nil
  · obtain ⟨-, ⟨reply, -⟩ | ⟨-, waits⟩⟩ := answered 1 (pushTo7 2) (by decide)
    · exact reply
    · exact absurd waits List.not_mem_nil

/-- The second push comes before the user has polled again. -/
def pushBetweenPolls : List Event :=
  [.pullData 7 1, .sendtoAccess (pushTo7 1), .complete 0, .sendtoAccess (pushTo7 2),
    .heartBeat 7 2, .pullData 7 3]

/-- Both calls are answered without failure and the second message is in no reply. -/
theorem push_between_polls_lost :
    ∃ s, Run step AnyOrder {} pushBetweenPolls s ∧ s.held = [] ∧ s.replies 0 = [pushTo7 1] ∧
      ∀ call, pushTo7 2 ∉ s.replies call := by
  obtain ⟨s, run, checked⟩ : ∃ s, Run step AnyOrder {} pushBetweenPolls s ∧ _ :=
    Run.of_check step (fun _ _ => true) {} pushBetweenPolls
      (fun s => decide (s.held = [] ∧ s.replies 0 = [pushTo7 1])) (fun _ _ _ => trivial) (by decide)
  obtain ⟨settled, first⟩ := of_decide_eq_true checked
  refine ⟨s, run, settled, first, ?_⟩
  intro call member
  have ledger := run_pushLedger initial_pushLedger run
  have logged := ledger.answered call (pushTo7 2) member
  have log : accepted {} pushBetweenPolls = [(0, pushTo7 1)] := by decide
  rw [List.nil_append, log, List.mem_singleton] at logged
  have same : (2 : Int) = 1 := congrArg (fun entry => entry.2.msgId) logged
  exact absurd same (by decide)

end Service
end Tinyim.Access
