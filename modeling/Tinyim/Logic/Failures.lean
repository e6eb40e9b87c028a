import Tinyim.Logic.SendtoPeers

/-! One execution of `SendMsg` from its first line to its return, with the remote calls
that it makes and what it tells its caller when one of them fails. -/
namespace Tinyim.Logic
open Dbproxy

inductive Remote where
  | getUserLastSendData
  | getGroupMembers
  | idGenerate
  | savePrivateMsg
  | saveGroupMsg
  deriving DecidableEq, Repr

/-- How each remote call ends, in case it is made, and the clock. -/
structure Rpcs where
  getUserLastSendData : Rpc UserLastSendData
  getGroupMembers : Rpc (List Int)
  idGenerate : Rpc (List MsgIds)
  save : Rpc Unit
  msgTime : Int

structure Execution where
  /-- The calls in their order, each with the error of its controller, if it has failed. -/
  made : List (Remote × Option RpcError)
  outcome : Outcome
  deriving DecidableEq, Repr

def failure : Rpc α → Option RpcError
  | .error error => some error
  | .ok _ => none

def Execution.after (call : Remote) (x : Execution) : Execution :=
  { x with made := (call, none) :: x.made }

def saveCall (m : NewMsg) : Remote :=
  match m.msgType with
  | .PRIVATE => .savePrivateMsg
  | .GROUP => .saveGroupMsg

/-- From the id reply on; `none` is an index outside it. -/
def saving (m : NewMsg) (rpcs : Rpcs) (idRequest : List UserAndIdNum) (idReply : List MsgIds) :
    Option Execution := do
  let request ← saveRequest m idReply rpcs.msgTime
  match afterSave m idRequest idReply request rpcs.save with
  | .finished outcome => some ⟨[(saveCall m, failure rpcs.save)], outcome⟩
  | _ => none

def generating (m : NewMsg) (rpcs : Rpcs) (idRequest : List UserAndIdNum) : Option Execution :=
  match rpcs.idGenerate with
  | .error error => some ⟨[(.idGenerate, some error)], .failed error⟩
  | .ok idReply => (saving m rpcs idRequest idReply).map (.after .idGenerate)

def listing (m : NewMsg) (rpcs : Rpcs) : Option Execution :=
  match afterGetGroupMembers m rpcs.getGroupMembers with
  | .finished outcome => some ⟨[(.getGroupMembers, failure rpcs.getGroupMembers)], outcome⟩
  | .idGenerate idRequest => (generating m rpcs idRequest).map (.after .getGroupMembers)
  | _ => none

def sendMsg (m : NewMsg) (rpcs : Rpcs) : Option Execution :=
  match afterGetUserLastSendData m rpcs.getUserLastSendData with
  | .finished outcome =>
    some ⟨[(.getUserLastSendData, failure rpcs.getUserLastSendData)], outcome⟩
  | .idGenerate idRequest => (generating m rpcs idRequest).map (.after .getUserLastSendData)
  | .getGroupMembers => (listing m rpcs).map (.after .getUserLastSendData)
  | _ => none

/-- What a printf format prints when no argument is passed; `none` where it asks for one. -/
def printed : Text → Option Text
  | [] => some []
  | '%' :: '%' :: format => (printed format).map ('%' :: ·)
  | '%' :: _ => none
  | c :: format => (printed format).map (c :: ·)

/-- `SetFailed(code, text.c_str())` with the code and the text `given` reports the error:
the text is taken for a format. -/
def ReportsError (given error : RpcError) : Prop :=
  given.code = error.code ∧ printed (cStr given.text) = some error.text

/-- The caller learns of the failed call, and nothing happens after it. -/
structure Reports (x : Execution) : Prop where
  exactly : (∃ given, x.outcome = .failed given) ↔ ∃ call error, (call, some error) ∈ x.made
  error : ∀ call error, (call, some error) ∈ x.made →
    ∃ given, x.outcome = .failed given ∧ ReportsError given error
  last : ∀ call error, (call, some error) ∈ x.made → x.made.getLast? = some (call, some error)
  unanswered : ∀ call error, (call, some error) ∈ x.made → x.outcome.reply? = none
  unpushed : ∀ call error, (call, some error) ∈ x.made →
    ∀ reply args, x.outcome ≠ .accepted reply args

/-- The text is the same as a C string and as a format. -/
def Plain (text : Text) : Prop := '%' ∉ text ∧ nul ∉ text

/-- The text is plain if the call fails, and `next` holds if it succeeds. -/
def PlainUntil (result : Rpc α) (next : Prop) : Prop :=
  match result with
  | .error error => Plain error.text
  | .ok _ => next

def SaveSurfaces (m : NewMsg) (rpcs : Rpcs) : Prop :=
  match m.msgType with
  | .PRIVATE => PlainUntil rpcs.save True
  | .GROUP => rpcs.save = .ok ()

/-- The call that fails, if any, has a plain text, and it is not the save of a group message. -/
def Surfaces (m : NewMsg) (rpcs : Rpcs) : Prop :=
  match rpcs.getUserLastSendData with
  | .error error => Plain error.text
  | .ok data => data.clientTime = m.clientTime ∨
    match m.msgType with
    | .PRIVATE => PlainUntil rpcs.idGenerate (SaveSurfaces m rpcs)
    | .GROUP =>
      PlainUntil rpcs.getGroupMembers (PlainUntil rpcs.idGenerate (SaveSurfaces m rpcs))

/-- The ways an execution ends: without a failed call, with the error of its last call, or
with the error of the id controller, which has none, in place of it. -/
inductive Ended (surfaces : Prop) : Execution → Prop where
  | clean (calls : List Remote) (unfailed : ∀ given, outcome ≠ .failed given)
      (surfaced : surfaces) : Ended surfaces ⟨calls.map (·, none), outcome⟩
  | reported (calls : List Remote) (surfaced : surfaces ↔ Plain error.text) :
      Ended surfaces ⟨calls.map (·, none) ++ [(call, some error)], .failed error⟩
  | mistaken (calls : List Remote) (hidden : ¬ surfaces) :
      Ended surfaces ⟨calls.map (·, none) ++ [(.saveGroupMsg, some error)], .failed ⟨0, []⟩⟩

variable {m : NewMsg} {rpcs : Rpcs} {x : Execution} {given error : RpcError}

theorem Ended.after (ended : Ended surfaces x) (call : Remote) :
    Ended surfaces (x.after call) := by
  cases ended with
  | clean calls unfailed surfaced => exact .clean (call :: calls) unfailed surfaced
  | reported calls surfaced => exact .reported (call :: calls) surfaced
  | mistaken calls hidden => exact .mistaken (call :: calls) hidden

theorem saving_ended (ran : saving m rpcs idRequest idReply = some x) :
    Ended (SaveSurfaces m rpcs) x := by
  simp only [saving, Option.bind_eq_bind, Option.bind_eq_some_iff] at ran
  obtain ⟨request, built, ran⟩ := ran
  cases kind : m.msgType with
  | PRIVATE =>
      simp only [saveRequest, kind, Option.map_eq_some_iff] at built
      obtain ⟨p, -, rfl⟩ := built
      cases saved : rpcs.save with
      | error error =>
          simp only [saved, afterSave, failure, saveCall, kind, Option.some.injEq] at ran
          subst ran
          exact .reported [] (by simp only [SaveSurfaces, kind, saved, PlainUntil])
      | ok =>
          simp only [saved, afterSave, failure, saveCall, kind, Option.some.injEq] at ran
          subst ran
          refine .clean [.savePrivateMsg] (fun _ failed => by cases failed) ?_
          simp only [SaveSurfaces, kind, saved, PlainUntil]
  | GROUP =>
      simp only [saveRequest, kind, Option.some.injEq] at built
      subst built
      cases saved : rpcs.save with
      | error error =>
          simp only [saved, afterSave, failure, saveCall, kind, Option.some.injEq] at ran
          subst ran
          refine .mistaken [] ?_
          simp only [SaveSurfaces, kind, saved, reduceCtorEq, not_false_eq_true]
      | ok =>
          have surfaced : SaveSurfaces m rpcs := by simp only [SaveSurfaces, kind, saved]
          simp only [saved, afterSave] at ran
          split at ran
          · rename_i outcome finished
            simp only [failure, saveCall, kind, Option.some.injEq] at ran
            subst ran
            split at finished
            · cases finished
              exact .clean [.saveGroupMsg] (fun _ failed => by cases failed) surfaced
            · cases finished
              exact .clean [.saveGroupMsg] (fun _ failed => by cases failed) surfaced
          · cases ran

theorem generating_ended (ran : generating m rpcs idRequest = some x) :
    Ended (PlainUntil rpcs.idGenerate (SaveSurfaces m rpcs)) x := by
  simp only [generating] at ran
  cases replied : rpcs.idGenerate with
  | error error =>
      simp only [replied, Option.some.injEq] at ran
      subst ran
      exact .reported [] Iff.rfl
  | ok idReply =>
      simp only [replied, Option.map_eq_some_iff] at ran
      obtain ⟨y, ran, rfl⟩ := ran
      exact (saving_ended ran).after .idGenerate

theorem listing_ended (ran : listing m rpcs = some x) :
    Ended (PlainUntil rpcs.getGroupMembers
      (PlainUntil rpcs.idGenerate (SaveSurfaces m rpcs))) x := by
  simp only [listing] at ran
  cases listed : rpcs.getGroupMembers with
  | error error =>
      simp only [listed, afterGetGroupMembers, failure, Option.some.injEq] at ran
      subst ran
      exact .reported [] Iff.rfl
  | ok members =>
      simp only [listed, afterGetGroupMembers, Option.map_eq_some_iff] at ran
      obtain ⟨y, ran, rfl⟩ := ran
      exact (generating_ended ran).after .getGroupMembers

theorem sendMsg_ended (ran : sendMsg m rpcs = some x) : Ended (Surfaces m rpcs) x := by
  simp only [sendMsg] at ran
  cases answered : rpcs.getUserLastSendData with
  | error error =>
      simp only [answered, afterGetUserLastSendData, failure, Option.some.injEq] at ran
      subst ran
      exact .reported [] (by simp only [Surfaces, answered])
  | ok data =>
      rw [answered] at ran
      obtain ⟨same, after⟩ | ⟨differs, ⟨kind, after⟩ | ⟨kind, after⟩⟩ :=
        afterGetUserLastSendData_cases m data
      · simp only [after, failure, Option.some.injEq] at ran
        subst ran
        exact .clean [.getUserLastSendData] (fun _ failed => by cases failed)
          (by simp only [Surfaces, answered, same, true_or])
      · simp only [after, Option.map_eq_some_iff] at ran
        obtain ⟨y, ran, rfl⟩ := ran
        simp only [Surfaces, answered, differs, kind, false_or]
        exact (generating_ended ran).after .getUserLastSendData
      · simp only [after, Option.map_eq_some_iff] at ran
        obtain ⟨y, ran, rfl⟩ := ran
        simp only [Surfaces, answered, differs, kind, false_or]
        exact (listing_ended ran).after .getUserLastSendData

theorem printed_length (prints : printed format = some text) :
    text.length ≤ format.length ∧ ('%' ∈ format → text.length < format.length) := by
  induction format using printed.induct generalizing text with
  | case1 =>
      simp only [printed, Option.some.injEq] at prints
      subst prints
      exact ⟨le_refl _, nofun⟩
  | case2 format ih =>
      simp only [printed, Option.map_eq_some_iff] at prints
      obtain ⟨later, prints, rfl⟩ := prints
      have shorter := (ih prints).1
      simp only [List.length_cons]
      exact ⟨by omega, fun _ => by omega⟩
  | case3 format single =>
      simp [printed] at prints
  | case4 c format _ ordinary ih =>
      simp only [printed, Option.map_eq_some_iff] at prints
      obtain ⟨later, prints, rfl⟩ := prints
      obtain ⟨shorter, strictly⟩ := ih prints
      simp only [List.length_cons]
      refine ⟨by omega, fun member => ?_⟩
      have inside : '%' ∈ format :=
        (List.mem_cons.mp member).resolve_left fun same => ordinary same.symm
      have before := strictly inside
      omega

theorem printed_plain (absent : '%' ∉ text) : printed text = some text := by
  induction text with
  | nil => rfl
  | cons c text ih =>
      obtain ⟨differs, absent⟩ := not_or.mp (mt List.mem_cons.mpr absent)
      rw [printed, ih absent]
      · rfl
      · exact fun _ same _ => differs same.symm
      · exact fun same => differs same.symm

theorem printed_cStr_iff : printed (cStr text) = some text ↔ Plain text := by
  constructor
  · intro prints
    obtain ⟨longer, strictly⟩ := printed_length prints
    have whole : cStr text = text := (List.takeWhile_prefix _).eq_of_length_le longer
    rw [whole] at strictly
    exact ⟨fun member => absurd (strictly member) (lt_irrefl _), cStr_eq_self_iff.mp whole⟩
  · rintro ⟨percent, plain⟩
    rw [cStr_eq_self_iff.mpr plain]
    exact printed_plain percent

theorem mem_unfailed {calls : List Remote} {result : Option RpcError}
    (member : (call, result) ∈ calls.map fun c => (c, (none : Option RpcError))) :
    result = none := by
  obtain ⟨_, -, same⟩ := List.mem_map.mp member
  exact (congrArg Prod.snd same).symm

theorem reports_clean (calls : List Remote) (unfailed : ∀ given, outcome ≠ .failed given) :
    Reports ⟨calls.map (·, none), outcome⟩ := by
  have nobody : ∀ call error, (call, some error) ∉ calls.map fun c => (c, none) :=
    fun _ _ member => nomatch mem_unfailed member
  exact {
    exactly := ⟨fun ⟨given, failed⟩ => absurd failed (unfailed given),
      fun ⟨call, error, member⟩ => absurd member (nobody call error)⟩
    error := fun call error member => absurd member (nobody call error)
    last := fun call error member => absurd member (nobody call error)
    unanswered := fun call error member => absurd member (nobody call error)
    unpushed := fun call error member => absurd member (nobody call error) }

theorem reports_failed_iff (calls : List Remote) (call : Remote) :
    Reports ⟨calls.map (·, none) ++ [(call, some error)], .failed given⟩ ↔
      ReportsError given error := by
  have only : ∀ other reason,
      (other, some reason) ∈ (calls.map fun c => (c, none)) ++ [(call, some error)] →
        other = call ∧ reason = error := by
    intro other reason member
    obtain unfailed | here := List.mem_append.mp member
    · exact nomatch mem_unfailed unfailed
    · simpa using here
  have made : (call, some error) ∈ (calls.map fun c => (c, none)) ++ [(call, some error)] := by simp
  constructor
  · intro reports
    obtain ⟨shown, same, reported⟩ := reports.error call error made
    cases same
    exact reported
  · intro reported
    exact {
      exactly := ⟨fun _ => ⟨call, error, made⟩, fun _ => ⟨given, rfl⟩⟩
      error := fun other reason member =>
        ⟨given, rfl, (only other reason member).2 ▸ reported⟩
      last := fun other reason member => by
        obtain ⟨rfl, rfl⟩ := only other reason member
        exact List.getLast?_concat
      unanswered := fun _ _ _ => rfl
      unpushed := fun _ _ _ => nofun }

/-- A failed remote call reaches the caller with its code and text, and ends the execution,
exactly if its text is plain and it is not the save of a group message. -/
theorem failures_reported_iff (ran : sendMsg m rpcs = some x)
    (nonzero : ∀ call error, (call, some error) ∈ x.made → error.code ≠ 0) :
    Reports x ↔ Surfaces m rpcs := by
  cases sendMsg_ended ran with
  | clean calls unfailed surfaced => exact iff_of_true (reports_clean calls unfailed) surfaced
  | reported calls surfaced =>
      rw [reports_failed_iff, surfaced, ReportsError, printed_cStr_iff]
      exact and_iff_right rfl
  | mistaken calls hidden =>
      rw [reports_failed_iff]
      refine iff_of_false ?_ hidden
      rintro ⟨zero, -⟩
      exact nonzero .saveGroupMsg _ (by simp) zero.symm

/-- A private message whose save fails with a plain text. -/
theorem failures_reported_iff_private :
    ∃ x, sendMsg ⟨7, 8, .PRIVATE, [], 100, 0⟩
        ⟨.ok {}, .ok [], .ok [⟨7, 1, 1⟩, ⟨8, 1, 1⟩], .error ⟨22, "no row".toList⟩, 50⟩ = some x ∧
      x.made = [(.getUserLastSendData, none), (.idGenerate, none),
        (.savePrivateMsg, some ⟨22, "no row".toList⟩)] ∧ Reports x := by
  obtain ⟨x, ran⟩ : ∃ x, sendMsg ⟨7, 8, .PRIVATE, [], 100, 0⟩
      ⟨.ok {}, .ok [], .ok [⟨7, 1, 1⟩, ⟨8, 1, 1⟩], .error ⟨22, "no row".toList⟩, 50⟩ = some x :=
    ⟨_, rfl⟩
  have made : x.made = [(.getUserLastSendData, none), (.idGenerate, none),
      (.savePrivateMsg, some ⟨22, "no row".toList⟩)] := by
    cases ran
    rfl
  refine ⟨x, ran, made, (failures_reported_iff ran ?_).mpr (.inr ⟨by decide, by decide⟩)⟩
  intro call error member
  rw [made] at member
  simp at member
  rw [member.2]
  decide

/-- The save of a group message fails with code 22, and the caller is given the code 0 and
the empty text of the id controller. -/
theorem group_save_failure_lost :
    ∃ x, sendMsg ⟨7, 5, .GROUP, [], 100, 0⟩
        ⟨.ok {}, .ok [7, 8], .ok [⟨7, 1, 1⟩, ⟨8, 1, 1⟩], .error ⟨22, "no row".toList⟩, 50⟩ =
          some x ∧
      x.made.getLast? = some (.saveGroupMsg, some ⟨22, "no row".toList⟩) ∧
      x.outcome = .failed ⟨0, []⟩ ∧ ¬ Reports x := by
  refine ⟨_, rfl, rfl, rfl, fun reports => ?_⟩
  obtain ⟨given, failed, code, -⟩ :=
    reports.error .saveGroupMsg ⟨22, "no row".toList⟩ (by simp [Execution.after, failure, saveCall])
  cases failed
  exact absurd code (by decide)

end Tinyim.Logic
