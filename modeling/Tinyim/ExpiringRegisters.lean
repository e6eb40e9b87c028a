import Mathlib.Algebra.Order.Ring.Int
import Mathlib.Data.List.Induction
import Mathlib.Logic.Function.Basic

/-! Registers whose contents expire. A command looks at what its register still holds and keeps
it, deletes it or writes it with the full lifetime. -/
namespace Tinyim.ExpiringRegisters

variable {κ ω α : Type}

inductive Effect (α : Type) where
  | keep
  | delete
  | write (value : α)
  deriving DecidableEq, Repr

inductive Event (κ ω : Type) where
  | passes (time : Nat)
  | command (key : κ) (command : ω)
  deriving DecidableEq, Repr

def Event.time : Event κ ω → Nat
  | .passes time => time
  | .command .. => 0

def elapsed (es : List (Event κ ω)) : Nat := (es.map Event.time).sum

structure Registers (κ α : Type) where
  now : Int := 0
  /-- A value and the time from which it counts as deleted. -/
  held : κ → Option (α × Int) := fun _ => none

def Registers.live (r : Registers κ α) (k : κ) : Option α :=
  (r.held k).bind fun (value, expireAt) => if r.now < expireAt then some value else none

/-- The register holds the value until the given time, which has not come. -/
def Registers.Due (r : Registers κ α) (k : κ) (v : α) (expireAt : Int) : Prop :=
  r.held k = some (v, expireAt) ∧ r.now < expireAt

theorem elapsed_command (before rest : List (Event κ ω)) (k : κ) (w : ω) :
    elapsed (before ++ .command k w :: rest) = elapsed before + elapsed rest := by
  simp [elapsed, Event.time]

theorem elapsed_concat (es : List (Event κ ω)) (e : Event κ ω) :
    elapsed (es ++ [e]) = elapsed es + e.time := by
  simp [elapsed]

theorem split_concat_iff {es before after : List (Event κ ω)} {e : Event κ ω} :
    es ++ [e] = before ++ .command k w :: after ↔
    (after = [] ∧ before = es ∧ e = .command k w) ∨
      ∃ rest, after = rest ++ [e] ∧ es = before ++ .command k w :: rest := by
  constructor
  · intro split
    obtain rfl | ⟨rest, last, rfl⟩ := List.eq_nil_or_concat after
    · obtain ⟨same, here⟩ := List.append_inj' split rfl
      exact .inl ⟨rfl, same.symm, (List.cons.inj here).1⟩
    · rw [List.concat_eq_append, ← List.cons_append, ← List.append_assoc] at split
      obtain ⟨same, here⟩ := List.append_inj' split rfl
      cases here
      exact .inr ⟨rest, List.concat_eq_append, same⟩
  · rintro (⟨rfl, rfl, rfl⟩ | ⟨rest, rfl, rfl⟩)
    · rfl
    · simp

theorem live_eq_some_iff {r : Registers κ α} :
    r.live k = some v ↔ ∃ expireAt, r.Due k v expireAt := by
  simp only [Registers.live, Registers.Due, Option.bind_eq_some_iff, Prod.exists,
    Option.ite_none_right_eq_some, Option.some.injEq]
  constructor
  · rintro ⟨_, expireAt, held, due, rfl⟩
    exact ⟨expireAt, held, due⟩
  · rintro ⟨expireAt, held, due⟩
    exact ⟨v, expireAt, held, due, rfl⟩

variable [DecidableEq κ]

def Registers.hold (r : Registers κ α) (k : κ) (content : Option (α × Int)) : Registers κ α :=
  { r with held := Function.update r.held k content }

def Registers.step (lifetime : Int) (effect : ω → Option α → Effect α) (r : Registers κ α) :
    Event κ ω → Registers κ α
  | .passes time => { r with now := r.now + time }
  | .command k w =>
    match effect w (r.live k) with
    | .keep => r
    | .delete => r.hold k none
    | .write value => r.hold k (some (value, r.now + lifetime))

def exec (lifetime : Int) (effect : ω → Option α → Effect α) (es : List (Event κ ω)) :
    Registers κ α :=
  es.foldl (Registers.step lifetime effect) {}

variable {lifetime : Int} {effect : ω → Option α → Effect α} {r : Registers κ α} {k : κ} {v : α}
  {es before after rest : List (Event κ ω)} {e : Event κ ω} {w : ω} {expireAt : Int}

theorem exec_concat :
    exec lifetime effect (es ++ [e]) = (exec lifetime effect es).step lifetime effect e :=
  List.foldl_append ..

theorem step_now : (r.step lifetime effect e).now = r.now + e.time := by
  cases e with
  | passes time => rfl
  | command k w =>
      simp only [Registers.step, Event.time]
      split <;> simp [Registers.hold]

theorem exec_now (es : List (Event κ ω)) : (exec lifetime effect es).now = elapsed es := by
  induction es using List.reverseRecOn with
  | nil => rfl
  | append_singleton es e ih => rw [exec_concat, step_now, ih, elapsed_concat, Nat.cast_add]

theorem due_hold_self {content : Option (α × Int)} :
    (r.hold k content).Due k v expireAt ↔ content = some (v, expireAt) ∧ r.now < expireAt := by
  simp [Registers.Due, Registers.hold]

theorem due_hold_of_ne {content : Option (α × Int)} (other : k ≠ k') :
    (r.hold k' content).Due k v expireAt ↔ r.Due k v expireAt := by
  simp [Registers.Due, Registers.hold, Function.update_of_ne other]

theorem due_step_of_ne (other : k ≠ k') :
    (r.step lifetime effect (.command k' w)).Due k v expireAt ↔ r.Due k v expireAt := by
  simp only [Registers.step]
  split
  · exact Iff.rfl
  · exact due_hold_of_ne other
  · exact due_hold_of_ne other

theorem due_step_self : (r.step lifetime effect (.command k w)).Due k v expireAt ↔
    (r.Due k v expireAt ∧ effect w (some v) = .keep) ∨
    (effect w (r.live k) = .write v ∧ 0 < lifetime ∧ expireAt = r.now + lifetime) := by
  have shown (due : r.Due k v expireAt) : effect w (r.live k) = effect w (some v) := by
    rw [live_eq_some_iff.mpr ⟨expireAt, due⟩]
  simp only [Registers.step]
  cases done : effect w (r.live k) with
  | keep =>
      constructor
      · intro due
        exact .inl ⟨due, (shown due).symm.trans done⟩
      · rintro (⟨due, -⟩ | ⟨wrote, -⟩)
        · exact due
        · cases wrote
  | delete =>
      simp only [due_hold_self]
      constructor
      · rintro ⟨empty, -⟩
        cases empty
      · rintro (⟨due, kept⟩ | ⟨wrote, -⟩)
        · cases (done.symm.trans (shown due)).trans kept
        · cases wrote
  | write value =>
      simp only [due_hold_self]
      constructor
      · rintro ⟨same, due⟩
        cases same
        exact .inr ⟨rfl, by omega, rfl⟩
      · rintro (⟨due, kept⟩ | ⟨wrote, positive, rfl⟩)
        · cases (done.symm.trans (shown due)).trans kept
        · cases wrote
          exact ⟨rfl, by omega⟩

theorem due_step_iff : (r.step lifetime effect e).Due k v expireAt ↔
    (r.Due k v expireAt ∧ r.now + e.time < expireAt ∧
      ∀ w, e = .command k w → effect w (some v) = .keep) ∨
    ∃ w, e = .command k w ∧ effect w (r.live k) = .write v ∧ 0 < lifetime ∧
      expireAt = r.now + lifetime := by
  cases e with
  | passes time =>
      constructor
      · rintro ⟨held, due⟩
        have due : r.now + time < expireAt := due
        exact .inl ⟨⟨held, by omega⟩, due, nofun⟩
      · rintro (⟨⟨held, -⟩, due, -⟩ | ⟨w, other, -⟩)
        · exact ⟨held, due⟩
        · cases other
  | command k' w =>
      by_cases same : k = k'
      · subst same
        rw [due_step_self]
        constructor
        · rintro (⟨due, kept⟩ | wrote)
          · refine .inl ⟨due, ?_, ?_⟩
            · simpa [Event.time] using due.2
            · rintro _ ⟨⟩
              exact kept
          · exact .inr ⟨w, rfl, wrote⟩
        · rintro (⟨due, -, kept⟩ | ⟨_, ⟨⟩, wrote⟩)
          · exact .inl ⟨due, kept w rfl⟩
          · exact .inr wrote
      · rw [due_step_of_ne same]
        constructor
        · intro due
          refine .inl ⟨due, ?_, ?_⟩
          · simpa [Event.time] using due.2
          · rintro _ ⟨⟩
            exact absurd rfl same
        · rintro (⟨due, -⟩ | ⟨_, ⟨⟩, -⟩)
          · exact due
          · exact absurd rfl same

/-- The value was written by the command before `after`, it is younger than the lifetime, and
the later commands on its register have kept it. -/
structure WrittenBy (lifetime : Int) (effect : ω → Option α → Effect α) (k : κ) (v : α)
    (before : List (Event κ ω)) (w : ω) (after : List (Event κ ω)) : Prop where
  written : effect w ((exec lifetime effect before).live k) = .write v
  young : elapsed after < lifetime
  kept : ∀ later, .command k later ∈ after → effect later (some v) = .keep

theorem WrittenBy.shorter (written : WrittenBy lifetime effect k v before w (rest ++ [e])) :
    WrittenBy lifetime effect k v before w rest where
  written := written.written
  young := by
    have young := written.young
    rw [elapsed_concat] at young
    omega
  kept later member := written.kept later (List.mem_append_left _ member)

theorem WrittenBy.concat (written : WrittenBy lifetime effect k v before w rest)
    (young : elapsed rest + e.time < lifetime)
    (kept : ∀ w, e = .command k w → effect w (some v) = .keep) :
    WrittenBy lifetime effect k v before w (rest ++ [e]) where
  written := written.written
  young := by
    rw [elapsed_concat]
    omega
  kept later member := by
    obtain old | new := List.mem_append.mp member
    · exact written.kept later old
    · exact kept later (List.mem_singleton.mp new).symm

/-- The induction is on the events, with the last one taken off. -/
theorem due_iff : (exec lifetime effect es).Due k v expireAt ↔
    ∃ before w after, es = before ++ .command k w :: after ∧
      WrittenBy lifetime effect k v before w after ∧ expireAt = elapsed before + lifetime := by
  induction es using List.reverseRecOn generalizing expireAt with
  | nil =>
      constructor
      · rintro ⟨held, -⟩
        cases held
      · rintro ⟨before, w, after, split, -⟩
        simp at split
  | append_singleton es e ih =>
      rw [exec_concat, due_step_iff, exec_now, ih]
      constructor
      · rintro (⟨⟨before, w, rest, rfl, written, rfl⟩, due, kept⟩ |
          ⟨w, rfl, wrote, positive, rfl⟩)
        · rw [elapsed_command] at due
          exact ⟨before, w, rest ++ [e], by simp, written.concat (by omega) kept, rfl⟩
        · exact ⟨es, w, [], rfl, ⟨wrote, by simpa [elapsed] using positive, nofun⟩, rfl⟩
      · rintro ⟨before, w, after, split, written, rfl⟩
        obtain ⟨rfl, rfl, rfl⟩ | ⟨rest, rfl, rfl⟩ := split_concat_iff.mp split
        · have young := written.young
          exact .inr ⟨w, rfl, written.written, by omega, rfl⟩
        · have young := written.young
          rw [elapsed_concat] at young
          refine .inl ⟨⟨before, w, rest, rfl, written.shorter, rfl⟩, ?_, ?_⟩
          · rw [elapsed_command]
            omega
          · rintro later rfl
            exact written.kept later (by simp)

/-- What a register shows is what was last written to it, while it is young. -/
theorem live_iff : (exec lifetime effect es).live k = some v ↔
    ∃ before w after, es = before ++ .command k w :: after ∧
      WrittenBy lifetime effect k v before w after := by
  rw [live_eq_some_iff]
  simp only [due_iff]
  constructor
  · rintro ⟨_, before, w, after, split, written, -⟩
    exact ⟨before, w, after, split, written⟩
  · rintro ⟨before, w, after, split, written⟩
    exact ⟨_, before, w, after, split, written, rfl⟩

end Tinyim.ExpiringRegisters
