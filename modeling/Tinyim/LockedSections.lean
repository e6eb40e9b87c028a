import Tinyim.Transition
import Mathlib.Logic.Relation

/-! Sections that run under locks. Between taking its lock and giving it back a section makes
any number of steps on the shared state, and sections under other locks step in between. Where
a step touches only the part that its own lock guards, the sections might as well have run one
at a time, in the order in which they end. -/
namespace LockedSections
open Transition Relation
variable {Key Op Answer Local Shared Result View : Type}

structure Sections (Key Op Answer Local Shared Result : Type) where
  /-- The lock of a section, `none` for one that never begins. -/
  lock : Op → Option Key
  enter : Op → Local
  /-- One step, with what the environment answers. -/
  next : Key → Op → Answer → Local → Shared → Option (Local × Shared)
  /-- What a section returns once it gives the lock back. -/
  result : Local → Option Result
  /-- What the death of the process leaves of the shared state. -/
  recover : Shared → Shared

inductive Mark (Key Op Result : Type) where
  | finished (op : Op) (result : Result)
  /-- The process dies while these sections hold the locks. -/
  | crash (under : Key → Option Op)

instance [DecidableEq (Key → Option Op)] [DecidableEq Op] [DecidableEq Result] :
    DecidableEq (Mark Key Op Result)
  | .finished op result, .finished op' result' =>
    decidable_of_iff (op = op' ∧ result = result') (by simp)
  | .crash under, .crash under' => decidable_of_iff (under = under') (by simp)
  | .finished _ _, .crash _ => isFalse nofun
  | .crash _, .finished _ _ => isFalse nofun

structure Machine (Key Op Local Shared Result : Type) where
  shared : Shared
  holders : Key → Option (Op × Local) := fun _ => none
  /-- The sections in the order in which they gave their locks back. -/
  log : List (Mark Key Op Result) := []

inductive Event (Key Op Answer : Type) where
  | acquire (op : Op)
  | advance (key : Key) (answer : Answer)
  | release (key : Key)
  | crash
  deriving DecidableEq, Repr

/-- What a run assumes: when sections may begin, what they are answered, and whether the
process may die. -/
structure Environment (Op Answer Shared : Type) where
  begins : Op → Shared → Prop := fun _ _ => True
  answers : Answer → Prop := fun _ => True
  crashes : Prop := True

def Environment.Admits (env : Environment Op Answer Shared)
    (m : Machine Key Op Local Shared Result) : Event Key Op Answer → Prop
  | .acquire op => env.begins op m.shared
  | .advance _ answer => env.answers answer
  | .release _ => True
  | .crash => env.crashes

section Program
variable (S : Sections Key Op Answer Local Shared Result) (env : Environment Op Answer Shared)
  (view : Option Key → Shared → View)

def Sections.step [DecidableEq Key] (m : Machine Key Op Local Shared Result) :
    Event Key Op Answer → Option (Machine Key Op Local Shared Result)
  | .acquire op => do
    let key ← S.lock op
    match m.holders key with
    | none => return { m with holders := Function.update m.holders key (some (op, S.enter op)) }
    | some _ => none
  | .advance key answer => do
    let (op, here) ← m.holders key
    let (there, shared) ← S.next key op answer here m.shared
    return { m with shared, holders := Function.update m.holders key (some (op, there)) }
  | .release key => do
    let (op, here) ← m.holders key
    let result ← S.result here
    return { m with
      holders := Function.update m.holders key none, log := m.log ++ [.finished op result] }
  | .crash => some {
      shared := S.recover m.shared
      log := m.log ++ [.crash fun key => (m.holders key).map Prod.fst] }

/-- Steps of one section while nobody else steps. -/
def Steps (key : Key) (op : Op) : Local × Shared → Local × Shared → Prop :=
  ReflTransGen fun p q => ∃ answer, env.answers answer ∧ S.next key op answer p.1 p.2 = some q

/-- Each part of `c` is as in `b` where no section holds its lock; where one does, that section
has left it on its way from `b`. -/
structure Torn (under : Key → Option Op) (b c : Shared) : Prop where
  unguarded : view none c = view none b
  free : under key = none → view (some key) c = view (some key) b
  held : under key = some op → S.lock op = some key ∧ env.begins op b ∧
    ∃ here t, Steps S env key op (S.enter op, b) (here, t) ∧
      view (some key) c = view (some key) t

/-- The sections one at a time. The process dies in the middle of some of them. -/
inductive Serial (a : Shared) : List (Mark Key Op Result) → Shared → Prop where
  | start : Serial a [] a
  | finish (prior : Serial a log b) (locked : S.lock op = some key) (begins : env.begins op b)
      (ran : Steps S env key op (S.enter op, b) (here, c)) (ended : S.result here = some result) :
      Serial a (log ++ [.finished op result]) c
  | crash (prior : Serial a log b) (may : env.crashes) (torn : Torn S env view under b c) :
      Serial a (log ++ [.crash under]) (S.recover c)

/-- The parts of the shared state: one for each lock and one, `none`, that no lock guards. -/
structure Separated : Prop where
  frame : S.lock op = some key → S.next key op answer here s = some (there, s') →
    part ≠ some key → view part s' = view part s
  reads : S.lock op = some key → S.next key op answer here s = some (there, s') →
    view (some key) t = view (some key) s →
    ∃ t', S.next key op answer here t = some (there, t') ∧
      view (some key) t' = view (some key) s'
  begins : S.lock op = some key → view (some key) t = view (some key) s →
    env.begins op s → env.begins op t
  ext : (∀ part, view part s = view part t) → s = t

/-- The machine stands where the sections that hold a lock have gone on alone from `b`. -/
structure Pending (b : Shared) (m : Machine Key Op Local Shared Result) : Prop where
  unguarded : view none b = view none m.shared
  free : m.holders key = none → view (some key) b = view (some key) m.shared
  held : m.holders key = some (op, here) → S.lock op = some key ∧ env.begins op b ∧
    ∃ t, Steps S env key op (S.enter op, b) (here, t) ∧
      view (some key) t = view (some key) m.shared

end Program

variable {S : Sections Key Op Answer Local Shared Result} {env : Environment Op Answer Shared}
  {view : Option Key → Shared → View} {m m' : Machine Key Op Local Shared Result}
  {a b c s t : Shared} {key : Key} {op : Op} {here there : Local}
  {event : Event Key Op Answer}

theorem step_cases [DecidableEq Key] (stepped : S.step m event = some m') :
    (∃ op key, event = .acquire op ∧ S.lock op = some key ∧ m.holders key = none ∧
      m' = { m with holders := Function.update m.holders key (some (op, S.enter op)) }) ∨
    (∃ key answer op here there shared, event = .advance key answer ∧
      m.holders key = some (op, here) ∧
      S.next key op answer here m.shared = some (there, shared) ∧
      m' = { m with shared, holders := Function.update m.holders key (some (op, there)) }) ∨
    (∃ key op here result, event = .release key ∧ m.holders key = some (op, here) ∧
      S.result here = some result ∧
      m' = { m with
        holders := Function.update m.holders key none, log := m.log ++ [.finished op result] }) ∨
    (event = .crash ∧ m' = {
      shared := S.recover m.shared
      log := m.log ++ [.crash fun key => (m.holders key).map Prod.fst] }) := by
  cases event with
  | acquire op =>
      simp only [Sections.step, Option.bind_eq_bind, Option.bind_eq_some_iff] at stepped
      obtain ⟨key, locked, stepped⟩ := stepped
      split at stepped
      · rename_i free
        exact .inl ⟨op, key, rfl, locked, free, (Option.some.inj stepped).symm⟩
      · contradiction
  | advance key answer =>
      simp only [Sections.step, Option.bind_eq_bind, Option.bind_eq_some_iff] at stepped
      obtain ⟨⟨op, here⟩, held, ⟨there, shared⟩, moved, same⟩ := stepped
      exact .inr (.inl ⟨key, answer, op, here, there, shared, rfl, held, moved,
        (Option.some.inj same).symm⟩)
  | release key =>
      simp only [Sections.step, Option.bind_eq_bind, Option.bind_eq_some_iff] at stepped
      obtain ⟨⟨op, here⟩, held, result, ended, same⟩ := stepped
      exact .inr (.inr (.inl ⟨key, op, here, result, rfl, held, ended,
        (Option.some.inj same).symm⟩))
  | crash => exact .inr (.inr (.inr ⟨rfl, (Option.some.inj stepped).symm⟩))

namespace Separated
variable (separated : Separated S env view)

include separated

theorem steps_frame (locked : S.lock op = some key)
    (steps : Steps S env key op (here, s) (there, t)) (part : Option Key)
    (other : part ≠ some key) : view part t = view part s := by
  suffices moves : ∀ q, Steps S env key op (here, s) q → view part q.2 = view part s from
    moves _ steps
  intro q steps
  induction steps with
  | refl => rfl
  | tail _ last ih =>
      obtain ⟨answer, -, moved⟩ := last
      rw [← ih]
      exact separated.frame locked moved other

/-- A section goes the same way wherever its own part is the same. -/
theorem steps_reads (locked : S.lock op = some key)
    (steps : Steps S env key op (here, s) (there, t))
    (same : view (some key) c = view (some key) s) :
    ∃ d, Steps S env key op (here, c) (there, d) ∧ view (some key) d = view (some key) t := by
  suffices moves : ∀ q, Steps S env key op (here, s) q →
      ∃ d, Steps S env key op (here, c) (q.1, d) ∧ view (some key) d = view (some key) q.2 from
    moves _ steps
  intro q steps
  induction steps with
  | refl => exact ⟨c, .refl, same⟩
  | tail _ last ih =>
      obtain ⟨d, before, agrees⟩ := ih
      obtain ⟨answer, answered, moved⟩ := last
      obtain ⟨d', moves, agrees'⟩ := separated.reads locked moved agrees
      exact ⟨d', before.tail ⟨answer, answered, moves⟩, agrees'⟩

end Separated

theorem Pending.torn (pending : Pending S env view b m) :
    Torn S env view (fun key => (m.holders key).map Prod.fst) b m.shared where
  unguarded := pending.unguarded.symm
  free none := (pending.free (Option.map_eq_none_iff.mp none)).symm
  held some := by
    obtain ⟨⟨op, here⟩, holder, rfl⟩ := Option.map_eq_some_iff.mp some
    obtain ⟨locked, begins, t, steps, agrees⟩ := pending.held holder
    exact ⟨locked, begins, here, t, steps, agrees.symm⟩

theorem Pending.idle (separated : Separated S env view) (pending : Pending S env view b m)
    (idle : ∀ key, m.holders key = none) : b = m.shared := by
  apply separated.ext
  intro part
  cases part with
  | none => exact pending.unguarded
  | some key => exact pending.free (idle key)

theorem pending_start (shared : Shared) (log : List (Mark Key Op Result)) :
    Pending S env view shared { shared, log } where
  unguarded := rfl
  free _ := rfl
  held absurd := by cases absurd

namespace Pending
variable [DecidableEq Key]

theorem acquire (separated : Separated S env view) (pending : Pending S env view b m)
    (locked : S.lock op = some key) (free : m.holders key = none)
    (begins : env.begins op m.shared) :
    Pending S env view b
      { m with holders := Function.update m.holders key (some (op, S.enter op)) } where
  unguarded := pending.unguarded
  free {other} holder := by
    simp only [Function.update_apply] at holder
    split at holder
    · cases holder
    · exact pending.free holder
  held {other _ _} holder := by
    simp only [Function.update_apply] at holder
    split at holder
    · rename_i same
      subst same
      cases holder
      exact ⟨locked, separated.begins locked (pending.free free) begins, b, .refl,
        pending.free free⟩
    · exact pending.held holder

theorem advance (separated : Separated S env view) (pending : Pending S env view b m)
    (held : m.holders key = some (op, here)) (answered : env.answers answer)
    (moved : S.next key op answer here m.shared = some (there, s)) :
    Pending S env view b
      { m with shared := s, holders := Function.update m.holders key (some (op, there)) } := by
  obtain ⟨locked, begins, t, steps, agrees⟩ := pending.held held
  obtain ⟨t', moves, agrees'⟩ := separated.reads locked moved agrees
  have frame : ∀ part, part ≠ some key → view part s = view part m.shared := fun part other =>
    separated.frame locked moved other
  refine ⟨?_, ?_, ?_⟩
  · rw [pending.unguarded, frame none (Option.some_ne_none key).symm]
  · intro other holder
    simp only [Function.update_apply] at holder
    split at holder
    · cases holder
    · rename_i different
      rw [pending.free holder, frame (some other) fun same => different (Option.some.inj same)]
  · intro other _ _ holder
    simp only [Function.update_apply] at holder
    split at holder
    · rename_i same
      subst same
      cases holder
      exact ⟨locked, begins, t', steps.tail ⟨answer, answered, moves⟩, agrees'⟩
    · rename_i different
      obtain ⟨locked', begins', u, alone, same⟩ := pending.held holder
      exact ⟨locked', begins', u, alone, by
        rw [same, frame (some other) fun same => different (Option.some.inj same)]⟩

/-- The section that ends takes effect, and to the others it has always been over. -/
theorem release (separated : Separated S env view) (pending : Pending S env view b m)
    (held : m.holders key = some (op, here)) (log : List (Mark Key Op Result)) :
    ∃ c, Steps S env key op (S.enter op, b) (here, c) ∧
      Pending S env view c
        { m with holders := Function.update m.holders key none, log } := by
  obtain ⟨locked, -, c, steps, agrees⟩ := pending.held held
  have frame := separated.steps_frame locked steps
  refine ⟨c, steps, ?_, ?_, ?_⟩
  · rw [frame none (Option.some_ne_none key).symm, pending.unguarded]
  · intro other holder
    simp only [Function.update_apply] at holder
    split at holder
    · rename_i same
      subst same
      exact agrees
    · rename_i different
      rw [frame (some other) fun same => different (Option.some.inj same), pending.free holder]
  · intro other _ _ holder
    simp only [Function.update_apply] at holder
    split at holder
    · cases holder
    · rename_i different
      obtain ⟨locked', begins', u, alone, same⟩ := pending.held holder
      have kept : view (some other) c = view (some other) b :=
        frame (some other) fun same => different (Option.some.inj same)
      obtain ⟨d, moves, agrees'⟩ := separated.steps_reads locked' alone kept
      exact ⟨locked', separated.begins locked' kept begins', d, moves, agrees'.trans same⟩

end Pending

section Runs
variable [DecidableEq Key]

theorem serial_step (separated : Separated S env view) (serial : Serial S env view a m.log b)
    (pending : Pending S env view b m) (admitted : env.Admits m event)
    (stepped : S.step m event = some m') :
    ∃ c, Serial S env view a m'.log c ∧ Pending S env view c m' := by
  rcases step_cases stepped with ⟨op, key, rfl, locked, free, rfl⟩ |
    ⟨key, answer, op, here, there, shared, rfl, held, moved, rfl⟩ |
    ⟨key, op, here, result, rfl, held, ended, rfl⟩ | ⟨rfl, rfl⟩
  · exact ⟨b, serial, pending.acquire separated locked free admitted⟩
  · exact ⟨b, serial, pending.advance separated held admitted moved⟩
  · obtain ⟨locked, begins, -⟩ := pending.held held
    obtain ⟨c, ran, after⟩ := pending.release separated held (m.log ++ [.finished op result])
    exact ⟨c, serial.finish locked begins ran ended, after⟩
  · exact ⟨S.recover m.shared, serial.crash admitted pending.torn, pending_start _ _⟩

/-- However the sections interleave, they end as if run one at a time. -/
theorem serializable (separated : Separated S env view)
    (run : Run S.step env.Admits { shared := a } es m) :
    ∃ b, Serial S env view a m.log b ∧ Pending S env view b m := by
  apply run.invariant (fun m => ∃ b, Serial S env view a m.log b ∧ Pending S env view b m)
  · rintro s e t ⟨b, serial, pending⟩ admitted stepped
    exact serial_step separated serial pending admitted stepped
  · exact ⟨a, .start, pending_start a []⟩

end Runs
end LockedSections
