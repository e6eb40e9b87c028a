import Mathlib.Data.List.Nodup
import Mathlib.Data.List.Pairwise
import Mathlib.Data.List.Perm.Basic
import Mathlib.Order.Lattice

/-! A map whose entries stand in ascending order of their keys. The keys are taken as
points on a circle: a lookup finds the first entry at or after a point, and the first
entry of all when there is none. -/

structure OrderedMap (κ α : Type) [LinearOrder κ] where
  entries : List (κ × α)
  sorted : entries.Pairwise fun e f => e.1 < f.1

namespace OrderedMap
variable {κ α : Type} [LinearOrder κ]

/-- A new entry at its place; the one that is already there stays. -/
def place (k : κ) (a : α) : List (κ × α) → List (κ × α)
  | [] => [(k, a)]
  | e :: rest =>
    if k < e.1 then (k, a) :: e :: rest
    else if e.1 < k then e :: place k a rest
    else e :: rest

theorem mem_place {es : List (κ × α)} (k : κ) (a : α)
    (sorted : es.Pairwise fun e f => e.1 < f.1) :
    e ∈ place k a es ↔ e ∈ es ∨ e = (k, a) ∧ ∀ f ∈ es, f.1 ≠ k := by
  induction es with
  | nil => simp [place]
  | cons f rest ih =>
      obtain ⟨first, later⟩ := List.pairwise_cons.mp sorted
      simp only [place]
      split
      · rename_i before
        have free : ∀ g ∈ f :: rest, g.1 ≠ k := by
          intro g member
          obtain rfl | member := List.mem_cons.mp member
          · exact before.ne'
          · exact (before.trans (first g member)).ne'
        rw [List.mem_cons, or_comm, and_iff_left free]
      · split
        · rename_i after
          rw [List.mem_cons, ih later, List.mem_cons, List.forall_mem_cons, or_assoc,
            and_iff_right after.ne]
        · rename_i notBefore notAfter
          have taken : ¬ ∀ g ∈ f :: rest, g.1 ≠ k := by
            intro free
            exact free f List.mem_cons_self (le_antisymm (not_lt.mp notBefore) (not_lt.mp notAfter))
          simp only [taken, and_false, or_false]

theorem place_sorted {es : List (κ × α)} (k : κ) (a : α)
    (sorted : es.Pairwise fun e f => e.1 < f.1) :
    (place k a es).Pairwise fun e f => e.1 < f.1 := by
  induction es with
  | nil => exact List.pairwise_singleton _ _
  | cons e rest ih =>
      obtain ⟨first, later⟩ := List.pairwise_cons.mp sorted
      simp only [place]
      split
      · rename_i before
        refine List.pairwise_cons.mpr ⟨fun f member => ?_, sorted⟩
        obtain rfl | member := List.mem_cons.mp member
        · exact before
        · exact before.trans (first f member)
      · split
        · rename_i after
          refine List.pairwise_cons.mpr ⟨fun f member => ?_, ih later⟩
          obtain member | ⟨rfl, -⟩ := (mem_place k a later).mp member
          · exact first f member
          · exact after
        · exact sorted

variable {m m' : OrderedMap κ α}

def empty : OrderedMap κ α := ⟨[], .nil⟩

instance : Membership (κ × α) (OrderedMap κ α) := ⟨fun m e => e ∈ m.entries⟩

def emplace (m : OrderedMap κ α) (k : κ) (a : α) : OrderedMap κ α :=
  ⟨place k a m.entries, place_sorted k a m.sorted⟩

def erase (m : OrderedMap κ α) (k : κ) : OrderedMap κ α :=
  ⟨m.entries.filter (·.1 ≠ k), m.sorted.filter _⟩

def lowerBound (m : OrderedMap κ α) (k : κ) : Option (κ × α) := m.entries.find? (k ≤ ·.1)

def first (m : OrderedMap κ α) : Option (κ × α) := m.entries.head?

def last (m : OrderedMap κ α) : Option (κ × α) := m.entries.getLast?

def successor (m : OrderedMap κ α) (h : κ) : Option (κ × α) := (m.lowerBound h).or m.first

/-- What a lookup finds: the least key at or after the point, else the least of all. -/
inductive Succeeds (m : OrderedMap κ α) (h : κ) (e : κ × α) : Prop
  | above (member : e ∈ m) (above : h ≤ e.1) (least : ∀ f ∈ m, h ≤ f.1 → e.1 ≤ f.1)
  | wrapped (member : e ∈ m) (below : ∀ f ∈ m, f.1 < h) (least : ∀ f ∈ m, e.1 ≤ f.1)

/-- The next entry after the key `k`, which is not the entry of `k` itself. -/
inductive Follows (m : OrderedMap κ α) (k : κ) (e : κ × α) : Prop
  | above (member : e ∈ m) (above : k < e.1) (least : ∀ f ∈ m, k < f.1 → e.1 ≤ f.1)
  | wrapped (member : e ∈ m) (other : e.1 ≠ k) (below : ∀ f ∈ m, f.1 ≤ k)
      (least : ∀ f ∈ m, e.1 ≤ f.1)

/-- The last entry before the key `k`, else the last entry of all. -/
inductive Precedes (m : OrderedMap κ α) (k : κ) (e : κ × α) : Prop
  | below (member : e ∈ m) (below : e.1 < k) (greatest : ∀ f ∈ m, f.1 < k → f.1 ≤ e.1)
  | wrapped (member : e ∈ m) (above : ∀ f ∈ m, k ≤ f.1) (greatest : ∀ f ∈ m, f.1 ≤ e.1)

/-- The arc after the point `p` up to and including the point `k`. It is the whole
circle when they are the same. -/
def InArc (p k h : κ) : Prop := if p < k then p < h ∧ h ≤ k else p < h ∨ h ≤ k

theorem mem_emplace : e ∈ m.emplace k a ↔ e ∈ m ∨ e = (k, a) ∧ ∀ f ∈ m, f.1 ≠ k :=
  mem_place k a m.sorted

theorem mem_erase : e ∈ m.erase k ↔ e ∈ m ∧ e.1 ≠ k := by
  change e ∈ m.entries.filter _ ↔ _
  rw [List.mem_filter, decide_eq_true_eq]
  rfl

theorem mem_iff_of_entries (entries : m.entries = es) : e ∈ m ↔ e ∈ es := by
  rw [← entries]
  rfl

theorem not_mem_of_nil (entries : m.entries = []) : e ∉ m :=
  mt (mem_iff_of_entries entries).mp List.not_mem_nil

theorem eq_of_key (left : e ∈ m) (right : f ∈ m) (same : e.1 = f.1) : e = f := by
  have distinct : (m.entries.map Prod.fst).Nodup := List.pairwise_map.mpr (m.sorted.imp ne_of_lt)
  exact List.inj_on_of_nodup_map distinct left right same

theorem ext_mem (same : ∀ e, e ∈ m ↔ e ∈ m') : m = m' := by
  have distinct (m : OrderedMap κ α) : m.entries.Nodup :=
    m.sorted.imp fun below same => below.ne (congrArg Prod.fst same)
  have perm : m.entries.Perm m'.entries :=
    (List.perm_ext_iff_of_nodup (distinct m) (distinct m')).mpr same
  have entries : m.entries = m'.entries :=
    perm.eq_of_pairwise (fun _ _ _ _ below above => absurd below above.not_gt) m.sorted m'.sorted
  cases m
  cases entries
  rfl

theorem emplace_of_taken (member : e ∈ m) (a : α) : m.emplace e.1 a = m := by
  refine ext_mem fun f => ?_
  rw [mem_emplace, or_iff_left]
  rintro ⟨-, free⟩
  exact free e member rfl

theorem erase_emplace_of_free (free : ∀ f ∈ m, f.1 ≠ k) (a : α) :
    (m.emplace k a).erase k = m := by
  refine ext_mem fun e => ?_
  rw [mem_erase, mem_emplace]
  constructor
  · rintro ⟨member | ⟨rfl, -⟩, other⟩
    · exact member
    · exact absurd rfl other
  · intro member
    exact ⟨.inl member, free e member⟩

theorem find_eq_some_iff (p : κ × α → Bool) :
    m.entries.find? p = some e ↔ e ∈ m ∧ p e = true ∧ ∀ f ∈ m, p f = true → e.1 ≤ f.1 := by
  have sound {e : κ × α} (found : m.entries.find? p = some e) :
      e ∈ m ∧ p e = true ∧ ∀ f ∈ m, p f = true → e.1 ≤ f.1 := by
    obtain ⟨kind, front, back, entries, unlike⟩ := List.find?_eq_some_iff_append.mp found
    have sorted := m.sorted
    rw [entries, List.pairwise_append, List.pairwise_cons] at sorted
    refine ⟨(mem_iff_of_entries entries).mpr (by simp), kind, fun f member alike => ?_⟩
    replace member := (mem_iff_of_entries entries).mp member
    rw [List.mem_append, List.mem_cons] at member
    obtain before | rfl | after := member
    · have different := unlike f before
      rw [alike] at different
      contradiction
    · exact le_rfl
    · exact (sorted.2.1.1 f after).le
  constructor
  · exact sound
  · rintro ⟨member, kind, least⟩
    cases found : m.entries.find? p with
    | none => exact absurd kind (List.find?_eq_none.mp found e member)
    | some f =>
        obtain ⟨inside, alike, first⟩ := sound found
        rw [eq_of_key inside member (le_antisymm (first e member kind) (least f inside alike))]

theorem lowerBound_eq_some_iff :
    m.lowerBound h = some e ↔ e ∈ m ∧ h ≤ e.1 ∧ ∀ f ∈ m, h ≤ f.1 → e.1 ≤ f.1 := by
  rw [lowerBound, find_eq_some_iff]
  simp only [decide_eq_true_eq]

theorem lowerBound_eq_none_iff : m.lowerBound h = none ↔ ∀ f ∈ m, f.1 < h := by
  simp only [lowerBound, List.find?_eq_none, decide_eq_true_eq, not_le]
  rfl

theorem first_eq_some_iff : m.first = some e ↔ e ∈ m ∧ ∀ f ∈ m, e.1 ≤ f.1 := by
  have any : m.first = m.entries.find? fun _ => true := by
    rw [first]
    cases m.entries with
    | nil => rfl
    | cons e rest => rfl
  rw [any, find_eq_some_iff]
  simp only [true_and, forall_const]

theorem last_spec (found : m.last = some e) : e ∈ m ∧ ∀ f ∈ m, f.1 ≤ e.1 := by
  refine ⟨List.mem_of_getLast? found, fun f member => ?_⟩
  have ordered : m.entries.Pairwise fun e f => e.1 ≤ f.1 := m.sorted.imp fun below => below.le
  have greatest := ordered.rel_getLast_of_rel_getLast_getLast member le_rfl
  rwa [List.getLast_of_getLast?_eq_some found] at greatest

theorem exists_greatest (p : κ × α → Bool) (member : e ∈ m) (kind : p e = true) :
    ∃ g ∈ m, p g = true ∧ ∀ f ∈ m, p f = true → f.1 ≤ g.1 := by
  have inside : e ∈ m.entries.filter p := List.mem_filter.mpr ⟨member, kind⟩
  cases found : (m.entries.filter p).getLast? with
  | none => exact absurd inside (List.getLast?_eq_none_iff.mp found ▸ List.not_mem_nil)
  | some g =>
      obtain ⟨kept, greatest⟩ := last_spec (m := ⟨m.entries.filter p, m.sorted.filter p⟩) found
      obtain ⟨among, same⟩ := List.mem_filter.mp kept
      exact ⟨g, among, same, fun f member alike => greatest f (List.mem_filter.mpr ⟨member, alike⟩)⟩

theorem exists_precedes (k : κ) (member : e ∈ m) : ∃ p, m.Precedes k p := by
  by_cases lower : ∃ f ∈ m, f.1 < k
  · obtain ⟨f, inside, below⟩ := lower
    obtain ⟨p, found, before, greatest⟩ :=
      exists_greatest (fun e => e.1 < k) inside (decide_eq_true below)
    exact ⟨p, .below found (of_decide_eq_true before) fun f among less =>
      greatest f among (decide_eq_true less)⟩
  · obtain ⟨p, found, -, greatest⟩ := exists_greatest (fun _ => true) member rfl
    exact ⟨p, .wrapped found (fun f among => not_lt.mp fun less => lower ⟨f, among, less⟩)
      fun f among => greatest f among rfl⟩

theorem successor_eq_some_iff : m.successor h = some e ↔ m.Succeeds h e := by
  cases bound : m.lowerBound h with
  | some g =>
      simp only [successor, bound, Option.some_or]
      rw [← bound, lowerBound_eq_some_iff]
      obtain ⟨inside, above, -⟩ := lowerBound_eq_some_iff.mp bound
      constructor
      · rintro ⟨member, notBelow, least⟩
        exact .above member notBelow least
      · rintro (⟨member, notBelow, least⟩ | ⟨member, below, least⟩)
        · exact ⟨member, notBelow, least⟩
        · exact absurd (below g inside) above.not_gt
  | none =>
      simp only [successor, bound, Option.none_or, first_eq_some_iff]
      have below := lowerBound_eq_none_iff.mp bound
      constructor
      · rintro ⟨member, least⟩
        exact .wrapped member below least
      · rintro (⟨member, notBelow, least⟩ | ⟨member, below, least⟩)
        · exact absurd (below e member) notBelow.not_gt
        · exact ⟨member, least⟩

theorem successor_eq_none_iff : m.successor h = none ↔ m.entries = [] := by
  rw [successor, Option.or_eq_none_iff, first, List.head?_eq_none_iff, and_iff_right_iff_imp]
  intro entries
  simp [lowerBound, entries]

theorem Succeeds.member (found : m.Succeeds h e) : e ∈ m := by
  cases found with
  | above member _ _ => exact member
  | wrapped member _ _ => exact member

theorem succeeds_self (member : e ∈ m) : m.Succeeds e.1 e :=
  .above member le_rfl fun _ _ above => above

theorem Succeeds.restrict (found : m'.Succeeds h e) (kept : ∀ f ∈ m, f ∈ m') (member : e ∈ m) :
    m.Succeeds h e := by
  cases found with
  | above _ above least => exact .above member above fun f inside => least f (kept f inside)
  | wrapped _ below least =>
      exact .wrapped member (fun f inside => below f (kept f inside)) fun f inside =>
        least f (kept f inside)

/-- What a lookup finds depends on the keys alone. -/
theorem Succeeds.of_keys {β : Type} {other : OrderedMap κ β} {f : κ × β} (found : m.Succeeds h e)
    (member : f ∈ other) (same : f.1 = e.1) (keys : ∀ g ∈ other, ∃ e ∈ m, e.1 = g.1) :
    other.Succeeds h f := by
  cases found with
  | above _ above least =>
      refine .above member (same ▸ above) fun g inside notBelow => ?_
      obtain ⟨e', old, equal⟩ := keys g inside
      rw [← equal] at notBelow
      rw [same, ← equal]
      exact least e' old notBelow
  | wrapped _ below least =>
      refine .wrapped member (fun g inside => ?_) fun g inside => ?_
      · obtain ⟨e', old, equal⟩ := keys g inside
        exact equal ▸ below e' old
      · obtain ⟨e', old, equal⟩ := keys g inside
        rw [same, ← equal]
        exact least e' old

/-- A new entry takes lookups over, it does not exchange those of others. -/
theorem successor_emplace (m : OrderedMap κ α) (h k : κ) (a : α) :
    (m.emplace k a).successor h = m.successor h ∨
      (m.emplace k a).successor h = some (k, a) := by
  cases found : (m.emplace k a).successor h with
  | none =>
      left
      have nothing : m.entries = [] := List.eq_nil_iff_forall_not_mem.mpr fun e inside =>
        not_mem_of_nil (successor_eq_none_iff.mp found) (mem_emplace.mpr (.inl inside))
      exact (successor_eq_none_iff.mpr nothing).symm
  | some e =>
      have finds := successor_eq_some_iff.mp found
      obtain member | ⟨rfl, -⟩ := mem_emplace.mp finds.member
      · left
        exact (successor_eq_some_iff.mpr
          (finds.restrict (fun f inside => mem_emplace.mpr (.inl inside)) member)).symm
      · exact .inr rfl

theorem successor_erase (other : ∀ e, m.successor h = some e → e.1 ≠ k) :
    (m.erase k).successor h = m.successor h := by
  cases found : m.successor h with
  | none =>
      have entries := successor_eq_none_iff.mp found
      refine successor_eq_none_iff.mpr ?_
      simp [erase, entries]
  | some e =>
      have finds := successor_eq_some_iff.mp found
      exact successor_eq_some_iff.mpr (finds.restrict (fun f inside => (mem_erase.mp inside).1)
        (mem_erase.mpr ⟨finds.member, other e found⟩))

theorem succeeds_erase_iff_follows : (m.erase k).Succeeds k e ↔ m.Follows k e := by
  constructor
  · intro found
    obtain ⟨member, other⟩ := mem_erase.mp found.member
    cases found with
    | above _ above least =>
        refine .above member (lt_of_le_of_ne above other.symm) fun f inside after => ?_
        exact least f (mem_erase.mpr ⟨inside, after.ne'⟩) after.le
    | wrapped kept below least =>
        refine .wrapped member other (fun f inside => ?_) fun f inside => ?_
        · by_cases same : f.1 = k
          · exact same.le
          · exact (below f (mem_erase.mpr ⟨inside, same⟩)).le
        · by_cases same : f.1 = k
          · rw [same]
            exact (below e kept).le
          · exact least f (mem_erase.mpr ⟨inside, same⟩)
  · intro next
    cases next with
    | above member above least =>
        refine .above (mem_erase.mpr ⟨member, above.ne'⟩) above.le fun f inside notBelow => ?_
        obtain ⟨inside, different⟩ := mem_erase.mp inside
        exact least f inside (lt_of_le_of_ne notBelow different.symm)
    | wrapped member other below least =>
        refine .wrapped (mem_erase.mpr ⟨member, other⟩) (fun f inside => ?_) fun f inside => ?_
        · obtain ⟨inside, different⟩ := mem_erase.mp inside
          exact lt_of_le_of_ne (below f inside) different
        · exact least f (mem_erase.mp inside).1

theorem successor_erase_of_owned (owned : m.Succeeds h (k, a)) :
    (m.erase k).successor h = (m.erase k).successor k := by
  cases found : (m.erase k).successor k with
  | none => exact successor_eq_none_iff.mpr (successor_eq_none_iff.mp found)
  | some e =>
      have finds := successor_eq_some_iff.mp found
      have among {f : κ × α} (inside : f ∈ m.erase k) : f ∈ m := (mem_erase.mp inside).1
      rw [successor_eq_some_iff]
      cases owned with
      | above _ above least =>
          cases finds with
          | above member after next =>
              refine .above member (above.trans after) fun f inside notBelow => ?_
              exact next f inside (least f (among inside) notBelow)
          | wrapped member below next =>
              refine .wrapped member (fun f inside => not_le.mp fun notBelow => ?_) next
              exact (below f inside).not_ge (least f (among inside) notBelow)
      | wrapped _ below least =>
          cases finds with
          | above member after next =>
              refine .wrapped member (fun f inside => below f (among inside)) fun f inside => ?_
              exact next f inside (least f (among inside))
          | wrapped member before next =>
              exact absurd (before e member) (least e (among member)).not_gt

/-- The points whose lookup finds an entry are the arc from the entry before it. -/
theorem succeeds_iff_inArc (member : e ∈ m) (before : m.Precedes e.1 p) :
    m.Succeeds h e ↔ InArc p.1 e.1 h := by
  cases before with
  | below inside less greatest =>
      rw [InArc, if_pos less]
      constructor
      · intro found
        cases found with
        | above _ above least =>
            refine ⟨not_le.mp fun notAfter => ?_, above⟩
            exact less.not_ge (least p inside notAfter)
        | wrapped _ _ least => exact absurd (least p inside) less.not_ge
      · rintro ⟨after, notAfter⟩
        refine .above member notAfter fun f among notBelow => not_lt.mp fun lower => ?_
        exact (after.trans_le notBelow).not_ge (greatest f among lower)
  | wrapped inside above greatest =>
      rw [InArc, if_neg (above p inside).not_gt]
      constructor
      · intro found
        cases found with
        | above _ notAfter _ => exact .inr notAfter
        | wrapped _ below _ => exact .inl (below p inside)
      · rintro (after | notAfter)
        · exact .wrapped member (fun f among => (greatest f among).trans_lt after) above
        · exact .above member notAfter fun f among _ => above f among

theorem Precedes.emplace (before : m.Precedes k p) (a : α) : (m.emplace k a).Precedes k p := by
  cases before with
  | below inside less greatest =>
      refine .below (mem_emplace.mpr (.inl inside)) less fun f among lower => ?_
      obtain member | ⟨rfl, -⟩ := mem_emplace.mp among
      · exact greatest f member lower
      · exact absurd lower (lt_irrefl k)
  | wrapped inside above greatest =>
      refine .wrapped (mem_emplace.mpr (.inl inside)) (fun f among => ?_) fun f among => ?_
      · obtain member | ⟨rfl, -⟩ := mem_emplace.mp among
        · exact above f member
        · exact le_rfl
      · obtain member | ⟨rfl, -⟩ := mem_emplace.mp among
        · exact greatest f member
        · exact above p inside

end OrderedMap
