import Mathlib.Algebra.Order.Ring.Int
import Tinyim.Util.ConsistentHash

/-! `ConsistentHash::Describe` against `find`. It adds up the arcs between the virtual nodes,
with a formula of its own for the arc that runs past the end of the hashes. -/
namespace Tinyim.Util

def UINT32_MAX : Hash := ⟨4294967295, by decide⟩

/-- What `Describe` writes. It is undefined when it leaves its array or when the size of the
array does not fit an `int`. -/
inductive Report where
  | null
  | counts (sums : List Int)
  | undefined
  deriving DecidableEq

def addTo (sums : List Int) (nodeId : Int) (n : Hash) : Option (List Int) :=
  if 0 ≤ nodeId ∧ nodeId < sums.length then some (sums.modify nodeId.toNat (· + n.val)) else none

/-- The loop over the entries after the first one. -/
def addArcs (sums : List Int) (priv : Hash) : List (Hash × VNode) → Option (List Int)
  | [] => some sums
  | (cur, node) :: rest => do
    let sums ← addTo sums node.nodeId (cur - priv)
    addArcs sums cur rest

def maxNodeId (es : List (Hash × VNode)) : Int :=
  es.foldl (fun greatest e => max greatest e.2.nodeId) (-1)

namespace ConsistentHash
variable {hash : VNode → Hash} {ring : ConsistentHash hash}

def describe (ring : ConsistentHash hash) : Report :=
  let max := maxNodeId ring.nodes.entries
  if max = -1 then .null
  else if max + 1 < 2 ^ 31 then
    match ring.nodes.entries, ring.nodes.last with
    | (i, node) :: rest, some (j, _) =>
      match (addTo (List.replicate (max + 1).toNat 0) node.nodeId (UINT32_MAX - j + i)).bind
          (addArcs · i rest) with
      | some sums => .counts sums
      | none => .undefined
    | _, _ => .undefined
  else .undefined

def lookups (ring : ConsistentHash hash) (n : Int) : Nat :=
  (Finset.univ.filter fun h => ring.find false h = .node n).card

end ConsistentHash

def arcs (counted : Int → Bool) (priv : Hash) : List (Hash × VNode) → Int
  | [] => 0
  | (cur, node) :: rest =>
    (if counted node.nodeId then ((cur - priv).val : Int) else 0) + arcs counted cur rest

def pointsAfter (counted : Int → Bool) (priv : Hash) (es : List (Hash × VNode)) : Finset Hash :=
  Finset.univ.filter fun h =>
    priv < h ∧ (es.find? (h ≤ ·.1)).any (counted ·.2.nodeId) = true

theorem sum_modify (sums : List Int) (n : Int) (i : Nat) (inside : i < sums.length) :
    (sums.modify i (· + n)).sum = sums.sum + n := by
  induction sums generalizing i with
  | nil => exact absurd inside (Nat.not_lt_zero i)
  | cons first rest ih =>
      cases i with
      | zero =>
          simp only [List.modify_zero_cons, List.sum_cons]
          omega
      | succ i =>
          simp only [List.modify_succ_cons, List.sum_cons, ih i (Nat.lt_of_succ_lt_succ inside)]
          omega

theorem addTo_eq_some (added : addTo sums nodeId n = some sums') :
    sums'.length = sums.length ∧
      (∀ i : Nat, sums'[i]? = sums[i]?.map (· + if nodeId = i then (n.val : Int) else 0)) ∧
      sums'.sum = sums.sum + n.val := by
  simp only [addTo] at added
  split at added
  · rename_i inside
    cases added
    refine ⟨List.length_modify _ _ _, fun i => ?_, sum_modify _ _ _ (by omega)⟩
    have same : nodeId.toNat = i ↔ nodeId = i := by omega
    rw [List.getElem?_modify, Option.map_eq_map]
    congr 1
    funext sum
    by_cases own : nodeId = i
    · rw [if_pos (same.mpr own), if_pos own]
    · rw [if_neg (mt same.mp own), if_neg own, Int.add_zero]
  · cases added

theorem addArcs_eq_some (added : addArcs sums priv es = some sums') :
    (∀ i : Nat, sums'[i]? = sums[i]?.map (· + arcs (· = i) priv es)) ∧
      sums'.sum = sums.sum + arcs (fun _ => true) priv es := by
  induction es generalizing sums priv with
  | nil =>
      cases added
      simp [arcs]
  | cons e rest ih =>
      simp only [addArcs, Option.bind_eq_bind, Option.bind_eq_some_iff] at added
      obtain ⟨middle, first, later⟩ := added
      obtain ⟨-, here, total⟩ := addTo_eq_some first
      obtain ⟨there, rest⟩ := ih later
      refine ⟨fun i => ?_, ?_⟩
      · rw [there, here, Option.map_map]
        congr 1
        funext sum
        simp only [Function.comp_apply, arcs, decide_eq_true_eq]
        omega
      · simp only [rest, total, arcs, if_true]
        omega

theorem addTo_isSome (sums : List Int) (n : Hash) {nodeId : Int} (low : 0 ≤ nodeId)
    (high : nodeId < sums.length) :
    ∃ sums', addTo sums nodeId n = some sums' ∧ sums'.length = sums.length :=
  ⟨_, if_pos ⟨low, high⟩, List.length_modify _ _ _⟩

theorem addArcs_isSome (sums : List Int) (priv : Hash)
    (inside : ∀ e ∈ es, 0 ≤ e.2.nodeId ∧ e.2.nodeId < (sums.length : Int)) :
    ∃ sums', addArcs sums priv es = some sums' := by
  induction es generalizing sums priv with
  | nil => exact ⟨sums, rfl⟩
  | cons e rest ih =>
      obtain ⟨low, high⟩ := inside e List.mem_cons_self
      obtain ⟨middle, first, length⟩ := addTo_isSome sums (e.1 - priv) low high
      obtain ⟨sums', later⟩ := ih middle e.1 fun f member => by
        rw [length]
        exact inside f (List.mem_cons_of_mem e member)
      exact ⟨sums', by simp only [addArcs, first, Option.bind_eq_bind, Option.bind_some, later]⟩

theorem le_foldl_max_iff {es : List (Hash × VNode)} (least : Int) :
    n ≤ es.foldl (fun greatest e => max greatest e.2.nodeId) least ↔
      n ≤ least ∨ ∃ e ∈ es, n ≤ e.2.nodeId := by
  induction es generalizing least with
  | nil => simp
  | cons e rest ih =>
      rw [List.foldl_cons, ih, le_max_iff, or_assoc]
      simp only [List.mem_cons, exists_eq_or_imp]

theorem val_sub (below : priv ≤ cur) : (((cur - priv : Hash)).val : Int) = cur.val - priv.val := by
  have value : (cur - priv).val = cur.val - priv.val := Fin.sub_val_of_le below
  have order : priv.val ≤ cur.val := below
  omega

theorem mem_pointsAfter : h ∈ pointsAfter counted priv es ↔
    priv < h ∧ (es.find? (h ≤ ·.1)).any (counted ·.2.nodeId) = true := by
  rw [pointsAfter, Finset.mem_filter, and_iff_right (Finset.mem_univ h)]

theorem card_filter_const (points : Finset Hash) (counted : Bool) :
    ((points.filter fun _ => counted = true).card : Int) =
      if counted = true then (points.card : Int) else 0 := by
  cases counted with
  | true => simp
  | false => simp

theorem card_pointsAfter (counted : Int → Bool) {e : Hash × VNode}
    (sorted : (e :: es).Pairwise fun e f => e.1 < f.1) :
    ((pointsAfter counted e.1 es).card : Int) = arcs counted e.1 es := by
  induction es generalizing e with
  | nil => simp [pointsAfter, arcs]
  | cons f rest ih =>
      obtain ⟨first, later⟩ := List.pairwise_cons.mp sorted
      have before : e.1 < f.1 := first f List.mem_cons_self
      have split : pointsAfter counted e.1 (f :: rest) =
          (Finset.Ioc e.1 f.1).filter (fun _ => counted f.2.nodeId = true) ∪
            pointsAfter counted f.1 rest := by
        ext h
        rw [Finset.mem_union, Finset.mem_filter, Finset.mem_Ioc, mem_pointsAfter, mem_pointsAfter]
        by_cases reached : h ≤ f.1
        · simp [reached]
        · have after : f.1 < h := not_le.mp reached
          simp [reached, after, before.trans after]
      have disjoint : Disjoint ((Finset.Ioc e.1 f.1).filter fun _ => counted f.2.nodeId = true)
          (pointsAfter counted f.1 rest) := by
        rw [Finset.disjoint_left]
        intro h arc after
        obtain ⟨arc, -⟩ := Finset.mem_filter.mp arc
        exact (mem_pointsAfter.mp after).1.not_ge (Finset.mem_Ioc.mp arc).2
      rw [split, Finset.card_union_of_disjoint disjoint, Int.natCast_add, ih later, arcs,
        card_filter_const, Fin.card_Ioc, val_sub before.le]
      have order : e.1.val ≤ f.1.val := before.le
      rw [Int.natCast_sub order]

theorem arcs_true {e last : Hash × VNode} (sorted : (e :: es).Pairwise fun e f => e.1 < f.1)
    (ends : (e :: es).getLast? = some last) :
    arcs (fun _ => true) e.1 es = last.1.val - e.1.val := by
  induction es generalizing e with
  | nil =>
      cases ends
      simp [arcs]
  | cons f rest ih =>
      obtain ⟨first, later⟩ := List.pairwise_cons.mp sorted
      rw [List.getLast?_cons_cons] at ends
      rw [arcs, ih later ends, if_pos rfl, val_sub (first f List.mem_cons_self).le]
      omega

namespace ConsistentHash
variable {hash : VNode → Hash} {ring : ConsistentHash hash}

/-- The points that wrap around the end of the hashes or stand before the first entry find
the first entry, the others are points of the loop. -/
theorem find_eq_node_iff_of_entries (entries : ring.nodes.entries = e :: rest)
    (ends : ring.nodes.last = some j) :
    ring.find false h = .node n ↔
      (h ≤ e.1 ∨ j.1 < h) ∧ e.2.nodeId = n ∨ h ∈ pointsAfter (· = n) e.1 rest := by
  obtain ⟨last, greatest⟩ := OrderedMap.last_spec ends
  have found : ring.nodes.successor h = ((e :: rest).find? (h ≤ ·.1)).or (some e) := by
    rw [OrderedMap.successor, OrderedMap.lowerBound, OrderedMap.first, entries]
    rfl
  simp only [find_eq_node_iff, ← OrderedMap.successor_eq_some_iff, found, mem_pointsAfter]
  by_cases reached : h ≤ e.1
  · simp [reached]
  · have after : e.1 < h := not_le.mp reached
    rw [List.find?_cons_of_neg (by simpa using after)]
    cases next : rest.find? (h ≤ ·.1) with
    | some f =>
        have above : h ≤ f.1 := by simpa using List.find?_some next
        have member : f ∈ ring.nodes := (OrderedMap.mem_iff_of_entries entries).mpr
          (List.mem_cons_of_mem e (List.mem_of_find?_eq_some next))
        have notAfter : ¬ j.1 < h := (above.trans (greatest f member)).not_gt
        simp [reached, after, notAfter]
    | none =>
        have below : ∀ f ∈ rest, f.1 < h := by
          simpa using List.find?_eq_none.mp next
        have past : j.1 < h := by
          obtain rfl | later :=
            List.mem_cons.mp ((OrderedMap.mem_iff_of_entries entries).mp last)
          · exact after
          · exact below j later
        simp [past]

theorem card_wrap {i j : Hash} (order : i ≤ j) :
    ((Finset.Iic i ∪ Finset.Ioi j).card : Int) = 2 ^ 32 - (j.val : Int) + i.val := by
  have apart : Disjoint (Finset.Iic i) (Finset.Ioi j) := by
    rw [Finset.disjoint_left]
    intro h before after
    exact ((Finset.mem_Iic.mp before).trans order).not_gt (Finset.mem_Ioi.mp after)
  have bound := j.isLt
  rw [Finset.card_union_of_disjoint apart, Fin.card_Iic, Fin.card_Ioi]
  omega

theorem not_mem_wrap (entries : ring.nodes.entries = e :: rest) (ends : ring.nodes.last = some j)
    (point : h ∈ pointsAfter counted e.1 rest) : h ∉ Finset.Iic e.1 ∪ Finset.Ioi j.1 := by
  obtain ⟨-, greatest⟩ := OrderedMap.last_spec ends
  obtain ⟨before, owned⟩ := mem_pointsAfter.mp point
  obtain ⟨f, next, -⟩ := (Option.any_eq_true _ _).mp owned
  have member : f ∈ ring.nodes := (OrderedMap.mem_iff_of_entries entries).mpr
    (List.mem_cons_of_mem e (List.mem_of_find?_eq_some next))
  have above : h ≤ f.1 := by simpa using List.find?_some next
  intro wraps
  obtain first | past := Finset.mem_union.mp wraps
  · exact before.not_ge (Finset.mem_Iic.mp first)
  · exact (above.trans (greatest f member)).not_gt (Finset.mem_Ioi.mp past)

theorem lookups_eq (entries : ring.nodes.entries = e :: rest) (ends : ring.nodes.last = some j)
    (n : Int) :
    (ring.lookups n : Int) =
      (if e.2.nodeId = n then 2 ^ 32 - (j.1.val : Int) + e.1.val else 0) +
        arcs (· = n) e.1 rest := by
  have sorted := ring.nodes.sorted
  rw [entries] at sorted
  obtain ⟨-, greatest⟩ := OrderedMap.last_spec ends
  have order : e.1 ≤ j.1 :=
    greatest e ((OrderedMap.mem_iff_of_entries entries).mpr List.mem_cons_self)
  have split : (Finset.univ.filter fun h => ring.find false h = .node n) =
      (Finset.Iic e.1 ∪ Finset.Ioi j.1).filter (fun _ => decide (e.2.nodeId = n) = true) ∪
        pointsAfter (· = n) e.1 rest := by
    ext h
    simp only [Finset.mem_filter, Finset.mem_univ, true_and, Finset.mem_union, Finset.mem_Iic,
      Finset.mem_Ioi, decide_eq_true_eq, find_eq_node_iff_of_entries entries ends]
  have disjoint : Disjoint
      ((Finset.Iic e.1 ∪ Finset.Ioi j.1).filter fun _ => decide (e.2.nodeId = n) = true)
      (pointsAfter (· = n) e.1 rest) := by
    rw [Finset.disjoint_left]
    intro h wraps after
    exact not_mem_wrap entries ends after (Finset.mem_filter.mp wraps).1
  rw [lookups, split, Finset.card_union_of_disjoint disjoint, Int.natCast_add,
    card_filter_const, card_pointsAfter _ sorted, card_wrap order]
  simp only [decide_eq_true_eq]

theorem val_wrap_arc {i j : Hash} (order : i ≤ j) :
    (((UINT32_MAX - j + i : Hash)).val : Int) = 2 ^ 32 - 1 - (j.val : Int) + i.val := by
  have below : j ≤ UINT32_MAX := Nat.le_of_lt_succ j.isLt
  have rest : (UINT32_MAX - j).val = UINT32_MAX.val - j.val := Fin.sub_val_of_le below
  have last : UINT32_MAX.val = 2 ^ 32 - 1 := rfl
  have bound := j.isLt
  have inside : i.val ≤ j.val := order
  rw [Fin.val_add, rest, last, Nat.mod_eq_of_lt (by omega)]
  omega

theorem maxNodeId_lt_iff : maxNodeId es < n ↔ -1 < n ∧ ∀ e ∈ es, e.2.nodeId < n := by
  rw [← not_le, maxNodeId, le_foldl_max_iff]
  simp only [not_or, not_le, not_exists, not_and]

theorem maxNodeId_nonneg (member : e ∈ es) (nonneg : 0 ≤ e.2.nodeId) : 0 ≤ maxNodeId es := by
  refine not_lt.mp fun below => ?_
  exact absurd ((maxNodeId_lt_iff.mp below).2 e member) nonneg.not_gt

theorem nodeId_lt_size (member : e ∈ es) : e.2.nodeId < maxNodeId es + 1 :=
  (maxNodeId_lt_iff.mp (Int.lt_succ _)).2 e member

theorem describe_eq_steps (entries : ring.nodes.entries = e :: rest)
    (ends : ring.nodes.last = some j) (nonneg : ∀ f ∈ ring.nodes, 0 ≤ f.2.nodeId)
    (fits : ∀ f ∈ ring.nodes, f.2.nodeId < 2 ^ 31 - 1) :
    ∃ wrapped sums,
      addTo (List.replicate (maxNodeId ring.nodes.entries + 1).toNat 0) e.2.nodeId
        (UINT32_MAX - j.1 + e.1) = some wrapped ∧
      addArcs wrapped e.1 rest = some sums ∧ ring.describe = .counts sums := by
  have own : e ∈ ring.nodes := (OrderedMap.mem_iff_of_entries entries).mpr List.mem_cons_self
  have some_id := maxNodeId_nonneg own (nonneg e own)
  have notNull : maxNodeId ring.nodes.entries ≠ -1 := by omega
  have size : maxNodeId ring.nodes.entries + 1 < 2 ^ 31 := by
    have below := maxNodeId_lt_iff.mpr ⟨by decide, fits⟩
    omega
  obtain ⟨zeros, made⟩ : ∃ zeros : List Int,
      List.replicate (maxNodeId ring.nodes.entries + 1).toNat 0 = zeros := ⟨_, rfl⟩
  have length : (zeros.length : Int) = maxNodeId ring.nodes.entries + 1 := by
    rw [← made, List.length_replicate]
    omega
  obtain ⟨wrapped, first, same⟩ := addTo_isSome zeros (UINT32_MAX - j.1 + e.1)
    (nonneg e own) (by rw [length]; exact nodeId_lt_size own)
  obtain ⟨sums, added⟩ := addArcs_isSome wrapped e.1 fun (f : Hash × VNode) (later : f ∈ rest) => by
    have member := (OrderedMap.mem_iff_of_entries entries).mpr (List.mem_cons_of_mem e later)
    rw [same, length]
    exact ⟨nonneg f member, nodeId_lt_size member⟩
  refine ⟨wrapped, sums, by rw [made, first], added, ?_⟩
  simp only [describe, if_neg notNull, if_pos size, made]
  simp only [entries, ends, first, Option.bind_some, added]

/-- The report of a ring whose node ids fit the array: only the first node's count is
shorter than its arcs. -/
theorem describe_eq_counts (entries : ring.nodes.entries = e :: rest)
    (ends : ring.nodes.last = some j) (nonneg : ∀ f ∈ ring.nodes, 0 ≤ f.2.nodeId)
    (fits : ∀ f ∈ ring.nodes, f.2.nodeId < 2 ^ 31 - 1) :
    ∃ sums, ring.describe = .counts sums ∧ sums.sum = 2 ^ 32 - 1 ∧
      ∀ n : Nat, (∃ f ∈ ring.nodes, (n : Int) ≤ f.2.nodeId) →
        sums[n]? = some ((ring.lookups n : Int) - if e.2.nodeId = n then 1 else 0) := by
  have sorted := ring.nodes.sorted
  rw [entries] at sorted
  obtain ⟨-, greatest⟩ := OrderedMap.last_spec ends
  have order : e.1 ≤ j.1 :=
    greatest e ((OrderedMap.mem_iff_of_entries entries).mpr List.mem_cons_self)
  obtain ⟨wrapped, sums, first, added, report⟩ := describe_eq_steps entries ends nonneg fits
  obtain ⟨-, here, total⟩ := addTo_eq_some first
  obtain ⟨later, sum⟩ := addArcs_eq_some added
  refine ⟨sums, report, ?_, fun n bounded => ?_⟩
  · have empty : (List.replicate (maxNodeId ring.nodes.entries + 1).toNat (0 : Int)).sum = 0 := by
      simp
    rw [sum, total, empty, arcs_true sorted (by rw [← entries]; exact ends), val_wrap_arc order]
    omega
  · obtain ⟨f, member, above⟩ := bounded
    have short : n < (maxNodeId ring.nodes.entries + 1).toNat := by
      have below : f.2.nodeId < maxNodeId ring.nodes.entries + 1 := nodeId_lt_size member
      omega
    rw [later, here, List.getElem?_replicate, if_pos short, lookups_eq entries ends,
      val_wrap_arc order]
    simp only [Option.map_some, Option.some.injEq]
    split <;> omega

theorem describe_of_overflow (ring : ConsistentHash hash)
    (large : ¬ ∀ f ∈ ring.nodes, f.2.nodeId < 2 ^ 31 - 1) : ring.describe = .undefined := by
  have greatest : ¬ maxNodeId ring.nodes.entries < 2 ^ 31 - 1 := fun below =>
    large (maxNodeId_lt_iff.mp below).2
  have notNull : maxNodeId ring.nodes.entries ≠ -1 := by omega
  simp only [describe, if_neg notNull]
  rw [if_neg (by omega)]

def Prints (ring : ConsistentHash hash) (n : Int) : Prop :=
  ∃ sums, ring.describe = .counts sums ∧ sums[n.toNat]? = some (ring.lookups n : Int)

/-- The arc that ends at the first entry is taken to be one point shorter than it is, since
`UINT32_MAX` is one less than the number of hashes. -/
theorem describe_counts_lookups_iff (ring : ConsistentHash hash) (filled : ring.empty = false)
    (nonneg : ∀ e ∈ ring.nodes, 0 ≤ e.2.nodeId) :
    (∀ n, 0 ≤ n → (∃ e ∈ ring.nodes, n ≤ e.2.nodeId) →
      (ring.Prints n ↔ (∀ e ∈ ring.nodes, e.2.nodeId < 2 ^ 31 - 1) ∧
        ∀ e, ring.nodes.first = some e → e.2.nodeId ≠ n)) ∧
      ∀ sums, ring.describe = .counts sums → sums.sum = 2 ^ 32 - 1 := by
  by_cases fits : ∀ e ∈ ring.nodes, e.2.nodeId < 2 ^ 31 - 1
  · obtain ⟨e, rest, entries⟩ : ∃ e rest, ring.nodes.entries = e :: rest := by
      refine List.exists_cons_of_ne_nil fun none => ?_
      rw [empty_iff.mpr none] at filled
      contradiction
    have ends : ring.nodes.last = some _ :=
      List.getLast?_eq_some_getLast (by rw [entries]; exact List.cons_ne_nil e rest)
    have starts : ring.nodes.first = some e := by rw [OrderedMap.first, entries, List.head?_cons]
    obtain ⟨sums, report, total, counts⟩ := describe_eq_counts entries ends nonneg fits
    refine ⟨fun n low inside => ?_, fun others same => ?_⟩
    · have id : (n.toNat : Int) = n := Int.toNat_of_nonneg low
      have count := counts n.toNat (by rwa [id])
      rw [id] at count
      simp only [starts, Option.some.injEq, forall_eq', and_iff_right fits]
      constructor
      · rintro ⟨printed, same, agree⟩ own
        obtain rfl : sums = printed := Report.counts.inj (report.symm.trans same)
        rw [count, if_pos own] at agree
        have fewer := Option.some.inj agree
        omega
      · intro other
        refine ⟨sums, report, ?_⟩
        rw [count, if_neg other, Int.sub_zero]
    · obtain rfl : sums = others := Report.counts.inj (report.symm.trans same)
      exact total
  · have report := describe_of_overflow ring fits
    refine ⟨fun n _ _ => ?_, fun sums counts => ?_⟩
    · constructor
      · rintro ⟨sums, counts, -⟩
        rw [report] at counts
        contradiction
      · rintro ⟨all, -⟩
        exact absurd all fits
    · rw [report] at counts
      contradiction

/-- Node 0 at 5 and node 1 at 10. -/
theorem describe_counts_lookups_iff_pair :
    ∃ ring : ConsistentHash numbering, ring.nodes.entries = [(5, ⟨0, 5⟩), (10, ⟨1, 0⟩)] ∧
      ring.Prints 1 ∧ ¬ ring.Prints 0 ∧
      ∀ sums, ring.describe = .counts sums → sums.sum = 2 ^ 32 - 1 := by
  obtain ⟨ring, entries⟩ : ∃ ring : ConsistentHash numbering,
      ring.nodes.entries = [(5, ⟨0, 5⟩), (10, ⟨1, 0⟩)] :=
    ⟨(((init : ConsistentHash numbering).insert ⟨0, 5⟩).1.insert ⟨1, 0⟩).1, by decide⟩
  have listed : ∀ e ∈ [((5 : Hash), VNode.mk 0 5), (10, ⟨1, 0⟩)],
      0 ≤ e.2.nodeId ∧ e.2.nodeId < 2 ^ 31 - 1 := by decide
  have ids : ∀ e ∈ ring.nodes, 0 ≤ e.2.nodeId ∧ e.2.nodeId < 2 ^ 31 - 1 := fun e member =>
    listed e ((OrderedMap.mem_iff_of_entries entries).mp member)
  have starts : ring.nodes.first = some (5, ⟨0, 5⟩) := by rw [OrderedMap.first, entries]; rfl
  have last : (10, ⟨1, 0⟩) ∈ ring.nodes := (OrderedMap.mem_iff_of_entries entries).mpr (by decide)
  obtain ⟨node, sum⟩ := describe_counts_lookups_iff ring (by rw [empty, entries]; rfl)
    fun e member => (ids e member).1
  refine ⟨ring, entries, ?_, ?_, sum⟩
  · refine (node 1 (by decide) ⟨_, last, by decide⟩).mpr ⟨fun e member => (ids e member).2, ?_⟩
    intro e found
    cases starts.symm.trans found
    decide
  · intro printed
    exact ((node 0 (by decide) ⟨_, last, by decide⟩).mp printed).2 _ starts rfl

/-- A single virtual node gets every lookup, and one less is reported. -/
theorem single_node_undercounted :
    ∃ ring : ConsistentHash numbering, ring.nodes.entries = [(7, ⟨0, 7⟩)] ∧
      ring.describe = .counts [2 ^ 32 - 1] ∧ ring.lookups 0 = 2 ^ 32 ∧ ¬ ring.Prints 0 := by
  have entries : ((init : ConsistentHash numbering).insert ⟨0, 7⟩).1.nodes.entries =
      [(7, ⟨0, 7⟩)] := by decide
  have report : ((init : ConsistentHash numbering).insert ⟨0, 7⟩).1.describe =
      .counts [2 ^ 32 - 1] := by decide
  have lookups : ((init : ConsistentHash numbering).insert ⟨0, 7⟩).1.lookups 0 = 2 ^ 32 := by
    have count := lookups_eq (j := (7, ⟨0, 7⟩)) entries (by decide) 0
    simp only [if_true, arcs] at count
    omega
  refine ⟨_, entries, report, lookups, ?_⟩
  rintro ⟨sums, same, agree⟩
  obtain rfl := Report.counts.inj (report.symm.trans same)
  rw [lookups] at agree
  exact absurd agree (by decide)

end ConsistentHash
end Tinyim.Util
