import Mathlib.Order.Interval.Finset.Fin
import Tinyim.OrderedMap

/-! `ConsistentHash`, a ring of virtual nodes in a `std::map` from hashes to virtual nodes.
The hash function is a parameter: two virtual nodes may have the same hash, and the map
holds one of them. -/
namespace Tinyim.Util

abbrev Hash := Fin (2 ^ 32)

structure VNode where
  nodeId : Int
  vnodeId : Int
  deriving DecidableEq

/-- A virtual node is only ever put at its own hash. -/
structure ConsistentHash (hash : VNode → Hash) where
  nodes : OrderedMap Hash VNode
  placed : ∀ e ∈ nodes, e.1 = hash e.2

/-- The result of a call of `find`. It is undefined when `begin()` of an empty map is
dereferenced. -/
inductive Found where
  | node (nodeId : Int)
  | aborted
  | undefined
  deriving DecidableEq

namespace ConsistentHash
variable {hash : VNode → Hash} {ring : ConsistentHash hash}

def init : ConsistentHash hash := ⟨.empty, fun _ member => absurd member List.not_mem_nil⟩

def empty (ring : ConsistentHash hash) : Bool := ring.nodes.entries.isEmpty

/-- The flag says whether the node was put at its hash, where the iterator points. -/
def insert (ring : ConsistentHash hash) (node : VNode) : ConsistentHash hash × Bool where
  fst := {
    nodes := ring.nodes.emplace (hash node) node
    placed := by
      intro e member
      obtain member | ⟨rfl, -⟩ := OrderedMap.mem_emplace.mp member
      · exact ring.placed e member
      · rfl }
  snd := ring.nodes.entries.all (·.1 ≠ hash node)

/-- `erase(iterator)` for the entry of a key. -/
def eraseAt (ring : ConsistentHash hash) (key : Hash) : ConsistentHash hash where
  nodes := ring.nodes.erase key
  placed := fun e member => ring.placed e (OrderedMap.mem_erase.mp member).1

/-- `erase(vnode_t)` with the number of entries that it erases. -/
def erase (ring : ConsistentHash hash) (node : VNode) : ConsistentHash hash × Nat :=
  (ring.eraseAt (hash node), ring.nodes.entries.countP (·.1 = hash node))

/-- `find`, with `assert(nodes_.empty())` in it or compiled out. -/
def find (asserts : Bool) (ring : ConsistentHash hash) (h : Hash) : Found :=
  if asserts && !ring.empty then .aborted
  else
    match ring.nodes.lowerBound h with
    | some (_, node) => .node node.nodeId
    | none =>
      match ring.nodes.first with
      | some (_, node) => .node node.nodeId
      | none => .undefined

/-- The virtual node whose `node_id` is returned. -/
def owner (ring : ConsistentHash hash) (h : Hash) : Option VNode :=
  (ring.nodes.successor h).map Prod.snd

def insertAll (ring : ConsistentHash hash) (nodes : List VNode) : ConsistentHash hash :=
  nodes.foldl (fun ring node => (ring.insert node).1) ring

def Free (ring : ConsistentHash hash) (node : VNode) : Prop := ∀ e ∈ ring.nodes, e.1 ≠ hash node

theorem inserted_iff_free : (ring.insert node).2 = true ↔ ring.Free node := by
  simp only [insert, List.all_eq_true, decide_eq_true_eq]
  rfl

theorem eq_of_nodes {other : ConsistentHash hash} (same : ring.nodes = other.nodes) :
    ring = other := by
  cases ring
  cases other
  cases same
  rfl

theorem mem_insertAll {es : List (Hash × VNode)} (placed : ∀ e ∈ es, e.1 = hash e.2)
    (sorted : es.Pairwise fun e f => e.1 < f.1) (ring : ConsistentHash hash)
    (free : ∀ e ∈ es, ring.Free e.2) :
    e ∈ (ring.insertAll (es.map Prod.snd)).nodes ↔ e ∈ ring.nodes ∨ e ∈ es := by
  induction es generalizing ring with
  | nil => simp [insertAll]
  | cons f rest ih =>
      obtain ⟨first, later⟩ := List.pairwise_cons.mp sorted
      have own : f = (hash f.2, f.2) := Prod.ext (placed f List.mem_cons_self) rfl
      have inserted {e : Hash × VNode} :
          e ∈ (ring.insert f.2).1.nodes ↔ e ∈ ring.nodes ∨ e = f := by
        have alone : ∀ g ∈ ring.nodes, g.1 ≠ hash f.2 := free f List.mem_cons_self
        rw [insert, OrderedMap.mem_emplace, and_iff_left alone, ← own]
      have stillFree : ∀ g ∈ rest, (ring.insert f.2).1.Free g.2 := by
        intro g member e inside
        obtain inside | rfl := inserted.mp inside
        · exact free g (List.mem_cons_of_mem f member) e inside
        · rw [← placed g (List.mem_cons_of_mem e member)]
          exact (first g member).ne
      rw [List.map_cons]
      change e ∈ ((ring.insert f.2).1.insertAll (rest.map Prod.snd)).nodes ↔ _
      rw [ih (fun g member => placed g (List.mem_cons_of_mem f member)) later _ stillFree,
        inserted, List.mem_cons, or_assoc]

/-- Every ring is reached from the empty one, by inserts alone. -/
theorem exists_insertAll (ring : ConsistentHash hash) :
    ∃ nodes : List VNode, init.insertAll nodes = ring := by
  refine ⟨ring.nodes.entries.map Prod.snd, eq_of_nodes (OrderedMap.ext_mem fun e => ?_)⟩
  rw [mem_insertAll ring.placed ring.nodes.sorted init
    fun _ _ f member => absurd member List.not_mem_nil]
  exact or_iff_right List.not_mem_nil

theorem find_of_owner (owned : ring.nodes.successor h = some e) :
    ring.find false h = .node e.2.nodeId := by
  simp only [find, Bool.false_and, Bool.false_eq_true, if_false]
  rw [OrderedMap.successor] at owned
  cases bound : ring.nodes.lowerBound h with
  | some f =>
      rw [bound, Option.some_or] at owned
      cases owned
      rfl
  | none =>
      rw [bound, Option.none_or] at owned
      rw [owned]

theorem find_of_empty (none : ring.nodes.successor h = none) :
    ring.find false h = .undefined := by
  have entries := OrderedMap.successor_eq_none_iff.mp none
  simp [find, OrderedMap.lowerBound, OrderedMap.first, entries]

theorem find_congr {other : ConsistentHash hash}
    (same : other.nodes.successor i = ring.nodes.successor h) :
    other.find false i = ring.find false h := by
  cases owned : ring.nodes.successor h with
  | some e => rw [find_of_owner owned, find_of_owner (same.trans owned)]
  | none => rw [find_of_empty owned, find_of_empty (same.trans owned)]

theorem empty_iff : ring.empty = true ↔ ring.nodes.entries = [] := List.isEmpty_iff

/-- Without the assertion `find` returns the node with the least hash at or after the
point, or with the least hash of all. -/
theorem find_eq_node_iff :
    ring.find false h = .node n ↔ ∃ e, ring.nodes.Succeeds h e ∧ e.2.nodeId = n := by
  simp only [← OrderedMap.successor_eq_some_iff]
  cases owned : ring.nodes.successor h with
  | some e => simp [find_of_owner owned]
  | none => simp [find_of_empty owned]

theorem owner_eq_some_iff (node : VNode) :
    ring.owner h = some node ↔ ring.nodes.Succeeds h (hash node, node) := by
  rw [owner, Option.map_eq_some_iff]
  constructor
  · rintro ⟨e, found, rfl⟩
    have finds := OrderedMap.successor_eq_some_iff.mp found
    rwa [← ring.placed e finds.member]
  · intro finds
    exact ⟨_, OrderedMap.successor_eq_some_iff.mpr finds, rfl⟩

/-- What the assertion is for: a lookup of a ring with nodes passes it and is right, and
one of a ring without nodes goes no further. -/
def TotalLookup (ring : ConsistentHash hash) (h : Hash) : Prop :=
  (ring.empty = false →
      ∃ e, ring.nodes.Succeeds h e ∧ ring.find true h = .node e.2.nodeId) ∧
    (ring.empty = true → ring.find true h = .aborted)

/-- The assertion is the wrong way round. It stops every lookup that is defined and lets
every lookup pass that is not. -/
theorem asserted_find_never_total (ring : ConsistentHash hash) (h : Hash) :
    ¬ ring.TotalLookup h ∧
      ring.find true h = if ring.empty then .undefined else .aborted := by
  cases none : ring.empty with
  | true =>
      have entries := empty_iff.mp none
      have undefined : ring.find true h = .undefined := by
        simp [find, none, OrderedMap.lowerBound, OrderedMap.first, entries]
      refine ⟨fun total => ?_, undefined⟩
      have aborted := total.2 none
      rw [undefined] at aborted
      contradiction
  | false =>
      have aborted : ring.find true h = .aborted := by simp [find, none]
      refine ⟨fun total => ?_, aborted⟩
      obtain ⟨e, -, found⟩ := total.1 none
      rw [aborted] at found
      contradiction

/-- The hash that numbers the virtual nodes of the first nodes. -/
def numbering (node : VNode) : Hash := Fin.ofNat (2 ^ 32) (10 * node.nodeId + node.vnodeId).toNat

theorem asserted_find_aborts :
    ((init : ConsistentHash numbering).insert ⟨1, 0⟩).1.find true 5 = .aborted ∧
      (init : ConsistentHash numbering).find true 5 = .undefined ∧
      ¬ ((init : ConsistentHash numbering).insert ⟨1, 0⟩).1.TotalLookup 5 := by
  refine ⟨by decide, by decide, fun total => ?_⟩
  obtain ⟨e, -, found⟩ := total.1 (by decide)
  have aborted : ((init : ConsistentHash numbering).insert ⟨1, 0⟩).1.find true 5 = .aborted := by
    decide
  rw [aborted] at found
  contradiction

/-- A new virtual node takes the lookups of the arc that ends at its hash, if no other
virtual node stands there, and no other lookup changes. -/
theorem insert_takes_arc (ring : ConsistentHash hash) (node : VNode)
    (filled : ring.empty = false) :
    (∀ h, (ring.insert node).1.find false h = ring.find false h ∨
        (ring.insert node).1.find false h = .node node.nodeId) ∧
      (ring.Free node → ∃ p, ring.nodes.Precedes (hash node) p ∧
        ∀ h, (ring.insert node).1.owner h = some node ↔ OrderedMap.InArc p.1 (hash node) h) := by
  constructor
  · intro h
    obtain same | new := OrderedMap.successor_emplace ring.nodes h (hash node) node
    · exact .inl (find_congr same)
    · exact .inr (find_of_owner (e := (hash node, node)) new)
  · intro free
    obtain ⟨e, member⟩ := List.exists_mem_of_ne_nil ring.nodes.entries fun none => by
      rw [empty_iff.mpr none] at filled
      contradiction
    obtain ⟨p, before⟩ := OrderedMap.exists_precedes (m := ring.nodes) (hash node) member
    refine ⟨p, before, fun h => ?_⟩
    rw [owner_eq_some_iff]
    exact OrderedMap.succeeds_iff_inArc (OrderedMap.mem_emplace.mpr (.inr ⟨rfl, free⟩))
      (before.emplace node)

/-- Virtual nodes at 10 and 20, and a new one at 15. -/
theorem insert_takes_arc_between :
    ∃ ring : ConsistentHash numbering, ring.nodes.entries = [(10, ⟨1, 0⟩), (20, ⟨2, 0⟩)] ∧
      (∀ h, (ring.insert ⟨1, 5⟩).1.find false h = ring.find false h ∨
        (ring.insert ⟨1, 5⟩).1.find false h = .node 1) ∧
      ∃ p, ring.nodes.Precedes 15 p ∧
        ∀ h, (ring.insert ⟨1, 5⟩).1.owner h = some ⟨1, 5⟩ ↔ OrderedMap.InArc p.1 15 h := by
  refine ⟨((init.insert ⟨1, 0⟩).1.insert ⟨2, 0⟩).1, by decide, ?_⟩
  obtain ⟨kept, arc⟩ := insert_takes_arc
    ((init : ConsistentHash numbering).insert ⟨1, 0⟩ |>.1.insert ⟨2, 0⟩).1 ⟨1, 5⟩ (by decide)
  exact ⟨kept, arc (inserted_iff_free.mp (by decide))⟩

def Holds (ring : ConsistentHash hash) (node : VNode) : Prop := ∃ e ∈ ring.nodes, e.2 = node

/-- `erase(node)` gives up the lookups of `node` itself and no others. -/
def ActsOnVNode (ring : ConsistentHash hash) (node : VNode) : Prop :=
  (∀ h, (ring.erase node).1.find false h ≠ ring.find false h → ring.owner h = some node) ∧
    (¬ ring.Holds node → ∀ h, (ring.erase node).1.find false h = ring.find false h) ∧
    (¬ ring.Holds node →
      ∀ h, ((ring.insert node).1.erase node).1.find false h = ring.find false h)

theorem find_eraseAt_of_other (other : ∀ e, ring.nodes.successor h = some e → e.1 ≠ key) :
    (ring.eraseAt key).find false h = ring.find false h :=
  find_congr (OrderedMap.successor_erase other)

theorem actsOnVNode_of_free (free : ring.Free node) : ring.ActsOnVNode node := by
  have unchanged (h : Hash) : (ring.erase node).1.find false h = ring.find false h :=
    find_eraseAt_of_other fun e found =>
      free e (OrderedMap.successor_eq_some_iff.mp found).member
  refine ⟨fun h changed => absurd (unchanged h) changed, fun _ => unchanged, fun _ h => ?_⟩
  have restored : ((ring.insert node).1.erase node).1.nodes = ring.nodes :=
    OrderedMap.erase_emplace_of_free free node
  exact find_congr (by rw [restored])

theorem actsOnVNode_of_member (member : (hash node, node) ∈ ring.nodes) :
    ring.ActsOnVNode node := by
  have held : ring.Holds node := ⟨_, member, rfl⟩
  refine ⟨fun h changed => ?_, absurd held, absurd held⟩
  by_contra unowned
  refine changed (find_eraseAt_of_other fun e found same => unowned ?_)
  have finds := OrderedMap.successor_eq_some_iff.mp found
  rwa [owner_eq_some_iff, ← OrderedMap.eq_of_key finds.member member same]

/-- What is left of the lookups when another virtual node with the same hash is erased:
they are the same if the next one on the circle belongs to the same node. -/
theorem find_erase_eq_iff (member : (hash node, other) ∈ ring.nodes) :
    (∀ h, (ring.erase node).1.find false h = ring.find false h) ↔
      ∃ x, ring.nodes.Follows (hash node) x ∧ x.2.nodeId = other.nodeId := by
  constructor
  · intro unchanged
    have found : ring.find false (hash node) = .node other.nodeId :=
      find_eq_node_iff.mpr ⟨_, OrderedMap.succeeds_self member, rfl⟩
    rw [← unchanged, find_eq_node_iff] at found
    obtain ⟨x, finds, same⟩ := found
    exact ⟨x, OrderedMap.succeeds_erase_iff_follows.mp finds, same⟩
  · rintro ⟨x, next, same⟩ h
    by_cases owned : ring.nodes.successor h = some (hash node, other)
    · have finds := OrderedMap.successor_eq_some_iff.mp owned
      have moved : (ring.erase node).1.nodes.successor h = some x := by
        apply (OrderedMap.successor_erase_of_owned finds).trans
        exact OrderedMap.successor_eq_some_iff.mpr (OrderedMap.succeeds_erase_iff_follows.mpr next)
      rw [find_of_owner owned, find_of_owner moved, same]
    · refine find_eraseAt_of_other fun e found key => owned ?_
      have finds := OrderedMap.successor_eq_some_iff.mp found
      rw [found, OrderedMap.eq_of_key finds.member member key]

theorem actsOnVNode_iff_of_collision (member : (hash node, other) ∈ ring.nodes)
    (different : other ≠ node) :
    ring.ActsOnVNode node ↔
      ∀ h, (ring.erase node).1.find false h = ring.find false h := by
  have absent : ¬ ring.Holds node := by
    rintro ⟨e, inside, rfl⟩
    have same := OrderedMap.eq_of_key inside member (ring.placed e inside)
    exact different (congrArg Prod.snd same).symm
  have unowned (h : Hash) : ring.owner h ≠ some node := fun owned =>
    absent ⟨_, ((owner_eq_some_iff node).mp owned).member, rfl⟩
  constructor
  · intro acts
    exact acts.2.1 absent
  · intro unchanged
    refine ⟨fun h changed => absurd (unchanged h) changed, fun _ => unchanged, fun _ h => ?_⟩
    have kept : (ring.insert node).1.nodes = ring.nodes :=
      OrderedMap.emplace_of_taken member node
    rw [← unchanged h]
    exact find_congr (by simp only [erase, eraseAt, kept])

/-- The map is keyed by hashes: `erase(node)` erases whatever stands at the hash of
`node`. -/
theorem acts_on_vnodes_iff (ring : ConsistentHash hash) (node : VNode) :
    ring.ActsOnVNode node ↔ ∀ other, (hash node, other) ∈ ring.nodes →
      other = node ∨ ∃ x, ring.nodes.Follows (hash node) x ∧ x.2.nodeId = other.nodeId := by
  constructor
  · intro acts other member
    by_cases same : other = node
    · exact .inl same
    · right
      exact (find_erase_eq_iff member).mp ((actsOnVNode_iff_of_collision member same).mp acts)
  · intro allowed
    by_cases free : ring.Free node
    · exact actsOnVNode_of_free free
    · obtain ⟨⟨key, other⟩, member, rfl⟩ : ∃ e ∈ ring.nodes, e.1 = hash node := by
        simpa [Free] using free
      by_cases same : other = node
      · subst same
        exact actsOnVNode_of_member member
      · obtain held | next := allowed other member
        · exact absurd held same
        · exact (actsOnVNode_iff_of_collision member same).mpr ((find_erase_eq_iff member).mpr next)

/-- The virtual nodes (1, 10) and (2, 0) have the hash 20. Erasing the first one, which is
not in the ring, leaves node 2 without lookups. -/
theorem erase_of_absent_vnode :
    let ring := ((init : ConsistentHash numbering).insert ⟨2, 0⟩ |>.1.insert ⟨3, 0⟩).1
    ¬ ring.Holds ⟨1, 10⟩ ∧ ring.find false 15 = .node 2 ∧
      (ring.erase ⟨1, 10⟩).1.find false 15 = .node 3 ∧ ¬ ring.ActsOnVNode ⟨1, 10⟩ := by
  intro ring
  have absent : ¬ ring.Holds ⟨1, 10⟩ := by
    rintro ⟨e, member, same⟩
    obtain rfl | rfl : e = (20, ⟨2, 0⟩) ∨ e = (30, ⟨3, 0⟩) := by
      have entries : ring.nodes.entries = [(20, ⟨2, 0⟩), (30, ⟨3, 0⟩)] := by decide
      simpa [entries] using (show e ∈ ring.nodes.entries from member)
    · contradiction
    · contradiction
  refine ⟨absent, by decide, by decide, fun acts => ?_⟩
  have unchanged := acts.2.1 absent 15
  exact absurd unchanged (by decide)

theorem mem_insertAll_iff (ring : ConsistentHash hash) (nodes : List VNode) :
    e ∈ (ring.insertAll nodes).nodes ↔ e ∈ ring.nodes ∨
      (∀ f ∈ ring.nodes, f.1 ≠ e.1) ∧ nodes.find? (hash · = e.1) = some e.2 := by
  induction nodes generalizing ring with
  | nil => simp [insertAll]
  | cons node rest ih =>
      have inserted {f : Hash × VNode} : f ∈ (ring.insert node).1.nodes ↔
          f ∈ ring.nodes ∨ f = (hash node, node) ∧ ring.Free node := OrderedMap.mem_emplace
      change e ∈ ((ring.insert node).1.insertAll rest).nodes ↔ _
      rw [ih, inserted, or_assoc]
      apply or_congr_right
      by_cases here : hash node = e.1
      · have taken : ¬ ∀ f ∈ (ring.insert node).1.nodes, f.1 ≠ e.1 := by
          intro untaken
          by_cases free : ring.Free node
          · exact untaken _ (inserted.mpr (.inr ⟨rfl, free⟩)) here
          · obtain ⟨f, member, same⟩ : ∃ f ∈ ring.nodes, f.1 = hash node := by
              simpa [Free] using free
            exact untaken f (inserted.mpr (.inl member)) (same.trans here)
        rw [List.find?_cons_of_pos (by simpa using here), Option.some_inj, and_comm]
        simp only [taken, false_and, or_false, Free, here]
        exact and_congr_right fun _ => ⟨fun new => new ▸ rfl, fun new => Prod.ext rfl new.symm⟩
      · have same : (∀ f ∈ (ring.insert node).1.nodes, f.1 ≠ e.1) ↔
            ∀ f ∈ ring.nodes, f.1 ≠ e.1 := by
          constructor
          · exact fun untaken f member => untaken f (inserted.mpr (.inl member))
          · intro untaken f member
            obtain member | ⟨rfl, -⟩ := inserted.mp member
            · exact untaken f member
            · exact here
        rw [List.find?_cons_of_neg (by simpa using here), same, or_iff_right]
        rintro ⟨rfl, -⟩
        exact here rfl

/-- Wherever this ring has a virtual node, the other one has one of the same node. -/
def Covers (other ring : ConsistentHash hash) : Prop :=
  ∀ e ∈ ring.nodes, ∃ f ∈ other.nodes, f.1 = e.1 ∧ f.2.nodeId = e.2.nodeId

theorem find_of_covers {other : ConsistentHash hash} (there : other.Covers ring)
    (back : ring.Covers other) (h : Hash) : other.find false h = ring.find false h := by
  cases owned : ring.nodes.successor h with
  | none =>
      have nothing := OrderedMap.successor_eq_none_iff.mp owned
      have empty : other.nodes.entries = [] := by
        apply List.eq_nil_iff_forall_not_mem.mpr
        intro e inside
        obtain ⟨f, member, -⟩ := back e inside
        exact OrderedMap.not_mem_of_nil nothing member
      rw [find_of_empty owned, find_of_empty (OrderedMap.successor_eq_none_iff.mpr empty)]
  | some e =>
      have found := OrderedMap.successor_eq_some_iff.mp owned
      obtain ⟨f, member, key, node⟩ := there e found.member
      have keys : ∀ g ∈ other.nodes, ∃ e ∈ ring.nodes, e.1 = g.1 := by
        intro g inside
        obtain ⟨e, old, same, -⟩ := back g inside
        exact ⟨e, old, same⟩
      have moved := OrderedMap.successor_eq_some_iff.mpr (found.of_keys member key keys)
      rw [find_of_owner owned, find_of_owner moved, node]

theorem covers_of_perm {nodes others : List VNode} (perm : others.Perm nodes)
    (harmless : ∀ v ∈ nodes, ring.Free v → ∀ w ∈ nodes, hash v = hash w → v.nodeId = w.nodeId) :
    (ring.insertAll others).Covers (ring.insertAll nodes) := by
  intro e member
  obtain old | ⟨free, first⟩ := (mem_insertAll_iff ring nodes).mp member
  · exact ⟨e, (mem_insertAll_iff ring others).mpr (.inl old), rfl, rfl⟩
  · have inside := List.mem_of_find?_eq_some first
    have mine : hash e.2 = e.1 := by simpa using List.find?_some first
    cases chosen : others.find? (hash · = e.1) with
    | none =>
        have unlike := List.find?_eq_none.mp chosen e.2 (perm.mem_iff.mpr inside)
        exact absurd mine (by simpa using unlike)
    | some w =>
        have here : hash w = e.1 := by simpa using List.find?_some chosen
        refine ⟨(e.1, w), (mem_insertAll_iff ring others).mpr (.inr ⟨free, chosen⟩), rfl, ?_⟩
        have unheld : ring.Free e.2 := by
          rw [Free, mine]
          exact free
        exact (harmless e.2 inside unheld w
          (perm.mem_iff.mp (List.mem_of_find?_eq_some chosen)) (mine.trans here.symm)).symm

theorem find_insertAll_first (free : ring.Free node) (rest : List VNode) :
    (ring.insertAll (node :: rest)).find false (hash node) = .node node.nodeId := by
  have member : (hash node, node) ∈ (ring.insertAll (node :: rest)).nodes := by
    rw [mem_insertAll_iff]
    exact .inr ⟨free, List.find?_cons_of_pos (by simp)⟩
  exact find_eq_node_iff.mpr ⟨_, OrderedMap.succeeds_self member, rfl⟩

/-- The lookups do not depend on the order in which virtual nodes are inserted exactly when
those that collide at a free hash are of one node. -/
theorem insert_order_irrelevant_iff (ring : ConsistentHash hash) (nodes : List VNode) :
    (∀ others, others.Perm nodes →
        ∀ h, (ring.insertAll others).find false h = (ring.insertAll nodes).find false h) ↔
      ∀ v ∈ nodes, ring.Free v → ∀ w ∈ nodes, hash v = hash w → v.nodeId = w.nodeId := by
  constructor
  · intro same v inside free w member collide
    have front : ∀ x ∈ nodes, ring.Free x →
        (ring.insertAll nodes).find false (hash x) = .node x.nodeId := by
      intro x among unheld
      rw [← same (x :: nodes.erase x) (List.perm_cons_erase among).symm]
      exact find_insertAll_first unheld _
    have first := front v inside free
    rw [collide, front w member (by rwa [Free, ← collide])] at first
    exact (Found.node.inj first).symm
  · intro harmless others perm h
    apply find_of_covers (covers_of_perm perm harmless)
    apply covers_of_perm perm.symm
    intro v inside free w member
    exact harmless v (perm.mem_iff.mp inside) free w (perm.mem_iff.mp member)

end ConsistentHash
end Tinyim.Util
