import Mathlib.Algebra.Order.Field.Basic
import Mathlib.Algebra.Order.Field.Rat
import Mathlib.Data.List.Nodup
import Mathlib.Data.List.Range
import Mathlib.Tactic.Linarith

/-!
# Map of a point cloud

The points of a scene cloud lie in one array and are sorted into a tree of boxes:
a node holds a range of the array and the box around it, and a range of more than
64 points is split in two at its middle along the widest side. A query walks the
boxes that come near enough. Coordinates are those of any ordered field.
-/

namespace Ros1Adapter.PointMaps

variable {K : Type} [Field K] [LinearOrder K]

section Building

/-- A point. -/
abbrev Point (K : Type) := Fin 3 → K

/-- A node. -/
structure Node (K : Type) where
  /-- Least coordinates of its points. -/
  lo : Point K
  /-- Greatest coordinates of its points. -/
  hi : Point K
  /-- First of its points. -/
  first : ℕ
  /-- Behind the last of its points. -/
  last : ℕ
  /-- Node of the first half; none at zero. -/
  left : ℕ := 0
  /-- Node of the second half. -/
  right : ℕ := 0

/-- Points and nodes while a map is built. -/
structure State (K : Type) where
  /-- Points. -/
  points : List (Point K)
  /-- Nodes. -/
  nodes : List (Node K)

/-- Least coordinates of some points from one of them on. -/
def lowest (point : Point K) (rest : List (Point K)) : Point K :=
  rest.foldl (fun lo p axis => min (lo axis) (p axis)) point

/-- Points of a range. -/
def slice (points : List (Point K)) (first last : ℕ) : List (Point K) := (points.drop first).take (last-first)

end Building

section Querying

/-- Square of a distance. -/
def squaredNorm (p center : Point K) : K := (p 0-center 0)^2+(p 1-center 1)^2+(p 2-center 2)^2

/-- Distance to a box along an axis. -/
def outside (node : Node K) (center : Point K) (axis : Fin 3) : K :=
  max (max (node.lo axis-center axis) (center axis-node.hi axis)) 0

/-- Square of the distance to a box. -/
def boxDistance2 (node : Node K) (center : Point K) : K :=
  outside node center 0*outside node center 0+outside node center 1*outside node center 1+
    outside node center 2*outside node center 2

/-- Whether a point is near enough. -/
def within (points : List (Point K)) (center : Point K) (radius2 : K) (i : ℕ) : Bool :=
  (points[i]?).any (fun p => decide (squaredNorm p center ≤ radius2))

/-- Append the points near a center below a node; none where the walk does not end
within the given depth or leaves the nodes. -/
def query (s : State K) (center : Point K) (radius2 : K) : (depth index : ℕ) → List ℕ → Option (List ℕ)
  | 0,_,_ => none
  | depth+1,index,output =>
    match s.nodes[index]? with
    | none => none
    | some node =>
      if radius2<boxDistance2 node center then some output
      else if node.left≠0 then do
        let output ← query s center radius2 depth node.left output
        query s center radius2 depth node.right output
      else some (output ++ (List.range' node.first (node.last-node.first)).filter (within s.points center radius2))

end Querying

section Boxes

variable [IsStrictOrderedRing K]

/-- Along an axis a box is no farther than a point in it. -/
theorem outside_le {node : Node K} {p center : Point K} {axis : Fin 3} (hlo : node.lo axis ≤ p axis)
    (hhi : p axis ≤ node.hi axis) : outside node center axis*outside node center axis ≤ (p axis-center axis)^2 := by
  have hnonneg : 0 ≤ outside node center axis := le_max_right _ _
  have hle : outside node center axis ≤ |p axis-center axis| := by
    refine max_le (max_le ?_ ?_) (abs_nonneg _)
    · exact (sub_le_sub_right hlo _).trans (le_abs_self _)
    · rw [abs_sub_comm]
      exact (sub_le_sub_left hhi _).trans (le_abs_self _)
  calc outside node center axis*outside node center axis ≤ |p axis-center axis| * |p axis-center axis| :=
        mul_self_le_mul_self hnonneg hle
    _=(p axis-center axis)^2 := by rw [abs_mul_abs_self,pow_two]

/-- A box is no farther than a point in it. -/
theorem boxDistance2_le {node : Node K} {p : Point K} (center : Point K)
    (h : ∀ axis, node.lo axis ≤ p axis ∧ p axis ≤ node.hi axis) : boxDistance2 node center ≤ squaredNorm p center := by
  have haxis : ∀ axis, outside node center axis*outside node center axis ≤ (p axis-center axis)^2 :=
    fun axis => outside_le (h axis).1 (h axis).2
  exact add_le_add (add_le_add (haxis 0) (haxis 1)) (haxis 2)

end Boxes

section Trees

/-- The box of a node holds the points of its range. -/
def Covers (s : State K) (node : Node K) : Prop :=
  ∀ i, node.first ≤ i → i<node.last → ∀ p∈s.points[i]?, ∀ axis, node.lo axis ≤ p axis ∧ p axis ≤ node.hi axis

/-- Nodes from an index up to a limit are the tree of a range. -/
inductive Tree (s : State K) : (index limit first last : ℕ) → Prop
  | leaf {index : ℕ} {node : Node K} (hnode : s.nodes[index]?=some node) (hbox : Covers s node) (hleft : node.left=0) :
      Tree s index (index+1) node.first node.last
  | branch {index between limit middle : ℕ} {node : Node K} (hnode : s.nodes[index]?=some node) (hbox : Covers s node)
      (hleft : node.left=index+1) (hright : node.right=between) (hfirst : node.first ≤ middle) (hlast : middle ≤ node.last)
      (left : Tree s (index+1) between node.first middle) (right : Tree s between limit middle node.last) :
      Tree s index limit node.first node.last

omit [Field K] in
/-- A tree has a node. -/
theorem Tree.index_lt {s : State K} {index limit first last : ℕ} (h : Tree s index limit first last) : index<limit := by
  induction h with
  | leaf => exact Nat.lt_succ_self _
  | branch _ _ _ _ _ _ _ _ hleft hright => omega

omit [Field K] in
/-- A tree stays where its nodes and points do. -/
theorem Tree.transfer {s t : State K} {index limit first last : ℕ} (h : Tree s index limit first last)
    (hnodes : ∀ i, index ≤ i → i<limit → t.nodes[i]?=s.nodes[i]?)
    (hpoints : ∀ i, first ≤ i → i<last → t.points[i]?=s.points[i]?) : Tree t index limit first last := by
  have hcovers : ∀ node : Node K, Covers s node → (∀ i, node.first ≤ i → i<node.last → t.points[i]?=s.points[i]?) →
      Covers t node := by
    intro node hbox hsame i hfirst hlast
    rw [hsame i hfirst hlast]
    exact hbox i hfirst hlast
  induction h with
  | leaf hnode hbox hleft =>
    exact .leaf ((hnodes _ le_rfl (Nat.lt_succ_self _)).trans hnode) (hcovers _ hbox hpoints) hleft
  | branch hnode hbox hleft hright hfirst hlast left right ihleft ihright =>
    have hl := left.index_lt
    have hr := right.index_lt
    refine .branch ((hnodes _ le_rfl (by omega)).trans hnode) (hcovers _ hbox hpoints) hleft hright hfirst hlast
      (ihleft (fun i h1 h2 => hnodes i (by omega) (by omega)) (fun i h1 h2 => hpoints i h1 (by omega)))
      (ihright (fun i h1 h2 => hnodes i (by omega) h2) (fun i h1 h2 => hpoints i (by omega) h2))

variable [IsStrictOrderedRing K]

/-- On a tree a query appends the near points of its range in order. -/
theorem Tree.query {s : State K} {index limit first last : ℕ} (h : Tree s index limit first last) (center : Point K)
    (radius2 : K) {depth : ℕ} (hdepth : limit-index ≤ depth) (output : List ℕ) :
    PointMaps.query s center radius2 depth index output=
      some (output ++ (List.range' first (last-first)).filter (within s.points center radius2)) := by
  have hfar : ∀ node : Node K, Covers s node → radius2<boxDistance2 node center →
      (List.range' node.first (node.last-node.first)).filter (within s.points center radius2)=[] := by
    intro node hbox hfar
    rw [List.filter_eq_nil_iff]
    intro i hi hwithin
    rw [List.mem_range'_1] at hi
    unfold within at hwithin
    cases hp : s.points[i]? with
    | none =>
      rw [hp] at hwithin
      cases hwithin
    | some p =>
      rw [hp,Option.any_some,decide_eq_true_iff] at hwithin
      have hinside := boxDistance2_le center (hbox i hi.1 (by omega) p hp)
      exact absurd (hfar.trans_le hinside) (not_lt.mpr hwithin)
  induction h generalizing depth output with
  | @leaf index node hnode hbox hleft =>
    cases depth with
    | zero => omega
    | succ depth =>
      unfold PointMaps.query
      rw [hnode]
      simp only
      split
      · rename_i hout
        rw [hfar node hbox hout,List.append_nil]
      · rw [if_neg (not_not.mpr hleft)]
  | @branch index between limit middle node hnode hbox hleft hright hfirst hlast left right ihleft ihright =>
    have hl := left.index_lt
    have hr := right.index_lt
    cases depth with
    | zero => omega
    | succ depth =>
      have hsplit : List.range' node.first (node.last-node.first)=
          List.range' node.first (middle-node.first) ++ List.range' middle (node.last-middle) := by
        have hmiddle : node.first+(middle-node.first)=middle := by omega
        have hlength : middle-node.first+(node.last-middle)=node.last-node.first := by omega
        have happend := @List.range'_append_1 node.first (middle-node.first) (node.last-middle)
        rw [hmiddle,hlength] at happend
        exact happend.symm
      unfold PointMaps.query
      rw [hnode]
      simp only
      split
      · rename_i hout
        rw [hfar node hbox hout,List.append_nil]
      · have hbranch : node.left≠0 := by omega
        rw [if_pos hbranch,hleft,hright,ihleft (by omega)]
        simp only [Option.bind_eq_bind,Option.bind_some]
        rw [ihright (by omega),hsplit,List.filter_append,List.append_assoc]

end Trees

section Results

variable [IsStrictOrderedRing K]

end Results

end Ros1Adapter.PointMaps
