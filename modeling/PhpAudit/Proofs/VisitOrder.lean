import Mathlib.Data.List.Nodup
import Mathlib.Tactic.Choose
import PhpAudit.Proofs.Traversal

/-!
The loops behind the two traversals. Such a loop keeps its nodes on a stack and puts the parts of a
node on it from the last to the first, so that the first one comes off next. Every loop comes to its
end, and what it gives out is the tree in pre-order: a node, then what the loop gives for each of
its parts. An occurrence of a node is the way down to it, as a list of places among the parts. Each
way is taken once, and no way comes behind one that goes through it.
-/

namespace PhpAudit

/-- A loop with a stack, whose top is its last element, and what it gives out before the stack is
empty. A turn takes the top off and puts the parts inside it on the stack, the last one first. -/
inductive StackLoop {Node : Type} (inside : Node → List Node) : List Node → List Node → Prop
  | done : StackLoop inside [] []
  | turn {stack given : List Node} {top : Node}
      (later : StackLoop inside (stack ++ (inside top).reverse) given) :
      StackLoop inside (stack ++ [top]) (top :: given)

/-- The node at the end of a way, which goes to one of the direct parts at every step. -/
def nodeAt {Node : Type} (inside : Node → List Node) (root : Node) : List Nat → Option Node
  | [] => some root
  | place :: way => (inside root)[place]?.bind fun part => nodeAt inside part way

/-- The ways are those to all nodes of a tree, and they lead to the given nodes in this order. -/
structure ReachedBy {Node : Type} (inside : Node → List Node) (root : Node)
    (given : List Node) (ways : List (List Nat)) : Prop where
  nodes : given.map some = ways.map (nodeAt inside root)
  complete : ∀ way, way ∈ ways ↔ (nodeAt inside root way).isSome = true
  once : ways.Nodup
  outerFirst : ways.Pairwise fun earlier later => ¬ later <+: earlier

/-- The traversal runs as a loop with a stack, and is the recursive traversal in pre-order. -/
structure InPreorder {Node : Type} (inside : Node → List Node) (visit : Node → List Node) :
    Prop where
  loop : ∀ node given, StackLoop inside [node] given ↔ given = visit node
  recursive : ∀ node, visit node = node :: (inside node).flatMap visit
  occurrences : ∀ node, ∃ ways, ReachedBy inside node (visit node) ways

section Ways

variable {Node : Type} {inside : Node → List Node}

/-- The ways of a node, from the ways of its parts. -/
def waysFrom (waysOf : Node → List (List Nat)) (parts : List Node) : List (List Nat) :=
  [] :: parts.zipIdx.flatMap fun part => (waysOf part.1).map (part.2 :: ·)

theorem nodeAt_cons_of_mem {root part : Node} {place : Nat}
    (member : (part, place) ∈ (inside root).zipIdx) (way : List Nat) :
    nodeAt inside root (place :: way) = nodeAt inside part way := by
  rw [nodeAt, List.mem_zipIdx_iff_getElem?.mp member, Option.bind_some]

theorem mem_waysFrom_cons {waysOf : Node → List (List Nat)} {parts : List Node} {place : Nat}
    {way : List Nat} :
    place :: way ∈ waysFrom waysOf parts ↔
      ∃ part, parts[place]? = some part ∧ way ∈ waysOf part := by
  simp only [waysFrom, List.mem_cons, reduceCtorEq, false_or, List.mem_flatMap, List.mem_map,
    List.cons.injEq, Prod.exists, List.mem_zipIdx_iff_getElem?]
  constructor
  · rintro ⟨part, known, there, inner, member, rfl, rfl⟩
    exact ⟨part, there, member⟩
  · rintro ⟨part, there, member⟩
    exact ⟨part, place, there, way, member, rfl, rfl⟩

theorem pairwise_waysFrom {waysOf : Node → List (List Nat)} {parts : List Node}
    (inner : ∀ part ∈ parts, (waysOf part).Pairwise fun earlier later => ¬ later <+: earlier) :
    (waysFrom waysOf parts).Pairwise fun earlier later => ¬ later <+: earlier := by
  have places : parts.zipIdx.Pairwise fun first second => first.2 ≠ second.2 := by
    apply List.pairwise_map.mp
    rw [List.zipIdx_map_snd]
    exact List.nodup_range'
  -- The empty way goes through no other; two ways start at the same part or part at once.
  refine List.Pairwise.cons ?_ (List.pairwise_flatMap.mpr ⟨?_, ?_⟩)
  · intro way member short
    obtain ⟨part, _, below⟩ := List.mem_flatMap.mp member
    obtain ⟨rest, _, rfl⟩ := List.mem_map.mp below
    exact List.cons_ne_nil _ _ (List.prefix_nil.mp short)
  · intro part member
    refine List.pairwise_map.mpr ((inner part.1 ?_).imp ?_)
    · exact List.fst_mem_of_mem_zipIdx member
    · intro earlier later apart through
      exact apart (List.prefix_cons_inj part.2 |>.mp through)
  · refine places.imp ?_
    intro first second different way below other otherBelow through
    obtain ⟨rest, _, rfl⟩ := List.mem_map.mp below
    obtain ⟨otherRest, _, rfl⟩ := List.mem_map.mp otherBelow
    exact different (List.cons_prefix_cons.mp through).1.symm

/-- If ways reach the nodes below every part, those through the parts reach the nodes below a node. -/
theorem ReachedBy.ofParts {root : Node} {visit : Node → List Node}
    {waysOf : Node → List (List Nat)}
    (reached : ∀ part ∈ inside root, ReachedBy inside part (visit part) (waysOf part)) :
    ReachedBy inside root (root :: (inside root).flatMap visit)
      (waysFrom waysOf (inside root)) := by
  have apart := pairwise_waysFrom fun part member => (reached part member).outerFirst
  refine ⟨?_, ?_, apart.imp ?_, apart⟩
  · have below : (inside root).flatMap visit =
        (inside root).zipIdx.flatMap fun part => visit part.1 := by
      rw [← List.flatMap_map (f := Prod.fst), List.zipIdx_map_fst]
    rw [waysFrom, List.map_cons, List.map_cons, below, List.map_flatMap, List.map_flatMap]
    congr 1
    refine List.flatMap_congr fun part member => ?_
    have known := (reached part.1 (List.fst_mem_of_mem_zipIdx member)).nodes
    rw [known, List.map_map]
    exact List.map_congr_left fun way _ => (nodeAt_cons_of_mem member way).symm
  · intro way
    cases way with
    | nil => simp [waysFrom, nodeAt]
    | cons place way =>
        rw [mem_waysFrom_cons, nodeAt]
        cases found : (inside root)[place]? with
        | none => simp
        | some part =>
            have member : part ∈ inside root := List.mem_of_getElem? found
            simpa using (reached part member).complete way
  · intro earlier later apart same
    exact apart (same ▸ List.prefix_rfl)

end Ways

namespace StackVisit

variable {Node : Type} {visit : List Node → List Node} {inside : Node → List Node}
  {weight : List Node → Nat}

theorem stackLoop (visits : StackVisit visit inside weight) (stack : List Node) :
    StackLoop inside stack.reverse (visit stack) := by
  generalize size : weight stack = bound
  induction bound using Nat.strongRecOn generalizing stack with
  | ind bound ih =>
      cases stack with
      | nil =>
          rw [visits.empty]
          exact .done
      | cons top rest =>
          have smaller := visits.lighter top rest
          have later := ih _ (by omega) (inside top ++ rest) rfl
          rw [List.reverse_append] at later
          rw [visits.step, List.reverse_cons]
          exact .turn later

/-- A loop gives out one list, as its stack leaves no choice. -/
theorem eq_of_stackLoop (visits : StackVisit visit inside weight) {stack given : List Node}
    (runs : StackLoop inside stack given) : given = visit stack.reverse := by
  induction runs with
  | done => exact visits.empty.symm
  | turn later ih =>
      rw [ih, List.reverse_append, List.reverse_reverse, List.reverse_append,
        List.reverse_singleton, List.singleton_append, visits.step]

theorem exists_ways (visits : StackVisit visit inside weight) (root : Node) :
    ∃ ways, ReachedBy inside root (visit [root]) ways := by
  induction root using visits.induction with
  | step root ih =>
      -- Parts that are equal may be given the same ways: their places keep the ways apart.
      choose! waysOf reached using ih
      rw [visits.singleton]
      exact ⟨_, ReachedBy.ofParts reached⟩

theorem inPreorder (visits : StackVisit visit inside weight) :
    InPreorder inside fun node => visit [node] where
  loop node given := by
    constructor
    · exact visits.eq_of_stackLoop
    · rintro rfl
      exact visits.stackLoop [node]
  recursive := visits.singleton
  occurrences := visits.exists_ways

end StackVisit

/-- The flattening of statements and the walk through expressions are loops that come to their end.
Each gives a node and then the same for every direct part, from left to right, so each occurrence of
a node once, and the nodes around it before it. -/
theorem flatten_and_walk_in_preorder :
    InPreorder Stmt.children Stmt.flatten ∧ InPreorder Expr.subexpressions Expr.walk :=
  ⟨Stmt.flattenStack_visit.inPreorder, Expr.walkStack_visit.inPreorder⟩

end PhpAudit
