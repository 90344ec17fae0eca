import Mathlib.Data.List.Basic
import PhpAudit.Proofs.Traversal

/-!
The statements of a flattening together with the statements around them. A statement lies in a part
of the one directly around it: in its body, in one of the other branches of a conditional, or in a
method of a declaration. Going from a statement to its parts gives the flattening in the same order,
and for each statement in it the way down to it.
-/

namespace PhpAudit

/-- The parts of a statement that hold other statements. -/
inductive Region where
  | body
  | elseIf
  | otherwise
  | method (owner : Method Expr Stmt)

/-- A statement around another one, with the part of it in which the other one lies. -/
structure Ancestor where
  statement : Stmt
  region : Region

/-- A statement with the statements around it, the nearest one first. -/
structure Descendant where
  ancestors : List Ancestor
  statement : Stmt

/-- The descendant as it is seen from one statement further out. -/
def Descendant.within (outermost : Ancestor) (descendant : Descendant) : Descendant :=
  { descendant with ancestors := descendant.ancestors ++ [outermost] }

namespace Stmt

/-- The parts of a statement with the statements directly in them. -/
def regions : Stmt → List (Region × List Stmt)
  | ifElse _ _ body elseIfs otherwise =>
      (.body, body.statements) :: elseIfs.map (fun clause => (.elseIf, clause.body.statements)) ++
        otherwise.toList.map fun clause => (.otherwise, clause.body.statements)
  | declaration content =>
      content.methods.flatMap fun method =>
        method.body.toList.map fun body => (.method method, body.statements)
  | statement => [(.body, statement.children)]

/-- The statements directly inside a statement, each with the part it lies in. -/
def inner (statement : Stmt) : List (Region × Stmt) :=
  statement.regions.flatMap fun part => part.2.map fun inner => (part.1, inner)

theorem methodStatements_eq_flatMap (content : Declaration Expr Stmt) :
    methodStatements content.members =
      content.methods.flatMap fun method => method.body.toList.flatMap Block.statements := by
  rcases content with ⟨span, name, kind, members⟩
  simp only [methodStatements, Declaration.methods]
  induction members with
  | nil => rfl
  | cons member rest ih =>
      rcases member with ⟨⟨_, _, _, _, _, _ | body, _⟩⟩ | _ | _ | _ | _ <;> simp [ih]

/-- The parts hold the children, in order. -/
theorem flatMap_regions (statement : Stmt) :
    statement.regions.flatMap Prod.snd = statement.children := by
  cases statement with
  | ifElse span condition body elseIfs otherwise => simp [regions, children, List.flatMap_map]
  | declaration content =>
      simp [regions, children, methodStatements_eq_flatMap, List.flatMap_assoc, List.flatMap_map]
  | _ => simp [regions]

theorem map_snd_inner (statement : Stmt) : statement.inner.map Prod.snd = statement.children := by
  rw [← flatMap_regions, inner, List.map_flatMap]
  simp [Function.comp_def]

theorem mem_children_of_region {statement inner : Stmt} {part : Region × List Stmt}
    (listed : part ∈ statement.regions) (member : inner ∈ part.2) :
    inner ∈ statement.children := by
  rw [← flatMap_regions]
  exact List.mem_flatMap.mpr ⟨part, listed, member⟩

theorem sizeOf_lt_of_mem_inner {statement : Stmt} {entry : Region × Stmt}
    (member : entry ∈ statement.inner) : sizeOf entry.2 < sizeOf statement := by
  apply sizeOf_lt_of_mem_children
  rw [← map_snd_inner]
  exact List.mem_map_of_mem member

/-- A statement and all statements inside it, each with the statements around it. -/
def descendants (statement : Stmt) : List Descendant :=
  ⟨[], statement⟩ :: statement.inner.attach.flatMap fun entry =>
    entry.1.2.descendants.map (Descendant.within ⟨statement, entry.1.1⟩)
termination_by sizeOf statement
decreasing_by exact sizeOf_lt_of_mem_inner entry.2

theorem descendants_eq (statement : Stmt) :
    statement.descendants = ⟨[], statement⟩ :: statement.regions.flatMap fun part =>
      part.2.flatMap fun inner =>
        inner.descendants.map (Descendant.within ⟨statement, part.1⟩) := by
  have entries : (statement.inner.attach.map Subtype.val).flatMap (fun entry : Region × Stmt =>
      entry.2.descendants.map (Descendant.within ⟨statement, entry.1⟩)) =
      statement.regions.flatMap fun part => part.2.flatMap fun inner =>
        inner.descendants.map (Descendant.within ⟨statement, part.1⟩) := by
    rw [List.attach_map_subtype_val, inner, List.flatMap_assoc]
    simp only [List.flatMap_map]
  rw [← entries, List.flatMap_map, descendants]

/-- The statements among the descendants are those of the flattening, in the same order. -/
theorem map_statement_descendants (statement : Stmt) :
    statement.descendants.map Descendant.statement = statement.flatten := by
  induction statement using induction_on_children with
  | step statement ih =>
      rw [descendants_eq, flatten_eq, ← flatMap_regions, List.map_cons, List.map_flatMap,
        List.flatMap_assoc]
      congr 1
      refine List.flatMap_congr fun part listed => ?_
      rw [List.map_flatMap]
      refine List.flatMap_congr fun inner member => ?_
      rw [List.map_map]
      exact ih inner (mem_children_of_region listed member)

/-- The statements in those parts of a statement that are entered. -/
def entered (enters : Ancestor → Bool) (statement : Stmt) : List Stmt :=
  statement.regions.flatMap fun part => if enters ⟨statement, part.1⟩ then part.2 else []

/-- The statements of a flattening that lie, at every level, in a part that is entered. -/
def visited (enters : Ancestor → Bool) (statement : Stmt) : List Stmt :=
  (statement.descendants.filter fun descendant => descendant.ancestors.all enters).map
    Descendant.statement

theorem mem_children_of_mem_entered {enters : Ancestor → Bool} {statement inner : Stmt}
    (member : inner ∈ statement.entered enters) : inner ∈ statement.children := by
  obtain ⟨part, listed, chosen⟩ := List.mem_flatMap.mp member
  cases entered : enters ⟨statement, part.1⟩ with
  | false => simp [entered] at chosen
  | true =>
      rw [entered, if_pos rfl] at chosen
      exact mem_children_of_region listed chosen

theorem visited_eq (enters : Ancestor → Bool) (statement : Stmt) :
    statement.visited enters =
      statement :: (statement.entered enters).flatMap (visited enters) := by
  have below : ∀ part : Region × List Stmt,
      ((part.2.flatMap fun inner => inner.descendants.map
        (Descendant.within ⟨statement, part.1⟩)).filter fun descendant =>
          descendant.ancestors.all enters).map Descendant.statement =
      (if enters ⟨statement, part.1⟩ then part.2 else []).flatMap (visited enters) := by
    intro part
    rw [List.filter_flatMap, List.map_flatMap]
    cases chosen : enters ⟨statement, part.1⟩ with
    | false => simp [Function.comp_def, List.filter_map, Descendant.within, chosen]
    | true =>
        refine List.flatMap_congr fun inner _ => ?_
        simp [Function.comp_def, List.filter_map, Descendant.within, chosen, visited]
  rw [visited, descendants_eq, List.filter_cons_of_pos rfl, List.map_cons, List.filter_flatMap,
    List.map_flatMap, entered, List.flatMap_assoc]
  simp only [below]

end Stmt

end PhpAudit
