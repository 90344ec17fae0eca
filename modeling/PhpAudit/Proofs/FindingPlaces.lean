import PhpAudit.Proofs.CallCoverage
import PhpAudit.Proofs.SourcePlaces

/-!
Where findings stand. Flattening a statement and walking through an expression stay inside the
outline of the tree, and every check names the place of a node it has found there.
-/

namespace PhpAudit

namespace Outline

theorem Occurs.trans {part middle whole : Outline} (inner : Occurs part middle)
    (outer : Occurs middle whole) : Occurs part whole := by
  induction outer with
  | here => exact inner
  | item member inside ih => exact .item member ih
  | field member inside ih => exact .field member ih

theorem Occurs.fieldAt {part value : Outline} {name label : String} {span : Span}
    {fields : List (String × Outline)} (index : Nat) (found : fields[index]? = some (name, value))
    (inside : Occurs part value) : Occurs part (.node label span fields) :=
  .field (List.mem_of_getElem? found) inside

theorem occurs_map {Node : Type} (outline : Node → Outline) {node : Node} {nodes : List Node}
    (member : node ∈ nodes) : Occurs (outline node) (.list (nodes.map outline)) :=
  .item (List.mem_map_of_mem member) .here

/-- A node of the outline stands at the span. -/
def HasPlace (outline : Outline) (span : Span) : Prop :=
  ∃ label fields, Occurs (.node label span fields) outline

theorem HasPlace.within {part whole : Outline} {span : Span} (place : part.HasPlace span)
    (occurs : Occurs part whole) : whole.HasPlace span := by
  obtain ⟨label, fields, node⟩ := place
  exact ⟨label, fields, node.trans occurs⟩

theorem HasPlace.placed {outline : Outline} {span : Span} {text : List Char}
    (place : outline.HasPlace span) (sited : outline.Sited text) : Placed text span := by
  obtain ⟨label, fields, node⟩ := place
  exact (sited label span fields node).1

end Outline

open Outline

namespace Expr

theorem hasPlace (expression : Expr) : expression.outline.HasPlace expression.span := by
  cases expression <;> exact ⟨_, _, .here⟩

theorem occurs_outlineOption {inner : Expr} {optional : Option Expr}
    (present : inner ∈ optional.toList) : Occurs inner.outline (outlineOption optional) := by
  rw [Option.mem_toList] at present
  cases present
  exact .here

theorem occurs_outlineArguments {inner : Expr} {arguments : List (Argument Expr)}
    (present : inner ∈ arguments.map Argument.value) :
    Occurs inner.outline (.list (outlineArguments arguments)) := by
  obtain ⟨argument, member, rfl⟩ := List.mem_map.mp present
  have value : Occurs argument.value.outline (outlineArgument argument) := by
    cases argument
    exact .fieldAt 0 rfl .here
  rw [outlineArguments_eq_map]
  exact value.trans (occurs_map outlineArgument member)

theorem occurs_outlineItems {inner : Expr} {items : List (ArrayItem Expr)}
    (present : inner ∈ items.flatMap fun item => item.key.toList ++ [item.value]) :
    Occurs inner.outline (.list (outlineItems items)) := by
  obtain ⟨item, member, part⟩ := List.mem_flatMap.mp present
  have inside : Occurs inner.outline (outlineItem item) := by
    rcases item with ⟨span, key, value, byRef, unpack⟩
    rcases List.mem_append.mp part with inKey | last
    · exact .fieldAt 0 rfl (occurs_outlineOption inKey)
    · cases List.mem_singleton.mp last
      exact .fieldAt 1 rfl .here
  rw [outlineItems_eq_map]
  exact inside.trans (occurs_map outlineItem member)

theorem occurs_outlineArms {inner : Expr} {arms : List (MatchArm Expr)}
    (present : inner ∈ arms.flatMap fun arm => arm.conditions ++ [arm.result]) :
    Occurs inner.outline (.list (outlineArms arms)) := by
  obtain ⟨arm, member, part⟩ := List.mem_flatMap.mp present
  have inside : Occurs inner.outline (outlineArm arm) := by
    rcases arm with ⟨span, conditions, result⟩
    rcases List.mem_append.mp part with condition | value
    · have listed : conditions.isEmpty = false := by
        cases conditions with
        | nil => cases condition
        | cons first rest => rfl
      rw [outlineArm, listed, outlineExprs_eq_map]
      exact .fieldAt 0 rfl (occurs_map Expr.outline condition)
    · cases List.mem_singleton.mp value
      exact .fieldAt 1 rfl .here
  rw [outlineArms_eq_map]
  exact inside.trans (occurs_map outlineArm member)

theorem occurs_part {expression inner : Expr} (inside : inner ∈ expression.subexpressions) :
    Occurs inner.outline expression.outline := by
  cases expression with
  | var _ _ | name _ _ | literal _ _ _ | placeholder _ | closure _ _ _ _ _ _ _
  | arrowFunction _ _ _ _ _ _ | anonymousClass _ _ _ _ => cases inside
  | indirect span part | parenthesized span part =>
      cases List.mem_singleton.mp inside
      exact .fieldAt 0 rfl .here
  | property span part selector | nullsafeProperty span part selector
  | staticProperty span part selector | classConstant span part selector =>
      cases List.mem_singleton.mp inside
      exact .fieldAt 0 rfl .here
  | unary span operator part trailing =>
      cases List.mem_singleton.mp inside
      exact .fieldAt 1 rfl .here
  | array span items form => exact .fieldAt 0 rfl (occurs_outlineItems inside)
  | new span target arguments | call span target arguments =>
      rcases List.mem_cons.mp inside with rfl | argument
      · exact .fieldAt 0 rfl .here
      · exact .fieldAt 1 rfl (occurs_outlineArguments argument)
  | methodCall span target method arguments | nullsafeMethodCall span target method arguments
  | staticMethodCall span target method arguments =>
      rcases List.mem_cons.mp inside with rfl | argument
      · exact .fieldAt 0 rfl .here
      · exact .fieldAt 2 rfl (occurs_outlineArguments argument)
  | element span holder index =>
      rcases List.mem_cons.mp inside with rfl | chosen
      · exact .fieldAt 0 rfl .here
      · exact .fieldAt 1 rfl (occurs_outlineOption chosen)
  | assignment span target operator value byRef | binary span target operator value =>
      simp only [subexpressions, List.mem_cons, List.not_mem_nil, or_false] at inside
      rcases inside with rfl | rfl
      · exact .fieldAt 0 rfl .here
      · exact .fieldAt 2 rfl .here
  | ternary span condition whenTrue whenFalse =>
      simp only [subexpressions, List.cons_append, List.mem_cons, List.mem_append,
        List.not_mem_nil, or_false] at inside
      rcases inside with rfl | chosen | rfl
      · exact .fieldAt 0 rfl .here
      · exact .fieldAt 1 rfl (occurs_outlineOption chosen)
      · exact .fieldAt 2 rfl .here
  | yield span key value delegate =>
      rcases List.mem_append.mp inside with chosen | chosen
      · exact .fieldAt 0 rfl (occurs_outlineOption chosen)
      · exact .fieldAt 1 rfl (occurs_outlineOption chosen)
  | matching span subject arms =>
      rcases List.mem_cons.mp inside with rfl | arm
      · exact .fieldAt 0 rfl .here
      · exact .fieldAt 1 rfl (occurs_outlineArms arm)

theorem occurs_walk {expression node : Expr} (visited : node ∈ expression.walk) :
    Occurs node.outline expression.outline := by
  induction expression using Expr.induction_on_parts with
  | step expression ih =>
      rw [walk_eq] at visited
      rcases List.mem_cons.mp visited with rfl | deeper
      · exact .here
      · obtain ⟨inner, part, below⟩ := List.mem_flatMap.mp deeper
        exact (ih inner part below).trans (occurs_part part)

theorem occurs_withoutElements (expression : Expr) :
    Occurs expression.withoutElements.outline expression.outline := by
  induction expression using Expr.induction_on_parts with
  | step expression ih =>
      cases expression with
      | element span holder index =>
          have holding := ih holder List.mem_cons_self
          exact holding.trans (occurs_part List.mem_cons_self)
      | _ => exact .here

theorem occurs_mutatedTarget {expression target : Expr}
    (mutates : expression.mutatedTarget = some target) :
    Occurs target.outline expression.outline := by
  refine occurs_part ?_
  cases expression with
  | assignment span place operator value byRef =>
      cases mutates
      exact List.mem_cons_self
  | unary span operator operand trailing =>
      cases operator with
      | increment | decrement =>
          cases mutates
          exact List.mem_cons_self
      | _ => cases mutates
  | _ => cases mutates

end Expr

theorem occurs_outlineStmts {inner : Stmt} {statements : List Stmt} (member : inner ∈ statements) :
    Occurs inner.outline (.list (outlineStmts statements)) := by
  rw [outlineStmts_eq_map]
  exact occurs_map Stmt.outline member

theorem occurs_outlineBlock {inner : Stmt} {content : Block Stmt}
    (member : inner ∈ content.statements) : Occurs inner.outline (outlineBlock content) := by
  cases content
  exact .fieldAt 0 rfl (occurs_outlineStmts member)

theorem occurs_outlineOptionBlock {inner : Stmt} {optional : Option (Block Stmt)}
    (member : inner ∈ optional.toList.flatMap fun content => content.statements) :
    Occurs inner.outline (outlineOptionBlock optional) := by
  cases optional with
  | none => cases member
  | some content =>
      rw [Option.toList_some, List.flatMap_singleton] at member
      exact occurs_outlineBlock member

theorem occurs_outlineBody {inner : Stmt} {body : Body Stmt} (member : inner ∈ body.statements) :
    Occurs inner.outline (outlineBody body) := by
  cases body with
  | single statement =>
      cases List.mem_singleton.mp member
      exact .here
  | colon span statements => exact .fieldAt 0 rfl (occurs_outlineStmts member)

theorem occurs_outlineElseIfs {clause : ElseIf Expr Stmt} {clauses : List (ElseIf Expr Stmt)}
    (member : clause ∈ clauses) :
    Occurs (outlineElseIf clause) (.list (outlineElseIfs clauses)) := by
  rw [outlineElseIfs_eq_map]
  exact occurs_map outlineElseIf member

theorem occurs_outlineCases {clause : SwitchCase Expr Stmt} {clauses : List (SwitchCase Expr Stmt)}
    (member : clause ∈ clauses) : Occurs (outlineCase clause) (.list (outlineCases clauses)) := by
  rw [outlineCases_eq_map]
  exact occurs_map outlineCase member

theorem occurs_outlineCatches {clause : Catch Stmt} {clauses : List (Catch Stmt)}
    (member : clause ∈ clauses) :
    Occurs (outlineCatch clause) (.list (outlineCatches clauses)) := by
  rw [outlineCatches_eq_map]
  exact occurs_map outlineCatch member

namespace Declaration

theorem occurs_member {declaration : Declaration Expr Stmt} {member : Member Expr Stmt}
    (listed : member ∈ declaration.members) :
    Occurs (outlineMember member) (outlineDeclaration declaration) := by
  rcases declaration with ⟨span, name, kind, members⟩
  rw [outlineDeclaration, outlineMembers_eq_map]
  exact .field (List.mem_append_right _ (List.mem_singleton_self _))
    (occurs_map outlineMember listed)

theorem occurs_method {declaration : Declaration Expr Stmt} {method : Method Expr Stmt}
    (listed : method ∈ declaration.methods) :
    Occurs (outlineMethod method) (outlineDeclaration declaration) := by
  obtain ⟨member, present, chosen⟩ := List.mem_filterMap.mp listed
  cases member with
  | method own =>
      cases chosen
      exact occurs_member present
  | _ => cases chosen

theorem hasPlace_method {declaration : Declaration Expr Stmt} {method : Method Expr Stmt}
    (listed : method ∈ declaration.methods) :
    (outlineDeclaration declaration).HasPlace method.span := by
  have place : (outlineMethod method).HasPlace method.span := by
    cases method
    exact ⟨_, _, .here⟩
  exact place.within (occurs_method listed)

theorem occurs_methodBody {declaration : Declaration Expr Stmt} {method : Method Expr Stmt}
    {content : Block Stmt} (listed : method ∈ declaration.methods)
    (body : method.body = some content) :
    Occurs (outlineBlock content) (outlineDeclaration declaration) := by
  refine Occurs.trans ?_ (occurs_method listed)
  rcases method with ⟨span, name, modifiers, parameters, returnHint, own, byRef⟩
  cases body
  exact .fieldAt 4 rfl .here

end Declaration

namespace Stmt

theorem occurs_child {statement inner : Stmt} (child : inner ∈ statement.children) :
    Occurs inner.outline statement.outline := by
  cases statement with
  | block content => exact occurs_outlineBlock child
  | ifElse span condition body elseIfs otherwise =>
      simp only [children, List.mem_append, List.mem_flatMap] at child
      rcases child with (inBody | ⟨clause, member, inside⟩) | ⟨clause, member, inside⟩
      · exact .fieldAt 1 rfl (occurs_outlineBody inBody)
      · have body : Occurs inner.outline (outlineElseIf clause) := by
          cases clause
          exact .fieldAt 1 rfl (occurs_outlineBody inside)
        exact .fieldAt 2 rfl (body.trans (occurs_outlineElseIfs member))
      · rw [Option.mem_toList] at member
        cases member
        cases clause
        exact .fieldAt 3 rfl (.fieldAt 0 rfl (occurs_outlineBody inside))
  | whileLoop span condition body => exact .fieldAt 1 rfl (occurs_outlineBody child)
  | forLoop span initializers conditions steps body =>
      exact .fieldAt 3 rfl (occurs_outlineBody child)
  | foreachLoop span subject key value body byRef =>
      exact .fieldAt 3 rfl (occurs_outlineBody child)
  | doWhile span body condition =>
      cases List.mem_singleton.mp child
      exact .fieldAt 0 rfl .here
  | switch span subject cases =>
      obtain ⟨clause, member, inside⟩ := List.mem_flatMap.mp child
      have listed : Occurs inner.outline (outlineCase clause) := by
        cases clause
        exact .fieldAt 1 rfl (occurs_outlineStmts inside)
      exact .fieldAt 1 rfl (listed.trans (occurs_outlineCases member))
  | tryCatch span content catches finallyBlock =>
      rcases List.mem_append.mp child with early | last
      · rcases List.mem_append.mp early with inBlock | caught
        · exact .fieldAt 0 rfl (occurs_outlineBlock inBlock)
        · obtain ⟨clause, member, inside⟩ := List.mem_flatMap.mp caught
          have listed : Occurs inner.outline (outlineCatch clause) := by
            cases clause
            exact .fieldAt 2 rfl (occurs_outlineBlock inside)
          exact .fieldAt 1 rfl (listed.trans (occurs_outlineCatches member))
      · exact .fieldAt 2 rfl (occurs_outlineOptionBlock last)
  | package span name statements braced => exact .fieldAt 1 rfl (occurs_outlineStmts child)
  | declare span directives body => exact .fieldAt 1 rfl (occurs_outlineOptionBlock child)
  | declaration content =>
      obtain ⟨method, listed, block, body, inside⟩ := mem_methodStatements_iff.mp child
      exact (occurs_outlineBlock inside).trans (Declaration.occurs_methodBody listed body)
  | _ => cases child

theorem occurs_flatten {outer statement : Stmt} (member : statement ∈ outer.flatten) :
    Occurs statement.outline outer.outline := by
  induction outer using Stmt.induction_on_children with
  | step outer ih =>
      rw [flatten_eq] at member
      rcases List.mem_cons.mp member with rfl | below
      · exact .here
      · obtain ⟨inner, child, deeper⟩ := List.mem_flatMap.mp below
        exact (ih inner child deeper).trans (occurs_child child)

theorem occurs_ownExpression {statement : Stmt} {expression : Expr}
    (own : expression ∈ statement.ownExpressions) :
    Occurs expression.outline statement.outline := by
  cases statement with
  | expression span value =>
      cases List.mem_singleton.mp own
      exact .fieldAt 0 rfl .here
  | returnValue span value => exact .fieldAt 0 rfl (Expr.occurs_outlineOption own)
  | echo span values =>
      rw [outline, outlineExprs_eq_map]
      exact .fieldAt 0 rfl (occurs_map Expr.outline own)
  | ifElse span condition body elseIfs otherwise =>
      rcases List.mem_cons.mp own with rfl | later
      · exact .fieldAt 0 rfl .here
      · obtain ⟨clause, member, rfl⟩ := List.mem_map.mp later
        have condition : Occurs clause.condition.outline (outlineElseIf clause) := by
          cases clause
          exact .fieldAt 0 rfl .here
        exact .fieldAt 2 rfl (condition.trans (occurs_outlineElseIfs member))
  | whileLoop span condition body =>
      cases List.mem_singleton.mp own
      exact .fieldAt 0 rfl .here
  | doWhile span body condition =>
      cases List.mem_singleton.mp own
      exact .fieldAt 1 rfl .here
  | forLoop span initializers conditions steps body =>
      rw [outline]
      simp only [outlineExprs_eq_map]
      rcases List.mem_append.mp own with early | step
      · rcases List.mem_append.mp early with initializer | condition
        · exact .fieldAt 0 rfl (occurs_map Expr.outline initializer)
        · exact .fieldAt 1 rfl (occurs_map Expr.outline condition)
      · exact .fieldAt 2 rfl (occurs_map Expr.outline step)
  | foreachLoop span subject key value body byRef =>
      cases List.mem_singleton.mp own
      exact .fieldAt 0 rfl .here
  | switch span subject cases =>
      rcases List.mem_cons.mp own with rfl | later
      · exact .fieldAt 0 rfl .here
      · obtain ⟨clause, member, conditional⟩ := List.mem_filterMap.mp later
        have condition : Occurs expression.outline (outlineCase clause) := by
          cases clause
          exact .fieldAt 0 rfl (Expr.occurs_outlineOption (Option.mem_toList.mpr conditional))
        exact .fieldAt 1 rfl (condition.trans (occurs_outlineCases member))
  | _ => cases own

theorem Meets.occurs {scope : Scope} {owner statement : Stmt} {expression : Expr}
    {known : VariableTypes} {tracker : Tracker}
    (meets : Meets scope owner expression known tracker statement) :
    Occurs expression.outline statement.outline := by
  induction meets with
  | own split looks moment =>
      refine occurs_ownExpression ?_
      rw [← steps_expressions, split]
      exact List.mem_filterMap.mpr ⟨_, by simp, looks⟩
  | inside split deeper ih =>
      refine ih.trans (occurs_child (mem_children_of_enter ?_))
      rw [split]
      simp

theorem occurs_walkRoot {registry : TypeRegistry} {top : Stmt} {walk : BodyWalk}
    (walked : walk ∈ top.walks registry) : Occurs walk.root.outline top.outline := by
  induction top using Stmt.induction_on_children with
  | step top ih =>
      cases top with
      | package span name statements braced =>
          rw [walks, walksOf_eq_flatMap] at walked
          obtain ⟨inner, child, deeper⟩ := List.mem_flatMap.mp walked
          exact (ih inner child deeper).trans (occurs_child child)
      | declaration content =>
          simp only [walks, Declaration.walks] at walked
          split at walked
          · cases walked
          · obtain ⟨method, listed, made⟩ := List.mem_filterMap.mp walked
            obtain ⟨block, body, rfl⟩ := Option.map_eq_some_iff.mp made
            exact Declaration.occurs_methodBody listed body
      | _ =>
          cases List.mem_singleton.mp walked
          exact .here

end Stmt

/-! The checks -/

theorem Scope.span_of_foreignCallAt {scope : Scope} {types : VariableTypes} {node : Expr}
    {call : ForeignCall} (foreign : scope.foreignCallAt types node = some call) :
    call.span = node.span := by
  obtain ⟨called, _⟩ := Option.filter_eq_some_iff.mp foreign
  cases node with
  | methodCall _ _ _ _ | nullsafeMethodCall _ _ _ _ | staticMethodCall _ _ _ _ =>
      cases called
      rfl
  | _ => cases called

theorem hasPlace_writtenState {target : Expr} {finding : Finding}
    (written : writtenState target = some finding) : target.outline.HasPlace finding.span := by
  have inner := target.withoutElements.hasPlace.within target.occurs_withoutElements
  unfold writtenState at written
  split at written
  case h_1 span object name shape =>
    split at written
    · cases written
      rwa [shape] at inner
    · cases written
  case h_2 span object name shape =>
    cases written
    rwa [shape] at inner
  case h_3 => cases written

theorem hasPlace_stateWrites {resetInterfaces : List String}
    {declaration : Declaration Expr Stmt} {finding : Finding}
    (found : finding ∈ stateWrites resetInterfaces declaration) :
    (outlineDeclaration declaration).HasPlace finding.span := by
  unfold stateWrites at found
  split at found
  case h_2 => cases found
  split at found
  · cases found
  obtain ⟨method, listed, written⟩ := List.mem_flatMap.mp found
  unfold Method.stateWrites at written
  split at written
  case h_2 => cases written
  case h_1 content body =>
    split at written
    · cases written
    obtain ⟨statement, inside, own⟩ := List.mem_flatMap.mp written
    obtain ⟨expression, ownExpression, writes⟩ := List.mem_flatMap.mp own
    obtain ⟨part, visited, mutates⟩ := List.mem_filterMap.mp writes
    obtain ⟨target, targeted, state⟩ := Option.bind_eq_some_iff.mp mutates
    -- From the written property outwards to the declaration.
    refine (hasPlace_writtenState state).within (.trans (Expr.occurs_mutatedTarget targeted) ?_)
    refine (Expr.occurs_walk visited).trans ?_
    refine (Stmt.occurs_ownExpression ownExpression).trans ?_
    exact (Stmt.occurs_flatten inside).trans (Declaration.occurs_methodBody listed body)

theorem hasPlace_entry {declaration : Declaration Expr Stmt} {entry : VariableEntry Expr}
    (listed : entry ∈ entriesWithoutModifier declaration) :
    (outlineDeclaration declaration).HasPlace entry.span := by
  obtain ⟨member, present, inside⟩ := List.mem_flatMap.mp listed
  refine HasPlace.within ?_ (Declaration.occurs_member present)
  split at inside
  case h_1 span hint entries untyped =>
    have place : (outlineVariable "PropertyEntry" entry).HasPlace entry.span := by
      cases entry
      exact ⟨_, _, .here⟩
    refine place.within (.fieldAt 2 rfl ?_)
    rw [outlineVariables_eq_map]
    exact occurs_map (outlineVariable "PropertyEntry") inside
  case h_2 => cases inside

theorem mem_of_mem_firstEntries {seen : List String} {entries : List (VariableEntry Expr)}
    {entry : VariableEntry Expr} (chosen : entry ∈ firstEntries seen entries) :
    entry ∈ entries := by
  induction entries generalizing seen with
  | nil => cases chosen
  | cons first rest ih =>
      rw [firstEntries] at chosen
      split at chosen
      · exact List.mem_cons_of_mem _ (ih chosen)
      · rcases List.mem_cons.mp chosen with rfl | later
        · exact List.mem_cons_self
        · exact List.mem_cons_of_mem _ (ih later)

theorem hasPlace_loweredConstants {entries : List (ConstantEntry Expr)} {finding : Finding}
    (found : finding ∈ loweredConstants entries) :
    ∃ entry ∈ entries, (outlineConstant entry).HasPlace finding.span := by
  obtain ⟨entry, kept, rfl⟩ := List.mem_map.mp found
  refine ⟨entry, List.mem_of_mem_filter kept, ?_⟩
  cases entry
  exact ⟨_, _, .fieldAt 0 rfl .here⟩

theorem occurs_outlineConstants {entry : ConstantEntry Expr} {entries : List (ConstantEntry Expr)}
    (listed : entry ∈ entries) :
    Occurs (outlineConstant entry) (.list (outlineConstants entries)) := by
  rw [outlineConstants_eq_map]
  exact occurs_map outlineConstant listed

theorem hasPlace_constantsInLowerCase {statement : Stmt} {finding : Finding}
    (found : finding ∈ constantsInLowerCase statement) :
    statement.outline.HasPlace finding.span := by
  cases statement with
  | constants span entries =>
      obtain ⟨entry, listed, place⟩ := hasPlace_loweredConstants found
      exact place.within (.fieldAt 0 rfl (occurs_outlineConstants listed))
  | declaration content =>
      obtain ⟨entry, listed, place⟩ := hasPlace_loweredConstants found
      obtain ⟨member, present, inside⟩ := List.mem_flatMap.mp listed
      refine place.within (Occurs.trans ?_ (Declaration.occurs_member present))
      split at inside
      case h_1 span modifiers hint entries =>
        exact .fieldAt 2 rfl (occurs_outlineConstants inside)
      case h_2 => cases inside
  | _ => cases found

theorem hasPlace_onDeclaration {check : Declaration Expr Stmt → List Finding}
    (placed : ∀ declaration, ∀ finding ∈ check declaration,
      (outlineDeclaration declaration).HasPlace finding.span)
    {statement : Stmt} {finding : Finding} (found : finding ∈ onDeclaration check statement) :
    statement.outline.HasPlace finding.span := by
  cases statement with
  | declaration content => exact placed content finding found
  | _ => cases found

theorem hasPlace_filteredMethods {declaration : Declaration Expr Stmt}
    {keep : Method Expr Stmt → Bool} {advice : Method Expr Stmt → String} {finding : Finding}
    (found : finding ∈ (declaration.methods.filter keep).map fun method =>
      (⟨method.span, advice method⟩ : Finding)) :
    (outlineDeclaration declaration).HasPlace finding.span := by
  obtain ⟨method, kept, rfl⟩ := List.mem_map.mp found
  exact Declaration.hasPlace_method (List.mem_of_mem_filter kept)

theorem hasPlace_methodsAbove {maximum : Int} {measure : List Stmt → Int} {advice : Int → String}
    {declaration : Declaration Expr Stmt} {finding : Finding}
    (found : finding ∈ methodsAbove maximum measure advice declaration) :
    (outlineDeclaration declaration).HasPlace finding.span := by
  obtain ⟨method, listed, above⟩ := List.mem_filterMap.mp found
  obtain ⟨content, _, measured⟩ := Option.bind_eq_some_iff.mp above
  dsimp only at measured
  split at measured
  · cases measured
    exact Declaration.hasPlace_method listed
  · cases measured

namespace Check

theorem statementFindings_place (check : Check) (settings : Settings) {statement : Stmt}
    {finding : Finding} (found : finding ∈ check.statementFindings settings statement) :
    statement.outline.HasPlace finding.span := by
  cases check with
  | openingTag | foreignCalls => cases found
  | emptyCatch =>
      cases statement with
      | tryCatch span content catches finallyBlock =>
          obtain ⟨clause, kept, rfl⟩ := List.mem_map.mp found
          have place : (outlineCatch clause).HasPlace clause.span := by
            cases clause
            exact ⟨_, _, .here⟩
          exact place.within (.fieldAt 1 rfl (occurs_outlineCatches (List.mem_of_mem_filter kept)))
      | _ => cases found
  | upperCaseConstants => exact hasPlace_constantsInLowerCase found
  | capitalizedNames =>
      refine hasPlace_onDeclaration (fun declaration finding named => ?_) found
      unfold uncapitalizedName at named
      dsimp only at named
      split at named
      · cases named
      · cases List.mem_singleton.mp named
        cases declaration
        exact ⟨_, _, .fieldAt 0 rfl .here⟩
  | propertyModifiers =>
      refine hasPlace_onDeclaration (fun declaration finding named => ?_) found
      obtain ⟨entry, chosen, rfl⟩ := List.mem_map.mp named
      exact hasPlace_entry (mem_of_mem_firstEntries chosen)
  | methodModifiers | parameterCount | returnTypes =>
      exact hasPlace_onDeclaration (fun _ _ named => hasPlace_filteredMethods named) found
  | branching | paths =>
      exact hasPlace_onDeclaration (fun _ _ measured => hasPlace_methodsAbove measured) found
  | sharedState =>
      exact hasPlace_onDeclaration (fun _ _ written => hasPlace_stateWrites written) found

theorem misplacedTag_place {file : SourceFile} {finding : Finding}
    (found : finding ∈ misplacedTag file) :
    ∃ statement ∈ file.statements, statement.outline.HasPlace finding.span := by
  unfold misplacedTag at found
  split at found
  · cases found
  split at found
  case h_2 => cases found
  case h_1 span tagged =>
    obtain ⟨statement, listed, tag⟩ := List.exists_of_findSome?_eq_some tagged
    have same : finding.span = span := by
      rcases List.mem_append.mp found with line | column
      · unfold wrongTagLine at line
        split at line
        · exact congrArg Finding.span (List.mem_singleton.mp line)
        · cases line
      · unfold wrongTagColumn at column
        split at column
        · exact congrArg Finding.span (List.mem_singleton.mp column)
        · cases column
    refine ⟨statement, listed, ?_⟩
    cases statement with
    | openingTag place text =>
        cases tag
        rw [same]
        exact ⟨_, _, .here⟩
    | _ => cases tag

theorem callsToOthers_place {registry : TypeRegistry} {top : Stmt} {finding : Finding}
    (found : finding ∈ callsToOthers registry top) : top.outline.HasPlace finding.span := by
  obtain ⟨call, listed, rfl⟩ := List.mem_map.mp found
  rw [Stmt.foreignCalls_eq_walks] at listed
  obtain ⟨walk, walked, inWalk⟩ := List.mem_flatMap.mp listed
  obtain ⟨owner, expression, known, meets, node, visited, foreign⟩ :=
    (Tracker.mem_found_iff walk.scope walk.root).mp inWalk
  have span : call.finding.span = node.span := Scope.span_of_foreignCallAt foreign
  rw [span]
  refine node.hasPlace.within ((Expr.occurs_walk visited).trans ?_)
  exact meets.occurs.trans (Stmt.occurs_walkRoot walked)

/-- Every finding stands at a node of the tree. -/
theorem findings_place (check : Check) (settings : Settings) {file : SourceFile}
    {finding : Finding} (found : finding ∈ check.findings settings file) :
    ∃ statement ∈ file.statements, statement.outline.HasPlace finding.span := by
  have perStatement : finding ∈ (file.statements.flatMap fun statement =>
      statement.flatten.flatMap (check.statementFindings settings)) →
      ∃ statement ∈ file.statements, statement.outline.HasPlace finding.span := by
    intro listed
    obtain ⟨top, member, inTop⟩ := List.mem_flatMap.mp listed
    obtain ⟨statement, inside, there⟩ := List.mem_flatMap.mp inTop
    exact ⟨top, member, (statementFindings_place check settings there).within
      (Stmt.occurs_flatten inside)⟩
  cases check with
  | openingTag => exact misplacedTag_place found
  | foreignCalls =>
      obtain ⟨top, member, inTop⟩ := List.mem_flatMap.mp found
      exact ⟨top, member, callsToOthers_place inTop⟩
  | _ => exact perStatement found

end Check

end PhpAudit
