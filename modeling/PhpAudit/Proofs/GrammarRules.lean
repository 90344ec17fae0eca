import PhpAudit.Proofs.Grammar
import PhpAudit.Proofs.KeptOperators
import PhpAudit.Proofs.LongPieces
import PhpAudit.Reader.Statement

/-!
The grammar of the language, one symbol for each rule that has rules as its parts; words, names,
literals and marks are its tokens. The symbols are put into layers such that a symbol enters only
symbols of lower layers before it takes a character.
-/

namespace PhpAudit

/-! Tokens -/

namespace Token

def of (rule : Lexeme) (positive : rule.Positive) (takes : rule.Takes fun _ => True) : Token where
  rule
  solid taken := ⟨positive _ _ taken, (takes _ _ taken).1⟩

def ofKept {rule : Lexeme} (kept : rule.Kept) : Token where
  rule
  solid taken := kept.moves _ _ taken

theorem length_pos {text : String} (filled : text ≠ "") : 0 < text.toList.length := by
  apply List.length_pos_iff.mpr
  intro empty
  exact filled (String.toList_inj.mp empty)

theorem takes_letters (expected : List Char) : (Lexeme.letters expected).Takes fun _ => True :=
  .letters fun _ _ _ _ => trivial

theorem takes_one (test : Char → Bool) : (Lexeme.one test).Takes fun _ => True :=
  .one fun _ _ => trivial

theorem takes_run (test : Char → Bool) : (Lexeme.run test).Takes fun _ => True :=
  .run fun _ _ => trivial

theorem mark_moves {text : String} (filled : text ≠ "") {ahead : List Char} {length : Nat}
    (taken : Lexeme.mark text.toList ahead = some length) : 0 < length ∧ length ≤ ahead.length := by
  obtain ⟨size, bound⟩ := Lexeme.mark_length taken
  exact ⟨size ▸ length_pos filled, bound⟩

def mark (text : String) (filled : text ≠ "" := by decide) : Token where
  rule := Lexeme.mark text.toList
  solid taken := mark_moves filled taken

def keyword (word : String) (filled : word ≠ "" := by decide) : Token :=
  of (Lexeme.keyword word) (.before (.letters (length_pos filled))) (.before (takes_letters _))

def keywordCall (word : String) (filled : word ≠ "" := by decide) : Token :=
  of (Lexeme.keywordCall word) (.before (.letters (length_pos filled))) (.before (takes_letters _))

def enumKeyword : Token :=
  of Lexeme.enumKeyword (.before (.letters (by decide))) (.before (takes_letters _))

def namespaceKeyword : Token :=
  of Lexeme.namespaceKeyword (.before (.before (.letters (by decide))))
    (.before (.before (takes_letters _)))

def anyKeyword (words : List String) (solid : ∀ word ∈ words, Lexeme.solidWord word = true) : Token :=
  ofKept (Lexeme.kept_anyKeyword solid)

def loadKeyword : Token :=
  anyKeyword ["include_once", "include", "require_once", "require"] (by decide)

def classModifier : Token := anyKeyword ["abstract", "final", "readonly"] (by decide)

def memberModifier : Token := ofKept Lexeme.kept_memberModifier

def parameterModifier : Token := ofKept Lexeme.kept_parameterModifier

def identifier : Token := ofKept Lexeme.kept_identifier

def dollarName : Token := ofKept Lexeme.kept_dollarName

def name : Token := ofKept Lexeme.kept_name

def qualified : Token := ofKept Lexeme.kept_qualified

def number : Token := ofKept Lexeme.kept_number

def string : Token := ofKept Lexeme.kept_string

def heredoc : Token := ofKept Lexeme.kept_heredoc

def attributeGroup : Token := ofKept Lexeme.kept_attributeGroup

def question : Token := ofKept Lexeme.kept_question

def colon : Token := ofKept Lexeme.kept_colon

def plainAssign : Token := ofKept Lexeme.kept_plainAssign

def traitAdaptations : Token :=
  of Lexeme.traitAdaptations (.followedBy_left .one)
    (.followedBy (takes_one _) (.followedBy (takes_run _) (takes_one _)))

def cast : Token := by
  refine of Lexeme.cast (.anyOf fun rule member => ?_) (.anyOf fun rule member => ?_)
  · obtain ⟨word, -, rfl⟩ := List.mem_map.mp member
    exact .followedBy_left .one
  · obtain ⟨word, -, rfl⟩ := List.mem_map.mp member
    exact .followedBy (takes_one _) (.followedBy (takes_run _)
      (.followedBy (takes_letters _) (.followedBy (takes_run _) (takes_one _))))

def inlineHtml : Token where
  rule := Lexeme.inlineHtml
  solid {text length} taken := by
    have bound := Lexeme.htmlLength_le text
    simp only [Lexeme.inlineHtml] at taken
    split at taken
    · cases taken
    · rename_i other
      cases taken
      exact ⟨Nat.pos_of_ne_zero other, bound⟩

def openingTag : Token where
  rule := Lexeme.openingTag
  solid taken := by
    obtain ⟨positive, bound, -⟩ := Lexeme.openingTag_eq_some taken
    exact ⟨positive, bound⟩

/-- A mark that certain characters must not follow. -/
def operator (text excluded : String) (filled : text ≠ "" := by decide) : Token where
  rule := Lexeme.operatorMark text.toList excluded.toList
  solid taken := mark_moves filled (Lexeme.before_eq_some.mp taken).1

end Token

/-! Rules -/

inductive Symbol where
  | program | statementList | closingTag | terminator | statement
  | block | noopStatement | expressionStatement | condition
  | ifStatement | ifStatementBody | elseIfClause | elseClause
  | ifColonBody | elseIfColonClause | elseColonClause
  | whileStatement | whileColonBody | doWhileStatement
  | forStatement | forExpressions | forColonBody
  | foreachStatement | foreachTarget | foreachKey | foreachColonBody
  | switchStatement | switchBraceBody | switchColonBody | switchCase | caseLabel
  | tryStatement | catchClause | catchTypes | finallyClause
  | returnStatement | breakStatement | continueStatement | optionalExpression
  | echoStatement | expressionList | globalStatement | staticStatement | staticVariable
  | namespaceStatement | bracedNamespace | unbracedNamespace | namespaceBody | namespaceStart
  | useStatement | useKind | useClause | groupUse | useItem
  | constStatement | constEntry | declareStatement | declareDirective
  | functionDeclaration | classDeclaration | classModifiers | extendsClause | implementsClause
  | nameList | interfaceDeclaration | interfaceExtends | traitDeclaration
  | enumDeclaration | enumBacking
  | classBody | member | traitUse | enumCase | classConstant | constantType
  | methodDeclaration | propertyDeclaration | propertyType | propertyEntry
  | memberModifiers | propertyModifiers
  | parameterList | parameter | parameterType | variadic | byRef | returnType | attributes
  | typeHint | nullableHint | unionHint | intersectionHint | typeAtom | dnfGroup
  | expression | lowLogicalOperator | ternary | ternaryTail | shortTernary | fullTernary
  | binary | binaryOperator | unary | prefixOperation | prefixOperator
  | keywordExpression | printExpression | throwExpression | includeExpression
  | yieldFrom | yieldExpression | yieldKey | yieldValue
  | assignment | assignmentOperator
  | postfixExpression | postfixOperator | memberAccess | nullsafeAccess | staticAccess
  | memberSelector | staticSelector | braceExpression | indexAccess | postfixIncrement
  | arguments | argument | callablePlaceholder | spreadArgument | namedArgument
  | primary | parenthesized | closure | staticPrefix | closureUses | closureUse | arrowFunction
  | newExpression | newArguments | anonymousClass | classReference
  | dynamicClassReference | dynamicClassStep
  | matchExpression | matchArm
  | arrayLiteral | shortArray | longArray | listLiteral
  | arrayItems | arrayItem | spreadItem | keyedItem | valueItem
  | variableVariable

namespace Symbol

instance : Coe Symbol (Form Symbol) := ⟨.symbol⟩

instance : Coe Token (Form Symbol) := ⟨.token⟩

section Rules

open Form Token

/-- Items with commas between them. -/
def commaList (item : Form Symbol) : Form Symbol :=
  rows [item, .star (rows [.trivia, mark ",", .trivia, item])]

/-- Items with commas between them and perhaps one after them; perhaps no item at all. -/
def trailingCommaList (item : Form Symbol) : Form Symbol :=
  .optional (rows [commaList item, .trivia, .optional (mark ",")])

def initialValue : Form Symbol := .optional (rows [.trivia, mark "=", .trivia, expression])

/-- The statements between a colon and an end word. -/
def colonBody (word : Token) : Form Symbol :=
  rows [mark ":", .trivia, statementList, word, .trivia, terminator]

def rules : Grammar Symbol
  | program => rows [.optional inlineHtml, .optional openingTag, .trivia, statementList]
  | statementList => .star (rows [statement, .trivia])
  | closingTag => rows [mark "?>", .optional inlineHtml, .optional openingTag]
  | terminator => choices [mark ";", .ahead (mark "?>")]
  | statement =>
      choices [block, closingTag, ifStatement, whileStatement, doWhileStatement, forStatement,
        foreachStatement, switchStatement, tryStatement, returnStatement, echoStatement,
        breakStatement, continueStatement, globalStatement, staticStatement, namespaceStatement,
        useStatement, constStatement, declareStatement, functionDeclaration, classDeclaration,
        interfaceDeclaration, traitDeclaration, enumDeclaration, noopStatement,
        expressionStatement]
  | block => rows [mark "\x7b", .trivia, statementList, mark "\x7d"]
  | noopStatement => mark ";"
  | expressionStatement => rows [expression, .trivia, terminator]
  | condition => rows [mark "(", .trivia, expression, .trivia, mark ")"]
  | ifStatement =>
      rows [keyword "if", .trivia, condition, .trivia, choices [ifColonBody, ifStatementBody]]
  | ifStatementBody => rows [statement, .star elseIfClause, .optional elseClause]
  | elseIfClause => rows [.trivia, keyword "elseif", .trivia, condition, .trivia, statement]
  | elseClause => rows [.trivia, keyword "else", .trivia, statement]
  | ifColonBody =>
      rows [mark ":", .trivia, statementList, .star elseIfColonClause, .optional elseColonClause,
        keyword "endif", .trivia, terminator]
  | elseIfColonClause =>
      rows [keyword "elseif", .trivia, condition, .trivia, mark ":", .trivia, statementList]
  | elseColonClause => rows [keyword "else", .trivia, mark ":", .trivia, statementList]
  | whileStatement =>
      rows [keyword "while", .trivia, condition, .trivia, choices [whileColonBody, statement]]
  | whileColonBody => colonBody (keyword "endwhile")
  | doWhileStatement =>
      rows [keyword "do", .trivia, statement, .trivia, keyword "while", .trivia, condition, .trivia,
        terminator]
  | forStatement =>
      rows [keyword "for", .trivia, mark "(", .trivia, forExpressions, .trivia, mark ";", .trivia,
        forExpressions, .trivia, mark ";", .trivia, forExpressions, .trivia, mark ")", .trivia,
        choices [forColonBody, statement]]
  | forExpressions => .optional (commaList expression)
  | forColonBody => colonBody (keyword "endfor")
  | foreachStatement =>
      rows [keyword "foreach", .trivia, mark "(", .trivia, expression, .trivia, keyword "as", .trivia,
        foreachTarget, .trivia, mark ")", .trivia, choices [foreachColonBody, statement]]
  | foreachTarget => rows [.optional foreachKey, .optional byRef, postfixExpression]
  | foreachKey => rows [postfixExpression, .trivia, mark "=>", .trivia]
  | foreachColonBody => colonBody (keyword "endforeach")
  | switchStatement =>
      rows [keyword "switch", .trivia, condition, .trivia, choices [switchBraceBody, switchColonBody]]
  | switchBraceBody =>
      rows [mark "\x7b", .trivia, .optional (rows [mark ";", .trivia]), .star switchCase, mark "\x7d"]
  | switchColonBody =>
      rows [mark ":", .trivia, .optional (rows [mark ";", .trivia]), .star switchCase,
        keyword "endswitch", .trivia, terminator]
  | switchCase =>
      rows [choices [caseLabel, keyword "default"], .trivia, choices [mark ":", mark ";"], .trivia,
        statementList]
  | caseLabel => rows [keyword "case", .trivia, expression]
  | tryStatement => rows [keyword "try", .trivia, block, .star catchClause, .optional finallyClause]
  | catchClause =>
      rows [.trivia, keyword "catch", .trivia, mark "(", .trivia, catchTypes, .trivia,
        .optional dollarName, .trivia, mark ")", .trivia, block]
  | catchTypes => rows [name, .star (rows [.trivia, mark "|", .trivia, name])]
  | finallyClause => rows [.trivia, keyword "finally", .trivia, block]
  | returnStatement => rows [keyword "return", optionalExpression, .trivia, terminator]
  | breakStatement => rows [keyword "break", optionalExpression, .trivia, terminator]
  | continueStatement => rows [keyword "continue", optionalExpression, .trivia, terminator]
  | optionalExpression => .optional (rows [.trivia, expression])
  | echoStatement => rows [keyword "echo", .trivia, expressionList, .trivia, terminator]
  | expressionList => commaList expression
  | globalStatement => rows [keyword "global", .trivia, commaList dollarName, .trivia, terminator]
  | staticStatement => rows [keyword "static", .trivia, commaList staticVariable, .trivia, terminator]
  | staticVariable => rows [dollarName, initialValue]
  | namespaceStatement => choices [bracedNamespace, unbracedNamespace]
  | bracedNamespace =>
      rows [namespaceKeyword, .trivia, .optional (rows [name, .trivia]), mark "\x7b", .trivia,
        statementList, mark "\x7d"]
  | unbracedNamespace =>
      rows [namespaceKeyword, .trivia, name, .trivia, terminator, .trivia, namespaceBody]
  | namespaceBody => .star (rows [.absent namespaceStart, statement, .trivia])
  | namespaceStart =>
      rows [namespaceKeyword, .trivia, .optional (rows [name, .trivia]),
        choices [mark ";", mark "\x7b"]]
  | useStatement =>
      rows [keyword "use", .trivia, .optional useKind, commaList useClause, .trivia, terminator]
  | useKind => rows [choices [keyword "function", keyword "const"], .trivia]
  | useClause => choices [groupUse, useItem]
  | groupUse =>
      rows [name, mark "\\", mark "\x7b", .trivia, commaList useItem, .trivia, .optional (mark ","),
        .trivia, mark "\x7d"]
  | useItem =>
      rows [.optional useKind, name,
        .optional (rows [.trivia, keyword "as", .trivia, identifier])]
  | constStatement => rows [keyword "const", .trivia, commaList constEntry, .trivia, terminator]
  | constEntry => rows [identifier, .trivia, mark "=", .trivia, expression]
  | declareStatement =>
      rows [keyword "declare", .trivia, mark "(", .trivia, commaList declareDirective, .trivia,
        mark ")", .trivia, choices [block, terminator]]
  | declareDirective => rows [identifier, .trivia, mark "=", .trivia, expression]
  | functionDeclaration =>
      rows [attributes, keyword "function", .trivia, .optional byRef, name, .trivia, parameterList,
        .trivia, .optional returnType, block]
  | classDeclaration =>
      rows [attributes, classModifiers, keyword "class", .trivia, name, .trivia,
        .optional extendsClause, .optional implementsClause, classBody]
  | classModifiers => .star (rows [classModifier, .trivia])
  | extendsClause => rows [keyword "extends", .trivia, name, .trivia]
  | implementsClause => rows [keyword "implements", .trivia, nameList, .trivia]
  | nameList => commaList name
  | interfaceDeclaration =>
      rows [attributes, keyword "interface", .trivia, name, .trivia, .optional interfaceExtends,
        classBody]
  | interfaceExtends => rows [keyword "extends", .trivia, nameList, .trivia]
  | traitDeclaration => rows [attributes, keyword "trait", .trivia, name, .trivia, classBody]
  | enumDeclaration =>
      rows [attributes, enumKeyword, .trivia, name, .trivia, .optional enumBacking,
        .optional implementsClause, classBody]
  | enumBacking => rows [mark ":", .trivia, typeHint, .trivia]
  | classBody => rows [mark "\x7b", .trivia, .star (rows [member, .trivia]), mark "\x7d"]
  | member =>
      rows [attributes, choices [traitUse, enumCase, classConstant, methodDeclaration,
        propertyDeclaration]]
  | traitUse =>
      rows [keyword "use", .trivia, nameList, .trivia, choices [traitAdaptations, terminator]]
  | enumCase => rows [keyword "case", .trivia, identifier, initialValue, .trivia, terminator]
  | classConstant =>
      rows [memberModifiers, keyword "const", .trivia, .optional constantType, commaList constEntry,
        .trivia, terminator]
  | constantType =>
      rows [typeHint, .trivia, .ahead (rows [identifier, .trivia, mark "="])]
  | methodDeclaration =>
      rows [memberModifiers, keyword "function", .trivia, .optional byRef, identifier, .trivia,
        parameterList, .trivia, .optional returnType, choices [block, terminator]]
  | propertyDeclaration =>
      rows [propertyModifiers, .optional propertyType, commaList propertyEntry, .trivia, terminator]
  | propertyType => rows [typeHint, .trivia]
  | propertyEntry => rows [dollarName, initialValue]
  | memberModifiers => .star (rows [memberModifier, .trivia])
  | propertyModifiers => .plus (rows [memberModifier, .trivia])
  | parameterList => rows [mark "(", .trivia, trailingCommaList parameter, .trivia, mark ")"]
  | parameter =>
      rows [attributes, .star (rows [parameterModifier, .trivia]), .optional parameterType,
        .optional byRef, .optional variadic, dollarName, initialValue]
  | parameterType => rows [typeHint, .trivia]
  | variadic => rows [mark "...", .trivia]
  | byRef => rows [mark "&", .trivia]
  | returnType => rows [mark ":", .trivia, typeHint, .trivia]
  | attributes => .star (rows [attributeGroup, .trivia])
  | typeHint => choices [nullableHint, unionHint, intersectionHint, typeAtom]
  | nullableHint => rows [mark "?", .trivia, typeAtom]
  | unionHint => rows [typeAtom, .plus (rows [.trivia, mark "|", .trivia, typeAtom])]
  | intersectionHint =>
      rows [typeAtom, .plus (rows [.trivia, mark "&",
        .absent (rows [.trivia, choices [mark "$", mark "..."]]), .trivia, typeAtom])]
  | typeAtom => choices [dnfGroup, qualified]
  | dnfGroup => rows [mark "(", .trivia, typeHint, .trivia, mark ")"]
  | expression => rows [ternary, .star (rows [.trivia, lowLogicalOperator, .trivia, ternary])]
  | lowLogicalOperator => choices [keyword "and", keyword "xor", keyword "or"]
  | ternary => rows [binary, .star (rows [.trivia, ternaryTail])]
  | ternaryTail => choices [shortTernary, fullTernary]
  | shortTernary => rows [mark "?:", .trivia, binary]
  | fullTernary => rows [question, .trivia, ternary, .trivia, colon, .trivia, binary]
  | binary => rows [unary, .star (rows [.trivia, binaryOperator, .trivia, unary])]
  | binaryOperator =>
      choices [operator "??" "=", operator "||" "=", operator "&&" "=", operator "===" "",
        operator "!==" "", operator "<=>" "", operator "==" "", operator "!=" "",
        operator "<>" "", operator "<=" "", operator ">=" "", operator "<<" "=<",
        operator ">>" "=", operator "**" "=", operator "<" "", operator ">" "=",
        operator "|" "|=", operator "^" "=", operator "&" "&=", operator "." ".=",
        operator "+" "+=", operator "-" "-=>", operator "*" "*=", operator "/" "/=*",
        operator "%" "=", keyword "instanceof"]
  | unary => choices [prefixOperation, keywordExpression, assignment, postfixExpression]
  | prefixOperation => rows [prefixOperator, .trivia, unary]
  | prefixOperator =>
      choices [cast, mark "++", mark "--", mark "!", mark "~", mark "@", mark "-", mark "+",
        keyword "clone"]
  | keywordExpression =>
      choices [printExpression, yieldFrom, yieldExpression, throwExpression, includeExpression]
  | printExpression => rows [keyword "print", .trivia, ternary]
  | throwExpression => rows [keyword "throw", .trivia, ternary]
  | includeExpression => rows [loadKeyword, .trivia, ternary]
  | yieldFrom => rows [keyword "yield", .trivia, keyword "from", .trivia, ternary]
  | yieldExpression => rows [keyword "yield", .optional yieldKey, .optional yieldValue]
  | yieldKey => rows [.trivia, binary, .trivia, mark "=>"]
  | yieldValue => rows [.trivia, ternary]
  | assignment =>
      rows [postfixExpression, .trivia, assignmentOperator, .trivia, .optional byRef, ternary]
  | assignmentOperator =>
      choices [mark "**=", mark "??=", mark "<<=", mark ">>=", mark ".=", mark "+=", mark "-=",
        mark "*=", mark "/=", mark "%=", mark "&=", mark "|=", mark "^=", plainAssign]
  | postfixExpression => rows [primary, .star postfixOperator]
  | postfixOperator =>
      rows [.trivia, choices [memberAccess, nullsafeAccess, staticAccess, indexAccess, arguments,
        postfixIncrement]]
  | memberAccess => rows [mark "->", .trivia, memberSelector]
  | nullsafeAccess => rows [mark "?->", .trivia, memberSelector]
  | staticAccess => rows [mark "::", .trivia, staticSelector]
  | memberSelector => choices [identifier, dollarName, braceExpression]
  | staticSelector => choices [dollarName, identifier, braceExpression]
  | braceExpression => rows [mark "\x7b", .trivia, expression, .trivia, mark "\x7d"]
  | indexAccess => rows [mark "[", .trivia, .optional expression, .trivia, mark "]"]
  | postfixIncrement => choices [mark "++", mark "--"]
  | arguments => rows [mark "(", .trivia, trailingCommaList argument, .trivia, mark ")"]
  | argument => choices [callablePlaceholder, spreadArgument, namedArgument, expression]
  | callablePlaceholder => rows [mark "...", .trivia, .ahead (mark ")")]
  | spreadArgument => rows [mark "...", .trivia, expression]
  | namedArgument => rows [identifier, .trivia, colon, .trivia, expression]
  | primary =>
      choices [parenthesized, closure, arrowFunction, newExpression, matchExpression, arrayLiteral,
        listLiteral, heredoc, string, number, dollarName, variableVariable, name]
  | parenthesized => rows [mark "(", .trivia, expression, .trivia, mark ")"]
  | closure =>
      rows [.optional staticPrefix, keyword "function", .trivia, .optional byRef, parameterList,
        .trivia, .optional closureUses, .optional returnType, block]
  | staticPrefix => rows [keyword "static", .trivia]
  | closureUses =>
      rows [keyword "use", .trivia, mark "(", .trivia, commaList closureUse, .trivia,
        .optional (mark ","), .trivia, mark ")", .trivia]
  | closureUse => rows [.optional byRef, dollarName]
  | arrowFunction =>
      rows [.optional staticPrefix, keyword "fn", .trivia, .optional byRef, parameterList, .trivia,
        .optional returnType, mark "=>", .trivia, ternary]
  | newExpression =>
      rows [keyword "new", .trivia, choices [anonymousClass, classReference], .optional newArguments]
  | newArguments => rows [.trivia, arguments]
  | anonymousClass =>
      rows [attributes, keyword "class", .trivia, .optional arguments, .trivia,
        .optional extendsClause, .optional implementsClause, classBody]
  | classReference => choices [parenthesized, dynamicClassReference, name]
  | dynamicClassReference => rows [dollarName, .star dynamicClassStep]
  | dynamicClassStep =>
      rows [.trivia, choices [mark "->", mark "::"], .trivia, choices [dollarName, identifier]]
  | matchExpression =>
      rows [keywordCall "match", .trivia, mark "(", .trivia, expression, .trivia, mark ")", .trivia,
        mark "\x7b", .trivia, trailingCommaList matchArm, .trivia, mark "\x7d"]
  | matchArm =>
      rows [choices [keyword "default", expressionList], .trivia, mark "=>", .trivia, expression]
  | arrayLiteral => choices [shortArray, longArray]
  | shortArray => rows [mark "[", .trivia, arrayItems, .trivia, mark "]"]
  | longArray => rows [keywordCall "array", .trivia, mark "(", .trivia, arrayItems, .trivia, mark ")"]
  | listLiteral => rows [keywordCall "list", .trivia, mark "(", .trivia, arrayItems, .trivia, mark ")"]
  | arrayItems =>
      rows [.star (rows [.optional arrayItem, .trivia, mark ",", .trivia]), .optional arrayItem]
  | arrayItem => choices [spreadItem, keyedItem, valueItem]
  | spreadItem => rows [mark "...", .trivia, expression]
  | keyedItem => rows [expression, .trivia, mark "=>", .trivia, .optional byRef, expression]
  | valueItem => rows [.optional byRef, expression]
  | variableVariable => rows [mark "$", choices [dollarName, braceExpression]]

end Rules

/-- The symbols that may answer without taking a character. -/
def mayBeEmpty : Symbol → Bool
  | program | statementList | terminator | forExpressions | optionalExpression | namespaceBody => true
  | classModifiers | memberModifiers | attributes | arrayItems => true
  | _ => false

/-- The layer of a symbol. Only symbols of lower layers are entered before a character is taken. -/
def layer : Symbol → Nat
  | program => 12
  | statementList | namespaceBody | ifStatementBody | arrayItems => 11
  | statement | matchArm | arrayItem => 10
  | expressionStatement | forExpressions | optionalExpression | expressionList => 9
  | argument | keyedItem | valueItem => 9
  | expression | yieldValue => 8
  | ternary | yieldKey => 7
  | binary => 6
  | unary | foreachTarget | parameter => 5
  | assignment | foreachKey | constantType | propertyType | parameterType => 4
  | postfixExpression | typeHint => 3
  | primary | unionHint | intersectionHint | member | useClause => 2
  | closure | arrowFunction | anonymousClass | classReference | newArguments | arrayLiteral => 1
  | memberSelector | staticSelector | postfixOperator | closureUse => 1
  | prefixOperation | keywordExpression | ternaryTail | typeAtom => 1
  | functionDeclaration | classDeclaration | interfaceDeclaration | traitDeclaration => 1
  | enumDeclaration | classConstant | methodDeclaration | propertyDeclaration => 1
  | namespaceStatement | useItem | switchCase => 1
  | _ => 0

theorem layer_lt (symbol : Symbol) : symbol.layer < 13 := by
  cases symbol <;> decide

theorem ordered : rules.Ordered mayBeEmpty layer where
  sound symbol := by
    have checked : (!(rules symbol).mayBeEmpty mayBeEmpty || symbol.mayBeEmpty) = true := by
      cases symbol <;> rfl
    intro empty
    rwa [empty, Bool.not_true, Bool.false_or] at checked
  entered symbol := by
    have checked : ((rules symbol).entered mayBeEmpty).all (·.layer < symbol.layer) = true := by
      cases symbol <;> rfl
    intro other member
    exact of_decide_eq_true (List.all_eq_true.mp checked other member)
  repeated symbol := by
    have checked : (rules symbol).repeated.all (!·.mayBeEmpty mayBeEmpty) = true := by
      cases symbol <;> rfl
    intro item member
    have solid := List.all_eq_true.mp checked item member
    rwa [Bool.not_eq_true'] at solid

end Symbol

end PhpAudit
