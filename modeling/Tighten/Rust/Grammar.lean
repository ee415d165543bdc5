import Tighten.Rust.Phrase

/-
The grammar of Rust files.

A file is a list of statements, and so is a block: items, `let`, expressions, attributes and macro
calls.  The grammar is exact about which texts are files and loose about how expressions nest,
since operators of any strength are read as one flat sequence.  Nodes are made for the parts that
a walk over declarations looks at: items, their bodies, fields, variants and visibility modifiers.

Three decisions run through the whole grammar.  A word is a keyword only in places where that
keyword could stand, so each place names the words it does not take for names.  In the head of
`if`, `while`, `match` and `for` a brace opens the body and never a struct literal.  A block-like
expression at the start of a statement ends that statement unless the next token can only go on
with the expression.
-/
namespace Tighten.Rust

open Syntax

/-- What may follow the last name of a path that is a type. -/
inductive PathEnd where
  /-- Type arguments only. -/
  | plain
  /-- Also the parameters of a function type. -/
  | function
  /-- Also the arguments of a macro. -/
  | called
  /-- The parameters of a function type, and nothing else. -/
  | applied
deriving DecidableEq, Repr

/-- The symbols of the grammar. -/
inductive Symbol where
  | file
  /-- A statement; inside a block the last one may lack its semicolon. -/
  | statement (inBlock : Bool)
  | declaration
  | item
  | visibility
  | path
  | attr
  | delimited
  | treePattern
  | treePatternToken
  | tree
  | treeToken
  | macroDefinition
  | useTree
  | declarations
  | fieldList
  | orderedFieldList
  | functionHead
  | parameters
  | parameter
  | typeParameters
  | typeArguments
  | whereClause
  | bounds
  | type
  /-- A type without `+`. -/
  | typeAtom
  | typePath (ending : PathEnd)
  | pathTail (ending : PathEnd)
  | lifetime
  | pattern
  | patternAtom
  /-- An expression; in a head no struct literal stands at its surface. -/
  | expression (head : Bool)
  | operand (head : Bool)
  | operators (head : Bool)
  | primary (head : Bool)
  | pathExpression (head : Bool)
  | suffix
  | condition (head : Bool)
  | closure (head : Bool)
  | blockLike
  | ifExpression
  | matchArm
  | block
  | arguments
  | macroCall
deriving Repr

/-- A phrase of the Rust grammar. -/
abbrev RustPhrase := Phrase Symbol

namespace Grammar

open Phrase

/-! ### Words -/

/-- Types that are words of the language. -/
def primitives : List String :=
  numericTypes ++ ["bool", "str", "char"]

/-- Words of the language that are names as well. -/
def reserved : List String := ["default", "union", "gen", "raw"]

/-- Words with which a path begins, or a list of such words. -/
def pathRoots : List String := ["self", "super", "crate"]

/-- Words that are not names where an expression begins. -/
def expressionKeywords : List String :=
  ["return", "yield", "break", "continue", "unsafe", "async", "try", "if", "match", "while",
    "loop", "for", "const", "static", "move", "true", "false", "let"]

/-- Words that begin an item, and so begin no expression where an item may stand. -/
def itemKeywords : List String :=
  ["pub", "fn", "struct", "enum", "mod", "use", "trait", "type", "impl", "extern", "let"]

/-- Words that are not names where a type begins. -/
def typeKeywords : List String :=
  ["impl", "dyn", "fn", "for", "extern", "unsafe", "async", "const", "use"]

/-- Words that are not names where a pattern begins. -/
def patternKeywords : List String := ["ref", "mut", "const", "true", "false"]

/-- The kinds of fragment that a macro pattern can bind. -/
def fragments : List String :=
  ["block", "expr", "expr_2021", "ident", "item", "lifetime", "literal", "meta", "pat",
    "pat_param", "path", "stmt", "tt", "ty", "vis"]

/-- The brace that opens a body. -/
def leftBrace : String := "\x7b"

/-- The brace that closes a body. -/
def rightBrace : String := "\x7d"

/-- One of several words. -/
def words (ws : List String) : RustPhrase := oneOf (ws.map word)

/-- Any word. -/
def anyName : RustPhrase := name []

/-- A metavariable. -/
def metavariable : RustPhrase := .token (.lexeme .metavariable)

/-- A number without fraction. -/
def integer : RustPhrase := .token (.lexeme .integer)

/-- A number. -/
def number : RustPhrase := .alt integer (.token (.lexeme .float))

/-- A string that is not raw. -/
def text : RustPhrase := .token (.lexeme .text)

/-- A literal. -/
def literal : RustPhrase :=
  oneOf [text, .token (.lexeme .rawText), .token (.lexeme .character), number, words ["true", "false"]]

/-- A colon that is not part of a path separator. -/
def colon : RustPhrase := .seq (.unless (op "::")) (op ":")

/-- An equals sign and what it gives. -/
def equals (p : RustPhrase) : RustPhrase := .seq (op "=") p

/-- Nodes that no rule of the walk mentions. -/
def plain (name : String) (p : RustPhrase) : RustPhrase := .node (.other name) .none p

/-! ### Macros and attributes -/

/-- A token that is no delimiter and none of the other given characters. -/
def tokenExcept (others : List Char) : RustPhrase :=
  .token (.except (['(', ')', '[', ']', '{', '}'] ++ others))

/-- Any number of phrases between delimiters of any of the three kinds. -/
def delimitedBy (p : RustPhrase) : RustPhrase :=
  oneOf [enclosed "(" (.many p) ")", enclosed "[" (.many p) "]", enclosed leftBrace (.many p) rightBrace]

/-- A repetition in a macro: its separator is anything up to the mark that says how often. -/
def repetition (p : RustPhrase) : RustPhrase :=
  all [op "$", enclosed "(" (.many p) ")", .many (.token (.except ['+', '*', '?'])),
    .token (.among ['+', '*', '?'])]

/-- The rules of a macro definition. -/
def macroRuleList : RustPhrase :=
  let rule := all [.symbol .treePattern, op "=>", .symbol .tree]
  .seq (.many (.seq rule (op ";"))) (opt rule)

/-- A macro definition. -/
def macroDefinition : RustPhrase :=
  .node .macroDefinition .none <| all [word macroRules, anyName,
    oneOf [.seq (enclosed "(" macroRuleList ")") (op ";"),
      .seq (enclosed "[" macroRuleList "]") (op ";"), enclosed leftBrace macroRuleList rightBrace]]

/-- A token of a macro pattern. -/
def treePatternToken : RustPhrase :=
  oneOf [.symbol .treePattern, repetition (.symbol .treePatternToken),
    all [metavariable, colon, .commit (words fragments)], metavariable, tokenExcept ['$']]

/-- A token of the text that a macro expands to. -/
def treeToken : RustPhrase :=
  oneOf [.symbol .tree, repetition (.symbol .treeToken), metavariable, tokenExcept ['$']]

/-- A call mark and the arguments of a macro. -/
def macroArguments : RustPhrase := .seq (op "!") (.symbol .delimited)

/-- An attribute, of the thing that follows or of what it stands in. -/
def attributeItem : RustPhrase :=
  let content := .seq (.symbol .path)
    (opt (.alt (equals (.symbol (.expression false))) (.symbol .delimited)))
  plain "attribute_item" <|
    all [op "#", .commit (all [opt (op "!"), op "[", content, op "]"])]

/-- An attribute of the thing that follows. -/
def outerAttribute : RustPhrase :=
  .seq (.unless (.seq (op "#") (op "!"))) (.symbol .attr)

/-- A macro call whose name is a name, or a path of at least two parts. -/
def macroCall : RustPhrase :=
  let more := .seq (op "::") anyName
  .node .macroCall .none <| .seq
    (oneOf [.seq (op "::") (.seq anyName (.many more)),
      .seq (name (expressionKeywords ++ pathRoots ++ primitives)) (.many more),
      .seq (.alt metavariable (words (pathRoots ++ primitives))) (some more)])
    macroArguments

/-! ### Paths, visibility, imports -/

/-- A path without type arguments. -/
def path : RustPhrase :=
  all [opt (op "::"), .alt metavariable anyName, .many (.seq (op "::") anyName)]

/-- A visibility modifier. -/
def visibility : RustPhrase :=
  let scope := all [op "(", oneOf [.seq (word "in") (.symbol .path),
    .seq (words pathRoots) .nothing], op ")"]
  .node .visibility .none <|
    .alt (.seq (word "pub") (opt scope)) (.seq (word "crate") (.unless (op "::")))

/-- A visibility modifier or nothing. -/
def visible : RustPhrase := opt (.symbol .visibility)

/-- A name, perhaps with its visibility.  Only after a visibility can its words be names. -/
def visibleName : RustPhrase := .alt (.seq (.symbol .visibility) anyName) (name ["pub", "crate"])

/-- What an import brings in. -/
def useTree : RustPhrase :=
  let braces := all [op leftBrace, list (.symbol .useTree), op rightBrace]
  let inside := .alt braces (op "*")
  oneOf [inside, .seq (op "::") inside,
    .seq (.symbol .path)
      (opt (.alt (.seq (op "::") inside) (.seq (word "as") anyName)))]

/-! ### Items -/

/-- Declarations between braces. -/
def declarations : RustPhrase :=
  .node (.other "declaration_list") .body <|
    enclosed leftBrace (.many (.alt (.symbol .declaration) (.symbol .macroCall))) rightBrace

/-- Named fields. -/
def fieldList : RustPhrase :=
  let field := .node .field .none <|
    all [visibleName, colon, .symbol .type]
  .node .fieldList .body <| enclosed leftBrace (list (.seq (.many outerAttribute) field)) rightBrace

/-- Numbered fields. -/
def orderedFieldList : RustPhrase :=
  .node (.other "ordered_field_declaration_list") .body <|
    enclosed "(" (list (all [.many outerAttribute, visible, .symbol .type])) ")"

/-- The variants of an `enum`. -/
def variantList : RustPhrase :=
  let variant := .node .enumVariant .none <|
    all [visibleName, opt (.alt (.symbol .fieldList) (.symbol .orderedFieldList)),
      opt (equals (.symbol (.expression false)))]
  .node (.other "enum_variant_list") .body <|
    enclosed leftBrace (list (.seq (.many outerAttribute) variant)) rightBrace

/-- `extern` and perhaps the name of a calling convention. -/
def externModifier : RustPhrase := .seq (word "extern") (opt text)

/-- The words before `fn`. -/
def functionModifiers : RustPhrase :=
  some (.alt (words ["async", "default", "const", "unsafe"]) externModifier)

/-- A function up to its body. -/
def functionHead : RustPhrase :=
  all [visible, opt functionModifiers, word "fn", .alt anyName metavariable,
    opt (.symbol .typeParameters), .symbol .parameters,
    opt (.seq (op "->") (.symbol .type)), opt (.symbol .whereClause)]

/-- A `struct`. -/
def structItem : RustPhrase :=
  .node .structItem .none <| all [visible, word "struct", .commit <| all [anyName,
    opt (.symbol .typeParameters),
    oneOf [.seq (opt (.symbol .whereClause)) (.symbol .fieldList),
      all [.symbol .orderedFieldList, opt (.symbol .whereClause), op ";"], op ";"]]]

/-- A `union`. -/
def unionItem : RustPhrase :=
  .node .unionItem .none <| all [visible, word "union", anyName,
    opt (.symbol .typeParameters), opt (.symbol .whereClause), .symbol .fieldList]

/-- An `enum`. -/
def enumItem : RustPhrase :=
  .node .enumItem .none <| all [visible, word "enum", .commit <| all [anyName,
    opt (.symbol .typeParameters), opt (.symbol .whereClause), variantList]]

/-- A named constant or a static variable. -/
def valueItem : RustPhrase :=
  let rest := all [colon, .symbol .type, opt (equals (.symbol (.expression false))), op ";"]
  plain "value_item" <| .seq visible <| .alt
    (all [word "const", name ["async", "default", "const", "unsafe", "extern", "fn"], rest])
    (all [word "static", opt (word "ref"), opt (word "mut"), name ["async", "move"], rest])

/-- A module. -/
def moduleItem : RustPhrase :=
  plain "mod_item" <| all [visible, word "mod",
    .commit (.seq anyName (.alt (op ";") (.symbol .declarations)))]

/-- A block of foreign declarations. -/
def foreignItem : RustPhrase :=
  plain "foreign_mod_item" <| all [visible, opt (word "unsafe"), externModifier,
    .alt (op ";") (.symbol .declarations)]

/-- An imported crate. -/
def externCrate : RustPhrase :=
  plain "extern_crate_declaration" <| all [visible, word "extern", word "crate", anyName,
    opt (.seq (word "as") anyName), op ";"]

/-- A type that stands for another, or that an implementation will provide. -/
def typeItem : RustPhrase :=
  let head := all [word "type", anyName, opt (.symbol .typeParameters)]
  plain "type_item" <| .alt
    (all [visible, head, opt (.symbol .whereClause), equals (.symbol .type),
      opt (.symbol .whereClause), op ";"])
    (all [head, opt (.symbol .bounds), opt (.symbol .whereClause), op ";"])

/-- An `impl`. -/
def implItem : RustPhrase :=
  let typed := .alt
    (all [opt (op "!"), .symbol (.typePath .plain), word "for", .symbol .type]) (.symbol .type)
  .node .implItem .none <| all [opt (word "unsafe"), word "impl", .commit <|
    all [opt (.symbol .typeParameters), typed, opt (.symbol .whereClause),
      .alt (.symbol .declarations) (op ";")]]

/-- A `trait`. -/
def traitItem : RustPhrase :=
  .node .traitItem .none <| all [visible, opt (word "unsafe"), word "trait", .commit <|
    all [anyName, opt (.symbol .typeParameters), opt (.symbol .bounds),
      opt (.symbol .whereClause), .symbol .declarations]]

/-- An import. -/
def useItem : RustPhrase :=
  plain "use_declaration" <|
    all [visible, word "use", .commit (.seq (.symbol .useTree) (op ";"))]

/-- A function with a body, or the declaration of one without. -/
def functionItem : RustPhrase :=
  .alt (.node .functionItem .none (.seq (.symbol .functionHead) (.symbol .block)))
    (plain "function_signature_item" (.seq (.symbol .functionHead) (op ";")))

/-- A local binding. -/
def letStatement : RustPhrase :=
  plain "let_declaration" <| .seq (word "let") <| .commit <| all [opt (word "mut"),
    .symbol .pattern, opt (.seq colon (.symbol .type)),
    opt (equals (.symbol (.expression false))), opt (.seq (word "else") (.symbol .block)), op ";"]

/-- Any item. -/
def item : RustPhrase :=
  oneOf [structItem, unionItem, enumItem, functionItem, valueItem, moduleItem, externCrate,
    foreignItem, typeItem, implItem, traitItem, useItem]

/-- A declaration, macro calls apart. -/
def declaration : RustPhrase :=
  oneOf [op ";", .symbol .attr, .symbol .macroDefinition, letStatement, .symbol .item]

/-! ### Functions and generics -/

/-- A lifetime or a label. -/
def lifetime : RustPhrase := .seq (op "'") anyName

/-- The parameter that stands for the receiver. -/
def selfParameter : RustPhrase :=
  all [opt (op "&"), opt (.symbol .lifetime), opt (word "mut"), word "self", .unless (op ":")]

/-- One parameter. -/
def parameter : RustPhrase :=
  .seq (opt outerAttribute) <| oneOf [
    all [opt (word "mut"), .alt (.symbol .pattern) (word "self"), colon, .symbol .type],
    selfParameter,
    all [opt (word "mut"), opt (.seq (.symbol .pattern) colon), op "..."],
    .seq (.unless (words patternKeywords)) (.symbol .type)]

/-- The parameters of a function. -/
def parameters : RustPhrase := all [op "(", list (.symbol .parameter), op ")"]

/-- The generic parameters of an item. -/
def typeParameters : RustPhrase :=
  let constant := all [word "const", anyName, colon, .symbol .type,
    opt (equals (oneOf [.symbol .block, literal, .seq (op "-") number, anyName]))]
  let lifetimeParameter := .seq (.symbol .lifetime) (opt (.symbol .bounds))
  let typeParameter := all [name ["const"], opt (.symbol .bounds), opt (equals (.symbol .type))]
  all [op "<",
    list1 (.seq (.many outerAttribute)
      (oneOf [metavariable, constant, lifetimeParameter, typeParameter])), op ">"]

/-- A type given for all lifetimes. -/
def higherRanked : RustPhrase :=
  all [word "for", .symbol .typeParameters, .symbol .typeAtom]

/-- A colon and the bounds after it. -/
def bounds : RustPhrase :=
  .seq colon (sepBy1 (op "+") (oneOf [.symbol .lifetime, higherRanked, .symbol .typeAtom]))

/-- A reference type. -/
def referenceType : RustPhrase :=
  all [op "&", opt (.symbol .lifetime), opt (word "mut"), .symbol .typeAtom]

/-- A raw pointer type. -/
def pointerType : RustPhrase := all [op "*", words ["const", "mut"], .symbol .typeAtom]

/-- An array or slice type. -/
def arrayType : RustPhrase :=
  all [op "[", .symbol .type, opt (.seq (op ";") (.symbol (.expression false))), op "]"]

/-- A tuple type with at least one part. -/
def tupleType : RustPhrase := all [op "(", list1 (.symbol .type), op ")"]

/-- Conditions on generic parameters. -/
def whereClause : RustPhrase :=
  let subject := oneOf [.symbol .lifetime, higherRanked, referenceType, pointerType, arrayType,
    tupleType, .symbol (.typePath .plain), words primitives]
  .seq (word "where") (opt (list1 (.seq subject (.symbol .bounds))))

/-- Arguments for generic parameters. -/
def typeArguments : RustPhrase :=
  let argument := oneOf [.seq (.symbol .lifetime) (.unless (op "+")), literal, .symbol .block,
    .seq (.symbol .type) (opt (equals (.symbol .type)))]
  enclosed "<" (list1 (.seq argument (opt (.symbol .bounds)))) ">"

/-! ### Types -/

/-- A part of a path after its first. -/
def pathPart : RustPhrase := .seq (op "::") anyName

/-- A return type. -/
def returned : RustPhrase := opt (.seq (op "->") (.symbol .typeAtom))

/-- The parameters and the result of a function type. -/
def functionRest : RustPhrase := .seq (.symbol .parameters) returned

/-- What may follow a name in a path that is a type. -/
def pathTail (ending : PathEnd) : RustPhrase :=
  let more := .seq pathPart (.symbol (.pathTail ending))
  let closing := match ending with
    | .plain => .nothing
    | .function => opt functionRest
    | .called => opt (.alt macroArguments functionRest)
    | .applied => functionRest
  oneOf [all [op "::", .symbol .typeArguments, more], more,
    .seq (.symbol .typeArguments) (if ending = .applied then more else opt more), closing]

/-- A path that is a type.  Words that only begin paths, and types that are words of the language,
are none by themselves and take no arguments. -/
def typePath (ending : PathEnd) : RustPhrase :=
  let tail := .symbol (.pathTail ending)
  oneOf [all [op "<", .symbol .type, opt (.seq (word "as") (.symbol .type)), op ">", pathPart, tail],
    .seq pathPart tail,
    .seq (name (typeKeywords ++ pathRoots ++ reserved ++ primitives)) tail,
    all [.alt metavariable (words (pathRoots ++ primitives)), pathPart, tail],
    .seq (words reserved) (.seq (.ahead (.alt (op "::") (op "<"))) tail)]

/-- The lifetimes that a function type is given for. -/
def forLifetimes : RustPhrase := all [word "for", op "<", list1 (.symbol .lifetime), op ">"]

/-- A function type, or a path with any of the endings given. -/
def functionOrPath (ending : PathEnd) : RustPhrase :=
  let function := all [opt functionModifiers, word "fn", functionRest]
  oneOf [.seq forLifetimes (.alt function (.symbol (.typePath .applied))), function,
    .symbol (.typePath ending)]

/-- The generic parameters that a type may capture. -/
def captured : RustPhrase :=
  all [word "use", op "<", list (.alt (.symbol .lifetime) anyName), op ">"]

/-- A bound added to a type. -/
def added : RustPhrase := .seq (op "+") (oneOf [.symbol .lifetime, captured, .symbol .typeAtom])

/-- At least two bounds, the first of which need not be a type. -/
def bounded : RustPhrase :=
  .seq (oneOf [.symbol .lifetime, captured, .symbol .typeAtom]) (some added)

/-- A type without `+`. -/
def typeAtom : RustPhrase :=
  let relaxed := .seq (op "?") (.symbol .typeAtom)
  oneOf [
    all [word "impl", opt (.seq (word "for") (.symbol .typeParameters)),
      oneOf [relaxed, tupleType, functionOrPath .function, bounded]],
    .seq (word "dyn") (oneOf [tupleType, functionOrPath .function, higherRanked, bounded]),
    referenceType, pointerType, arrayType, op "!", relaxed, .seq (op "(") (op ")"), tupleType,
    functionOrPath .called, metavariable, words primitives]

/-- A type, with bounds added to it. -/
def type : RustPhrase :=
  .alt (.seq (.alt (.symbol .lifetime) captured) (some added))
    (.seq (.symbol .typeAtom) (.many added))

/-! ### Patterns -/

/-- One end of a range pattern. -/
def rangeBound : RustPhrase :=
  oneOf [literal, .seq (op "-") number,
    .seq (.unless (words patternKeywords)) (.symbol .path)]

/-- The rest of a range pattern after its first end. -/
def rangeRest : RustPhrase :=
  .alt (.seq (ops ["...", "..="]) rangeBound) (.seq (op "..") (opt rangeBound))

/-- The fields of a struct pattern. -/
def fieldPatterns : RustPhrase :=
  let field := all [opt (word "ref"), opt (word "mut"), name ["ref", "mut"],
    opt (.seq colon (.symbol .pattern))]
  all [op leftBrace, list (.alt (op "..") field), op rightBrace]

/-- What may follow a path in a pattern. -/
def pathPatternRest : RustPhrase :=
  oneOf [macroArguments,
    all [op "(", list (.alt (.symbol .pattern) (.symbol (.closure false))), op ")"],
    fieldPatterns, rangeRest]

/-- A pattern without alternatives. -/
def patternAtom : RustPhrase :=
  let part := .seq (op "::") (.alt anyName (.symbol .typeArguments))
  let roots := pathRoots
  oneOf [
    .seq (.alt literal (.seq (op "-") number)) (opt rangeRest),
    .seq (op "..=") rangeBound, .seq (op "..") (opt rangeBound),
    .seq (words ["ref", "mut"]) (.symbol .patternAtom),
    all [op "&", opt (word "mut"), .symbol .patternAtom],
    all [op "(", list (.alt (.symbol .pattern) (.symbol (.closure false))), op ")"],
    all [op "[", list (.symbol .pattern), op "]"],
    .seq (word "const") (.symbol .block),
    all [op "<", .symbol .type, opt (.seq (word "as") (.symbol .type)), op ">", some part,
      opt pathPatternRest],
    .seq (some part) (opt pathPatternRest),
    .seq (name (patternKeywords ++ roots))
      (.alt (.seq (op "@") (.symbol .patternAtom)) (.seq (.many part) (opt pathPatternRest))),
    .seq (.alt metavariable (words roots))
      (.alt (.seq (some part) (opt pathPatternRest)) rangeRest)]

/-- A pattern. -/
def pattern : RustPhrase := .seq (opt (op "|")) (sepBy1 (op "|") (.symbol .patternAtom))

/-! ### Expressions -/

/-- Where a brace opens the body of the surrounding expression, nothing that begins with one. -/
def unlessBody (head : Bool) : RustPhrase := if head then .unless (op leftBrace) else .nothing

/-- Operators between two operands, longer ones first. -/
def binaryOperators : List String :=
  ["||", "<<=", ">>=", "<<", ">>", "==", "!=", "<=", ">=", "+=", "-=", "*=", "/=", "%=", "^=",
    "&=", "|=", "=", "<", ">", "+", "-", "*", "/", "%", "^", "&", "|"]

/-- The conjunction; before `let` it belongs to the condition around it. -/
def conjunction : RustPhrase := .seq (op "&&") (.unless (word "let"))

/-- Tokens with which an operand could begin, but which go on with a finished one if they can. -/
def continuing : RustPhrase := ops ["-", "*", "&", "|", "[", "<", ".."]

/-- An access other than a call: an index, a field, or the question mark. -/
def access : RustPhrase :=
  let member := all [.unless (op ".."), op ".",
    .alt integer (.seq anyName (opt (.seq (op "::") (.symbol .typeArguments))))]
  oneOf [op "?", all [op "[", .symbol (.expression false), op "]"], member]

/-- A range from its dots on; its end may be missing. -/
def rangeFrom (head : Bool) : RustPhrase :=
  .seq (op "..") (.alt (all [.unless continuing, unlessBody head, .symbol (.operand head)])
    (.many access))

/-- Everything that may follow an operand. -/
def operators (head : Bool) : RustPhrase :=
  .many <| oneOf [
    .seq conjunction (.symbol (.operand head)),
    .seq (ops ["..=", "..."]) (.symbol (.operand head)),
    rangeFrom head,
    .seq (word "as") (.symbol .typeAtom),
    .seq (ops binaryOperators) (.symbol (.operand head))]

/-- An expression. -/
def expression (head : Bool) : RustPhrase :=
  .seq (.symbol (.operand head)) (.symbol (.operators head))

/-- An operand with the signs before it and the accesses after it. -/
def operand (head : Bool) : RustPhrase :=
  let reference := .seq (op "&")
    (.alt (.seq (word "raw") (words ["const", "mut"])) (opt (word "mut")))
  .seq (.many (.alt (ops ["-", "*", "!"]) reference)) <|
    .alt (.seq (.symbol (.primary head)) (.many (.symbol .suffix))) (rangeFrom head)

/-- The arguments of a call. -/
def arguments : RustPhrase :=
  all [op "(", list (.seq (.many outerAttribute) (.symbol (.expression false))), op ")"]

/-- A call or another access. -/
def suffix : RustPhrase := .alt (.symbol .arguments) access

/-- The fields of a struct literal. -/
def fieldValues : RustPhrase :=
  let field := .seq (.many outerAttribute) (.alt
    (all [.alt anyName integer, colon, .symbol (.expression false)]) anyName)
  enclosed leftBrace (list (.alt (.seq (op "..") (.symbol (.expression false))) field)) rightBrace

/-- A name or a path, perhaps called as a macro or followed by the fields of a literal. -/
def pathExpression (head : Bool) : RustPhrase :=
  let part := .seq (op "::") (.alt (.symbol .typeArguments) anyName)
  let macroRest := .node .macroCall .none macroArguments
  let rest := if head then opt macroRest else opt (.alt macroRest fieldValues)
  let special := pathRoots ++ primitives ++ reserved
  oneOf [
    all [op "<", .symbol .type, opt (.seq (word "as") (.symbol .type)), op ">", some part,
      opt macroRest],
    .seq (some part) rest,
    .seq (name (expressionKeywords ++ special)) (.seq (.many part) rest),
    all [.alt metavariable (words special), some part, rest],
    .seq (words reserved) (opt macroRest),
    .alt metavariable (words ("self" :: primitives))]

/-- A closure. -/
def closure (head : Bool) : RustPhrase :=
  let parameter := all [opt (word "mut"), .symbol .patternAtom,
    opt (.seq colon (.symbol .type))]
  all [opt (word "static"), opt (word "async"), opt (word "move"), op "|",
    opt (sepBy1 (op ",") parameter), op "|",
    .alt (all [op "->", .symbol .type, .symbol .block]) (.symbol (.expression head))]

/-- A parenthesised expression, a tuple or the unit. -/
def parenthesised : RustPhrase :=
  let e := .symbol (.expression false)
  let rest := all [.many (.seq e (op ",")), opt e, op ")"]
  .seq (op "(") <| oneOf [op ")",
    all [some outerAttribute, e, op ",", rest],
    .seq e (.alt (op ")") (.seq (op ",") rest))]

/-- An array. -/
def array : RustPhrase :=
  let e := .symbol (.expression false)
  let item := .seq (.many outerAttribute) e
  all [op "[", opt (.seq item (.alt (.seq (op ";") e)
    (.many (.seq (op ",") item)))), opt (op ","), op "]"]

/-- An operand without signs and accesses. -/
def primary (head : Bool) : RustPhrase :=
  let value := .symbol (.expression head)
  oneOf [literal, .symbol (.closure head), .symbol .blockLike,
    .seq (words ["return", "yield"]) (opt value),
    all [word "break", opt (.seq (.symbol .lifetime) (.unless colon)),
      opt (all [.unless (.alt continuing (op "(")), unlessBody head, value])],
    .seq (word "continue") (opt (.symbol .lifetime)),
    parenthesised, array, .symbol (.pathExpression head)]

/-- A condition: expressions and `let` tests, joined by `&&`. -/
def condition (head : Bool) : RustPhrase :=
  let test := all [word "let", .symbol .pattern, op "=", .symbol (.expression head)]
  sepBy1 (op "&&") (.alt test (.symbol (.expression head)))

/-- An `if` with its alternatives. -/
def ifExpression : RustPhrase :=
  .seq (word "if") <| .commit <| all [.symbol (.condition true), .symbol .block,
    opt (.seq (word "else") (.commit (.alt (.symbol .block) (.symbol .ifExpression))))]

/-- An expression that ends in a block. -/
def blockLike : RustPhrase :=
  let label := .seq (.symbol .lifetime) colon
  let e := .symbol (.expression true)
  oneOf [
    .seq (words ["unsafe", "try", "const"]) (.symbol .block),
    all [words ["async", "gen"], opt (word "move"), .symbol .block],
    .symbol .ifExpression,
    .seq (word "match") (.commit (.seq e (enclosed leftBrace (.many (.symbol .matchArm)) rightBrace))),
    .seq (opt label) <| oneOf [
      .seq (word "while") (.commit (.seq (.symbol (.condition true)) (.symbol .block))),
      .seq (word "loop") (.commit (.symbol .block)),
      .seq (word "for")
        (.commit (all [.symbol .pattern, word "in", e, .symbol .block])),
      .symbol .block]]

/-- Tokens that can only go on with an expression that has just ended in a block, whether a
statement or an arm of a `match` could begin after it. -/
def continuation : RustPhrase :=
  oneOf [.seq (.unless (op "..")) (op "."), op "...", op "?", word "as",
    ops ["&&", "||", "<<", "==", "!=", "<=", ">=", ">>", "+", "-=", "*=", "/", "%", "^", "&=",
      "|="],
    .seq (.unless (op "=>")) (op "="), op ">"]

/-- The rest of an expression that began with a block. -/
def resumed : RustPhrase := .seq (.many (.symbol .suffix)) (.symbol (.operators false))

/-- One arm of a `match`. -/
def matchArm : RustPhrase :=
  let stop := .alt (op ",") (.ahead (op rightBrace))
  let value := .alt
    (.seq (.symbol .blockLike)
      (.alt (.seq (.unless (.alt continuation (op "*"))) (opt (op ",")))
        (.seq resumed stop)))
    (.seq (.symbol (.expression false)) stop)
  all [.many (.symbol .attr), .symbol .pattern,
    opt (.seq (word "if") (.symbol (.condition false))), op "=>", .commit value]

/-! ### Statements -/

/-- A block. -/
def block : RustPhrase :=
  .node .block .none <| .seq (opt (.seq (.symbol .lifetime) colon))
    (enclosed leftBrace (.many (.symbol (.statement true))) rightBrace)

/-- Tokens that go on with an expression after a macro call. -/
def callContinuation : RustPhrase :=
  oneOf [continuation, op "..", ops ["(", "[", "<", "-", "*", "&", "|"]]

/-- A statement. -/
def statement (inBlock : Bool) : RustPhrase :=
  let stop := if inBlock then .alt (op ";") (.ahead (op rightBrace)) else op ";"
  oneOf [.symbol .declaration,
    .seq (.symbol .blockLike)
      (.alt (.unless (.alt continuation (op "..="))) (.seq resumed stop)),
    .seq (.unless (words itemKeywords)) <| .alt
      (.seq (.symbol .macroCall) (.alt (.unless callContinuation) (.seq resumed stop)))
      (.seq (.symbol (.expression false)) stop)]

/-- A file. -/
def file : RustPhrase :=
  plain "source_file" <|
    .seq (opt (.token (.lexeme .interpreter))) (.many (.symbol (.statement false)))

end Grammar

/-- The phrase of each symbol. -/
def grammar : Symbol → RustPhrase
  | .file => Grammar.file
  | .statement inBlock => Grammar.statement inBlock
  | .declaration => Grammar.declaration
  | .item => Grammar.item
  | .visibility => Grammar.visibility
  | .path => Grammar.path
  | .attr => Grammar.attributeItem
  | .delimited => Grammar.delimitedBy (.alt (.symbol .delimited) (Grammar.tokenExcept []))
  | .treePattern => Grammar.delimitedBy (.symbol .treePatternToken)
  | .treePatternToken => Grammar.treePatternToken
  | .tree => Grammar.delimitedBy (.symbol .treeToken)
  | .treeToken => Grammar.treeToken
  | .macroDefinition => Grammar.macroDefinition
  | .useTree => Grammar.useTree
  | .declarations => Grammar.declarations
  | .fieldList => Grammar.fieldList
  | .orderedFieldList => Grammar.orderedFieldList
  | .functionHead => Grammar.functionHead
  | .parameters => Grammar.parameters
  | .parameter => Grammar.parameter
  | .typeParameters => Grammar.typeParameters
  | .typeArguments => Grammar.typeArguments
  | .whereClause => Grammar.whereClause
  | .bounds => Grammar.bounds
  | .type => Grammar.type
  | .typeAtom => Grammar.typeAtom
  | .typePath ending => Grammar.typePath ending
  | .pathTail ending => Grammar.pathTail ending
  | .lifetime => Grammar.lifetime
  | .pattern => Grammar.pattern
  | .patternAtom => Grammar.patternAtom
  | .expression head => Grammar.expression head
  | .operand head => Grammar.operand head
  | .operators head => Grammar.operators head
  | .primary head => Grammar.primary head
  | .pathExpression head => Grammar.pathExpression head
  | .suffix => Grammar.suffix
  | .condition head => Grammar.condition head
  | .closure head => Grammar.closure head
  | .blockLike => Grammar.blockLike
  | .ifExpression => Grammar.ifExpression
  | .matchArm => Grammar.matchArm
  | .block => Grammar.block
  | .arguments => Grammar.arguments
  | .macroCall => Grammar.macroCall

end Tighten.Rust
