/-
Syntax trees.

A node covers a range of bytes of the source.  What matters about it is its kind, the role it plays
in its parent, whether it was put in by the parser although the source lacks it, and whether the
parser marks it as containing an error.  Kinds that no rule mentions are kept by name.
-/
namespace Tighten.Syntax

/-- What a node stands for. -/
inductive Kind where
  | structItem
  | unionItem
  | functionItem
  | enumItem
  | enumVariant
  | fieldList
  | field
  | visibility
  | implItem
  | traitItem
  | block
  | macroCall
  | macroDefinition
  | error
  | other (name : String)
deriving DecidableEq, Repr

namespace Kind

/-- The kinds with rules of their own, and their names in a syntax tree. -/
def named : List (String × Kind) :=
  [("struct_item", .structItem), ("union_item", .unionItem), ("function_item", .functionItem),
    ("enum_item", .enumItem), ("enum_variant", .enumVariant),
    ("field_declaration_list", .fieldList), ("field_declaration", .field),
    ("visibility_modifier", .visibility), ("impl_item", .implItem), ("trait_item", .traitItem),
    ("block", .block), ("macro_invocation", .macroCall), ("macro_definition", .macroDefinition),
    ("ERROR", .error)]

/-- The kind with this name. -/
def ofName (name : String) : Kind :=
  (named.lookup name).getD (.other name)

end Kind

/-- The role of a node in its parent. -/
inductive Role where
  | none
  | body
  | other (name : String)
deriving DecidableEq, Repr

/-- The role with this name. -/
def Role.ofName (name : String) : Role :=
  if name = "body" then .body else .other name

/-- A node of a syntax tree. -/
inductive Node where
  | mk (kind : Kind) (start stop : Nat) (role : Role) (missing flagged : Bool)
    (children : List Node)
deriving Repr

instance : Inhabited Node := ⟨.mk .error 0 0 .none false false []⟩

namespace Node

/-- What the node stands for. -/
def kind : Node → Kind
  | .mk k _ _ _ _ _ _ => k

/-- The offset of the node's first byte. -/
def start : Node → Nat
  | .mk _ s _ _ _ _ _ => s

/-- The offset just past the node's last byte. -/
def stop : Node → Nat
  | .mk _ _ e _ _ _ _ => e

/-- The node's role in its parent. -/
def role : Node → Role
  | .mk _ _ _ r _ _ _ => r

/-- Whether the parser put the node in although the source lacks it. -/
def isMissing : Node → Bool
  | .mk _ _ _ _ m _ _ => m

/-- Whether the parser marks the node as containing an error. -/
def hasError : Node → Bool
  | .mk _ _ _ _ _ f _ => f

/-- The node's children, in source order. -/
def children : Node → List Node
  | .mk _ _ _ _ _ _ cs => cs

/-- Whether the node is an error, or stands for something the source lacks. -/
def isFault (n : Node) : Bool :=
  n.kind == .error || n.isMissing

/-- A node marked as containing an error exactly when it is a fault or one of its children is
marked so. -/
def marked (kind : Kind) (start stop : Nat) (role : Role) (missing : Bool)
    (children : List Node) : Node :=
  .mk kind start stop role missing
    (missing || kind == .error || children.any Node.hasError) children

/-- The first child that is the body. -/
def body? (n : Node) : Option Node :=
  n.children.find? fun c => c.role == .body

/-- The first child that is a visibility modifier. -/
def modifier? (n : Node) : Option Node :=
  n.children.find? fun c => c.kind == .visibility

/-- The bytes that the node covers. -/
def bytes (source : List UInt8) (n : Node) : List UInt8 :=
  (source.take n.stop).drop n.start

end Node

end Tighten.Syntax
