import Schemata.Access
import Schemata.Constraint
import Schemata.FieldType
import Schemata.Path

/-!
# Field trees

The shape of an entity: a tree of named fields with an object at its root. The nodes stand in
one array and name each other by their places in it, so that a tree of any depth is flat. A
node knows its parent, and objects and arrays know their children.
-/
namespace Schemata

/-- The place of a node in its tree. -/
abbrev NodeId := Nat

/-- What a node is: an object with its children in declaration order, a leaf, or an array with
its single element. -/
inductive NodeShape where
  | object (children : List NodeId)
  | leaf (type : TypeRef) (constraints : List Constraint)
  | array (element : NodeId)

/-- A node of a field tree. The root has no name and no parent, and an array's element is named
by the wildcard. -/
structure FieldNode where
  name : String
  parent : Option NodeId
  shape : NodeShape
  access : Access

namespace FieldNode

def isObject (node : FieldNode) : Bool :=
  match node.shape with
  | .object _ => true
  | _ => false

def isLeaf (node : FieldNode) : Bool :=
  match node.shape with
  | .leaf _ _ => true
  | _ => false

def children (node : FieldNode) : List NodeId :=
  match node.shape with
  | .object children => children
  | .leaf _ _ => []
  | .array element => [element]

def type? (node : FieldNode) : Option TypeRef :=
  match node.shape with
  | .leaf type _ => some type
  | _ => none

def constraints (node : FieldNode) : List Constraint :=
  match node.shape with
  | .leaf _ constraints => constraints
  | _ => []

def isRequired (node : FieldNode) : Bool :=
  node.constraints.contains .required

end FieldNode

/-- A field tree, by its nodes. The node at place zero is the root. -/
structure FieldTree where
  nodes : Array FieldNode

namespace FieldTree

def root : NodeId := 0

def empty : FieldTree :=
  ⟨#[⟨"", none, .object [], ∅⟩]⟩

instance : EmptyCollection FieldTree := ⟨empty⟩

instance : Inhabited FieldTree := ⟨∅⟩

def node? (tree : FieldTree) (id : NodeId) : Option FieldNode :=
  tree.nodes[id]?

def contains (tree : FieldTree) (id : NodeId) : Bool :=
  (tree.node? id).isSome

def size (tree : FieldTree) : Nat :=
  tree.nodes.size

/-- The places of all nodes, in the order in which they were added. -/
def ids (tree : FieldTree) : List NodeId :=
  List.range tree.size

/-- The places of all nodes but the root, in the order in which they were added. -/
def fields (tree : FieldTree) : List NodeId :=
  tree.ids.tail

def children (tree : FieldTree) (id : NodeId) : List NodeId :=
  ((tree.node? id).map FieldNode.children).getD []

def isEmpty (tree : FieldTree) : Bool :=
  (tree.children root).isEmpty

def isNamed (tree : FieldTree) (name : String) (id : NodeId) : Bool :=
  (tree.node? id).any fun node => node.name = name

def child? (tree : FieldTree) (id : NodeId) (name : String) : Option NodeId :=
  (tree.children id).find? (tree.isNamed name)

def element? (tree : FieldTree) (id : NodeId) : Option NodeId :=
  match (tree.node? id).map FieldNode.shape with
  | some (.array element) => some element
  | _ => none

/-- The names from the root down to a node, in front of the names below it. Parents stand at
smaller places than their children. -/
def namesDownTo (tree : FieldTree) (id : NodeId) (below : List String) : List String :=
  match tree.node? id with
  | none => below
  | some node =>
      match node.parent with
      | none => below
      | some parent =>
          if parent < id then tree.namesDownTo parent (node.name :: below)
          else node.name :: below
termination_by id

/-- The path of a node from the root. Elements of arrays stand in it as wildcards. -/
def fullPath (tree : FieldTree) (id : NodeId) : Path :=
  ⟨tree.namesDownTo id []⟩

/-- One step down: an object's child by its name, an array's element by any segment that
selects elements. The wildcard names no child. -/
def step? (tree : FieldTree) (id : NodeId) (segment : String) : Option NodeId :=
  match (tree.node? id).map FieldNode.shape with
  | some (.object _) =>
      if segment = Path.wildcard then none else tree.child? id segment
  | some (.array element) =>
      if Path.selectsElement segment then some element else none
  | _ => none

def follow? (tree : FieldTree) (id : NodeId) (segments : List String) : Option NodeId :=
  segments.foldlM tree.step? id

def resolve? (tree : FieldTree) (path : Path) : Option NodeId :=
  tree.follow? root path.segments

end FieldTree
end Schemata
