import Schemata.FieldTree.Basic

/-!
# Growth of field trees

Fields are added beneath objects and are never moved or removed. Adding checks the name, then
the parent, then the siblings.
-/
namespace Schemata

inductive FieldTreeError where
  | emptyName (parent : Path)
  | invalidName (name : String)
  | duplicateField (field : Path)
  | notComposite (field : Path)
  | notSimple (field : Path)
deriving DecidableEq

def FieldTreeError.message : FieldTreeError → String
  | .emptyName parent => "empty field name under '" ++ parent.render ++ "'"
  | .invalidName name => "invalid field name: " ++ name
  | .duplicateField field => "duplicate field: " ++ field.render
  | .notComposite field => "not a composite field: " ++ field.render
  | .notSimple field => "not a simple field: " ++ field.render

namespace FieldTree

def push (tree : FieldTree) (node : FieldNode) : FieldTree :=
  ⟨tree.nodes.push node⟩

def change (tree : FieldTree) (id : NodeId) (edit : FieldNode → FieldNode) : FieldTree :=
  ⟨tree.nodes.modify id edit⟩

def addChild (child : NodeId) (node : FieldNode) : FieldNode :=
  match node.shape with
  | .object children => { node with shape := .object (children ++ [child]) }
  | _ => node

/-- A name that a field may have: not empty, without dots, and not the wildcard. -/
def checkName (tree : FieldTree) (parent : NodeId) (name : String) :
    Except FieldTreeError Unit :=
  if name = "" then .error (.emptyName (tree.fullPath parent))
  else if '.' ∈ name.toList ∨ name = Path.wildcard then .error (.invalidName name)
  else .ok ()

def checkField (tree : FieldTree) (parent : NodeId) (name : String) :
    Except FieldTreeError Unit := do
  tree.checkName parent name
  if !(tree.node? parent).any FieldNode.isObject then
    throw (.notComposite (tree.fullPath parent))
  if (tree.child? parent name).isSome then
    throw (.duplicateField ((tree.fullPath parent).child name))

def attach (tree : FieldTree) (parent : NodeId) (name : String) (shape : NodeShape) :
    FieldTree :=
  (tree.push ⟨name, some parent, shape, ∅⟩).change parent (addChild tree.size)

def attachElement (tree : FieldTree) (array : NodeId) (element : NodeShape) : FieldTree :=
  (tree.push ⟨Path.wildcard, some array, element, ∅⟩).change array fun node =>
    { node with shape := .array tree.size }

/-- The tree with an array field and, directly behind it, its element. The root stands in for
the element until that is there. -/
def attachArray (tree : FieldTree) (parent : NodeId) (name : String) (element : NodeShape) :
    FieldTree :=
  (tree.attach parent name (.array root)).attachElement tree.size element

/-- Makes a tree grow if a field of the name may be added beneath the node, and gives the places
of what is added. -/
def addField {α : Type} (parent : NodeId) (name : String) (grown : FieldTree → FieldTree)
    (places : FieldTree → α) : Attempt FieldTree FieldTreeError α := do
  let tree ← get
  Attempt.ofExcept (tree.checkField parent name)
  set (grown tree)
  return places tree

def addLeaf (parent : NodeId) (name : String) (type : TypeRef) :
    Attempt FieldTree FieldTreeError NodeId :=
  addField parent name (attach · parent name (.leaf type [])) size

def addObject (parent : NodeId) (name : String) :
    Attempt FieldTree FieldTreeError NodeId :=
  addField parent name (attach · parent name (.object [])) size

/-- Adds an array of leaves and gives the array's place. -/
def addArray (parent : NodeId) (name : String) (element : TypeRef) :
    Attempt FieldTree FieldTreeError NodeId :=
  addField parent name (attachArray · parent name (.leaf element [])) size

/-- Adds an array of objects and gives the places of the array and of its element. -/
def addObjectArray (parent : NodeId) (name : String) :
    Attempt FieldTree FieldTreeError (NodeId × NodeId) :=
  addField parent name (attachArray · parent name (.object [])) fun tree =>
    (tree.size, tree.size + 1)

def constrain (constraint : Constraint) (node : FieldNode) : FieldNode :=
  match node.shape with
  | .leaf type constraints =>
      { node with shape := .leaf type (constraints ++ [constraint]) }
  | _ => node

def addConstraint (id : NodeId) (constraint : Constraint) :
    Attempt FieldTree FieldTreeError Unit := do
  let tree ← get
  if !(tree.node? id).any FieldNode.isLeaf then throw (.notSimple (tree.fullPath id))
  set (tree.change id (constrain constraint))

/-- The tree with roles added to those that may perform an operation on a field. -/
def grant (tree : FieldTree) (id : NodeId) (operation : Operation) (roles : List String) :
    FieldTree :=
  tree.change id fun node => { node with access := node.access.grant operation roles }

end FieldTree
end Schemata
