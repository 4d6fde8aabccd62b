import Schemata.FieldTree.Basic

/-!
# Declaration order

Going through a tree in the order of its declaration: a node before its children, and children
in order. Nodes were not necessarily added in this order.
-/
namespace Schemata.FieldTree

/-- Takes nodes from a pending list and puts the children of each in front of the rest, for
at most some number of nodes. -/
def walk (tree : FieldTree) : Nat → List NodeId → List NodeId
  | 0, _ => []
  | _ + 1, [] => []
  | more + 1, id :: pending => id :: tree.walk more (tree.children id ++ pending)

/-- The nodes beneath the root in declaration order. Each node is met once, so the size of the
tree bounds the walk. -/
def declarationOrder (tree : FieldTree) : List NodeId :=
  tree.walk tree.size (tree.children root)

def isRequired (tree : FieldTree) (id : NodeId) : Bool :=
  (tree.node? id).any FieldNode.isRequired

def requiredFields (tree : FieldTree) : List Path :=
  (tree.declarationOrder.filter tree.isRequired).map tree.fullPath

end Schemata.FieldTree
