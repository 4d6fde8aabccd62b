import Schemata.FieldTree.Basic
import Schemata.Projection.Basic
import Schemata.Projector.Basic

/-!
# Compiling projections

Making a projector of a projection at a node of a field tree. Every rule has to name something
in the tree, and a range has to name one array.
-/
namespace Schemata

/-- Why a projection is not read or does not fit a field tree, or why a document is not
projected. -/
inductive ProjectionError where
  | invalidPath (field : Path)
  | ambiguousPath (field : Path)
  | unknownField (field : Path)
  | unknownContext (context : Path)
  | expectedArray (field : Path)
  | invalidRange (field : Path) (first last : UInt64)
  | notAnObject
  | malformed (fault : ShapeFault)

def ProjectionError.message : ProjectionError → String
  | .invalidPath field => "invalid projection path: " ++ field.render
  | .ambiguousPath field =>
      "invalid projection path: " ++ field.render ++ " matches more than one field"
  | .unknownField field => "unknown field: " ++ field.render
  | .unknownContext context =>
      "context node for '" ++ context.render ++ "' is not part of the field tree"
  | .expectedArray field => "expected array field: " ++ field.render
  | .invalidRange field first last =>
      "invalid range [" ++ toString first.toNat ++ ", " ++ toString last.toNat ++
        "] for field " ++ field.render
  | .notAnObject => "malformed projection: document must be a JSON object"
  | .malformed fault => "malformed projection: " ++ fault.message

namespace FieldTree

/-- The nodes one step below a node that a segment of a pattern names. The wildcard names all
children of an object. -/
def stepAll (tree : FieldTree) (segment : String) (id : NodeId) : List NodeId :=
  match (tree.node? id).map FieldNode.shape with
  | some (.object children) =>
      if segment = Path.wildcard then children else (tree.child? id segment).toList
  | some (.array element) => if Path.selectsElement segment then [element] else []
  | _ => []

/-- The nodes beneath some nodes that the segments of a pattern name. -/
def stepsAll (tree : FieldTree) (ids : List NodeId) (segments : List String) : List NodeId :=
  segments.foldl (fun ids segment => ids.flatMap (tree.stepAll segment)) ids

/-- The nodes beneath a context that a pattern names. The context has to be in the tree. -/
def nodesMatching (tree : FieldTree) (context : NodeId) (contextPath pattern : Path) :
    Except ProjectionError (List NodeId) :=
  if tree.contains context then .ok (tree.stepsAll [context] pattern.segments)
  else .error (.unknownContext contextPath)

def isScalarArray (tree : FieldTree) (id : NodeId) : Bool :=
  match tree.element? id with
  | some element => (tree.node? element).any FieldNode.isLeaf
  | none => false

end FieldTree

namespace Projector

/-- The nodes that a rule names. A rule must not name the context itself, and must name
something. -/
def targets (tree : FieldTree) (target contextPath : Path) (context : NodeId) :
    Except ProjectionError (List NodeId) := do
  let absolute := contextPath ++ target
  if target.isRoot then throw (.invalidPath absolute)
  let ids ← tree.nodesMatching context contextPath target
  if ids.isEmpty then throw (.unknownField absolute)
  return ids

def compileField (tree : FieldTree) (target : Path) (included recursive : Bool)
    (contextPath : Path) (context : NodeId) : Except ProjectionError Projector := do
  let ids ← targets tree target contextPath context
  return .field (contextPath ++ target) included (recursive || ids.all tree.isScalarArray)

def rangeElement (tree : FieldTree) (target contextPath : Path) (context : NodeId) :
    Except ProjectionError NodeId := do
  match ← targets tree target contextPath context with
  | [id] => (tree.element? id).elim (.error (.expectedArray (contextPath ++ target))) .ok
  | _ => throw (.ambiguousPath (contextPath ++ target))

def checkBounds (target : Path) (first last : UInt64) : Except ProjectionError Unit :=
  if last < first then .error (.invalidRange target first last) else .ok ()

mutual

/-- Compiles a projection at a node whose absolute path is given. -/
def compile (tree : FieldTree) : Projection → Path → NodeId → Except ProjectionError Projector
  | .field target included recursive, contextPath, context =>
      compileField tree target included recursive contextPath context
  | .range target included first last none, contextPath, context => do
      let _ ← rangeElement tree target contextPath context
      checkBounds (contextPath ++ target) first last
      return .range (contextPath ++ target) included first last none
  | .range target included first last (some project), contextPath, context => do
      let element ← rangeElement tree target contextPath context
      checkBounds (contextPath ++ target) first last
      let nested ← compile tree project ((contextPath ++ target).child Path.wildcard) element
      return .range (contextPath ++ target) included first last (some nested)
  | .list rules, contextPath, context =>
      Projector.list <$> compileAll tree rules contextPath context

/-- Compiles some projections at one node, up to the first that does not fit. -/
def compileAll (tree : FieldTree) :
    List Projection → Path → NodeId → Except ProjectionError (List Projector)
  | [], _, _ => .ok []
  | rule :: rest, contextPath, context => do
      let item ← compile tree rule contextPath context
      return item :: (← compileAll tree rest contextPath context)

end

end Projector
end Schemata
