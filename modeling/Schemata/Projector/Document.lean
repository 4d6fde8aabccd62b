import Schemata.Projector.Compile

/-!
# Projecting documents

The part of a document that a projector shows. Members unknown to the field tree are never
shown. What no rule decides is shown only where the projector in force includes nothing; an
object or array that no rule decides is shown also if something beneath it is.
-/
namespace Schemata.Projector

mutual

/-- The part of a value at a path that is shown, if any is. -/
def showValue (tree : FieldTree) : Json → Projector → Path → Option Json
  | .object members, scope, path =>
      let answer := scope.project path
      let inner := answer.nested.getD scope
      match answer.decision with
      | .excluded => none
      | .included => some (.object (showMembers tree members inner path))
      | .undecided =>
          let shown := showMembers tree members inner path
          if !shown.isEmpty || (members.isEmpty && !inner.hasInclusion) then
            some (.object shown)
          else none
  | .array items, scope, path =>
      let answer := scope.project path
      let inner := answer.nested.getD scope
      match answer.decision with
      | .excluded => none
      | .included => some (.array (showItems tree items 0 inner path))
      | .undecided =>
          let shown := showItems tree items 0 inner path
          if !shown.isEmpty || (items.isEmpty && !inner.hasInclusion) then
            some (.array shown)
          else none
  | leaf, scope, path =>
      match (scope.project path).decision with
      | .excluded => none
      | .included => some leaf
      | .undecided => if scope.hasInclusion then none else some leaf

def showMembers (tree : FieldTree) : List (String × Json) → Projector → Path → Members
  | [], _, _ => []
  | (name, value) :: rest, scope, path =>
      let shown := showMembers tree rest scope path
      if (tree.resolve? (path.child name)).isNone then shown
      else
        match showValue tree value scope (path.child name) with
        | none => shown
        | some part => (name, part) :: shown

/-- The items of an array at a path that are shown, the first of which has a given index. -/
def showItems (tree : FieldTree) : List Json → Nat → Projector → Path → List Json
  | [], _, _, _ => []
  | item :: rest, index, scope, path =>
      let shown := showItems tree rest (index + 1) scope path
      match showValue tree item scope (path.child index.repr) with
      | none => shown
      | some part => part :: shown

end

/-- The part of a document that is shown. Only objects are documents. -/
def projectDocument (projector : Projector) (tree : FieldTree) :
    Json → Except ProjectionError Json
  | .object members => .ok (.object (showMembers tree members projector .root))
  | _ => .error .notAnObject

end Schemata.Projector
