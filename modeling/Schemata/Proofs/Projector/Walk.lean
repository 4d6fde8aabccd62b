import Schemata.Proofs.Projector.Inclusion
import Schemata.Proofs.Projector.UnknownMembers

/-!
# Parts of the walk

What the walk shows of the members of an object of which it shows one only, of the items of an array
of which it shows those between two indexes, and of values beneath which one decision holds.
-/
namespace Schemata.Projector

open Json (Step Place)

variable {tree : FieldTree} {scope : Projector} {path : Path}

private theorem showMembers_eq_nil
    {members : Members}
    (hidden :
      ∀ name value, (name, value) ∈ members →
        (tree.resolve? (path.child name)).isSome = true →
          showValue tree value scope (path.child name) = none) :
    showMembers tree members scope path = [] := by
  induction members with
  | nil => rfl
  | cons member rest hypothesis =>
      obtain ⟨name, value⟩ := member
      have restHidden := hypothesis fun other part later =>
        hidden other part (List.mem_cons_of_mem _ later)
      rw [showMembers, restHidden]
      cases found : tree.resolve? (path.child name) with
      | none => rfl
      | some id =>
          have resolves : (tree.resolve? (path.child name)).isSome = true := by
            rw [found]
            rfl
          rw [hidden name value List.mem_cons_self resolves]
          rfl

/-- If an object has a member that is shown, and none of those with other names is, then that member
is all that is shown. -/
theorem showMembers_eq_singleton
    {members : Members} (apart : (members.map Prod.fst).Nodup) {name : String} {value shown : Json}
    (found : (name, value) ∈ members) (resolves : (tree.resolve? (path.child name)).isSome = true)
    (shows : showValue tree value scope (path.child name) = some shown)
    (hidden :
      ∀ other part, other ≠ name → (tree.resolve? (path.child other)).isSome = true →
        showValue tree part scope (path.child other) = none) :
    showMembers tree members scope path = [(name, shown)] := by
  induction members with
  | nil => cases found
  | cons member rest hypothesis =>
      obtain ⟨first, part⟩ := member
      rw [List.map_cons, List.nodup_cons] at apart
      rw [showMembers]
      rcases List.mem_cons.1 found with same | later
      · obtain ⟨rfl, rfl⟩ := Prod.mk.inj same
        have restHidden : showMembers tree rest scope path = [] := by
          refine showMembers_eq_nil fun other hiddenPart listed => hidden other hiddenPart ?_
          rintro rfl
          exact apart.1 (List.mem_map.2 ⟨_, listed, rfl⟩)
        obtain ⟨id, resolved⟩ := Option.isSome_iff_exists.1 resolves
        rw [resolved, restHidden, shows]
        rfl
      · have other : first ≠ name := by
          rintro rfl
          exact apart.1 (List.mem_map.2 ⟨_, later, rfl⟩)
        rw [hypothesis apart.2 later]
        cases firstFound : tree.resolve? (path.child first) with
        | none => rfl
        | some id =>
            have firstResolves : (tree.resolve? (path.child first)).isSome = true := by
              rw [firstFound]
              rfl
            rw [hidden first part other firstResolves]
            rfl

theorem showItems_drop
    {start low : Nat} (before : start ≤ low)
    (hidden :
      ∀ index item, index < low → showValue tree item scope (path.child index.repr) = none)
    (items : List Json) :
    showItems tree items start scope path =
      showItems tree (items.drop (low - start)) low scope path := by
  induction items generalizing start with
  | nil => rw [List.drop_nil, showItems, showItems]
  | cons item rest hypothesis =>
      rcases Nat.eq_or_lt_of_le before with rfl | earlier
      · rw [Nat.sub_self, List.drop_zero]
      · obtain ⟨between, distance⟩ : ∃ between, low - start = between + 1 :=
          ⟨low - (start + 1), by omega⟩
        have restSame := hypothesis (Nat.succ_le_of_lt earlier)
        rw [showItems, hidden start item earlier, restSame, distance, List.drop_succ_cons]
        rw [show low - (start + 1) = between by omega]

theorem showItems_take
    (high : Nat)
    (hidden :
      ∀ index item, high ≤ index → showValue tree item scope (path.child index.repr) = none)
    (items : List Json) (start : Nat) :
    showItems tree items start scope path =
      showItems tree (items.take (high - start)) start scope path := by
  induction items generalizing start with
  | nil => rw [List.take_nil]
  | cons item rest hypothesis =>
      rw [showItems, hypothesis (start + 1)]
      rcases Nat.lt_or_ge start high with within | beyond
      · obtain ⟨between, distance⟩ : ∃ between, high - start = between + 1 :=
          ⟨high - (start + 1), by omega⟩
        rw [distance, List.take_succ_cons, showItems]
        rw [show high - (start + 1) = between by omega]
      · rw [hidden start item beyond, Nat.sub_eq_zero_of_le beyond,
          Nat.sub_eq_zero_of_le (Nat.le_succ_of_le beyond), List.take_zero, List.take_zero,
          showItems, showItems]

theorem showItems_eq_mapIdx
    {items : List Json} {start : Nat} {shown : Nat → Json → Json}
    (shows :
      ∀ offset item, items[offset]? = some item →
        showValue tree item scope (path.child (Nat.repr (start + offset))) =
          some (shown offset item)) :
    showItems tree items start scope path = items.mapIdx shown := by
  induction items generalizing start shown with
  | nil => rfl
  | cons item rest hypothesis =>
      have here := shows 0 item rfl
      rw [Nat.add_zero] at here
      have later :
          ∀ offset other, rest[offset]? = some other →
            showValue tree other scope (path.child (Nat.repr (start + 1 + offset))) =
              some (shown (offset + 1) other) := by
        intro offset other listed
        rw [Nat.add_assoc, Nat.add_comm 1]
        exact shows (offset + 1) other listed
      rw [showItems, here, hypothesis later, List.mapIdx_cons]

/-- A projector decides one and the same about a path and all paths beneath it, and hands on at none
of them. -/
def DecidesAll (scope : Projector) (path : Path) (decision : Decision) : Prop :=
  ∀ below : Path, path.segments <+: below.segments →
    (scope.project below).decision = decision ∧ (scope.project below).nested = none

theorem decidesAll_child
    {segment : String} {decision : Decision}
    (all :
      ∀ more, (scope.project ⟨path.segments ++ segment :: more⟩).decision = decision ∧
        (scope.project ⟨path.segments ++ segment :: more⟩).nested = none) :
    scope.DecidesAll (path.child segment) decision := by
  rintro ⟨_⟩ ⟨more, rfl⟩
  rw [Path.child, List.append_assoc, List.singleton_append]
  exact all more

theorem DecidesAll.child
    {decision : Decision} (all : scope.DecidesAll path decision) (segment : String) :
    scope.DecidesAll (path.child segment) decision :=
  fun below reached => all below ((List.prefix_append _ _).trans reached)

mutual

/-- Where something is included, nothing is shown beneath a path about which nothing is decided. -/
theorem showValue_eq_none_of_decidesAll (inclusion : scope.hasInclusion = true) :
    ∀ (value : Json) {path : Path}, scope.DecidesAll path .undecided →
      showValue tree value scope path = none
  | .object members, path, all => by
      obtain ⟨undecided, none⟩ := all path List.prefix_rfl
      have nothing := showMembers_eq_nil_of_decidesAll inclusion members all
      rw [showValue, undecided, none]
      simp [nothing, inclusion]
  | .array items, path, all => by
      obtain ⟨undecided, none⟩ := all path List.prefix_rfl
      have nothing := showItems_eq_nil_of_decidesAll inclusion items 0 all
      rw [showValue, undecided, none]
      simp [nothing, inclusion]
  | .null, path, all | .bool _, path, all | .number _, path, all | .string _, path, all => by
      rw [showValue_scalar rfl, (all path List.prefix_rfl).1]
      exact if_pos inclusion

theorem showMembers_eq_nil_of_decidesAll (inclusion : scope.hasInclusion = true) :
    ∀ (members : Members) {path : Path}, scope.DecidesAll path .undecided →
      showMembers tree members scope path = []
  | [], _, _ => rfl
  | (name, value) :: rest, path, all => by
      rw [showMembers, showMembers_eq_nil_of_decidesAll inclusion rest all,
        showValue_eq_none_of_decidesAll inclusion value (all.child name)]
      split <;> rfl

theorem showItems_eq_nil_of_decidesAll (inclusion : scope.hasInclusion = true) :
    ∀ (items : List Json) (index : Nat) {path : Path}, scope.DecidesAll path .undecided →
      showItems tree items index scope path = []
  | [], _, _, _ => rfl
  | item :: rest, index, path, all => by
      rw [showItems, showItems_eq_nil_of_decidesAll inclusion rest (index + 1) all,
        showValue_eq_none_of_decidesAll inclusion item (all.child index.repr)]

end

mutual

/-- Of a value included with all beneath it everything is shown that the tree knows. -/
theorem showValue_eq_keep_known :
    ∀ (value : Json) {place : Place}, scope.DecidesAll (Place.path place) .included →
      showValue tree value scope (Place.path place) = some (value.keep (Known tree) place)
  | .object members, place, all => by
      obtain ⟨included, none⟩ := all _ List.prefix_rfl
      rw [showValue, included, none, Json.keep]
      exact congrArg (some ∘ Json.object) (showMembers_eq_keep_known members all)
  | .array items, place, all => by
      obtain ⟨included, none⟩ := all _ List.prefix_rfl
      rw [showValue, included, none, Json.keep]
      exact congrArg (some ∘ Json.array) (showItems_eq_keep_known items 0 all)
  | .null, place, all | .bool _, place, all | .number _, place, all | .string _, place, all => by
      rw [showValue_scalar rfl, (all _ List.prefix_rfl).1, Json.keep_scalar _ rfl]

theorem showMembers_eq_keep_known :
    ∀ (members : Members) {place : Place}, scope.DecidesAll (Place.path place) .included →
      showMembers tree members scope (Place.path place) =
        Json.keepMembers (Known tree) members place
  | [], _, _ => by
      rw [showMembers, Json.keepMembers]
  | (name, value) :: rest, place, all => by
      have allBeneath := all.child name
      have beneath : (Place.path place).child name = Place.path (place ++ [.member name]) :=
        (Place.path_concat place (.member name)).symm
      rw [beneath] at allBeneath
      rw [showMembers, Json.keepMembers, showMembers_eq_keep_known rest all, beneath,
        showValue_eq_keep_known value allBeneath]
      by_cases known : Known tree (place ++ [.member name]) value
      · rw [if_pos known, if_neg]
        have resolves := (knownMember_member_iff tree place name).1 known
        rw [Option.isNone_iff_eq_none, ← ne_eq, Option.ne_none_iff_isSome]
        exact resolves
      · rw [if_neg known, resolve?_of_not_knownMember known]
        rfl

theorem showItems_eq_keep_known :
    ∀ (items : List Json) (index : Nat) {place : Place},
      scope.DecidesAll (Place.path place) .included →
        showItems tree items index scope (Place.path place) =
          Json.keepItems (Known tree) items index place
  | [], _, _, _ => by
      rw [showItems, Json.keepItems]
  | item :: rest, index, place, all => by
      have allBeneath := all.child index.repr
      have beneath : (Place.path place).child index.repr = Place.path (place ++ [.item index]) :=
        (Place.path_concat place (.item index)).symm
      rw [beneath] at allBeneath
      rw [showItems, keepItems_known_cons, showItems_eq_keep_known rest (index + 1) all, beneath,
        showValue_eq_keep_known item allBeneath]

end

end Schemata.Projector
