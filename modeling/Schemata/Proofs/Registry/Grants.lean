import Schemata.Proofs.FieldTree.Paths
import Schemata.Proofs.Registry.Independence
import Schemata.Proofs.Registry.PublishedVersion
import Schemata.Proofs.Registry.Roles

/-!
# What granted paths stand for

The roles of a registry name what is granted by a text: an entity by its name, and a field by the name
of the entity and the path of the field with a dot between them. The names of fields have no dots, and
so the text tells the field as long as it is known where the name of the entity ends. An entity's name
may have dots, and then it may be the text of a field of another entity.
-/
namespace Schemata

def dotted (names : List String) : List Char :=
  names.flatMap fun name => '.' :: name.toList

private theorem dotted_append (front back : List String) :
    dotted (front ++ back) = dotted front ++ dotted back :=
  List.flatMap_append

private theorem dotted_concat (names : List String) (last : String) :
    dotted (names ++ [last]) = dotted names ++ '.' :: last.toList := by
  simp [dotted]

private theorem toList_render_of_ne_nil {path : Path} (notRoot : path.segments ≠ []) :
    '.' :: path.render.toList = dotted path.segments := by
  obtain ⟨segments⟩ := path
  induction segments with
  | nil => exact (notRoot rfl).elim
  | cons first rest hypothesis =>
      cases rest with
      | nil => simp [dotted, Path.render]
      | cons second more =>
          have later := hypothesis (by simp)
          simp only [dotted, Path.render, List.flatMap_cons] at later ⊢
          simp [← later]

/-- Where two texts are the same, their last dots stand at the same place. -/
theorem eq_of_append_dot_eq
    {left right last other : List Char} (noDot : '.' ∉ last) (otherNoDot : '.' ∉ other)
    (same : left ++ '.' :: last = right ++ '.' :: other) :
    left = right ∧ last = other := by
  rcases List.append_eq_append_iff.1 same with ⟨between, sameRight, rest⟩ | ⟨between, sameLeft, rest⟩
  · cases between with
    | nil => simp_all
    | cons first more => simp_all
  · cases between with
    | nil => simp_all
    | cons first more => simp_all

/-- If two texts with names behind them are the same, then the one text is the other with the first
names of the other, and behind them stand the same names. -/
theorem eq_append_of_dotted_eq
    {left right : List Char} {names others : List String}
    (noDots : ∀ name ∈ names, '.' ∉ name.toList)
    (othersNoDots : ∀ name ∈ others, '.' ∉ name.toList)
    (same : left ++ dotted names = right ++ dotted others) :
    (∃ front, names = front ++ others ∧ right = left ++ dotted front) ∨
      ∃ front, others = front ++ names ∧ left = right ++ dotted front := by
  induction names using List.reverseRecOn generalizing others with
  | nil => exact Or.inr ⟨others, by simp, by simpa [dotted] using same⟩
  | append_singleton names last hypothesis =>
      rcases others.eq_nil_or_concat' with rfl | ⟨others, other, rfl⟩
      · exact Or.inl ⟨names ++ [last], by simp, by simpa [dotted] using same.symm⟩
      · rw [dotted_concat, dotted_concat, ← List.append_assoc, ← List.append_assoc] at same
        obtain ⟨sameFront, sameLast⟩ :=
          eq_of_append_dot_eq (noDots last (by simp)) (othersNoDots other (by simp)) same
        have isSame : last = other := String.toList_injective sameLast
        subst isSame
        have earlier := hypothesis
          (fun name listed => noDots name (List.mem_append_left _ listed))
          (fun name listed => othersNoDots name (List.mem_append_left _ listed)) sameFront
        rcases earlier with ⟨front, rfl, sameText⟩ | ⟨front, rfl, sameText⟩
        · exact Or.inl ⟨front, by simp, sameText⟩
        · exact Or.inr ⟨front, by simp, sameText⟩

/-! ## Granted things -/

/-- What a grant is for: an entity, or one of its fields. The root stands for the entity itself. -/
structure Granted where
  entity : String
  field : Path
deriving DecidableEq

namespace Granted

/-- How role maps name what is granted. -/
def text (granted : Granted) : String :=
  if granted.field.isRoot then granted.entity
  else EntitySchema.grantPath granted.entity granted.field

/-- No name on the way to the field has a dot. -/
def IsPlain (granted : Granted) : Prop :=
  ∀ segment ∈ granted.field.segments, '.' ∉ segment.toList

/-- The other thing's entity bears the name of the first one's entity followed by the first names on
the way to the field, and the names that are left lead to the other field. -/
def Overlaps (granted other : Granted) : Prop :=
  ∃ front back, front ≠ [] ∧ granted.field = ⟨front ++ back⟩ ∧
    other = ⟨EntitySchema.grantPath granted.entity ⟨front⟩, ⟨back⟩⟩

private theorem toList_text (granted : Granted) :
    granted.text.toList = granted.entity.toList ++ dotted granted.field.segments := by
  obtain ⟨entity, ⟨segments⟩⟩ := granted
  unfold text
  cases segments with
  | nil => simp [Path.isRoot, dotted]
  | cons first rest =>
      rw [if_neg (by simp [Path.isRoot]), ← toList_render_of_ne_nil (by simp)]
      simp [EntitySchema.grantPath]

private theorem toList_grantPath (entity : String) {segments : List String}
    (notRoot : segments ≠ []) :
    (EntitySchema.grantPath entity ⟨segments⟩).toList = entity.toList ++ dotted segments := by
  have whole := toList_text ⟨entity, ⟨segments⟩⟩
  rwa [text, if_neg (by simpa [Path.isRoot] using notRoot)] at whole

theorem Overlaps.text_eq {granted other : Granted} (overlaps : granted.Overlaps other) :
    granted.text = other.text := by
  obtain ⟨front, back, notRoot, isField, rfl⟩ := overlaps
  apply String.toList_injective
  rw [toList_text, toList_text, toList_grantPath granted.entity notRoot, isField, dotted_append,
    List.append_assoc]

theorem Overlaps.entity_eq {granted other : Granted} (overlaps : granted.Overlaps other) :
    ∃ more, other.entity.toList = granted.entity.toList ++ '.' :: more := by
  obtain ⟨front, back, notRoot, _, rfl⟩ := overlaps
  rw [toList_grantPath granted.entity notRoot]
  cases front with
  | nil => exact (notRoot rfl).elim
  | cons first rest => exact ⟨first.toList ++ dotted rest, by simp [dotted]⟩

theorem Overlaps.dot_mem {granted other : Granted} (overlaps : granted.Overlaps other) :
    '.' ∈ other.entity.toList := by
  obtain ⟨more, longer⟩ := overlaps.entity_eq
  simp [longer]

theorem Overlaps.entity_ne {granted other : Granted} (overlaps : granted.Overlaps other) :
    granted.entity ≠ other.entity := by
  intro same
  obtain ⟨more, longer⟩ := overlaps.entity_eq
  simp [same] at longer

private theorem eq_or_overlaps_of_dotted
    {granted other : Granted} {front : List String}
    (isField : granted.field.segments = front ++ other.field.segments)
    (isEntity : other.entity.toList = granted.entity.toList ++ dotted front) :
    granted = other ∨ granted.Overlaps other := by
  obtain ⟨entity, ⟨segments⟩⟩ := granted
  obtain ⟨otherEntity, ⟨back⟩⟩ := other
  subst isField
  cases front with
  | nil =>
      have sameEntity : otherEntity = entity :=
        String.toList_injective (by simpa [dotted] using isEntity)
      exact Or.inl (by rw [sameEntity, List.nil_append])
  | cons first rest =>
      have isGrantPath : otherEntity = EntitySchema.grantPath entity ⟨first :: rest⟩ :=
        String.toList_injective (by rw [isEntity, toList_grantPath entity (by simp)])
      exact Or.inr ⟨first :: rest, back, by simp, rfl, by rw [isGrantPath]⟩

/-- Different things bear the same text only if the name of one's entity is the way to a field of
the other's. -/
theorem text_eq_iff
    {granted other : Granted} (plain : granted.IsPlain) (otherPlain : other.IsPlain) :
    granted.text = other.text ↔
      granted = other ∨ granted.Overlaps other ∨ other.Overlaps granted := by
  constructor
  · intro same
    have dottedSame := congrArg String.toList same
    rw [toList_text, toList_text] at dottedSame
    have split := eq_append_of_dotted_eq plain otherPlain dottedSame
    rcases split with ⟨front, isField, isEntity⟩ | ⟨front, isField, isEntity⟩
    · exact (eq_or_overlaps_of_dotted isField isEntity).imp_right Or.inl
    · exact (eq_or_overlaps_of_dotted isField isEntity).imp Eq.symm Or.inr
  · rintro (rfl | overlaps | overlaps)
    · rfl
    · exact overlaps.text_eq
    · exact overlaps.text_eq.symm

end Granted

namespace EntitySchema

variable {schema : EntitySchema} {role : String} {operation : Operation} {field : Path}

/-- A schema grants an operation to a role, on its entity or on the field with a path. -/
def Grants (schema : EntitySchema) (role : String) (operation : Operation) (field : Path) : Prop :=
  (field = Path.root ∧ 0 < schema.access.times role operation) ∨
    ∃ id ∈ schema.fields.fields,
      schema.fields.fullPath id = field ∧ 0 < schema.fields.times id role operation

theorem Grants.isPlain
    (wellFormed : schema.fields.WellFormed) (grants : schema.Grants role operation field)
    (entity : String) :
    Granted.IsPlain ⟨entity, field⟩ := by
  rcases grants with ⟨rfl, _⟩ | ⟨id, _, rfl, _⟩
  · intro segment listed
    cases listed
  · intro segment listed
    exact (wellFormed.plain_fullPath id segment listed).2

/-- The granted paths of a schema are the texts of what it grants. -/
theorem mem_grantedPaths_iff
    (wellFormed : schema.fields.WellFormed) {entity path : String} :
    path ∈ schema.grantedPaths entity role operation ↔
      ∃ field, schema.Grants role operation field ∧ Granted.text ⟨entity, field⟩ = path := by
  simp only [grantedPaths, List.mem_append, List.mem_flatMap, List.mem_replicate,
    ← Nat.pos_iff_ne_zero]
  constructor
  · rintro (⟨granted, rfl⟩ | ⟨id, listed, granted, rfl⟩)
    · exact ⟨Path.root, Or.inl ⟨rfl, granted⟩, rfl⟩
    · have notRoot := wellFormed.not_isRoot_fullPath listed
      exact ⟨_, Or.inr ⟨id, listed, rfl, granted⟩, by simp [Granted.text, notRoot, grantPath]⟩
  · rintro ⟨field, ⟨rfl, granted⟩ | ⟨id, listed, rfl, granted⟩, rfl⟩
    · exact Or.inl ⟨granted, rfl⟩
    · have notRoot := wellFormed.not_isRoot_fullPath listed
      exact Or.inr ⟨id, listed, granted, by simp [Granted.text, notRoot, grantPath]⟩

end EntitySchema

namespace Registry

open Attempt

variable {registry later : Registry} {session : Session} {action : Action}
  {holds : FieldTree → Prop}

def Action.submitted? : Action → Option EntityMetadata
  | .validate submitted => some submitted
  | .register submitted => some submitted
  | _ => none

/-- Something holds of the fields of all schemas that a session has registered or holds back. -/
structure Session.EachTree (holds : FieldTree → Prop) (session : Session) : Prop where
  registered :
    ∀ name version schema,
      session.registry.schema? name version = some schema → holds schema.fields
  heldBack : ∀ validated ∈ session.validated, holds validated.metadata.schema.fields

theorem Session.eachTree_start
    (holds : FieldTree → Prop) (config : Config) (judge : DataStoreJudge) :
    EachTree holds (start config judge) where
  registered name version schema known := by cases known
  heldBack validated held := by cases held

/-- What is published has been held back, or the operation brings it. -/
theorem Session.fields_of_published
    {submitted : EntityMetadata} {schema : EntitySchema}
    (each : EachTree holds session)
    (brought : ∀ submitted, action.submitted? = some submitted → holds submitted.schema.fields)
    (happened : session.event? action = some (.published submitted schema)) :
    holds submitted.schema.fields := by
  cases action with
  | publish slot =>
      obtain ⟨validated, held, answered⟩ := Option.bind_eq_some_iff.1 happened
      obtain ⟨_, _, same⟩ := Option.bind_eq_some_iff.1 answered
      cases same
      exact each.heldBack validated (List.mem_of_getElem? held)
  | register other =>
      obtain ⟨_, _, same⟩ := Option.map_eq_some_iff.1 happened
      cases same
      exact brought submitted rfl
  | validate other => cases happened
  | _ =>
      obtain ⟨_, _, other⟩ := Option.map_eq_some_iff.1 happened
      cases other

theorem Transition.published_fields
    {submitted : EntityMetadata} {schema : EntitySchema}
    (transition : Transition registry (some (.published submitted schema)) later) :
    schema.fields = submitted.schema.fields := by
  cases transition with
  | publish _ _ _ _ published => rw [published]

/-- No event changes the fields of a schema that was registered before. -/
theorem fields_of_registered
    {event : Event} {name version : String} {before : Option EntitySchema} {schema : EntitySchema}
    (known : event.registered name version before = some schema) :
    (∃ earlier, before = some earlier ∧ schema.fields = earlier.fields) ∨
      ∃ submitted, event = .published submitted schema := by
  cases event with
  | published submitted published =>
      rw [Event.registered] at known
      split at known
      · cases known
        exact Or.inr ⟨submitted, rfl⟩
      · exact Or.inl ⟨schema, known, rfl⟩
  | chosen other number => exact Or.inl ⟨schema, known, rfl⟩
  | retired other number =>
      rw [Event.registered] at known
      split at known
      · obtain ⟨earlier, there, rfl⟩ := Option.map_eq_some_iff.1 known
        exact Or.inl ⟨earlier, there, rfl⟩
      · exact Or.inl ⟨schema, known, rfl⟩
  | removed other number =>
      rw [Event.registered] at known
      split at known
      · cases known
      · exact Or.inl ⟨schema, known, rfl⟩

theorem Session.EachTree.step
    (each : EachTree holds session) (vetted : session.Vetted)
    (brought : ∀ submitted, action.submitted? = some submitted → holds submitted.schema.fields) :
    EachTree holds (session.step action) where
  registered name version schema known := by
    have happened := transition vetted action
    cases event : session.event? action with
    | none =>
        rw [event] at happened
        generalize (session.step action).registry = later at happened known
        cases happened
        exact each.registered name version schema known
    | some event =>
        rw [event] at happened
        rw [happened.schema?_eq] at known
        rcases fields_of_registered known with ⟨earlier, before, sameFields⟩ | ⟨submitted, rfl⟩
        · rw [sameFields]
          exact each.registered name version earlier before
        · rw [happened.published_fields]
          exact fields_of_published each brought event
  heldBack validated held := by
    rw [step_validated] at held
    rcases List.mem_append.1 held with before | added
    · exact each.heldBack validated before
    · obtain ⟨submitted, rfl, passed⟩ := validate_of_mem_accepts added
      rw [(acceptable_of_validate passed).2]
      exact brought submitted rfl

theorem Session.EachTree.run
    (each : EachTree holds session) (vetted : session.Vetted) {actions : List Action}
    (brought :
      ∀ action ∈ actions, ∀ submitted,
        action.submitted? = some submitted → holds submitted.schema.fields) :
    EachTree holds (session.run actions) := by
  induction actions generalizing session with
  | nil => exact each
  | cons action rest hypothesis =>
      exact hypothesis (each.step vetted (brought action List.mem_cons_self))
        (vetted.step action) fun later listed => brought later (List.mem_cons_of_mem _ listed)

/-! ## Grants of a registry -/

/-- A version of an entity that is not retired grants an operation to a role. -/
def Grants
    (registry : Registry) (role : String) (operation : Operation) (granted : Granted) : Prop :=
  ∃ version schema,
    registry.schema? granted.entity version = some schema ∧ schema.status ≠ .retired ∧
      schema.Grants role operation granted.field

/-- A role may do something with an entity or a field. -/
def IsGranted (registry : Registry) (granted : Granted) : Prop :=
  ∃ role operation, registry.Grants role operation granted

theorem IsGranted.isPlain
    {granted : Granted} (wellFormed : session.EachTree FieldTree.WellFormed)
    (isGranted : session.registry.IsGranted granted) :
    granted.IsPlain := by
  obtain ⟨role, operation, version, schema, known, _, grants⟩ := isGranted
  exact grants.isPlain (wellFormed.registered _ _ _ known) granted.entity

private theorem mem_names_iff {name : String} :
    name ∈ registry.names ↔ ∃ record, registry.entities.find? name = some record := by
  rw [names, SortedMap.mem_keys_iff, SortedMap.contains, Option.isSome_iff_exists]

theorem Grants.mem_names
    {role : String} {operation : Operation} {granted : Granted}
    (grants : registry.Grants role operation granted) :
    granted.entity ∈ registry.names := by
  obtain ⟨version, schema, known, _⟩ := grants
  obtain ⟨record, found, _⟩ := Option.bind_eq_some_iff.1 known
  exact mem_names_iff.2 ⟨record, found⟩

/-- The path is declared in the submission of an entity that was published last. -/
def Declares
    (registry : Registry) (history : List Event) (role : String) (operation : Operation)
    (path : String) : Prop :=
  ∃ name ∈ registry.names, ∃ submitted,
    lastSubmission? history name = some submitted ∧
      path ∈ submitted.info.roles.paths role operation

private theorem mem_livePaths_iff
    {name : String} {record : EntityRecord} {role : String} {operation : Operation} {path : String}
    (wellFormed : session.EachTree FieldTree.WellFormed)
    (found : session.registry.entities.find? name = some record) :
    (path ∈ (record.versions.values.filter fun schema => schema.status ≠ .retired).flatMap
        fun schema => schema.grantedPaths name role operation) ↔
      ∃ field,
        session.registry.Grants role operation ⟨name, field⟩ ∧
          Granted.text ⟨name, field⟩ = path := by
  simp only [List.mem_flatMap, List.mem_filter, SortedMap.mem_values_iff, decide_eq_true_eq]
  constructor
  · rintro ⟨schema, ⟨⟨version, listed⟩, live⟩, granted⟩
    have known := (schema?_of_record found).trans listed
    have trees := wellFormed.registered name version schema known
    obtain ⟨field, grants, isText⟩ := (EntitySchema.mem_grantedPaths_iff trees).1 granted
    exact ⟨field, ⟨version, schema, known, live, grants⟩, isText⟩
  · rintro ⟨field, ⟨version, schema, known, live, grants⟩, isText⟩
    have listed := (schema?_of_record found).symm.trans known
    have trees := wellFormed.registered name version schema known
    exact ⟨schema, ⟨⟨version, listed⟩, live⟩,
      (EntitySchema.mem_grantedPaths_iff trees).2 ⟨field, grants, isText⟩⟩

private theorem mem_mappedRoles_iff
    {history : List Event} {role : String} {operation : Operation} {path : String}
    (wellFormed : session.EachTree FieldTree.WellFormed)
    (current : EachRecord (CurrentRoles history) session.registry) :
    path ∈ session.registry.mappedRoles.paths role operation ↔
      session.registry.Declares history role operation path ∨
        ∃ granted, session.registry.Grants role operation granted ∧ granted.text = path := by
  have ofRecord {name : String} {record : EntityRecord}
      (found : session.registry.entities.find? name = some record) :
      path ∈ record.info.roles.paths role operation ↔
        path ∈ record.declaredRoles.paths role operation ∨
          ∃ field,
            session.registry.Grants role operation ⟨name, field⟩ ∧
              Granted.text ⟨name, field⟩ = path := by
    have sound := current name record found
    rw [sound.shown, paths_liveRoles, sound.underName, List.mem_append,
      mem_livePaths_iff wellFormed found]
  simp only [paths_mappedRoles, List.mem_flatMap, SortedMap.mem_values_iff]
  constructor
  · rintro ⟨record, ⟨name, found⟩, listed⟩
    rcases (ofRecord found).1 listed with declared | ⟨field, grants, isText⟩
    · obtain ⟨submitted, last, same⟩ := (current name record found).declared
      exact Or.inl ⟨name, mem_names_iff.2 ⟨record, found⟩, submitted, last, same ▸ declared⟩
    · exact Or.inr ⟨⟨name, field⟩, grants, isText⟩
  · rintro (⟨name, known, submitted, last, declared⟩ | ⟨⟨name, field⟩, grants, isText⟩)
    · obtain ⟨record, found⟩ := mem_names_iff.1 known
      obtain ⟨other, otherLast, same⟩ := (current name record found).declared
      cases last.symm.trans otherLast
      exact ⟨record, ⟨name, found⟩, (ofRecord found).2 (Or.inl (same ▸ declared))⟩
    · obtain ⟨record, found⟩ := mem_names_iff.1 grants.mem_names
      exact ⟨record, ⟨name, found⟩, (ofRecord found).2 (Or.inr ⟨field, grants, isText⟩)⟩

/-- Whatever operations have led to a registry, its roles have the paths that the last submissions of
its entities declare, and the texts of what the versions grant. Two things that are granted have the
same text only if they are the same thing, or if one's entity bears the name of the other's with a
dot and the way to a field behind it. That is never so within one entity, and nowhere if no name of
an entity has a dot. -/
theorem granted_texts_throughout
    (config : Config) (judge : DataStoreJudge) (actions : List Action)
    (built :
      ∀ action ∈ actions, ∀ submitted, action.submitted? = some submitted →
        ∃ growths, submitted.schema.fields = FieldTree.empty.growAll growths) :
    let session := Session.start config judge
    let registry := (session.run actions).registry
    (∀ role operation path,
      path ∈ registry.mappedRoles.paths role operation ↔
        registry.Declares (session.events actions) role operation path ∨
          ∃ granted, registry.Grants role operation granted ∧ granted.text = path) ∧
      ∀ granted other, registry.IsGranted granted → registry.IsGranted other →
        (granted.text = other.text ↔
            granted = other ∨ granted.Overlaps other ∨ other.Overlaps granted) ∧
          (granted.text = other.text → granted.entity = other.entity → granted = other) ∧
          (granted.text = other.text → (∀ name ∈ registry.names, '.' ∉ name.toList) →
            granted = other) := by
  intro session registry
  have vetted : session.Vetted := Session.vetted_start config judge
  have wellFormed : (session.run actions).EachTree FieldTree.WellFormed := by
    apply (Session.eachTree_start FieldTree.WellFormed config judge).run vetted
    intro action listed submitted brings
    obtain ⟨growths, isBuilt⟩ := built action listed submitted brings
    rw [isBuilt]
    exact FieldTree.wellFormed_empty.growAll growths
  have current : EachRecord (CurrentRoles (session.events actions)) registry :=
    @Session.run_invariant
      (fun registry history => EachRecord (CurrentRoles history) registry)
      (fun _ _ _ _ each happened => CurrentRoles.transition each happened)
      _ vetted [] (eachRecord_empty _ config judge) actions
  refine ⟨fun role operation path => mem_mappedRoles_iff wellFormed current, ?_⟩
  intro granted other isGranted otherIsGranted
  have told := Granted.text_eq_iff (isGranted.isPlain wellFormed) (otherIsGranted.isPlain wellFormed)
  refine ⟨told, ?_, ?_⟩
  · intro sameText sameEntity
    rcases told.1 sameText with same | overlaps | overlaps
    · exact same
    · exact (overlaps.entity_ne sameEntity).elim
    · exact (overlaps.entity_ne sameEntity.symm).elim
  · intro sameText noDots
    obtain ⟨_, _, grants⟩ := isGranted
    obtain ⟨_, _, otherGrants⟩ := otherIsGranted
    rcases told.1 sameText with same | overlaps | overlaps
    · exact same
    · exact (noDots _ otherGrants.mem_names overlaps.dot_mem).elim
    · exact (noDots _ grants.mem_names overlaps.dot_mem).elim

def parcel : EntityMetadata where
  info := EntityInfo.ofName "Parcel" (.ofBackend "mongo")
  schema :=
    let label := FieldTree.empty.attach FieldTree.root "label" (.leaf ⟨0, 0, .scalar .uid⟩ [])
    .propose "Parcel" (.ofNumber "1.0.0") (label.grant 1 .find ["reader"]) ∅

/-- The labels of parcels as an entity of their own that readers may find. -/
def parcelLabel : EntityMetadata where
  info := EntityInfo.ofName "Parcel.label" (.ofBackend "mongo")
  schema :=
    .propose "Parcel.label" (.ofNumber "1.0.0")
      (FieldTree.empty.attach FieldTree.root "id" (.leaf ⟨0, 0, .scalar .uid⟩ []))
      (Access.grant ∅ .find ["reader"])

def parcels : Registry :=
  ((Session.start .standard Config.standard.judge).run
    [.register parcel, .register parcelLabel]).registry

private theorem grants_parcel : parcels.Grants "reader" .find ⟨"Parcel", ⟨["label"]⟩⟩ := by
  refine ⟨"1.0.0", { parcel.schema with status := .published }, rfl, by decide, Or.inr ⟨1, ?_⟩⟩
  refine ⟨by decide, ?_, by decide⟩
  decide +kernel

private theorem grants_parcelLabel : parcels.Grants "reader" .find ⟨"Parcel.label", Path.root⟩ :=
  ⟨"1.0.0", { parcelLabel.schema with status := .published }, rfl, by decide,
    Or.inl ⟨rfl, by decide⟩⟩

/-- From the text alone it cannot be told whether the field is granted or the entity. -/
theorem parcel_label_ambiguous :
    let field : Granted := ⟨"Parcel", ⟨["label"]⟩⟩
    let entity : Granted := ⟨"Parcel.label", Path.root⟩
    parcels.Grants "reader" .find field ∧
      parcels.Grants "reader" .find entity ∧
      parcels.mappedRoles.paths "reader" .find = [field.text, entity.text] ∧
      ¬ ∀ granted other, parcels.IsGranted granted → parcels.IsGranted other →
        granted.text = other.text → granted = other := by
  intro field entity
  refine ⟨grants_parcel, grants_parcelLabel, by decide +kernel, ?_⟩
  intro unambiguous
  have same : field = entity :=
    unambiguous field entity ⟨"reader", .find, grants_parcel⟩ ⟨"reader", .find, grants_parcelLabel⟩
      (by decide)
  exact absurd same (by decide)

/-- The field and the entity overlap, and so they have the same text. -/
theorem parcel_label_overlaps :
    let actions := [Action.register parcel, .register parcelLabel]
    (∀ action ∈ actions, ∀ submitted, action.submitted? = some submitted →
        ∃ growths, submitted.schema.fields = FieldTree.empty.growAll growths) ∧
      Granted.text ⟨"Parcel", ⟨["label"]⟩⟩ = Granted.text ⟨"Parcel.label", Path.root⟩ := by
  intro actions
  have built :
      ∀ action ∈ actions, ∀ submitted, action.submitted? = some submitted →
        ∃ growths, submitted.schema.fields = FieldTree.empty.growAll growths := by
    intro action listed submitted brings
    simp only [actions, List.mem_cons, List.not_mem_nil, or_false] at listed
    rcases listed with rfl | rfl
    · cases brings
      refine ⟨[.leaf FieldTree.root "label" ⟨0, 0, .scalar .uid⟩, .access 1 .find ["reader"]], ?_⟩
      rfl
    · cases brings
      refine ⟨[.leaf FieldTree.root "id" ⟨0, 0, .scalar .uid⟩], ?_⟩
      rfl
  have told := (granted_texts_throughout .standard Config.standard.judge actions built).2
    ⟨"Parcel", ⟨["label"]⟩⟩ ⟨"Parcel.label", Path.root⟩
    ⟨"reader", .find, grants_parcel⟩ ⟨"reader", .find, grants_parcelLabel⟩
  exact ⟨built, told.1.2 (Or.inr (Or.inl ⟨["label"], [], by decide, rfl, by decide⟩))⟩

end Registry
end Schemata
