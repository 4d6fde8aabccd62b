import Schemata.Proofs.Registry.DefaultVersion
import Schemata.Proofs.Registry.Locality

/-!
# Independence of entities

An entity fares in a run as if the operations that concern others had not been there. Where these
are left out, a publication names the place that its submission has among those of the entity.
-/
namespace Schemata.Registry

open Attempt

variable {name other : String} {α : Type}

inductive Answer where
  | accepted (validated : ValidatedMetadata)
  | schema (schema : EntitySchema)
  | done

namespace Session

variable {session own : Session} {action : Action}

/-- What an operation attempts. To publish what has not been validated is to attempt nothing. -/
def attempted? (session : Session) :
    Action → Option (Attempt Registry MetadataError Answer)
  | .validate submitted =>
      some (Answer.accepted <$> look fun registry => registry.validate submitted)
  | .publish slot =>
      session.validated[slot]?.map fun validated => Answer.schema <$> Registry.publish validated
  | .register submitted => some (Answer.schema <$> Registry.register submitted)
  | .setDefault name version =>
      some ((fun _ => Answer.done) <$> Registry.setDefault name version)
  | .retire name version => some (Answer.schema <$> Registry.retire name version)
  | .remove name version => some (Answer.schema <$> Registry.remove name version)

def entity? (session : Session) : Action → Option String
  | .validate submitted => some submitted.info.name
  | .publish slot => session.validated[slot]?.map fun validated => validated.metadata.info.name
  | .register submitted => some submitted.info.name
  | .setDefault name _ => some name
  | .retire name _ => some name
  | .remove name _ => some name

def answer? (session : Session) (action : Action) : Option (Except MetadataError Answer) :=
  (session.attempted? action).map fun attempted => (outcome attempted session.registry).1

private theorem concerns_attempted
    {attempted : Attempt Registry MetadataError Answer}
    (attempts : session.attempted? action = some attempted)
    (concerned : session.entity? action = some name) :
    Concerns name attempted := by
  cases action with
  | validate submitted =>
      cases attempts
      cases concerned
      exact (concerns_validate submitted).map _
  | publish slot =>
      obtain ⟨validated, held, rfl⟩ := Option.map_eq_some_iff.1 attempts
      rw [entity?, held] at concerned
      cases concerned
      exact (concerns_publish validated).map _
  | register submitted =>
      cases attempts
      cases concerned
      exact (concerns_register submitted).map _
  | setDefault name version =>
      cases attempts
      cases concerned
      exact (concerns_setDefault name version).map _
  | retire name version =>
      cases attempts
      cases concerned
      exact (concerns_retire name version).map _
  | remove name version =>
      cases attempts
      cases concerned
      exact (concerns_remove name version).map _

/-- What an operation adds to the submissions that have been validated. -/
def accepts (session : Session) : Action → List ValidatedMetadata
  | .validate submitted => (session.registry.validate submitted).toOption.toList
  | _ => []

theorem validate_of_mem_accepts {validated : ValidatedMetadata}
    (added : validated ∈ session.accepts action) :
    ∃ submitted,
      action = .validate submitted ∧ session.registry.validate submitted = .ok validated := by
  cases action with
  | validate submitted =>
      rw [accepts, Option.mem_toList] at added
      refine ⟨submitted, rfl, ?_⟩
      cases outcome : session.registry.validate submitted with
      | error error =>
          rw [outcome] at added
          cases added
      | ok other =>
          rw [outcome] at added
          cases added
          rfl
  | _ => cases added

private theorem entity?_of_mem_accepts {validated : ValidatedMetadata}
    (added : validated ∈ session.accepts action) :
    session.entity? action = some validated.metadata.info.name := by
  obtain ⟨submitted, rfl, passed⟩ := validate_of_mem_accepts added
  rw [(acceptable_of_validate passed).2]
  rfl

theorem step_validated (session : Session) (action : Action) :
    (session.step action).validated = session.validated ++ session.accepts action := by
  cases action with
  | validate submitted =>
      rw [step, accepts]
      cases session.registry.validate submitted with
      | error error => exact (List.append_nil _).symm
      | ok validated => rfl
  | publish slot =>
      rw [step]
      cases session.validated[slot]? <;> exact (List.append_nil _).symm
  | _ => exact (List.append_nil _).symm

private theorem step_registry
    {attempted : Attempt Registry MetadataError Answer}
    (attempts : session.attempted? action = some attempted) :
    (session.step action).registry = (outcome attempted session.registry).2 := by
  cases action with
  | validate submitted =>
      cases attempts
      rw [step_validate_registry, outcome_map_eq]
      rfl
  | publish slot =>
      obtain ⟨validated, held, rfl⟩ := Option.map_eq_some_iff.1 attempts
      rw [step, held, outcome_map_eq]
      rfl
  | _ =>
      cases attempts
      rw [outcome_map_eq]
      rfl

private theorem exists_attempted (concerned : session.entity? action = some name) :
    ∃ attempted, session.attempted? action = some attempted ∧ Concerns name attempted := by
  cases attempts : session.attempted? action with
  | some attempted => exact ⟨attempted, rfl, concerns_attempted attempts concerned⟩
  | none =>
      cases action with
      | publish slot =>
          have nothing : session.validated[slot]? = none := Option.map_eq_none_iff.1 attempts
          rw [entity?, nothing] at concerned
          cases concerned
      | _ => cases attempts

private theorem agreeOn_step (unconcerned : session.entity? action ≠ some name) :
    AgreeOn name session.registry (session.step action).registry := by
  cases concerned : session.entity? action with
  | some other =>
      obtain ⟨attempted, attempts, concerns⟩ := exists_attempted concerned
      have different : name ≠ other := by
        rintro rfl
        exact unconcerned concerned
      rw [step_registry attempts]
      exact concerns.others different session.registry
  | none =>
      cases action with
      | publish slot =>
          have nothing : session.validated[slot]? = none := Option.map_eq_none_iff.1 concerned
          rw [step, nothing]
          exact .refl name session.registry
      | _ => cases concerned

private theorem accepts_eq (agree : AgreeOn name session.registry own.registry)
    (concerned : session.entity? action = some name) :
    own.accepts action = session.accepts action := by
  cases action with
  | validate submitted =>
      cases concerned
      rw [accepts, accepts, agree.validate_eq]
  | _ => rfl

def isOf (name : String) (validated : ValidatedMetadata) : Bool :=
  validated.metadata.info.name = name

/-- An operation in a run without the submissions of other entities: a publication names the
place that its submission has there. -/
def renumbered (session : Session) (name : String) : Action → Action
  | .publish slot => .publish ((session.validated.take slot).countP (isOf name))
  | action => action

/-- The operations of a run that concern an entity. -/
def about (session : Session) (name : String) : List Action → List Action
  | [] => []
  | action :: rest =>
      if session.entity? action = some name then
        session.renumbered name action :: (session.step action).about name rest
      else (session.step action).about name rest

def answers (session : Session) : List Action → List (Option (Except MetadataError Answer))
  | [] => []
  | action :: rest => session.answer? action :: (session.step action).answers rest

/-- The answers of those operations of a run that concern an entity. -/
def answersAbout (session : Session) (name : String) :
    List Action → List (Option (Except MetadataError Answer))
  | [] => []
  | action :: rest =>
      if session.entity? action = some name then
        session.answer? action :: (session.step action).answersAbout name rest
      else (session.step action).answersAbout name rest

/-- Of all that a session has, the other one has what concerns an entity. -/
structure Reflects (name : String) (session own : Session) : Prop where
  registry : AgreeOn name session.registry own.registry
  validated : own.validated = session.validated.filter (isOf name)

private theorem getElem?_filter_countP {items : List α} {holds : α → Bool} {place : Nat} {item : α}
    (found : items[place]? = some item) (passes : holds item = true) :
    (items.filter holds)[(items.take place).countP holds]? = some item := by
  induction items generalizing place with
  | nil => cases found
  | cons first rest hypothesis =>
      cases place with
      | zero =>
          cases found
          rw [List.filter_cons_of_pos passes]
          rfl
      | succ place =>
          have later : (rest.filter holds)[(rest.take place).countP holds]? = some item :=
            hypothesis found
          rw [List.take_succ_cons]
          by_cases atFirst : holds first = true
          · rw [List.filter_cons_of_pos atFirst, List.countP_cons_of_pos atFirst]
            exact later
          · rw [List.filter_cons_of_neg atFirst, List.countP_cons_of_neg atFirst]
            exact later

namespace Reflects

variable (reflects : Reflects name session own)
include reflects

private theorem attempted?_eq (concerned : session.entity? action = some name) :
    own.attempted? (session.renumbered name action) = session.attempted? action := by
  cases action with
  | publish slot =>
      obtain ⟨validated, held, ofEntity⟩ := Option.map_eq_some_iff.1 concerned
      have passes : isOf name validated = true := decide_eq_true ofEntity
      have heldAlone := getElem?_filter_countP held passes
      rw [← reflects.validated] at heldAlone
      rw [renumbered, attempted?, attempted?, held, heldAlone]
  | _ => rfl

/-- What concerns the entity has the same answer without the others, and keeps step. -/
theorem kept (concerned : session.entity? action = some name) :
    own.answer? (session.renumbered name action) = session.answer? action ∧
      Reflects name (session.step action) (own.step (session.renumbered name action)) := by
  obtain ⟨attempted, attempts, concerns⟩ := exists_attempted concerned
  have attemptsAlone := (reflects.attempted?_eq concerned).trans attempts
  obtain ⟨sameAnswer, later⟩ := concerns.alike reflects.registry
  refine ⟨?_, ⟨?_, ?_⟩⟩
  · rw [answer?, answer?, attempts, attemptsAlone, Option.map_some, Option.map_some, sameAnswer]
  · rw [step_registry attempts, step_registry attemptsAlone]
    exact later
  · have sameAccepted :
        own.accepts (session.renumbered name action) = session.accepts action := by
      cases action with
      | publish slot => rfl
      | _ => exact accepts_eq reflects.registry concerned
    have allOfEntity : (session.accepts action).filter (isOf name) = session.accepts action := by
      apply List.filter_eq_self.2
      intro validated added
      have sameName := (entity?_of_mem_accepts added).symm.trans concerned
      exact decide_eq_true (Option.some.inj sameName)
    rw [step_validated, step_validated, List.filter_append, allOfEntity, sameAccepted,
      reflects.validated]

/-- What does not concern the entity is not missed. -/
theorem erased (unconcerned : session.entity? action ≠ some name) :
    Reflects name (session.step action) own := by
  refine ⟨(agreeOn_step unconcerned).symm.trans reflects.registry, ?_⟩
  have noneOfEntity : (session.accepts action).filter (isOf name) = [] := by
    apply List.filter_eq_nil_iff.2
    intro validated added ofEntity
    have sameName : validated.metadata.info.name = name := of_decide_eq_true ofEntity
    exact unconcerned ((entity?_of_mem_accepts added).trans (congrArg some sameName))
  rw [step_validated, List.filter_append, noneOfEntity, List.append_nil, reflects.validated]

/-- Along a whole run the entity fares as in the run of its own operations. -/
theorem run (actions : List Action) :
    own.answers (session.about name actions) = session.answersAbout name actions ∧
      Reflects name (session.run actions) (own.run (session.about name actions)) := by
  induction actions generalizing session own with
  | nil => exact ⟨rfl, reflects⟩
  | cons action rest hypothesis =>
      rw [about, answersAbout]
      by_cases concerned : session.entity? action = some name
      · obtain ⟨sameAnswer, later⟩ := reflects.kept concerned
        obtain ⟨sameAnswers, atEnd⟩ := hypothesis later
        rw [if_pos concerned, if_pos concerned, answers, sameAnswer, sameAnswers]
        exact ⟨rfl, atEnd⟩
      · rw [if_neg concerned, if_neg concerned]
        exact hypothesis (reflects.erased concerned)

end Reflects

private theorem attempted?_step (first : Action) {second : Action}
    (concerned : session.entity? second = some name) :
    (session.step first).attempted? second = session.attempted? second := by
  cases second with
  | publish slot =>
      obtain ⟨validated, held, _⟩ := Option.map_eq_some_iff.1 concerned
      have inside : slot < session.validated.length := (List.getElem?_eq_some_iff.1 held).1
      rw [attempted?, attempted?, step_validated, List.getElem?_append_left inside]
  | _ => rfl

private theorem steps_commute {first second : Action}
    (ofFirst : session.entity? first = some name)
    (ofSecond : session.entity? second = some other) (different : name ≠ other) :
    (session.step first).answer? second = session.answer? second ∧
      (session.step second).answer? first = session.answer? first ∧
      ((session.step first).step second).registry =
        ((session.step second).step first).registry ∧
      ((session.step first).step second).validated.Perm
        ((session.step second).step first).validated := by
  obtain ⟨attempt, attempts, concerns⟩ := exists_attempted ofFirst
  obtain ⟨later, attemptsLater, concernsOther⟩ := exists_attempted ofSecond
  have attemptsAfter := (attempted?_step second ofFirst).trans attempts
  have attemptsLaterAfter := (attempted?_step first ofSecond).trans attemptsLater
  obtain ⟨sameSecond, sameFirst, sameRegistry⟩ :=
    concerns.commute concernsOther different session.registry
  refine ⟨?_, ?_, ?_, ?_⟩
  · rw [answer?, answer?, attemptsLaterAfter, attemptsLater, step_registry attempts,
      Option.map_some, Option.map_some, sameSecond]
  · rw [answer?, answer?, attemptsAfter, attempts, step_registry attemptsLater,
      Option.map_some, Option.map_some, sameFirst]
  · rw [step_registry attemptsLaterAfter, step_registry attempts, step_registry attemptsAfter,
      step_registry attemptsLater, sameRegistry]
  · have unconcernedFirst : session.entity? first ≠ some other := by
      rw [ofFirst]
      exact fun same => different (Option.some.inj same)
    have unconcernedSecond : session.entity? second ≠ some name := by
      rw [ofSecond]
      exact fun same => different (Option.some.inj same).symm
    have addedSecond := accepts_eq (agreeOn_step unconcernedFirst) ofSecond
    have addedFirst := accepts_eq (agreeOn_step unconcernedSecond) ofFirst
    rw [step_validated, step_validated, step_validated, step_validated, addedSecond, addedFirst,
      List.append_assoc, List.append_assoc]
    exact List.perm_append_comm.append_left _

end Session

/-- Without the operations that concern other entities, every operation on an entity has the answer
that it has among them, and in the end the same is known of the entity. Operations that concern
different entities may change places. -/
theorem entities_independent
    (config : Config) (judge : DataStoreJudge) (actions : List Action) (name : String) :
    let start := Session.start config judge
    let own := start.about name actions
    let together := (start.run actions).registry
    let alone := (start.run own).registry
    start.answers own = start.answersAbout name actions ∧
      AgreeOn name together alone ∧
      together.info name = alone.info name ∧
      together.versions name = alone.versions name ∧
      (∀ version,
        together.resolve name version = alone.resolve name version ∧
          together.describe name version = alone.describe name version) ∧
      ∀ other first second,
        name ≠ other →
        (start.run actions).entity? first = some name →
        (start.run actions).entity? second = some other →
        ((start.run actions).step first).answer? second = (start.run actions).answer? second ∧
          ((start.run actions).step second).answer? first = (start.run actions).answer? first ∧
          (start.run (actions ++ [first, second])).registry =
            (start.run (actions ++ [second, first])).registry ∧
          (start.run (actions ++ [first, second])).validated.Perm
            (start.run (actions ++ [second, first])).validated := by
  intro start own together alone
  have atStart : Session.Reflects name start start := ⟨.refl name start.registry, rfl⟩
  obtain ⟨sameAnswers, atEnd⟩ := atStart.run actions
  have agree : AgreeOn name together alone := atEnd.registry
  refine ⟨sameAnswers, agree, agree.info_eq, agree.versions_eq, fun version => ?_, ?_⟩
  · exact ⟨agree.resolve_eq version, agree.describe_eq version⟩
  · intro other first second different ofFirst ofSecond
    have inTurn (one another : Action) :
        start.run (actions ++ [one, another]) = ((start.run actions).step one).step another := by
      simp [Session.run]
    rw [inTurn, inTurn]
    exact Session.steps_commute ofFirst ofSecond different

def invoice : EntityMetadata where
  info := EntityInfo.ofName "Invoice" (.ofBackend "mongo")
  schema :=
    .propose "Invoice" (.ofNumber "1.0.0")
      (FieldTree.empty.attach FieldTree.root "id" (.leaf ⟨0, 0, .scalar .uid⟩ [])) ∅

/-- An invoice that was validated behind an order and is published after it fares as without the
order, and it does not matter which of the two is retired first. -/
theorem invoice_apart_from_order :
    let start := Session.start .standard Config.standard.judge
    let actions :=
      [Action.validate (orderVersion "1.0.0" none), .validate invoice, .publish 0, .publish 1]
    start.about "Invoice" actions = [.validate invoice, .publish 0] ∧
      (start.run actions).registry.resolve "Invoice" (some "1.0.0") =
        (start.run [.validate invoice, .publish 0]).registry.resolve "Invoice" (some "1.0.0") ∧
      (start.run (actions ++ [.retire "Invoice" "1.0.0", .retire "Order" "1.0.0"])).registry =
        (start.run (actions ++ [.retire "Order" "1.0.0", .retire "Invoice" "1.0.0"])).registry := by
  intro start actions
  have own : start.about "Invoice" actions = [.validate invoice, .publish 0] := rfl
  obtain ⟨_, _, _, _, resolved, commute⟩ :=
    entities_independent .standard Config.standard.judge actions "Invoice"
  have retired := commute "Order" (.retire "Invoice" "1.0.0") (.retire "Order" "1.0.0")
    (by decide) rfl rfl
  exact ⟨own, own ▸ (resolved (some "1.0.0")).1, retired.2.2.1⟩

end Schemata.Registry
