import Schemata.FieldType
import Schemata.Proofs.Attempt
import Schemata.Proofs.SortedMap

/-!
# Types are registered once

Registries are built and asked to register types, in any order. Beside each of them stands the row of
all handles that its registrations have given, those of the types that it was built with first. The
table of a registry never says anything but what that row does: a name is found as what its first
registration gave, and a handle is told by its place in the row and the number of the registry,
which is how many were built before it.
-/
namespace Schemata

theorem TypeRef.beq_iff {left right : TypeRef} :
    (left == right) = true ↔ left.registry = right.registry ∧ left.serial = right.serial := by
  show left.same right = true ↔ _
  simp [TypeRef.same]

namespace TypeRegistry

open Attempt

theorem outcome_register (registry : TypeRegistry) (type : FieldType) :
    outcome (register type) registry =
      if registry.contains type.name then (.error (.alreadyRegistered type.name), registry)
      else (.ok (registry.nextHandle type), registry.add type) := by
  simp only [register, outcome_bind, outcome_get]
  by_cases taken : registry.contains type.name = true
  · rw [if_pos taken, if_pos taken]
    rfl
  · rw [if_neg taken, if_neg taken]
    rfl

private theorem find?_add (registry : TypeRegistry) (type : FieldType) (name : String) :
    (registry.add type).find? name =
      if name = type.name then some (registry.nextHandle type) else registry.find? name :=
  SortedMap.find?_insert registry.handles type.name name (registry.nextHandle type)

/-! ## Histories -/

inductive Origin where
  | empty
  | standard

def Origin.types : Origin → List FieldType
  | .empty => []
  | .standard => standardTypes

def Origin.registry : Origin → Nat → TypeRegistry
  | .empty => .empty
  | .standard => .standard

theorem Origin.number_registry (origin : Origin) (number : Nat) :
    (origin.registry number).number = number := by
  cases origin <;> rfl

/-- The handles that some types get when they are added one after the other. -/
def handlesOf (registry : TypeRegistry) : List FieldType → List TypeRef
  | [] => []
  | type :: rest => registry.nextHandle type :: handlesOf (registry.add type) rest

/-- A registry, and the handles that its registrations have given, the earliest first. -/
structure History where
  registry : TypeRegistry
  given : List TypeRef

namespace History

def start (origin : Origin) (number : Nat) : History :=
  ⟨origin.registry number, handlesOf (.empty number) origin.types⟩

/-- The registry is asked to register a type, and gives a handle if it does. -/
def ask (history : History) (type : FieldType) : History :=
  match outcome (register type) history.registry with
  | (.ok handle, later) => ⟨later, history.given ++ [handle]⟩
  | (.error _, later) => ⟨later, history.given⟩

def add (history : History) (type : FieldType) : History :=
  ⟨history.registry.add type, history.given ++ [history.registry.nextHandle type]⟩

variable {history : History} {type : FieldType} {name : String}

private theorem ask_eq (history : History) (type : FieldType) :
    history.ask type =
      if history.registry.contains type.name then history else history.add type := by
  simp only [ask, outcome_register]
  by_cases taken : history.registry.contains type.name = true
  · rw [if_pos taken, if_pos taken]
  · rw [if_neg taken, if_neg taken]
    rfl

theorem foldl_add (history : History) (types : List FieldType) :
    types.foldl add history =
      ⟨types.foldl TypeRegistry.add history.registry,
        history.given ++ handlesOf history.registry types⟩ := by
  induction types generalizing history with
  | nil => simp [handlesOf]
  | cons type rest hypothesis => simp [hypothesis, add, handlesOf]

/-- A registry is built by adding its types to an empty one. -/
theorem start_eq (origin : Origin) (number : Nat) :
    start origin number = origin.types.foldl add ⟨.empty number, []⟩ := by
  rw [foldl_add]
  cases origin <;> rfl

/-- The table of the registry says what the row of handles does. No name is in the row twice, and the
handles are numbered by their places. -/
structure Sound (history : History) : Prop where
  found : ∀ name,
    history.registry.find? name = history.given.find? fun handle => handle.name = name
  apart : (history.given.map TypeRef.name).Nodup
  placed : ∀ (place : Nat) (handle : TypeRef), history.given[place]? = some handle →
    handle.registry = history.registry.number ∧ handle.serial = place
  size_eq : history.registry.handles.size = history.given.length

namespace Sound

theorem empty (number : Nat) : Sound ⟨.empty number, []⟩ where
  found _ := rfl
  apart := .nil
  placed _ _ listed := by cases listed
  size_eq := rfl

theorem find?_eq_none_iff (sound : history.Sound) :
    history.registry.find? name = none ↔ name ∉ history.given.map TypeRef.name := by
  rw [sound.found, List.find?_eq_none]
  simp

private theorem contains_iff (sound : history.Sound) :
    history.registry.contains name = true ↔ ∃ handle ∈ history.given, handle.name = name := by
  have isFound :
      history.registry.contains name = true ↔ history.registry.find? name ≠ none :=
    Option.isSome_iff_ne_none
  rw [isFound, ne_eq, sound.find?_eq_none_iff, not_not, List.mem_map]

theorem mem_of_find? (sound : history.Sound) {handle : TypeRef}
    (found : history.registry.find? name = some handle) :
    handle ∈ history.given ∧ handle.name = name := by
  rw [sound.found] at found
  exact ⟨List.mem_of_find?_eq_some found, by simpa using List.find?_some found⟩

/-- A type is registered unless its name is in the row. What fails leaves the registry as it was. -/
theorem register_iff (sound : history.Sound) (type : FieldType) :
    ((∃ handle ∈ history.given, handle.name = type.name) ↔
        outcome (register type) history.registry =
          (.error (.alreadyRegistered type.name), history.registry)) ∧
      ((∀ handle ∈ history.given, handle.name ≠ type.name) ↔
        ∃ handle next, outcome (register type) history.registry = (.ok handle, next) ∧
          handle.type = type ∧ next.find? type.name = some handle) := by
  rw [outcome_register, ← sound.contains_iff]
  by_cases taken : history.registry.contains type.name = true
  · obtain ⟨handle, given, sameName⟩ := sound.contains_iff.1 taken
    rw [if_pos taken]
    refine ⟨iff_of_true taken rfl, iff_of_false ?_ ?_⟩
    · exact fun free => free handle given sameName
    · rintro ⟨_, _, ⟨⟩, _⟩
  · rw [if_neg taken]
    refine ⟨iff_of_false taken nofun, iff_of_true ?_ ⟨_, _, rfl, rfl, ?_⟩⟩
    · exact fun handle given sameName => taken (sound.contains_iff.2 ⟨handle, given, sameName⟩)
    · rw [find?_add, if_pos rfl]

/-- A type under a new name goes to the end of the row, and its handle has the number of that place. -/
theorem add (sound : history.Sound) (free : history.registry.find? type.name = none) :
    (history.add type).Sound where
  found name := by
    have sameName : (history.registry.nextHandle type).name = type.name := rfl
    simp only [History.add, find?_add, List.find?_append, ← sound.found name]
    by_cases atName : name = type.name
    · simp [atName, free, sameName]
    · simp [atName, sameName, Ne.symm atName]
  apart := by
    have unlisted := sound.find?_eq_none_iff.1 free
    simp only [History.add, List.map_append, List.map_singleton]
    refine List.nodup_append.2 ⟨sound.apart, List.pairwise_singleton _ _, ?_⟩
    rintro earlier listed later isNew rfl
    have same : earlier = type.name := List.mem_singleton.1 isNew
    exact unlisted (same ▸ listed)
  placed place handle listed := by
    simp only [History.add, List.getElem?_append] at listed ⊢
    split at listed
    · exact sound.placed place handle listed
    · next beyond =>
        rw [List.getElem?_singleton] at listed
        split at listed
        · next atEnd =>
            cases listed
            refine ⟨rfl, ?_⟩
            show history.registry.handles.size = place
            have size_eq := sound.size_eq
            omega
        · cases listed
  size_eq := by
    simp only [History.add, List.length_append, List.length_singleton, ← sound.size_eq]
    exact SortedMap.size_insert _ free

theorem foldl_add {types : List FieldType} (sound : history.Sound)
    (apart : (types.map FieldType.name).Nodup)
    (free : ∀ type ∈ types, history.registry.find? type.name = none) :
    (types.foldl History.add history).Sound := by
  induction types generalizing history with
  | nil => exact sound
  | cons type rest hypothesis =>
      rw [List.map_cons, List.nodup_cons] at apart
      rw [List.forall_mem_cons] at free
      apply hypothesis (sound.add free.1) apart.2
      intro other listed
      have different : other.name ≠ type.name := by
        intro same
        exact apart.1 (same ▸ List.mem_map_of_mem listed)
      show (history.registry.add type).find? other.name = none
      rw [find?_add, if_neg different]
      exact free.2 other listed

/-- The standard types have names of their own, so that none of them takes the place of another. -/
theorem start (origin : Origin) (number : Nat) : (History.start origin number).Sound := by
  have apart : (origin.types.map FieldType.name).Nodup := by
    cases origin <;> decide
  rw [start_eq]
  exact (empty number).foldl_add apart fun _ _ => rfl

private theorem ask (sound : history.Sound) (type : FieldType) : (history.ask type).Sound := by
  rw [ask_eq]
  split
  · exact sound
  · next notTaken =>
      have free : history.registry.find? type.name = none :=
        Option.not_isSome_iff_eq_none.1 notTaken
      exact sound.add free

/-- Two handles of a registry come from one registration exactly if their names are the same. -/
theorem same_iff (sound : history.Sound) {left right : TypeRef} (leftGiven : left ∈ history.given)
    (rightGiven : right ∈ history.given) :
    (left == right) = true ↔ left.name = right.name := by
  obtain ⟨place, atPlace⟩ := List.getElem?_of_mem leftGiven
  obtain ⟨other, atOther⟩ := List.getElem?_of_mem rightGiven
  obtain ⟨leftNumber, leftSerial⟩ := sound.placed place left atPlace
  obtain ⟨rightNumber, rightSerial⟩ := sound.placed other right atOther
  have byPlace : (left == right) = true ↔ place = other := by
    rw [TypeRef.beq_iff, leftNumber, rightNumber, leftSerial, rightSerial]
    exact and_iff_right rfl
  have leftName : (history.given.map TypeRef.name)[place]? = some left.name := by
    rw [List.getElem?_map, atPlace]
    rfl
  have rightName : (history.given.map TypeRef.name)[other]? = some right.name := by
    rw [List.getElem?_map, atOther]
    rfl
  have inRow : place < (history.given.map TypeRef.name).length :=
    (List.getElem?_eq_some_iff.1 leftName).1
  rw [byPlace, ← List.getElem?_inj inRow sound.apart, leftName, rightName, Option.some.injEq]

theorem registry_eq (sound : history.Sound) {handle : TypeRef} (given : handle ∈ history.given) :
    handle.registry = history.registry.number := by
  obtain ⟨place, atPlace⟩ := List.getElem?_of_mem given
  exact (sound.placed place handle atPlace).1

end Sound

private theorem given_prefix_ask (history : History) (type : FieldType) :
    history.given <+: (history.ask type).given := by
  rw [ask_eq]
  split
  · exact List.prefix_refl _
  · exact List.prefix_append _ _

private theorem number_ask (history : History) (type : FieldType) :
    (history.ask type).registry.number = history.registry.number := by
  rw [ask_eq]
  split <;> rfl

end History

/-! ## The registries of a program -/

/-- A registry is built, or one of those that are there, named by its place, is asked to register a
type. -/
inductive Event where
  | build (origin : Origin)
  | ask (place : Nat) (type : FieldType)

/-- The registries stand in the order in which they were built. The number of a new one is their
count, which none of them has. -/
def step (histories : List History) : Event → List History
  | .build origin => histories ++ [.start origin histories.length]
  | .ask place type => histories.modify place fun history => history.ask type

def run (histories : List History) (events : List Event) : List History :=
  events.foldl step histories

/-- A handle was obtained from the registry at a place: it was the answer to a request, or was found
under some name at some time. -/
inductive Obtained (events : List Event) (place : Nat) (handle : TypeRef) : Prop
  | answered {earlier later : List Event} {history : History} {type : FieldType}
      {next : TypeRegistry} (whole : events = earlier ++ .ask place type :: later)
      (there : (run [] earlier)[place]? = some history)
      (answer : outcome (register type) history.registry = (.ok handle, next))
  | found {earlier later : List Event} {history : History} {name : String}
      (whole : events = earlier ++ later)
      (there : (run [] earlier)[place]? = some history)
      (found : history.registry.find? name = some handle)

/-- Every registry has its place as its number, and its table says what its row of handles does. -/
def Numbered (histories : List History) : Prop :=
  ∀ (place : Nat) (history : History), histories[place]? = some history →
    history.Sound ∧ history.registry.number = place

section Runs

variable {histories : List History} {events : List Event} {place : Nat} {history : History}

private theorem run_append (histories : List History) (earlier later : List Event) :
    run histories (earlier ++ later) = run (run histories earlier) later :=
  List.foldl_append

theorem Numbered.step (numbered : Numbered histories) (event : Event) :
    Numbered (step histories event) := by
  intro place history there
  cases event with
  | build origin =>
      rw [TypeRegistry.step, List.getElem?_append] at there
      split at there
      · exact numbered place history there
      · next beyond =>
          rw [List.getElem?_singleton] at there
          split at there
          · cases there
            refine ⟨.start origin _, ?_⟩
            show (origin.registry histories.length).number = place
            rw [origin.number_registry]
            omega
          · cases there
  | ask asked type =>
      rw [TypeRegistry.step, List.getElem?_modify] at there
      obtain ⟨before, was, rfl⟩ := Option.map_eq_some_iff.1 there
      obtain ⟨sound, number⟩ := numbered place before was
      split
      · exact ⟨sound.ask type, (before.number_ask type).trans number⟩
      · exact ⟨sound, number⟩

theorem Numbered.run (numbered : Numbered histories) (events : List Event) :
    Numbered (run histories events) := by
  induction events generalizing histories with
  | nil => exact numbered
  | cons event rest hypothesis => exact hypothesis (numbered.step event)

private theorem numbered_run (events : List Event) : Numbered (run [] events) :=
  Numbered.run (fun _ _ there => by cases there) events

/-- A registry stays at its place, and the handles it has given stay in its row. -/
theorem exists_given_prefix_step (there : histories[place]? = some history) (event : Event) :
    ∃ next, (step histories event)[place]? = some next ∧ history.given <+: next.given := by
  cases event with
  | build origin =>
      refine ⟨history, ?_, List.prefix_refl _⟩
      rw [step, List.getElem?_append_left (List.getElem?_eq_some_iff.1 there).1, there]
  | ask asked type =>
      rw [step, List.getElem?_modify, there]
      refine ⟨_, rfl, ?_⟩
      split
      · exact history.given_prefix_ask type
      · exact List.prefix_refl _

private theorem exists_given_prefix_run (there : histories[place]? = some history)
    (events : List Event) :
    ∃ last, (run histories events)[place]? = some last ∧ history.given <+: last.given := by
  induction events generalizing histories history with
  | nil => exact ⟨history, there, List.prefix_refl _⟩
  | cons event rest hypothesis =>
      obtain ⟨next, follows, grown⟩ := exists_given_prefix_step there event
      obtain ⟨last, atEnd, more⟩ := hypothesis follows
      exact ⟨last, atEnd, grown.trans more⟩

/-- What is found once is found ever after. -/
theorem exists_find?_run (numbered : Numbered histories) (there : histories[place]? = some history)
    (events : List Event) {name : String} {handle : TypeRef}
    (found : history.registry.find? name = some handle) :
    ∃ last, (run histories events)[place]? = some last ∧
      last.registry.find? name = some handle := by
  obtain ⟨last, atEnd, more, whole⟩ := exists_given_prefix_run there events
  refine ⟨last, atEnd, ?_⟩
  rw [(numbered place history there).1.found] at found
  rw [(numbered.run events place last atEnd).1.found, ← whole, List.find?_append, found,
    Option.some_or]

theorem Obtained.exists_mem_given {handle : TypeRef} (obtained : Obtained events place handle) :
    ∃ history, (run [] events)[place]? = some history ∧ handle ∈ history.given := by
  cases obtained with
  | @answered earlier later history type next whole there answer =>
      have asked :
          (step (run [] earlier) (.ask place type))[place]? = some (history.ask type) := by
        rw [step, List.getElem?_modify, there]
        simp
      have listed : handle ∈ (history.ask type).given := by
        rw [History.ask, answer]
        exact List.mem_append_right _ (List.mem_singleton_self handle)
      obtain ⟨last, atEnd, grown⟩ := exists_given_prefix_run asked later
      rw [whole, run_append]
      exact ⟨last, atEnd, grown.subset listed⟩
  | @found earlier later history name whole there found =>
      have listed := ((numbered_run earlier place history there).1.mem_of_find? found).1
      obtain ⟨last, atEnd, grown⟩ := exists_given_prefix_run there later
      rw [whole, run_append]
      exact ⟨last, atEnd, grown.subset listed⟩

theorem Obtained.registry_eq {handle : TypeRef} (obtained : Obtained events place handle) :
    handle.registry = place := by
  obtain ⟨history, there, given⟩ := obtained.exists_mem_given
  obtain ⟨sound, number⟩ := numbered_run events place history there
  rw [sound.registry_eq given, number]

theorem Obtained.same_iff {left right : TypeRef} (leftObtained : Obtained events place left)
    (rightObtained : Obtained events place right) :
    (left == right) = true ↔ left.name = right.name := by
  obtain ⟨history, there, leftGiven⟩ := leftObtained.exists_mem_given
  obtain ⟨_, again, rightGiven⟩ := rightObtained.exists_mem_given
  rw [there] at again
  cases again
  exact (numbered_run events place history there).1.same_iff leftGiven rightGiven

theorem Obtained.not_same {other : Nat} {left right : TypeRef} (apart : place ≠ other)
    (leftObtained : Obtained events place left) (rightObtained : Obtained events other right) :
    (left == right) = false := by
  rw [← Bool.not_eq_true, TypeRef.beq_iff, leftObtained.registry_eq, rightObtained.registry_eq]
  exact fun same => apart same.1

end Runs

private theorem pairwise_names (registry : TypeRegistry) : registry.names.Pairwise (· < ·) :=
  List.pairwise_map.2 registry.handles.sorted

/-- Registries are built, each empty or with the standard types, and are asked to register types, in
any order. At any time a name is found as what the first registration under it gave, the handle
found has that name, and nothing else is found later. A registration fails exactly if its name is
taken, and changes nothing then; otherwise its answer is a handle of the type, which is found. Of all
handles ever obtained, two from one registry are the same exactly if their names are, two from
different registries never are, and the same ones have the same hash. The names of a registry are
those of its registrations, each once and in ascending order. -/
theorem types_are_canonical (events later : List Event) :
    (∀ (place : Nat) (history : History) (name : String),
        (run [] events)[place]? = some history →
        (history.registry.find? name =
          history.given.find? fun handle => handle.name = name) ∧
        ∀ handle, history.registry.find? name = some handle →
          handle.name = name ∧
            ∃ last, (run [] (events ++ later))[place]? = some last ∧
              last.registry.find? name = some handle) ∧
      (∀ (place : Nat) (history : History) (type : FieldType),
        (run [] events)[place]? = some history →
        ((∃ handle ∈ history.given, handle.name = type.name) ↔
            outcome (register type) history.registry =
              (.error (.alreadyRegistered type.name), history.registry)) ∧
          ((∀ handle ∈ history.given, handle.name ≠ type.name) ↔
            ∃ handle next, outcome (register type) history.registry = (.ok handle, next) ∧
              handle.type = type ∧ next.find? type.name = some handle)) ∧
      (∀ place left right, Obtained events place left → Obtained events place right →
          ((left == right) = true ↔ left.name = right.name)) ∧
      (∀ place other left right, place ≠ other →
        Obtained events place left → Obtained events other right → (left == right) = false) ∧
      (∀ place other left right,
        Obtained events place left → Obtained events other right →
          (left == right) = true → hash left = hash right) ∧
      ∀ (place : Nat) (history : History), (run [] events)[place]? = some history →
        history.registry.names.Pairwise (· < ·) ∧
          ∀ name, name ∈ history.registry.names ↔
            ∃ handle ∈ history.given, handle.name = name := by
  have numbered := numbered_run events
  refine ⟨fun place history name there => ⟨(numbered place history there).1.found name, ?_⟩,
    fun place history type there => (numbered place history there).1.register_iff type,
    fun _ _ _ => Obtained.same_iff, fun _ _ _ _ => Obtained.not_same, ?_,
    fun place history there => ⟨pairwise_names _, fun name => ?_⟩⟩
  · intro handle found
    refine ⟨((numbered place history there).1.mem_of_find? found).2, ?_⟩
    rw [run_append]
    exact exists_find?_run numbered there later found
  · intro place other left right leftObtained rightObtained same
    by_cases samePlace : place = other
    · subst samePlace
      have sameName : left.name = right.name := (leftObtained.same_iff rightObtained).1 same
      show hash left.name = hash right.name
      rw [sameName]
    · rw [leftObtained.not_same samePlace rightObtained] at same
      cases same
  · exact SortedMap.mem_keys_iff.trans (numbered place history there).1.contains_iff

/-- A registry with the standard types and an empty one are built. Both are asked for the type of
strings, the second one also for a container under the same name. -/
def askForStrings : List Event :=
  [.build .standard, .build .empty, .ask 0 (.scalar .string), .ask 1 (.scalar .string),
    .ask 1 (.container "string" .other)]

/-- Only the second registry registers the type of strings, and only once. It is found in both
registries, under handles that have one hash and are not the same. -/
theorem strings_of_two_registries :
    let left : TypeRef := ⟨0, 3, .scalar .string⟩
    let right : TypeRef := ⟨1, 0, .scalar .string⟩
    ∃ standard empty, run [] askForStrings = [standard, empty] ∧
      standard.registry.find? "string" = some left ∧
      empty.registry.find? "string" = some right ∧
      (left == right) = false ∧ hash left = hash right ∧
      outcome (register (.container "string" .other)) standard.registry =
        (.error (.alreadyRegistered "string"), standard.registry) := by
  intro left right
  obtain ⟨found, registers, _, apart, _, _⟩ := types_are_canonical askForStrings []
  obtain ⟨standard, empty, both⟩ : ∃ standard empty, run [] askForStrings = [standard, empty] :=
    ⟨_, _, rfl⟩
  have leftThere : (run [] askForStrings)[0]? = some standard := by
    rw [both]
    rfl
  have rightThere : (run [] askForStrings)[1]? = some empty := by
    rw [both]
    rfl
  have leftFound : standard.registry.find? "string" = some left := by
    cases both
    decide
  have rightFound : empty.registry.find? "string" = some right := by
    cases both
    decide
  have whole : askForStrings = askForStrings ++ [] := rfl
  have leftGiven : left ∈ standard.given :=
    List.mem_of_find?_eq_some ((found 0 standard "string" leftThere).1.symm.trans leftFound)
  refine ⟨standard, empty, both, leftFound, rightFound, ?_, rfl, ?_⟩
  · exact apart 0 1 left right (by decide) (.found whole leftThere leftFound)
      (.found whole rightThere rightFound)
  · exact (registers 0 standard (.container "string" .other) leftThere).1.1 ⟨left, leftGiven, rfl⟩

end TypeRegistry
end Schemata
