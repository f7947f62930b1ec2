import BranchingStory.Player.Program
import BranchingStory.Proofs.Loading.Inside

/-!
The course of a load. Its steps come in a fixed order, and the first of them that has a fault ends it: nothing is
fetched after that, and nothing is left but the fault. Only a load without any fault gives a story.
-/

namespace BranchingStory

def Document.SharesFrom (document : Document) (path : String) : Prop :=
  ∃ constants paths, document.constants = some constants ∧ constants.get? "paths" = some paths ∧
    paths.member? "predefinedConstants" = some (.string path) ∧ path ≠ ""

theorem present_eq_some_iff {text? : Option String} {text : String} :
    present text? = some text ↔ text? = some text ∧ text ≠ "" := by
  rw [present, Option.filter_eq_some_iff]
  simp

theorem Json.string?_eq_some_iff {value : Json} {text : String} : value.string? = some text ↔ value = .string text := by
  cases value <;> simp [Json.string?]

theorem Document.sharedConstantsPath?_eq_some_iff {document : Document} {path : String} :
    document.sharedConstantsPath? = some path ↔ document.SharesFrom path := by
  simp [sharedConstantsPath?, SharesFrom, Option.bind_eq_some_iff, present_eq_some_iff, Json.string?_eq_some_iff]

namespace Loading

def faultsOfShared (later : String → Except Error (List UInt8)) (path : String) : List (Option Error) :=
  let value? := (later path).toOption.bind fun bytes => (Json.decodeBytes Json.Decoder.json bytes).toOption
  [(nameFault? path).map (.invalidName path),
   causeOf? (later path),
   ((later path).toOption.bind fun bytes => causeOf? (Json.decodeBytes Json.Decoder.json bytes)).map (.malformed path),
   value?.bind fun value =>
     match value with
     | .object _ => none
     | _ => some (.invalidConstants path)]

/-- What a source has to say to a load: its answer when the story is asked for, and those that it would give after
that. -/
structure Answers where
  story : Except Error (List UInt8)
  later : String → Except Error (List UInt8)

namespace Answers

def of {σ : Type} (fetch : Fetch (StateM σ)) (state : σ) (path : String) : Answers :=
  ⟨(fetch path state).1, fun other => (fetch other (fetch path state).2).1⟩

variable (answers : Answers)

def document? : Option Document := answers.story.toOption.bind fun bytes => (Document.ofBytes bytes).toOption

def sharedPath? : Option String := answers.document?.bind (·.sharedConstantsPath?)

def shared? : Option Json :=
  answers.sharedPath?.bind fun other => (answers.later other).toOption.bind fun bytes =>
    (Json.decodeBytes Json.Decoder.json bytes).toOption

/-- The faults of the steps in their order, each as if the steps before had none. -/
def faults (path name : String) : List (Option Error) :=
  [(nameFault? name).map (.invalidName name),
   causeOf? answers.story,
   (answers.story.toOption.bind fun bytes => causeOf? (Document.ofBytes bytes)).map (.malformed path)] ++
    answers.sharedPath?.elim [] (faultsOfShared answers.later)

end Answers

inductive EndsShared (later : String → Except Error (List UInt8)) (path : String) :
    Except Error Members → List String → Prop
  | misnamed {fault : NameFault} (named : nameFault? path = some fault) :
      EndsShared later path (.error (.invalidName path fault)) []
  | unfetched {cause : Error} (named : nameFault? path = none) (told : later path = .error cause) :
      EndsShared later path (.error cause) [path]
  | unread {bytes : List UInt8} {cause : Json.Refusal} (named : nameFault? path = none) (told : later path = .ok bytes)
      (read : Json.decodeBytes Json.Decoder.json bytes = .error cause) :
      EndsShared later path (.error (.malformed path cause)) [path]
  | unfit {bytes : List UInt8} {value : Json} (named : nameFault? path = none) (told : later path = .ok bytes)
      (read : Json.decodeBytes Json.Decoder.json bytes = .ok value) (unfit : ∀ members, value ≠ .object members) :
      EndsShared later path (.error (.invalidConstants path)) [path]
  | whole {bytes : List UInt8} {members : Members} (named : nameFault? path = none) (told : later path = .ok bytes)
      (read : Json.decodeBytes Json.Decoder.json bytes = .ok (.object members)) :
      EndsShared later path (.ok members) [path]

/-- How the answers of a source let a load end, and what is asked for in it. -/
inductive Ends (answers : Answers) (kind : StoryKind) (path name : String) :
    Except Error LoadedStory → List String → Prop
  | misnamed {fault : NameFault} (named : nameFault? name = some fault) :
      Ends answers kind path name (.error (.invalidName name fault)) []
  | unfetched {cause : Error} (named : nameFault? name = none) (told : answers.story = .error cause) :
      Ends answers kind path name (.error cause) [path]
  | unread {bytes : List UInt8} {cause : Json.Refusal} (named : nameFault? name = none)
      (told : answers.story = .ok bytes) (read : Document.ofBytes bytes = .error cause) :
      Ends answers kind path name (.error (.malformed path cause)) [path]
  | alone {bytes : List UInt8} {document : Document} (named : nameFault? name = none)
      (told : answers.story = .ok bytes) (read : Document.ofBytes bytes = .ok document)
      (alone : document.sharedConstantsPath? = none) :
      Ends answers kind path name (.ok ⟨kind, document, none⟩) [path]
  | sharing {bytes : List UInt8} {document : Document} {other : String} {shared : Except Error Members}
      {asked : List String} (named : nameFault? name = none) (told : answers.story = .ok bytes)
      (read : Document.ofBytes bytes = .ok document) (shares : document.sharedConstantsPath? = some other)
      (ends : EndsShared answers.later other shared asked) :
      Ends answers kind path name (shared.map fun members => ⟨kind, document, some members⟩) (path :: asked)

section

variable {σ : Type} {fetch : Fetch (StateM σ)} {state : σ} {directories : Directories} {kind : StoryKind}
  {name other : String} {document : Document}

theorem run_load (fine : nameFault? name = none) :
    (load fetch directories kind name).run state =
      let told := fetch (directories.storyPath kind name) state
      match told.1 with
      | .error cause => (.error cause, told.2)
      | .ok bytes =>
          match Document.ofBytes bytes with
          | .error cause => (.error (.malformed (directories.storyPath kind name) cause), told.2)
          | .ok document => (loadShared fetch kind document).run told.2 := by
  rw [load_of_fine fine, run_bind, run_fetchAs]
  rcases fetch (directories.storyPath kind name) state with ⟨_ | bytes, after⟩
  · rfl
  · dsimp only
    cases Document.ofBytes bytes <;> rfl

theorem loadShared_of_fault {fault : NameFault} (shares : document.sharedConstantsPath? = some other)
    (refused : nameFault? other = some fault) :
    loadShared fetch kind document = ExceptT.mk (pure (.error (.invalidName other fault))) := by
  rw [loadShared, shares]
  dsimp only
  rw [checkName, refused]
  rfl

theorem run_loadShared (shares : document.sharedConstantsPath? = some other) (fine : nameFault? other = none) :
    (loadShared fetch kind document).run state =
      let told := fetch other state
      ((match told.1 with
        | .error cause => .error cause
        | .ok bytes => (constantsOfBytes other bytes).map (⟨kind, document, some ·⟩)), told.2) := by
  have reduced : loadShared fetch kind document =
      fetchAs fetch constantsOfBytes other >>= fun members => pure ⟨kind, document, some members⟩ := by
    rw [loadShared, shares]
    dsimp only
    rw [checkName, fine]
    rfl
  rw [reduced, run_bind, run_fetchAs]
  rcases fetch other state with ⟨_ | bytes, after⟩
  · rfl
  · dsimp only
    cases constantsOfBytes other bytes <;> rfl

theorem exists_endsShared (fetch : Fetch (StateM σ)) (state : σ) (kind : StoryKind) (before : List String)
    (shares : document.sharedConstantsPath? = some other) :
    ∃ shared asked, EndsShared (fun path => (fetch path state).1) other shared asked ∧
      ((loadShared fetch kind document).run state).1 = shared.map (⟨kind, document, some ·⟩) ∧
        ((loadShared (recorded fetch) kind document).run (state, before)).2.2 = before ++ asked := by
  cases named : nameFault? other with
  | some fault =>
      simp only [loadShared_of_fault shares named]
      exact ⟨_, _, .misnamed named, rfl, (List.append_nil before).symm⟩
  | none =>
      simp only [run_loadShared shares named, recorded]
      cases told : (fetch other state).1 with
      | error cause => exact ⟨_, _, .unfetched named told, rfl, rfl⟩
      | ok bytes =>
          dsimp only
          rw [constantsOfBytes]
          cases read : Json.decodeBytes Json.Decoder.json bytes with
          | error cause => exact ⟨_, _, .unread named told read, rfl, rfl⟩
          | ok value =>
              cases value with
              | object members => exact ⟨_, _, .whole named told read, rfl, rfl⟩
              | _ => exact ⟨_, _, .unfit named told read (fun _ => Json.noConfusion), rfl, rfl⟩

theorem load_ends (fetch : Fetch (StateM σ)) (state : σ) (directories : Directories) (kind : StoryKind)
    (name : String) :
    Ends (.of fetch state (directories.storyPath kind name)) kind (directories.storyPath kind name) name
      ((load fetch directories kind name).run state).1 (requests fetch state directories kind name) := by
  rw [requests]
  cases named : nameFault? name with
  | some fault =>
      rw [load_of_fault named, load_of_fault named]
      exact .misnamed named
  | none =>
      simp only [run_load named, recorded]
      generalize spelled : directories.storyPath kind name = path
      cases told : (fetch path state).1 with
      | error cause => exact .unfetched named told
      | ok bytes =>
          dsimp only
          cases read : Document.ofBytes bytes with
          | error cause => exact .unread named told read
          | ok document =>
              dsimp only
              cases shares : document.sharedConstantsPath? with
              | none =>
                  simp only [loadShared, shares]
                  exact .alone named told read shares
              | some other =>
                  obtain ⟨shared, asked, ends, result, requested⟩ :=
                    exists_endsShared fetch (fetch path state).2 kind [path] shares
                  rw [result, List.nil_append, requested]
                  exact .sharing named told read shares ends

end

section

variable {answers : Answers} {kind : StoryKind} {path name : String} {result : Except Error LoadedStory}
  {asked : List String}

theorem Answers.sharedPath?_of_read {bytes : List UInt8} {document : Document} (told : answers.story = .ok bytes)
    (read : Document.ofBytes bytes = .ok document) : answers.sharedPath? = document.sharedConstantsPath? := by
  simp [sharedPath?, document?, told, read, Except.toOption]

theorem EndsShared.asked_eq {later : String → Except Error (List UInt8)} {shared : Except Error Members}
    (ends : EndsShared later path shared asked) : asked = if nameFault? path = none then [path] else [] := by
  cases ends with
  | misnamed named => simp [named]
  | unfetched named | unread named | unfit named | whole named => simp [named]

theorem EndsShared.error_iff {later : String → Except Error (List UInt8)} {shared : Except Error Members}
    (ends : EndsShared later path shared asked) (cause : Error) :
    shared = .error cause ↔ (faultsOfShared later path).findSome? id = some cause := by
  cases ends with
  | misnamed named => simp [faultsOfShared, named]
  | unfetched named told => simp [faultsOfShared, named, told]
  | unread named told read => simp [faultsOfShared, named, told, read, Except.toOption]
  | whole named told read => simp [faultsOfShared, named, told, read, Except.toOption]
  | @unfit bytes value named told read unfit =>
      cases value with
      | object members => exact absurd rfl (unfit members)
      | _ => simp [faultsOfShared, named, told, read, Except.toOption]

theorem Ends.asked_eq (ends : Ends answers kind path name result asked) :
    asked = if nameFault? name = none
      then path :: (answers.sharedPath?.filter fun other => nameFault? other = none).toList else [] := by
  cases ends with
  | misnamed named => simp [named]
  | unfetched named told => simp [named, told, Answers.sharedPath?, Answers.document?, Except.toOption]
  | unread named told read => simp [named, told, read, Answers.sharedPath?, Answers.document?, Except.toOption]
  | alone named told read alone => simp [named, Answers.sharedPath?_of_read told read, alone]
  | sharing named told read shares ends =>
      rw [ends.asked_eq, Answers.sharedPath?_of_read told read, shares, if_pos named, Option.filter_some]
      simp only [decide_eq_true_eq]
      split <;> rfl

theorem Ends.error_iff (ends : Ends answers kind path name result asked) (cause : Error) :
    result = .error cause ↔ (answers.faults path name).findSome? id = some cause := by
  cases ends with
  | misnamed named => simp [Answers.faults, named]
  | unfetched named told => simp [Answers.faults, named, told]
  | unread named told read => simp [Answers.faults, named, told, read, Except.toOption]
  | alone named told read alone =>
      simp [Answers.faults, named, told, read, Except.toOption, Answers.sharedPath?_of_read told read, alone]
  | @sharing _ _ other shared _ named told read shares ends =>
      have before : (answers.faults path name).findSome? id = (faultsOfShared answers.later other).findSome? id := by
        simp [Answers.faults, named, told, read, Except.toOption, Answers.sharedPath?_of_read told read, shares]
      rw [before, ← ends.error_iff]
      cases shared <;> simp [Except.map]

theorem Ends.of_ok {story : LoadedStory} (ends : Ends answers kind path name (.ok story) asked) :
    story.kind = kind ∧ answers.document? = some story.document ∧
      ∀ members, story.shared = some members ↔ asked.length = 2 ∧ answers.shared? = some (.object members) := by
  generalize ended : Except.ok story = result at ends
  cases ends with
  | misnamed | unfetched | unread => cases ended
  | alone named told read alone =>
      cases ended
      simp [Answers.document?, told, read, Except.toOption]
  | sharing named told read shares ends =>
      cases ends with
      | misnamed | unfetched | unread | unfit => cases ended
      | whole named later taken =>
          cases ended
          simp [Answers.document?, Answers.shared?, Answers.sharedPath?_of_read told read, shares, told, read, later,
            taken, Except.toOption]

theorem Ends.ok_iff (ends : Ends answers kind path name result asked) (story : LoadedStory) :
    result = .ok story ↔ (∀ fault ∈ answers.faults path name, fault = none) ∧ story.kind = kind ∧
      answers.document? = some story.document ∧
        ∀ members, story.shared = some members ↔ asked.length = 2 ∧ answers.shared? = some (.object members) := by
  have faultless : (∀ fault ∈ answers.faults path name, fault = none) ↔ ∀ cause, result ≠ .error cause := by
    simp only [ne_eq, ends.error_iff, ← Option.eq_none_iff_forall_ne_some, List.findSome?_eq_none_iff, id_eq]
  cases result with
  | error cause => exact ⟨nofun, fun ⟨without, _⟩ => absurd rfl (faultless.mp without cause)⟩
  | ok loaded =>
      obtain ⟨same_kind, same_document, same_shared⟩ := ends.of_ok
      refine ⟨fun ended => ?_, fun ⟨_, kind_eq, document_eq, shared_iff⟩ => ?_⟩
      · cases ended
        exact ⟨faultless.mpr fun _ => nofun, ends.of_ok⟩
      · obtain ⟨_, document, shared⟩ := loaded
        obtain rfl : document = story.document := Option.some.inj (same_document.symm.trans document_eq)
        obtain rfl : shared = story.shared :=
          Option.ext fun members => (same_shared members).trans (shared_iff members).symm
        cases same_kind
        cases kind_eq
        rfl

end

/-- A load asks for its story if the name is fine, and for nothing else but the shared constants that the story names.
The first fault on the way is what it ends with, and then there is no session either. -/
theorem loading_is_all_or_nothing {σ τ : Type} (fetch : Fetch (StateM σ)) (state : σ) (directories : Directories)
    (kind : StoryKind) (name : String) :
    let path := directories.storyPath kind name
    let answers := Answers.of fetch state path
    let faults := answers.faults path name
    let result := ((load fetch directories kind name).run state).1
    let asked := requests fetch state directories kind name
    (asked = if nameFault? name = none
        then path :: (answers.sharedPath?.filter fun other => nameFault? other = none).toList else []) ∧
      (∀ other, answers.sharedPath? = some other ↔ ∃ bytes document, answers.story = .ok bytes ∧
        Document.ofBytes bytes = .ok document ∧ document.SharesFrom other) ∧
      (∀ cause, result = .error cause ↔ faults.findSome? id = some cause) ∧
      (∀ story, result = .ok story ↔ (∀ fault ∈ faults, fault = none) ∧ story.kind = kind ∧
        answers.document? = some story.document ∧
          ∀ members, story.shared = some members ↔ asked.length = 2 ∧ answers.shared? = some (.object members)) ∧
      ∀ (setting : Player.Setting τ) (saved : τ) (arguments : Player.Arguments) (cause : Error),
        ((load fetch {} arguments.kind arguments.story).run state).1 = .error cause →
          ((arguments.openSession setting fetch saved).run state).1 = .error (.load cause) := by
  intro path answers faults result asked
  have ends : Ends answers kind path name result asked := load_ends fetch state directories kind name
  refine ⟨ends.asked_eq, fun other => ?_, ends.error_iff, ends.ok_iff, fun setting saved arguments cause failed => ?_⟩
  · simp only [Answers.sharedPath?, Answers.document?, Option.bind_eq_some_iff, toOption_eq_some,
      Document.sharedConstantsPath?_eq_some_iff]
    exact ⟨fun ⟨document, ⟨bytes, told, read⟩, shares⟩ => ⟨bytes, document, told, read, shares⟩,
      fun ⟨bytes, document, told, read, shares⟩ => ⟨document, ⟨bytes, told, read⟩, shares⟩⟩
  · obtain ⟨after, ran⟩ : ∃ after, StateT.run (load fetch {} arguments.kind arguments.story).run state =
        (.error cause, after) := ⟨_, Prod.ext failed rfl⟩
    rw [Player.Arguments.openSession, StateT.run_bind, ran]
    rfl

theorem load_ends_at_listed_constants :
    let story : Json :=
      .object [("constants", .object [("paths", .object [("predefinedConstants", .string "shared")])])]
    let fetch : Fetch (StateM Unit) := fun path =>
      pure (.ok (if path = "shared" then Json.array [] else story).compact.toUTF8.toList)
    let arguments : Player.Arguments := ⟨"game", "first", .event, false, false, none⟩
    let fault : Error := .invalidConstants "shared"
    requests fetch () {} .event "first" = ["scripts/events/first", "shared"] ∧
      ((load fetch {} .event "first").run ()).1 = .error fault ∧
      ∀ setting : Player.Setting Unit, ((arguments.openSession setting fetch ()).run ()).1 = .error (.load fault) := by
  intro story fetch arguments fault
  obtain ⟨asked, -, failed, -, closed⟩ := loading_is_all_or_nothing fetch () {} .event "first"
  have ended := (failed fault).mpr (by decide +kernel)
  refine ⟨asked.trans (by decide +kernel), ended, fun setting => ?_⟩
  exact closed setting () arguments fault ended

end Loading
end BranchingStory
