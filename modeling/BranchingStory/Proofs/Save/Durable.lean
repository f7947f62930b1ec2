import BranchingStory.Proofs.Playback.Levels
import BranchingStory.Proofs.Results
import BranchingStory.Proofs.Save.Backends
import Mathlib.Data.List.Forall2

/-!
How the affection levels in a save follow those that are played with. Each change of a level is followed by an
attempt to write all levels, and nothing else changes or writes them. So what the last attempt left, if it
succeeded, is never out of date, whatever became of those before.
-/

namespace BranchingStory

/-! ## What a text tells of levels -/

theorem Members.map_filter_numeric (members : Members) (name : String) :
    (members.numeric.filter (·.1 = name)).map (·.2) = (members.filter (·.1 = name)).filterMap (·.2.float?) := by
  induction members with
  | nil => rfl
  | cons first rest ih =>
      obtain ⟨head, value⟩ := first
      cases number : value.float? with
      | none =>
          have skipped : Members.numeric ((head, value) :: rest) = Members.numeric rest := by
            simp [Members.numeric, number]
          rw [skipped, ih]
          by_cases same : head = name <;> simp [same, number]
      | some level =>
          have counted : Members.numeric ((head, value) :: rest) = (head, level) :: Members.numeric rest := by
            simp [Members.numeric, number]
          rw [counted]
          by_cases same : head = name <;> simp [same, number, ih]

namespace Variables

variable {scope other : Variables} {name : String}

/-- The level of a character: the last number that stands under the name. -/
def levelOf? (scope : Variables) (name : String) : Option Float :=
  match scope.get? affectionName with
  | some (.object members) => ((members.filter (·.1 = name)).filterMap (·.2.float?)).getLast?
  | _ => none

/-- A text is the JSON of the levels: an object in the order of the names, with a number for each character who has a
level, or null in the place of a number that JSON does not know. -/
def ToldBy (scope : Variables) (text : String) : Prop :=
  ∃ written : Members, text = (Json.object written).compact ∧ (written.map (·.1)).Pairwise (· < ·) ∧
    ∀ name value, (name, value) ∈ written ↔
      ∃ level, scope.levelOf? name = some level ∧
        value = if level.isFinite then .number (.real level) else .null

def storesAfter (scope : Variables) : List (String × Float) → List Variables
  | [] => []
  | change :: rest => scope.raise change :: (scope.raise change).storesAfter rest

theorem get?_affection (scope : Variables) (name : String) : scope.affection.get? name = scope.levelOf? name := by
  rw [affection, levelOf?]
  cases scope.get? affectionName with
  | none => rfl
  | some value =>
      cases value with
      | object members =>
          change (Catalog.ofList (Members.numeric members)).get? name = _
          rw [Catalog.get?_ofList]
          exact congrArg List.getLast? (Members.map_filter_numeric members name)
      | null => rfl
      | bool value => rfl
      | number value => rfl
      | string value => rfl
      | array items => rfl

theorem toldBy_encode (scope : Variables) : scope.ToldBy scope.affection.encode.compact := by
  refine ⟨_, rfl, ?_, fun name value => ?_⟩
  · rw [List.map_map]
    exact scope.affection.ascending_keys.imp compareOfLessAndEq_eq_lt.mp
  · simp only [← get?_affection, Catalog.get?_eq_some_iff, List.mem_map, Prod.exists, Prod.mk.injEq]
    constructor
    · rintro ⟨_, level, listed, rfl, rfl⟩
      exact ⟨level, listed, rfl⟩
    · rintro ⟨level, listed, rfl⟩
      exact ⟨name, level, listed, rfl, rfl⟩

theorem ToldBy.congr {text : String} (told : scope.ToldBy text)
    (same : other.get? affectionName = scope.get? affectionName) : other.ToldBy text := by
  rw [ToldBy] at told ⊢
  simp only [levelOf?, same] at told ⊢
  exact told

theorem levelsAfter_eq_map (scope : Variables) (changes : List (String × Float)) :
    scope.levelsAfter changes = (scope.storesAfter changes).map affection := by
  induction changes generalizing scope with
  | nil => rfl
  | cons change rest ih => exact congrArg (_ :: ·) (ih (scope.raise change))

theorem getLast?_storesAfter (changes : List (String × Float)) :
    (scope.storesAfter changes).getLast?.getD scope = changes.foldl raise scope := by
  induction changes generalizing scope with
  | nil => rfl
  | cons change rest ih => rw [storesAfter, List.getLast?_cons, Option.getD_some, ih, List.foldl_cons]

end Variables

/-- The variables as they stand right after each change of a level that a call makes. -/
def Playback.Exchange.stores (exchange : Exchange) : List Variables :=
  exchange.before.teller.scope.storesAfter exchange.levelChanges

namespace Save

open Playback (Deed Exchange Call)

structure Attempt where
  key : String
  text : String
  result : Except Error Unit
  deriving DecidableEq

def affectionAttempts (attempts : List Attempt) : List Attempt :=
  attempts.filter fun attempt => attempt.key = affectionKey

def affectionTexts (attempts : List Attempt) : List String := (affectionAttempts attempts).map (·.text)

theorem affectionTexts_eq (attempts : List Attempt) :
    affectionTexts attempts =
      ((attempts.map fun attempt => (attempt.key, attempt.text)).filter (·.1 = affectionKey)).map (·.2) := by
  rw [affectionTexts, affectionAttempts, List.filter_map, List.map_map]
  rfl

namespace Backend

variable {σ : Type} {backend : Backend σ}

def recording (backend : Backend σ) : Backend (σ × List Attempt) where
  read saved := backend.read saved.1
  write saved key text :=
    let (result, after) := backend.write saved.1 key text
    (result, (after, saved.2 ++ [⟨key, text, result⟩]))

theorem saved_follow_changed (kept : Kept σ) (levels : Affection) :
    (backend.follow kept (.changed levels)).saved = (backend.saveAffection kept.saved levels).2 := by
  simp only [follow]
  split
  · rename_i outcome
    rw [outcome]
  · rename_i outcome
    rw [outcome]

theorem saved_perform_keepUnlocks (saved : σ) (ledger : Ledger) :
    (backend.perform saved (.keepUnlocks ledger)).1 = (backend.saveUnlocks saved ledger).2 := by
  simp only [perform]
  split
  · rename_i outcome
    rw [outcome]
  · rename_i outcome
    rw [outcome]

/-- The rule for deeds: what the writes of their levels and ledgers keep, they all keep. -/
theorem performAll_of_saves (Holds : σ → Prop) {deeds : List Deed}
    (levels : ∀ saved levels, levels ∈ Playback.levelsOf deeds → Holds saved →
      Holds (backend.saveAffection saved levels).2)
    (unlocks : ∀ saved ledger, .keepUnlocks ledger ∈ deeds → Holds saved → Holds (backend.saveUnlocks saved ledger).2)
    {saved : σ} (holds : Holds saved) : Holds (backend.performAll saved deeds).1 := by
  have followed : ∀ (consequences : List Variables.Consequence) (kept : Kept σ),
      (∀ saved levels, levels ∈ consequences.filterMap Variables.Consequence.levels? → Holds saved →
        Holds (backend.saveAffection saved levels).2) →
        Holds kept.saved → Holds (consequences.foldl backend.follow kept).saved := by
    intro consequences
    induction consequences with
    | nil => exact fun _ _ holds => holds
    | cons first rest ih =>
        intro kept keeps holds
        cases first with
        | ignored warning => exact ih _ keeps holds
        | changed levels =>
            refine ih _ (fun saved other later => keeps saved other (List.mem_cons_of_mem _ later)) ?_
            rw [saved_follow_changed]
            exact keeps _ levels List.mem_cons_self holds
  induction deeds generalizing saved with
  | nil => exact holds
  | cons deed rest ih =>
      change Holds (backend.performAll (backend.perform saved deed).1 rest).1
      refine ih (fun saved other later => levels saved other (List.mem_append_right _ later))
        (fun saved ledger later => unlocks saved ledger (List.mem_cons_of_mem _ later)) ?_
      cases deed with
      | trace trace => exact holds
      | keepEffects consequences =>
          exact followed consequences _ (fun saved other here => levels saved other (List.mem_append_left _ here)) holds
      | keepUnlocks ledger =>
          rw [saved_perform_keepUnlocks]
          exact unlocks saved ledger List.mem_cons_self holds

theorem performAll_append (saved : σ) (deeds more : List Deed) :
    (backend.performAll saved (deeds ++ more)).1 =
      (backend.performAll (backend.performAll saved deeds).1 more).1 := by
  induction deeds generalizing saved with
  | nil => rfl
  | cons deed rest ih => exact ih (backend.perform saved deed).1

theorem recording_performAll (saved : σ × List Attempt) (deeds : List Deed) :
    (backend.recording.performAll saved deeds).1.1 = (backend.performAll saved.1 deeds).1 := by
  have followed : ∀ (consequences : List Variables.Consequence) (kept : Kept (σ × List Attempt))
      (plain : Kept σ), kept.saved.1 = plain.saved →
        (consequences.foldl backend.recording.follow kept).saved.1 =
          (consequences.foldl backend.follow plain).saved := by
    intro consequences
    induction consequences with
    | nil => exact fun kept plain same => same
    | cons first rest ih =>
        intro kept plain same
        refine ih _ _ ?_
        cases first with
        | ignored warning => exact same
        | changed levels =>
            rw [saved_follow_changed, saved_follow_changed, ← same]
            rfl
  induction deeds generalizing saved with
  | nil => rfl
  | cons deed rest ih =>
      have here : (backend.recording.perform saved deed).1.1 = (backend.perform saved.1 deed).1 := by
        cases deed with
        | trace trace => rfl
        | keepEffects consequences => exact followed consequences _ _ rfl
        | keepUnlocks ledger =>
            rw [saved_perform_keepUnlocks, saved_perform_keepUnlocks]
            rfl
      change (backend.recording.performAll (backend.recording.perform saved deed).1 rest).1.1 = _
      rw [ih, here]
      rfl

/-! ### What is attempted -/

theorem texts_follow (noted : Kept (σ × List Attempt)) (consequence : Variables.Consequence) :
    (backend.recording.follow noted consequence).saved.2.map (fun attempt => (attempt.key, attempt.text)) =
      noted.saved.2.map (fun attempt => (attempt.key, attempt.text)) ++
        consequence.levels?.toList.map fun levels => (affectionKey, levels.encode.compact) := by
  cases consequence with
  | ignored warning => exact (List.append_nil _).symm
  | changed levels =>
      rw [saved_follow_changed]
      simp [saveAffection, recording, Variables.Consequence.levels?]

theorem texts_foldl_follow (backend : Backend σ) (noted : Kept (σ × List Attempt)) (consequences : List Variables.Consequence) :
    (consequences.foldl backend.recording.follow noted).saved.2.map (fun attempt => (attempt.key, attempt.text)) =
      noted.saved.2.map (fun attempt => (attempt.key, attempt.text)) ++
        (consequences.filterMap Variables.Consequence.levels?).map fun levels =>
          (affectionKey, levels.encode.compact) := by
  induction consequences generalizing noted with
  | nil => exact (List.append_nil _).symm
  | cons first rest ih =>
      rw [List.foldl_cons, ih, texts_follow, List.append_assoc, ← List.map_append]
      cases first <;> rfl

theorem attempts_perform (saved : σ × List Attempt) (deed : Deed) :
    affectionTexts (backend.recording.perform saved deed).1.2 =
      affectionTexts saved.2 ++ deed.levels.map (·.encode.compact) := by
  cases deed with
  | trace trace => exact (List.append_nil _).symm
  | keepEffects consequences =>
      have texts := backend.texts_foldl_follow { saved } consequences
      have followed : (backend.recording.perform saved (.keepEffects consequences)).1 =
          (consequences.foldl backend.recording.follow { saved }).saved := rfl
      have among : ∀ written ∈ (consequences.filterMap Variables.Consequence.levels?).map fun levels =>
          (affectionKey, levels.encode.compact), decide (written.1 = affectionKey) = true := by
        intro written listed
        obtain ⟨levels, -, rfl⟩ := List.mem_map.mp listed
        exact decide_eq_true rfl
      rw [followed, affectionTexts_eq, texts, affectionTexts_eq, List.filter_append, List.map_append,
        List.filter_eq_self.mpr among, List.map_map]
      rfl
  | keepUnlocks ledger =>
      have apart : unlocksKey ≠ affectionKey := by decide
      rw [saved_perform_keepUnlocks]
      simp [saveUnlocks, recording, affectionTexts, affectionAttempts, apart, Deed.levels]

theorem attempts_performAll (backend : Backend σ) (saved : σ × List Attempt) (deeds : List Deed) :
    affectionTexts (backend.recording.performAll saved deeds).1.2 =
      affectionTexts saved.2 ++ (Playback.levelsOf deeds).map (·.encode.compact) := by
  induction deeds generalizing saved with
  | nil => exact (List.append_nil _).symm
  | cons deed rest ih =>
      change affectionTexts (backend.recording.performAll (backend.recording.perform saved deed).1 rest).1.2 = _
      rw [ih, attempts_perform, List.append_assoc, ← List.map_append]
      rfl

/-! ### What is kept -/

/-- If the last attempt to write levels succeeded, what it wrote is read. -/
def Upheld (backend : Backend σ) (saved : σ × List Attempt) : Prop :=
  ∀ last, (affectionAttempts saved.2).getLast? = some last → last.result = .ok () →
    backend.read saved.1 affectionKey = .ok (some last.text)

theorem KeepsLevels.upheld_saveAffection (keeps : backend.KeepsLevels) (saved : σ × List Attempt) (levels : Affection) :
    backend.Upheld (backend.recording.saveAffection saved levels).2 := by
  intro last final succeeded
  cases written : backend.write saved.1 affectionKey levels.encode.compact with
  | mk result after =>
      simp only [saveAffection, recording, written, affectionAttempts, List.filter_append, List.filter_singleton,
        decide_true, cond_true, List.getLast?_concat, Option.some.injEq] at final ⊢
      subst final
      simp only at succeeded ⊢
      exact keeps.read_written _ _ _ (succeeded ▸ written)

theorem KeepsLevels.upheld_saveUnlocks (keeps : backend.KeepsLevels) {saved : σ × List Attempt} (ledger : Ledger)
    (upheld : backend.Upheld saved) : backend.Upheld (backend.recording.saveUnlocks saved ledger).2 := by
  intro last final succeeded
  have apart : ¬ unlocksKey = affectionKey := by decide
  have unchanged : affectionAttempts (backend.recording.saveUnlocks saved ledger).2.2 = affectionAttempts saved.2 := by
    simp [saveUnlocks, recording, affectionAttempts, apart]
  rw [unchanged] at final
  exact keeps.read_kept _ _ _ (upheld last final succeeded)

theorem KeepsLevels.upheld_performAll (keeps : backend.KeepsLevels) {saved : σ × List Attempt}
    (upheld : backend.Upheld saved) (deeds : List Deed) :
    backend.Upheld (backend.recording.performAll saved deeds).1 :=
  performAll_of_saves backend.Upheld (fun saved levels _ _ => keeps.upheld_saveAffection saved levels)
    (fun _ ledger _ upheld => keeps.upheld_saveUnlocks ledger upheld) upheld

end Backend

/-! ## Levels in a save -/

/-- In memory, in any folder, and wherever else levels are kept, every attempt to write levels tells them as they stand
after one of the changes, in order. If the last one succeeded, what is read is the levels that are played with; and no
call changes levels but by such changes. -/
theorem affection_is_durable :
    memory.KeepsLevels ∧ (∀ path, (folder path).KeepsLevels) ∧
      ∀ {σ : Type} (backend : Backend σ), backend.KeepsLevels →
        ∀ (playback : Playback) (clock : Nat → Instant) (saved : σ) (calls : List Call),
          let exchanges := playback.transcript clock calls
          let deeds := exchanges.flatMap Exchange.deeds
          let attempts := affectionAttempts (backend.recording.performAll (saved, []) deeds).1.2
          List.Forall₂ (fun attempt scope => Variables.ToldBy scope attempt.text) attempts
              (exchanges.flatMap Exchange.stores) ∧
            (∀ last, attempts.getLast? = some last → last.result = .ok () →
              ∃ text, backend.read (backend.performAll saved deeds).1 affectionKey = .ok (some text) ∧
                (playback.after clock calls).teller.scope.ToldBy text) ∧
            ∀ exchange ∈ exchanges,
              exchange.after.teller.scope.get? affectionName =
                (exchange.stores.getLast?.getD exchange.before.teller.scope).get? affectionName := by
  refine ⟨memory_steady.keepsLevels, folder_keepsLevels, ?_⟩
  intro σ backend keeps playback clock saved calls exchanges deeds attempts
  have texts : attempts.map (·.text) = (exchanges.flatMap Exchange.levels).map (·.encode.compact) := by
    have attempted := backend.attempts_performAll (saved, []) deeds
    rwa [Playback.levelsOf_transcript] at attempted
  refine ⟨?_, ?_, ?_⟩
  · have same : exchanges.flatMap Exchange.levels = (exchanges.flatMap Exchange.stores).map Variables.affection := by
      rw [List.map_flatMap]
      exact congrArg (exchanges.flatMap ·) (funext fun exchange => Variables.levelsAfter_eq_map _ _)
    rw [same, List.map_map, ← List.forall₂_eq_eq_eq, List.forall₂_map_left_iff, List.forall₂_map_right_iff] at texts
    exact texts.imp fun attempt scope written => by
      rw [written]
      exact scope.toldBy_encode
  · intro last final succeeded
    have start : backend.Upheld (saved, []) := by
      intro last none
      simp [affectionAttempts] at none
    have read := keeps.upheld_performAll start deeds last final succeeded
    rw [Backend.recording_performAll] at read
    have newest : ((exchanges.flatMap Exchange.levels).map (·.encode.compact)).getLast? = some last.text := by
      rw [← texts, List.getLast?_map, final]
      rfl
    rw [List.getLast?_map] at newest
    obtain ⟨levels, written, text⟩ := Option.map_eq_some_iff.mp newest
    have current := Playback.getLast?_levels playback clock calls
    rw [written, Option.getD_some] at current
    refine ⟨last.text, read, ?_⟩
    rw [← text, current]
    exact Variables.toldBy_encode _
  · intro exchange member
    rw [Exchange.stores, Variables.getLast?_storesAfter]
    exact (Playback.follows_transcript member).changed

theorem second_greeting_is_durable :
    let greeting : Choice :=
      { text := "Wave"
        effects := some ⟨[(affectionName,
          .object [("Bob", .number (.integer 2)), ("Alice", .number (.real 0.5))])]⟩ }
    let playback := Playback.Setup.playback {} [{ Entry.blank with responses := some [greeting] }]
    let calls : List Call := [.start, .event (.choose 0)]
    let deeds := (playback.transcript default calls).flatMap Exchange.deeds
    let saved : List Bool × Catalog String String := ([false], .empty)
    let both := "\x7b\"Alice\":0.5,\"Bob\":2.0\x7d"
    patchy.KeepsLevels ∧
      affectionAttempts (patchy.recording.performAll (saved, []) deeds).1.2 =
        [⟨affectionKey, "\x7b\"Bob\":2.0\x7d", .error (.io affectionKey "refused")⟩, ⟨affectionKey, both, .ok ()⟩] ∧
      patchy.read (patchy.performAll saved deeds).1 affectionKey = .ok (some both) ∧
      (playback.after default calls).teller.scope.ToldBy both := by
  intro greeting playback calls deeds saved both
  have attempts : affectionAttempts (patchy.recording.performAll (saved, []) deeds).1.2 =
      [⟨affectionKey, "\x7b\"Bob\":2.0\x7d", .error (.io affectionKey "refused")⟩, ⟨affectionKey, both, .ok ()⟩] := by
    decide +kernel
  have stored : patchy.read (patchy.performAll saved deeds).1 affectionKey = .ok (some both) := by decide +kernel
  obtain ⟨-, -, durable⟩ := affection_is_durable
  obtain ⟨-, kept, -⟩ := durable patchy patchy_steady.keepsLevels playback default saved calls
  obtain ⟨text, read, told⟩ := kept ⟨affectionKey, both, .ok ()⟩ (congrArg List.getLast? attempts) rfl
  obtain rfl : both = text := Option.some.inj (Except.ok.inj (stored.symm.trans read))
  exact ⟨patchy_steady.keepsLevels, attempts, stored, told⟩

end Save
end BranchingStory
