import BranchingStory.Proofs.Save.Readable

/-!
How the unlocks in a save follow the ledger that is played with. The ledger is written whenever an id is new to it.
Naming a category that has no ids makes the category, and that alone is not written.
-/

namespace BranchingStory

/-! ## The ledger that is kept -/

namespace Playback

/-- The ledger that is kept when deeds have been done. -/
def keptAfter (kept : Ledger) (deeds : List Deed) : Ledger := (ledgersOf deeds).getLast?.getD kept

/-- A way in which the kept ledger is the same as the one that is played with. A commit that brings nothing new to
the ledger leaves it the same in this way. -/
structure Keeping (Told : Entry → Prop) (Same : Ledger → Ledger → Prop) : Prop where
  refl : ∀ ledger, Same ledger ledger
  settled : ∀ {kept ledger clock made}, Made Told clock made → ledger.lacks made.1 = false →
    Same kept ledger → Same kept (ledger.commit made.1 made.2).1

variable {Told : Entry → Prop} {Same : Ledger → Ledger → Prop} {clock : Nat → Instant} {kept : Ledger}

theorem Keeping.after (keeping : Keeping Told Same) {playback : Playback} (calls : List Call)
    (ahead : playback.stack.Ahead Told) (same : Same kept playback.teller.ledger) :
    Same (keptAfter kept ((playback.transcript clock calls).flatMap Exchange.deeds))
      (playback.after clock calls).teller.ledger := by
  let Kept (record : Record) : Prop := Same (record.left.getLast?.getD kept) record.ledger
  have held : Kept (Record.commitAll ⟨[], playback.teller.ledger⟩ (playback.commits clock calls)) := by
    refine List.foldlRecOn _ _ (show Kept ⟨[], playback.teller.ledger⟩ from same) fun record same made member => ?_
    have told := made_of_mem_commits ahead member
    change Same ((record.commit made).left.getLast?.getD kept) (record.ledger.commit made.1 made.2).1
    simp only [Record.commit]
    split
    · rw [List.getLast?_concat]
      exact keeping.refl _
    · rename_i unchanged
      rw [Ledger.commit_changed] at unchanged
      exact keeping.settled told (Bool.eq_false_iff.mpr unchanged) same
  rw [← record_course] at held
  exact held

/-! ## In what way they are the same -/

theorem keeping_slots :
    Keeping (fun _ => True) fun kept ledger => ∀ category, kept.slots category = ledger.slots category where
  refl _ _ := rfl
  settled _ settled same category := by
    rw [Ledger.slots_commit_of_settled settled]
    exact same category

theorem commit_eq_self {ledger : Ledger} {unlocks : Unlocks} (now : Instant)
    (settled : ledger.lacks unlocks = false) (named : ∀ category ∈ unlocks.entries, category.2 ≠ []) :
    ledger.commit unlocks now = (ledger, false) := by
  refine Ledger.commitEntries_of_holds fun category ids listed => ?_
  have reached : ∀ id ∈ ids.map (·.2), ledger.contains category id = true := by
    intro id member
    refine Ledger.lacks_eq_false_iff.mp settled category id ?_
    rw [Unlocks.ids, Catalog.get?_eq_some_iff.mpr listed]
    exact member
  cases found : ledger.categories.get? category with
  | some slots =>
      refine ⟨slots, rfl, fun id member => ?_⟩
      have held := reached id member
      rwa [Ledger.contains, Ledger.slots, found] at held
  | none =>
      -- The category has an id, which is held in it.
      obtain ⟨first, member⟩ := List.exists_mem_of_ne_nil ids (named _ listed)
      have held := reached first.2 (List.mem_map_of_mem member)
      rw [Ledger.contains, Ledger.slots, found] at held
      exact Bool.noConfusion held

def NamesNoEmpty (entry : Entry) : Prop := ∀ category ∈ entry.unlocked.entries, category.2 ≠ []

theorem keeping_ledger : Keeping NamesNoEmpty Eq where
  refl _ := rfl
  settled told settled same := by
    obtain ⟨entry, named, unlocks, -⟩ := told
    rw [commit_eq_self _ settled (unlocks ▸ named)]
    exact same

theorem unlock_settled {step : Step} {entry : Entry} {category : String} {ids : Members}
    (settled : step.teller.ledger.lacks entry.unlocked = false) (named : entry.unlocked.get? category = some ids) :
    (step.unlock clock entry).deeds = step.deeds ∧
      (step.unlock clock entry).teller.ledger.categories.get? category =
        some (step.teller.ledger.slots category) := by
  have some_named : entry.unlocked.isEmpty = false := by
    have listed := Catalog.get?_eq_some_iff.mp named
    rw [Catalog.isEmpty, List.isEmpty_eq_false_iff]
    exact List.ne_nil_of_mem listed
  have held := Ledger.lacks_eq_false_iff.mp settled category
  simp only [Step.unlock, some_named, Ledger.commit_changed, settled, Bool.false_eq_true, if_false, true_and]
  rw [Ledger.get?_commit_of_get? _ _ named, Slots.addAll_of_holds held]

end Playback

/-! ## Unlocks in a save -/

namespace Save

open Playback (Deed Exchange Call ledgersOf keptAfter)

namespace Backend

variable {σ : Type} {backend : Backend σ} {Good : σ → Prop} {saved : σ}

theorem Steady.read_perform_of_none (steady : backend.Steady Good) (good : Good saved) {deed : Deed}
    (none : deed.ledger? = none) :
    backend.read (backend.perform saved deed).1 unlocksKey = backend.read saved unlocksKey := by
  cases deed with
  | trace trace => rfl
  | keepUnlocks ledger => cases none
  | keepEffects consequences =>
      let Kept (after : σ) : Prop := Good after ∧ backend.read after unlocksKey = backend.read saved unlocksKey
      have kept : Kept (backend.performAll saved [.keepEffects consequences]).1 := by
        refine performAll_of_saves Kept ?_ ?_ ⟨good, rfl⟩
        · rintro after levels - ⟨good, same⟩
          exact ⟨steady.good_write _ _ (by decide) _ good,
            (steady.read_other _ _ (by decide) _ (by decide) (by decide) _ good).trans same⟩
        · exact fun after ledger listed => by simp at listed
      exact kept.2

theorem Steady.good_performAll (steady : backend.Steady Good) (good : Good saved) (deeds : List Deed) :
    Good (backend.performAll saved deeds).1 :=
  performAll_of_saves Good (fun _ _ _ good => steady.good_write _ _ (by decide) _ good)
    (fun _ _ _ good => steady.good_write _ _ (by decide) _ good) good

theorem Steady.good_perform (steady : backend.Steady Good) (good : Good saved) (deed : Deed) :
    Good (backend.perform saved deed).1 :=
  steady.good_performAll good [deed]

theorem Steady.read_perform (steady : backend.Steady Good)
    (succeeds : ∀ saved key text, (backend.write saved key text).1 = .ok ()) (good : Good saved) (deed : Deed) :
    backend.read (backend.perform saved deed).1 unlocksKey =
      deed.ledger?.elim (backend.read saved unlocksKey) fun ledger => .ok (some ledger.encode.compact) := by
  cases deed with
  | trace trace => rfl
  | keepEffects consequences => exact steady.read_perform_of_none good rfl
  | keepUnlocks ledger =>
      rw [saved_perform_keepUnlocks]
      exact steady.read_written _ _ (by decide) _ _ (Prod.ext (succeeds saved unlocksKey ledger.encode.compact) rfl)

theorem Steady.read_performAll (steady : backend.Steady Good)
    (succeeds : ∀ saved key text, (backend.write saved key text).1 = .ok ()) (good : Good saved) (deeds : List Deed) :
    backend.read (backend.performAll saved deeds).1 unlocksKey =
      (ledgersOf deeds).getLast?.elim (backend.read saved unlocksKey) fun ledger =>
        .ok (some ledger.encode.compact) := by
  induction deeds generalizing saved with
  | nil => rfl
  | cons deed rest ih =>
      have first := steady.read_perform succeeds good deed
      have later := ih (steady.good_perform good deed)
      rw [first] at later
      change backend.read (backend.performAll (backend.perform saved deed).1 rest).1 unlocksKey = _
      rw [later]
      cases deed with
      | trace trace => rfl
      | keepEffects consequences => rfl
      | keepUnlocks ledger =>
          have newest : ledgersOf (.keepUnlocks ledger :: rest) = ledger :: ledgersOf rest := rfl
          rw [newest, List.getLast?_cons]
          cases (ledgersOf rest).getLast? <;> rfl

theorem Steady.loadUnlocks_performAll (steady : backend.Steady Good)
    (succeeds : ∀ saved key text, (backend.write saved key text).1 = .ok ()) (good : Good saved) {deeds : List Deed}
    {ledger : Ledger} (loaded : backend.loadUnlocks saved = .ok ledger)
    (decoded : ∀ written, .keepUnlocks written ∈ deeds →
      Json.decodeText Ledger.decode written.encode.compact = .ok written) :
    backend.loadUnlocks (backend.performAll saved deeds).1 = .ok (keptAfter ledger deeds) := by
  have read := steady.read_performAll succeeds good deeds
  rw [keptAfter]
  cases last : (ledgersOf deeds).getLast? with
  | none =>
      rw [last] at read
      rwa [loadUnlocks, load_congr Ledger.decode .empty read]
  | some written =>
      rw [last] at read
      have taken := decoded written (Playback.mem_ledgersOf.mp (List.mem_of_getLast? last))
      rw [loadUnlocks, load, read]
      simp only [Option.elim, ok_bind, taken]
      rfl

end Backend

/-- The unlocks that are played with are those in the save: slot by slot in every category, and the categories are
the same too if no entry of the story names one without ids. -/
theorem unlocks_are_durable {σ π : Type} (setting : Session.Setting σ π) {Good : σ → Prop}
    (steady : setting.backend.Steady Good)
    (succeeds : ∀ saved key text, (setting.backend.write saved key text).1 = .ok ()) (story : Loading.LoadedStory)
    (parsed : story.Parsed) (options : Option Playback.Options) (assets : AssetBase) (saved : σ) (good : Good saved)
    (display : π) (session : Session σ π)
    (started : Session.ofStory setting saved display story options assets = .ok session) (calls : List Call)
    (lossless : ∀ exchange ∈ session.playback.transcript setting.clock calls,
      ∀ ledger, .keepUnlocks ledger ∈ exchange.deeds → ledger.Lossless) :
    let after := session.after setting calls
    ∃ loaded, setting.backend.loadUnlocks after.saved = .ok loaded ∧
      (∀ category, loaded.slots category = after.playback.teller.ledger.slots category) ∧
      ((∀ entry : Entry, entry.LiesIn story.document.story → Playback.NamesNoEmpty entry) →
        loaded = after.playback.teller.ledger) := by
  intro after
  obtain ⟨levels, ledger, autoplay, -, unlocks, -, rfl⟩ := (Session.ofStory_eq_ok_iff setting).mp started
  simp only [after, Session.saved_after, Session.playback_after]
  refine ⟨_, steady.loadUnlocks_performAll succeeds good unlocks ?_, ?_, ?_⟩
  · intro written listed
    obtain ⟨exchange, member, here⟩ := List.mem_flatMap.mp listed
    have storable : written.Within Json.Storable :=
      Playback.within_transcript (Playback.within_ofStory parsed _ (Backend.storable_of_loadUnlocks unlocks)) listed
    have whole := lossless exchange member written here
    rw [Ledger.decode_written whole.legible storable, Ledger.reread_eq_self whole storable]
  · exact Playback.keeping_slots.after calls (fun _ _ _ _ => trivial) fun _ => rfl
  · intro named
    refine Playback.keeping_ledger.after calls ?_ rfl
    intro context listed entry lies
    rw [List.mem_singleton.mp listed] at lies
    exact named entry lies

theorem named_picture_is_durable :
    let unlocking : Entry :=
      { Entry.line none "Look!" with unlocks := some (Catalog.empty.insert "pictures" [("first", .string "beach")]) }
    let bytes := Document.encode { story := [unlocking] } |>.compact.toUTF8.toList
    let story : Loading.LoadedStory :=
      { kind := .event, document := (Document.ofBytes bytes).toOption.getD default, shared := none }
    let setting : Session.Setting (Catalog String String) Unit :=
      { backend := memory, presentation := { render := fun _ _ => (.ok (), ()) }, clock := default }
    story.Parsed ∧
      ∃ session, Session.ofStory setting .empty () story none {} = .ok session ∧
        ∃ loaded, memory.loadUnlocks (session.after setting [.start]).saved = .ok loaded ∧
          loaded.contains "pictures" (.string "beach") = true := by
  intro unlocking bytes story setting
  let begun := story.playback .empty { storyName := story.document.name? }
  let calls : List Call := [.start]
  have parsed : story.Parsed := Loading.LoadedStory.parsed_of_isOk .event (by decide +kernel)
  have wordsOnly : ∀ exchange ∈ begun.transcript setting.clock calls, ∀ ledger ∈ ledgersOf exchange.deeds,
      ∀ slots ∈ ledger.categories.values, ∀ record ∈ slots.values,
        record.id.numbers.isEmpty = true ∧ Instant.ofText? record.timestamp.text = some record.timestamp := by
    decide +kernel
  obtain ⟨loaded, read, slots, -⟩ := unlocks_are_durable setting memory_steady (fun _ _ _ => rfl) story parsed none
    {} .empty trivial () { playback := begun, saved := .empty, display := () } rfl calls
    fun exchange member ledger listed slots held record inside => by
      obtain ⟨none, time⟩ :=
        wordsOnly exchange member ledger (Playback.mem_ledgersOf.mpr listed) slots held record inside
      refine ⟨fun number here => ?_, time⟩
      rw [List.isEmpty_iff.mp none] at here
      exact absurd here List.not_mem_nil
  refine ⟨parsed, _, rfl, loaded, read, ?_⟩
  rw [Ledger.contains, slots "pictures"]
  decide +kernel

end Save
end BranchingStory
