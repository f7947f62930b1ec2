import BranchingStory.Proofs.Loading.Affection
import BranchingStory.Proofs.Loading.Finite
import BranchingStory.Proofs.Save.Stored
import BranchingStory.Proofs.Session.Course

/-!
A playthrough never spoils the save that it goes on. Whatever it writes is read again: levels are finite, ids
come from documents or from ledgers that were read, and a write that is refused leaves what was there.
-/

namespace BranchingStory

open Playback (Deed Call Exchange)

namespace Save
namespace Backend

variable {σ α : Type} {backend : Backend σ}

/-! ## What is read after a write -/

/-- Levels and unlocks can be loaded. -/
structure Readable (backend : Backend σ) (saved : σ) : Prop where
  levels : ∃ levels, backend.loadAffection saved = .ok levels
  ledger : ∃ ledger, backend.loadUnlocks saved = .ok ledger

theorem load_congr (decode : Json.Decoder α) (missing : α) {saved after : σ} {key : String}
    (same : backend.read after key = backend.read saved key) :
    backend.load decode missing after key = backend.load decode missing saved key := by
  rw [load, same, load]

variable {saved : σ} {Good : σ → Prop}

theorem load_of_none {decode : Json.Decoder α} {missing : α} {key : String}
    (none : backend.read saved key = .ok none) : backend.load decode missing saved key = .ok missing := by
  rw [load, none, ok_bind]
  rfl

theorem Steady.exists_load_write (steady : backend.Steady Good) (good : Good saved) {decode : Json.Decoder α}
    {missing value : α} {key text : String} (known : key ∈ keys)
    (before : ∃ value, backend.load decode missing saved key = .ok value)
    (decoded : Json.decodeText decode text = .ok value) :
    ∃ value, backend.load decode missing (backend.write saved key text).2 key = .ok value := by
  cases written : backend.write saved key text with
  | mk result after =>
      cases result with
      | error cause => rwa [load_congr decode missing (steady.read_refused saved key known _ _ _ good written)]
      | ok done =>
          refine ⟨value, ?_⟩
          rw [load, steady.read_written saved key known _ _ written, ok_bind]
          simp only [decoded]
          rfl

theorem Readable.saveAffection (readable : backend.Readable saved) (steady : backend.Steady Good) (good : Good saved)
    {levels read : Affection} (decoded : Json.decodeText Affection.decode levels.encode.compact = .ok read) :
    backend.Readable (backend.saveAffection saved levels).2 where
  levels := steady.exists_load_write good (by decide) readable.levels decoded
  ledger := by
    have apart := steady.read_other saved affectionKey (by decide) unlocksKey (by decide) (by decide)
      levels.encode.compact good
    rw [loadUnlocks, Backend.saveAffection, load_congr Ledger.decode .empty apart]
    exact readable.ledger

theorem Readable.saveUnlocks (readable : backend.Readable saved) (steady : backend.Steady Good) (good : Good saved)
    {ledger read : Ledger} (decoded : Json.decodeText Ledger.decode ledger.encode.compact = .ok read) :
    backend.Readable (backend.saveUnlocks saved ledger).2 where
  levels := by
    have apart := steady.read_other saved unlocksKey (by decide) affectionKey (by decide) (by decide)
      ledger.encode.compact good
    rw [loadAffection, Backend.saveUnlocks, load_congr Affection.decode .empty apart]
    exact readable.levels
  ledger := steady.exists_load_write good (by decide) readable.ledger decoded

theorem decoded_of_load {decode : Json.Decoder α} {missing value : α} {key : String}
    (loaded : backend.load decode missing saved key = .ok value) :
    value = missing ∨ ∃ text, Json.decodeText decode text = .ok value := by
  obtain ⟨stored, _, taken⟩ := bind_eq_ok.mp loaded
  cases stored with
  | none => exact .inl (Except.ok.inj taken).symm
  | some text =>
      cases decoded : Json.decodeText decode text with
      | error cause => simp [decoded, Except.mapError] at taken
      | ok read =>
          simp only [decoded, Except.mapError] at taken
          exact .inr ⟨text, Except.ok.inj taken ▸ decoded⟩

theorem sound_of_loadUnlocks {ledger : Ledger} (loaded : backend.loadUnlocks saved = .ok ledger) {slot : UInt32}
    {record : UnlockRecord} (held : ledger.Holds slot record) : record.Sound (Json.deepest - 3) := by
  rcases decoded_of_load loaded with rfl | ⟨text, decoded⟩
  · obtain ⟨category, listed⟩ := held
    exact absurd listed List.not_mem_nil
  · exact Ledger.sound_of_decodeText decoded held

theorem storable_of_loadUnlocks {ledger : Ledger} (loaded : backend.loadUnlocks saved = .ok ledger) :
    ledger.Within Json.Storable :=
  fun _ _ held => (sound_of_loadUnlocks loaded held).id

theorem timed_of_loadUnlocks {ledger : Ledger} (loaded : backend.loadUnlocks saved = .ok ledger) : ledger.Timed :=
  fun _ _ held => (sound_of_loadUnlocks loaded held).timestamp

end Backend
end Save

/-! ## What a playthrough writes -/

/-- The finite numbers and the timestamps that a deed writes are read again, each on its own. -/
def Playback.Deed.Legible : Deed → Prop
  | .trace _ => True
  | .keepEffects consequences => ∀ levels ∈ consequences.filterMap Variables.Consequence.levels?, levels.Legible
  | .keepUnlocks ledger => ledger.Legible

instance : (deed : Deed) → Decidable deed.Legible
  | .trace _ => .isTrue trivial
  | .keepEffects consequences => inferInstanceAs
      (Decidable (∀ levels ∈ consequences.filterMap Variables.Consequence.levels?, levels.Legible))
  | .keepUnlocks ledger => inferInstanceAs (Decidable ledger.Legible)

namespace Playback

variable {playback : Playback} {clock : Nat → Instant} {calls : List Call}

theorem within_ofStory {story : Loading.LoadedStory} (parsed : story.Parsed) (teller : Teller)
    (recorded : teller.ledger.Within Json.Storable) : Within Json.Storable (.ofStory story.document.story teller) where
  ahead context listed entry lies := by
    rw [List.mem_singleton.mp listed] at lies
    exact lies.storable parsed.taken.story
  recorded := recorded

theorem decode_levels (finite : playback.teller.scope.FiniteLevels)
    (legible : ∀ exchange ∈ playback.transcript clock calls, ∀ deed ∈ exchange.deeds, deed.Legible)
    {levels : Affection} (written : levels ∈ levelsOf ((playback.transcript clock calls).flatMap Exchange.deeds)) :
    Json.decodeText Affection.decode levels.encode.compact = .ok levels.reread := by
  obtain ⟨deed, listed, here⟩ := List.mem_flatMap.mp written
  obtain ⟨exchange, member, left⟩ := List.mem_flatMap.mp listed
  rw [levelsOf_transcript, (levels_course playback clock calls).1] at written
  refine Affection.decode_written ?_ (finite.levelsAfter _ levels written)
  have single := legible exchange member deed left
  cases deed with
  | keepEffects consequences => exact single levels here
  | trace trace => exact absurd here List.not_mem_nil
  | keepUnlocks ledger => exact absurd here List.not_mem_nil

theorem decode_ledger (within : playback.Within Json.Storable)
    (legible : ∀ exchange ∈ playback.transcript clock calls, ∀ deed ∈ exchange.deeds, deed.Legible)
    {ledger : Ledger} (written : Deed.keepUnlocks ledger ∈ (playback.transcript clock calls).flatMap Exchange.deeds) :
    Json.decodeText Ledger.decode ledger.encode.compact = .ok ledger.reread := by
  obtain ⟨exchange, member, left⟩ := List.mem_flatMap.mp written
  exact Ledger.decode_written (legible exchange member _ left) (within_transcript within written)

end Playback

namespace Save

/-- In memory, in a folder whose path stays put, and on whatever else holds what is written steady, a save that can be
loaded can be loaded again after any calls, whichever writes are refused. -/
theorem saves_stay_readable :
    memory.Steady (fun _ => True) ∧ (∀ path, (folder path).Steady (·.StaysPut path)) ∧
      ∀ {σ π : Type} (setting : Session.Setting σ π) {Good : σ → Prop}, setting.backend.Steady Good →
        ∀ story : Loading.LoadedStory, story.Parsed →
          ∀ (options : Option Playback.Options) (assets : AssetBase) (saved : σ) (display : π), Good saved →
            setting.backend.Readable saved → (∃ autoplay, setting.backend.preference saved autoplayKey = .ok autoplay) →
              ∃ session, Session.ofStory setting saved display story options assets = .ok session ∧
                ∀ calls,
                  (∀ exchange ∈ session.playback.transcript setting.clock calls, ∀ deed ∈ exchange.deeds, deed.Legible) →
                    setting.backend.Readable (session.after setting calls).saved := by
  refine ⟨memory_steady, folder_steady, ?_⟩
  intro σ π setting Good steady story parsed options assets saved display good readable preference
  obtain ⟨levels, affection⟩ := readable.levels
  obtain ⟨ledger, unlocks⟩ := readable.ledger
  obtain ⟨autoplay, preferred⟩ := preference
  refine ⟨_, (Session.ofStory_eq_ok_iff setting).mpr ⟨levels, ledger, autoplay, affection, unlocks, preferred, rfl⟩, ?_⟩
  intro calls legible
  have finite := parsed.finiteLevels levels
  rw [Session.saved_after]
  refine (Backend.performAll_of_saves (fun saved => Good saved ∧ setting.backend.Readable saved) ?_ ?_
    ⟨good, readable⟩).2
  · rintro saved levels written ⟨good, readable⟩
    exact ⟨steady.good_write _ _ (by decide) _ good,
      readable.saveAffection steady good (Playback.decode_levels finite legible written)⟩
  · rintro saved ledger written ⟨good, readable⟩
    have storable := Backend.storable_of_loadUnlocks unlocks
    exact ⟨steady.good_write _ _ (by decide) _ good, readable.saveUnlocks steady good
      (Playback.decode_ledger (Playback.within_ofStory parsed _ storable) legible written)⟩

theorem picture_stays_readable :
    let picture : Json := .object [("pages", .array [.number (.integer 1), .number (.real 2.5)])]
    let unlocking : Entry :=
      { Entry.line none "Look!" with unlocks := some (Catalog.empty.insert "pictures" [("first", picture)]) }
    let written : Document := { story := Loading.greeting "Alice" (.real 0.5) ++ [unlocking] }
    let bytes := written.encode.compact.toUTF8.toList
    let story : Loading.LoadedStory :=
      { kind := .event, document := (Document.ofBytes bytes).toOption.getD default, shared := none }
    let setting : Session.Setting Files.Disk Unit :=
      { backend := folder "saves/first", presentation := { render := fun _ _ => (.ok (), ()) }, clock := default }
    let disk := Files.Disk.blank ["game"]
    let calls : List Call := [.start, .event (.choose 0)]
    setting.backend.Steady (·.StaysPut "saves/first") ∧ disk.StaysPut "saves/first" ∧ story.Parsed ∧
      ∃ session, Session.ofStory setting disk () story none {} = .ok session ∧
        setting.backend.Readable (session.after setting calls).saved ∧
        (session.after setting calls).saved.files.map (·.1) =
          ["saves/first/affectionLevels.json", "saves/first/unlocks.json"] := by
  intro picture unlocking written bytes story setting disk calls
  let begun := story.playback .empty { storyName := story.document.name? }
  have stays : disk.StaysPut "saves/first" := Files.Disk.staysPut_of_onward (by decide +kernel) (by decide +kernel)
  have legible : ∀ exchange ∈ begun.transcript setting.clock calls, ∀ deed ∈ exchange.deeds, deed.Legible := by
    decide +kernel
  have parsed : story.Parsed := Loading.LoadedStory.parsed_of_isOk .event (by decide +kernel)
  have levels : setting.backend.loadAffection disk = .ok .empty := Backend.load_of_none (by decide +kernel)
  have ledger : setting.backend.loadUnlocks disk = .ok .empty := Backend.load_of_none (by decide +kernel)
  have autoplay : setting.backend.preference disk autoplayKey = .ok false := by decide +kernel
  obtain ⟨-, steady, stay⟩ := saves_stay_readable
  obtain ⟨session, started, readable⟩ := stay setting (steady "saves/first") story parsed none {} disk () stays
    ⟨⟨_, levels⟩, ⟨_, ledger⟩⟩ ⟨_, autoplay⟩
  have known : Session.ofStory setting disk () story none {} =
      .ok { playback := begun, saved := disk, display := () } :=
    (Session.ofStory_eq_ok_iff setting).mpr ⟨_, _, _, levels, ledger, autoplay, rfl⟩
  obtain rfl := Except.ok.inj (known.symm.trans started)
  exact ⟨steady _, stays, parsed, _, started, readable calls legible, by decide +kernel⟩

/-- Where the path to the folder goes back out of a folder that is missing, the first write makes that folder, and
unlocks that were out of reach before are read from then on. They can be anything. -/
theorem hidden_unlocks_spoil_save :
    let written : Document := { story := Loading.greeting "Alice" (.real 0.5) }
    let bytes := written.encode.compact.toUTF8.toList
    let story : Loading.LoadedStory :=
      { kind := .event, document := (Document.ofBytes bytes).toOption.getD default, shared := none }
    let setting : Session.Setting Files.Disk Unit :=
      { backend := folder "new/../save", presentation := { render := fun _ _ => (.ok (), ()) }, clock := default }
    let disk := (Files.Disk.blank ["game"]).place "save/unlocks.json" "[]".toUTF8.toList
    let calls : List Call := [.start, .event (.choose 0)]
    story.Parsed ∧ setting.backend.Readable disk ∧ setting.backend.preference disk autoplayKey = .ok false ∧
      ∃ session, Session.ofStory setting disk () story none {} = .ok session ∧
        (∀ exchange ∈ session.playback.transcript setting.clock calls, ∀ deed ∈ exchange.deeds, deed.Legible) ∧
        (∀ attempt ∈ (setting.backend.recording.performAll (disk, [])
          ((session.playback.transcript setting.clock calls).flatMap Exchange.deeds)).1.2, attempt.result = .ok ()) ∧
        setting.backend.loadUnlocks (session.after setting calls).saved = .error (.malformed unlocksKey .shape) := by
  intro written bytes story setting disk calls
  let begun := story.playback .empty { storyName := story.document.name? }
  have parsed : story.Parsed := Loading.LoadedStory.parsed_of_isOk .event (by decide +kernel)
  have levels : setting.backend.loadAffection disk = .ok .empty := Backend.load_of_none (by decide +kernel)
  have ledger : setting.backend.loadUnlocks disk = .ok .empty := Backend.load_of_none (by decide +kernel)
  have autoplay : setting.backend.preference disk autoplayKey = .ok false := by decide +kernel
  have known : Session.ofStory setting disk () story none {} =
      .ok { playback := begun, saved := disk, display := () } :=
    (Session.ofStory_eq_ok_iff setting).mpr ⟨_, _, _, levels, ledger, autoplay, rfl⟩
  refine ⟨parsed, ⟨⟨_, levels⟩, ⟨_, ledger⟩⟩, autoplay, _, known, by decide +kernel, by decide +kernel, ?_⟩
  exact causeOf?_eq_some.mp (by decide +kernel)

end Save
end BranchingStory
