import BranchingStory.Proofs.Json.Short
import BranchingStory.Proofs.Save.Recorded

/-!
Playthroughs one after another on one save. Each is played with the ledger that the save has by then, and leaves
ledgers to be saved that have grown out of it. So a record that is in the save once keeps its place there, wherever
playthroughs are broken off and whichever writes are refused.
-/

namespace BranchingStory

open Playback (Deed Call Exchange Record ledgersOf)

/-! ## Lines of ledgers -/

namespace Ledger

variable {before middle after ledger : Ledger} {earlier : List Ledger}

theorem GrownFrom.trans (later : after.GrownFrom middle) (first : middle.GrownFrom before) : after.GrownFrom before where
  prefixes category := (first.prefixes category).trans (later.prefixes category)
  distinct category distinct := later.distinct category (first.distinct category distinct)

def Lineage (ledgers : List Ledger) : Prop := ledgers.Pairwise fun before after => after.GrownFrom before

theorem Lineage.commit {unlocks : Unlocks} (lineage : Lineage (earlier ++ [ledger])) (room : ledger.HasRoom unlocks)
    (now : Instant) : Lineage (earlier ++ [(ledger.commit unlocks now).1]) := by
  obtain ⟨first, -, last⟩ := List.pairwise_append.mp lineage
  refine List.pairwise_append.mpr ⟨first, List.pairwise_singleton _ _, fun before member after only => ?_⟩
  rw [List.mem_singleton.mp only]
  exact (last before member ledger List.mem_cons_self).commit room now

theorem Lineage.concat_self (lineage : Lineage (earlier ++ [ledger])) : Lineage (earlier ++ [ledger] ++ [ledger]) := by
  refine List.pairwise_append.mpr ⟨lineage, List.pairwise_singleton _ _, fun before member after only => ?_⟩
  rw [List.mem_singleton.mp only]
  rcases List.mem_append.mp member with old | newest
  · exact (List.pairwise_append.mp lineage).2.2 before old ledger List.mem_cons_self
  · exact List.mem_singleton.mp newest ▸ GrownFrom.refl ledger

theorem Lineage.commitAll (record : Record) {commits : List (Unlocks × Instant)}
    (lineage : Lineage (record.left ++ [record.ledger])) (room : record.ledger.HasRoomForAll commits) :
    Lineage ((record.commitAll commits).left ++ [(record.commitAll commits).ledger]) := by
  induction commits generalizing record with
  | nil => exact lineage
  | cons first rest ih =>
      have committed := lineage.commit room.1 first.2
      refine ih (record.commit first) ?_ room.2
      simp only [Record.commit]
      split
      · exact committed.concat_self
      · exact committed

end Ledger

theorem Playback.lineage_transcript {playback : Playback} {clock : Nat → Instant} {calls : List Call}
    (room : playback.teller.ledger.HasRoomForAll (playback.commits clock calls)) :
    Ledger.Lineage (playback.teller.ledger :: ledgersOf ((playback.transcript clock calls).flatMap Exchange.deeds)) := by
  have written := congrArg Record.left (record_course playback clock calls)
  have begun : Ledger.Lineage ([] ++ [playback.teller.ledger] ++ [playback.teller.ledger]) :=
    .concat_self (List.pairwise_singleton _ playback.teller.ledger)
  have lineage := Ledger.Lineage.commitAll ⟨[playback.teller.ledger], playback.teller.ledger⟩ begun room
  have joined := Record.left_commitAll [playback.teller.ledger] ⟨[], playback.teller.ledger⟩
    (playback.commits clock calls)
  rw [List.append_nil] at joined
  rw [joined, ← written] at lineage
  exact lineage.sublist (List.sublist_append_left _ _)

/-! ## Ledgers that are stored as they are -/

def Json.Plain (id : Json) : Prop := ∀ number ∈ id.numbers, number.Plain

instance (id : Json) : Decidable id.Plain := inferInstanceAs (Decidable (∀ number ∈ id.numbers, number.Plain))

namespace Ledger

variable {ledger : Ledger}

/-- The ids of a ledger have plain numbers and can be stored, and its timestamps are times that there are. -/
structure Plain (ledger : Ledger) : Prop where
  ids : ledger.Within Json.Plain
  storable : ledger.Within Json.Storable
  timed : ledger.Timed

theorem Plain.lossless (plain : ledger.Plain) : ledger.Lossless := by
  intro slots listed record held
  obtain ⟨category, member, rfl⟩ := List.mem_map.mp listed
  obtain ⟨entry, inside, rfl⟩ := List.mem_map.mp held
  have recorded : ledger.Holds entry.1 entry.2 := Ledger.holds_iff.mpr ⟨category, member, inside⟩
  exact ⟨fun number here _ => (plain.ids _ _ recorded number here).lossless,
    Instant.ofText?_text (plain.timed _ _ recorded)⟩

theorem Plain.decode_written (plain : ledger.Plain) :
    Json.decodeText Ledger.decode ledger.encode.compact = .ok ledger := by
  rw [Ledger.decode_written plain.lossless.legible plain.storable, Ledger.reread_eq_self plain.lossless plain.storable]

end Ledger

namespace Save

/-! ## Deeds on a save -/

namespace Backend

variable {σ : Type} (backend : Backend σ)

def Advances (earlier later : σ) : Prop :=
  ∀ ledger, backend.loadUnlocks earlier = .ok ledger →
    ∃ grown, backend.loadUnlocks later = .ok grown ∧ grown.GrownFrom ledger

def Advancing : σ → List Deed → Prop
  | _, [] => True
  | saved, deed :: later =>
      backend.Advances saved (backend.perform saved deed).1 ∧ Advancing (backend.perform saved deed).1 later

variable {backend} {Good : σ → Prop} {saved middle after : σ} {deeds more : List Deed}

theorem Advances.refl (saved : σ) : backend.Advances saved saved := fun ledger loaded => ⟨ledger, loaded, .refl ledger⟩

theorem Advances.trans (first : backend.Advances saved middle) (later : backend.Advances middle after) :
    backend.Advances saved after := by
  intro ledger loaded
  obtain ⟨grown, reloaded, once⟩ := first ledger loaded
  obtain ⟨last, again, twice⟩ := later grown reloaded
  exact ⟨last, again, twice.trans once⟩

theorem Advancing.append (first : backend.Advancing saved deeds)
    (later : backend.Advancing (backend.performAll saved deeds).1 more) : backend.Advancing saved (deeds ++ more) := by
  induction deeds generalizing saved with
  | nil => exact later
  | cons deed rest ih => exact ⟨first.1, ih first.2 later⟩

theorem Advancing.take (advancing : backend.Advancing saved deeds) {earlier later : Nat} (order : earlier ≤ later) :
    backend.Advances (backend.performAll saved (deeds.take earlier)).1
      (backend.performAll saved (deeds.take later)).1 := by
  induction deeds generalizing saved earlier later with
  | nil =>
      rw [List.take_nil, List.take_nil]
      exact .refl _
  | cons deed rest ih =>
      cases later with
      | zero =>
          obtain rfl := Nat.le_zero.mp order
          exact .refl _
      | succ later =>
          cases earlier with
          | zero => exact advancing.1.trans (ih advancing.2 (Nat.zero_le later))
          | succ earlier => exact ih advancing.2 (Nat.le_of_succ_le_succ order)

theorem Steady.loadUnlocks_perform (steady : backend.Steady Good) (good : Good saved) {stored : Ledger}
    (loaded : backend.loadUnlocks saved = .ok stored) {deed : Deed}
    (decoded : ∀ ledger ∈ deed.ledger?, Json.decodeText Ledger.decode ledger.encode.compact = .ok ledger) :
    backend.loadUnlocks (backend.perform saved deed).1 = .ok stored ∨
      ∃ ledger ∈ deed.ledger?, backend.loadUnlocks (backend.perform saved deed).1 = .ok ledger := by
  cases kept : deed.ledger? with
  | none =>
      have same := steady.read_perform_of_none good kept
      exact .inl ((load_congr Ledger.decode .empty same).trans loaded)
  | some ledger =>
      cases deed with
      | trace trace => cases kept
      | keepEffects consequences => cases kept
      | keepUnlocks written =>
          obtain rfl := Option.some.inj kept
          rw [saved_perform_keepUnlocks, saveUnlocks]
          cases result : backend.write saved unlocksKey written.encode.compact with
          | mk outcome after =>
              cases outcome with
              | error cause =>
                  have same := steady.read_refused _ _ (by decide) _ _ _ good result
                  exact .inl ((load_congr Ledger.decode .empty same).trans loaded)
              | ok done =>
                  refine .inr ⟨written, rfl, ?_⟩
                  rw [loadUnlocks, load, steady.read_written _ _ (by decide) _ _ result, ok_bind]
                  simp only [decoded written rfl]
                  rfl

theorem Steady.advancing (steady : backend.Steady Good) (good : Good saved) {stored : Ledger}
    (loaded : backend.loadUnlocks saved = .ok stored)
    (lineage : Ledger.Lineage (stored :: ledgersOf deeds))
    (decoded : ∀ ledger ∈ ledgersOf deeds, Json.decodeText Ledger.decode ledger.encode.compact = .ok ledger) :
    backend.Advancing saved deeds ∧
      ∃ last ∈ stored :: ledgersOf deeds, backend.loadUnlocks (backend.performAll saved deeds).1 = .ok last := by
  induction deeds generalizing saved stored with
  | nil => exact ⟨trivial, stored, List.mem_cons_self, loaded⟩
  | cons deed rest ih =>
      have split : ledgersOf (deed :: rest) = deed.ledger?.toList ++ ledgersOf rest := by
        cases deed <;> rfl
      rw [split] at lineage decoded ⊢
      have here : ∀ ledger ∈ deed.ledger?, Json.decodeText Ledger.decode ledger.encode.compact = .ok ledger :=
        fun ledger member => decoded ledger (List.mem_append_left _ (Option.mem_toList.mpr member))
      have there := fun ledger member => decoded ledger (List.mem_append_right deed.ledger?.toList member)
      have onward := steady.good_perform good deed
      rcases steady.loadUnlocks_perform good loaded here with same | ⟨ledger, kept, replaced⟩
      · have shorter : Ledger.Lineage (stored :: ledgersOf rest) :=
          lineage.sublist (List.Sublist.cons_cons _ (List.sublist_append_right _ _))
        obtain ⟨advancing, last, member, final⟩ := ih onward same shorter there
        refine ⟨⟨fun ledger found => ?_, advancing⟩, last, ?_, final⟩
        · obtain rfl := Except.ok.inj (loaded.symm.trans found)
          exact ⟨stored, same, .refl stored⟩
        · exact List.Sublist.subset (List.Sublist.cons_cons _ (List.sublist_append_right _ _)) member
      · rw [Option.mem_def.mp kept, Option.toList_some, List.singleton_append] at lineage ⊢
        obtain ⟨first, later⟩ := List.pairwise_cons.mp lineage
        obtain ⟨advancing, last, member, final⟩ := ih onward replaced later there
        refine ⟨⟨fun earlier found => ?_, advancing⟩, last, List.mem_cons_of_mem _ member, final⟩
        obtain rfl := Except.ok.inj (loaded.symm.trans found)
        exact ⟨ledger, replaced, first ledger List.mem_cons_self⟩

end Backend

/-! ## Sittings -/

/-- A playthrough on a save: what is played and how, and after how many of the deeds that it leaves it is broken
off. -/
structure Sitting (π : Type) where
  story : Loading.LoadedStory
  options : Option Playback.Options := none
  assets : AssetBase := {}
  presentation : Presentation π
  display : π
  clock : Nat → Instant
  calls : List Call
  done : Nat

namespace Sitting

variable {σ π : Type} (sitting : Sitting π) (backend : Backend σ) (saved : σ)

def setting : Session.Setting σ π := ⟨backend, sitting.presentation, sitting.clock⟩

def session : Except Session.Error (Session σ π) :=
  Session.ofStory (sitting.setting backend) saved sitting.display sitting.story sitting.options sitting.assets

/-- What is done to the save. If no session can be opened on it, that is nothing. -/
def deeds : List Deed :=
  match sitting.session backend saved with
  | .ok session => ((session.playback.transcript sitting.clock sitting.calls).flatMap Exchange.deeds).take sitting.done
  | .error _ => []

/-- The ids in the story are plain, and the clock shows times that there are. -/
structure Plain : Prop where
  parsed : sitting.story.Parsed
  ids : ∀ entry : Entry, entry.LiesIn sitting.story.document.story → entry.UnlocksOnly Json.Plain
  clock : ∀ reading, (sitting.clock reading).Proper

/-- The slots last for all that is unlocked in the sitting. -/
def HasRoom : Prop :=
  ∀ session, sitting.session backend saved = .ok session →
    session.playback.teller.ledger.HasRoomForAll (session.playback.commits sitting.clock sitting.calls)

instance : Decidable (sitting.HasRoom backend saved) :=
  match opened : sitting.session backend saved with
  | .ok session =>
      decidable_of_iff
        (session.playback.teller.ledger.HasRoomForAll (session.playback.commits sitting.clock sitting.calls))
        ⟨fun room other same => Except.ok.inj (opened.symm.trans same) ▸ room, fun room => room session opened⟩
  | .error _ => .isTrue fun session same => by
      rw [opened] at same
      cases same

variable {sitting backend saved}

theorem opened_of_session {session : Session σ π} (opened : sitting.session backend saved = .ok session) :
    ∃ teller : Playback.Teller, session.playback = .ofStory sitting.story.document.story teller ∧
      backend.loadUnlocks saved = .ok teller.ledger := by
  obtain ⟨levels, ledger, autoplay, -, unlocks, -, rfl⟩ := (Session.ofStory_eq_ok_iff _).mp opened
  exact ⟨_, rfl, unlocks⟩

theorem deeds_of_loaded (plain : sitting.Plain) (room : sitting.HasRoom backend saved) {stored : Ledger}
    (loaded : backend.loadUnlocks saved = .ok stored) (kept : stored.Plain) :
    Ledger.Lineage (stored :: ledgersOf (sitting.deeds backend saved)) ∧
      ∀ ledger ∈ ledgersOf (sitting.deeds backend saved), ledger.Plain := by
  rw [deeds]
  cases opened : sitting.session backend saved with
  | error cause => exact ⟨List.pairwise_singleton _ _, fun _ none => absurd none List.not_mem_nil⟩
  | ok session =>
      have last := room session opened
      obtain ⟨teller, played, recorded⟩ := opened_of_session opened
      obtain rfl := Except.ok.inj (loaded.symm.trans recorded)
      simp only [played] at last ⊢
      refine ⟨?_, fun ledger member => ?_⟩
      · have kept_back := (List.take_sublist sitting.done
          (((Playback.ofStory sitting.story.document.story teller).transcript sitting.clock
            sitting.calls).flatMap Exchange.deeds)).filterMap Deed.ledger?
        exact (Playback.lineage_transcript last).sublist (List.Sublist.cons_cons _ kept_back)
      · have written := List.mem_of_mem_take (Playback.mem_ledgersOf.mp member)
        have ahead : Playback.Stack.Ahead (fun entry => entry.UnlocksOnly Json.Plain)
            (Playback.ofStory sitting.story.document.story teller).stack := by
          intro context listed entry lies
          rw [List.mem_singleton.mp listed] at lies
          exact plain.ids entry lies
        refine ⟨?_, ?_, ?_⟩
        · exact Playback.within_transcript ⟨ahead, kept.ids⟩ written
        · exact Playback.within_transcript (Playback.within_ofStory plain.parsed teller kept.storable) written
        · refine Playback.of_keepUnlocks Ledger.Timed (fun made timed => ?_) ahead kept.timed written
          obtain ⟨-, -, -, reading, now⟩ := made
          exact timed.commit (now ▸ plain.clock reading) _

end Sitting

/-! ## Sittings one after another -/

namespace Backend

variable {σ π : Type} (backend : Backend σ)

def deedsOver : σ → List (Sitting π) → List Deed
  | _, [] => []
  | saved, sitting :: later =>
      let deeds := sitting.deeds backend saved
      deeds ++ deedsOver (backend.performAll saved deeds).1 later

/-- The save at some point of the sittings, after so many of the deeds that are done in them. -/
def savedAt (saved : σ) (sittings : List (Sitting π)) (point : Nat) : σ :=
  (backend.performAll saved ((backend.deedsOver saved sittings).take point)).1

/-- The slots last in every sitting, each of which finds the save as those before it have left it. -/
def HasRoomOver : σ → List (Sitting π) → Prop
  | _, [] => True
  | saved, sitting :: later =>
      sitting.HasRoom backend saved ∧ HasRoomOver (backend.performAll saved (sitting.deeds backend saved)).1 later

instance HasRoomOver.decide :
    (saved : σ) → (sittings : List (Sitting π)) → Decidable (backend.HasRoomOver saved sittings)
  | _, [] => .isTrue trivial
  | saved, sitting :: later =>
      have := HasRoomOver.decide (backend.performAll saved (sitting.deeds backend saved)).1 later
      inferInstanceAs (Decidable (sitting.HasRoom backend saved ∧
        backend.HasRoomOver (backend.performAll saved (sitting.deeds backend saved)).1 later))

variable {backend} {Good : σ → Prop} {saved : σ} {sittings : List (Sitting π)}

theorem deedsOver_of_error {cause : Error} (unreadable : backend.loadUnlocks saved = .error cause) :
    backend.deedsOver saved sittings = [] := by
  induction sittings with
  | nil => rfl
  | cons sitting later ih =>
      have none : sitting.deeds backend saved = [] := by
        rw [Sitting.deeds]
        cases opened : sitting.session backend saved with
        | error cause => rfl
        | ok session =>
            obtain ⟨teller, -, loaded⟩ := Sitting.opened_of_session opened
            rw [unreadable] at loaded
            cases loaded
      rw [deedsOver, none]
      exact ih

theorem Steady.advancing_deedsOver (steady : backend.Steady Good) (good : Good saved)
    (plain : ∀ sitting ∈ sittings, sitting.Plain) (room : backend.HasRoomOver saved sittings) {stored : Ledger}
    (loaded : backend.loadUnlocks saved = .ok stored) (kept : stored.Plain) :
    backend.Advancing saved (backend.deedsOver saved sittings) := by
  induction sittings generalizing saved stored with
  | nil => trivial
  | cons sitting later ih =>
      obtain ⟨lineage, written⟩ := Sitting.deeds_of_loaded (plain sitting List.mem_cons_self) room.1 loaded kept
      obtain ⟨advancing, last, member, final⟩ := steady.advancing good loaded lineage fun ledger listed =>
        (written ledger listed).decode_written
      have last_plain : last.Plain := by
        rcases List.mem_cons.mp member with rfl | listed
        · exact kept
        · exact written last listed
      exact advancing.append (ih (steady.good_performAll good _)
        (fun other listed => plain other (List.mem_cons_of_mem _ listed)) room.2 final last_plain)

end Backend

/-- In memory, in a folder whose path stays put, and on whatever else holds what is written steady, what was in the save
at any point of any sittings is there at every later point, each record in its place, as long as the slots last. No id
comes to be there twice, and a save that cannot be loaded is left alone. -/
theorem unlocks_outlive_playthroughs :
    memory.Steady (fun _ => True) ∧ (∀ path, (folder path).Steady (·.StaysPut path)) ∧
      ∀ {σ π : Type} (backend : Backend σ) {Good : σ → Prop}, backend.Steady Good → ∀ saved, Good saved →
        (∀ ledger, backend.loadUnlocks saved = .ok ledger → ledger.Within Json.Plain) →
          ∀ sittings : List (Sitting π), (∀ sitting ∈ sittings, sitting.Plain) → backend.HasRoomOver saved sittings →
            (∀ earlier later, earlier ≤ later → ∀ ledger,
                backend.loadUnlocks (backend.savedAt saved sittings earlier) = .ok ledger →
                  ∃ grown, backend.loadUnlocks (backend.savedAt saved sittings later) = .ok grown ∧
                    (∀ category slot record, (ledger.slots category).get? slot = some record →
                      (grown.slots category).get? slot = some record) ∧
                    ∀ category, (ledger.slots category).entries <+: (grown.slots category).entries) ∧
              (∀ ledger, backend.loadUnlocks saved = .ok ledger → (∀ category, (ledger.slots category).Distinct) →
                ∀ point, ∃ grown, backend.loadUnlocks (backend.savedAt saved sittings point) = .ok grown ∧
                  ∀ category, (grown.slots category).Distinct) ∧
              ∀ cause, backend.loadUnlocks saved = .error cause →
                ∀ point, backend.savedAt saved sittings point = saved := by
  refine ⟨memory_steady, folder_steady, ?_⟩
  intro σ π backend Good steady saved good stored sittings plain room
  have advancing : backend.Advancing saved (backend.deedsOver saved sittings) := by
    cases loaded : backend.loadUnlocks saved with
    | error cause =>
        rw [Backend.deedsOver_of_error loaded]
        trivial
    | ok ledger =>
        have kept : ledger.Plain :=
          ⟨stored ledger loaded, Backend.storable_of_loadUnlocks loaded, Backend.timed_of_loadUnlocks loaded⟩
        exact steady.advancing_deedsOver good plain room loaded kept
  refine ⟨fun earlier later order ledger loaded => ?_, fun ledger loaded distinct point => ?_,
    fun cause unreadable point => ?_⟩
  · obtain ⟨grown, reloaded, kept⟩ := advancing.take order ledger loaded
    refine ⟨grown, reloaded, fun category slot record found => ?_, kept.prefixes⟩
    rw [Catalog.get?_eq_some_iff] at found ⊢
    exact (kept.prefixes category).subset found
  · obtain ⟨grown, reloaded, kept⟩ := advancing.take (Nat.zero_le point) ledger loaded
    exact ⟨grown, reloaded, fun category => kept.distinct category (distinct category)⟩
  · rw [Backend.savedAt, Backend.deedsOver_of_error unreadable, List.take_nil]
    rfl

theorem picture_outlives_playthroughs :
    let unlocking : Entry :=
      { Entry.line none "Look!" with unlocks := some (Catalog.empty.insert "pictures" [("first", .string "beach")]) }
    let bytes := Document.encode { story := [unlocking, unlocking] } |>.compact.toUTF8.toList
    let story : Loading.LoadedStory :=
      { kind := .event, document := (Document.ofBytes bytes).toOption.getD default, shared := none }
    let sitting (done : Nat) : Sitting Unit :=
      { story, presentation := { render := fun _ _ => (.ok (), ()) }, display := (), clock := default,
        calls := [.start, .event .advance], done }
    let sittings := [sitting 2, sitting 3]
    let known := "\x7b\"pictures\":\x7b\"4\":\x7b\"id\":7,\"timestamp\":\"2024-05-01T12:00:00+02:00\"\x7d\x7d\x7d"
    let disk := (Files.Disk.blank ["game"]).place "save/unlocks.json" known.toUTF8.toList
    let backend := folder "save"
    backend.Steady (·.StaysPut "save") ∧ disk.StaysPut "save" ∧ (∀ sitting ∈ sittings, sitting.Plain) ∧
      backend.HasRoomOver disk sittings ∧
      ∃ ledger grown, backend.loadUnlocks (backend.savedAt disk sittings 0) = .ok ledger ∧
        backend.loadUnlocks (backend.savedAt disk sittings 5) = .ok grown ∧
        (ledger.slots "pictures").entries <+: (grown.slots "pictures").entries ∧
        (ledger.slots "pictures").keys = [4] ∧ (grown.slots "pictures").keys = [4, 5] := by
  intro unlocking bytes story sitting sittings known disk backend
  have parsed : story.Parsed := Loading.LoadedStory.parsed_of_isOk .event (by decide +kernel)
  have ids : ∀ entry ∈ story.document.story, entry.branch.isNone = true ∧ entry.UnlocksOnly Json.Plain := by
    decide +kernel
  have epoch : (default : Instant).Proper := ⟨by decide, .inl (by decide)⟩
  have single (done : Nat) : (sitting done).Plain := by
    refine ⟨parsed, fun entry lies => ?_, fun _ => epoch⟩
    exact (ids entry (lies.mem fun outer listed => (ids outer listed).1)).2
  have plain : ∀ sitting ∈ sittings, sitting.Plain :=
    List.forall_mem_cons.mpr ⟨single 2, List.forall_mem_cons.mpr ⟨single 3, List.forall_mem_nil _⟩⟩
  have stays : disk.StaysPut "save" := Files.Disk.staysPut_of_onward (by decide +kernel) (by decide +kernel)
  obtain ⟨room, stored, keys, later⟩ : backend.HasRoomOver disk sittings ∧
      (∀ ledger ∈ (backend.loadUnlocks disk).toOption, ledger.Within Json.Plain) ∧
      ((backend.loadUnlocks disk).toOption.map fun ledger => (ledger.slots "pictures").keys) = some [4] ∧
      ((backend.loadUnlocks (backend.savedAt disk sittings 5)).toOption.map fun ledger =>
        (ledger.slots "pictures").keys) = some [4, 5] := by
    decide +kernel
  obtain ⟨-, steady, outlive⟩ := unlocks_outlive_playthroughs
  obtain ⟨advances, -, -⟩ := outlive backend (steady "save") disk stays
    (fun ledger loaded => stored ledger (toOption_eq_some.mpr loaded)) sittings plain room
  obtain ⟨ledger, loaded, keys⟩ := Option.map_eq_some_iff.mp keys
  obtain ⟨last, at_last, later⟩ := Option.map_eq_some_iff.mp later
  obtain ⟨grown, reloaded, -, extended⟩ := advances 0 5 (Nat.zero_le 5) ledger (toOption_eq_some.mp loaded)
  obtain rfl := Except.ok.inj ((toOption_eq_some.mp at_last).symm.trans reloaded)
  exact ⟨steady _, stays, plain, room, ledger, last, toOption_eq_some.mp loaded, reloaded, extended "pictures",
    keys, later⟩

/-- Where the path to the folder goes back out of a folder that is missing, a playthrough begins without the unlocks
that are there. The levels that it writes first make that folder, and what it unlocks then replaces them. -/
theorem hidden_unlocks_are_replaced :
    let unlocking : Entry :=
      { Entry.line none "Look!" with unlocks := some (Catalog.empty.insert "pictures" [("first", .string "beach")]) }
    let bytes := Document.encode { story := Loading.greeting "Alice" (.real 0.5) ++ [unlocking] } |>.compact.toUTF8.toList
    let story : Loading.LoadedStory :=
      { kind := .event, document := (Document.ofBytes bytes).toOption.getD default, shared := none }
    let sitting : Sitting Unit :=
      { story, presentation := { render := fun _ _ => (.ok (), ()) }, display := (), clock := default,
        calls := [.start, .event (.choose 0)], done := 5 }
    let known := "\x7b\"pictures\":\x7b\"0\":\x7b\"id\":\"park\",\"timestamp\":\"2024-05-01T12:00:00Z\"\x7d\x7d\x7d"
    let disk := (Files.Disk.blank ["game"]).place "save/unlocks.json" known.toUTF8.toList
    let backend := folder "new/../save"
    let pictures (point : Nat) : Option (List (UInt32 × Option String)) :=
      (backend.loadUnlocks (backend.savedAt disk [sitting] point)).toOption.map fun ledger =>
        (ledger.slots "pictures").entries.map fun (slot, record) => (slot, record.id.string?)
    sitting.Plain ∧ backend.HasRoomOver disk [sitting] ∧
      (∀ attempt ∈ (backend.recording.performAll (disk, []) (backend.deedsOver disk [sitting])).1.2,
        attempt.result = .ok ()) ∧
      pictures 0 = some [] ∧ pictures 4 = some [(0, some "park")] ∧ pictures 5 = some [(0, some "beach")] := by
  intro unlocking bytes story sitting known disk backend pictures
  have parsed : story.Parsed := Loading.LoadedStory.parsed_of_isOk .event (by decide +kernel)
  have ids : ∀ entry ∈ story.document.story, entry.branch.isNone = true ∧ entry.UnlocksOnly Json.Plain := by
    decide +kernel
  have epoch : (default : Instant).Proper := ⟨by decide, .inl (by decide)⟩
  have plain : sitting.Plain := by
    refine ⟨parsed, fun entry lies => ?_, fun _ => epoch⟩
    exact (ids entry (lies.mem fun outer listed => (ids outer listed).1)).2
  exact ⟨plain, by decide +kernel⟩

end Save
end BranchingStory
