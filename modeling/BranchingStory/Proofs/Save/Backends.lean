import BranchingStory.Proofs.Catalog.Lookup
import BranchingStory.Proofs.Files.Folders
import BranchingStory.Proofs.Text.Encoding
import BranchingStory.Save.Folder

/-!
What holds of the backends that a save can have. In memory, whatever is kept under a key is read under it until it is
replaced. In a folder the same holds as long as the path to it stays put: where the path goes back out of a folder that
is missing, nothing is read before the first write, which makes that folder, and the files that are there already are
read from then on.
-/

namespace BranchingStory
namespace Save

variable {σ : Type}

namespace Backend

/-- Levels that are written are what is read of them from then on, also when unlocks are written after them. -/
structure KeepsLevels (backend : Backend σ) : Prop where
  read_written : ∀ saved text after, backend.write saved affectionKey text = (.ok (), after) →
    backend.read after affectionKey = .ok (some text)
  read_kept : ∀ saved levels text, backend.read saved affectionKey = .ok (some levels) →
    backend.read (backend.write saved unlocksKey text).2 affectionKey = .ok (some levels)

/-- On a good save, what is written under a key is what is read under it from then on. A write leaves what is read
under the other keys, and one that is refused leaves what is read under its own. -/
structure Steady (backend : Backend σ) (Good : σ → Prop) : Prop where
  good_write : ∀ saved, ∀ key ∈ keys, ∀ text, Good saved → Good (backend.write saved key text).2
  read_written : ∀ saved, ∀ key ∈ keys, ∀ text after, backend.write saved key text = (.ok (), after) →
    backend.read after key = .ok (some text)
  read_other : ∀ saved, ∀ key ∈ keys, ∀ other ∈ keys, other ≠ key → ∀ text, Good saved →
    backend.read (backend.write saved key text).2 other = backend.read saved other
  read_refused : ∀ saved, ∀ key ∈ keys, ∀ text cause after, Good saved →
    backend.write saved key text = (.error cause, after) → backend.read after key = backend.read saved key

def Recalls (backend : Backend σ) : Prop :=
  ∀ saved key text after, backend.write saved key text = (.ok (), after) → backend.read after key = .ok (some text)

end Backend

/-! ## Memory -/

/-- Texts in memory, where a pattern says which attempts to write are refused. -/
def patchy : Backend (List Bool × Catalog String String) where
  read saved key := .ok (saved.2.get? key)
  write saved key text :=
    match saved.1 with
    | false :: later => (.error (.io key "refused"), (later, saved.2))
    | pattern => (.ok (), (pattern.tail, saved.2.insert key text))

theorem memory_recalls : memory.Recalls := by
  intro saved key text after written
  obtain ⟨_, rfl⟩ := Prod.mk.inj written
  simp [memory]

theorem memory_steady : memory.Steady fun _ => True where
  good_write _ _ _ _ _ := trivial
  read_written saved key _ text after written := memory_recalls saved key text after written
  read_other saved key _ other _ differs text _ := by
    simp only [memory]
    rw [Catalog.get?_insert_of_ne differs]
  read_refused _ _ _ _ _ _ _ refused := by simp [memory] at refused

theorem patchy_steady : patchy.Steady fun _ => True where
  good_write _ _ _ _ _ := trivial
  read_written saved key _ text after written := by
    simp only [patchy] at written ⊢
    split at written
    · simp at written
    · obtain ⟨_, rfl⟩ := Prod.mk.inj written
      simp
  read_other saved key _ other _ differs text _ := by
    simp only [patchy]
    split
    · rfl
    · rw [Catalog.get?_insert_of_ne differs]
  read_refused saved key _ text cause after _ refused := by
    simp only [patchy] at refused ⊢
    split at refused
    · obtain ⟨_, rfl⟩ := Prod.mk.inj refused
      rfl
    · simp at refused

theorem Backend.Steady.keepsLevels {backend : Backend σ} (steady : backend.Steady fun _ => True) :
    backend.KeepsLevels where
  read_written saved text after written := steady.read_written saved affectionKey (by decide) text after written
  read_kept saved levels text read :=
    (steady.read_other saved unlocksKey (by decide) affectionKey (by decide) (by decide) text trivial).trans read

/-! ## Folders -/

section

variable {path key other : String} {disk after : Files.Disk}

theorem isFileName_of_mem_keys : ∀ key ∈ keys, Files.IsFileName (key ++ ".json") := by decide +kernel

theorem file_ne_of_mem_keys : ∀ key ∈ keys, ∀ other ∈ keys, other ≠ key → other ++ ".json" ≠ key ++ ".json" := by
  decide +kernel

theorem readItem_congr (same : after.read (itemPath path key) = disk.read (itemPath path key)) :
    readItem path after key = readItem path disk key := by
  rw [readItem, same, readItem]

theorem writeItem_cases (path : String) (disk : Files.Disk) (key text : String) :
    (∃ cause, writeItem path disk key text = (.error cause, (disk.makeFolders path).2)) ∨
      ∃ after, (disk.makeFolders path).2.write (itemPath path key) text.toUTF8.toList = .ok after ∧
        writeItem path disk key text = (.ok (), after) := by
  rw [writeItem]
  generalize disk.makeFolders path = made
  obtain ⟨result, disk⟩ := made
  cases result with
  | error trouble => exact .inl ⟨_, rfl⟩
  | ok done =>
      cases written : disk.write (itemPath path key) text.toUTF8.toList with
      | error trouble => exact .inl ⟨.io key trouble.reason, by simp only [written]⟩
      | ok after => exact .inr ⟨after, rfl, by simp only [written]⟩

theorem folder_recalls (path : String) : (folder path).Recalls := by
  intro disk key text after written
  change writeItem path disk key text = _ at written
  rcases writeItem_cases path disk key text with ⟨cause, failed⟩ | ⟨placed, done, same⟩
  · rw [failed] at written
    cases written
  · rw [same] at written
    obtain ⟨-, rfl⟩ := Prod.mk.inj written
    simp only [folder, readItem, Files.Disk.read_write done, characters_toUTF8, String.ofList_toList]

theorem readItem_write (known : key ∈ keys) (listed : other ∈ keys) (differs : other ≠ key) {content : List UInt8}
    (written : disk.write (itemPath path key) content = .ok after) :
    readItem path after other = readItem path disk other :=
  readItem_congr (Files.Disk.read_write_of_ne (isFileName_of_mem_keys key known) (isFileName_of_mem_keys other listed)
    (file_ne_of_mem_keys key known other listed differs) written)

theorem readItem_makeFolders (stays : disk.StaysPut path) (known : key ∈ keys) :
    readItem path (disk.makeFolders path).2 key = readItem path disk key :=
  readItem_congr (Files.Disk.read_makeFolders (isFileName_of_mem_keys key known) stays)

end

theorem folder_keepsLevels (path : String) : (folder path).KeepsLevels where
  read_written disk text after written := folder_recalls path disk affectionKey text after written
  read_kept disk levels text read := by
    have found : ∃ content, disk.read (itemPath path affectionKey) = .ok content := by
      simp only [folder, readItem] at read
      split at read
      · rename_i content found
        exact ⟨content, found⟩
      · cases read
      · cases read
    obtain ⟨content, found⟩ := found
    have there := Files.Disk.makeFolders_of_read (isFileName_of_mem_keys affectionKey (by decide)) found
    change readItem path (writeItem path disk unlocksKey text).2 affectionKey = _
    rcases writeItem_cases path disk unlocksKey text with ⟨cause, failed⟩ | ⟨after, done, same⟩
    · rw [failed, there]
      exact read
    · rw [there] at done
      rw [same]
      exact (readItem_write (by decide) (by decide) (by decide) done).trans read

theorem folder_steady (path : String) : (folder path).Steady fun disk => disk.StaysPut path where
  good_write disk key known text stays := by
    change (writeItem path disk key text).2.StaysPut path
    rcases writeItem_cases path disk key text with ⟨cause, failed⟩ | ⟨after, done, same⟩
    · rw [failed]
      exact stays.makeFolders
    · rw [same]
      exact stays.makeFolders.write (isFileName_of_mem_keys key known) done
  read_written disk key _ text after written := folder_recalls path disk key text after written
  read_other disk key known other listed differs text stays := by
    change readItem path (writeItem path disk key text).2 other = readItem path disk other
    rcases writeItem_cases path disk key text with ⟨cause, failed⟩ | ⟨after, done, same⟩
    · rw [failed]
      exact readItem_makeFolders stays listed
    · rw [same]
      exact (readItem_write known listed differs done).trans (readItem_makeFolders stays listed)
  read_refused disk key known text cause after stays refused := by
    change writeItem path disk key text = _ at refused
    rcases writeItem_cases path disk key text with ⟨_, failed⟩ | ⟨_, -, same⟩
    · rw [failed] at refused
      obtain ⟨-, rfl⟩ := Prod.mk.inj refused
      exact readItem_makeFolders stays known
    · rw [same] at refused
      cases refused

end Save
end BranchingStory
