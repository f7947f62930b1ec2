import BranchingStory.Proofs.Save.Durable

/-!
Effects on the variables and on the save. However writes fail, the variables become the same, every change of a level
is followed by an attempt to write, and the failure that is kept is the first one.
-/

namespace BranchingStory
namespace Save

def Attempt.failure? (attempt : Attempt) : Option Error := causeOf? attempt.result

namespace Backend

variable {σ : Type} {backend : Backend σ}

structure Records (kept : Kept σ) (noted : Kept (σ × List Attempt)) : Prop where
  saved : noted.saved.1 = kept.saved
  failure : kept.failure = (noted.saved.2.filterMap Attempt.failure?).head?

theorem Records.follow {kept : Kept σ} {noted : Kept (σ × List Attempt)} (same : Records kept noted)
    (consequence : Variables.Consequence) :
    Records (backend.follow kept consequence) (backend.recording.follow noted consequence) := by
  cases consequence with
  | ignored warning => exact ⟨same.saved, same.failure⟩
  | changed levels =>
      cases outcome : backend.saveAffection kept.saved levels with
      | mk result after =>
          have noted_outcome : backend.recording.saveAffection noted.saved levels =
              (result, (after, noted.saved.2 ++ [⟨affectionKey, levels.encode.compact, result⟩])) := by
            rw [saveAffection] at outcome ⊢
            simp only [recording, same.saved, outcome]
          simp only [Backend.follow, outcome, noted_outcome]
          cases result with
          | ok done => exact ⟨rfl, by simp [same.failure, Attempt.failure?]⟩
          | error cause => exact ⟨rfl, by simp [same.failure, Attempt.failure?, List.head?_append]⟩

theorem Records.foldl_follow {kept : Kept σ} {noted : Kept (σ × List Attempt)} (same : Records kept noted)
    (consequences : List Variables.Consequence) :
    Records (consequences.foldl backend.follow kept) (consequences.foldl backend.recording.follow noted) := by
  induction consequences generalizing kept noted with
  | nil => exact same
  | cons first rest ih => exact ih (same.follow first)

end Backend

theorem effects_apply_in_full {σ τ : Type} (backend : Backend σ) (other : Backend τ) (scope : Variables)
    (effects : Effects) (saved : σ) (held : τ) :
    let after := (scope.apply effects).1
    let consequences := (scope.apply effects).2
    let kept := backend.keep saved consequences
    let attempts := (backend.recording.keep (saved, []) consequences).saved.2
    backend.applyEffects ⟨scope, saved, none⟩ effects.members = ⟨after, kept.saved, kept.failure⟩ ∧
      (other.applyEffects ⟨scope, held, none⟩ effects.members).scope = after ∧
      attempts.map (fun attempt => (attempt.key, attempt.text)) =
        (scope.levelsAfter effects.levelChanges).map (fun levels => (affectionKey, levels.encode.compact)) ∧
      (kept.failure = none ↔ ∀ attempt ∈ attempts, attempt.result = .ok ()) ∧
      kept.failure = (attempts.filterMap Attempt.failure?).head? := by
  intro after consequences kept attempts
  have records : Backend.Records kept (backend.recording.keep (saved, []) consequences) :=
    Backend.Records.foldl_follow ⟨rfl, rfl⟩ consequences
  refine ⟨backend.applyEffects_eq { saved } scope effects.members, ?_, ?_, ?_, records.failure⟩
  · have applied := other.applyEffects_eq { saved := held } scope effects.members
    exact congrArg Applied.scope applied
  · have noted := backend.texts_foldl_follow { saved := (saved, []) } consequences
    rw [← (Variables.applyAll_eq scope effects.members).2]
    exact noted
  · rw [records.failure, List.head?_eq_none_iff, List.filterMap_eq_nil_iff]
    refine forall₂_congr fun attempt listed => ?_
    obtain ⟨key, text, cause | done⟩ := attempt
    · simp [Attempt.failure?]
    · exact ⟨fun _ => rfl, fun _ => rfl⟩

end Save
end BranchingStory
