import BranchingStory.Proofs.Results
import BranchingStory.Proofs.Save.Durable
import BranchingStory.Session

/-!
Courses of a session: its playback goes where it goes by itself, and its save is given all that playback leaves
to be done.
-/

namespace BranchingStory

open Playback (Call Exchange)

namespace Session

variable {σ π : Type} (setting : Setting σ π)

def ask (session : Session σ π) : Call → Session σ π
  | .start => (session.start setting).1
  | .event event => (session.handle setting event).1
  | .setAutoplay autoplay => { session with playback := session.playback.setAutoplay autoplay }
  | .peek => session

def after (session : Session σ π) (calls : List Call) : Session σ π := calls.foldl (ask setting) session

theorem present_eq (session : Session σ π) (playback : Playback) (reply : Playback.Reply) :
    (session.present setting playback reply).1.playback = playback ∧
      (session.present setting playback reply).1.saved =
        (setting.backend.performAll session.saved reply.deeds).1 := by
  simp only [present]
  split
  · exact ⟨rfl, rfl⟩
  · exact ⟨rfl, rfl⟩

theorem ask_eq (session : Session σ π) (call : Call) :
    (session.ask setting call).playback = (session.playback.ask setting.clock call).1 ∧
      (session.ask setting call).saved = (setting.backend.performAll session.saved
        (((session.playback.ask setting.clock call).2.map (·.deeds)).getD [])).1 := by
  cases call with
  | start => exact session.present_eq setting _ _
  | event event => exact session.present_eq setting _ _
  | setAutoplay autoplay => exact ⟨rfl, rfl⟩
  | peek => exact ⟨rfl, rfl⟩

theorem saved_after (session : Session σ π) (calls : List Call) :
    (session.after setting calls).saved = (setting.backend.performAll session.saved
      ((session.playback.transcript setting.clock calls).flatMap Exchange.deeds)).1 := by
  induction calls generalizing session with
  | nil => rfl
  | cons call later ih =>
      obtain ⟨playback, saved⟩ := session.ask_eq setting call
      rw [after, List.foldl_cons, ← after, ih, playback, saved, Playback.transcript, List.flatMap_cons,
        Save.Backend.performAll_append]
      rfl

def setupOf (story : Loading.LoadedStory) (options : Option Playback.Options) (assets : AssetBase) (levels : Affection)
    (ledger : Ledger) (autoplay : Bool) : Playback.Setup :=
  { options := options.getD (usualOptions story.kind)
    assets
    storyName := story.document.name?
    scope := story.variables levels
    ledger
    autoplay }

section

variable {saved : σ} {display : π} {story : Loading.LoadedStory} {options : Option Playback.Options}
  {assets : AssetBase} {session : Session σ π}

theorem ofStory_eq_ok_iff :
    Session.ofStory setting saved display story options assets = .ok session ↔
      ∃ levels ledger autoplay, setting.backend.loadAffection saved = .ok levels ∧
        setting.backend.loadUnlocks saved = .ok ledger ∧
        setting.backend.preference saved Save.autoplayKey = .ok autoplay ∧
        session = { playback := (setupOf story options assets levels ledger autoplay).playback story.document.story,
                    saved, display } := by
  constructor
  · intro opened
    obtain ⟨levels, affection, rest⟩ := bind_eq_ok.mp opened
    obtain ⟨ledger, unlocks, rest⟩ := bind_eq_ok.mp rest
    obtain ⟨autoplay, preferred, same⟩ := bind_eq_ok.mp rest
    exact ⟨levels, ledger, autoplay, mapError_eq_ok.mp affection, mapError_eq_ok.mp unlocks,
      mapError_eq_ok.mp preferred, (Except.ok.inj same).symm⟩
  · rintro ⟨levels, ledger, autoplay, affection, unlocks, preferred, rfl⟩
    simp only [Session.ofStory, affection, unlocks, preferred, Except.mapError, ok_bind]
    rfl

theorem opened_of_ofStory (opened : Session.ofStory setting saved display story options assets = .ok session) :
    ∃ setup : Playback.Setup, session = { playback := setup.playback story.document.story, saved, display } := by
  obtain ⟨levels, ledger, autoplay, -, -, -, same⟩ := (ofStory_eq_ok_iff setting).mp opened
  exact ⟨_, same⟩

end

theorem playback_after (session : Session σ π) (calls : List Call) :
    (session.after setting calls).playback = session.playback.after setting.clock calls := by
  induction calls generalizing session with
  | nil => rfl
  | cons call later ih =>
      rw [after, List.foldl_cons, ← after, ih, (session.ask_eq setting call).1]
      rfl

end Session

end BranchingStory
