import BranchingStory.Player.Program
import Std.Time.DateTime.Timestamp

/-!
The player in a terminal. Between two waits the save is mirrored in a disk, which is written back as
soon as it changes.
-/

namespace BranchingStory
namespace Player

open Files (Disk)

def mirrorFolder : String := "save"

def readBytes (path : String) : IO (Except Loading.Error (List UInt8)) := do
  try
    return .ok (← IO.FS.readBinFile path).toList
  catch failure =>
    match failure with
    | .noFileOrDirectory .. => return .error (.missing path)
    | failure => return .error (.io path (toString failure))

def mirror (directory : String) : IO Disk := do
  let mut disk : Disk := {}
  for key in Save.keys do
    let path := Save.itemPath mirrorFolder key
    match ← readBytes (Save.itemPath directory key) with
    | .ok content => disk := disk.place path content
    | .error (.missing _) => pure ()
    | .error _ => disk := disk.place (path ++ "/") []
  return disk

def makeFolders (path : String) : List String → IO Unit
  | [] => ensure
  | name :: further => do
      try ensure
      catch
        | .noFileOrDirectory .. => do
            let root := if path.startsWith "/" then "/" else ""
            makeFolders (root ++ "/".intercalate (name :: further).reverse) further
            ensure
        | failure => throw failure
where
  ensure : IO Unit := do
    try IO.FS.createDir path
    catch
      | .alreadyExists .. => pure ()
      | failure => throw failure

def writeBack (directory : String) (before after : Disk) : IO (Except Save.Error Unit) := do
  for key in Save.keys do
    let path := Save.itemPath mirrorFolder key
    match before.read path, after.read path with
    | old, .ok new =>
        let unchanged := match old with
          | .ok old => old == new
          | .error _ => false
        unless unchanged do
          try
            unless directory.isEmpty do
              makeFolders directory (Files.pathNames directory).dropLast.reverse
            IO.FS.writeBinFile (Save.itemPath directory key) ⟨new.toArray⟩
          catch failure => return .error (.io key (toString failure))
    | _, .error _ => pure ()
  return .ok ()

def printTranscript (transcript : Transcript) : IO Unit := do
  let output ← IO.getStdout
  let errors ← IO.getStderr
  for line in transcript.output do output.putStrLn line
  output.flush
  for line in transcript.errors do errors.putStrLn line
  errors.flush

def finish (ending : Ending) : IO UInt32 := do
  printTranscript ending.transcript
  return ending.code.toUInt32

def currentInstant : IO Instant := do
  let nanoseconds := (← Std.Time.Timestamp.now).toNanosecondsSinceUnixEpoch.val
  return ⟨nanoseconds / 1000000000, (nanoseconds % 1000000000).toNat⟩

structure Keyboard where
  stream : IO.FS.Stream
  pending : Option (Task (Except IO.Error String)) := none

partial def finishes {α : Type} (task : Task α) (deadline : Nat) : IO Bool := do
  if ← IO.hasFinished task then return true
  if (← IO.monoMsNow) ≥ deadline then return false
  IO.sleep 10
  finishes task deadline

def Keyboard.next (keyboard : Keyboard) (wait : Playback.Wait) : IO (Signal × Keyboard) := do
  let task ← match keyboard.pending with
    | some task => pure task
    | none => IO.asTask keyboard.stream.getLine .dedicated
  let typed ← match wait with
    | .timer _ delay => finishes task ((← IO.monoMsNow) + delay)
    | _ => pure true
  if typed then
    let line ← IO.ofExcept (← IO.wait task)
    return (if line.isEmpty then .closed else .line line, { keyboard with pending := none })
  else return (.elapsed, { keyboard with pending := some task })

/-- Plays until the playthrough is over. The mirror is the save as it was last written back. -/
partial def play (setting : Instant → Setting Disk) (directory : String) (mirror : Disk)
    (keyboard : Keyboard) (player : Player Disk) : IO UInt32 := do
  let saved := player.session.saved
  let player ← match ← writeBack directory mirror saved with
    | .ok () => pure player
    | .error cause =>
        let trace := Save.failureTrace "Failed to write the save" cause
        pure (player.complain ((setting default).tracing.lines .standardError [trace]))
  match player.status with
  | .waiting wait =>
      printTranscript player.transcript
      let player := player.write fun _ => {}
      let (signal, keyboard) ← keyboard.next wait
      play setting directory saved keyboard (player.step (setting (← currentInstant)) signal)
  | _ => finish (ending player)

def runArguments (arguments : Arguments) : IO UInt32 := do
  let backend := Save.folder mirrorFolder
  let tracing := arguments.tracing (← IO.getEnv debugVariable)
  let setting (now : Instant) : Setting Disk := { backend, clock := fun _ => now, tracing }
  let directory := arguments.saveDirectory
  let unprepared ← mirror directory
  let (prepared, saved) := arguments.prepare backend unprepared
  let written ← writeBack directory unprepared saved
  match prepared, written with
  | .error cause, _ => finish (failed {} cause)
  | .ok (), .error cause => finish (failed {} (.save cause))
  | .ok (), .ok () =>
      let fetch (path : String) := readBytes (joinPath arguments.gameDirectory path)
      match ← arguments.openSession (setting default) fetch saved with
      | .error cause => finish (failed {} cause)
      | .ok session =>
          play setting directory saved { stream := ← IO.getStdin }
            (start (setting (← currentInstant)) session)

end Player
end BranchingStory

open BranchingStory in
def main (commandLine : List String) : IO UInt32 := do
  match Player.request commandLine with
  | .error ending => Player.finish ending
  | .ok arguments =>
      try Player.runArguments arguments
      catch failure =>
        IO.eprintln ("Error: Player mode failed\nReason: " ++ toString failure)
        return 1
