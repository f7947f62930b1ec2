import BranchingStory.Affection
import BranchingStory.Asset
import BranchingStory.Catalog
import BranchingStory.Condition.Error
import BranchingStory.Condition.Expression
import BranchingStory.Condition.Judgement
import BranchingStory.Condition.Lexer
import BranchingStory.Condition.Operand
import BranchingStory.Condition.Reader
import BranchingStory.Condition.Token
import BranchingStory.Decimal.Binary
import BranchingStory.Decimal.Index
import BranchingStory.Decimal.Layout
import BranchingStory.Decimal.Numeral
import BranchingStory.Decimal.Remainder
import BranchingStory.Decimal.Shortest
import BranchingStory.Files.Disk
import BranchingStory.Files.Tree
import BranchingStory.Json.Basic
import BranchingStory.Json.Decode
import BranchingStory.Json.Draft
import BranchingStory.Json.Literal
import BranchingStory.Json.Printer
import BranchingStory.Json.Token
import BranchingStory.Loading.Directories
import BranchingStory.Loading.Folder
import BranchingStory.Loading.Name
import BranchingStory.Loading.Story
import BranchingStory.Main
import BranchingStory.Playback.Codec
import BranchingStory.Playback.Context
import BranchingStory.Playback.Event
import BranchingStory.Playback.Instruction
import BranchingStory.Playback.Machine
import BranchingStory.Playback.Pacing
import BranchingStory.Playback.Step
import BranchingStory.Playback.Turn
import BranchingStory.Player.Arguments
import BranchingStory.Player.Basic
import BranchingStory.Player.Command
import BranchingStory.Player.Program
import BranchingStory.Presentation.Basic
import BranchingStory.Presentation.Terminal
import BranchingStory.Save.Basic
import BranchingStory.Save.Deeds
import BranchingStory.Save.Folder
import BranchingStory.Session
import BranchingStory.Story.Codec
import BranchingStory.Story.Document
import BranchingStory.Story.Entry
import BranchingStory.Text.Blank
import BranchingStory.Text.Encoding
import BranchingStory.Text.Letter
import BranchingStory.Text.Printable
import BranchingStory.Text.Quoted
import BranchingStory.Text.Ranges
import BranchingStory.Text.Split
import BranchingStory.Time.Calendar
import BranchingStory.Time.Instant
import BranchingStory.Time.Reading
import BranchingStory.Trace.Basic
import BranchingStory.Trace.Config
import BranchingStory.Unlock.Codec
import BranchingStory.Unlock.Ledger
import BranchingStory.Variables
import BranchingStory.Proofs.Playback.Run
import BranchingStory.Proofs.Playback.Course
import BranchingStory.Proofs.Playback.Consistency
import BranchingStory.Proofs.Playback.Termination
import BranchingStory.Proofs.Playback.Timing
import BranchingStory.Proofs.Playback.Untold
import BranchingStory.Proofs.Playback.Walk
import BranchingStory.Proofs.Playback.Telling
import BranchingStory.Proofs.Playback.Shape
import BranchingStory.Proofs.Playback.Refusal
import BranchingStory.Proofs.Playback.Pace
import BranchingStory.Proofs.Condition.Grammar
import BranchingStory.Proofs.Condition.Reading
import BranchingStory.Proofs.Catalog.Lookup
import BranchingStory.Proofs.Json.Sameness
import BranchingStory.Proofs.Json.Members
import BranchingStory.Proofs.Unlock.Growth
import BranchingStory.Proofs.Save.Live
import BranchingStory.Proofs.Playback.Levels
import BranchingStory.Proofs.Save.Durable
import BranchingStory.Proofs.Decimal.Whole
import BranchingStory.Proofs.Loading.Affection
import BranchingStory.Proofs.Playback.Modes
import BranchingStory.Proofs.Playback.Announcement
import BranchingStory.Proofs.Results
import BranchingStory.Proofs.Decimal.Digits
import BranchingStory.Proofs.Decimal.Finite
import BranchingStory.Proofs.Json.Number
import BranchingStory.Proofs.Json.Parsed
import BranchingStory.Proofs.Json.Quoted
import BranchingStory.Proofs.Json.Printed
import BranchingStory.Proofs.Json.Taken
import BranchingStory.Proofs.Story.Sound
import BranchingStory.Proofs.Playback.Traces
import BranchingStory.Proofs.Unlock.Recording
import BranchingStory.Proofs.Unlock.Origin
import BranchingStory.Proofs.Save.Stored
import BranchingStory.Proofs.Loading.Finite
import BranchingStory.Proofs.Save.Readable
import BranchingStory.Proofs.Save.Recorded
import BranchingStory.Proofs.Playback.Lookahead
import BranchingStory.Proofs.Playback.Answer
import BranchingStory.Proofs.Playback.Typing
import BranchingStory.Proofs.Session.Rendering
import BranchingStory.Proofs.Session.Ending
import BranchingStory.Proofs.Player.Course
import BranchingStory.Proofs.Save.Reloaded
import BranchingStory.Proofs.Save.Playthroughs
import BranchingStory.Proofs.Json.Levels
import BranchingStory.Proofs.Json.Returned
import BranchingStory.Proofs.Story.Written
import BranchingStory.Proofs.Story.Bare
import BranchingStory.Proofs.Loading.Inside
import BranchingStory.Proofs.Decimal.Sum
import BranchingStory.Proofs.Variables.Effects
import BranchingStory.Proofs.Save.Effects
import BranchingStory.Proofs.Loading.Course
import BranchingStory.Proofs.Condition.Numerals
import BranchingStory.Proofs.Condition.Spelling
import BranchingStory.Proofs.Condition.Slices
import BranchingStory.Proofs.Condition.Lexing
import BranchingStory.Proofs.Condition.Comparison
import BranchingStory.Proofs.Condition.Display
import BranchingStory.Proofs.Condition.Parts
import BranchingStory.Proofs.Condition.Printing
import BranchingStory.Proofs.Condition.Scope
import BranchingStory.Proofs.Condition.Bounds
import BranchingStory.Proofs.Decimal.Rational
import BranchingStory.Proofs.Condition.Indexing
import BranchingStory.Proofs.Condition.Coercion
import BranchingStory.Proofs.Loading.Constants
import BranchingStory.Proofs.Presentation.Stage
import BranchingStory.Proofs.Player.Options
import BranchingStory.Proofs.Files.Folders
import BranchingStory.Proofs.Save.Backends
import BranchingStory.Proofs.Files.Path
