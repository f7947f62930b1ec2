import BranchingStory.Proofs.Playback.Shape
import BranchingStory.Proofs.Playback.Traces
import BranchingStory.Proofs.Save.Live
import BranchingStory.Proofs.Unlock.Growth

/-!
How a course of playback records unlocks. Each entry that is told commits its unlocks, and nothing else touches the
ledger. Whenever a commit has changed the ledger, the ledger is left to be saved as it is then.
-/

namespace BranchingStory
namespace Playback

/-! ## Ledgers that are left to be saved -/

def Deed.ledger? : Deed → Option Ledger
  | .keepUnlocks ledger => some ledger
  | .trace _ => none
  | .keepEffects _ => none

def ledgersOf (deeds : List Deed) : List Ledger := deeds.filterMap Deed.ledger?

section

variable {deeds more : List Deed}

theorem mem_ledgersOf {ledger : Ledger} : ledger ∈ ledgersOf deeds ↔ Deed.keepUnlocks ledger ∈ deeds := by
  rw [ledgersOf, List.mem_filterMap]
  constructor
  · rintro ⟨deed, listed, found⟩
    cases deed <;> cases found
    exact listed
  · exact fun listed => ⟨_, listed, rfl⟩

theorem ledgersOf_append : ledgersOf (deeds ++ more) = ledgersOf deeds ++ ledgersOf more := List.filterMap_append

theorem ledgersOf_eq_nil (none : ∀ ledger, Deed.keepUnlocks ledger ∉ deeds) : ledgersOf deeds = [] :=
  List.eq_nil_iff_forall_not_mem.mpr fun ledger listed => none ledger (mem_ledgersOf.mp listed)

theorem ledgersOf_traces {before after : Step} (traces : before.Traces after) :
    ledgersOf after.deeds = ledgersOf before.deeds := by
  obtain ⟨texts, deeds⟩ := traces.deeds
  have none : ledgersOf (texts.map .trace) = [] := ledgersOf_eq_nil (by simp)
  rw [deeds, ledgersOf_append, none, List.append_nil]

end

theorem Prepares.ledgersOf_eq_nil {playback : Playback} {call : Call} {step : Step}
    (prepared : Prepares playback call step) : ledgersOf step.deeds = [] := by
  cases prepared with
  | start idle => simp [ledgersOf, Deed.ledger?, opening, Step.trace, Step.leave, Step.emit]
  | advance waits =>
      refine (ledgersOf_traces Step.traces_hideTyping).trans ?_
      split
      · simp [ledgersOf, Deed.ledger?, Step.trace, Step.leave]
      · rfl
  | timerElapsed waits fires => exact ledgersOf_traces Step.traces_hideTyping
  | choose waits offered =>
      refine (ledgersOf_traces (Step.traces_emit _)).trans ?_
      simp only [Step.applyEffects]
      split
      · split
        · simp [ledgersOf, Deed.ledger?, Step.emit]
        · simp [ledgersOf, Deed.ledger?, Step.emit, Step.trace, Step.leave]
      · simp [ledgersOf, Step.emit]

theorem Prepares.ledger_eq {playback : Playback} {call : Call} {step : Step}
    (prepared : Prepares playback call step) : step.teller.ledger = playback.teller.ledger := by
  cases prepared with
  | start idle => rfl
  | advance waits => rw [prompted_teller]
  | timerElapsed waits fires => rw [elapsed_teller fires]
  | choose waits offered => rw [chosen_teller]

/-! ## Records -/

/-- A ledger that is played with, and the ledgers that were left to be saved before. -/
@[ext] structure Record where
  left : List Ledger
  ledger : Ledger

namespace Record

def commit (record : Record) (made : Unlocks × Instant) : Record :=
  let (ledger, changed) := record.ledger.commit made.1 made.2
  ⟨if changed then record.left ++ [ledger] else record.left, ledger⟩

def commitAll (record : Record) (commits : List (Unlocks × Instant)) : Record := commits.foldl commit record

variable {record : Record} {commits more : List (Unlocks × Instant)}

theorem commitAll_append : record.commitAll (commits ++ more) = (record.commitAll commits).commitAll more :=
  List.foldl_append

theorem ledger_commitAll : (record.commitAll commits).ledger = record.ledger.commitAll commits := by
  induction commits generalizing record with
  | nil => rfl
  | cons first rest ih => exact ih

theorem left_commit (earlier : List Ledger) (record : Record) (made : Unlocks × Instant) :
    commit ⟨earlier ++ record.left, record.ledger⟩ made =
      ⟨earlier ++ (record.commit made).left, (record.commit made).ledger⟩ := by
  simp only [Record.commit]
  split
  · rw [List.append_assoc]
  · rfl

theorem left_commitAll (earlier : List Ledger) (record : Record) (commits : List (Unlocks × Instant)) :
    (commitAll ⟨earlier ++ record.left, record.ledger⟩ commits).left = earlier ++ (record.commitAll commits).left := by
  induction commits generalizing record with
  | nil => rfl
  | cons first rest ih =>
      rw [commitAll, List.foldl_cons, left_commit]
      exact ih (record.commit first)

end Record

def Step.record (step : Step) : Record := ⟨ledgersOf step.deeds, step.teller.ledger⟩

/-! ## The commits of a run -/

namespace Step

variable {step before after : Step} {clock : Nat → Instant}

def commits (step : Step) (clock : Nat → Instant) (entry : Entry) : List (Unlocks × Instant) :=
  if entry.unlocked.isEmpty then [] else [(entry.unlocked, clock step.teller.readings)]

def commitsNext (step : Step) (clock : Nat → Instant) : Stack → List (Unlocks × Instant)
  | [] => []
  | context :: _ => context.next?.elim [] fun (_, entry) => step.commits clock entry

theorem record_traces (traces : before.Traces after) : after.record = before.record := by
  rw [record, record, ledgersOf_traces traces, traces.ledger]

theorem record_unlock (step : Step) (clock : Nat → Instant) (entry : Entry) :
    (step.unlock clock entry).record = step.record.commitAll (step.commits clock entry) := by
  simp only [unlock, commits]
  split
  · rfl
  · simp only [Record.commitAll, List.foldl_cons, List.foldl_nil, Record.commit, record]
    split
    · simp only [trace, leave, List.append_assoc, ledgersOf_append]
      rfl
    · rfl

theorem record_reach (step : Step) (clock : Nat → Instant) (entry : Entry) :
    (step.reach clock entry).record = step.record.commitAll (step.commits clock entry) :=
  (record_traces (traces_emit _)).trans (record_unlock step clock entry)

end Step

def Turn.step : Turn → Step
  | .onward _ step => step
  | .rest _ step => step

theorem record_turn (clock : Nat → Instant) (stack : Stack) (step : Step) :
    (turn clock stack step).step.record = step.record.commitAll (step.commitsNext clock stack) := by
  have turns := turnsTo_turn clock stack step
  generalize turn clock stack step = turned at turns
  have told {context : Context} {below : Stack} {index : Nat} {entry : Entry} {after : Step}
      (found : context.next? = some (index, entry)) (traces : (step.reach clock entry).Traces after) :
      after.record = step.record.commitAll (step.commitsNext clock (context :: below)) := by
    rw [Step.record_traces traces, Step.record_reach, Step.commitsNext, found]
    rfl
  cases turns with
  | finish => exact Step.record_traces Step.traces_finish
  | exhaust exhausted =>
      rw [Step.commitsNext, exhausted]
      exact Step.record_traces (Step.traces_trace _ _ _)
  | enter found led taken => exact told found (Step.traces_judge taken)
  | linger found led skipped root => exact told found ((Step.traces_judge skipped).trans (Step.traces_suspend _))
  | skip found led skipped => exact told found (Step.traces_judge skipped)
  | pause found plain pauses => exact told found ((Step.traces_emit _).trans (Step.traces_pause? pauses))
  | pass found plain passes => exact told found (Step.traces_emit _)

def commitsOfRun (clock : Nat → Instant) (stack : Stack) (step : Step) : List (Unlocks × Instant) :=
  step.commitsNext clock stack ++
    match _turned : turn clock stack step with
    | .onward next after => commitsOfRun clock next after
    | .rest _ _ => []
termination_by stack.turnsLeft
decreasing_by exact Stack.turnsLeft_lt_of_turn _turned

theorem record_run (clock : Nat → Instant) (stack : Stack) (step : Step) :
    (run clock stack step).2.record = step.record.commitAll (commitsOfRun clock stack step) := by
  induction stack, step using run.induct clock with
  | case1 stack step next after turned ih =>
      have first := record_turn clock stack step
      rw [turned] at first
      rw [run, turned, commitsOfRun, turned, Record.commitAll_append, ← first]
      exact ih
  | case2 stack step last paused turned =>
      have first := record_turn clock stack step
      rw [turned] at first
      rw [run, turned, commitsOfRun, turned, List.append_nil, ← first]
      rfl

theorem Stack.Ahead.turn {Told : Entry → Prop} {clock : Nat → Instant} {stack next : Stack} {step after : Step}
    (ahead : stack.Ahead Told) (turned : turn clock stack step = .onward next after) : next.Ahead Told := by
  have turns := turnsTo_turn clock stack step
  rw [turned] at turns
  cases turns with
  | exhaust exhausted => exact ahead.leave
  | enter found led taken => exact ahead.enter found led
  | skip found led skipped => exact ahead.mark
  | pass found plain passes => exact ahead.mark

def Made (Told : Entry → Prop) (clock : Nat → Instant) (made : Unlocks × Instant) : Prop :=
  ∃ entry, Told entry ∧ made.1 = entry.unlocked ∧ ∃ reading, made.2 = clock reading

theorem made_of_mem_commitsNext {Told : Entry → Prop} {clock : Nat → Instant} {stack : Stack} {step : Step}
    (ahead : stack.Ahead Told) {made : Unlocks × Instant} (listed : made ∈ step.commitsNext clock stack) :
    Made Told clock made := by
  cases stack with
  | nil => cases listed
  | cons context below =>
      rw [Step.commitsNext] at listed
      cases found : context.next? with
      | none => simp [found] at listed
      | some next =>
          obtain ⟨index, entry⟩ := next
          rw [found] at listed
          simp only [Option.elim_some, Step.commits] at listed
          split at listed
          · cases listed
          · obtain rfl := List.mem_singleton.mp listed
            exact ⟨entry, ahead.told found, rfl, _, rfl⟩

theorem made_of_mem_commitsOfRun {Told : Entry → Prop} {clock : Nat → Instant} {stack : Stack} {step : Step}
    (ahead : stack.Ahead Told) {made : Unlocks × Instant} (listed : made ∈ commitsOfRun clock stack step) :
    Made Told clock made := by
  induction stack, step using run.induct clock with
  | case1 stack step next after turned ih =>
      rw [commitsOfRun, turned] at listed
      rcases List.mem_append.mp listed with here | later
      · exact made_of_mem_commitsNext ahead here
      · exact ih (ahead.turn turned) later
  | case2 stack step last paused turned =>
      rw [commitsOfRun, turned, List.append_nil] at listed
      exact made_of_mem_commitsNext ahead listed

/-! ## The commits of a course -/

def Exchange.commits (clock : Nat → Instant) (exchange : Exchange) : List (Unlocks × Instant) :=
  match exchange.before.prepared? exchange.call with
  | some step => commitsOfRun clock exchange.before.stack step.underWay
  | none => []

def commits (playback : Playback) (clock : Nat → Instant) (calls : List Call) : List (Unlocks × Instant) :=
  (playback.transcript clock calls).flatMap (Exchange.commits clock)

theorem Exchange.commits_of_stays {exchange : Exchange} (clock : Nat → Instant)
    (stays : exchange.before.goesOn exchange.call = false) : exchange.commits clock = [] := by
  rw [commits]
  split
  · rename_i prepared
    rw [(prepares_iff.mpr prepared).goesOn] at stays
    cases stays
  · rfl

theorem Exchange.commits_of_prepares {exchange : Exchange} {step : Step} (clock : Nat → Instant)
    (prepared : Prepares exchange.before exchange.call step) :
    exchange.commits clock = commitsOfRun clock exchange.before.stack step.underWay := by
  rw [commits, prepares_iff.mp prepared]

theorem record_ask (playback : Playback) (clock : Nat → Instant) (call : Call) :
    let exchange : Exchange := ⟨playback, call, (playback.ask clock call).1, (playback.ask clock call).2⟩
    Record.mk (ledgersOf exchange.deeds) exchange.after.teller.ledger =
      Record.commitAll ⟨[], playback.teller.ledger⟩ (exchange.commits clock) := by
  intro exchange
  have answers := answers_ask clock playback call
  generalize answered : playback.ask clock call = answer at answers
  cases answers with
  | reject stays =>
      have none : exchange.commits clock = [] := exchange.commits_of_stays clock stays
      rw [none]
      simp only [exchange, answered]
      rfl
  | ignore stays started unpicked =>
      have none : exchange.commits clock = [] := exchange.commits_of_stays clock stays
      rw [none]
      simp only [exchange, answered]
      rfl
  | setAutoplay =>
      simp only [exchange, answered]
      rfl
  | peek =>
      simp only [exchange, answered]
      rfl
  | @resume _ step prepared =>
      have begun : step.underWay.record = ⟨[], playback.teller.ledger⟩ := by
        rw [← prepared.ledger_eq, ← prepared.ledgersOf_eq_nil]
        rfl
      have made : exchange.commits clock = commitsOfRun clock playback.stack step.underWay :=
        exchange.commits_of_prepares clock prepared
      rw [made, ← begun, ← record_run]
      simp only [exchange, answered]
      rfl

/-- All that a course does to the ledger is to make its commits, and what it leaves to be saved is the ledger right
after each commit that has changed it. -/
theorem record_course (playback : Playback) (clock : Nat → Instant) (calls : List Call) :
    Record.mk (ledgersOf ((playback.transcript clock calls).flatMap Exchange.deeds))
        (playback.after clock calls).teller.ledger =
      Record.commitAll ⟨[], playback.teller.ledger⟩ (playback.commits clock calls) := by
  induction calls generalizing playback with
  | nil => rfl
  | cons call later ih =>
      let exchange : Exchange := ⟨playback, call, (playback.ask clock call).1, (playback.ask clock call).2⟩
      have rest := ih exchange.after
      have made : playback.commits clock (call :: later) = exchange.commits clock ++ exchange.after.commits clock later :=
        List.flatMap_cons
      have left : (playback.transcript clock (call :: later)).flatMap Exchange.deeds =
          exchange.deeds ++ (exchange.after.transcript clock later).flatMap Exchange.deeds := List.flatMap_cons
      rw [made, left, ledgersOf_append, Record.commitAll_append, ← record_ask]
      have last : playback.after clock (call :: later) = exchange.after.after clock later := rfl
      have joined := Record.left_commitAll (ledgersOf exchange.deeds) ⟨[], exchange.after.teller.ledger⟩
        (exchange.after.commits clock later)
      rw [List.append_nil] at joined
      refine Record.ext ?_ ?_
      · exact (congrArg (_ ++ ·) (congrArg Record.left rest)).trans joined.symm
      · rw [last, Record.ledger_commitAll]
        exact (congrArg Record.ledger rest).trans Record.ledger_commitAll

theorem Stack.Ahead.ask {Told : Entry → Prop} {playback : Playback} (ahead : playback.stack.Ahead Told)
    (clock : Nat → Instant) (call : Call) : (playback.ask clock call).1.stack.Ahead Told := by
  have answers := answers_ask clock playback call
  generalize playback.ask clock call = answer at answers
  cases answers with
  | reject stays => exact ahead
  | ignore stays started unpicked => exact ahead
  | setAutoplay => exact ahead
  | peek => exact ahead
  | resume prepared => exact (run_of_entries (fun _ => True) (fun _ _ => trivial) (fun _ _ _ _ => trivial) ahead trivial).1

theorem made_of_mem_commits {Told : Entry → Prop} {playback : Playback} {clock : Nat → Instant} {calls : List Call}
    (ahead : playback.stack.Ahead Told) {made : Unlocks × Instant} (listed : made ∈ playback.commits clock calls) :
    Made Told clock made := by
  induction calls generalizing playback with
  | nil => cases listed
  | cons call later ih =>
      rcases List.mem_append.mp listed with here | there
      · simp only [Exchange.commits] at here
        split at here
        · exact made_of_mem_commitsOfRun ahead here
        · cases here
      · exact ih (ahead.ask clock call) there

/-- What single commits keep holds of every ledger that is left to be saved. -/
theorem of_keepUnlocks {Told : Entry → Prop} {clock : Nat → Instant} (Holds : Ledger → Prop)
    (commits : ∀ {ledger made}, Made Told clock made → Holds ledger → Holds (ledger.commit made.1 made.2).1)
    {playback : Playback} {calls : List Call} (ahead : playback.stack.Ahead Told)
    (holds : Holds playback.teller.ledger) {ledger : Ledger}
    (listed : Deed.keepUnlocks ledger ∈ (playback.transcript clock calls).flatMap Exchange.deeds) : Holds ledger := by
  let Kept (record : Record) : Prop := (∀ earlier ∈ record.left, Holds earlier) ∧ Holds record.ledger
  have kept : Kept (Record.commitAll ⟨[], playback.teller.ledger⟩ (playback.commits clock calls)) := by
    have begun : Kept ⟨[], playback.teller.ledger⟩ := ⟨fun _ none => absurd none List.not_mem_nil, holds⟩
    refine List.foldlRecOn _ _ begun fun record holds made member => ?_
    have committed := commits (made_of_mem_commits ahead member) holds.2
    refine ⟨fun earlier left => ?_, committed⟩
    simp only [Record.commit] at left
    split at left
    · rcases List.mem_append.mp left with before | newest
      · exact holds.1 earlier before
      · exact List.mem_singleton.mp newest ▸ committed
    · exact holds.1 earlier left
  rw [← record_course] at kept
  exact kept.1 ledger (mem_ledgersOf.mpr listed)

end Playback

/-- As long as the slots last, a commit adds what is new to each category once and in order, and changes nothing else.
So a ledger only grows at the ends of its categories, over commits and over whole courses of playback. -/
theorem ledger_only_grows (ledger : Ledger) (unlocks : Unlocks) (now : Instant) :
    (ledger.HasRoom unlocks → ledger.Commits unlocks now (ledger.commit unlocks now)) ∧
      (∀ commits, ledger.HasRoomForAll commits → (ledger.commitAll commits).GrownFrom ledger) ∧
      ∀ (playback : Playback) (clock : Nat → Instant) (calls : List Playback.Call),
        playback.teller.ledger.HasRoomForAll (playback.commits clock calls) →
          (playback.after clock calls).teller.ledger.GrownFrom playback.teller.ledger := by
  refine ⟨fun room => Ledger.commits_commit room now, fun commits room => (Ledger.GrownFrom.refl ledger).commitAll room,
    fun playback clock calls room => ?_⟩
  have recorded := congrArg Playback.Record.ledger (Playback.record_course playback clock calls)
  rw [Playback.Record.ledger_commitAll] at recorded
  rw [show (playback.after clock calls).teller.ledger = _ from recorded]
  exact (Ledger.GrownFrom.refl _).commitAll room

theorem good_ending_settles :
    let unlocks : Unlocks := Catalog.empty.insert "endings" [("first", .string "good")]
    let committed := Ledger.empty.commit unlocks default
    let playback := Playback.Setup.playback {} [{ Entry.line none "The end." with unlocks := some unlocks }]
    let commits := playback.commits default [.start]
    unlocks.Proper ∧ Ledger.empty.HasRoom unlocks ∧ committed.2 = true ∧
      (∀ later, committed.1.commit unlocks later = (committed.1, false)) ∧
      commits.length = 1 ∧ playback.teller.ledger.HasRoomForAll commits ∧
      (playback.teller.ledger.commitAll commits).GrownFrom playback.teller.ledger ∧
      (playback.after default [.start]).teller.ledger.GrownFrom playback.teller.ledger := by
  intro unlocks committed playback commits
  have proper : unlocks.Proper := by
    intro category id reached
    by_cases same : category = "endings"
    · subst same
      rw [Unlocks.ids, Catalog.get?_insert_self] at reached
      rw [List.mem_singleton.mp reached]
      trivial
    · rw [Unlocks.ids, Catalog.get?_insert_of_ne same] at reached
      simp at reached
  have room : Ledger.empty.HasRoom unlocks := by decide
  have room_for_all : playback.teller.ledger.HasRoomForAll commits := by decide +kernel
  obtain ⟨commit, commit_all, course⟩ := ledger_only_grows .empty unlocks default
  exact ⟨proper, room, by decide, (commit room).settled proper, by decide +kernel, room_for_all,
    commit_all commits room_for_all, course playback default [.start] room_for_all⟩

end BranchingStory
