import BranchingStory.Proofs.Catalog.Lookup
import BranchingStory.Proofs.Playback.Termination

/-!
The shape of the stack. The entries that a context has told are its first ones, and every context above the
root tells the branch of the entry that the context below it told last. So the entries of a story are told
in the order of the script, each of them once at most.
-/

namespace BranchingStory

namespace Playback

/-! ## Contexts -/

namespace Context

/-- A context has told its first `count` entries and no others. -/
structure Told (context : Context) (count : Nat) : Prop where
  bound : count ≤ context.entries.length
  processed : context.processed.keys = List.range count

/-- The context `above` tells the branch of the entry that `below` has told last. -/
def LeadsInto (below above : Context) : Prop :=
  ∃ last entry branch, below.Told (last + 1) ∧ below.entries[last]? = some entry ∧
    entry.branch = some branch ∧ above.entries = branch.story

variable {context : Context} {count index : Nat} {entry : Entry}

theorem told_start (story : Story) : (start story).Told 0 := ⟨Nat.zero_le _, rfl⟩

theorem firstMissing_range' (start count : Nat) :
    firstMissing start (List.range' start count) = start + count := by
  induction count generalizing start with
  | zero => rfl
  | succ count ih =>
      rw [List.range'_succ, firstMissing, if_pos rfl, ih]
      omega

theorem Told.next?_eq (told : context.Told count) :
    context.next? = context.entries[count]?.map fun entry => (count, entry) := by
  have first : firstMissing 0 context.processed.keys = count := by
    rw [told.processed, List.range_eq_range', firstMissing_range', Nat.zero_add]
  rw [next?, first]

theorem Told.of_next? (told : context.Told count) (found : context.next? = some (index, entry)) :
    index = count ∧ context.entries[count]? = some entry := by
  rw [told.next?_eq] at found
  obtain ⟨other, present, same⟩ := Option.map_eq_some_iff.mp found
  obtain ⟨rfl, rfl⟩ := Prod.mk.inj same
  exact ⟨rfl, present⟩

theorem Told.mark (told : context.Told count) (found : context.next? = some (index, entry)) :
    (context.mark index).Told (index + 1) := by
  obtain ⟨rfl, present⟩ := told.of_next? found
  obtain ⟨bound, _⟩ := List.getElem?_eq_some_iff.mp present
  refine ⟨bound, ?_⟩
  have above : ∀ other ∈ context.processed.keys, compare other index = .lt := by
    intro other member
    rw [told.processed, List.mem_range] at member
    exact Nat.compare_eq_lt.mpr member
  rw [Context.mark, Catalog.keys_insert_of_above above, told.processed, List.range_succ]

end Context

/-! ## Stacks -/

namespace Stack

inductive Shaped (story : Story) : Stack → Prop
  | ended : Shaped story []
  | root {context : Context} {count : Nat} (told : context.Told count) (same : context.entries = story) :
      Shaped story [context]
  | nested {above below : Context} {rest : Stack} {count : Nat} (told : above.Told count)
      (leads : below.LeadsInto above) (shaped : Shaped story (below :: rest)) :
      Shaped story (above :: below :: rest)

/-- What a turn does to the stack: it tells an entry of the context on top, which may lead into a branch, or
leaves that context. -/
inductive GoesTo : Stack → Stack → Prop
  | ended : GoesTo [] []
  | leave {context : Context} {below : Stack} (exhausted : context.next? = none) :
      GoesTo (context :: below) below
  | tell {context : Context} {below : Stack} {index : Nat} {entry : Entry}
      (found : context.next? = some (index, entry)) :
      GoesTo (context :: below) (context.mark index :: below)
  | enter {context : Context} {below : Stack} {index : Nat} {entry : Entry} {branch : Branch}
      (found : context.next? = some (index, entry)) (led : entry.branch = some branch) :
      GoesTo (context :: below) (.start branch.story :: context.mark index :: below)

variable {story : Story} {stack next below : Stack} {context : Context} {index : Nat} {entry : Entry}

theorem Shaped.top (shaped : Shaped story (context :: below)) : ∃ count, context.Told count := by
  cases shaped with
  | root told same => exact ⟨_, told⟩
  | nested told leads shaped => exact ⟨_, told⟩

theorem Shaped.leave (shaped : Shaped story (context :: below)) : Shaped story below := by
  cases shaped with
  | root told same => exact .ended
  | nested told leads shaped => exact shaped

theorem Shaped.tell (shaped : Shaped story (context :: below))
    (found : context.next? = some (index, entry)) : Shaped story (context.mark index :: below) := by
  cases shaped with
  | root told same => exact .root (told.mark found) same
  | nested told leads shaped => exact .nested (told.mark found) leads shaped

theorem leadsInto_mark {count : Nat} {branch : Branch} (told : context.Told count)
    (found : context.next? = some (index, entry)) (led : entry.branch = some branch) :
    (context.mark index).LeadsInto (.start branch.story) := by
  obtain ⟨rfl, present⟩ := told.of_next? found
  exact ⟨index, entry, branch, told.mark found, present, led, rfl⟩

theorem Shaped.goesTo (shaped : Shaped story stack) (goes : GoesTo stack next) : Shaped story next := by
  cases goes with
  | ended => exact .ended
  | leave exhausted => exact shaped.leave
  | tell found => exact shaped.tell found
  | enter found led =>
      obtain ⟨count, told⟩ := shaped.top
      exact .nested (Context.told_start _) (leadsInto_mark told found led) (shaped.tell found)

theorem GoesTo.below_suffix (goes : GoesTo stack next) : stack.tail <:+ next := by
  cases goes with
  | ended => exact List.suffix_refl _
  | leave exhausted => exact List.suffix_refl _
  | tell found => exact List.suffix_cons _ _
  | enter found led => exact (List.suffix_cons _ _).trans (List.suffix_cons _ _)

/-! ## Addresses -/

/-- Where an entry stands in the script: its index, after the indices of the entries that lead to it. -/
abbrev Address := List Nat

def address (stack : Stack) : Address := stack.reverse.filterMap (·.processed.lastKey?)

def told? : Stack → Option Address
  | [] => none
  | context :: below => context.next?.map fun (index, _) => address below ++ [index]

/-- Comes before the address of every entry that is still to be told. -/
def frontier : Stack → Address
  | [] => []
  | context :: below => address below ++ [context.processed.keys.length]

theorem address_cons (context : Context) (below : Stack) :
    address (context :: below) = address below ++ context.processed.lastKey?.toList := by
  simp only [address, List.reverse_cons, List.filterMap_append]
  cases last : context.processed.lastKey? <;> simp [last]

theorem frontier_cons {count : Nat} (told : context.Told count) (below : Stack) :
    frontier (context :: below) = address below ++ [count] := by
  rw [frontier, told.processed, List.length_range]

theorem address_cons_of_told {last : Nat} (told : context.Told (last + 1)) (below : Stack) :
    address (context :: below) = address below ++ [last] := by
  rw [address_cons, Catalog.lastKey?_eq_getLast?, told.processed, List.getLast?_range]
  rfl

theorem told?_eq_frontier {address : Address} (shaped : Shaped story stack)
    (telling : stack.told? = some address) : address = stack.frontier := by
  cases stack with
  | nil => simp [told?] at telling
  | cons context below =>
      obtain ⟨count, told⟩ := shaped.top
      obtain ⟨⟨index, entry⟩, found, same⟩ := Option.map_eq_some_iff.mp telling
      obtain ⟨rfl, _⟩ := told.of_next? found
      rw [frontier_cons told, ← same]

theorem lt_of_last_lt {above : Address} {first second : Nat} (less : first < second) (more : Address) :
    above ++ first :: more < above ++ [second] :=
  List.append_left_lt (List.Lex.rel less)

theorem frontier_lt (shaped : Shaped story stack) (goes : GoesTo stack next) (unended : next ≠ []) :
    stack.frontier < next.frontier := by
  cases goes with
  | ended => exact absurd rfl unended
  | leave exhausted =>
      cases shaped with
      | root told same => exact absurd rfl unended
      | @nested _ _ rest _ told leads shaped =>
          obtain ⟨last, _, _, lastTold, _⟩ := leads
          rw [frontier_cons told, frontier_cons lastTold, address_cons_of_told lastTold,
            List.append_assoc]
          exact lt_of_last_lt (Nat.lt_succ_self last) _
  | tell found =>
      obtain ⟨count, told⟩ := shaped.top
      obtain ⟨rfl, _⟩ := told.of_next? found
      rw [frontier_cons told, frontier_cons (told.mark found)]
      exact lt_of_last_lt (Nat.lt_succ_self _) []
  | enter found led =>
      obtain ⟨count, told⟩ := shaped.top
      obtain ⟨rfl, _⟩ := told.of_next? found
      rw [frontier_cons told, frontier_cons (Context.told_start _),
        address_cons_of_told (told.mark found), List.append_assoc]
      exact List.append_left_lt (List.Lex.cons List.Lex.nil)

end Stack

/-! ## Moves of a run -/

structure Move where
  before : Stack
  after : Stack

def Turn.stack : Turn → Stack
  | .onward next _ => next
  | .rest last _ => last

def moves (clock : Nat → Instant) (stack : Stack) (step : Step) : List Move :=
  match _turned : turn clock stack step with
  | .onward next after => ⟨stack, next⟩ :: moves clock next after
  | .rest last _ => [⟨stack, last⟩]
termination_by stack.turnsLeft
decreasing_by exact Stack.turnsLeft_lt_of_turn _turned

inductive Path : Stack → List Move → Stack → Prop
  | here {stack : Stack} : Path stack [] stack
  | move {stack next last : Stack} {rest : List Move} (goes : Stack.GoesTo stack next)
      (path : Path next rest last) : Path stack (⟨stack, next⟩ :: rest) last

theorem goesTo_of_turnsTo {clock : Nat → Instant} {stack : Stack} {step : Step} {turned : Turn}
    (turns : TurnsTo clock stack step turned) : Stack.GoesTo stack turned.stack := by
  cases turns with
  | finish => exact .ended
  | exhaust exhausted => exact .leave exhausted
  | enter found led taken => exact .enter found led
  | linger found led skipped root => exact .tell found
  | skip found led skipped => exact .tell found
  | pause found plain pauses => exact .tell found
  | pass found plain passes => exact .tell found

theorem path_moves (clock : Nat → Instant) (stack : Stack) (step : Step) :
    Path stack (moves clock stack step) (run clock stack step).1 := by
  induction stack, step using run.induct clock with
  | case1 stack step next after turned ih =>
      have goes := goesTo_of_turnsTo (turnsTo_turn clock stack step)
      rw [turned] at goes
      rw [moves, run, turned]
      exact .move goes ih
  | case2 stack step last paused turned =>
      have goes := goesTo_of_turnsTo (turnsTo_turn clock stack step)
      rw [turned] at goes
      rw [moves, run, turned]
      exact .move goes .here

namespace Path

variable {first middle last : Stack} {moves later : List Move}

theorem append (path : Path first moves middle) (further : Path middle later last) :
    Path first (moves ++ later) last := by
  induction path with
  | here => exact further
  | move goes path ih => exact .move goes (ih further)

theorem shaped {story : Story} (path : Path first moves last) (shaped : first.Shaped story) :
    last.Shaped story ∧ ∀ move ∈ moves, move.before.Shaped story ∧ move.before.GoesTo move.after := by
  induction path with
  | here => exact ⟨shaped, by simp⟩
  | move goes path ih =>
      obtain ⟨rests, along⟩ := ih (shaped.goesTo goes)
      exact ⟨rests, List.forall_mem_cons.mpr ⟨⟨shaped, goes⟩, along⟩⟩

theorem told?_eq_none (path : Path [] moves last) {move : Move} (member : move ∈ moves) :
    move.before.told? = none := by
  generalize start : ([] : Stack) = stack at path
  induction path with
  | here => simp at member
  | move goes path ih =>
      subst start
      cases goes
      rcases List.mem_cons.mp member with rfl | later
      · rfl
      · exact ih later rfl

theorem ascends {story : Story} (path : Path first moves last) (shaped : first.Shaped story) :
    (∀ address ∈ moves.filterMap (·.before.told?), address = first.frontier ∨ first.frontier < address) ∧
      (moves.filterMap (·.before.told?)).Pairwise (· < ·) := by
  induction path with
  | here => simp
  | @move stack next last rest goes path ih =>
      by_cases ended : next = []
      · subst ended
        have silent : rest.filterMap (·.before.told?) = [] :=
          List.filterMap_eq_nil_iff.mpr fun move member => path.told?_eq_none member
        cases telling : stack.told? with
        | none => simp [telling, silent]
        | some address => simp [telling, silent, Stack.told?_eq_frontier shaped telling]
      · obtain ⟨beyond, ascending⟩ := ih (shaped.goesTo goes)
        have further := Stack.frontier_lt shaped goes ended
        have above : ∀ address ∈ rest.filterMap (·.before.told?), stack.frontier < address := by
          intro address member
          rcases beyond address member with rfl | less
          · exact further
          · exact List.lt_trans further less
        cases telling : stack.told? with
        | none =>
            simp only [List.filterMap_cons, telling]
            exact ⟨fun address member => .inr (above address member), ascending⟩
        | some address =>
            obtain rfl := Stack.told?_eq_frontier shaped telling
            simp only [List.filterMap_cons, telling]
            refine ⟨List.forall_mem_cons.mpr ⟨.inl rfl, ?_⟩, List.pairwise_cons.mpr ⟨above, ascending⟩⟩
            exact fun address member => .inr (above address member)

end Path

/-! ## Courses -/

def prepared? (playback : Playback) : Call → Option Step
  | .start => if playback.teller.status = .idle then some playback.opening else none
  | .event .advance => if playback.goesOn (.event .advance) then some playback.prompted else none
  | .event (.timerElapsed token) =>
      if playback.teller.status = .awaitingTimer then
        (playback.teller.timer.fire? token).map playback.elapsed
      else none
  | .event (.choose index) =>
      if playback.teller.status = .awaitingChoice then
        playback.teller.pending[index]?.map (playback.chosen index)
      else none
  | .setAutoplay _ => none
  | .peek => none

theorem prepares_iff {playback : Playback} {call : Call} {step : Step} :
    Prepares playback call step ↔ playback.prepared? call = some step := by
  constructor
  · intro prepared
    cases prepared with
    | start idle => exact if_pos idle
    | advance waits => exact if_pos (Prepares.advance waits).goesOn
    | timerElapsed waits fires => simp [prepared?, waits, fires]
    | choose waits offered => simp [prepared?, waits, offered]
  · intro prepared
    cases call with
    | start =>
        simp only [prepared?, Option.ite_none_right_eq_some, Option.some.injEq] at prepared
        exact prepared.2 ▸ .start prepared.1
    | event event =>
        cases event with
        | advance =>
            simp only [prepared?, goesOn, Option.ite_none_right_eq_some, Option.some.injEq, Bool.or_eq_true,
              decide_eq_true_eq, or_assoc] at prepared
            exact prepared.2 ▸ .advance prepared.1
        | timerElapsed token =>
            simp only [prepared?, Option.ite_none_right_eq_some, Option.map_eq_some_iff] at prepared
            obtain ⟨waits, timer, fires, rfl⟩ := prepared
            exact .timerElapsed waits fires
        | choose index =>
            simp only [prepared?, Option.ite_none_right_eq_some, Option.map_eq_some_iff] at prepared
            obtain ⟨waits, choice, offered, rfl⟩ := prepared
            exact .choose waits offered
    | setAutoplay autoplay => simp [prepared?] at prepared
    | peek => simp [prepared?] at prepared

def Exchange.moves (clock : Nat → Instant) (exchange : Exchange) : List Move :=
  match exchange.before.prepared? exchange.call with
  | some step => Playback.moves clock exchange.before.stack step.underWay
  | none => []

theorem path_ask (clock : Nat → Instant) (playback : Playback) (call : Call) :
    let answer := playback.ask clock call
    let exchange : Exchange := ⟨playback, call, answer.1, answer.2⟩
    Path playback.stack (exchange.moves clock) answer.1.stack := by
  intro answer exchange
  cases goes : playback.goesOn call with
  | true =>
      obtain ⟨step, prepared, answered⟩ := ask_of_goesOn clock goes
      simp only [Exchange.moves, exchange, prepares_iff.mp prepared, answer, answered]
      exact path_moves clock playback.stack step.underWay
  | false =>
      have idle : playback.prepared? call = none := by
        rw [Option.eq_none_iff_forall_ne_some]
        intro step prepared
        simp [(prepares_iff.mpr prepared).goesOn] at goes
      simp only [Exchange.moves, exchange, idle, answer, stack_ask_of_not_goesOn clock goes]
      exact .here

theorem path_after (clock : Nat → Instant) (playback : Playback) (calls : List Call) :
    Path playback.stack ((playback.transcript clock calls).flatMap (Exchange.moves clock))
      (playback.after clock calls).stack := by
  induction calls generalizing playback with
  | nil => exact .here
  | cons call later ih => exact (path_ask clock playback call).append (ih (playback.ask clock call).1)

/-- Whatever has been asked, the stack has its shape: each context has told an initial segment of its entries,
and each above the root tells the branch of the entry that was told last below it. All turns that were made
found that shape and changed the context on top only, and the entries they told ascend in the script. -/
theorem stack_keeps_shape (setup : Setup) (story : Story) (clock : Nat → Instant) (calls : List Call) :
    let unstarted := setup.playback story
    let moves := (unstarted.transcript clock calls).flatMap (Exchange.moves clock)
    let played := unstarted.after clock calls
    played.stack.Shaped story ∧ Path unstarted.stack moves played.stack ∧
      (∀ move ∈ moves, move.before.Shaped story ∧ move.after.Shaped story ∧
        move.before.tail <:+ move.after) ∧
      (moves.filterMap (·.before.told?)).Pairwise (· < ·) := by
  intro unstarted moves played
  have path : Path unstarted.stack moves played.stack := path_after clock unstarted calls
  have fresh : unstarted.stack.Shaped story := .root (Context.told_start story) rfl
  obtain ⟨shaped, along⟩ := path.shaped fresh
  refine ⟨shaped, path, ?_, (path.ascends fresh).2⟩
  intro move member
  obtain ⟨found, goes⟩ := along move member
  exact ⟨found, found.goesTo goes, goes.below_suffix⟩

end Playback
end BranchingStory
