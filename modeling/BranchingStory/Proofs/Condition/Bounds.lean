import BranchingStory.Proofs.Condition.Reading

/-!
How large conditions can be, and how deep. What is read has as many operators and accesses as were counted against the
allowance, so its height is bounded and with it the nesting of its evaluation. Reading nests no deeper than a number of
calls that does not depend on the source: each way round, through a sign, a parenthesis or a bracket, adds to the depth
that operands are read at.
-/

namespace BranchingStory.Condition

open Grammar (Phrase Derives)

/-! ## Runs with a record -/

/-- A run that writes numbers into a record on its way. It has no outcome if it needs more nested calls than there is
room for. -/
structure Watched (α : Type) where
  outcome : Option (Except Error α)
  record : List Nat

namespace Watched

variable {α β : Type}

instance : Monad Watched where
  pure value := ⟨some (.ok value), []⟩
  bind first next :=
    match first.outcome with
    | some (.ok value) => ⟨(next value).outcome, first.record ++ (next value).record⟩
    | some (.error cause) => ⟨some (.error cause), first.record⟩
    | none => ⟨none, first.record⟩

def ofResult (result : Except Error α) : Watched α := ⟨some result, []⟩

def note (number : Nat) : Watched Unit := ⟨some (.ok ()), [number]⟩

def overflow : Watched α := ⟨none, []⟩

end Watched

structure Follows {α : Type} (most : Nat) (watched : Watched α) (result : Except Error α) : Prop where
  outcome : watched.outcome = some result
  bounded : ∀ number ∈ watched.record, number ≤ most

namespace Follows

variable {α β : Type} {most : Nat}

theorem ofResult (result : Except Error α) : Follows most (.ofResult result) result :=
  ⟨rfl, fun _ => nofun⟩

theorem pure (value : α) : Follows most (Pure.pure value) (.ok value) := ofResult _

theorem bind {first : Watched α} {result : Except Error α} {next : α → Watched β} {more : α → Except Error β}
    (follows : Follows most first result) (later : ∀ value, Follows most (next value) (more value)) :
    Follows most (first >>= next) (result >>= more) := by
  obtain ⟨outcome, record⟩ := first
  obtain rfl := follows.outcome
  cases result with
  | error cause => exact ⟨rfl, follows.bounded⟩
  | ok value =>
      refine ⟨(later value).outcome, ?_⟩
      intro number listed
      rcases List.mem_append.mp listed with here | there
      · exact follows.bounded number here
      · exact (later value).bounded number there

theorem note {next : Unit → Watched α} {result : Except Error α} {number : Nat} (within : number ≤ most)
    (later : Follows most (next ()) result) : Follows most (Watched.note number >>= next) result := by
  refine ⟨later.outcome, ?_⟩
  intro other listed
  rcases List.mem_cons.mp listed with rfl | more
  · exact within
  · exact later.bounded other more

end Follows

/-! ## Sizes -/

namespace Expression

def operators : Expression → Nat
  | .literal _ => 0
  | .variable _ => 0
  | .member object property => object.operators + property.operators + 1
  | .unary _ operand => operand.operators + 1
  | .binary _ left right => left.operators + right.operators + 1

def height : Expression → Nat
  | .literal _ => 1
  | .variable _ => 1
  | .member object property => max object.height property.height + 1
  | .unary _ operand => operand.height + 1
  | .binary _ left right => max left.height right.height + 1

theorem height_le_operators (value : Expression) : value.height ≤ value.operators + 1 := by
  induction value with
  | literal operand => exact Nat.le_refl 1
  | «variable» name => exact Nat.le_refl 1
  | member object property first second =>
      simp only [height, operators]
      omega
  | unary op operand ih =>
      simp only [height, operators]
      omega
  | binary op left right first second =>
      simp only [height, operators]
      omega

theorem operators_of_derives {phrase : Phrase} {tokens : List Token} {value : Expression} {operators nesting : Nat}
    (derives : Derives phrase tokens value operators nesting) : value.operators = operators := by
  induction derives with
  | join joins before behind first second => rw [Expression.operators, first, second]
  | tighter loose phrase ih => exact ih
  | operand phrase ih => exact ih
  | sign signs phrase ih => rw [Expression.operators, ih]
  | unsigned phrase ih => exact ih
  | dot before names ih => rw [Expression.operators, ih]; rfl
  | bracket before inside first second => rw [Expression.operators, first, second]
  | unaccessed phrase ih => exact ih
  | single denotes => cases denotes <;> rfl
  | parens inside ih => exact ih

/-! ## Evaluation -/

/-- Evaluation with a record of the levels at which it is under way. -/
def evalWatched (scope : Members) : Expression → Nat → Watched Operand
  | .literal value, level => do
      .note level
      return value
  | .variable name, level => do
      .note level
      match scope.get? name with
      | some value => return .ofJson value
      | none => .ofResult (.error (.unknownName name))
  | .member object property, level => do
      .note level
      let object ← object.evalWatched scope (level + 1)
      let property ← property.evalWatched scope (level + 1)
      .ofResult (object.member property.display)
  | .unary op operand, level => do
      .note level
      let value ← operand.evalWatched scope (level + 1)
      return op.apply value
  | .binary op left right, level => do
      .note level
      let left ← left.evalWatched scope (level + 1)
      if op.decided left then return left
      let right ← right.evalWatched scope (level + 1)
      return op.apply left right

theorem follows_eval (scope : Members) {value : Expression} {level most : Nat} (fits : level + value.height ≤ most + 1) :
    Follows most (value.evalWatched scope level) (value.eval scope) := by
  induction value generalizing level with
  | literal operand =>
      simp only [height] at fits
      exact .note (by omega) (.pure operand)
  | «variable» name =>
      simp only [height] at fits
      refine .note (by omega) ?_
      rw [eval]
      cases scope.get? name with
      | none => exact .ofResult _
      | some found => exact .pure _
  | member object property first second =>
      simp only [height] at fits
      refine .note (by omega) ?_
      refine (first (by omega)).bind fun target => ?_
      exact (second (by omega)).bind fun key => .ofResult _
  | unary op operand ih =>
      simp only [height] at fits
      refine .note (by omega) ?_
      exact (ih (by omega)).bind fun found => .pure _
  | binary op left right first second =>
      simp only [height] at fits
      refine .note (by omega) ?_
      refine (first (by omega)).bind fun target => ?_
      split
      · exact .pure _
      · exact (second (by omega)).bind fun other => .pure _

end Expression

/-! ## Reading -/

namespace Watched

abbrev Reader := Remaining → Watched (Expression × Remaining)

def joinLevel (level : Nat) (operand : Watched.Reader) :
    Nat → Expression → Remaining → Watched (Expression × Remaining)
  | 0, _, _ => ofResult (.error .tooLong)
  | steps + 1, left, state =>
      match state.mark?.bind BinaryOp.ofMark? with
      | some op =>
          if op.level = level then do
            let state ← ofResult state.spend
            let (right, state) ← operand state.skip
            joinLevel level operand steps (.binary op left right) state
          else pure (left, state)
      | none => pure (left, state)

def primary (inner : Watched.Reader) : Watched.Reader := fun state => do
  let (found, state) ← ofResult state.next
  match found.token with
  | .number value => return (.literal (.number value), state)
  | .text value => return (.literal (.text value), state)
  | .keyword .yes => return (.literal (.bool true), state)
  | .keyword .no => return (.literal (.bool false), state)
  | .keyword .null => return (.literal .null, state)
  | .keyword .undefined => return (.literal .undefined, state)
  | .name name => return (.variable name, state)
  | .mark .openParen => do
      let (value, state) ← inner state
      let state ← ofResult (state.expect .closeParen)
      return (value, state)
  | .mark _ => ofResult (.error (.unexpectedToken found))

def accesses (inner : Watched.Reader) : Nat → Expression → Remaining → Watched (Expression × Remaining)
  | 0, _, _ => ofResult (.error .tooLong)
  | steps + 1, object, state =>
      match state.mark? with
      | some .dot => do
          let (found, state) ← ofResult state.skip.next
          let name ← ofResult (propertyName found)
          let state ← ofResult state.spend
          accesses inner steps (.member object (.literal (.text name))) state
      | some .openBracket => do
          let (index, state) ← inner state.skip
          let state ← ofResult (state.expect .closeBracket)
          let state ← ofResult state.spend
          accesses inner steps (.member object index) state
      | _ => pure (object, state)

/-- Reads a phrase within so many nested calls. The depth is counted upwards, and at each operand it is written into
the record and compared with the limit. -/
def read : (frames : Nat) → Phrase → (depth : Nat) → Watched.Reader
  | 0, _, _ => fun _ => overflow
  | frames + 1, .level number, depth => fun state => do
      let operand := read frames (if number < 5 then .level (number + 1) else .signed) depth
      let (left, state) ← operand state
      joinLevel number operand (state.allowance + 1) left state
  | frames + 1, .signed, depth => fun state => do
      note depth
      if deepestNesting ≤ depth then ofResult (.error .tooDeep)
      else match state.mark?.bind UnaryOp.ofMark? with
        | some op => do
            let state ← ofResult state.spend
            let (value, state) ← read frames .signed (depth + 1) state.skip
            return (.unary op value, state)
        | none => read frames .accessed depth state
  | frames + 1, .accessed, depth => fun state => do
      let (object, state) ← read frames .simple depth state
      accesses (read frames (.level 0) (depth + 1)) (state.allowance + 1) object state
  | frames + 1, .simple, depth => primary (read frames (.level 0) (depth + 1))

end Watched

def Tracks (watched : Watched.Reader) (reader : Reader) : Prop :=
  ∀ state, Follows deepestNesting (watched state) (reader state)

namespace Tracks

variable {watched : Watched.Reader} {reader : Reader} {frames depth room : Nat}

theorem joinLevel (tracks : Tracks watched reader) (level steps : Nat) (left : Expression) (state : Remaining) :
    Follows deepestNesting (Watched.joinLevel level watched steps left state)
      (Condition.joinLevel level reader steps left state) := by
  induction steps generalizing left state with
  | zero => exact .ofResult _
  | succ steps ih =>
      cases found : state.mark?.bind BinaryOp.ofMark? with
      | none =>
          simp only [Watched.joinLevel, Condition.joinLevel, found]
          exact .pure _
      | some op =>
          by_cases joins : op.level = level
          · simp only [Watched.joinLevel, Condition.joinLevel, found, if_pos joins]
            refine (Follows.ofResult _).bind fun state => ?_
            refine (tracks _).bind fun read => ?_
            obtain ⟨right, state⟩ := read
            exact ih _ _
          · simp only [Watched.joinLevel, Condition.joinLevel, found, if_neg joins]
            exact .pure _

theorem primary (tracks : Tracks watched reader) : Tracks (Watched.primary watched) (Condition.primary reader) := by
  intro state
  refine (Follows.ofResult _).bind fun read => ?_
  obtain ⟨⟨token, offset⟩, state⟩ := read
  cases token with
  | number | text | name => exact .pure _
  | keyword word => cases word <;> exact .pure _
  | mark sign =>
      cases sign
      case openParen =>
        refine (tracks _).bind fun read => ?_
        obtain ⟨value, state⟩ := read
        exact (Follows.ofResult _).bind fun state => .pure _
      all_goals exact .ofResult _

theorem accesses (tracks : Tracks watched reader) (steps : Nat) (object : Expression) (state : Remaining) :
    Follows deepestNesting (Watched.accesses watched steps object state)
      (Condition.accesses reader steps object state) := by
  induction steps generalizing object state with
  | zero => exact .ofResult _
  | succ steps ih =>
      rw [Watched.accesses, Condition.accesses]
      cases state.mark? with
      | none => exact .pure _
      | some sign =>
          cases sign
          case dot =>
            refine (Follows.ofResult _).bind fun read => ?_
            obtain ⟨found, state⟩ := read
            refine (Follows.ofResult _).bind fun name => ?_
            refine (Follows.ofResult _).bind fun state => ?_
            exact ih _ _
          case openBracket =>
            refine (tracks _).bind fun read => ?_
            obtain ⟨index, state⟩ := read
            refine (Follows.ofResult _).bind fun state => ?_
            refine (Follows.ofResult _).bind fun state => ?_
            exact ih _ _
          all_goals exact .pure _

theorem joined (tracks : Tracks (Watched.read frames .signed depth) reader) {count number : Nat}
    (levels : number + count = 6) :
    Tracks (Watched.read (frames + count) (if count = 0 then .signed else .level number) depth)
      (Condition.joined reader count number) := by
  induction count generalizing number with
  | zero => exact tracks
  | succ count ih =>
      have tighter : (if number < 5 then Phrase.level (number + 1) else .signed) =
          if count = 0 then .signed else .level (number + 1) := by
        by_cases last : count = 0
        · rw [if_pos last, if_neg (by omega)]
        · rw [if_neg last, if_pos (by omega)]
      have next : Tracks _ (Condition.joined reader count (number + 1)) := ih (by omega)
      rw [← tighter] at next
      intro state
      refine (next state).bind fun read => ?_
      obtain ⟨left, state⟩ := read
      exact next.joinLevel number _ left state

theorem expression (tracks : ∀ frames, 9 * room < frames → Tracks (Watched.read frames .signed depth) (operand room))
    (enough : 9 * room + 6 < frames) : Tracks (Watched.read frames (.level 0) depth) (Condition.expression (operand room)) := by
  obtain ⟨fewer, rfl⟩ : ∃ fewer, frames = fewer + 6 := ⟨frames - 6, by omega⟩
  exact (tracks fewer (by omega)).joined rfl

theorem accessed (tracks : ∀ frames, 9 * room + 6 < frames → Tracks (Watched.read frames (.level 0) (depth + 1)) reader)
    (enough : 9 * room + 8 < frames) : Tracks (Watched.read frames .accessed depth) (Condition.accessed reader) := by
  obtain ⟨fewer, rfl⟩ : ∃ fewer, frames = fewer + 2 := ⟨frames - 2, by omega⟩
  intro state
  refine ((tracks fewer (by omega)).primary state).bind fun read => ?_
  obtain ⟨object, state⟩ := read
  exact (tracks (fewer + 1) (by omega)).accesses _ object state

theorem operand (within : depth + room = deepestNesting) (enough : 9 * room < frames) :
    Tracks (Watched.read frames .signed depth) (Condition.operand room) := by
  induction room generalizing depth frames with
  | zero =>
      obtain ⟨fewer, rfl⟩ : ∃ fewer, frames = fewer + 1 := ⟨frames - 1, by omega⟩
      intro state
      refine .note (by omega) ?_
      rw [if_pos (by omega)]
      exact .ofResult _
  | succ room ih =>
      obtain ⟨fewer, rfl⟩ : ∃ fewer, frames = fewer + 1 := ⟨frames - 1, by omega⟩
      have deeper (frames : Nat) (enough : 9 * room < frames) :
          Tracks (Watched.read frames .signed (depth + 1)) (Condition.operand room) := ih (by omega) enough
      intro state
      refine .note (by omega) ?_
      simp only [if_neg (show ¬ deepestNesting ≤ depth by omega), Condition.operand]
      cases state.mark?.bind UnaryOp.ofMark? with
      | none => exact accessed (fun frames enough => expression deeper enough) (by omega) state
      | some op =>
          refine (Follows.ofResult _).bind fun state => ?_
          exact (deeper fewer (by omega) _).bind fun read => .pure _

end Tracks

/-! ## Conditions -/

/-- What a source is read as has at most 256 operators and accesses, just those that were counted, and a height of at
most 257, and no evaluation of it goes deeper. Whatever the tokens are and whether or not they are an expression, the
reader makes do with 583 nested calls, and no operand is read at a depth of more than 64. -/
theorem conditions_are_small (source : String) :
    (∀ value, Expression.read source = .ok value →
      (∃ placed left, tokens source.toList = .ok placed ∧
        expression (operand deepestNesting) ⟨placed, mostOperators⟩ = .ok (value, ⟨[], left⟩) ∧
        value.operators + left = mostOperators) ∧
      value.operators ≤ 256 ∧ value.height ≤ 257 ∧
      ∀ scope, Follows 257 (value.evalWatched scope 1) (value.eval scope)) ∧
    ∀ placed : List Placed,
      Follows 64 (Watched.read 583 (.level 0) 0 ⟨placed, mostOperators⟩)
        (expression (operand deepestNesting) ⟨placed, mostOperators⟩) := by
  constructor
  · intro value reads
    obtain ⟨placed, lexed, ofTokens⟩ := bind_eq_ok.mp reads
    obtain ⟨left, parsed⟩ := ofTokens_eq_ok_iff.mp ofTokens
    obtain ⟨nesting, derives, bound, -⟩ := expression_eq_ok_iff.mp parsed
    have count := Expression.operators_of_derives derives
    have height := value.height_le_operators
    have most : mostOperators = 256 := rfl
    refine ⟨⟨placed, left, lexed, parsed, by omega⟩, by omega, by omega, ?_⟩
    intro scope
    exact Expression.follows_eval scope (by omega)
  · intro placed
    have operands (frames : Nat) (enough : 9 * deepestNesting < frames) :
        Tracks (Watched.read frames .signed 0) (operand deepestNesting) := Tracks.operand (Nat.zero_add _) enough
    exact Tracks.expression operands (by decide) _

theorem bracketed_condition_is_small :
    let source := "!(a[b[0].c] + -b['d'] * 2 >= +c && a.length === 3 || d)"
    let unclosed : List Placed := [⟨.mark .openParen, 0⟩, ⟨.mark .openParen, 1⟩]
    (∃ value, Expression.read source = .ok value ∧ value.operators = 14 ∧ value.height ≤ 257) ∧
      (Watched.read 583 (.level 0) 0 ⟨unclosed, mostOperators⟩).outcome = some (.error .unexpectedEnd) := by
  intro source unclosed
  obtain ⟨small, follows⟩ := conditions_are_small source
  have counted : (Expression.read source).toOption.map Expression.operators = some 14 := by decide +kernel
  obtain ⟨value, found, count⟩ := Option.map_eq_some_iff.mp counted
  have reads := toOption_eq_some.mp found
  exact ⟨⟨value, reads, count, (small value reads).2.2.1⟩, (follows unclosed).outcome⟩

end BranchingStory.Condition
