import BranchingStory.Condition.Reader
import BranchingStory.Proofs.Condition.Grammar
import BranchingStory.Proofs.Results

/-!
Reading is exact: it accepts what the grammar derives within the bounds on operators and on nesting, and
yields the expression that is derived. For each part of the reader, soundness says that what it has read is a
phrase of its kind; completeness says that it reads every phrase that nothing continues.
-/

namespace BranchingStory.Condition

open Grammar

namespace Grammar

theorem mem_level_iff {number : Nat} {sign : Mark} {op : BinaryOp} :
    (sign, op) ∈ levels.getD number [] ↔ BinaryOp.ofMark? sign = some op ∧ op.level = number := by
  rw [BinaryOp.ofMark?_eq_some_iff]
  rcases number with _ | _ | _ | _ | _ | _ | number <;> cases op <;>
    simp [levels, BinaryOp.mark, BinaryOp.level]

theorem mem_signs_iff {sign : Mark} {op : UnaryOp} :
    (sign, op) ∈ signs ↔ UnaryOp.ofMark? sign = some op := by
  rw [UnaryOp.ofMark?_eq_some_iff]
  cases op <;> simp [signs, UnaryOp.mark]

theorem names_iff {found : Placed} {name : String} :
    propertyName found = .ok name ↔ Names found.token name := by
  obtain ⟨token, offset⟩ := found
  constructor
  · intro named
    cases token with
    | name other => exact Except.ok.inj named ▸ .name other
    | keyword word => cases word <;> exact Except.ok.inj named ▸ (by constructor)
    | number | text | mark => simp [propertyName] at named
  · rintro ⟨⟩ <;> rfl

end Grammar

/-! ## What has been read -/

namespace Remaining

variable {state after : Remaining} {sign : Mark}

def precede (rest : Remaining) (read : List Placed) (operators : Nat) : Remaining :=
  ⟨read ++ rest.tokens, rest.allowance + operators⟩

theorem precede_precede (rest : Remaining) (first second : List Placed) (n m : Nat) :
    (rest.precede second m).precede first n = rest.precede (first ++ second) (m + n) := by
  simp [precede, Nat.add_assoc]

theorem precede_between (rest : Remaining) (first second : List Placed) (placed : Placed) (n m : Nat) :
    ((rest.precede second m).precede [placed] 1).precede first n =
      rest.precede (first ++ placed :: second) (n + m + 1) := by
  have count : m + 1 + n = n + m + 1 := by omega
  simp [precede_precede, count]

theorem precede_around (rest : Remaining) (leading within : List Placed) (opening closing : Placed) (n m : Nat) :
    (((rest.precede [closing] 1).precede within m).precede [opening] 0).precede leading n =
      rest.precede (leading ++ opening :: (within ++ [closing])) (n + m + 1) := by
  have count : 1 + m + n = n + m + 1 := by omega
  simp [precede_precede, count]

theorem mark?_eq_some_iff : state.mark? = some sign ↔
    ∃ offset, state = state.skip.precede [⟨.mark sign, offset⟩] 0 := by
  obtain ⟨tokens, allowance⟩ := state
  rcases tokens with _ | ⟨⟨token, offset⟩, more⟩
  · simp [mark?, precede]
  · cases token <;> simp [mark?, precede, skip]

theorem spend_eq_ok_iff : state.spend = .ok after ↔ state = after.precede [] 1 := by
  obtain ⟨tokens, allowance⟩ := state
  obtain ⟨others, less⟩ := after
  cases allowance <;> simp [spend, precede]

theorem precede_of_spend {spent : Remaining} (marked : state.mark? = some sign)
    (spends : state.spend = .ok spent) :
    ∃ offset, state = spent.skip.precede [⟨.mark sign, offset⟩] 1 := by
  obtain ⟨offset, same⟩ := mark?_eq_some_iff.mp marked
  obtain rfl := spend_eq_ok_iff.mp spends
  have tokens := congrArg Remaining.tokens same
  exact ⟨offset, by simpa [precede, skip] using tokens⟩

theorem next_eq_ok_iff {found : Placed} : state.next = .ok (found, after) ↔ state = after.precede [found] 0 := by
  obtain ⟨tokens, allowance⟩ := state
  obtain ⟨others, less⟩ := after
  cases tokens <;> simp [next, precede, and_assoc]

theorem expect_eq_ok_iff : state.expect sign = .ok after ↔
    ∃ offset, state = after.precede [⟨.mark sign, offset⟩] 0 := by
  simp only [expect, bind_eq_ok, Prod.exists, next_eq_ok_iff]
  constructor
  · rintro ⟨⟨token, offset⟩, rest, rfl, expected⟩
    cases token with
    | mark other =>
        by_cases same : other = sign
        · subst same
          simp only [if_true] at expected
          exact ⟨offset, Except.ok.inj expected ▸ rfl⟩
        · simp [same, throw, throwThe, MonadExceptOf.throw] at expected
    | number | text | name | keyword => simp [throw, throwThe, MonadExceptOf.throw] at expected
  · rintro ⟨offset, rfl⟩
    exact ⟨_, _, rfl, by simp [pure, Except.pure]⟩

end Remaining

/-- From the state `before` to the state `after` stands a phrase of this kind, with its operands less deep
than this. -/
def Consumes (phrase : Phrase) (depth : Nat) (before : Remaining) (value : Expression)
    (after : Remaining) : Prop :=
  ∃ read operators nesting, before = after.precede read operators ∧ nesting < depth ∧
    Derives phrase (read.map (·.token)) value operators nesting

def Continues : Phrase → Mark → Prop
  | .level number, sign =>
      (∃ op, BinaryOp.ofMark? sign = some op ∧ number ≤ op.level) ∨ sign = .dot ∨ sign = .openBracket
  | .signed, sign => sign = .dot ∨ sign = .openBracket
  | .accessed, sign => sign = .dot ∨ sign = .openBracket
  | .simple, _ => False

def Stops (phrase : Phrase) (state : Remaining) : Prop :=
  ∀ sign, state.mark? = some sign → ¬Continues phrase sign

structure Exact (reader : Reader) (phrase : Phrase) (depth : Nat) : Prop where
  sound : ∀ {before value after}, reader before = .ok (value, after) → Consumes phrase depth before value after
  complete : ∀ {before value after}, Consumes phrase depth before value after → Stops phrase after →
    reader before = .ok (value, after)

theorem Stops.tighter {number : Nat} {state : Remaining} (stops : Stops (.level number) state) :
    Stops (.level (number + 1)) state := by
  intro sign marked continues
  apply stops sign marked
  rcases continues with ⟨op, known, bound⟩ | access
  · exact .inl ⟨op, known, by omega⟩
  · exact .inr access

theorem Stops.operand {number : Nat} {state : Remaining} (stops : Stops (.level number) state) :
    Stops .signed state :=
  fun sign marked access => stops sign marked (.inr access)

/-! ## Levels -/

section

variable {next : Reader} {number depth : Nat}

theorem Consumes.join {sign : Mark} {op : BinaryOp} {offset : Nat} {start middle after : Remaining}
    {left right : Expression} (joins : (sign, op) ∈ levels.getD number [])
    (before : Consumes (.level number) depth start left (middle.precede [⟨.mark sign, offset⟩] 1))
    (behind : Consumes (.level (number + 1)) depth middle right after) :
    Consumes (.level number) depth start (.binary op left right) after := by
  obtain ⟨first, n, d, rfl, shallow, leftDerives⟩ := before
  obtain ⟨second, m, e, rfl, low, rightDerives⟩ := behind
  refine ⟨first ++ ⟨.mark sign, offset⟩ :: second, n + m + 1, max d e, ?_, by omega, ?_⟩
  · rw [Remaining.precede_between]
  · rw [List.map_append, List.map_cons]
    exact .join joins leftDerives rightDerives

theorem Consumes.tighter {before after : Remaining} {value : Expression} (loose : number < levels.length)
    (phrase : Consumes (.level (number + 1)) depth before value after) :
    Consumes (.level number) depth before value after := by
  obtain ⟨read, n, d, same, shallow, derives⟩ := phrase
  exact ⟨read, n, d, same, shallow, .tighter loose derives⟩

theorem joinLevel_sound (exact : Exact next (.level (number + 1)) depth) {steps : Nat} {left value : Expression}
    {start middle after : Remaining} (before : Consumes (.level number) depth start left middle)
    (joined : joinLevel number next steps left middle = .ok (value, after)) :
    Consumes (.level number) depth start value after := by
  induction steps generalizing left middle with
  | zero => simp [joinLevel] at joined
  | succ steps ih =>
      simp only [joinLevel] at joined
      split at joined
      · rename_i op found
        obtain ⟨sign, marked, known⟩ := Option.bind_eq_some_iff.mp found
        split at joined
        · rename_i level
          simp only [bind_eq_ok, Prod.exists] at joined
          obtain ⟨spent, spends, right, behind, reads, more⟩ := joined
          obtain ⟨offset, passed⟩ := Remaining.precede_of_spend marked spends
          rw [passed] at before
          exact ih (before.join (mem_level_iff.mpr ⟨known, level⟩) (exact.sound reads)) more
        · obtain ⟨rfl, rfl⟩ := Prod.mk.inj (Except.ok.inj joined)
          exact before
      · obtain ⟨rfl, rfl⟩ := Prod.mk.inj (Except.ok.inj joined)
        exact before

theorem joinLevel_of_stops {steps : Nat} {value : Expression} {rest : Remaining}
    (enough : rest.allowance < steps) (stops : Stops (.level number) rest) :
    joinLevel number next steps value rest = .ok (value, rest) := by
  obtain ⟨steps, rfl⟩ : ∃ fewer, steps = fewer + 1 := ⟨steps - 1, by omega⟩
  simp only [joinLevel]
  split
  · rename_i op found
    obtain ⟨sign, marked, known⟩ := Option.bind_eq_some_iff.mp found
    have other : op.level ≠ number := by
      intro level
      exact stops sign marked (.inl ⟨op, known, by omega⟩)
    rw [if_neg other]
  · rfl

theorem joinLevel_of_joins {steps offset : Nat} {sign : Mark} {op : BinaryOp} {left right : Expression}
    {middle rest : Remaining} (joins : (sign, op) ∈ levels.getD number [])
    (reads : next middle = .ok (right, rest)) :
    joinLevel number next (steps + 1) left (middle.precede [⟨.mark sign, offset⟩] 1) =
      joinLevel number next steps (.binary op left right) rest := by
  obtain ⟨known, level⟩ := mem_level_iff.mp joins
  have marked : (middle.precede [⟨.mark sign, offset⟩] 1).mark? = some sign := rfl
  simp only [joinLevel, marked, Option.bind_some, known, level, if_true]
  change (next middle >>= fun read =>
    joinLevel number next steps (.binary op left read.1) read.2) = _
  rw [reads]
  rfl

theorem stops_of_joins {sign : Mark} {op : BinaryOp} {offset : Nat} {middle : Remaining}
    (joins : (sign, op) ∈ levels.getD number []) :
    Stops (.level (number + 1)) (middle.precede [⟨.mark sign, offset⟩] 1) := by
  obtain ⟨known, level⟩ := mem_level_iff.mp joins
  intro other marked continues
  obtain rfl : sign = other := Option.some.inj marked
  rcases continues with ⟨tighter, found, bound⟩ | rfl | rfl
  · obtain rfl := Option.some.inj (known.symm.trans found)
    omega
  · simp [BinaryOp.ofMark?] at known
  · simp [BinaryOp.ofMark?] at known

theorem joinLevel_reaches (exact : Exact next (.level (number + 1)) depth) (loose : number < levels.length)
    {tokens : List Token} {value : Expression} {n d : Nat} (derives : Derives (.level number) tokens value n d)
    (shallow : d < depth) {read : List Placed} (same : read.map (·.token) = tokens) {rest : Remaining}
    (stops : Stops (.level (number + 1)) rest) :
    ∃ steps, rest.allowance < steps ∧
      (next (rest.precede read n) >>= fun (left, state) =>
        joinLevel number next (state.allowance + 1) left state) =
          joinLevel number next steps value rest := by
  generalize kind : Phrase.level number = phrase at derives
  induction derives generalizing read rest with
  | @join _ n m d e sign op first second left right joins before behind ih _ =>
      obtain rfl := Phrase.level.inj kind
      obtain ⟨leading, _, rfl, rfl, tail⟩ := List.map_eq_append_iff.mp same
      obtain ⟨⟨_, offset⟩, trailing, rfl, rfl, rfl⟩ := List.map_eq_cons_iff.mp tail
      have reads := exact.complete ⟨trailing, m, e, rfl, by omega, behind⟩ stops
      let joint := (rest.precede trailing m).precede [⟨.mark sign, offset⟩] 1
      have stopped : Stops (.level (number + 1)) joint := stops_of_joins joins
      obtain ⟨steps, enough, reaches⟩ := ih (by omega) rfl stopped rfl
      have left : rest.allowance + m + 1 < steps := enough
      obtain ⟨steps, rfl⟩ : ∃ fewer, steps = fewer + 1 := ⟨steps - 1, by omega⟩
      refine ⟨steps, by omega, ?_⟩
      rw [joinLevel_of_joins joins reads, Remaining.precede_between] at reaches
      exact reaches
  | tighter _ phrase _ =>
      obtain rfl := Phrase.level.inj kind
      have reads := exact.complete ⟨read, _, _, rfl, shallow, same ▸ phrase⟩ stops
      exact ⟨rest.allowance + 1, Nat.lt_succ_self _, by rw [reads]; rfl⟩
  | operand phrase _ => 
      have level := Phrase.level.inj kind
      omega
  | sign | unsigned | dot | bracket | unaccessed | single | parens => cases kind

theorem Exact.joinLevel (exact : Exact next (.level (number + 1)) depth) (loose : number < levels.length) :
    Exact (fun state => next state >>= fun (left, state) =>
      joinLevel number next (state.allowance + 1) left state) (.level number) depth where
  sound joined := by
    simp only [bind_eq_ok, Prod.exists] at joined
    obtain ⟨left, middle, reads, more⟩ := joined
    exact joinLevel_sound exact ((exact.sound reads).tighter loose) more
  complete consumes stops := by
    obtain ⟨read, n, d, rfl, shallow, derives⟩ := consumes
    obtain ⟨steps, enough, reaches⟩ := joinLevel_reaches exact loose derives shallow rfl stops.tighter
    exact reaches.trans (joinLevel_of_stops enough stops)

theorem Grammar.Derives.of_tightest {tokens : List Token} {value : Expression} {n d : Nat}
    (derives : Derives (.level levels.length) tokens value n d) : Derives .signed tokens value n d := by
  generalize kind : Phrase.level levels.length = phrase at derives
  cases derives with
  | join joins before behind =>
      obtain rfl := Phrase.level.inj kind
      simp at joins
  | tighter loose phrase =>
      have level := Phrase.level.inj kind
      omega
  | operand phrase => exact phrase
  | sign | unsigned | dot | bracket | unaccessed | single | parens => cases kind

theorem Exact.joined {reader : Reader} {count : Nat} (exact : Exact reader .signed depth)
    (levelled : number + count = levels.length) : Exact (joined reader count number) (.level number) depth := by
  induction count generalizing number with
  | zero =>
      obtain rfl : number = levels.length := levelled
      constructor
      · intro before value after reads
        obtain ⟨read, n, d, same, shallow, derives⟩ := exact.sound reads
        exact ⟨read, n, d, same, shallow, .operand derives⟩
      · rintro before value after ⟨read, n, d, same, shallow, derives⟩ stops
        exact exact.complete ⟨read, n, d, same, shallow, derives.of_tightest⟩ stops.operand
  | succ count ih => exact (ih (by omega)).joinLevel (by omega)

theorem Exact.expression {reader : Reader} (exact : Exact reader .signed depth) :
    Exact (expression reader) (.level 0) depth := exact.joined rfl

end

/-! ## Operands -/

section

variable {inner : Reader} {depth : Nat} {start before middle after : Remaining} {value : Expression}

theorem Consumes.single {token : Token} {offset : Nat} (denotes : Denotes token value) :
    Consumes .simple (depth + 1) (after.precede [⟨token, offset⟩] 0) value after :=
  ⟨[⟨token, offset⟩], 0, 0, rfl, Nat.succ_pos _, .single denotes⟩

theorem Consumes.parens {first last : Nat}
    (inside : Consumes (.level 0) depth middle value (after.precede [⟨.mark .closeParen, last⟩] 0)) :
    Consumes .simple (depth + 1) (middle.precede [⟨.mark .openParen, first⟩] 0) value after := by
  obtain ⟨read, n, d, rfl, shallow, derives⟩ := inside
  refine ⟨⟨.mark .openParen, first⟩ :: (read ++ [⟨.mark .closeParen, last⟩]), n, d + 1, ?_, by omega, ?_⟩
  · simp [Remaining.precede_precede]
  · rw [List.map_cons, List.map_append]
    exact .parens derives

theorem primary_sound (exact : Exact inner (.level 0) depth) (reads : primary inner before = .ok (value, after)) :
    Consumes .simple (depth + 1) before value after := by
  simp only [primary, bind_eq_ok, Prod.exists, Remaining.next_eq_ok_iff] at reads
  obtain ⟨⟨token, offset⟩, middle, rfl, reads⟩ := reads
  cases token with
  | number number =>
      obtain ⟨rfl, rfl⟩ := Prod.mk.inj (Except.ok.inj reads)
      exact .single (.number number)
  | text text =>
      obtain ⟨rfl, rfl⟩ := Prod.mk.inj (Except.ok.inj reads)
      exact .single (.text text)
  | name name =>
      obtain ⟨rfl, rfl⟩ := Prod.mk.inj (Except.ok.inj reads)
      exact .single (.name name)
  | keyword word =>
      cases word <;> obtain ⟨rfl, rfl⟩ := Prod.mk.inj (Except.ok.inj reads)
      · exact .single .yes
      · exact .single .no
      · exact .single .null
      · exact .single .undefined
  | mark sign =>
      cases sign with
      | openParen =>
          simp only [bind_eq_ok, Prod.exists, Remaining.expect_eq_ok_iff] at reads
          obtain ⟨inside, rest, within, closed, ⟨last, rfl⟩, same⟩ := reads
          obtain ⟨rfl, rfl⟩ := Prod.mk.inj (Except.ok.inj same)
          exact (exact.sound within).parens
      | _ => simp [throw, throwThe, MonadExceptOf.throw] at reads

theorem primary_complete (exact : Exact inner (.level 0) depth)
    (consumes : Consumes .simple (depth + 1) before value after) : primary inner before = .ok (value, after) := by
  obtain ⟨read, n, d, rfl, shallow, derives⟩ := consumes
  generalize same : read.map (·.token) = tokens at derives
  cases derives with
  | single denotes =>
      obtain ⟨⟨token, offset⟩, rfl, rfl⟩ := List.map_eq_singleton_iff.mp same
      cases denotes <;> rfl
  | @parens _ nesting _ _ inside =>
      obtain ⟨⟨_, first⟩, tail, rfl, rfl, closed⟩ := List.map_eq_cons_iff.mp same
      obtain ⟨within, closing, rfl, rfl, ended⟩ := List.map_eq_append_iff.mp closed
      obtain ⟨⟨_, last⟩, rfl, rfl⟩ := List.map_eq_singleton_iff.mp ended
      let rest := after.precede [⟨.mark .closeParen, last⟩] 0
      have stops : Stops (.level 0) rest := by
        intro sign marked continues
        obtain rfl : .closeParen = sign := Option.some.inj marked
        simp [Continues, BinaryOp.ofMark?] at continues
      have reads := exact.complete ⟨within, n, nesting, rfl, by omega, inside⟩ stops
      have start : after.precede (⟨.mark .openParen, first⟩ :: (within ++ [⟨.mark .closeParen, last⟩])) n =
          (rest.precede within n).precede [⟨.mark .openParen, first⟩] 0 := by
        simp [rest, Remaining.precede_precede]
      rw [start]
      change (inner (rest.precede within n) >>= fun (value, state) =>
        state.expect .closeParen >>= fun state => .ok (value, state)) = _
      rw [reads]
      rfl

theorem Exact.primary (exact : Exact inner (.level 0) depth) : Exact (primary inner) .simple (depth + 1) where
  sound := primary_sound exact
  complete consumes _ := primary_complete exact consumes

theorem Consumes.dot {first offset : Nat} {token : Token} {object : Expression} {name : String}
    (before : Consumes .accessed depth start object
      (after.precede [⟨.mark .dot, first⟩, ⟨token, offset⟩] 1)) (names : Names token name) :
    Consumes .accessed depth start (.member object (.literal (.text name))) after := by
  obtain ⟨read, n, d, rfl, shallow, derives⟩ := before
  refine ⟨read ++ [⟨.mark .dot, first⟩, ⟨token, offset⟩], n + 1, d, ?_, shallow, ?_⟩
  · rw [Remaining.precede_precede, Nat.add_comm]
  · rw [List.map_append]
    exact .dot derives names

theorem Consumes.bracket {first last : Nat} {object index : Expression}
    (before : Consumes .accessed (depth + 1) start object (middle.precede [⟨.mark .openBracket, first⟩] 0))
    (inside : Consumes (.level 0) depth middle index (after.precede [⟨.mark .closeBracket, last⟩] 1)) :
    Consumes .accessed (depth + 1) start (.member object index) after := by
  obtain ⟨leading, n, d, rfl, shallow, objectDerives⟩ := before
  obtain ⟨within, m, e, rfl, low, indexDerives⟩ := inside
  refine ⟨leading ++ ⟨.mark .openBracket, first⟩ :: (within ++ [⟨.mark .closeBracket, last⟩]), n + m + 1,
    max d (e + 1), ?_, by omega, ?_⟩
  · rw [Remaining.precede_around]
  · rw [List.map_append, List.map_cons, List.map_append]
    exact .bracket objectDerives indexDerives

theorem accesses_sound (exact : Exact inner (.level 0) depth) {steps : Nat} {object : Expression}
    (before : Consumes .accessed (depth + 1) start object middle)
    (accessed : accesses inner steps object middle = .ok (value, after)) :
    Consumes .accessed (depth + 1) start value after := by
  induction steps generalizing object middle with
  | zero => simp [accesses] at accessed
  | succ steps ih =>
      simp only [accesses] at accessed
      split at accessed
      · rename_i marked
        simp only [bind_eq_ok, Prod.exists, Remaining.next_eq_ok_iff, names_iff,
          Remaining.spend_eq_ok_iff] at accessed
        obtain ⟨⟨token, offset⟩, _, skipped, name, names, spent, rfl, more⟩ := accessed
        obtain ⟨first, same⟩ := Remaining.mark?_eq_some_iff.mp marked
        rw [same, skipped] at before
        exact ih (before.dot names) more
      · rename_i marked
        simp only [bind_eq_ok, Prod.exists, Remaining.expect_eq_ok_iff, Remaining.spend_eq_ok_iff] at accessed
        obtain ⟨index, _, reads, _, ⟨last, rfl⟩, spent, rfl, more⟩ := accessed
        obtain ⟨first, same⟩ := Remaining.mark?_eq_some_iff.mp marked
        rw [same] at before
        exact ih (before.bracket (exact.sound reads)) more
      · obtain ⟨rfl, rfl⟩ := Prod.mk.inj (Except.ok.inj accessed)
        exact before

theorem accesses_of_stops {steps : Nat} (enough : after.allowance < steps) (stops : Stops .accessed after) :
    accesses inner steps value after = .ok (value, after) := by
  obtain ⟨steps, rfl⟩ : ∃ fewer, steps = fewer + 1 := ⟨steps - 1, by omega⟩
  simp only [accesses]
  split
  · rename_i marked
    exact absurd (.inl rfl) (stops _ marked)
  · rename_i marked
    exact absurd (.inr rfl) (stops _ marked)
  · rfl

theorem accesses_of_dot {steps first offset : Nat} {token : Token} {object : Expression} {name : String}
    (names : Names token name) :
    accesses inner (steps + 1) object (after.precede [⟨.mark .dot, first⟩, ⟨token, offset⟩] 1) =
      accesses inner steps (.member object (.literal (.text name))) after := by
  have named : propertyName ⟨token, offset⟩ = .ok name := names_iff.mpr names
  change (propertyName ⟨token, offset⟩ >>= fun name =>
    accesses inner steps (.member object (.literal (.text name))) after) = _
  rw [named]
  rfl

theorem accesses_of_bracket {steps first last : Nat} {object index : Expression}
    (reads : inner middle = .ok (index, after.precede [⟨.mark .closeBracket, last⟩] 1)) :
    accesses inner (steps + 1) object (middle.precede [⟨.mark .openBracket, first⟩] 0) =
      accesses inner steps (.member object index) after := by
  change (inner middle >>= fun (index, state) => state.expect .closeBracket >>= fun state =>
    state.spend >>= fun state => accesses inner steps (.member object index) state) = _
  rw [reads]
  rfl

theorem accesses_reaches (exact : Exact inner (.level 0) depth) {tokens : List Token} {n d : Nat}
    (derives : Derives .accessed tokens value n d) (shallow : d < depth + 1) {read : List Placed}
    (same : read.map (·.token) = tokens) (rest : Remaining) :
    ∃ steps, rest.allowance < steps ∧
      (primary inner (rest.precede read n) >>= fun (object, state) =>
        accesses inner (state.allowance + 1) object state) = accesses inner steps value rest := by
  generalize kind : Phrase.accessed = phrase at derives
  induction derives generalizing read rest with
  | @dot n d tokens object _ name before names ih =>
      obtain ⟨leading, tail, rfl, rfl, ended⟩ := List.map_eq_append_iff.mp same
      obtain ⟨⟨_, first⟩, last, rfl, rfl, single⟩ := List.map_eq_cons_iff.mp ended
      obtain ⟨⟨token, offset⟩, rfl, rfl⟩ := List.map_eq_singleton_iff.mp single
      obtain ⟨steps, enough, reaches⟩ :=
        ih shallow rfl (rest.precede [⟨.mark .dot, first⟩, ⟨token, offset⟩] 1) kind
      have left : rest.allowance + 1 < steps := enough
      obtain ⟨steps, rfl⟩ : ∃ fewer, steps = fewer + 1 := ⟨steps - 1, by omega⟩
      refine ⟨steps, by omega, ?_⟩
      rw [accesses_of_dot names, Remaining.precede_precede, Nat.add_comm 1 n] at reaches
      exact reaches
  | @bracket n m d e first second object index before inside ih _ =>
      obtain ⟨leading, tail, rfl, rfl, ended⟩ := List.map_eq_append_iff.mp same
      obtain ⟨⟨_, opening⟩, inner, rfl, rfl, closed⟩ := List.map_eq_cons_iff.mp ended
      obtain ⟨within, closing, rfl, rfl, single⟩ := List.map_eq_append_iff.mp closed
      obtain ⟨⟨_, last⟩, rfl, rfl⟩ := List.map_eq_singleton_iff.mp single
      let close := rest.precede [⟨.mark .closeBracket, last⟩] 1
      have stops : Stops (.level 0) close := by
        intro sign marked continues
        obtain rfl : .closeBracket = sign := Option.some.inj marked
        simp [Continues, BinaryOp.ofMark?] at continues
      have reads := exact.complete ⟨within, m, e, rfl, by omega, inside⟩ stops
      obtain ⟨steps, enough, reaches⟩ :=
        ih (by omega) rfl ((close.precede within m).precede [⟨.mark .openBracket, opening⟩] 0) kind
      have left : rest.allowance + 1 + m < steps := enough
      obtain ⟨steps, rfl⟩ : ∃ fewer, steps = fewer + 1 := ⟨steps - 1, by omega⟩
      refine ⟨steps, by omega, ?_⟩
      rw [accesses_of_bracket reads, Remaining.precede_around] at reaches
      exact reaches
  | @unaccessed n d tokens value phrase _ =>
      have consumes : Consumes .simple (depth + 1) (rest.precede read n) value rest :=
        ⟨read, n, d, rfl, shallow, same ▸ phrase⟩
      have reads := primary_complete exact consumes
      exact ⟨rest.allowance + 1, Nat.lt_succ_self _, by rw [reads]; rfl⟩
  | join | tighter | operand | sign | unsigned | single | parens => cases kind

theorem Exact.accessed (exact : Exact inner (.level 0) depth) :
    Exact (accessed inner) .accessed (depth + 1) where
  sound reads := by
    simp only [Condition.accessed, bind_eq_ok, Prod.exists] at reads
    obtain ⟨object, middle, first, more⟩ := reads
    obtain ⟨read, n, d, same, shallow, derives⟩ := primary_sound exact first
    exact accesses_sound exact ⟨read, n, d, same, shallow, .unaccessed derives⟩ more
  complete consumes stops := by
    obtain ⟨read, n, d, rfl, shallow, derives⟩ := consumes
    obtain ⟨steps, enough, reaches⟩ := accesses_reaches exact derives shallow rfl _
    exact reaches.trans (accesses_of_stops enough stops)

theorem Consumes.sign {sign : Mark} {op : UnaryOp} {offset : Nat} (signs : (sign, op) ∈ signs)
    (phrase : Consumes .signed depth middle value after) :
    Consumes .signed (depth + 1) (middle.precede [⟨.mark sign, offset⟩] 1) (.unary op value) after := by
  obtain ⟨read, n, d, rfl, shallow, derives⟩ := phrase
  refine ⟨⟨.mark sign, offset⟩ :: read, n + 1, d + 1, ?_, by omega, ?_⟩
  · rw [Remaining.precede_precede, List.singleton_append]
  · rw [List.map_cons]
    exact .sign signs derives

theorem Grammar.Derives.unsigned_head {tokens : List Token} {n d : Nat} {phrase : Phrase}
    (derives : Derives phrase tokens value n d) (plain : phrase = .accessed ∨ phrase = .simple) :
    ∃ token more, tokens = token :: more ∧ ∀ sign, token = .mark sign → UnaryOp.ofMark? sign = none := by
  induction derives with
  | dot before names ih | bracket before inside ih _ =>
      obtain ⟨token, more, rfl, unsigned⟩ := ih (.inl rfl)
      exact ⟨token, _, rfl, unsigned⟩
  | unaccessed phrase ih => exact ih (.inr rfl)
  | single denotes => exact ⟨_, [], rfl, by cases denotes <;> simp⟩
  | parens inside _ => exact ⟨_, _, rfl, by simp [UnaryOp.ofMark?]⟩
  | join | tighter | operand | sign | unsigned => simp at plain

theorem Exact.operand (exact : Exact (operand depth) .signed depth) :
    Exact (operand (depth + 1)) .signed (depth + 1) where
  sound {before value after} reads := by
    simp only [Condition.operand] at reads
    split at reads
    · rename_i op found
      obtain ⟨sign, marked, known⟩ := Option.bind_eq_some_iff.mp found
      simp only [bind_eq_ok, Prod.exists] at reads
      obtain ⟨spent, spends, inside, rest, first, same⟩ := reads
      obtain ⟨offset, rfl⟩ := Remaining.precede_of_spend marked spends
      obtain ⟨rfl, rfl⟩ := Prod.mk.inj (Except.ok.inj same)
      exact (exact.sound first).sign (mem_signs_iff.mpr known)
    · obtain ⟨read, n, d, same, shallow, derives⟩ := exact.expression.accessed.sound reads
      exact ⟨read, n, d, same, shallow, .unsigned derives⟩
  complete {before value after} consumes stops := by
    obtain ⟨read, n, d, rfl, shallow, derives⟩ := consumes
    generalize same : read.map (·.token) = tokens at derives
    cases derives with
    | @sign n d sign op tokens value signs phrase =>
        obtain ⟨⟨_, offset⟩, read, rfl, rfl, rfl⟩ := List.map_eq_cons_iff.mp same
        have reads := exact.complete ⟨read, n, d, rfl, by omega, phrase⟩ stops
        have known := mem_signs_iff.mp signs
        have marked : (after.precede (⟨.mark sign, offset⟩ :: read) (n + 1)).mark? = some sign := rfl
        simp only [Condition.operand, marked, Option.bind_some, known]
        change (Condition.operand depth (after.precede read n) >>= fun read =>
          pure (Expression.unary op read.1, read.2)) = _
        rw [reads]
        rfl
    | unsigned phrase =>
        obtain ⟨_, more, rfl, unsigned⟩ := phrase.unsigned_head (.inl rfl)
        obtain ⟨⟨token, offset⟩, read, rfl, rfl, rfl⟩ := List.map_eq_cons_iff.mp same
        have unmarked : (after.precede (⟨token, offset⟩ :: read) n).mark?.bind UnaryOp.ofMark? = none := by
          cases token with
          | mark sign => exact unsigned sign rfl
          | number | text | name | keyword => rfl
        have reads := exact.expression.accessed.complete ⟨⟨token, offset⟩ :: read, n, d, rfl, shallow, phrase⟩
          stops
        simp only [Condition.operand, unmarked]
        exact reads

end

theorem exact_operand (depth : Nat) : Exact (operand depth) .signed depth := by
  induction depth with
  | zero =>
      constructor
      · intro before value after reads
        simp [operand] at reads
      · rintro before value after ⟨read, n, d, same, shallow, derives⟩ stops
        omega
  | succ depth ih => exact ih.operand

/-! ## Conditions -/

theorem stops_nil (phrase : Phrase) (allowance : Nat) : Stops phrase ⟨[], allowance⟩ := by
  intro sign marked
  simp [Remaining.mark?] at marked

theorem expression_eq_ok_iff {depth allowance left : Nat} {tokens : List Placed} {value : Expression} :
    expression (operand depth) ⟨tokens, allowance⟩ = .ok (value, ⟨[], left⟩) ↔
      ∃ nesting, Derives (.level 0) (tokens.map (·.token)) value (allowance - left) nesting ∧
        left ≤ allowance ∧ nesting < depth := by
  have exact := (exact_operand depth).expression
  constructor
  · intro reads
    obtain ⟨read, n, d, same, shallow, derives⟩ := exact.sound reads
    simp only [Remaining.precede, List.append_nil, Remaining.mk.injEq] at same
    obtain ⟨rfl, rfl⟩ := same
    refine ⟨d, ?_, by omega, shallow⟩
    rwa [Nat.add_sub_cancel_left]
  · rintro ⟨nesting, derives, bound, shallow⟩
    refine exact.complete ⟨tokens, allowance - left, nesting, ?_, shallow, derives⟩ (stops_nil _ _)
    simp only [Remaining.precede, List.append_nil, Remaining.mk.injEq, true_and]
    omega

theorem Grammar.Derives.ne_nil {phrase : Phrase} {tokens : List Token} {value : Expression} {n d : Nat}
    (derives : Derives phrase tokens value n d) : tokens ≠ [] := by
  induction derives with
  | join | sign | dot | bracket | single | parens => simp
  | tighter _ _ ih | operand _ ih | unsigned _ ih | unaccessed _ ih => exact ih

theorem ofTokens_eq_ok_iff {tokens : List Placed} {value : Expression} :
    Expression.ofTokens tokens = .ok value ↔
      ∃ left, expression (operand deepestNesting) ⟨tokens, mostOperators⟩ = .ok (value, ⟨[], left⟩) := by
  cases tokens with
  | nil =>
      simp only [Expression.ofTokens, reduceCtorEq, false_iff, not_exists, expression_eq_ok_iff]
      rintro left nesting ⟨derives, _⟩
      exact derives.ne_nil rfl
  | cons first more =>
      simp only [Expression.ofTokens, bind_eq_ok, Prod.exists]
      constructor
      · rintro ⟨read, ⟨rest, left⟩, reads, ended⟩
        cases rest with
        | nil => exact ⟨left, Except.ok.inj ended ▸ reads⟩
        | cons extra _ => simp [throw, throwThe, MonadExceptOf.throw] at ended
      · rintro ⟨left, reads⟩
        exact ⟨value, _, reads, rfl⟩

/-- The reader accepts just the token sequences that the grammar derives with at most 256 operators and with
every operand under at most 63 signs, parentheses and brackets, and yields what is derived. No sequence stands
for two expressions, within these bounds or beyond them. -/
theorem reader_accepts_grammar (tokens : List Placed) :
    let source := tokens.map (·.token)
    (∀ value, Expression.ofTokens tokens = .ok value ↔
        ∃ operators nesting, Derives (.level 0) source value operators nesting ∧ operators ≤ 256 ∧
          nesting ≤ 63) ∧
      ∀ first second n m d e, Derives (.level 0) source first n d → Derives (.level 0) source second m e →
        first = second ∧ n = m := by
  intro source
  constructor
  · intro value
    simp only [ofTokens_eq_ok_iff, expression_eq_ok_iff, mostOperators, deepestNesting]
    constructor
    · rintro ⟨left, nesting, derives, bound, shallow⟩
      exact ⟨256 - left, nesting, derives, by omega, by omega⟩
    · rintro ⟨operators, nesting, derives, few, shallow⟩
      have count : 256 - (256 - operators) = operators := by omega
      exact ⟨256 - operators, nesting, count.symm ▸ derives, by omega, by omega⟩
  · intro first second n m d e firstDerives secondDerives
    -- With a depth and an allowance that are enough for both, the reader has to yield both.
    have reads : expression (operand (max d e + 1)) ⟨tokens, n + m⟩ = .ok (first, ⟨[], m⟩) :=
      expression_eq_ok_iff.mpr ⟨d, (Nat.add_sub_cancel n m).symm ▸ firstDerives, by omega, by omega⟩
    have again : expression (operand (max d e + 1)) ⟨tokens, n + m⟩ = .ok (second, ⟨[], n⟩) :=
      expression_eq_ok_iff.mpr ⟨e, (Nat.add_sub_cancel_left n m).symm ▸ secondDerives, by omega, by omega⟩
    obtain ⟨value, state⟩ := Prod.mk.inj (Except.ok.inj (reads.symm.trans again))
    exact ⟨value, (Remaining.mk.inj state).2.symm⟩

end BranchingStory.Condition
