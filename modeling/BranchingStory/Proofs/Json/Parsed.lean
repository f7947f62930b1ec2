import BranchingStory.Json.Decode
import BranchingStory.Proofs.Json.Members
import BranchingStory.Proofs.Json.Number
import BranchingStory.Proofs.Results

/-!
Values that are read from text. Their numbers come from literals, so all of them are finite; and they nest no
deeper than the levels they were read with.
-/

namespace BranchingStory
namespace Json

/-! ## The numbers in a value -/

mutual

def numbers : Json → List Number
  | .number value => [value]
  | .array items => numbersOfItems items
  | .object members => numbersOfMembers members
  | .null | .bool _ | .string _ => []

def numbersOfItems : List Json → List Number
  | [] => []
  | item :: rest => item.numbers ++ numbersOfItems rest

def numbersOfMembers : List (String × Json) → List Number
  | [] => []
  | (_, value) :: rest => value.numbers ++ numbersOfMembers rest

end

mutual

def Draft.numbers : Draft → List Number
  | .number value => value.toList
  | .array items _ => Draft.numbersOfItems items
  | .object members _ => Draft.numbersOfMembers members
  | .null | .bool _ | .string _ | .broken => []

def Draft.numbersOfItems : List Draft → List Number
  | [] => []
  | item :: rest => item.numbers ++ Draft.numbersOfItems rest

def Draft.numbersOfMembers : List (Key × Draft) → List Number
  | [] => []
  | (_, value) :: rest => value.numbers ++ Draft.numbersOfMembers rest

end

variable {number : Number}

theorem mem_numbersOfItems {items : List Json} :
    number ∈ numbersOfItems items ↔ ∃ item ∈ items, number ∈ item.numbers := by
  induction items with
  | nil => simp [numbersOfItems]
  | cons first rest ih => simp [numbersOfItems, ih]

theorem mem_numbersOfMembers {members : Members} :
    number ∈ numbersOfMembers members ↔ ∃ member ∈ members, number ∈ member.2.numbers := by
  induction members with
  | nil => simp [numbersOfMembers]
  | cons first rest ih => simp [numbersOfMembers, ih]

theorem Draft.mem_numbersOfItems {items : List Draft} :
    number ∈ Draft.numbersOfItems items ↔ ∃ item ∈ items, number ∈ item.numbers := by
  induction items with
  | nil => simp [Draft.numbersOfItems]
  | cons first rest ih => simp [Draft.numbersOfItems, ih]

theorem Draft.mem_numbersOfMembers {members : List (Key × Draft)} :
    number ∈ Draft.numbersOfMembers members ↔ ∃ member ∈ members, number ∈ member.2.numbers := by
  induction members with
  | nil => simp [Draft.numbersOfMembers]
  | cons first rest ih => simp [Draft.numbersOfMembers, ih]

theorem mem_numbersOfMembers_merge {members changes : Members}
    (held : number ∈ numbersOfMembers (members.merge changes)) :
    number ∈ numbersOfMembers members ∨ number ∈ numbersOfMembers changes := by
  obtain ⟨member, listed, inside⟩ := mem_numbersOfMembers.mp held
  exact (Members.mem_or_mem_of_mem_merge listed).imp (fun earlier => mem_numbersOfMembers.mpr ⟨member, earlier, inside⟩)
    fun later => mem_numbersOfMembers.mpr ⟨member, later, inside⟩

/-! ## How deep a value is -/

mutual

def depth : Json → Nat
  | .array items => depthOfItems items + 1
  | .object members => depthOfMembers members + 1
  | .null | .bool _ | .number _ | .string _ => 0

def depthOfItems : List Json → Nat
  | [] => 0
  | item :: rest => max item.depth (depthOfItems rest)

def depthOfMembers : List (String × Json) → Nat
  | [] => 0
  | (_, value) :: rest => max value.depth (depthOfMembers rest)

end

theorem depthOfItems_le_iff {items : List Json} {levels : Nat} :
    depthOfItems items ≤ levels ↔ ∀ item ∈ items, item.depth ≤ levels := by
  induction items with
  | nil => simp [depthOfItems]
  | cons first rest ih => simp [depthOfItems, ih]

theorem depthOfMembers_le_iff {members : Members} {levels : Nat} :
    depthOfMembers members ≤ levels ↔ ∀ member ∈ members, member.2.depth ≤ levels := by
  induction members with
  | nil => simp [depthOfMembers]
  | cons first rest ih => simp [depthOfMembers, ih]

theorem depthOfMembers_merge_le {members changes : Members} {levels : Nat}
    (before : depthOfMembers members ≤ levels) (added : depthOfMembers changes ≤ levels) :
    depthOfMembers (members.merge changes) ≤ levels := by
  rw [depthOfMembers_le_iff] at before added ⊢
  intro member listed
  exact (Members.mem_or_mem_of_mem_merge listed).elim (before member) (added member)

/-! ## Reading drafts -/

namespace Draft

variable {levels : Nat} {value : Json}

theorem read_array_eq_ok {items : List Draft} {closed : Bool} :
    (Draft.array items closed).read (levels + 1) = .ok value ↔
      ∃ values, readItems levels items = .ok values ∧ closed = true ∧ .array values = value := by
  cases closed <;> simp [Draft.read, bind_eq_ok]

theorem read_object_eq_ok {members : List (Key × Draft)} {closed : Bool} :
    (Draft.object members closed).read (levels + 1) = .ok value ↔
      ∃ pairs, readMembers levels members = .ok pairs ∧ closed = true ∧
        .object (Members.ofList pairs) = value := by
  cases closed <;> simp [Draft.read, bind_eq_ok]

theorem readItems_cons_eq_ok {item : Draft} {rest : List Draft} {values : List Json} :
    readItems levels (item :: rest) = .ok values ↔
      ∃ value, item.read levels = .ok value ∧
        ∃ others, readItems levels rest = .ok others ∧ value :: others = values := by
  simp [readItems, bind_eq_ok, pure, Except.pure]

theorem readMembers_cons_eq_ok {key : Key} {draft : Draft} {rest : List (Key × Draft)} {pairs : Members} :
    readMembers levels ((key, draft) :: rest) = .ok pairs ↔
      ∃ name, key.text = some name ∧ ∃ value, draft.read levels = .ok value ∧
        ∃ others, readMembers levels rest = .ok others ∧ (name, value) :: others = pairs := by
  cases text : key.text <;> simp [readMembers, text, bind_eq_ok, pure, Except.pure]

mutual

theorem mem_numbers_of_read : ∀ {levels : Nat} {draft : Draft} {value : Json}, draft.read levels = .ok value →
    number ∈ value.numbers → number ∈ draft.numbers
  | _, .null, _, read, held => by cases read; exact held
  | _, .bool _, _, read, held => by cases read; exact held
  | _, .number (some _), _, read, held => by cases read; exact held
  | _, .string (some _), _, read, held => by cases read; exact held
  | levels + 1, .array items closed, value, read, held => by
      obtain ⟨values, inside, _, rfl⟩ := read_array_eq_ok.mp read
      exact mem_numbers_of_readItems inside held
  | levels + 1, .object members closed, value, read, held => by
      obtain ⟨pairs, inside, _, rfl⟩ := read_object_eq_ok.mp read
      exact mem_numbers_of_readMembers inside ((mem_numbersOfMembers_merge held).resolve_left List.not_mem_nil)
  | _, .number none, _, read, _ => by cases read
  | _, .string none, _, read, _ => by cases read
  | _, .broken, _, read, _ => by cases read
  | 0, .array .., _, read, _ => by cases read
  | 0, .object .., _, read, _ => by cases read

theorem mem_numbers_of_readItems : ∀ {levels : Nat} {items : List Draft} {values : List Json},
    readItems levels items = .ok values → number ∈ Json.numbersOfItems values →
      number ∈ numbersOfItems items
  | _, [], _, read, held => by cases read; exact held
  | levels, item :: rest, values, read, held => by
      obtain ⟨value, first, others, later, rfl⟩ := readItems_cons_eq_ok.mp read
      rcases List.mem_append.mp held with here | there
      · exact List.mem_append_left _ (mem_numbers_of_read first here)
      · exact List.mem_append_right _ (mem_numbers_of_readItems later there)

theorem mem_numbers_of_readMembers : ∀ {levels : Nat} {members : List (Key × Draft)} {pairs : Members},
    readMembers levels members = .ok pairs → number ∈ Json.numbersOfMembers pairs →
      number ∈ numbersOfMembers members
  | _, [], _, read, held => by cases read; exact held
  | levels, (key, draft) :: rest, pairs, read, held => by
      obtain ⟨name, _, value, first, others, later, rfl⟩ := readMembers_cons_eq_ok.mp read
      rcases List.mem_append.mp held with here | there
      · exact List.mem_append_left _ (mem_numbers_of_read first here)
      · exact List.mem_append_right _ (mem_numbers_of_readMembers later there)

end

mutual

theorem depth_le_of_read : ∀ {levels : Nat} {draft : Draft} {value : Json}, draft.read levels = .ok value →
    value.depth ≤ levels
  | _, .null, _, read => by cases read; exact Nat.zero_le _
  | _, .bool _, _, read => by cases read; exact Nat.zero_le _
  | _, .number (some _), _, read => by cases read; exact Nat.zero_le _
  | _, .string (some _), _, read => by cases read; exact Nat.zero_le _
  | levels + 1, .array items closed, value, read => by
      obtain ⟨values, inside, _, rfl⟩ := read_array_eq_ok.mp read
      exact Nat.succ_le_succ (depth_le_of_readItems inside)
  | levels + 1, .object members closed, value, read => by
      obtain ⟨pairs, inside, _, rfl⟩ := read_object_eq_ok.mp read
      exact Nat.succ_le_succ (depthOfMembers_merge_le (Nat.zero_le _) (depth_le_of_readMembers inside))
  | _, .number none, _, read => by cases read
  | _, .string none, _, read => by cases read
  | _, .broken, _, read => by cases read
  | 0, .array .., _, read => by cases read
  | 0, .object .., _, read => by cases read

theorem depth_le_of_readItems : ∀ {levels : Nat} {items : List Draft} {values : List Json},
    readItems levels items = .ok values → depthOfItems values ≤ levels
  | _, [], _, read => by cases read; exact Nat.zero_le _
  | levels, item :: rest, values, read => by
      obtain ⟨value, first, others, later, rfl⟩ := readItems_cons_eq_ok.mp read
      exact Nat.max_le.mpr ⟨depth_le_of_read first, depth_le_of_readItems later⟩

theorem depth_le_of_readMembers : ∀ {levels : Nat} {members : List (Key × Draft)} {pairs : Members},
    readMembers levels members = .ok pairs → depthOfMembers pairs ≤ levels
  | _, [], _, read => by cases read; exact Nat.zero_le _
  | levels, (key, draft) :: rest, pairs, read => by
      obtain ⟨name, _, value, first, others, later, rfl⟩ := readMembers_cons_eq_ok.mp read
      exact Nat.max_le.mpr ⟨depth_le_of_read first, depth_le_of_readMembers later⟩

end

end Draft

/-! ## Building drafts -/

def Token.numbers : Token → List Number
  | .number value => value.toList
  | _ => []

def Frame.numbers : Frame → List Number
  | .array items => Draft.numbersOfItems items
  | .object members | .member members _ => Draft.numbersOfMembers members

def Progress.numbers : Progress → List Number
  | .inside frames _ => frames.flatMap Frame.numbers
  | .finished draft => draft.numbers

variable {frames : List Frame} {token : Token} {progress : Progress}

theorem mem_numbers_of_cut {frame : Frame} (held : number ∈ frame.cut.numbers) : number ∈ frame.numbers := by
  cases frame with
  | array items => simpa [Frame.cut, Frame.numbers, Draft.numbers, Draft.mem_numbersOfItems] using held
  | object members => simpa [Frame.cut, Frame.numbers, Draft.numbers, Draft.mem_numbersOfMembers] using held
  | member members key =>
      simpa [Frame.cut, Frame.numbers, Draft.numbers, Draft.mem_numbersOfMembers] using held

theorem mem_numbers_of_cutInside {inner : Draft} {frame : Frame}
    (held : number ∈ (frame.cutInside inner).numbers) : number ∈ inner.numbers ∨ number ∈ frame.numbers := by
  cases frame with
  | array items =>
      simpa [Frame.cutInside, Frame.numbers, Draft.numbers, Draft.mem_numbersOfItems, or_comm] using held
  | object members =>
      right
      simpa [Frame.cutInside, Frame.numbers, Draft.numbers, Draft.mem_numbersOfMembers] using held
  | member members key =>
      simpa [Frame.cutInside, Frame.numbers, Draft.numbers, Draft.mem_numbersOfMembers, or_comm] using held

theorem mem_numbers_of_abandon (held : number ∈ (abandon frames).numbers) :
    number ∈ frames.flatMap Frame.numbers := by
  cases frames with
  | nil => simp [abandon, Draft.numbers] at held
  | cons inner outer =>
      have kept : ∀ (outer : List Frame) (draft : Draft),
          number ∈ (outer.foldl Frame.cutInside draft).numbers →
            number ∈ draft.numbers ∨ number ∈ outer.flatMap Frame.numbers := by
        intro outer
        induction outer with
        | nil => exact fun draft held => .inl held
        | cons frame rest ih =>
            intro draft held
            rw [List.flatMap_cons, List.mem_append]
            rcases ih _ held with here | there
            · exact (mem_numbers_of_cutInside here).imp_right .inl
            · exact .inr (.inr there)
      rw [List.flatMap_cons, List.mem_append]
      exact (kept outer _ held).imp_left mem_numbers_of_cut

theorem mem_numbers_of_supply {draft : Draft} (supplied : supply draft frames = some progress)
    (held : number ∈ progress.numbers) : number ∈ draft.numbers ∨ number ∈ frames.flatMap Frame.numbers := by
  cases frames with
  | nil =>
      cases supplied
      exact .inl held
  | cons frame outer =>
      cases frame <;> cases supplied <;>
        simpa [Progress.numbers, Frame.numbers, Draft.numbersOfItems, Draft.numbersOfMembers, or_assoc] using held

theorem mem_numbers_of_startValue (started : startValue frames token = some progress)
    (held : number ∈ progress.numbers) : number ∈ token.numbers ∨ number ∈ frames.flatMap Frame.numbers := by
  cases token <;> simp only [startValue, reduceCtorEq] at started
  case null => exact mem_numbers_of_supply started held
  case bool => exact mem_numbers_of_supply started held
  case number => exact mem_numbers_of_supply started held
  case string => exact mem_numbers_of_supply started held
  case openArray =>
      cases started
      exact .inr held
  case openObject =>
      cases started
      exact .inr held

theorem mem_numbers_of_close (closed : close frames token = some progress)
    (held : number ∈ progress.numbers) : number ∈ frames.flatMap Frame.numbers := by
  cases frames with
  | nil => simp [close] at closed
  | cons frame outer =>
      cases frame <;> cases token <;> simp only [close, reduceCtorEq] at closed <;>
        simpa [Draft.numbers, Frame.numbers, Draft.mem_numbersOfItems, Draft.mem_numbersOfMembers]
          using mem_numbers_of_supply closed held

theorem numbers_startMember (started : startMember frames token = some progress) :
    progress.numbers = frames.flatMap Frame.numbers := by
  cases frames with
  | nil => simp [startMember] at started
  | cons frame outer =>
      cases frame <;> cases token <;> simp only [startMember, reduceCtorEq, Option.some.injEq] at started <;>
        (subst started; rfl)

theorem numbers_separate (separated : separate frames token = some progress) :
    progress.numbers = frames.flatMap Frame.numbers := by
  cases frames with
  | nil => simp [separate] at separated
  | cons frame outer =>
      cases frame <;> cases token <;> simp only [separate, reduceCtorEq, Option.some.injEq] at separated <;>
        (subst separated; rfl)

theorem mem_numbers_of_step {place : Place} (stepped : step frames token place = some progress)
    (held : number ∈ progress.numbers) : number ∈ token.numbers ∨ number ∈ frames.flatMap Frame.numbers := by
  cases place with
  | value => exact mem_numbers_of_startValue stepped held
  | firstItem =>
      rcases Option.or_eq_some_iff.mp stepped with started | ⟨_, closed⟩
      · exact mem_numbers_of_startValue started held
      · exact .inr (mem_numbers_of_close closed held)
  | firstKey =>
      rcases Option.or_eq_some_iff.mp stepped with started | ⟨_, closed⟩
      · exact .inr (numbers_startMember started ▸ held)
      · exact .inr (mem_numbers_of_close closed held)
  | key => exact .inr (numbers_startMember stepped ▸ held)
  | colon =>
      cases token <;> simp only [step, reduceCtorEq, Option.some.injEq] at stepped
      subst stepped
      exact .inr held
  | separator =>
      rcases Option.or_eq_some_iff.mp stepped with separated | ⟨_, closed⟩
      · exact .inr (numbers_separate separated ▸ held)
      · exact .inr (mem_numbers_of_close closed held)

theorem mem_numbers_of_build {tokens : List Token} {place : Place}
    (held : number ∈ (build tokens frames place).1.numbers) :
    number ∈ tokens.flatMap Token.numbers ∨ number ∈ frames.flatMap Frame.numbers := by
  induction tokens generalizing frames place with
  | nil => exact .inr (mem_numbers_of_abandon held)
  | cons token rest ih =>
      rw [List.flatMap_cons, List.mem_append, or_assoc]
      simp only [build] at held
      split at held
      · rename_i stepped
        rcases ih held with later | inside
        · exact .inr (.inl later)
        · exact (mem_numbers_of_step stepped inside).imp_right .inr
      · rename_i stepped
        exact (mem_numbers_of_step stepped held).imp_right .inr
      · exact .inr (.inr (mem_numbers_of_abandon held))

/-! ## Values of texts -/

theorem finite_of_token {first : Char} {rest after : List Char} (found : token? first rest = some (token, after))
    (held : number ∈ token.numbers) : number.Finite := by
  simp only [token?] at found
  split_ifs at found
  case neg =>
    simp only [Option.map_eq_some_iff, Prod.mk.injEq, Prod.exists] at found
    obtain ⟨literal, _, _, rfl, _⟩ := found
    exact NumberLiteral.finite_of_value (by simpa [Token.numbers] using held)
  all_goals first
    | (simp only [Option.some.injEq, Prod.mk.injEq] at found
       obtain ⟨rfl, _⟩ := found
       simp [Token.numbers] at held)
    | (simp only [Option.map_eq_some_iff, Prod.mk.injEq] at found
       obtain ⟨_, _, rfl, _⟩ := found
       simp [Token.numbers] at held)
    | (split at found <;> cases found <;> simp [Token.numbers] at held)

theorem finite_of_tokensWithin {rounds : Nat} {text : List Char}
    (held : number ∈ (tokensWithin rounds text).flatMap Token.numbers) : number.Finite := by
  induction rounds generalizing text with
  | zero => cases text <;> simp [tokensWithin, Token.numbers] at held
  | succ rounds ih =>
      cases text with
      | nil => simp [tokensWithin] at held
      | cons first rest =>
          simp only [tokensWithin] at held
          split at held
          · exact ih held
          · split at held
            · rename_i found
              rw [List.flatMap_cons, List.mem_append] at held
              rcases held with here | later
              · exact finite_of_token found here
              · exact ih later
            · simp [Token.numbers] at held

theorem finite_of_draft {text : List Char} (held : number ∈ (draft text).1.numbers) : number.Finite := by
  have built : number ∈ (build (tokens text) [] .value).1.numbers := held
  rcases mem_numbers_of_build built with inside | outside
  · exact finite_of_tokensWithin inside
  · simp at outside

end Json
end BranchingStory
