import BranchingStory.Proofs.Json.Parsed

/-!
Levels that a draft does not reach. A decoder takes the same out of a draft whether just as many levels are left as the
draft is deep, or more.
-/

namespace BranchingStory
namespace Json

/-! ## How deep a draft is -/

namespace Draft

mutual

def depth : Draft → Nat
  | .array items _ => depthOfItems items + 1
  | .object members _ => depthOfMembers members + 1
  | .null | .bool _ | .number _ | .string _ | .broken => 0

def depthOfItems : List Draft → Nat
  | [] => 0
  | item :: rest => max item.depth (depthOfItems rest)

def depthOfMembers : List (Key × Draft) → Nat
  | [] => 0
  | (_, value) :: rest => max value.depth (depthOfMembers rest)

end

variable {levels : Nat}

theorem depthOfItems_le_iff {items : List Draft} :
    depthOfItems items ≤ levels ↔ ∀ item ∈ items, item.depth ≤ levels := by
  induction items with
  | nil => simp [depthOfItems]
  | cons first rest ih => simp [depthOfItems, ih]

theorem depthOfMembers_le_iff {members : List (Key × Draft)} :
    depthOfMembers members ≤ levels ↔ ∀ member ∈ members, member.2.depth ≤ levels := by
  induction members with
  | nil => simp [depthOfMembers]
  | cons first rest ih => simp [depthOfMembers, ih]

mutual

theorem shallow_of_read : ∀ {levels : Nat} {draft : Draft} {value : Json}, draft.read levels = .ok value →
    draft.depth ≤ levels
  | levels + 1, .array items closed, value, read => by
      obtain ⟨values, inside, _, rfl⟩ := read_array_eq_ok.mp read
      exact Nat.succ_le_succ (shallow_of_readItems inside)
  | levels + 1, .object members closed, value, read => by
      obtain ⟨pairs, inside, _, rfl⟩ := read_object_eq_ok.mp read
      exact Nat.succ_le_succ (shallow_of_readMembers inside)
  | 0, .array .., _, read => by cases read
  | 0, .object .., _, read => by cases read
  | _, .null, _, _ => Nat.zero_le _
  | _, .bool _, _, _ => Nat.zero_le _
  | _, .number _, _, _ => Nat.zero_le _
  | _, .string _, _, _ => Nat.zero_le _
  | _, .broken, _, _ => Nat.zero_le _

theorem shallow_of_readItems : ∀ {levels : Nat} {items : List Draft} {values : List Json},
    readItems levels items = .ok values → depthOfItems items ≤ levels
  | _, [], _, _ => Nat.zero_le _
  | levels, item :: rest, values, read => by
      obtain ⟨value, first, others, later, rfl⟩ := readItems_cons_eq_ok.mp read
      exact Nat.max_le.mpr ⟨shallow_of_read first, shallow_of_readItems later⟩

theorem shallow_of_readMembers : ∀ {levels : Nat} {members : List (Key × Draft)} {pairs : Members},
    readMembers levels members = .ok pairs → depthOfMembers members ≤ levels
  | _, [], _, _ => Nat.zero_le _
  | levels, (key, draft) :: rest, pairs, read => by
      obtain ⟨name, _, value, first, others, later, rfl⟩ := readMembers_cons_eq_ok.mp read
      exact Nat.max_le.mpr ⟨shallow_of_read first, shallow_of_readMembers later⟩

end

mutual

theorem read_succ : ∀ {levels : Nat} {draft : Draft}, draft.depth ≤ levels →
    draft.read (levels + 1) = draft.read levels
  | 0, .array .., shallow => absurd shallow (Nat.not_succ_le_zero _)
  | 0, .object .., shallow => absurd shallow (Nat.not_succ_le_zero _)
  | levels + 1, .array items closed, shallow => by
      rw [Draft.read, Draft.read, readItems_succ (Nat.le_of_succ_le_succ shallow)]
  | levels + 1, .object members closed, shallow => by
      rw [Draft.read, Draft.read, readMembers_succ (Nat.le_of_succ_le_succ shallow)]
  | _, .null, _ => by simp only [Draft.read]
  | _, .bool _, _ => by simp only [Draft.read]
  | _, .number (some _), _ => by simp only [Draft.read]
  | _, .number none, _ => by simp only [Draft.read]
  | _, .string (some _), _ => by simp only [Draft.read]
  | _, .string none, _ => by simp only [Draft.read]
  | _, .broken, _ => by simp only [Draft.read]

theorem readItems_succ : ∀ {levels : Nat} {items : List Draft}, depthOfItems items ≤ levels →
    readItems (levels + 1) items = readItems levels items
  | _, [], _ => rfl
  | levels, item :: rest, shallow => by
      obtain ⟨here, there⟩ := Nat.max_le.mp shallow
      rw [readItems, readItems, read_succ here, readItems_succ there]

theorem readMembers_succ : ∀ {levels : Nat} {members : List (Key × Draft)}, depthOfMembers members ≤ levels →
    readMembers (levels + 1) members = readMembers levels members
  | _, [], _ => rfl
  | levels, (key, value) :: rest, shallow => by
      obtain ⟨here, there⟩ := Nat.max_le.mp shallow
      rw [readMembers, readMembers, read_succ here, readMembers_succ there]

end

end Draft

/-! ## Decoders -/

namespace Decoder

variable {α β ρ : Type} {decode : Decoder α}

/-- A decoder that does not look at levels that a draft does not reach. -/
def Levelled (decode : Decoder α) : Prop :=
  ∀ (levels : Nat) (draft : Draft), draft.depth ≤ levels → decode (levels + 1) draft = decode levels draft

theorem levelled_json : Levelled json := fun _ _ shallow => Draft.read_succ shallow

theorem levelled_text : Levelled text := by
  intro levels draft _
  cases draft with
  | string given => cases given <;> rfl
  | _ => rfl

theorem Levelled.map {change : α → β} (levelled : Levelled decode) :
    Levelled fun levels draft => (decode levels draft).map change := by
  intro levels draft shallow
  simp only [levelled levels draft shallow]

theorem Levelled.optional (levelled : Levelled decode) : Levelled (Decoder.optional decode) := by
  intro levels draft shallow
  cases draft with
  | null => rfl
  | _ => exact congrArg (Except.map some) (levelled levels _ shallow)

theorem Levelled.list (levelled : Levelled decode) : Levelled (Decoder.list decode) := by
  intro levels draft shallow
  cases levels with
  | zero =>
      cases draft with
      | array items closed => exact absurd shallow (Nat.not_succ_le_zero _)
      | _ => rfl
  | succ levels =>
      cases draft with
      | array items closed =>
          have inside := Draft.depthOfItems_le_iff.mp (Nat.le_of_succ_le_succ shallow)
          rw [Decoder.list, Decoder.list, mapM_congr fun item listed => levelled levels item (inside item listed)]
      | _ => rfl

theorem Levelled.pairs {key : Key → Except Fault β} (levelled : Levelled decode) :
    Levelled (Decoder.pairs key decode) := by
  intro levels draft shallow
  cases levels with
  | zero =>
      cases draft with
      | object members closed => exact absurd shallow (Nat.not_succ_le_zero _)
      | _ => rfl
  | succ levels =>
      cases draft with
      | object members closed =>
          have inside := Draft.depthOfMembers_le_iff.mp (Nat.le_of_succ_le_succ shallow)
          rw [Decoder.pairs, Decoder.pairs, mapM_congr fun member listed => ?_]
          simp only [levelled levels member.2 (inside member listed)]
      | _ => rfl

theorem Levelled.catalog (levelled : Levelled decode) : Levelled (Decoder.catalog decode) :=
  levelled.pairs.map

theorem levelled_members : Levelled members := levelled_json.pairs.map

/-! ### Structures -/

section

variable {names : List String} {field other : ρ → String → Draft → Except Fault ρ} {start : ρ}

theorem fields_congr {members : List (Key × Draft)} {seen : List String}
    (same : ∀ member ∈ members, ∀ record name, field record name member.2 = other record name member.2) :
    fields names field members seen start = fields names other members seen start := by
  induction members generalizing seen start with
  | nil => rfl
  | cons first rest ih =>
      have later : ∀ seen start, fields names field rest seen start = fields names other rest seen start :=
        fun _ _ => ih fun member listed => same member (List.mem_cons_of_mem _ listed)
      simp only [fields, same first List.mem_cons_self, later]

theorem positional_congr {items : List Draft} {closed : Bool}
    (same : ∀ item ∈ items, ∀ record name, field record name item = other record name item) :
    positional field closed names items start = positional other closed names items start := by
  induction items generalizing names start with
  | nil => cases names <;> rfl
  | cons first rest ih =>
      cases names with
      | nil => rfl
      | cons name names =>
          have later : ∀ start, positional field closed names rest start = positional other closed names rest start :=
            fun _ => ih fun item listed => same item (List.mem_cons_of_mem _ listed)
          simp only [positional, same first List.mem_cons_self, later]

theorem record_congr {levels : Nat} {draft : Draft} (shallow : draft.depth ≤ levels + 1)
    (same : ∀ value : Draft, value.depth ≤ levels → ∀ record name, field record name value = other record name value) :
    record names field start draft = record names other start draft := by
  cases draft with
  | object members closed =>
      have inside := Draft.depthOfMembers_le_iff.mp (Nat.le_of_succ_le_succ shallow)
      rw [record, record, fields_congr fun member listed => same member.2 (inside member listed)]
  | array items closed =>
      have inside := Draft.depthOfItems_le_iff.mp (Nat.le_of_succ_le_succ shallow)
      exact positional_congr fun item listed => same item (inside item listed)
  | _ => rfl

theorem record_of_flat {draft : Draft} (flat : draft.depth ≤ 0) :
    record names field start draft = .error draft.tooDeep := by
  cases draft with
  | object members closed => exact absurd flat (Nat.not_succ_le_zero _)
  | array items closed => exact absurd flat (Nat.not_succ_le_zero _)
  | _ => rfl

end

theorem levelled_structured {names : List String} {field : Nat → ρ → String → Draft → Except Fault ρ} {start : ρ}
    (levelled : ∀ levels (value : Draft), value.depth ≤ levels → ∀ record name,
      field (levels + 1) record name value = field levels record name value) :
    Levelled (structured names field start) := by
  intro levels draft shallow
  cases levels with
  | zero => exact record_of_flat shallow
  | succ levels => exact record_congr shallow (levelled levels)

end Decoder
end Json
end BranchingStory
