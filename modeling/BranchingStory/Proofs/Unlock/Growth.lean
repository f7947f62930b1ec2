import BranchingStory.Proofs.Catalog.Lookup
import BranchingStory.Proofs.Json.Sameness
import BranchingStory.Unlock.Ledger

/-!
How a ledger grows. Whatever is committed, as long as the slots last, each category keeps its records where they are,
and the ids that are new to it follow them in the slots after the highest one.
-/

namespace BranchingStory

namespace Slots

variable {slots : Slots} {id other : Json} {ids : List Json} {now : Instant}

def Distinct (slots : Slots) : Prop :=
  slots.values.Pairwise fun earlier later => earlier.id.same later.id = false

/-- A number is right after the highest slot in use, or the very first if none is. -/
def Follows (slots : Slots) (start : Nat) : Prop :=
  (∀ slot ∈ slots.keys, slot.toNat < start) ∧ (start = 0 ∨ ∃ slot ∈ slots.keys, start = slot.toNat + 1)

def top (slots : Slots) : Nat :=
  match slots.lastKey? with
  | some last => last.toNat + 1
  | none => 0

/-- The ids that are new to a category: each where it comes first, in the order in which they come. -/
def firsts (slots : Slots) (ids : List Json) : List Json :=
  (ids.zipIdx.filter fun (id, index) =>
    !slots.holds id && !(ids.take index).any fun earlier => earlier.same id).map (·.1)

/-- The slots last for the ids that are new to a category. -/
def HasRoom (slots : Slots) (ids : List Json) : Prop := slots.top + (slots.firsts ids).length ≤ UInt32.size

instance : Decidable (slots.HasRoom ids) := inferInstanceAs (Decidable (_ ≤ _))

def numbered (start : Nat) (ids : List Json) (now : Instant) : List (UInt32 × UnlockRecord) :=
  (ids.zipIdx start).map fun (id, slot) => (.ofNat slot, ⟨id, now⟩)

/-! ## One id -/

theorem follows_top (slots : Slots) : slots.Follows slots.top := by
  rw [Follows, top, Catalog.lastKey?_eq_getLast?]
  have ascending : slots.keys.Pairwise fun earlier later => earlier.toNat < later.toNat :=
    slots.ascending_keys.imp fun less => UInt32.lt_iff_toNat_lt.mp (Std.compare_eq_lt.mp less)
  generalize slots.keys = keys at ascending
  rcases List.eq_nil_or_concat' keys with rfl | ⟨earlier, last, rfl⟩
  · simp
  · have below := (List.pairwise_append.mp ascending).2.2
    simp only [List.getLast?_concat, List.mem_append, List.mem_singleton]
    refine ⟨?_, .inr ⟨last, .inr rfl, rfl⟩⟩
    rintro slot (member | rfl)
    · have less := below slot member last List.mem_cons_self
      omega
    · omega

theorem top_le (slots : Slots) : slots.top ≤ UInt32.size := by
  rcases (follows_top slots).2 with none | ⟨last, -, highest⟩
  · omega
  · have bound := last.toNat_lt_size
    omega

theorem nextSlot_eq (slots : Slots) : slots.nextSlot = .ofNat slots.top := by
  rw [nextSlot, top]
  cases slots.lastKey? with
  | none => rfl
  | some last => simp

theorem add_of_holds (held : slots.holds id = true) : slots.add id now = (slots, false) := if_pos held

theorem mem_add {entry : UInt32 × UnlockRecord} (listed : entry ∈ (slots.add id now).1.entries) :
    entry ∈ slots.entries ∨ entry.2 = ⟨id, now⟩ := by
  rw [add] at listed
  split at listed
  · exact .inl listed
  · exact (Catalog.key_of_mem_place listed).symm.imp_right fun same => congrArg Prod.snd same

section

variable (fresh : slots.holds id = false)

include fresh

theorem add_of_fresh : slots.add id now = (slots.insert slots.nextSlot ⟨id, now⟩, true) :=
  if_neg (Bool.eq_false_iff.mp fresh)

variable (room : slots.top < UInt32.size)

include room

theorem entries_add : (slots.add id now).1.entries = slots.entries ++ [(.ofNat slots.top, ⟨id, now⟩)] := by
  rw [add_of_fresh fresh, nextSlot_eq]
  refine Catalog.place_of_above fun entry member => ?_
  have below := (follows_top slots).1 entry.1 (List.mem_map_of_mem member)
  rw [Std.compare_eq_lt, UInt32.lt_iff_toNat_lt, UInt32.toNat_ofNat_of_lt' room]
  exact below

theorem values_add : (slots.add id now).1.values = slots.values ++ [⟨id, now⟩] := by
  rw [Catalog.values, entries_add fresh room, List.map_append]
  rfl

end

theorem holds_of_same (held : slots.holds id = true) (equal : id.same other = true) :
    slots.holds other = true := by
  obtain ⟨record, member, found⟩ := List.any_eq_true.mp held
  exact List.any_eq_true.mpr ⟨record, member, Json.same_trans found equal⟩

theorem Distinct.add (distinct : slots.Distinct) (room : slots.holds id = false → slots.top < UInt32.size) :
    (slots.add id now).1.Distinct := by
  cases held : slots.holds id with
  | true => rwa [add_of_holds held]
  | false =>
      rw [Distinct, values_add held (room held), List.pairwise_append]
      refine ⟨distinct, List.pairwise_singleton _ _, fun record member last only => ?_⟩
      rw [List.mem_singleton.mp only]
      exact Bool.eq_false_iff.mpr (List.any_eq_false.mp held record member)

/-! ## The ids of a category -/

theorem firsts_concat :
    slots.firsts (ids ++ [id]) =
      slots.firsts ids ++
        (if slots.holds id || ids.any fun earlier => earlier.same id then [] else [id]) := by
  have earlier : ∀ entry ∈ ids.zipIdx,
      (!slots.holds entry.1 && !((ids ++ [id]).take entry.2).any fun earlier => earlier.same entry.1) =
        (!slots.holds entry.1 && !(ids.take entry.2).any fun earlier => earlier.same entry.1) := by
    intro entry member
    have bound : entry.2 < ids.length := (List.mem_zipIdx' member).1
    rw [List.take_append_of_le_length (by omega)]
  rw [firsts, List.zipIdx_append, List.filter_append, List.map_append, List.filter_congr earlier]
  congr 1
  rw [List.zipIdx_singleton, Nat.zero_add, List.filter_singleton]
  simp only [List.take_left, ← Bool.not_or]
  by_cases known : (slots.holds id || ids.any fun earlier => earlier.same id) = true
  · rw [known]
    rfl
  · rw [Bool.eq_false_iff.mpr known]
    rfl

theorem firsts_eq_nil_iff : slots.firsts ids = [] ↔ ∀ id ∈ ids, slots.holds id = true := by
  induction ids using List.reverseRecOn with
  | nil => simp [firsts]
  | append_singleton earlier last ih =>
      rw [firsts_concat, List.append_eq_nil_iff, ih]
      constructor
      · rintro ⟨before, none⟩ id member
        rcases List.mem_append.mp member with early | only
        · exact before id early
        · rw [List.mem_singleton.mp only]
          by_cases repeated : (earlier.any fun other => other.same last) = true
          · obtain ⟨other, present, equal⟩ := List.any_eq_true.mp repeated
            exact holds_of_same (before other present) equal
          · simpa [repeated] using none
      · intro all
        have held := all last (by simp)
        exact ⟨fun id member => all id (List.mem_append_left _ member), by simp [held]⟩

theorem holds_or_firsts (slots : Slots) (ids : List Json) (other : Json) :
    (slots.holds other || (slots.firsts ids).any fun reached => reached.same other) =
      (slots.holds other || ids.any fun reached => reached.same other) := by
  induction ids using List.reverseRecOn with
  | nil => rfl
  | append_singleton earlier last ih =>
      rw [firsts_concat, List.any_append, List.any_append, ← Bool.or_assoc, ← Bool.or_assoc, ih]
      by_cases known : (slots.holds last || earlier.any fun reached => reached.same last) = true
      · rw [if_pos known, List.any_nil, Bool.or_false, List.any_cons, List.any_nil, Bool.or_false]
        cases equal : last.same other with
        | false => rw [Bool.or_false]
        | true =>
            rw [Bool.or_true, Bool.or_eq_true]
            rcases Bool.or_eq_true_iff.mp known with held | repeated
            · exact .inl (holds_of_same held equal)
            · obtain ⟨reached, member, same⟩ := List.any_eq_true.mp repeated
              exact .inr (List.any_eq_true.mpr ⟨reached, member, Json.same_trans same equal⟩)
      · rw [if_neg known]

theorem numbered_concat (start : Nat) :
    numbered start (ids ++ [id]) now = numbered start ids now ++ [(.ofNat (start + ids.length), ⟨id, now⟩)] := by
  simp [numbered, List.zipIdx_append]

theorem values_numbered (start : Nat) : (numbered start ids now).map (·.2) = ids.map fun id => ⟨id, now⟩ := by
  induction ids using List.reverseRecOn with
  | nil => rfl
  | append_singleton earlier last ih => rw [numbered_concat, List.map_append, ih, List.map_append]; rfl

theorem addAll_concat (slots : Slots) (now : Instant) (ids : List Json) (id : Json) :
    slots.addAll now (ids ++ [id]) =
      (((slots.addAll now ids).1.add id now).1,
        (slots.addAll now ids).2 || ((slots.addAll now ids).1.add id now).2) := by
  induction ids generalizing slots with
  | nil => simp [addAll]
  | cons first rest ih => simp [addAll, ih, Bool.or_assoc]

theorem addAll_of_holds (held : ∀ id ∈ ids, slots.holds id = true) : slots.addAll now ids = (slots, false) := by
  induction ids with
  | nil => rfl
  | cons first rest ih =>
      rw [addAll, add_of_holds (held first List.mem_cons_self)]
      simp only [ih fun id member => held id (List.mem_cons_of_mem _ member), Bool.false_or]

theorem addAll_changed (slots : Slots) (now : Instant) (ids : List Json) :
    (slots.addAll now ids).2 = ids.any fun id => !slots.holds id := by
  induction ids with
  | nil => rfl
  | cons first rest ih =>
      rw [addAll, List.any_cons]
      cases held : slots.holds first with
      | true => simp only [add_of_holds held, Bool.false_or, ih, Bool.not_true]
      | false => simp only [add_of_fresh held, Bool.true_or, Bool.not_false]

theorem mem_addAll {entry : UInt32 × UnlockRecord} (listed : entry ∈ (slots.addAll now ids).1.entries) :
    entry ∈ slots.entries ∨ entry.2.id ∈ ids ∧ entry.2.timestamp = now := by
  induction ids generalizing slots with
  | nil => exact .inl listed
  | cons first rest ih =>
      rcases ih listed with early | ⟨member, timed⟩
      · exact (mem_add early).imp_right fun same => by rw [same]; exact ⟨List.mem_cons_self, rfl⟩
      · exact .inr ⟨List.mem_cons_of_mem _ member, timed⟩

section

variable {after : Slots} (entries : after.entries = slots.entries ++ numbered slots.top (slots.firsts ids) now)

include entries

theorem holds_of_entries (other : Json) :
    after.holds other = (slots.holds other || ids.any fun reached => reached.same other) := by
  rw [← holds_or_firsts]
  simp only [holds, Catalog.values, entries, List.map_append, List.any_append, values_numbered, List.any_map]
  rfl

theorem top_of_entries (room : slots.HasRoom ids) : after.top = slots.top + (slots.firsts ids).length := by
  rcases List.eq_nil_or_concat' (slots.firsts ids) with none | ⟨init, last, whole⟩
  · have same : after = slots := Catalog.ext (by rw [entries, none]; exact List.append_nil _)
    rw [same, none]
    rfl
  · rw [HasRoom, whole, List.length_append, List.length_singleton] at room
    rw [top, Catalog.lastKey?, entries, whole, numbered_concat, ← List.append_assoc, List.getLast?_concat,
      List.length_append, List.length_singleton]
    change (UInt32.ofNat (slots.top + init.length)).toNat + 1 = _
    rw [UInt32.toNat_ofNat_of_lt' (by omega), Nat.add_assoc]

end

theorem HasRoom.earlier (room : slots.HasRoom (ids ++ [id])) : slots.HasRoom ids := by
  rw [HasRoom, firsts_concat, List.length_append] at room
  rw [HasRoom]
  omega

theorem HasRoom.fresh (room : slots.HasRoom (ids ++ [id]))
    (fresh : (slots.holds id || ids.any fun earlier => earlier.same id) = false) :
    slots.top + (slots.firsts ids).length < UInt32.size := by
  rw [HasRoom, firsts_concat, fresh, List.length_append] at room
  exact room

theorem entries_addAll (room : slots.HasRoom ids) (now : Instant) :
    (slots.addAll now ids).1.entries = slots.entries ++ numbered slots.top (slots.firsts ids) now := by
  -- From the end: what comes before the last id decides whether that one is new.
  induction ids using List.reverseRecOn with
  | nil => exact (List.append_nil _).symm
  | append_singleton earlier last ih =>
      have entries := ih room.earlier
      have holds := holds_of_entries entries last
      rw [addAll_concat, firsts_concat]
      cases held : (slots.addAll now earlier).1.holds last with
      | true => simp [add_of_holds held, ← holds, held, entries]
      | false =>
          rw [held] at holds
          have highest := top_of_entries entries room.earlier
          rw [entries_add held (highest ▸ room.fresh holds.symm), entries, highest, ← holds, List.append_assoc,
            if_neg Bool.false_ne_true, numbered_concat]

theorem holds_addAll (room : slots.HasRoom ids) (now : Instant) (other : Json) :
    (slots.addAll now ids).1.holds other = (slots.holds other || ids.any fun reached => reached.same other) :=
  holds_of_entries (entries_addAll room now) other

theorem Distinct.addAll (distinct : slots.Distinct) (room : slots.HasRoom ids) :
    (slots.addAll now ids).1.Distinct := by
  induction ids using List.reverseRecOn with
  | nil => exact distinct
  | append_singleton earlier last ih =>
      rw [addAll_concat]
      refine (ih room.earlier).add fun fresh => ?_
      rw [holds_addAll room.earlier] at fresh
      rw [top_of_entries (entries_addAll room.earlier now) room.earlier]
      exact room.fresh fresh

end Slots

/-! ## Unlocks of several categories -/

namespace Unlocks

def ids (unlocks : Unlocks) (category : String) : List Json :=
  ((unlocks.get? category).getD []).map (·.2)

theorem ids_of_not_mem {unlocks : Unlocks} {category : String} (absent : category ∉ unlocks.keys) :
    unlocks.ids category = [] := by
  rw [ids, Catalog.get?_eq_none_iff.mpr absent]
  rfl

def Proper (unlocks : Unlocks) : Prop := ∀ category, ∀ id ∈ unlocks.ids category, id.Proper

end Unlocks

namespace Ledger

variable {ledger before after : Ledger} {unlocks : Unlocks} {category : String} {now : Instant}
  {entries : List (String × Members)}

/-- The slots of every category last for the ids that are new to it. -/
def HasRoom (ledger : Ledger) (unlocks : Unlocks) : Prop :=
  ∀ category, (ledger.slots category).HasRoom (unlocks.ids category)

instance : Decidable (ledger.HasRoom unlocks) :=
  decidable_of_iff (∀ category ∈ unlocks.keys, (ledger.slots category).HasRoom (unlocks.ids category)) <| by
    refine ⟨fun named category => ?_, fun room category _ => room category⟩
    by_cases listed : category ∈ unlocks.keys
    · exact named category listed
    · rw [Unlocks.ids_of_not_mem listed]
      exact (ledger.slots category).top_le

/-- Whether an id is unlocked that a ledger does not hold. -/
def lacks (ledger : Ledger) (unlocks : Unlocks) : Bool :=
  unlocks.entries.any fun (category, ids) => ids.any fun (_, id) => !ledger.contains category id

theorem get?_commitCategory_of_ne {other : String} {ids : List Json} (differs : other ≠ category) :
    (ledger.commitCategory now category ids).1.categories.get? other = ledger.categories.get? other :=
  Catalog.get?_insert_of_ne differs

theorem get?_commitCategory_self {ids : List Json} :
    (ledger.commitCategory now category ids).1.categories.get? category =
      some ((ledger.slots category).addAll now ids).1 :=
  Catalog.get?_insert_self

theorem slots_commitCategory_of_ne {other : String} {ids : List Json} (differs : other ≠ category) :
    (ledger.commitCategory now category ids).1.slots other = ledger.slots other := by
  rw [slots, get?_commitCategory_of_ne differs, slots]

theorem get?_commitEntries_of_not_mem (absent : category ∉ entries.map (·.1)) :
    (ledger.commitEntries now entries).1.categories.get? category = ledger.categories.get? category := by
  induction entries generalizing ledger with
  | nil => rfl
  | cons first rest ih =>
      rw [List.map_cons, List.mem_cons, not_or] at absent
      exact (ih absent.2).trans (get?_commitCategory_of_ne absent.1)

theorem get?_commitEntries_of_mem {ids : Members} (distinct : (entries.map (·.1)).Nodup)
    (member : (category, ids) ∈ entries) :
    (ledger.commitEntries now entries).1.categories.get? category =
      some ((ledger.slots category).addAll now (ids.map (·.2))).1 := by
  induction entries generalizing ledger with
  | nil => simp at member
  | cons first rest ih =>
      rw [List.map_cons, List.nodup_cons] at distinct
      rcases List.mem_cons.mp member with rfl | later
      · exact (get?_commitEntries_of_not_mem distinct.1).trans get?_commitCategory_self
      · have differs : category ≠ first.1 := by
          intro same
          exact distinct.1 (same ▸ List.mem_map_of_mem later)
        exact (ih distinct.2 later).trans
          (congrArg (fun slots : Slots => some (slots.addAll now _).1) (slots_commitCategory_of_ne differs))

theorem get?_commit_of_not_mem (absent : category ∉ unlocks.keys) :
    (ledger.commit unlocks now).1.categories.get? category = ledger.categories.get? category :=
  get?_commitEntries_of_not_mem absent

theorem get?_commit_of_get? {ids : Members} (ledger : Ledger) (now : Instant)
    (found : unlocks.get? category = some ids) :
    (ledger.commit unlocks now).1.categories.get? category =
      some ((ledger.slots category).addAll now (unlocks.ids category)).1 := by
  rw [Unlocks.ids, found]
  exact get?_commitEntries_of_mem Catalog.nodup_keys (Catalog.get?_eq_some_iff.mp found)

theorem slots_commit :
    (ledger.commit unlocks now).1.slots category =
      ((ledger.slots category).addAll now (unlocks.ids category)).1 := by
  cases found : unlocks.get? category with
  | none =>
      rw [slots, get?_commit_of_not_mem (Catalog.get?_eq_none_iff.mp found), Unlocks.ids, found]
      rfl
  | some ids =>
      rw [slots, get?_commit_of_get? ledger now found]
      rfl

/-! ### What is new -/

theorem commit_changed (ledger : Ledger) (unlocks : Unlocks) (now : Instant) :
    (ledger.commit unlocks now).2 = ledger.lacks unlocks := by
  have distinct : (unlocks.entries.map (·.1)).Nodup := Catalog.nodup_keys
  rw [commit, lacks]
  generalize unlocks.entries = entries at distinct
  induction entries generalizing ledger with
  | nil => rfl
  | cons first rest ih =>
      rw [List.map_cons, List.nodup_cons] at distinct
      have later : ∀ entry ∈ rest, (ledger.commitCategory now first.1 (first.2.map (·.2))).1.slots entry.1 =
          ledger.slots entry.1 := fun entry listed =>
        slots_commitCategory_of_ne fun same => distinct.1 (same ▸ List.mem_map_of_mem listed)
      rw [List.any_cons, commitEntries]
      simp only [ih _ distinct.2]
      refine congrArg₂ _ ((Slots.addAll_changed _ now _).trans List.any_map) (Bool.eq_iff_iff.mpr ?_)
      rw [List.any_eq_true, List.any_eq_true]
      exact exists_congr fun entry => and_congr_right fun listed => by simp only [contains, later entry listed]

theorem lacks_eq_true_iff :
    ledger.lacks unlocks = true ↔
      ∃ category, ∃ id ∈ unlocks.ids category, ledger.contains category id = false := by
  simp only [lacks, List.any_eq_true, Bool.not_eq_true', Prod.exists]
  constructor
  · rintro ⟨category, members, entry, key, id, member, missing⟩
    refine ⟨category, id, ?_, missing⟩
    rw [Unlocks.ids, Catalog.get?_eq_some_iff.mpr entry]
    exact List.mem_map_of_mem member
  · rintro ⟨category, id, member, missing⟩
    cases found : unlocks.get? category with
    | none => simp [Unlocks.ids, found] at member
    | some members =>
        simp only [Unlocks.ids, found, Option.getD_some, List.mem_map, Prod.exists,
          exists_eq_right] at member
        obtain ⟨key, present⟩ := member
        exact ⟨category, members, Catalog.get?_eq_some_iff.mp found, key, id, present, missing⟩

theorem lacks_eq_false_iff :
    ledger.lacks unlocks = false ↔
      ∀ category, ∀ id ∈ unlocks.ids category, ledger.contains category id = true := by
  rw [← Bool.not_eq_true, lacks_eq_true_iff]
  simp

theorem slots_commit_of_settled (settled : ledger.lacks unlocks = false) (now : Instant) (category : String) :
    (ledger.commit unlocks now).1.slots category = ledger.slots category := by
  rw [slots_commit, Slots.addAll_of_holds fun id reached => lacks_eq_false_iff.mp settled category id reached]

theorem fresh_of_added {slot : UInt32} {record : UnlockRecord}
    (taken : ((ledger.commit unlocks now).1.slots category).get? slot = some record)
    (free : (ledger.slots category).get? slot = none) : ledger.lacks unlocks = true := by
  by_contra settled
  rw [slots_commit_of_settled (Bool.eq_false_iff.mpr settled), free] at taken
  cases taken

theorem commitEntries_of_holds
    (held : ∀ category ids, (category, ids) ∈ entries →
      ∃ slots, ledger.categories.get? category = some slots ∧
        ∀ id ∈ ids.map (·.2), slots.holds id = true) :
    ledger.commitEntries now entries = (ledger, false) := by
  induction entries with
  | nil => rfl
  | cons first rest ih =>
      obtain ⟨slots, found, all⟩ := held first.1 first.2 List.mem_cons_self
      have settled : ledger.commitCategory now first.1 (first.2.map (·.2)) = (ledger, false) := by
        rw [commitCategory, Ledger.slots, found, Option.getD_some, Slots.addAll_of_holds all]
        exact congrArg (Ledger.mk · , false) (Catalog.insert_of_get? found)
      rw [commitEntries, settled]
      simp only [ih fun category ids member => held category ids (List.mem_cons_of_mem _ member), Bool.false_or]

/-! ### What is there after a commit with room -/

section

variable (room : ledger.HasRoom unlocks)

include room

theorem contains_commit (now : Instant) (category : String) (id : Json) :
    (ledger.commit unlocks now).1.contains category id =
      (ledger.contains category id || (unlocks.ids category).any fun reached => reached.same id) := by
  rw [contains, slots_commit, Slots.holds_addAll (room category), contains]

theorem entries_commit (now : Instant) (category : String) :
    ((ledger.commit unlocks now).1.slots category).entries =
      (ledger.slots category).entries ++
        Slots.numbered (ledger.slots category).top
          ((ledger.slots category).firsts (unlocks.ids category)) now := by
  rw [slots_commit, Slots.entries_addAll (room category)]

theorem added_of_fresh {id : Json} (reached : id ∈ unlocks.ids category)
    (fresh : ledger.contains category id = false) :
    ∃ slot record, ((ledger.commit unlocks now).1.slots category).get? slot = some record ∧
      (ledger.slots category).get? slot = none := by
  have entries := entries_commit room now category
  have last := room category
  rw [Slots.HasRoom] at last
  cases new : (ledger.slots category).firsts (unlocks.ids category) with
  | nil =>
      have held := Slots.firsts_eq_nil_iff.mp new id reached
      exact absurd (held.symm.trans fresh) (by decide)
  | cons first rest =>
      rw [new, List.length_cons] at last
      refine ⟨.ofNat (ledger.slots category).top, ⟨first, now⟩, ?_, ?_⟩
      · rw [Catalog.get?_eq_some_iff, entries, new]
        exact List.mem_append_right _ List.mem_cons_self
      · rw [Catalog.get?_eq_none_iff]
        intro used
        have less := (Slots.follows_top _).1 _ used
        rw [UInt32.toNat_ofNat_of_lt' (by omega)] at less
        omega

theorem contains_of_reached {id : Json} (now : Instant) (proper : unlocks.Proper)
    (reached : id ∈ unlocks.ids category) : (ledger.commit unlocks now).1.contains category id = true := by
  rw [contains_commit room, Bool.or_eq_true]
  exact .inr (List.any_eq_true.mpr ⟨id, reached, Json.same_self (proper category id reached)⟩)

theorem commit_commit (proper : unlocks.Proper) (now later : Instant) :
    (ledger.commit unlocks now).1.commit unlocks later = ((ledger.commit unlocks now).1, false) := by
  refine commitEntries_of_holds fun category ids member => ?_
  have found := Catalog.get?_eq_some_iff.mpr member
  have present := get?_commit_of_get? ledger now found
  refine ⟨_, present, fun id reached => ?_⟩
  have listed : id ∈ unlocks.ids category := by
    rw [Unlocks.ids, found]
    exact reached
  have held := contains_of_reached room now proper listed
  rwa [contains, slots, present] at held

end

/-! ## The laws of the ledger -/

/-- What a commit of unlocks does to a ledger, and what it says of it. -/
structure Commits (before : Ledger) (unlocks : Unlocks) (now : Instant) (after : Ledger × Bool) : Prop where
  kept : ∀ category slot record, (before.slots category).get? slot = some record →
    (after.1.slots category).get? slot = some record
  contains_iff : ∀ category id, after.1.contains category id = true ↔
    before.contains category id = true ∨ ∃ reached ∈ unlocks.ids category, reached.same id = true
  distinct : ∀ category, (before.slots category).Distinct → (after.1.slots category).Distinct
  added : ∀ category, ∃ start, (before.slots category).Follows start ∧
    start + ((before.slots category).firsts (unlocks.ids category)).length ≤ UInt32.size ∧
    (after.1.slots category).entries = (before.slots category).entries ++
      Slots.numbered start ((before.slots category).firsts (unlocks.ids category)) now
  untouched : ∀ category, category ∉ unlocks.keys →
    after.1.categories.get? category = before.categories.get? category
  changed : after.2 = true ↔ ∃ category slot record,
    (after.1.slots category).get? slot = some record ∧ (before.slots category).get? slot = none
  settled : unlocks.Proper → ∀ later, after.1.commit unlocks later = (after.1, false)

theorem commits_commit (room : ledger.HasRoom unlocks) (now : Instant) :
    ledger.Commits unlocks now (ledger.commit unlocks now) where
  kept category slot record found := by
    rw [Catalog.get?_eq_some_iff] at found ⊢
    rw [entries_commit room]
    exact List.mem_append_left _ found
  contains_iff category id := by
    rw [contains_commit room, Bool.or_eq_true, List.any_eq_true]
  distinct category distinct := by
    rw [slots_commit]
    exact distinct.addAll (room category)
  added category := ⟨_, Slots.follows_top _, room category, entries_commit room now category⟩
  untouched category absent := get?_commit_of_not_mem absent
  changed := by
    rw [commit_changed]
    constructor
    · intro lacking
      obtain ⟨category, id, reached, fresh⟩ := lacks_eq_true_iff.mp lacking
      exact ⟨category, added_of_fresh room reached fresh⟩
    · rintro ⟨category, slot, record, taken, free⟩
      exact fresh_of_added taken free
  settled proper later := commit_commit room proper now later

/-- A ledger has grown out of another: every category has the records that it had, slot by slot, and new
ones only after them. -/
structure GrownFrom (after before : Ledger) : Prop where
  prefixes : ∀ category, (before.slots category).entries <+: (after.slots category).entries
  distinct : ∀ category, (before.slots category).Distinct → (after.slots category).Distinct

theorem GrownFrom.refl (ledger : Ledger) : ledger.GrownFrom ledger :=
  ⟨fun _ => List.prefix_rfl, fun _ distinct => distinct⟩

theorem GrownFrom.commit (grown : after.GrownFrom before) (room : after.HasRoom unlocks) (now : Instant) :
    (after.commit unlocks now).1.GrownFrom before where
  prefixes category := by
    rw [entries_commit room]
    exact (grown.prefixes category).trans (List.prefix_append _ _)
  distinct category distinct := (commits_commit room now).distinct category (grown.distinct category distinct)

/-! ## Commits one after another -/

def commitAll (ledger : Ledger) (commits : List (Unlocks × Instant)) : Ledger :=
  commits.foldl (fun ledger (unlocks, now) => (ledger.commit unlocks now).1) ledger

def HasRoomForAll (ledger : Ledger) : List (Unlocks × Instant) → Prop
  | [] => True
  | (unlocks, now) :: later => ledger.HasRoom unlocks ∧ (ledger.commit unlocks now).1.HasRoomForAll later

instance HasRoomForAll.decide (ledger : Ledger) :
    (commits : List (Unlocks × Instant)) → Decidable (ledger.HasRoomForAll commits)
  | [] => .isTrue trivial
  | (unlocks, now) :: later =>
      have := HasRoomForAll.decide (ledger.commit unlocks now).1 later
      inferInstanceAs (Decidable (ledger.HasRoom unlocks ∧ (ledger.commit unlocks now).1.HasRoomForAll later))

theorem GrownFrom.commitAll {commits : List (Unlocks × Instant)} (grown : after.GrownFrom before)
    (room : after.HasRoomForAll commits) : (after.commitAll commits).GrownFrom before := by
  induction commits generalizing after with
  | nil => exact grown
  | cons first rest ih => exact ih (grown.commit room.1 first.2) room.2

end Ledger
end BranchingStory
