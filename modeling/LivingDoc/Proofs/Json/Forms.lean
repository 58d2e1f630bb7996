import LivingDoc.Proofs.Json.Decoder
import Mathlib.Data.List.Forall2
import Mathlib.Data.List.Nodup

/-!
The forms in which a typed value may be written, and decoders that accept all of them.

A structure is written as an object: its members stand in any order, some fields may be left out,
and members that the structure does not know may be added. `Form.record` says this once for all
structures, from the list of their fields. `Decoder.Accepts` says that a decoder gives a value back
from each of its forms; it holds of the parts of a value before it holds of the whole.
-/

namespace LivingDoc.Json

/-! ## Forms -/

/-- How values of a type may be written. -/
abbrev Form (α : Type) := α → Json → Prop

/-- A field of a structure: which values may be written for it, and whether none need be. -/
structure Field where
  name : String
  MayHold : Json → Prop
  mayLack : Prop

/-- `Given fields given`: each field is given in order, with a value it may hold, or is left out. -/
inductive Given : List Field → List (String × Json) → Prop
  | nil : Given [] []
  | leftOut {field : Field} {fields : List Field} {given : List (String × Json)} :
    field.mayLack → Given fields given → Given (field :: fields) given
  | member {field : Field} {fields : List Field} {given : List (String × Json)} {value : Json} :
    field.MayHold value → Given fields given →
    Given (field :: fields) ((field.name, value) :: given)

namespace Form

variable {α : Type}

/-- A text is written as a string. -/
def text : Form String := fun s value => value = .text s

/-- A value that may be absent is written as null if it is. -/
def optional (form : Form α) : Form (Option α)
  | none, value => value = .null
  | some x, value => form x value

/-- A list is written as the list of its items. -/
def list (form : Form α) : Form (List α) := fun xs value =>
  ∃ items, value = .list items ∧ List.Forall₂ form xs items

/-- A structure is written as an object of the fields that are given and any other members, in any
order. -/
def record (fields : α → List Field) : Form α := fun x value =>
  ∃ given others members, Given (fields x) given ∧
    (∀ other ∈ others, other.1 ∉ (fields x).map Field.name) ∧
    members.Perm (given ++ others) ∧ value = .record members

end Form

namespace Field

variable {α : Type}

/-- A field that must be given. -/
def required (name : String) (form : Form α) (x : α) : Field := ⟨name, form x, False⟩

/-- A field that may be left out if it holds a certain value. -/
def orElse (name : String) (form : Form α) (absent x : α) : Field := ⟨name, form x, x = absent⟩

/-- A field that may be null, or left out, if it holds nothing. -/
def optional (name : String) (form : Form α) (x : Option α) : Field :=
  orElse name form.optional none x

/-- A list that may be left out if it is empty. -/
def items (name : String) (form : Form α) (xs : List α) : Field := orElse name form.list [] xs

end Field

/-- A tagged value is written as a structure with a field for the tag. -/
def Form.tagged {α : Type} (kind : α → String) (fields : α → List Field) : Form α :=
  .record fun x => .required tagKey .text (kind x) :: fields x

namespace Form

variable {α : Type} {form : Form α} {encode : α → Json}

/-- A list whose items are each encoded in a form of theirs is in a form of its own. -/
theorem list_map (isForm : ∀ x, form x (encode x)) (xs : List α) :
    form.list xs (.list (xs.map encode)) :=
  ⟨_, rfl, List.forall₂_map_right_iff.mpr (List.forall₂_same.mpr fun x _ => isForm x)⟩

/-- A record of fields of a structure, in any order, is a form of the structure. -/
theorem record_of_perm {fields : α → List Field} {x : α} {given members : List (String × Json)}
    (isGiven : Given (fields x) given) (perm : members.Perm given) :
    record fields x (.record members) :=
  ⟨given, [], members, isGiven, List.forall_mem_nil _, by rwa [List.append_nil], rfl⟩

theorem record_of_given {fields : α → List Field} {x : α} {members : List (String × Json)}
    (isGiven : Given (fields x) members) : record fields x (.record members) :=
  record_of_perm isGiven (.refl members)

theorem not_record_null {fields : α → List Field} (x : α) : ¬ record fields x .null := by
  rintro ⟨_, _, _, _, _, _, same⟩
  cases same

end Form

/-! ## Members -/

/-- Where no key is repeated, looking for a member finds it. -/
theorem lookup_of_mem {members : List (String × Json)} {name : String} {value : Json}
    (distinct : (members.map Prod.fst).Nodup) (member : (name, value) ∈ members) :
    members.lookup name = some value := by
  obtain ⟨before, after, rfl⟩ := List.append_of_mem member
  refine List.lookup_eq_some_iff.mpr ⟨before, after, rfl, fun other inFront => ?_⟩
  rw [List.map_append, List.map_cons] at distinct
  have apart := (List.nodup_append.mp distinct).2.2 other.1 (List.mem_map_of_mem inFront) name
    List.mem_cons_self
  exact bne_iff_ne.mpr apart.symm

namespace Given

variable {fields : List Field} {given : List (String × Json)}

theorem keys_sublist (isGiven : Given fields given) :
    (given.map Prod.fst).Sublist (fields.map Field.name) := by
  induction isGiven with
  | nil => exact .slnil
  | leftOut _ _ ih => exact .cons _ ih
  | member _ _ ih => exact ih.cons_cons _

/-- A field is left out or given. -/
theorem field (isGiven : Given fields given) (distinct : (fields.map Field.name).Nodup) :
    ∀ field ∈ fields, (field.mayLack ∧ field.name ∉ given.map Prod.fst) ∨
      ∃ value, field.MayHold value ∧ (field.name, value) ∈ given := by
  induction isGiven with
  | nil => exact fun _ member => (by cases member)
  | @leftOut field fields given lacks isGiven ih =>
      rw [List.map_cons, List.nodup_cons] at distinct
      have absent := mt (isGiven.keys_sublist.subset ·) distinct.1
      exact List.forall_mem_cons.mpr ⟨.inl ⟨lacks, absent⟩, ih distinct.2⟩
  | @member first fields given value holds isGiven ih =>
      rw [List.map_cons, List.nodup_cons] at distinct
      refine List.forall_mem_cons.mpr ⟨.inr ⟨value, holds, List.mem_cons_self⟩, ?_⟩
      intro field inside
      rcases ih distinct.2 field inside with ⟨lacks, absent⟩ | ⟨value, holds, member⟩
      · have other : field.name ≠ first.name := fun same =>
          distinct.1 (same ▸ List.mem_map_of_mem inside)
        exact .inl ⟨lacks, by simpa [other] using absent⟩
      · exact .inr ⟨value, holds, List.mem_cons_of_mem _ member⟩

end Given

/-- Of members in any order, a filter leaves those given if it leaves them and no others. -/
theorem filter_perm_of_perm {p : String × Json → Bool} {given others members : List (String × Json)}
    (kept : ∀ member ∈ given, p member = true) (left : ∀ other ∈ others, p other = false)
    (perm : members.Perm (given ++ others)) : (members.filter p).Perm given := by
  refine (perm.filter _).trans (.of_eq ?_)
  rw [List.filter_append, List.filter_eq_self.mpr kept, List.filter_eq_nil_iff.mpr,
    List.append_nil]
  exact fun other inside => by simp [left other inside]

/-- The fields of a structure are found among the members of each of its forms. -/
theorem fields?_of_perm {names : List String} {given others members : List (String × Json)}
    (distinct : (given.map Prod.fst).Nodup) (known : ∀ member ∈ given, member.1 ∈ names)
    (unknown : ∀ other ∈ others, other.1 ∉ names) (perm : members.Perm (given ++ others))
    (place : Place) :
    ∃ found, fields? names place (.record members) = some ⟨place.within, found⟩ ∧
      found.Perm given ∧ found ⊆ members := by
  have split : (members.filter fun member => names.contains member.1).Perm given :=
    filter_perm_of_perm (fun member inside => by simpa using known member inside)
      (fun other inside => by simpa using unknown other inside) perm
  have nodup := (split.map Prod.fst).nodup_iff.mpr distinct
  exact ⟨_, fields?_record_eq nodup, split, List.filter_subset_self _⟩

/-- The tag is found wherever it stands among the members of a tagged value. -/
theorem untag?_of_perm {tag : Json} {given others members : List (String × Json)}
    (apart : tagKey ∉ given.map Prod.fst) (unknown : ∀ other ∈ others, other.1 ≠ tagKey)
    (perm : members.Perm ((tagKey, tag) :: given ++ others)) :
    ∃ content, untag? (.record members) = some (tag, .record content) ∧
      content.Perm (given ++ others) ∧ content ⊆ members := by
  have noTag : ∀ member ∈ given ++ others, (member.1 == tagKey) = false := by
    refine fun member inside => beq_eq_false_iff_ne.mpr fun same => ?_
    rcases List.mem_append.mp inside with inside | inside
    · exact apart (same ▸ List.mem_map_of_mem inside)
    · exact unknown member inside same
  have inFront : members.Perm ([(tagKey, tag)] ++ (given ++ others)) := perm
  have single : (members.filter fun member => member.1 == tagKey) = [(tagKey, tag)] :=
    List.perm_singleton.mp (filter_perm_of_perm (by simp) noTag inFront)
  have content : (members.filter fun member => !(member.1 == tagKey)).Perm (given ++ others) :=
    filter_perm_of_perm (fun member inside => by simp [noTag member inside]) (by simp)
      (inFront.trans List.perm_append_comm)
  exact ⟨_, untag?_record_eq single, content, List.filter_subset_self _⟩

/-! ## Decoders -/

/-- What holds of a list or an object at a place holds of its items and members at theirs. -/
structure Inherited (P : Place → Json → Prop) : Prop where
  item {place : Place} {items : List Json} :
    P place (.list items) → ∀ item ∈ items, P place.within item
  member {place : Place} {members : List (String × Json)} :
    P place (.record members) → ∀ member ∈ members, P place.within member.2

/-- `Accepts P decoder form`: from each form of a value, at a place where `P` holds of it, `decoder`
gives the value back. -/
def Decoder.Accepts {α : Type} (P : Place → Json → Prop) (decoder : Decoder α) (form : Form α) :
    Prop :=
  ∀ place x value, form x value → P place value → decoder place value = some x

/-- What is found of a field among those that are given: nothing, or a value that it may hold. -/
def Field.Found (P : Place → Json → Prop) (fields : Fields) (field : Field) : Prop :=
  match fields.given.lookup field.name with
  | none => field.mayLack
  | some value => field.MayHold value ∧ P fields.place value

namespace Field.Found

variable {α : Type} {P : Place → Json → Prop} {fields : Fields} {name : String}
  {decoder : Decoder α} {form : Form α}

theorem required {x : α} (found : Found P fields (.required name form x))
    (accepts : decoder.Accepts P form) : fields.required name decoder = some x := by
  unfold Found at found
  unfold Fields.required
  split at found
  · exact found.elim
  · next value given =>
    change fields.given.lookup name = some value at given
    rw [given]
    exact accepts _ _ _ found.1 found.2

theorem orElse {absent x : α} (found : Found P fields (.orElse name form absent x))
    (accepts : decoder.Accepts P form) : fields.orElse name decoder absent = some x := by
  unfold Found at found
  unfold Fields.orElse
  split at found
  · next lacking =>
    change fields.given.lookup name = none at lacking
    rw [lacking]
    exact congrArg some (show x = absent from found).symm
  · next value given =>
    change fields.given.lookup name = some value at given
    rw [given]
    exact accepts _ _ _ found.1 found.2

theorem optional {x : Option α} (found : Found P fields (.optional name form x))
    (accepts : decoder.optional.Accepts P form.optional) :
    fields.optional name decoder = some x :=
  found.orElse accepts

theorem items {xs : List α} (found : Found P fields (.items name form xs))
    (accepts : decoder.list.Accepts P form.list) : fields.items name decoder = some xs :=
  found.orElse accepts

end Field.Found

namespace Decoder.Accepts

variable {α : Type} {P : Place → Json → Prop} {decoder : Decoder α} {form : Form α}

theorem text : Accepts P .string .text := by
  rintro place s _ rfl _
  rfl

/-- A value that may be absent is not taken for one if none is written as null. -/
theorem optional (accepts : decoder.Accepts P form) (nonNull : ∀ x, ¬ form x .null) :
    decoder.optional.Accepts P form.optional := by
  intro place x value isForm holds
  cases x with
  | none =>
      cases (show value = .null from isForm)
      rfl
  | some x =>
      have decoded := accepts place x value isForm holds
      unfold Decoder.optional
      split
      · exact absurd isForm (nonNull x)
      · rw [decoded]
        rfl

theorem optionalText : Accepts P (.optional .string) Form.text.optional := by
  refine text.optional fun s isNull => ?_
  cases isNull

theorem list (inherited : Inherited P) (accepts : decoder.Accepts P form) :
    decoder.list.Accepts P form.list := by
  rintro place xs _ ⟨items, rfl, areForms⟩ holds
  have each := inherited.item holds
  clear holds
  change items.mapM (decoder place.within) = some xs
  induction areForms with
  | nil => rfl
  | cons isForm _ ih =>
      rw [List.forall_mem_cons] at each
      rw [List.mapM_cons, accepts _ _ _ isForm each.1, ih each.2]
      rfl

/-- A decoder accepts the forms of a structure if it can do with what is found of each field. -/
theorem record {names : List String} {fields : α → List Field} {decodeFields : Fields → Option α}
    (inherited : Inherited P) (distinct : names.Nodup)
    (named : ∀ x, (fields x).map Field.name = names)
    (decodes : ∀ x given, (∀ field ∈ fields x, field.Found P given) →
      decodeFields given = some x) :
    Accepts P (fun place value => do decodeFields (← fields? names place value))
      (.record fields) := by
  rintro place x _ ⟨given, others, members, isGiven, unknown, perm, rfl⟩ holds
  rw [named x] at unknown
  have distinctFields : ((fields x).map Field.name).Nodup := named x ▸ distinct
  have sublist := isGiven.keys_sublist
  obtain ⟨found, eq, foundPerm, subset⟩ := fields?_of_perm
    (distinctFields.sublist sublist)
    (fun member inside => named x ▸ sublist.subset (List.mem_map_of_mem inside)) unknown perm place
  change (fields? names place (.record members)).bind decodeFields = some x
  rw [eq]
  -- The fields are found in the order of the members, so each one is looked up by its name.
  refine decodes x ⟨place.within, found⟩ fun field inside => ?_
  have distinctFound : (found.map Prod.fst).Nodup :=
    (foundPerm.map Prod.fst).nodup_iff.mpr (distinctFields.sublist sublist)
  unfold Field.Found
  rcases isGiven.field distinctFields field inside with ⟨lacks, absent⟩ | ⟨value, mayHold, there⟩
  · have lacking : found.lookup field.name = none := by
      rw [List.lookup_eq_none_iff]
      intro member inFound
      have other : member.1 ≠ field.name := fun same =>
        absent (same ▸ List.mem_map_of_mem (foundPerm.subset inFound))
      exact bne_iff_ne.mpr other.symm
    simp only [lacking]
    exact lacks
  · have inFound := foundPerm.symm.subset there
    simp only [lookup_of_mem distinctFound inFound]
    exact ⟨mayHold, inherited.member holds _ (subset inFound)⟩

/-- A text that spells a form of a value is decoded to the value. -/
theorem decode?_eq (accepts : decoder.Accepts P form) {x : α} {value : Json} {text : String}
    (isForm : form x value) (spells : Spells text.toList value.tokens)
    (holds : P .whole value) : decode? decoder text = some x := by
  rw [decode?, spells.parse?_eq]
  exact accepts .whole x value isForm holds

end Decoder.Accepts

/-! ## Sound values -/

/-- Whether a value is sound where it stands, so that it may be examined in full. -/
def SoundAt (place : Place) (value : Json) : Prop :=
  value.isSound (depthLimit - place.opened) = true

theorem soundAt_list_iff {place : Place} {items : List Json} :
    SoundAt place (.list items) ↔
      place.opened < depthLimit ∧ ∀ item ∈ items, SoundAt place.within item := by
  have less : depthLimit - place.within.opened = depthLimit - place.opened - 1 :=
    Nat.sub_add_eq depthLimit place.opened 1
  unfold SoundAt
  rw [less, ← Nat.sub_pos_iff_lt]
  cases depthLimit - place.opened with
  | zero => simp [isSound]
  | succ room => simp [isSound, areSound_iff]

theorem soundAt_record_iff {place : Place} {members : List (String × Json)} :
    SoundAt place (.record members) ↔
      place.opened < depthLimit ∧ ∀ member ∈ members, SoundAt place.within member.2 := by
  have less : depthLimit - place.within.opened = depthLimit - place.opened - 1 :=
    Nat.sub_add_eq depthLimit place.opened 1
  unfold SoundAt record
  rw [less, ← Nat.sub_pos_iff_lt]
  cases depthLimit - place.opened with
  | zero => simp [isSound]
  | succ room =>
      rw [isSound, areSoundMembers_iff, List.forall_mem_map]
      simp

theorem inherited_soundAt : Inherited SoundAt where
  item sound := (soundAt_list_iff.mp sound).2
  member sound := (soundAt_record_iff.mp sound).2

/-- A token that can be represented: its number fits a double, its string denotes characters. -/
def Token.IsRepresentable : Token → Prop
  | num n => n.fitsDouble = true
  | str s => s.isSome = true
  | _ => True

instance : (token : Token) → Decidable token.IsRepresentable
  | .num n => inferInstanceAs (Decidable (n.fitsDouble = true))
  | .str s => inferInstanceAs (Decidable (s.isSome = true))
  | .null | .bool _ | .openList | .closeList | .openObject | .closeObject | .comma | .colon =>
    isTrue trivial

/-- Whether all numbers and strings in a value can be represented. -/
def IsRepresentable (value : Json) : Prop :=
  ∀ token ∈ value.tokens, token.IsRepresentable

instance (value : Json) : Decidable value.IsRepresentable :=
  inferInstanceAs (Decidable (∀ token ∈ value.tokens, token.IsRepresentable))

mutual

/-- How many lists and objects are open at once in a value. -/
def depth : Json → Nat
  | .list items => itemsDepth items + 1
  | .object members => membersDepth members + 1
  | _ => 0

/-- The same for the items of a list. -/
def itemsDepth : List Json → Nat
  | [] => 0
  | item :: items => max (depth item) (itemsDepth items)

/-- The same for the members of an object. -/
def membersDepth : List (Option String × Json) → Nat
  | [] => 0
  | (_, value) :: members => max (depth value) (membersDepth members)

end

mutual

/-- A value that can be represented is sound where there is room for its lists and objects. -/
theorem isSound_of_depth {room : Nat} (value : Json) (representable : value.IsRepresentable)
    (fits : value.depth ≤ room) : value.isSound room = true := by
  unfold IsRepresentable at representable
  cases value with
  | null => rfl
  | bool b => rfl
  | num n => exact representable (.num n) List.mem_cons_self
  | str s => exact representable (.str s) List.mem_cons_self
  -- Only the opening bracket differs from what stands in front of later items or members.
  | list items =>
      cases room with
      | zero => cases fits
      | succ room =>
          rw [depth, Nat.add_le_add_iff_right] at fits
          refine areSound_of_depth items ?_ fits
          cases items with
          | nil => exact (List.forall_mem_cons.mp representable).2
          | cons item items =>
              exact List.forall_mem_cons.mpr ⟨trivial, (List.forall_mem_cons.mp representable).2⟩
  | object members =>
      cases room with
      | zero => cases fits
      | succ room =>
          rw [depth, Nat.add_le_add_iff_right] at fits
          refine areSoundMembers_of_depth members ?_ fits
          cases members with
          | nil => exact (List.forall_mem_cons.mp representable).2
          | cons member members =>
              exact List.forall_mem_cons.mpr ⟨trivial, (List.forall_mem_cons.mp representable).2⟩

/-- The same for the items of a list. -/
theorem areSound_of_depth {room : Nat} (items : List Json)
    (representable : ∀ token ∈ itemTokens items, token.IsRepresentable)
    (fits : itemsDepth items ≤ room) : areSound room items = true := by
  cases items with
  | nil => rfl
  | cons item items =>
      rw [itemTokens, List.forall_mem_cons, List.forall_mem_append] at representable
      rw [itemsDepth, Nat.max_le] at fits
      rw [areSound, isSound_of_depth item representable.2.1 fits.1,
        areSound_of_depth items representable.2.2 fits.2, Bool.and_self]

/-- The same for the members of an object. -/
theorem areSoundMembers_of_depth {room : Nat} (members : List (Option String × Json))
    (representable : ∀ token ∈ memberTokens members, token.IsRepresentable)
    (fits : membersDepth members ≤ room) : areSoundMembers room members = true := by
  cases members with
  | nil => rfl
  | cons member members =>
      obtain ⟨key, value⟩ := member
      simp only [memberTokens, List.forall_mem_cons, List.forall_mem_append] at representable
      rw [membersDepth, Nat.max_le] at fits
      obtain ⟨_, isText, _, value', members'⟩ := representable
      rw [areSoundMembers, show key.isSome = true from isText,
        isSound_of_depth value value' fits.1,
        areSoundMembers_of_depth members members' fits.2, Bool.and_self, Bool.and_self]

end

/-- A decoder for tagged values accepts their forms if it does so for each type. -/
theorem Decoder.Accepts.tagged {α : Type} {variants : List (String × Decoder α)} {kind : α → String}
    {fields : α → List Field} (apart : ∀ x, tagKey ∉ (fields x).map Field.name)
    (accepts : ∀ x, ∃ decoder, variants.lookup (kind x) = some decoder ∧
      ∀ place value, Form.record fields x value → SoundAt place value →
        decoder place value = some x) :
    Accepts SoundAt (.tagged variants) (.tagged kind fields) := by
  rintro place x _ ⟨given, others, members, isGiven, unknown, perm, rfl⟩ sound
  obtain ⟨decoder, chosen, decodes⟩ := accepts x
  replace unknown : ∀ other ∈ others, other.1 ≠ tagKey ∧ other.1 ∉ (fields x).map Field.name :=
    fun other inside => List.ne_and_not_mem_of_not_mem_cons (unknown other inside)
  cases isGiven with
  | leftOut lacks _ => exact lacks.elim
  | @member _ _ given tag isTag isGiven =>
      cases (show tag = .text (kind x) from isTag)
      -- Without the tag, the members are still in no particular order.
      obtain ⟨content, split, rest, subset⟩ := untag?_of_perm
        (fun inside => apart x (isGiven.keys_sublist.subset inside))
        (fun other inside => (unknown other inside).1) perm
      have isForm : Form.record fields x (.record content) :=
        ⟨given, others, content, isGiven, fun other inside => (unknown other inside).2, rest, rfl⟩
      have examined : SoundAt { place with examined := true } (.record content) := by
        rw [soundAt_record_iff] at sound ⊢
        exact ⟨sound.1, fun member inside => sound.2 member (subset inside)⟩
      rw [Decoder.tagged, if_pos (by rw [sound, Bool.or_true]), split]
      change (variants.lookup (kind x)).bind
        (fun decoder => decoder { place with examined := true } (.record content)) = _
      rw [chosen]
      exact decodes _ _ isForm examined

end LivingDoc.Json
