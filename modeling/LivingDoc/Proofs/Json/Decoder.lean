import LivingDoc.Json.Decoder
import LivingDoc.Proofs.Json.Reading

/-!
Decoding undoes encoding.

The values that encoders write are plain: made of texts, lists and records. Such a value is sound,
and all that a decoder has to know about the place of one is how much room is left for lists and
objects. `Undoes` states this for a decoder; it holds of the parts of a value before it holds of the
whole.
-/

namespace LivingDoc.Json

/-! ## Plain values -/

/-- `IsPlain room value`: the value is made of texts, lists and records, and opens at most `room` of
these at once. -/
inductive IsPlain : Nat → Json → Prop
  | null {room : Nat} : IsPlain room .null
  | text {room : Nat} (s : String) : IsPlain room (.text s)
  | list {room : Nat} {items : List Json} :
    (∀ item ∈ items, IsPlain room item) → IsPlain (room + 1) (.list items)
  | record {room : Nat} {members : List (String × Json)} :
    (∀ member ∈ members, IsPlain room member.2) → IsPlain (room + 1) (.record members)

theorem isPlain_record_iff {room : Nat} {members : List (String × Json)} :
    IsPlain (room + 1) (.record members) ↔ ∀ member ∈ members, IsPlain room member.2 := by
  refine ⟨fun plain => ?_, .record⟩
  generalize whole : Json.record members = value at plain
  cases plain with
  | record plain =>
      have same := Json.object.inj whole
      rw [List.map_inj_right fun _ _ same =>
        Prod.ext (Option.some.inj (Prod.mk.inj same).1) (Prod.mk.inj same).2] at same
      exact same ▸ plain
  | _ => cases whole

theorem IsPlain.mono {room room' : Nat} {value : Json} (plain : IsPlain room value)
    (h : room ≤ room') : IsPlain room' value := by
  induction plain generalizing room' with
  | null => exact .null
  | text s => exact .text s
  | list _ ih =>
      obtain ⟨room', rfl⟩ := Nat.exists_eq_add_of_lt h
      exact .list fun item member => ih item member (by omega)
  | record _ ih =>
      obtain ⟨room', rfl⟩ := Nat.exists_eq_add_of_lt h
      exact .record fun member inside => ih member inside (by omega)

theorem areSound_iff {room : Nat} {items : List Json} :
    areSound room items = true ↔ ∀ item ∈ items, isSound room item = true := by
  induction items with
  | nil => simp [areSound]
  | cons item items ih => rw [areSound, Bool.and_eq_true, ih, List.forall_mem_cons]

theorem areSoundMembers_iff {room : Nat} {members : List (Option String × Json)} :
    areSoundMembers room members = true ↔
      ∀ member ∈ members, member.1.isSome = true ∧ isSound room member.2 = true := by
  induction members with
  | nil => simp [areSoundMembers]
  | cons member members ih =>
      rw [areSoundMembers, Bool.and_eq_true, Bool.and_eq_true, ih, List.forall_mem_cons]

theorem IsPlain.isSound {room : Nat} {value : Json} (plain : IsPlain room value) :
    value.isSound room = true := by
  induction plain with
  | null => rfl
  | text s => rfl
  | list _ ih => exact areSound_iff.mpr ih
  | record _ ih =>
      refine areSoundMembers_iff.mpr fun member inside => ?_
      obtain ⟨given, there, rfl⟩ := List.mem_map.mp inside
      exact ⟨rfl, ih given there⟩

theorem IsPlain.isSpelled {room : Nat} {value : Json} (plain : IsPlain room value) :
    value.IsSpelled := by
  induction plain with
  | null => simp [IsSpelled, tokens, Token.IsSpelled]
  | text s => simp [IsSpelled, tokens, Json.text, Token.IsSpelled]
  | list _ ih => exact isSpelled_list ih
  | record _ ih =>
      refine isSpelled_object fun member inside => ?_
      obtain ⟨given, there, rfl⟩ := List.mem_map.mp inside
      exact ih given there

/-! ## Decoders -/

theorem mapM_key_record (members : List (String × Json)) :
    (members.map fun (key, value) => (some key, value)).mapM
      (fun (key, value) => (key.map (·, value) : Option (String × Json))) = some members := by
  induction members with
  | nil => rfl
  | cons member members ih =>
      rw [List.map_cons, List.mapM_cons, ih]
      rfl

/-- The fields of a structure are those members of a record that have their names. -/
theorem fields?_record_eq {names : List String} {members : List (String × Json)} {place : Place}
    (distinct : ((members.filter fun member => names.contains member.1).map Prod.fst).Nodup) :
    fields? names place (.record members) =
      some ⟨place.within, members.filter fun member => names.contains member.1⟩ := by
  rw [record, fields?, fieldMembers?, mapM_key_record, Option.bind_eq_bind, Option.bind_some,
    if_pos distinct]
  rfl

/-- A record of exactly the fields of a structure gives them all. -/
theorem fields?_record {names : List String} {members : List (String × Json)} {place : Place}
    (keys : members.map Prod.fst = names) (distinct : names.Nodup) :
    fields? names place (.record members) = some ⟨place.within, members⟩ := by
  have fields : (members.filter fun member => names.contains member.1) = members := by
    refine List.filter_eq_self.mpr fun member inside => ?_
    rw [List.contains_iff_mem, ← keys]
    exact List.mem_map_of_mem inside
  rw [fields?_record_eq, fields]
  rw [fields, keys]
  exact distinct

/-- The only tag among the members of a record is split off. -/
theorem untag?_record_eq {tag : Json} {members : List (String × Json)}
    (single : (members.filter fun member => member.1 == tagKey) = [(tagKey, tag)]) :
    untag? (.record members) =
      some (tag, .record (members.filter fun member => !(member.1 == tagKey))) := by
  have split : (members.map fun (key, value) => (some key, value)).partition
      (fun member => member.1 == some tagKey) =
      ([(some tagKey, tag)], (members.filter fun member => !(member.1 == tagKey)).map
        fun (key, value) => (some key, value)) := by
    rw [List.partition_eq_filter_filter, List.filter_map, List.filter_map]
    exact Prod.ext (congrArg (List.map _) single) rfl
  simp only [untag?, record, split]

/-- A tag in front of members without another one is split off. -/
theorem untag?_record {tag : Json} {members : List (String × Json)}
    (keys : tagKey ∉ members.map Prod.fst) :
    untag? (.record ((tagKey, tag) :: members)) = some (tag, .record members) := by
  have others : ∀ member ∈ members, (member.1 == tagKey) = false := fun member inside =>
    beq_eq_false_iff_ne.mpr fun same => keys (same ▸ List.mem_map_of_mem inside)
  have single : (((tagKey, tag) :: members).filter fun member => member.1 == tagKey) =
      [(tagKey, tag)] := by
    rw [List.filter_cons_of_pos (by simp), List.filter_eq_nil_iff.mpr]
    exact fun member inside => by simp [others member inside]
  rw [untag?_record_eq single, List.filter_cons_of_neg (by simp), List.filter_eq_self.mpr]
  exact fun member inside => by simp [others member inside]

@[simp] theorem Decoder.string_text (place : Place) (s : String) :
    Decoder.string place (.text s) = some s :=
  rfl

/-- `Undoes decoder room encode`: what `encode` writes is plain and opens at most `room` lists and
records at once, and wherever this is allowed, `decoder` gives back what was written. -/
structure Decoder.Undoes {α : Type} (decoder : Decoder α) (room : Nat) (encode : α → Json) : Prop
    where
  plain : ∀ value, IsPlain room (encode value)
  decodes : ∀ place value, place.opened + room ≤ depthLimit →
    decoder place (encode value) = some value

namespace Decoder.Undoes

variable {α : Type} {decoder : Decoder α} {room : Nat} {encode : α → Json}

theorem string : Undoes Decoder.string 0 Json.text where
  plain := .text
  decodes _ _ _ := rfl

theorem mono (undoes : Undoes decoder room encode) {room' : Nat} (h : room ≤ room') :
    Undoes decoder room' encode where
  plain value := (undoes.plain value).mono h
  decodes place value fits := undoes.decodes place value (by omega)

theorem list (undoes : Undoes decoder room encode) :
    Undoes decoder.list (room + 1) fun values => .list (values.map encode) where
  plain values := by
    refine .list fun item member => ?_
    obtain ⟨value, _, rfl⟩ := List.mem_map.mp member
    exact undoes.plain value
  decodes place values fits := by
    change (values.map encode).mapM (decoder place.within) = some values
    induction values with
    | nil => rfl
    | cons value values ih =>
        have here : decoder place.within (encode value) = some value := by
          refine undoes.decodes _ value ?_
          change place.opened + 1 + room ≤ depthLimit
          omega
        rw [List.map_cons, List.mapM_cons, here, ih]
        rfl

/-- Decoding undoes the encoding of a structure if it does so for its fields. -/
theorem record {names : List String} {members : α → List (String × Json)}
    {decodeFields : Fields → Option α} (distinct : names.Nodup)
    (keys : ∀ value, (members value).map Prod.fst = names)
    (plain : ∀ value, ∀ member ∈ members value, IsPlain room member.2)
    (decodes : ∀ place value, place.opened + room ≤ depthLimit →
      decodeFields ⟨place, members value⟩ = some value) :
    Undoes (fun place value => do decodeFields (← fields? names place value)) (room + 1)
      fun value => .record (members value) where
  plain value := .record (plain value)
  decodes place value fits := by
    rw [fields?_record (keys value) distinct]
    refine decodes place.within value ?_
    change place.opened + 1 + room ≤ depthLimit
    omega

/-- Decoding undoes the encoding of a tagged value if it does so for each type. -/
theorem tagged {variants : List (String × Decoder α)} {kind : α → String}
    {members : α → List (String × Json)} (keys : ∀ value, tagKey ∉ (members value).map Prod.fst)
    (decodes : ∀ value, ∃ decoder, variants.lookup (kind value) = some decoder ∧
      IsPlain (room + 1) (.record (members value)) ∧
      ∀ place, place.opened + (room + 1) ≤ depthLimit →
        decoder place (.record (members value)) = some value) :
    Undoes (.tagged variants) (room + 1)
      fun value => .record ((tagKey, .text (kind value)) :: members value) where
  plain value := by
    obtain ⟨_, _, plain, _⟩ := decodes value
    refine .record (List.forall_mem_cons.mpr ⟨.text _, isPlain_record_iff.mp plain⟩)
  decodes place value fits := by
    obtain ⟨decoder, found, plain, decodes⟩ := decodes value
    have whole : IsPlain (depthLimit - place.opened)
        (.record ((tagKey, .text (kind value)) :: members value)) :=
      IsPlain.mono (.record (List.forall_mem_cons.mpr ⟨.text _, isPlain_record_iff.mp plain⟩))
        (by omega)
    rw [Decoder.tagged, if_pos (by rw [whole.isSound, Bool.or_true]), untag?_record (keys value)]
    change (variants.lookup (kind value)).bind
      (fun decoder => decoder { place with examined := true } (.record (members value))) = _
    rw [found]
    exact decodes { place with examined := true } fits

/-- A text that holds what was written is decoded to it. -/
theorem decode?_compact (undoes : Undoes decoder room encode) (h : room ≤ depthLimit) (value : α) :
    decode? decoder (encode value).compact = some value := by
  rw [decode?, parse?_compact (undoes.plain value).isSpelled]
  exact undoes.decodes .whole value (by rwa [Place.whole, Nat.zero_add])

end Decoder.Undoes

end LivingDoc.Json
