import LivingDoc.Proofs.Xml.Resolution
import LivingDoc.Xml.Tag

/-!
The grammar of the attributes of a tag, and its agreement with the reader of attributes.

`Writes text key written rest` is one attribute in front of `rest`; `Attributes text attributes` is
all that follows the name of an element, with the values resolved. The reader finds the attributes
of every text of the grammar whose keys differ, and it finds no fault in no other text.
-/

namespace LivingDoc.Xml

/-- A run of blanks. -/
def Blanks (text : List Char) : Prop :=
  ∀ c ∈ text, isBlank c = true

instance (text : List Char) : Decidable (Blanks text) :=
  List.decidableBAll (isBlank · = true) text

/-- Whether a character may stand in a key after the first one. -/
def isKeyCharacter (c : Char) : Bool :=
  c != '=' && !isBlank c

/-- A key: a run without blanks that holds no equals sign, except in front. -/
def IsKey : List Char → Prop
  | [] => False
  | first :: more => isBlank first = false ∧ ∀ c ∈ more, isKeyCharacter c = true

/-- `Writes text key written rest`: `text` begins with an attribute, whose value is `written`
between quotes of one kind, and goes on with `rest`. -/
inductive Writes : List Char → List Char → List Char → List Char → Prop
  | intro {gap key before after written rest : List Char} {quote : Char} :
    Blanks gap → IsKey key → Blanks before → Blanks after → quote = '"' ∨ quote = '\'' →
    quote ∉ written →
    Writes (gap ++ (key ++ (before ++ '=' :: (after ++ quote :: (written ++ quote :: rest)))))
      key written rest

/-- `Attributes text attributes`: `text` is a list of attributes with these keys and values. -/
inductive Attributes : List Char → List (List Char × List Char) → Prop
  | nil {gap : List Char} : Blanks gap → Attributes gap []
  | cons {text key written value rest : List Char} {attributes : List (List Char × List Char)} :
    Writes text key written rest → Resolves written value → Attributes rest attributes →
    Attributes text ((key, value) :: attributes)

/-! ## Runs of blanks -/

theorem Blanks.dropWhile_append {gap : List Char} (blanks : Blanks gap) (text : List Char) :
    (gap ++ text).dropWhile isBlank = text.dropWhile isBlank :=
  List.dropWhile_append_of_pos blanks

/-- Every text begins with the blanks that a reader drops. -/
theorem exists_blanks (text : List Char) :
    ∃ gap, Blanks gap ∧ text = gap ++ text.dropWhile isBlank :=
  ⟨text.takeWhile isBlank, fun _ member => List.mem_takeWhile_imp member,
    List.takeWhile_append_dropWhile.symm⟩

theorem dropWhile_isBlank_eq_nil_iff {text : List Char} :
    text.dropWhile isBlank = [] ↔ Blanks text :=
  List.dropWhile_eq_nil_iff

/-- What is left after blanks does not begin with one. -/
theorem isBlank_of_dropWhile {text rest : List Char} {first : Char}
    (h : text.dropWhile isBlank = first :: rest) : isBlank first = false := by
  have head := List.head?_dropWhile_not isBlank text
  rw [h] at head
  simpa using head

/-- A text that does not begin with a blank loses nothing. -/
theorem dropWhile_isBlank_cons {first : Char} {rest : List Char} (h : isBlank first = false) :
    (first :: rest).dropWhile isBlank = first :: rest := by
  rw [List.dropWhile_cons_of_neg]
  rw [h]
  exact Bool.false_ne_true

/-! ## One attribute -/

/-- The reader of a value on the rest of a written attribute. -/
theorem takeValue_of_writes {total position : Nat} {key after written rest : List Char}
    {quote : Char} (blanks : Blanks after) (isQuote : quote = '"' ∨ quote = '\'')
    (inside : quote ∉ written) :
    Attribute.takeValue total key position (after ++ quote :: (written ++ quote :: rest)) =
      .ok (⟨key, position, written⟩, rest) := by
  have noBlank : isBlank quote = false := by
    rcases isQuote with rfl | rfl <;> decide
  have all : ∀ c ∈ written, (c != quote) = true := by
    intro c member
    rw [bne_iff_ne]
    rintro rfl
    exact inside member
  have closes : ∀ c ∈ (quote :: rest).head?, (c != quote) = false := by
    intro c first
    cases first
    exact bne_self_eq_false quote
  obtain ⟨taken, dropped⟩ := Text.run_append all closes
  unfold Attribute.takeValue
  rw [blanks.dropWhile_append, dropWhile_isBlank_cons noBlank]
  simp [isQuote, taken, dropped]

theorem writes_of_takeValue {total position : Nat} {key text rest : List Char}
    {item : Attribute} (h : Attribute.takeValue total key position text = .ok (item, rest)) :
    ∃ after quote, Blanks after ∧ (quote = '"' ∨ quote = '\'') ∧ quote ∉ item.value ∧
      item.key = key ∧ text = after ++ quote :: (item.value ++ quote :: rest) := by
  obtain ⟨after, blanks, split⟩ := exists_blanks text
  unfold Attribute.takeValue at h
  split at h
  · cases h
  · next quote inside found =>
    split at h
    · next isQuote =>
      split at h
      · cases h
      · next other rest' found' =>
        cases h
        have last : other = quote := by
          have head := List.head?_dropWhile_not (· != quote) inside
          rw [found'] at head
          simpa using head
        subst last
        have whole : inside = inside.takeWhile (· != other) ++ other :: rest := by
          rw [← found', List.takeWhile_append_dropWhile]
        refine ⟨after, other, blanks, by simpa using isQuote, ?_, rfl, ?_⟩
        · intro member
          have := List.mem_takeWhile_imp member
          simp at this
        · rw [split, found, ← whole]
    · cases h

/-- A key ends at the blanks in front of its equals sign, or at the sign. -/
theorem cut_key {more before : List Char} (inKey : ∀ c ∈ more, isKeyCharacter c = true)
    (blanks : Blanks before) (tail : List Char) :
    (more ++ (before ++ '=' :: tail)).takeWhile isKeyCharacter = more ∧
      (more ++ (before ++ '=' :: tail)).dropWhile isKeyCharacter = before ++ '=' :: tail := by
  refine Text.run_append inKey fun c first => ?_
  cases before with
  | nil =>
      cases first
      rfl
  | cons blank before =>
      have isBlank : isBlank c = true := blanks c (Option.some.inj first ▸ List.mem_cons_self)
      simp [isKeyCharacter, isBlank]

/-- The reader finds a written attribute unless its key has been seen before. -/
theorem take_of_writes (total : Nat) {seen : List Attribute} {text key written rest : List Char}
    (writes : Writes text key written rest) (fresh : ∀ earlier ∈ seen, earlier.key ≠ key) :
    ∃ position, Attribute.take total seen text = .ok (some (⟨key, position, written⟩, rest)) := by
  cases writes with
  | @intro gap _ before after _ _ quote blanks isKey blanksBefore blanksAfter isQuote inside =>
      cases key with
      | nil => exact isKey.elim
      | cons first more =>
          obtain ⟨noBlank, inKey⟩ := isKey
          obtain ⟨taken, dropped⟩ := cut_key inKey blanksBefore
            (after ++ quote :: (written ++ quote :: rest))
          have unseen : seen.find? (fun earlier => earlier.key == first :: more) = none := by
            rw [List.find?_eq_none]
            intro earlier member
            simpa using fresh earlier member
          unfold Attribute.take
          rw [blanks.dropWhile_append, List.cons_append, dropWhile_isBlank_cons noBlank]
          dsimp only
          rw [show (fun c => c != '=' && !isBlank c) = isKeyCharacter from rfl, taken, dropped,
            blanksBefore.dropWhile_append, dropWhile_isBlank_cons (by decide), unseen]
          exact ⟨_, congrArg (Except.map some) (takeValue_of_writes blanksAfter isQuote inside)⟩

/-- The reader finds nothing but written attributes with keys it has not seen before. -/
theorem writes_of_take {total : Nat} {seen : List Attribute} {text rest : List Char}
    {item : Attribute} (h : Attribute.take total seen text = .ok (some (item, rest))) :
    Writes text item.key item.value rest ∧ ∀ earlier ∈ seen, earlier.key ≠ item.key := by
  obtain ⟨gap, blanks, split⟩ := exists_blanks text
  unfold Attribute.take at h
  split at h
  · cases h
  · next first after found =>
    dsimp only at h
    split at h
    · next value found' =>
      split at h
      · cases h
      · next unseen =>
        rcases map_eq_ok_iff.mp h with ⟨⟨item', rest'⟩, taken, same⟩
        cases same
        obtain ⟨after', quote, blanksAfter, isQuote, inside, key, valueSplit⟩ :=
          writes_of_takeValue taken
        obtain ⟨before, blanksBefore, keySplit⟩ := exists_blanks (after.dropWhile isKeyCharacter)
        rw [List.find?_eq_none] at unseen
        have inKey : ∀ c ∈ after.takeWhile isKeyCharacter, isKeyCharacter c = true :=
          fun c member => List.mem_takeWhile_imp member
        have whole : text = gap ++ (item.key ++ (before ++ '=' ::
            (after' ++ quote :: (item.value ++ quote :: rest)))) := by
          rw [split, found, key, ← valueSplit, ← found']
          change gap ++ first :: after = gap ++ (first :: after.takeWhile isKeyCharacter ++
            (before ++ (after.dropWhile isKeyCharacter).dropWhile isBlank))
          rw [← keySplit, List.cons_append, List.takeWhile_append_dropWhile]
        refine ⟨?_, fun earlier member => by simpa [key] using unseen earlier member⟩
        rw [whole]
        refine .intro blanks ?_ blanksBefore blanksAfter isQuote inside
        rw [key]
        exact ⟨isBlank_of_dropWhile found, inKey⟩
    · cases h

theorem take_eq_none_iff {total : Nat} {seen : List Attribute} {text : List Char} :
    Attribute.take total seen text = .ok none ↔ Blanks text := by
  rw [← dropWhile_isBlank_eq_nil_iff]
  unfold Attribute.take
  split
  · next found => simp [found]
  · next first after found =>
    rw [found]
    refine ⟨fun h => ?_, fun h => by cases h⟩
    dsimp only at h
    split at h
    · split at h
      · cases h
      · rcases map_eq_ok_iff.mp h with ⟨_, _, same⟩
        cases same
    · cases h

/-! ## All attributes -/

/-- An attribute as written agrees with a key and a resolved value. -/
def Attribute.Means (item : Attribute) (pair : List Char × List Char) : Prop :=
  item.key = pair.1 ∧ Resolves item.value pair.2

/-- The reader takes a list of attributes of the grammar as it is. Keys count as repeated only if
the reader is asked to compare them, or has seen them before. -/
theorem attributesFrom_of_attributes (total : Nat) {text : List Char}
    {attributes : List (List Char × List Char)} (grammar : Attributes text attributes) :
    ∀ (distinct : Bool) {seen : List Attribute},
      (∀ earlier ∈ seen, ∀ pair ∈ attributes, earlier.key ≠ pair.1) →
      (distinct = true → (attributes.map Prod.fst).Nodup) →
      ∃ items, attributesFrom total distinct seen text = ⟨items, none⟩ ∧
        List.Forall₂ Attribute.Means items attributes := by
  induction grammar with
  | nil blanks =>
      intro distinct seen _ _
      refine ⟨[], ?_, .nil⟩
      rw [attributesFrom]
      split
      · next h =>
        rw [take_eq_none_iff.mpr blanks] at h
        cases h
      · rfl
      · next h =>
        rw [take_eq_none_iff.mpr blanks] at h
        cases h
  | @cons text key written value rest attributes writes resolves _ ih =>
      intro distinct seen fresh nodup
      obtain ⟨position, taken⟩ := take_of_writes total writes
        fun earlier member => fresh earlier member (key, value) List.mem_cons_self
      have freshRest : ∀ earlier ∈
          (if distinct then ⟨key, position, written⟩ :: seen else seen : List Attribute),
          ∀ pair ∈ attributes, earlier.key ≠ pair.1 := by
        intro earlier member pair inRest
        cases distinct with
        | false => exact fresh earlier member pair (List.mem_cons_of_mem _ inRest)
        | true =>
            rcases List.mem_cons.mp member with rfl | member
            · intro same
              exact (List.nodup_cons.mp (nodup rfl)).1 (List.mem_map.mpr ⟨pair, inRest, same.symm⟩)
            · exact fresh earlier member pair (List.mem_cons_of_mem _ inRest)
      obtain ⟨items, found, means⟩ :=
        ih distinct freshRest fun isDistinct => (List.nodup_cons.mp (nodup isDistinct)).2
      refine ⟨⟨key, position, written⟩ :: items, ?_, .cons ⟨rfl, resolves⟩ means⟩
      rw [attributesFrom]
      split
      · next h =>
        rw [taken] at h
        cases h
      · next h =>
        rw [taken] at h
        cases h
      · next h =>
        rw [taken] at h
        cases h
        rw [found]
        rfl

/-- What the reader takes without a fault is a list of attributes of the grammar with keys that
differ, if all values resolve. -/
theorem attributes_of_attributesFrom {total : Nat} {seen : List Attribute} {text : List Char}
    (noFault : (attributesFrom total true seen text).fault = none)
    (resolve : ∀ item ∈ (attributesFrom total true seen text).items,
      ∃ value, Resolves item.value value) :
    ∃ attributes, Attributes text attributes ∧ (attributes.map Prod.fst).Nodup ∧
      ∀ earlier ∈ seen, ∀ pair ∈ attributes, earlier.key ≠ pair.1 := by
  generalize isDistinct : true = distinct at noFault resolve
  fun_induction attributesFrom total distinct seen text with
  | case1 => cases noFault
  | case2 seen text taken =>
      exact ⟨[], .nil (take_eq_none_iff.mp taken), List.nodup_nil, by simp⟩
  | case3 seen text item rest taken ih =>
      subst isDistinct
      obtain ⟨writes, unseen⟩ := writes_of_take taken
      obtain ⟨value, resolves⟩ := resolve item List.mem_cons_self
      obtain ⟨attributes, grammar, nodup, fresh⟩ := ih noFault
        fun other member => resolve other (List.mem_cons_of_mem _ member)
      refine ⟨(item.key, value) :: attributes, .cons writes resolves grammar, ?_, ?_⟩
      · rw [List.map_cons, List.nodup_cons]
        refine ⟨fun member => ?_, nodup⟩
        rcases List.mem_map.mp member with ⟨pair, inRest, same⟩
        exact fresh item List.mem_cons_self pair inRest same.symm
      · intro earlier member pair inAll
        rcases List.mem_cons.mp inAll with rfl | inRest
        · exact unseen earlier member
        · exact fresh earlier (List.mem_cons_of_mem _ member) pair inRest

/-! ## The attributes of a tag -/

namespace Tag

/-- `tag.Holds attributes`: after its name, a tag has exactly these attributes, and no two of them
have one key. -/
def Holds (tag : Tag) (attributes : List (List Char × List Char)) : Prop :=
  Attributes (tag.content.dropWhile (!isBlank ·)) attributes ∧ (attributes.map Prod.fst).Nodup

theorem Holds.attributes_eq {tag : Tag} {attributes : List (List Char × List Char)}
    (holds : tag.Holds attributes) :
    ∃ items, tag.attributes = ⟨items, none⟩ ∧ List.Forall₂ Attribute.Means items attributes :=
  attributesFrom_of_attributes _ holds.1 true (by simp) fun _ => holds.2

theorem exists_holds {tag : Tag} (noFault : tag.attributes.fault = none)
    (resolve : ∀ item ∈ tag.attributes.items, ∃ value, Resolves item.value value) :
    ∃ attributes, tag.Holds attributes := by
  obtain ⟨attributes, grammar, nodup, _⟩ := attributes_of_attributesFrom noFault resolve
  exact ⟨attributes, grammar, nodup⟩

/-- The first attribute with a key, among written attributes and among their meanings. -/
theorem find?_of_means {items : List Attribute} {attributes : List (List Char × List Char)}
    (means : List.Forall₂ Attribute.Means items attributes) (key : List Char) :
    (items.find? (fun item => item.key == key) = none ∧ attributes.lookup key = none) ∨
      ∃ item value, items.find? (fun item => item.key == key) = some item ∧
        attributes.lookup key = some value ∧ Resolves item.value value := by
  induction means with
  | nil => exact .inl ⟨rfl, rfl⟩
  | @cons item pair items attributes first _ ih =>
      obtain ⟨other, value⟩ := pair
      obtain ⟨rfl, resolves⟩ := first
      by_cases same : item.key = key
      · exact .inr ⟨item, value, by simp [same], by simp [same], resolves⟩
      · have differs : (key == item.key) = false := by simpa using fun h => same h.symm
        simpa [List.lookup_cons, same, differs] using ih

/-- The keys of written attributes and of their meanings are the same. -/
theorem map_key_of_means {items : List Attribute} {attributes : List (List Char × List Char)}
    (means : List.Forall₂ Attribute.Means items attributes) :
    items.map Attribute.key = attributes.map Prod.fst := by
  induction means with
  | nil => rfl
  | cons first _ ih => rw [List.map_cons, List.map_cons, first.1, ih]

/-- The search for a key does not compare keys, and still finds what the checked reader finds. -/
theorem Holds.attribute?_eq {tag : Tag} {attributes : List (List Char × List Char)}
    (holds : tag.Holds attributes) (key : List Char) :
    (tag.attribute? key = .ok none ∧ attributes.lookup key = none) ∨
      ∃ item value, tag.attribute? key = .ok (some item) ∧ attributes.lookup key = some value ∧
        Resolves item.value value := by
  obtain ⟨items, found, means⟩ := attributesFrom_of_attributes (size tag.content) holds.1
    false (List.forall_mem_nil _) (by simp)
  unfold attribute?
  simp only [found]
  rcases find?_of_means means key with ⟨absent, missing⟩ | ⟨item, value, present, looked, resolves⟩
  · exact .inl ⟨by rw [absent], missing⟩
  · exact .inr ⟨item, value, by rw [present], looked, resolves⟩

end Tag
end LivingDoc.Xml
