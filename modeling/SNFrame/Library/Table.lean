import Mathlib.Data.List.Nodup
import Mathlib.Logic.Function.Basic

/-! Lists whose items have a key, as tables of objects: lookup, update in place and removal. -/

namespace SNFrame.Library.Table

variable {Item Key Other : Type*} (key : Item → Key)

section Operations
variable [DecidableEq Key]

def lookup (place : Key) (items : List Item) : Option Item := items.find? (key · = place)

def update (place : Key) (f : Item → Item) (items : List Item) : List Item :=
  items.map fun item => if key item = place then f item else item

def remove (place : Key) (items : List Item) : List Item := items.filter (key · ≠ place)

end Operations

variable {key}

/-- The one place of an item in a list without repetitions. -/
theorem split_of_nodup {items : List Item} (distinct : items.Nodup) {item : Item}
    (member : item ∈ items) :
    ∃ first last, items = first ++ item :: last ∧ item ∉ first ∧ item ∉ last := by
  obtain ⟨first, last, rfl⟩ := List.append_of_mem member
  have once := (List.nodup_cons.mp (List.nodup_middle.mp distinct)).1
  rw [List.mem_append, not_or] at once
  exact ⟨first, last, rfl, once⟩

theorem eq_of_key {items : List Item} (distinct : (items.map key).Nodup) {first second : Item}
    (left : first ∈ items) (right : second ∈ items) (same : key first = key second) :
    first = second :=
  List.inj_on_of_nodup_map distinct left right same

variable [DecidableEq Key]

theorem mem_of_lookup {place : Key} {items : List Item} {item : Item}
    (found : lookup key place items = some item) : item ∈ items ∧ key item = place :=
  ⟨List.mem_of_find?_eq_some found, by simpa using List.find?_some found⟩

/-- A search for the value of a distinct field finds the item that has it. -/
theorem find?_of_mem {items : List Item} (distinct : (items.map key).Nodup) {item : Item}
    (inside : item ∈ items) : items.find? (key · = key item) = some item := by
  cases found : items.find? (key · = key item) with
  | none =>
    have absent := List.find?_eq_none.mp found item inside
    simp at absent
  | some other =>
    have same : key other = key item := by simpa using List.find?_some found
    rw [eq_of_key distinct (List.mem_of_find?_eq_some found) inside same]

theorem lookup_of_mem {items : List Item} (distinct : (items.map key).Nodup) {item : Item}
    (inside : item ∈ items) : lookup key (key item) items = some item :=
  find?_of_mem distinct inside

theorem mem_update {place : Key} {f : Item → Item} {items : List Item} {item : Item} :
    item ∈ update key place f items ↔
      ∃ old ∈ items, item = if key old = place then f old else old := by
  simp only [update, List.mem_map, eq_comm]

/-- A field that the update keeps has the same values in the same order. -/
theorem map_update {place : Key} {f : Item → Item} (field : Item → Other)
    (keeps : ∀ item, field (f item) = field item) (items : List Item) :
    (update key place f items).map field = items.map field := by
  simp only [update, List.map_map]
  apply List.map_congr_left
  intro item _
  simp only [Function.comp_apply]
  split
  · exact keeps item
  · rfl

theorem update_of_absent {place : Key} {f : Item → Item} {items : List Item}
    (absent : ∀ item ∈ items, key item ≠ place) : update key place f items = items := by
  apply (List.map_congr_left ?_).trans (List.map_id _)
  intro item inside
  rw [if_neg (absent item inside), id]

/-- The update of an item with distinct keys around it. -/
theorem update_split {before after : List Item} {item : Item} {f : Item → Item}
    (distinct : ((before ++ item :: after).map key).Nodup) :
    update key (key item) f (before ++ item :: after) = before ++ f item :: after := by
  rw [List.map_append, List.map_cons, List.nodup_middle, List.nodup_cons, List.mem_append] at distinct
  have others : ∀ other ∈ before ++ after, key other ≠ key item := by
    intro other inside same
    rw [← List.mem_append, ← List.map_append, ← same] at distinct
    exact distinct.1 (List.mem_map_of_mem inside)
  have left := update_of_absent (f := f) fun other inside =>
    others other (List.mem_append_left _ inside)
  have right := update_of_absent (f := f) fun other inside =>
    others other (List.mem_append_right _ inside)
  rw [update] at left right
  rw [update, List.map_append, List.map_cons, left, right, if_pos rfl]

theorem mem_remove {place : Key} {items : List Item} {item : Item} :
    item ∈ remove key place items ↔ item ∈ items ∧ key item ≠ place := by
  simp [remove]

/-- What a search finds stands before every other match. -/
theorem mem_before_of_find? {items before after : List Item} {matched : Item → Bool}
    {item other : Item} (found : items.find? matched = some item)
    (split : items = before ++ other :: after) (hit : matched other = true)
    (apart : other ≠ item) : item ∈ before := by
  rw [split, List.find?_append] at found
  cases first : before.find? matched with
  | none =>
    rw [first, Option.none_or, List.find?_cons_of_pos hit] at found
    exact absurd (Option.some.inj found) apart
  | some earlier =>
    rw [first, Option.some_or] at found
    cases found
    exact List.mem_of_find?_eq_some first

/-- What a search finds it still finds when another item is removed. -/
theorem find?_remove {place : Key} {items : List Item} {matched : Item → Bool} {item : Item}
    (found : items.find? matched = some item) (stays : key item ≠ place) :
    (remove key place items).find? matched = some item := by
  obtain ⟨hit, before, after, rfl, differ⟩ := List.find?_eq_some_iff_append.mp found
  apply List.find?_eq_some_iff_append.mpr
  refine ⟨hit, remove key place before, remove key place after, ?_, ?_⟩
  · simp [remove, stays]
  · intro other inside
    exact differ other (mem_remove.mp inside).1

theorem map_remove_sublist (place : Key) (field : Item → Other) (items : List Item) :
    ((remove key place items).map field).Sublist (items.map field) :=
  List.filter_sublist.map field

/-! ### Lookups after an operation -/

theorem lookup_update {place other : Key} {f : Item → Item} {items : List Item}
    (keeps : ∀ item, key (f item) = key item) :
    lookup key other (update key place f items) =
      if other = place then (lookup key place items).map f else lookup key other items := by
  have sameKey : (fun item => decide (key item = other)) ∘
      (fun item => if key item = place then f item else item) =
      fun item => decide (key item = other) := by
    funext item
    simp only [Function.comp_apply, apply_ite key, keeps, ite_self]
  simp only [lookup, update, List.find?_map, sameKey]
  by_cases same : other = place
  · rw [if_pos same, same]
    cases found : items.find? fun item => decide (key item = place) with
    | none => rfl
    | some item =>
      have here : key item = place := by simpa using List.find?_some found
      simp only [Option.map_some, if_pos here]
  · rw [if_neg same]
    cases found : items.find? fun item => decide (key item = other) with
    | none => rfl
    | some item =>
      have here : key item = other := by simpa using List.find?_some found
      simp only [Option.map_some, here, if_neg same]

theorem lookup_remove {place other : Key} {items : List Item} :
    lookup key other (remove key place items) =
      if other = place then none else lookup key other items := by
  simp only [lookup, remove, List.find?_filter]
  split
  · next same =>
    rw [List.find?_eq_none]
    intro item _
    simp [same]
  · next differs =>
    congr 1
    funext item
    by_cases here : key item = other
    · simp [here, differs]
    · simp [here]

theorem lookup_append {other : Key} {items : List Item} {item : Item}
    (absent : ∀ old ∈ items, key old ≠ key item) :
    lookup key other (items ++ [item]) =
      if other = key item then some item else lookup key other items := by
  simp only [lookup, List.find?_append]
  split
  · next same =>
    have missing : items.find? (key · = other) = none := by
      rw [List.find?_eq_none]
      intro old inside
      simpa [same] using absent old inside
    rw [missing, Option.none_or, same]
    simp
  · next differs =>
    have other_ne : ¬ key item = other := fun same => differs same.symm
    simp [other_ne]

theorem lookup_eq_some {place : Key} {items : List Item} (distinct : (items.map key).Nodup)
    {item : Item} : lookup key place items = some item ↔ item ∈ items ∧ key item = place := by
  constructor
  · exact mem_of_lookup
  · rintro ⟨inside, rfl⟩
    exact lookup_of_mem distinct inside

/-- The order of a table does not matter. -/
theorem lookup_perm {place : Key} {left right : List Item} (same : left.Perm right)
    (distinct : (left.map key).Nodup) : lookup key place left = lookup key place right := by
  apply Option.ext
  intro item
  rw [lookup_eq_some distinct, lookup_eq_some ((same.map key).nodup_iff.mp distinct),
    same.mem_iff]

theorem remove_update {place other : Key} {f : Item → Item} {items : List Item}
    (keeps : ∀ item, key (f item) = key item) :
    remove key place (update key other f items) = update key other f (remove key place items) := by
  simp only [remove, update, List.filter_map]
  congr 2
  funext item
  simp only [Function.comp_apply, apply_ite key, keeps, ite_self]

theorem update_remove_self {place : Key} {f : Item → Item} {items : List Item} :
    update key place f (remove key place items) = remove key place items :=
  update_of_absent fun _ inside => (mem_remove.mp inside).2

/-! ### Laws for all values of a partial map -/

section PartialMap
variable {Place Value : Type*}

def Everywhere (law : Value → Prop) (table : Place → Option Value) : Prop :=
  ∀ place value, table place = some value → law value

variable [DecidableEq Place] {law : Value → Prop} {table : Place → Option Value}

/-- A value after an update is the new one, or was there before in another place. -/
theorem update_eq_some {place other : Place} {slot : Option Value} {value : Value} :
    Function.update table place slot other = some value ↔
      other = place ∧ slot = some value ∨ other ≠ place ∧ table other = some value := by
  by_cases same : other = place
  · subst same
    simp
  · simp [same]

theorem everywhere_update {place : Place} {value : Value} (holds : Everywhere law table)
    (here : law value) : Everywhere law (Function.update table place (some value)) := by
  intro other found lookup
  rcases update_eq_some.mp lookup with ⟨-, same⟩ | ⟨-, was⟩
  · cases same
    exact here
  · exact holds other found was

theorem everywhere_update_iff {place : Place} {value : Value} (holds : Everywhere law table) :
    Everywhere law (Function.update table place (some value)) ↔ law value :=
  ⟨fun all => all place value (Function.update_self ..), everywhere_update holds⟩

theorem everywhere_erase {place : Place} (holds : Everywhere law table) :
    Everywhere law (Function.update table place none) := by
  intro other found lookup
  rcases update_eq_some.mp lookup with ⟨-, none⟩ | ⟨-, was⟩
  · cases none
  · exact holds other found was

end PartialMap

end SNFrame.Library.Table
