import Mathlib.Data.List.Basic

/-!
# Objects with a prototype

A property that an object does not have itself is looked up in its prototype.
-/

namespace Objects

variable {Key Value : Type} [DecidableEq Key]

/-- What a lookup finds. -/
inductive Found (Key Value : Type) where
  | own (value : Value)
  /-- a property of the prototype -/
  | inherited (name : Key)
  | missing
  deriving DecidableEq, Repr

/-- The own properties, in their order. -/
abbrev Entries (Key Value : Type) := List (Key × Value)

omit [DecidableEq Key] in
/-- `Object.keys` -/
def Entries.keys (object : Entries Key Value) : List Key := object.map Prod.fst

/-- The value of an own property. -/
def Entries.get (object : Entries Key Value) (name : Key) : Option Value := object.lookup name

/-- `object[name]`, for a prototype with these properties. -/
def find (inherited : List Key) (object : Entries Key Value) (name : Key) : Found Key Value :=
  match object.get name with
  | some value => .own value
  | none => if name ∈ inherited then .inherited name else .missing

/-- `object[name] = value` -/
def assign (object : Entries Key Value) (name : Key) (value : Value) : Entries Key Value :=
  if name ∈ object.keys then
    object.map fun entry => if entry.1 = name then (name, value) else entry
  else object ++ [(name, value)]

variable {inherited : List Key} {object : Entries Key Value} {name other : Key}
  {value value' : Value}

theorem get_eq_none_iff : object.get name = none ↔ name ∉ object.keys := by
  induction object with
  | nil => simp [Entries.keys, Entries.get]
  | cons entry object ih =>
      rw [Entries.keys, List.map_cons, List.mem_cons, not_or, Entries.get, List.lookup_cons]
      by_cases same : name = entry.1
      · simp [same]
      · rw [beq_false_of_ne same]
        exact ih.trans (and_iff_right same).symm

theorem mem_keys_iff : name ∈ object.keys ↔ ∃ value, object.get name = some value := by
  rw [← not_not (a := name ∈ object.keys), ← get_eq_none_iff, ← ne_eq,
    Option.ne_none_iff_exists']

theorem find_eq_own_iff : find inherited object name = .own value ↔
    object.get name = some value := by
  rw [find]
  split
  · next found =>
      rw [found, Found.own.injEq, Option.some.injEq]
  · next absent =>
      rw [absent]
      split
      · exact ⟨nofun, nofun⟩
      · exact ⟨nofun, nofun⟩

theorem find_eq_inherited_iff : find inherited object name = .inherited other ↔
    name ∉ object.keys ∧ name ∈ inherited ∧ name = other := by
  rw [← get_eq_none_iff, find]
  split
  · next found =>
      rw [found]
      exact ⟨nofun, nofun⟩
  · next absent =>
      rw [absent]
      split
      · next isInherited =>
          rw [Found.inherited.injEq]
          exact ⟨fun same => ⟨rfl, isInherited, same⟩, fun same => same.2.2⟩
      · next isMissing => exact ⟨nofun, fun same => absurd same.2.1 isMissing⟩

theorem find_eq_missing_iff : find inherited object name = .missing ↔
    name ∉ object.keys ∧ name ∉ inherited := by
  rw [← get_eq_none_iff, find]
  split
  · next found =>
      rw [found]
      exact ⟨nofun, nofun⟩
  · next absent =>
      rw [absent]
      split
      · next isInherited => exact ⟨nofun, fun same => absurd isInherited same.2⟩
      · next isMissing => exact ⟨fun _ => ⟨rfl, isMissing⟩, fun _ => rfl⟩

/-- An assignment replaces the value of its name only. -/
theorem mem_assign : (other, value') ∈ assign object name value ↔
    (other = name ∧ value' = value) ∨ (other ≠ name ∧ (other, value') ∈ object) := by
  rw [assign]
  split
  · next exists_ =>
      rw [List.mem_map]
      constructor
      · rintro ⟨entry, membership, isEntry⟩
        split at isEntry
        · cases isEntry
          exact .inl ⟨rfl, rfl⟩
        · next differs =>
            cases isEntry
            exact .inr ⟨differs, membership⟩
      · rintro (⟨rfl, rfl⟩ | ⟨differs, membership⟩)
        · rcases List.mem_map.mp exists_ with ⟨entry, membership, isName⟩
          exact ⟨entry, membership, if_pos isName⟩
        · exact ⟨_, membership, if_neg differs⟩
  · next absent =>
      rw [List.mem_append, List.mem_singleton, Prod.mk.injEq]
      constructor
      · rintro (membership | same)
        · refine .inr ⟨?_, membership⟩
          rintro rfl
          exact absent (List.mem_map_of_mem membership)
        · exact .inl same
      · rintro (same | ⟨_, membership⟩)
        · exact .inr same
        · exact .inl membership

/-- The properties of `Object.prototype`. -/
def objectPrototype : List String :=
  ["constructor", "__defineGetter__", "__defineSetter__", "hasOwnProperty", "__lookupGetter__",
    "__lookupSetter__", "isPrototypeOf", "propertyIsEnumerable", "toString", "valueOf",
    "__proto__", "toLocaleString"]

end Objects
