import Mathlib.Data.List.Chain
import Mathlib.Data.List.Perm.Subperm
import Mathlib.Data.List.Sort
import Mathlib.Logic.Relation
import Mathlib.Order.Bounds.Basic
import WorkflowEngine.Foundations.Precedence

/-!
# Layered keys

A relation `needs key dep` arranged in levels: every key needs only keys of lower
levels, and some key of the level just below.  The level of a key is then the
length of a longest chain that ends at it.  The last section compares the places
of keys in lists without repetitions.
-/

namespace Precedence

universe u

variable {K : Type u} {needs : K → K → Prop}

/-- A list of given keys in which every key needs the one before it. -/
structure Chain (needs : K → K → Prop) (keys : K → Prop) (chain : List K) : Prop where
  linked : chain.IsChain fun dep key => needs key dep
  within : ∀ key ∈ chain, keys key

/-- A longest chain of given keys that ends at `key` has `depth` keys. -/
def Depth (needs : K → K → Prop) (keys : K → Prop) (key : K) (depth : Nat) : Prop :=
  IsGreatest {length | ∃ chain, Chain needs keys chain ∧ chain.getLast? = some key ∧
    chain.length = length} depth

/-- A key has one depth. -/
theorem Depth.unique {keys : K → Prop} {key : K} {depth depth' : Nat}
    (first : Depth needs keys key depth) (second : Depth needs keys key depth') :
    depth = depth' :=
  IsGreatest.unique first second

namespace Chain

variable {keys : K → Prop} {chain : List K} {key : K}

theorem nil : Chain needs keys [] where
  linked := .nil
  within := nofun

theorem single (isKey : keys key) : Chain needs keys [key] where
  linked := .singleton key
  within other membership := by rwa [List.mem_singleton.mp membership]

theorem init (linked : Chain needs keys (chain ++ [key])) : Chain needs keys chain where
  linked := (List.isChain_append.mp linked.linked).1
  within other membership := linked.within other (List.mem_append_left _ membership)

/-- The last key of a chain needs the one before it. -/
theorem needs_last {dep : K} (linked : Chain needs keys (chain ++ [key]))
    (last : chain.getLast? = some dep) : needs key dep :=
  (List.isChain_append.mp linked.linked).2.2 dep last key rfl

theorem snoc {dep : K} (linked : Chain needs keys chain) (last : chain.getLast? = some dep)
    (needed : needs key dep) (isKey : keys key) : Chain needs keys (chain ++ [key]) where
  linked := by
    apply List.isChain_append.mpr
    refine ⟨linked.linked, .singleton key, ?_⟩
    intro other isLast head isHead
    rw [last] at isLast
    cases Option.some.inj isLast
    cases Option.some.inj isHead
    exact needed
  within other membership := by
    rcases List.mem_append.mp membership with earlier | isLast
    · exact linked.within other earlier
    · rwa [List.mem_singleton.mp isLast]

end Chain

/-- Levels in which every key needs only keys of lower levels and, above the
lowest level, some key of the level just below. -/
structure Layered (needs : K → K → Prop) (levels : List (List K)) : Prop where
  nodup : levels.flatten.Nodup
  nonempty : ∀ level ∈ levels, level ≠ []
  below : ∀ (i : Nat) (level : List K), levels[i]? = some level → ∀ key ∈ level, ∀ dep,
    needs key dep → dep ∈ (levels.take i).flatten
  support : ∀ (i : Nat) (lower upper : List K), levels[i]? = some lower →
    levels[i + 1]? = some upper → ∀ key ∈ upper, ∃ dep ∈ lower, needs key dep

namespace Layered

variable {levels : List (List K)} {level : List K} {key : K} {i j : Nat}

theorem nil : Layered needs [] where
  nodup := .nil
  nonempty := nofun
  below := nofun
  support := nofun

/-- One more level on top. -/
theorem snoc (layered : Layered needs levels) (nonempty : level ≠ [])
    (nodup : (levels.flatten ++ level).Nodup)
    (below : ∀ key ∈ level, ∀ dep, needs key dep → dep ∈ levels.flatten)
    (support : ∀ lower, levels.getLast? = some lower → ∀ key ∈ level,
      ∃ dep ∈ lower, needs key dep) : Layered needs (levels ++ [level]) where
  nodup := by simpa using nodup
  nonempty other membership := by
    rcases List.mem_append.mp membership with earlier | isLast
    · exact layered.nonempty other earlier
    · rwa [List.mem_singleton.mp isLast]
  below i other found key membership dep needed := by
    rcases Nat.lt_trichotomy i levels.length with earlier | rfl | beyond
    · rw [List.getElem?_append_left earlier] at found
      rw [List.take_append_of_le_length (Nat.le_of_lt earlier)]
      exact layered.below i other found key membership dep needed
    · rw [List.getElem?_concat_length] at found
      cases Option.some.inj found
      rw [List.take_left]
      exact below key membership dep needed
    · rw [List.getElem?_eq_none (by rw [List.length_append, List.length_singleton]; omega)] at found
      cases found
  support i lower upper isLower isUpper key membership := by
    rcases Nat.lt_trichotomy (i + 1) levels.length with earlier | atTop | beyond
    · rw [List.getElem?_append_left (by omega)] at isLower
      rw [List.getElem?_append_left earlier] at isUpper
      exact layered.support i lower upper isLower isUpper key membership
    · rw [List.getElem?_append_left (by omega)] at isLower
      rw [atTop, List.getElem?_concat_length] at isUpper
      cases Option.some.inj isUpper
      refine support lower ?_ key membership
      rw [List.getLast?_eq_getElem?, ← atTop, Nat.add_sub_cancel]
      exact isLower
    · rw [List.getElem?_eq_none (by rw [List.length_append, List.length_singleton]; omega)]
        at isUpper
      cases isUpper

theorem mem_take {dep : K} : dep ∈ (levels.take i).flatten ↔
    ∃ (j : Nat) (lower : List K), j < i ∧ levels[j]? = some lower ∧ dep ∈ lower := by
  rw [List.mem_flatten]
  constructor
  · rintro ⟨lower, taken, membership⟩
    rcases List.mem_iff_getElem?.mp taken with ⟨j, found⟩
    rw [List.getElem?_take] at found
    split at found
    · next less => exact ⟨j, lower, less, found, membership⟩
    · cases found
  · rintro ⟨j, lower, less, found, membership⟩
    refine ⟨lower, List.mem_iff_getElem?.mpr ⟨j, ?_⟩, membership⟩
    rwa [List.getElem?_take_of_lt less]

theorem mem_flatten : key ∈ levels.flatten ↔
    ∃ (i : Nat) (level : List K), levels[i]? = some level ∧ key ∈ level := by
  rw [List.mem_flatten]
  constructor
  · rintro ⟨level, membership, isKey⟩
    rcases List.mem_iff_getElem?.mp membership with ⟨i, found⟩
    exact ⟨i, level, found, isKey⟩
  · rintro ⟨i, level, found, isKey⟩
    exact ⟨level, List.mem_of_getElem? found, isKey⟩

/-- A key is in one level only. -/
theorem level_unique {level' : List K} (layered : Layered needs levels)
    (first : levels[i]? = some level) (inFirst : key ∈ level)
    (second : levels[j]? = some level') (inSecond : key ∈ level') : i = j := by
  have apart := (List.nodup_flatten.mp layered.nodup).2
  rw [List.pairwise_iff_getElem] at apart
  rcases List.getElem?_eq_some_iff.mp first with ⟨firstBound, rfl⟩
  rcases List.getElem?_eq_some_iff.mp second with ⟨secondBound, rfl⟩
  rcases Nat.lt_trichotomy i j with less | same | more
  · exact (apart i j firstBound secondBound less inFirst inSecond).elim
  · exact same
  · exact (apart j i secondBound firstBound more inSecond inFirst).elim

/-- A needed key is in a lower level. -/
theorem needs_lower (layered : Layered needs levels) (found : levels[i]? = some level)
    (membership : key ∈ level) {dep : K} (needed : needs key dep) :
    ∃ (j : Nat) (lower : List K), j < i ∧ levels[j]? = some lower ∧ dep ∈ lower :=
  mem_take.mp (layered.below i level found key membership dep needed)

/-- So is a key that is needed through others. -/
theorem transGen_lower (layered : Layered needs levels) (found : levels[i]? = some level)
    (membership : key ∈ level) {dep : K} (needed : Relation.TransGen needs key dep) :
    ∃ (j : Nat) (lower : List K), j < i ∧ levels[j]? = some lower ∧ dep ∈ lower := by
  induction needed with
  | single direct => exact layered.needs_lower found membership direct
  | tail _ last ih =>
      rcases ih with ⟨j, lower, less, isLower, inLower⟩
      rcases layered.needs_lower isLower inLower last with ⟨k, lowest, lessAgain, rest⟩
      exact ⟨k, lowest, Nat.lt_trans lessAgain less, rest⟩

theorem not_needs_within (layered : Layered needs levels) (membership : level ∈ levels)
    {dep : K} (isKey : key ∈ level) (isDep : dep ∈ level) :
    ¬ Relation.TransGen needs key dep := by
  intro needed
  rcases List.mem_iff_getElem?.mp membership with ⟨i, found⟩
  rcases layered.transGen_lower found isKey needed with ⟨j, lower, less, isLower, inLower⟩
  exact absurd (layered.level_unique isLower inLower found isDep) (Nat.ne_of_lt less)

/-- The keys up to a level are those that need only keys below it. -/
theorem mem_take_succ (layered : Layered needs levels) (isKey : key ∈ levels.flatten) :
    key ∈ (levels.take (i + 1)).flatten ↔
      ∀ dep, needs key dep → dep ∈ (levels.take i).flatten := by
  constructor
  · intro early dep needed
    rcases mem_take.mp early with ⟨j, level, less, found, membership⟩
    rcases layered.needs_lower found membership needed with ⟨k, lower, below, isLower, inLower⟩
    exact mem_take.mpr ⟨k, lower, Nat.lt_of_lt_of_le below (Nat.le_of_lt_succ less), isLower,
      inLower⟩
  · intro early
    rcases mem_flatten.mp isKey with ⟨j, level, found, membership⟩
    refine mem_take.mpr ⟨j, level, ?_, found, membership⟩
    by_contra late
    rw [Nat.not_lt] at late
    -- the key needs a key of the level just below its own, which is not below level `i`
    rcases Nat.exists_eq_add_of_le late with ⟨above, rfl⟩
    have bound : i + above < levels.length := by
      have upper := (List.getElem?_eq_some_iff.mp found).1
      omega
    rw [Nat.add_right_comm] at found
    rcases layered.support (i + above) levels[i + above] level (List.getElem?_eq_getElem bound)
      found key membership with ⟨dep, isDep, needed⟩
    rcases mem_take.mp (early dep needed) with ⟨k, lower, less, isLower, inLower⟩
    have same := layered.level_unique isLower inLower (List.getElem?_eq_getElem bound) isDep
    omega

theorem take_succ_flatten : (levels.take (i + 1)).flatten =
    (levels.take i).flatten ++ levels.getD i [] := by
  rw [List.take_add_one, List.flatten_append, List.getD_eq_getElem?_getD]
  cases levels[i]? with
  | none => rfl
  | some level => simp

/-- The keys that a list of the levels below a level lacks of those up to it. -/
theorem perm_level (layered : Layered needs levels) {earlier new : List K}
    (nodup : (earlier ++ new).Nodup)
    (isEarlier : ∀ key, key ∈ earlier ↔ key ∈ (levels.take i).flatten)
    (isLater : ∀ key, key ∈ earlier ++ new ↔ key ∈ (levels.take (i + 1)).flatten) :
    new.Perm (levels.getD i []) := by
  have nodup_take : ∀ count, (levels.take count).flatten.Nodup :=
    fun count => layered.nodup.sublist (List.take_sublist count levels).flatten
  have low : earlier.Perm (levels.take i).flatten :=
    (List.perm_ext_iff_of_nodup (List.nodup_append.mp nodup).1 (nodup_take i)).mpr isEarlier
  have all : (earlier ++ new).Perm (levels.take (i + 1)).flatten :=
    (List.perm_ext_iff_of_nodup nodup (nodup_take (i + 1))).mpr isLater
  rw [take_succ_flatten] at all
  exact (List.perm_append_left_iff earlier).mp (all.trans (low.symm.append_right _))

variable {keys : K → Prop}

/-- A key of level `i` ends a chain of `i + 1` keys. -/
theorem exists_chain (layered : Layered needs levels)
    (isKeys : ∀ key ∈ levels.flatten, keys key) (found : levels[i]? = some level)
    (membership : key ∈ level) :
    ∃ chain, Chain needs keys chain ∧ chain.getLast? = some key ∧ chain.length = i + 1 := by
  induction i generalizing level key with
  | zero =>
      refine ⟨[key], .single (isKeys key ?_), rfl, rfl⟩
      exact mem_flatten.mpr ⟨0, level, found, membership⟩
  | succ i ih =>
      have bound : i < levels.length := by
        have upper := (List.getElem?_eq_some_iff.mp found).1
        omega
      rcases layered.support i levels[i] level (List.getElem?_eq_getElem bound) found key
        membership with ⟨dep, isDep, needed⟩
      rcases ih (List.getElem?_eq_getElem bound) isDep with ⟨chain, linked, last, length⟩
      refine ⟨chain ++ [key], linked.snoc last needed (isKeys key ?_), ?_, ?_⟩
      · exact mem_flatten.mpr ⟨i + 1, level, found, membership⟩
      · exact List.getLast?_concat
      · rw [List.length_append, length, List.length_singleton]

/-- A chain that ends in level `i` has at most `i + 1` keys. -/
theorem chain_length_le (layered : Layered needs levels) {chain : List K}
    (linked : Chain needs keys chain) (last : chain.getLast? = some key)
    (found : levels[i]? = some level) (membership : key ∈ level) : chain.length ≤ i + 1 := by
  induction chain using List.reverseRecOn generalizing i level key with
  | nil => cases last
  | append_singleton chain final ih =>
      rw [List.getLast?_concat] at last
      cases Option.some.inj last
      rw [List.length_append, List.length_singleton]
      apply Nat.succ_le_succ
      cases previous : chain.getLast? with
      | none =>
          rw [List.getLast?_eq_none_iff.mp previous]
          exact Nat.zero_le i
      | some dep =>
          rcases layered.needs_lower found membership (linked.needs_last previous) with
            ⟨j, lower, less, isLower, inLower⟩
          have shorter := ih linked.init previous isLower inLower
          omega

/-- The level of a key is the length of a longest chain that ends at it. -/
theorem mem_level_iff (layered : Layered needs levels)
    (isKeys : ∀ key, keys key ↔ key ∈ levels.flatten) (found : levels[i]? = some level) :
    key ∈ level ↔ Depth needs keys key (i + 1) := by
  have depth_of_mem : ∀ (j : Nat) (other : List K), levels[j]? = some other → key ∈ other →
      Depth needs keys key (j + 1) := by
    intro j other isOther membership
    refine ⟨layered.exists_chain (fun key => (isKeys key).mpr) isOther membership, ?_⟩
    rintro length ⟨chain, linked, last, rfl⟩
    exact layered.chain_length_le linked last isOther membership
  constructor
  · exact depth_of_mem i level found
  · intro depth
    rcases depth.1 with ⟨chain, linked, last, _⟩
    have isKey := linked.within key (List.mem_of_getLast? last)
    rcases mem_flatten.mp ((isKeys key).mp isKey) with ⟨j, other, isOther, membership⟩
    have same := depth.unique (depth_of_mem j other isOther membership)
    cases Nat.succ.inj same
    rw [found] at isOther
    cases Option.some.inj isOther
    exact membership

/-- There are as many levels as keys on a longest chain. -/
theorem length_isGreatest (layered : Layered needs levels)
    (isKeys : ∀ key, keys key ↔ key ∈ levels.flatten) :
    IsGreatest {length | ∃ chain, Chain needs keys chain ∧ chain.length = length}
      levels.length := by
  constructor
  · cases last : levels.getLast? with
    | none =>
        rw [List.getLast?_eq_none_iff.mp last]
        exact ⟨[], .nil, rfl⟩
    | some level =>
        have membership := List.mem_of_getLast? last
        rcases List.exists_mem_of_ne_nil level (layered.nonempty level membership) with
          ⟨key, isKey⟩
        have positive := List.length_pos_of_mem membership
        rw [List.getLast?_eq_getElem?] at last
        rcases layered.exists_chain (fun key => (isKeys key).mpr) last isKey with
          ⟨chain, linked, _, length⟩
        exact ⟨chain, linked, by omega⟩
  · rintro length ⟨chain, linked, rfl⟩
    cases last : chain.getLast? with
    | none =>
        rw [List.getLast?_eq_none_iff.mp last]
        exact Nat.zero_le _
    | some key =>
        have isKey := linked.within key (List.mem_of_getLast? last)
        rcases mem_flatten.mp ((isKeys key).mp isKey) with ⟨i, level, found, membership⟩
        have bound := (List.getElem?_eq_some_iff.mp found).1
        have short := layered.chain_length_le linked last found membership
        omega

end Layered

/-! ## Places in a list -/

/-- `first` comes before `second`. -/
def Before (list : List K) (first second : K) : Prop := [first, second].Sublist list

namespace Before

variable {list keys : List K} {first second : K}

theorem mono (sublist : list.Sublist keys) (before : Before list first second) :
    Before keys first second :=
  List.Sublist.trans before sublist

theorem mem_left (before : Before list first second) : first ∈ list :=
  before.subset List.mem_cons_self

theorem mem_right (before : Before list first second) : second ∈ list :=
  before.subset (List.mem_cons_of_mem _ List.mem_cons_self)

theorem cons_iff {head : K} : Before (head :: list) first second ↔
    first = head ∧ second ∈ list ∨ Before list first second := by
  unfold Before
  rw [List.sublist_cons_iff]
  constructor
  · rintro (later | ⟨rest, same, sublist⟩)
    · exact .inr later
    · rw [List.cons.injEq] at same
      rcases same with ⟨rfl, rfl⟩
      exact .inl ⟨rfl, List.singleton_sublist.mp sublist⟩
  · rintro (⟨rfl, membership⟩ | later)
    · exact .inr ⟨[second], rfl, List.singleton_sublist.mpr membership⟩
    · exact .inl later

theorem asymm (nodup : list.Nodup) (before : Before list first second) :
    ¬ Before list second first := by
  induction list with
  | nil => cases before
  | cons head rest ih =>
      rw [List.nodup_cons] at nodup
      intro back
      rcases cons_iff.mp before with ⟨rfl, membership⟩ | later
      · rcases cons_iff.mp back with ⟨rfl, _⟩ | back
        · exact nodup.1 membership
        · exact nodup.1 back.mem_right
      · rcases cons_iff.mp back with ⟨rfl, membership⟩ | back
        · exact nodup.1 later.mem_right
        · exact ih nodup.2 later back

theorem total (inFirst : first ∈ list) (inSecond : second ∈ list) (different : first ≠ second) :
    Before list first second ∨ Before list second first := by
  induction list with
  | nil => cases inFirst
  | cons head rest ih =>
      rw [cons_iff, cons_iff]
      rcases List.mem_cons.mp inFirst with rfl | firstRest
      · rcases List.mem_cons.mp inSecond with rfl | secondRest
        · exact absurd rfl different
        · exact .inl (.inl ⟨rfl, secondRest⟩)
      · rcases List.mem_cons.mp inSecond with rfl | secondRest
        · exact .inr (.inl ⟨rfl, firstRest⟩)
        · rcases ih firstRest secondRest with before | before
          · exact .inl (.inr before)
          · exact .inr (.inr before)

/-- Members of a list without repetitions keep the order of the list when every
two of them do. -/
theorem sublist_iff (nodup : keys.Nodup) (subset : list ⊆ keys) (distinct : list.Nodup) :
    list.Sublist keys ↔ ∀ first second, Before list first second → Before keys first second := by
  constructor
  · intro sublist first second before
    exact before.mono sublist
  · intro ordered
    have antisymm : Std.Antisymm (Before keys) := ⟨fun _ _ before back =>
      absurd back (before.asymm nodup)⟩
    have inList : list.Pairwise (Before keys) :=
      List.pairwise_iff_forall_sublist.mpr fun before => ordered _ _ before
    have inKeys : keys.Pairwise (Before keys) :=
      List.pairwise_iff_forall_sublist.mpr fun before => before
    exact List.sublist_of_subperm_of_pairwise (distinct.subperm subset) inList inKeys

end Before

end Precedence
