import WorkflowEngine.Foundations.JsonOrder

/-!
# Reading printed JSON

`JSON.parse` gives back what `JSON.stringify` has printed, with the keys in the order of
JavaScript and up to the numbers that have no text of their own: an infinite number is
printed as null, and -0 as 0.
-/

open Text Numerals

namespace Json

mutual

/-- Objects have distinct keys, at every depth. -/
def Distinct : Json → Prop
  | .array items => DistinctItems items
  | .object entries => (entries.map Prod.fst).Nodup ∧ DistinctEntries entries
  | _ => True

def DistinctItems : List Json → Prop
  | [] => True
  | item :: rest => Distinct item ∧ DistinctItems rest

def DistinctEntries : List (Text × Json) → Prop
  | [] => True
  | (_, value) :: rest => Distinct value ∧ DistinctEntries rest

end

mutual

/-- What of a value `JSON.stringify` prints. -/
def kept : Json → Json
  | .number value => if value.isFinite then .number value.plain else .null
  | .array items => .array (keptItems items)
  | .object entries => .object (keptEntries entries)
  | value => value

def keptItems : List Json → List Json
  | [] => []
  | item :: rest => kept item :: keptItems rest

def keptEntries : List (Text × Json) → List (Text × Json)
  | [] => []
  | (key, value) :: rest => (key, kept value) :: keptEntries rest

end

theorem keptEntries_keys (entries : List (Text × Json)) :
    (keptEntries entries).map Prod.fst = entries.map Prod.fst := by
  induction entries with
  | nil => rfl
  | cons entry rest ih =>
      rcases entry with ⟨key, value⟩
      rw [keptEntries, List.map_cons, List.map_cons, ih]

/-! ## Strings -/

theorem hexValue_hexDigit {digit : ℕ} (small : digit < 16) :
    hexValue (hexDigit digit) = some digit := by
  interval_cases digit <;> decide

theorem readString_plain {first : CodeUnit} (tail : Text) (notQuote : first ≠ unit '"')
    (notEscape : first ≠ unit '\\') (printable : ¬ first < 32) :
    readString (first :: tail) =
      (readString tail).map fun read => (first :: read.1, read.2) := by
  rw [readString.eq_def]
  dsimp only
  rw [if_neg notQuote, if_neg notEscape, if_neg printable]

theorem readString_short {escape value : CodeUnit} (tail : Text)
    (isShort : shortEscape escape = some value) (notUnicode : escape ≠ unit 'u') :
    readString (unit '\\' :: escape :: tail) =
      (readString tail).map fun read => (value :: read.1, read.2) := by
  have notQuote : ¬ unit '\\' = unit '"' := by decide
  rw [readString.eq_def]
  dsimp only
  rw [if_neg notQuote, if_pos rfl, if_neg notUnicode, isShort]

theorem readString_hex {a b c d value : CodeUnit} (tail : Text)
    (isHex : hexUnit a b c d = some value) :
    readString (unit '\\' :: unit 'u' :: a :: b :: c :: d :: tail) =
      (readString tail).map fun read => (value :: read.1, read.2) := by
  have notQuote : ¬ unit '\\' = unit '"' := by decide
  rw [readString.eq_def]
  dsimp only
  rw [if_neg notQuote, if_pos rfl, if_pos rfl, isHex]

theorem readString_unicode (first : CodeUnit) (tail : Text) :
    readString (unicodeEscape first ++ tail) =
      (readString tail).map fun read => (first :: read.1, read.2) := by
  have bound : first.toNat < 65536 := first.toNat_lt
  have value : hexUnit (hexDigit (first.toNat / 4096)) (hexDigit (first.toNat / 256 % 16))
      (hexDigit (first.toNat / 16 % 16)) (hexDigit (first.toNat % 16)) = some first := by
    have sum : first.toNat / 4096 * 4096 + first.toNat / 256 % 16 * 256 +
        first.toNat / 16 % 16 * 16 + first.toNat % 16 = first.toNat := by omega
    rw [hexUnit, hexValue_hexDigit (by omega), hexValue_hexDigit (by omega),
      hexValue_hexDigit (by omega), hexValue_hexDigit (by omega)]
    dsimp only
    rw [sum]
    exact congrArg some (UInt16.ofNat_toNat)
  exact readString_hex tail value

/-- How a code unit is printed inside quotation marks. -/
inductive Quoted (first : CodeUnit) : Text → Prop where
  | short {escape : CodeUnit} (isEscape : escape ∈ ofString "\"\\btnfr")
      (isShort : shortEscape escape = some first) : Quoted first [unit '\\', escape]
  | unicode : Quoted first (unicodeEscape first)
  | plain (notQuote : first ≠ unit '"') (notEscape : first ≠ unit '\\')
      (printable : ¬ first < 32) (notHigh : isHigh first = false) (notLow : isLow first = false) :
      Quoted first [first]

theorem quoted_quoteUnit (first : CodeUnit) : Quoted first (quoteUnit first) := by
  have short : ∀ escape value : CodeUnit, escape ∈ ofString "\"\\btnfr" →
      shortEscape escape = some value → first = value → Quoted first [unit '\\', escape] := by
    rintro escape value isEscape isShort rfl
    exact .short isEscape isShort
  unfold quoteUnit
  split
  · next same => exact short _ _ (by decide) (by decide) same
  · next notQuote =>
      split
      · next same => exact short _ _ (by decide) (by decide) same
      · next notEscape =>
          split
          · next same => exact short _ _ (by decide) (by decide) same
          split
          · next same => exact short _ _ (by decide) (by decide) same
          split
          · next same => exact short _ _ (by decide) (by decide) same
          split
          · next same => exact short _ _ (by decide) (by decide) same
          split
          · next same => exact short _ _ (by decide) (by decide) same
          split
          · exact .unicode
          · next plain =>
              rw [not_or, not_or, Bool.not_eq_true, Bool.not_eq_true] at plain
              exact .plain notQuote notEscape plain.1 plain.2.1 plain.2.2

/-- A quoted code unit is read as one. -/
theorem readString_quoteUnit (first : CodeUnit) (tail : Text) :
    readString (quoteUnit first ++ tail) =
      (readString tail).map fun read => (first :: read.1, read.2) := by
  have quoted := quoted_quoteUnit first
  generalize quoteUnit first = printed at quoted ⊢
  cases quoted with
  | short isEscape isShort =>
      have notUnicode : ∀ escape ∈ ofString "\"\\btnfr", escape ≠ unit 'u' :=
        Text.forall_mem_of_all (by decide)
      exact readString_short tail isShort (notUnicode _ isEscape)
  | unicode => exact readString_unicode first tail
  | plain notQuote notEscape printable => exact readString_plain tail notQuote notEscape printable

theorem readString_surrogate {first : CodeUnit} (tail : Text)
    (surrogate : isHigh first = true ∨ isLow first = true) :
    readString (first :: tail) =
      (readString tail).map fun read => (first :: read.1, read.2) := by
  have large : ¬ first < 0xD800 := by
    rcases surrogate with high | low
    · simp only [isHigh, Bool.and_eq_true, decide_eq_true_eq] at high
      exact UInt16.not_lt.mpr high.1
    · simp only [isLow, Bool.and_eq_true, decide_eq_true_eq] at low
      exact UInt16.not_lt.mpr (UInt16.le_trans (by decide) low.1)
  apply readString_plain
  · rintro rfl
    exact large (by decide)
  · rintro rfl
    exact large (by decide)
  · intro control
    exact large (UInt16.lt_trans control (by decide))

theorem readString_quoteUnits (text rest : Text) :
    readString (quoteUnits text ++ unit '"' :: rest) = some (text, rest) := by
  induction text using quoteUnits.induct with
  | case1 => rw [quoteUnits, List.nil_append, readString.eq_def]; exact if_pos rfl
  | case2 first =>
      rw [quoteUnits, readString_quoteUnit, readString.eq_def]
      dsimp only
      rw [if_pos rfl]
      rfl
  | case3 first second others pair ih =>
      rw [quoteUnits, if_pos pair]
      rw [Bool.and_eq_true] at pair
      rw [List.cons_append, List.cons_append, readString_surrogate _ (.inl pair.1),
        readString_surrogate _ (.inr pair.2), ih]
      rfl
  | case4 first second others pair ih =>
      rw [quoteUnits, if_neg pair, List.append_assoc, readString_quoteUnit, ih]
      rfl

/-! ## Values -/

theorem skipSpace_cons {first : CodeUnit} (rest : Text) (notSpace : isSpace first = false) :
    skipSpace (first :: rest) = first :: rest := by
  rw [skipSpace, List.dropWhile_cons_of_neg (by simp [notSpace])]

/-- What stands after a value inside an array or an object. -/
theorem endsNumber_cons {first : CodeUnit} (rest : Text) (notDigit : isDigit first = false)
    (notPoint : first ≠ unit '.') (notLower : first ≠ unit 'e') (notUpper : first ≠ unit 'E') :
    EndsNumber (first :: rest) := by
  intro head isHead
  cases Option.some.inj isHead
  exact ⟨notDigit, notPoint, notLower, notUpper⟩

/-- A printed number begins with a digit or a sign. -/
theorem numberText_head {number : Number} (finite : number.isFinite = true) :
    ∃ first others, numberText number = first :: others ∧
      (isDigit first = true ∨ first = unit '-') := by
  cases number with
  | infinite negative => cases finite
  | negativeZero => exact ⟨unit '0', [], rfl, .inl (by decide)⟩
  | finite number =>
      rw [numberText]
      split
      · next positive =>
          rcases positiveText_head number positive with ⟨first, others, text, isFirst⟩
          exact ⟨first, others, text, .inl isFirst⟩
      · split
        · exact ⟨unit '-', _, rfl, .inr rfl⟩
        · exact ⟨unit '0', [], rfl, .inl (by decide)⟩

theorem readValue_number {number : Number} (finite : number.isFinite = true) (fuel : ℕ)
    {rest : Text} (ends : EndsNumber rest) :
    readValue (fuel + 1) (numberText number ++ rest) = some (.number number.plain, rest) := by
  have read := readNumber_numberText finite ends
  rcases numberText_head finite with ⟨first, others, text, head⟩
  have other : ∀ char : CodeUnit, isDigit char = false → char ≠ unit '-' → first ≠ char := by
    rintro char notDigit notMinus rfl
    rcases head with isDigit | isMinus
    · rw [isDigit] at notDigit
      cases notDigit
    · exact notMinus isMinus
  have notSpace : isSpace first = false := by
    simp [isSpace, other (unit ' ') (by decide) (by decide),
      other (unit '\t') (by decide) (by decide), other (unit '\n') (by decide) (by decide),
      other (unit '\r') (by decide) (by decide)]
  rw [text, List.cons_append] at read ⊢
  rw [readValue, skipSpace_cons _ notSpace]
  dsimp only
  rw [if_neg (other _ (by decide) (by decide)), if_neg (other _ (by decide) (by decide)),
    if_neg (other _ (by decide) (by decide)), if_neg (other _ (by decide) (by decide)),
    if_neg (other _ (by decide) (by decide)), if_neg (other _ (by decide) (by decide)), read]
  rfl

theorem readString_quote (text rest : Text) :
    quote text ++ rest = unit '"' :: (quoteUnits text ++ unit '"' :: rest) := by
  rw [quote, List.cons_append, List.cons_append, List.append_assoc, List.singleton_append]

theorem readKey_quote (key rest : Text) :
    readKey (quote key ++ unit ':' :: rest) = some (key, rest) := by
  rw [readString_quote, readKey, if_pos rfl, readString_quoteUnits]
  dsimp only
  rw [skipSpace_cons _ (by decide)]
  exact if_pos rfl

/-- A printed value begins with neither space nor the end of an array or object. -/
theorem stringify_head (value : Json) :
    ∃ first others, stringify value = first :: others ∧ isSpace first = false ∧
      first ≠ unit ']' := by
  cases value with
  | null => exact ⟨_, _, rfl, by decide, by decide⟩
  | bool value =>
      cases value with
      | true => exact ⟨_, _, rfl, by decide, by decide⟩
      | false => exact ⟨_, _, rfl, by decide, by decide⟩
  | number number =>
      by_cases finite : number.isFinite = true
      · rcases numberText_head finite with ⟨first, others, text, head⟩
        refine ⟨first, others, by rw [stringify, if_pos finite, text], ?_⟩
        have other : ∀ char : CodeUnit, isDigit char = false → char ≠ unit '-' → first ≠ char := by
          rintro char notDigit notMinus rfl
          rcases head with isDigit | isMinus
          · rw [isDigit] at notDigit
            cases notDigit
          · exact notMinus isMinus
        refine ⟨?_, other _ (by decide) (by decide)⟩
        simp [isSpace, other (unit ' ') (by decide) (by decide),
          other (unit '\t') (by decide) (by decide), other (unit '\n') (by decide) (by decide),
          other (unit '\r') (by decide) (by decide)]
      · rw [stringify, if_neg finite]
        exact ⟨_, _, rfl, by decide, by decide⟩
  | string text => exact ⟨_, _, rfl, by decide, by decide⟩
  | array items => exact ⟨_, _, rfl, by decide, by decide⟩
  | object entries => exact ⟨_, _, rfl, by decide, by decide⟩

theorem commaSeparated_cons (text : Text) {texts : List Text} (more : texts ≠ []) :
    commaSeparated (text :: texts) = text ++ unit ',' :: commaSeparated texts := by
  cases texts with
  | nil => exact absurd rfl more
  | cons second rest => rfl

theorem stringifyItems_ne_nil {items : List Json} (nonempty : items ≠ []) :
    stringifyItems items ≠ [] := by
  cases items with
  | nil => exact absurd rfl nonempty
  | cons item rest => exact List.cons_ne_nil _ _

theorem stringifyEntries_ne_nil {entries : List (Text × Json)} (nonempty : entries ≠ []) :
    stringifyEntries entries ≠ [] := by
  cases entries with
  | nil => exact absurd rfl nonempty
  | cons entry rest => exact List.cons_ne_nil _ _

mutual

/-- A printed value is read up to its end. -/
theorem readValue_stringify (value : Json) (fuel : ℕ)
    (enough : (stringify value).length ≤ fuel) (rest : Text) (ends : EndsNumber rest) :
    readValue fuel (stringify value ++ rest) = some (reorder (kept value), rest) := by
  cases fuel with
  | zero =>
      rcases stringify_head value with ⟨first, others, text, _⟩
      rw [text, List.length_cons] at enough
      omega
  | succ fuel =>
      cases value with
      | null => rfl
      | bool value =>
          cases value with
          | true => rfl
          | false => rfl
      | number number =>
          by_cases finite : number.isFinite = true
          · rw [stringify, if_pos finite, kept, if_pos finite]
            exact readValue_number finite fuel ends
          · rw [stringify, if_neg finite, kept, if_neg finite]
            rfl
      | string text =>
          rw [stringify, readString_quote, readValue, skipSpace_cons _ (by decide)]
          dsimp only
          rw [if_neg (by decide), if_neg (by decide), if_pos rfl, readString_quoteUnits]
          rfl
      | array items =>
          rw [stringify, List.cons_append, List.cons_append, List.append_assoc,
            List.singleton_append, readValue,
            skipSpace_cons _ (by decide)]
          dsimp only
          rw [if_neg (by decide), if_pos rfl]
          cases items with
          | nil => rfl
          | cons item others =>
              have read := readItems_stringify item others fuel (by
                rw [stringify, List.length_append, List.length_cons, List.length_singleton]
                  at enough
                omega) rest
              rcases stringify_head item with ⟨first, tail, text, notSpace, notEnd⟩
              have head : ∃ tail', commaSeparated (stringifyItems (item :: others)) ++
                  unit ']' :: rest = first :: tail' := by
                cases others with
                | nil => exact ⟨tail ++ unit ']' :: rest, by simp [stringifyItems, commaSeparated, text]⟩
                | cons second more =>
                    rw [stringifyItems, commaSeparated_cons _ (stringifyItems_ne_nil
                      (List.cons_ne_nil second more)), text]
                    exact ⟨_, rfl⟩
              rcases head with ⟨tail', head⟩
              rw [head] at read ⊢
              rw [skipSpace_cons _ notSpace]
              dsimp only
              rw [if_neg notEnd, read]
              rfl
      | object entries =>
          rw [stringify, List.cons_append, List.cons_append, List.append_assoc,
            List.singleton_append, readValue,
            skipSpace_cons _ (by decide)]
          dsimp only
          rw [if_pos rfl]
          cases entries with
          | nil => rfl
          | cons entry others =>
              rcases entry with ⟨key, value⟩
              have read := readEntries_stringify key value others fuel (by
                rw [stringify, List.length_append, List.length_cons, List.length_singleton]
                  at enough
                omega) rest
              have head : ∃ tail, commaSeparated (stringifyEntries ((key, value) :: others)) ++
                  unit '}' :: rest = unit '"' :: tail := by
                cases others with
                | nil => exact ⟨_, rfl⟩
                | cons second more =>
                    rw [stringifyEntries, commaSeparated_cons _ (stringifyEntries_ne_nil
                      (List.cons_ne_nil second more))]
                    exact ⟨_, rfl⟩
              rcases head with ⟨tail, head⟩
              rw [head] at read ⊢
              rw [skipSpace_cons _ (by decide)]
              dsimp only
              rw [if_neg (by decide), read]
              rfl
termination_by fuel

theorem readItems_stringify (item : Json) (others : List Json) (fuel : ℕ)
    (enough : (commaSeparated (stringifyItems (item :: others))).length + 1 ≤ fuel)
    (rest : Text) :
    readItems fuel (commaSeparated (stringifyItems (item :: others)) ++ unit ']' :: rest) =
      some (reorderItems (keptItems (item :: others)), rest) := by
  cases fuel with
  | zero => omega
  | succ fuel =>
      cases others with
      | nil =>
          have read := readValue_stringify item fuel (by
            simpa [stringifyItems, commaSeparated] using enough) (unit ']' :: rest)
            (endsNumber_cons rest (by decide) (by decide) (by decide) (by decide))
          rw [stringifyItems, stringifyItems, commaSeparated, readItems, read]
          dsimp only
          rw [skipSpace_cons _ (by decide)]
          dsimp only
          rw [if_neg (by decide), if_pos rfl]
          rfl
      | cons second more =>
          rw [stringifyItems, commaSeparated_cons _ (stringifyItems_ne_nil
            (List.cons_ne_nil second more))] at enough ⊢
          rw [List.length_append, List.length_cons] at enough
          have read := readValue_stringify item fuel (by omega)
            (unit ',' :: (commaSeparated (stringifyItems (second :: more)) ++ unit ']' :: rest))
            (endsNumber_cons _ (by decide) (by decide) (by decide) (by decide))
          have later := readItems_stringify second more fuel (by omega) rest
          rw [List.append_assoc, List.cons_append, readItems, read]
          dsimp only
          rw [skipSpace_cons _ (by decide)]
          dsimp only
          rw [if_pos rfl, later]
          rfl
termination_by fuel

theorem readEntries_stringify (key : Text) (value : Json) (others : List (Text × Json))
    (fuel : ℕ)
    (enough : (commaSeparated (stringifyEntries ((key, value) :: others))).length + 1 ≤ fuel)
    (rest : Text) :
    readEntries fuel
        (commaSeparated (stringifyEntries ((key, value) :: others)) ++ unit '}' :: rest) =
      some (reorderEntries (keptEntries ((key, value) :: others)), rest) := by
  cases fuel with
  | zero => omega
  | succ fuel =>
      have atKey : ∀ tail, skipSpace (quote key ++ tail) = quote key ++ tail := by
        intro tail
        rw [readString_quote, skipSpace_cons _ (by decide)]
      cases others with
      | nil =>
          have read := readValue_stringify value fuel (by
            have length := enough
            simp only [stringifyEntries, commaSeparated, List.length_append, List.length_cons]
              at length
            omega) (unit '}' :: rest)
            (endsNumber_cons rest (by decide) (by decide) (by decide) (by decide))
          rw [stringifyEntries, stringifyEntries, commaSeparated, List.append_assoc,
            List.cons_append, readEntries, atKey, readKey_quote]
          dsimp only
          rw [read]
          dsimp only
          rw [skipSpace_cons _ (by decide)]
          dsimp only
          rw [if_neg (by decide), if_pos rfl]
          rfl
      | cons second more =>
          rcases second with ⟨nextKey, nextValue⟩
          rw [stringifyEntries, commaSeparated_cons _ (stringifyEntries_ne_nil
            (List.cons_ne_nil (nextKey, nextValue) more))] at enough ⊢
          rw [List.length_append, List.length_append, List.length_cons, List.length_cons] at enough
          have read := readValue_stringify value fuel (by omega)
            (unit ',' :: (commaSeparated (stringifyEntries ((nextKey, nextValue) :: more)) ++
              unit '}' :: rest))
            (endsNumber_cons _ (by decide) (by decide) (by decide) (by decide))
          have later := readEntries_stringify nextKey nextValue more fuel (by omega) rest
          rw [List.append_assoc, List.append_assoc, List.cons_append, List.cons_append,
            readEntries, atKey, readKey_quote]
          dsimp only
          rw [read]
          dsimp only
          rw [skipSpace_cons _ (by decide)]
          dsimp only
          rw [if_pos rfl, later]
          rfl
termination_by fuel

end

/-- `JSON.parse` of a printed value. -/
theorem parse_stringify (value : Json) :
    parse (stringify value) = some (reorder (kept value)) := by
  have read := readValue_stringify value ((stringify value).length + 1) (Nat.le_succ _) [] nofun
  rw [List.append_nil] at read
  rw [parse, read]
  rfl

end Json
