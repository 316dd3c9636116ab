import WorkflowEngine.Foundations.JsonEquality

/-!
# What `JSON.parse` reads

A reader looks only at the text it consumes, so it reads the same before any other text.
Objects that are read list their keys as JavaScript does.
-/

open Text Numerals

namespace Json

/-! ## One value -/

/-- A word and the value it stands for. -/
inductive IsWord : Text → Json → Prop where
  | null : IsWord (ofString "null") .null
  | yes : IsWord (ofString "true") (.bool true)
  | no : IsWord (ofString "false") (.bool false)

/-- What `readValue` takes from a text, by the first code unit after the spaces. -/
inductive ReadsValue (fuel : ℕ) (text : Text) : Json → Text → Prop where
  | emptyObject {inside rest : Text} (opens : skipSpace text = unit '{' :: inside)
      (closes : skipSpace inside = unit '}' :: rest) : ReadsValue fuel text (.object []) rest
  | object {inside others rest : Text} {first : CodeUnit} {entries : List (Text × Json)}
      (opens : skipSpace text = unit '{' :: inside) (more : skipSpace inside = first :: others)
      (nonempty : first ≠ unit '}') (read : readEntries fuel (first :: others) = some (entries, rest)) :
      ReadsValue fuel text (.object (collect entries)) rest
  | emptyArray {inside rest : Text} (opens : skipSpace text = unit '[' :: inside)
      (closes : skipSpace inside = unit ']' :: rest) : ReadsValue fuel text (.array []) rest
  | array {inside others rest : Text} {first : CodeUnit} {items : List Json}
      (opens : skipSpace text = unit '[' :: inside) (more : skipSpace inside = first :: others)
      (nonempty : first ≠ unit ']') (read : readItems fuel (first :: others) = some (items, rest)) :
      ReadsValue fuel text (.array items) rest
  | string {inside rest value : Text} (opens : skipSpace text = unit '"' :: inside)
      (read : readString inside = some (value, rest)) : ReadsValue fuel text (.string value) rest
  | word {word rest : Text} {value : Json} (isWord : IsWord word value)
      (begins : skipSpace text = word ++ rest) : ReadsValue fuel text value rest
  | number {others rest : Text} {first : CodeUnit} {value : Number}
      (begins : skipSpace text = first :: others) (other : ∀ mark ∈ ofString "\x7b[\"ntf", first ≠ mark)
      (read : readNumber (first :: others) = some (value, rest)) :
      ReadsValue fuel text (.number value) rest

theorem readWord_eq_some_iff {word text rest : Text} {value value' : Json} :
    readWord word value text = some (value', rest) ↔ value = value' ∧ text = word ++ rest := by
  rw [readWord]
  split
  · next begins =>
      rcases List.isPrefixOf_iff_prefix.mp begins with ⟨tail, rfl⟩
      rw [List.drop_left, Option.some.injEq, Prod.mk.injEq, List.append_cancel_left_eq]
  · next differs =>
      constructor
      · exact nofun
      · rintro ⟨-, rfl⟩
        exact absurd (List.isPrefixOf_iff_prefix.mpr (List.prefix_append word rest)) differs

theorem readsValue_of_readValue {fuel : ℕ} {text rest : Text} {value : Json}
    (read : readValue (fuel + 1) text = some (value, rest)) : ReadsValue fuel text value rest := by
  rw [readValue] at read
  cases begins : skipSpace text with
  | nil =>
      rw [begins] at read
      cases read
  | cons first others =>
      rw [begins] at read
      dsimp only at read
      split at read
      · next isBrace =>
          subst isBrace
          cases inside : skipSpace others with
          | nil =>
              rw [inside] at read
              cases read
          | cons second more =>
              rw [inside] at read
              dsimp only at read
              split at read
              · next isEnd =>
                  cases read
                  subst isEnd
                  exact .emptyObject begins inside
              · next nonempty =>
                  rcases Option.map_eq_some_iff.mp read with ⟨result, isResult, same⟩
                  cases same
                  exact .object begins inside nonempty isResult
      split at read
      · next isBracket =>
          subst isBracket
          cases inside : skipSpace others with
          | nil =>
              rw [inside] at read
              cases read
          | cons second more =>
              rw [inside] at read
              dsimp only at read
              split at read
              · next isEnd =>
                  cases read
                  subst isEnd
                  exact .emptyArray begins inside
              · next nonempty =>
                  rcases Option.map_eq_some_iff.mp read with ⟨result, isResult, same⟩
                  cases same
                  exact .array begins inside nonempty isResult
      split at read
      · next isQuote =>
          subst isQuote
          rcases Option.map_eq_some_iff.mp read with ⟨result, isResult, same⟩
          cases same
          exact .string begins isResult
      split at read
      · rcases readWord_eq_some_iff.mp read with ⟨rfl, whole⟩
        exact .word .null (begins.trans whole)
      split at read
      · rcases readWord_eq_some_iff.mp read with ⟨rfl, whole⟩
        exact .word .yes (begins.trans whole)
      split at read
      · rcases readWord_eq_some_iff.mp read with ⟨rfl, whole⟩
        exact .word .no (begins.trans whole)
      · next notBrace notBracket notQuote notNull notTrue notFalse =>
          rcases Option.map_eq_some_iff.mp read with ⟨result, isResult, same⟩
          cases same
          refine .number begins ?_ isResult
          have marks : ofString "\x7b[\"ntf" =
              [unit '{', unit '[', unit '"', unit 'n', unit 't', unit 'f'] := by decide
          simp only [marks, List.forall_mem_cons]
          exact ⟨notBrace, notBracket, notQuote, notNull, notTrue, notFalse, nofun⟩

theorem ReadsValue.readValue {fuel : ℕ} {text rest : Text} {value : Json}
    (reads : ReadsValue fuel text value rest) :
    readValue (fuel + 1) text = some (value, rest) := by
  rw [Json.readValue]
  cases reads with
  | emptyObject opens closes =>
      rw [opens]
      dsimp only
      rw [if_pos rfl, closes]
      dsimp only
      rw [if_pos rfl]
  | object opens more nonempty read =>
      rw [opens]
      dsimp only
      rw [if_pos rfl, more]
      dsimp only
      rw [if_neg nonempty, read]
      rfl
  | emptyArray opens closes =>
      have notBrace : ¬ unit '[' = unit '{' := by decide
      rw [opens]
      dsimp only
      rw [if_neg notBrace, if_pos rfl, closes]
      dsimp only
      rw [if_pos rfl]
  | array opens more nonempty read =>
      have notBrace : ¬ unit '[' = unit '{' := by decide
      rw [opens]
      dsimp only
      rw [if_neg notBrace, if_pos rfl, more]
      dsimp only
      rw [if_neg nonempty, read]
      rfl
  | string opens read =>
      have notBrace : ¬ unit '"' = unit '{' := by decide
      have notBracket : ¬ unit '"' = unit '[' := by decide
      rw [opens]
      dsimp only
      rw [if_neg notBrace, if_neg notBracket, if_pos rfl, read]
      rfl
  | word isWord begins =>
      rw [begins]
      cases isWord with
      | null =>
          have head : ofString "null" ++ rest = unit 'n' :: (ofString "ull" ++ rest) := by rfl
          rw [head]
          dsimp only
          rw [if_neg (by decide), if_neg (by decide), if_neg (by decide), if_pos rfl]
          exact readWord_eq_some_iff.mpr ⟨rfl, rfl⟩
      | yes =>
          have head : ofString "true" ++ rest = unit 't' :: (ofString "rue" ++ rest) := by rfl
          rw [head]
          dsimp only
          rw [if_neg (by decide), if_neg (by decide), if_neg (by decide), if_neg (by decide),
            if_pos rfl]
          exact readWord_eq_some_iff.mpr ⟨rfl, rfl⟩
      | no =>
          have head : ofString "false" ++ rest = unit 'f' :: (ofString "alse" ++ rest) := by rfl
          rw [head]
          dsimp only
          rw [if_neg (by decide), if_neg (by decide), if_neg (by decide), if_neg (by decide),
            if_neg (by decide), if_pos rfl]
          exact readWord_eq_some_iff.mpr ⟨rfl, rfl⟩
  | number begins other read =>
      rw [begins]
      dsimp only
      rw [if_neg (other _ (by decide)), if_neg (other _ (by decide)),
        if_neg (other _ (by decide)), if_neg (other _ (by decide)),
        if_neg (other _ (by decide)), if_neg (other _ (by decide)), read]
      rfl

/-! ## Items and entries -/

/-- What `readItems` takes from a text. -/
inductive ReadsItems (fuel : ℕ) (text : Text) : List Json → Text → Prop where
  | more {item : Json} {items : List Json} {after others rest : Text}
      (first : readValue fuel text = some (item, after)) (comma : skipSpace after = unit ',' :: others)
      (read : readItems fuel others = some (items, rest)) : ReadsItems fuel text (item :: items) rest
  | last {item : Json} {after rest : Text} (first : readValue fuel text = some (item, after))
      (closes : skipSpace after = unit ']' :: rest) : ReadsItems fuel text [item] rest

/-- What `readEntries` takes from a text. -/
inductive ReadsEntries (fuel : ℕ) (text : Text) : List (Text × Json) → Text → Prop where
  | more {key before after others rest : Text} {value : Json} {entries : List (Text × Json)}
      (isKey : readKey (skipSpace text) = some (key, before))
      (first : readValue fuel before = some (value, after))
      (comma : skipSpace after = unit ',' :: others)
      (read : readEntries fuel others = some (entries, rest)) :
      ReadsEntries fuel text ((key, value) :: entries) rest
  | last {key before after rest : Text} {value : Json}
      (isKey : readKey (skipSpace text) = some (key, before))
      (first : readValue fuel before = some (value, after))
      (closes : skipSpace after = unit '}' :: rest) : ReadsEntries fuel text [(key, value)] rest

theorem readsItems_of_readItems {fuel : ℕ} {text rest : Text} {items : List Json}
    (read : readItems (fuel + 1) text = some (items, rest)) : ReadsItems fuel text items rest := by
  rw [readItems] at read
  split at read
  · cases read
  · next item after first =>
      split at read
      · cases read
      · next mark others skips =>
          split at read
          · next isComma =>
              subst isComma
              rcases Option.map_eq_some_iff.mp read with ⟨result, isResult, same⟩
              cases same
              exact .more first skips isResult
          split at read
          · next isEnd =>
              subst isEnd
              cases read
              exact .last first skips
          · cases read

theorem ReadsItems.readItems {fuel : ℕ} {text rest : Text} {items : List Json}
    (reads : ReadsItems fuel text items rest) : readItems (fuel + 1) text = some (items, rest) := by
  rw [Json.readItems]
  cases reads with
  | more first comma read =>
      rw [first]
      dsimp only
      rw [comma]
      dsimp only
      rw [if_pos rfl, read]
      rfl
  | last first closes =>
      rw [first]
      dsimp only
      rw [closes]
      rfl

theorem readsEntries_of_readEntries {fuel : ℕ} {text rest : Text} {entries : List (Text × Json)}
    (read : readEntries (fuel + 1) text = some (entries, rest)) :
    ReadsEntries fuel text entries rest := by
  rw [readEntries] at read
  split at read
  · cases read
  · next key before isKey =>
      split at read
      · cases read
      · next value after first =>
          split at read
          · cases read
          · next mark others skips =>
              split at read
              · next isComma =>
                  subst isComma
                  rcases Option.map_eq_some_iff.mp read with ⟨result, isResult, same⟩
                  cases same
                  exact .more isKey first skips isResult
              split at read
              · next isEnd =>
                  subst isEnd
                  cases read
                  exact .last isKey first skips
              · cases read

theorem ReadsEntries.readEntries {fuel : ℕ} {text rest : Text} {entries : List (Text × Json)}
    (reads : ReadsEntries fuel text entries rest) :
    readEntries (fuel + 1) text = some (entries, rest) := by
  rw [Json.readEntries]
  cases reads with
  | more isKey first comma read =>
      rw [isKey]
      dsimp only
      rw [first]
      dsimp only
      rw [comma]
      dsimp only
      rw [if_pos rfl, read]
      rfl
  | last isKey first closes =>
      rw [isKey]
      dsimp only
      rw [first]
      dsimp only
      rw [closes]
      rfl

/-! ## Listed keys -/

theorem proper_read (fuel : ℕ) :
    (∀ {text value rest}, readValue fuel text = some (value, rest) → Proper value) ∧
    (∀ {text items rest}, readItems fuel text = some (items, rest) → ProperItems items) ∧
    ∀ {text entries rest}, readEntries fuel text = some (entries, rest) →
      ProperEntries entries := by
  induction fuel with
  | zero =>
      refine ⟨?_, ?_, ?_⟩
      · intro text value rest read
        rw [readValue] at read
        cases read
      · intro text items rest read
        rw [readItems] at read
        cases read
      · intro text entries rest read
        rw [readEntries] at read
        cases read
  | succ fuel ih =>
      rcases ih with ⟨ihValue, ihItems, ihEntries⟩
      refine ⟨?_, ?_, ?_⟩
      · intro text value rest read
        cases readsValue_of_readValue read with
        | emptyObject opens closes => exact ⟨.nil, trivial⟩
        | object opens more nonempty read => exact proper_collect (ihEntries read)
        | emptyArray opens closes => exact trivial
        | array opens more nonempty read => exact ihItems read
        | string opens read => exact trivial
        | word isWord begins =>
            cases isWord with
            | null => exact trivial
            | yes => exact trivial
            | no => exact trivial
        | number begins other read => exact trivial
      · intro text items rest read
        cases readsItems_of_readItems read with
        | more first comma read => exact ⟨ihValue first, ihItems read⟩
        | last first closes => exact ⟨ihValue first, trivial⟩
      · intro text entries rest read
        cases readsEntries_of_readEntries read with
        | more isKey first comma read => exact ⟨ihValue first, ihEntries read⟩
        | last isKey first closes => exact ⟨ihValue first, trivial⟩

/-- Objects in a parsed value list their keys as JavaScript does. -/
theorem proper_parse {text : Text} {value : Json} (parsed : parse text = some value) :
    Proper value := by
  rw [parse] at parsed
  split at parsed
  · cases parsed
  · next read =>
      split at parsed
      · cases parsed
        exact (proper_read _).1 read
      · cases parsed

/-! ## Reading before another text -/

theorem skipSpace_append {text rest : Text} {first : CodeUnit}
    (skips : skipSpace text = first :: rest) (more : Text) :
    skipSpace (text ++ more) = first :: (rest ++ more) := by
  unfold skipSpace at skips ⊢
  rw [List.dropWhile_append, skips]
  rfl

theorem readString_append {text value rest : Text} (read : readString text = some (value, rest))
    (more : Text) : readString (text ++ more) = some (value, rest ++ more) := by
  fun_induction readString text generalizing value with
  | case1 => cases read
  | case2 tail =>
      cases read
      rw [List.cons_append, readString.eq_def]
      exact if_pos rfl
  | case3 => cases read
  | case4 => cases read
  | case5 a b c d tail unicode isHex notQuote ih =>
      rcases Option.map_eq_some_iff.mp read with ⟨⟨others, rest⟩, isRead, same⟩
      cases same
      simp only [List.cons_append]
      rw [readString_hex _ isHex, ih isRead]
      rfl
  | case6 => cases read
  | case7 => cases read
  | case8 escape tail notUnicode short isShort notQuote ih =>
      rcases Option.map_eq_some_iff.mp read with ⟨⟨others, rest⟩, isRead, same⟩
      cases same
      simp only [List.cons_append]
      rw [readString_short _ isShort notUnicode, ih isRead]
      rfl
  | case9 => cases read
  | case10 first tail notQuote notEscape printable ih =>
      rcases Option.map_eq_some_iff.mp read with ⟨⟨others, rest⟩, isRead, same⟩
      cases same
      rw [List.cons_append, readString_plain _ notQuote notEscape printable, ih isRead]
      rfl

theorem readKey_append {text key rest : Text} (read : readKey text = some (key, rest))
    (more : Text) : readKey (text ++ more) = some (key, rest ++ more) := by
  cases text with
  | nil => cases read
  | cons first tail =>
      rw [List.cons_append, readKey]
      rw [readKey] at read
      split at read
      · next isQuote =>
          split at read
          · cases read
          · next key' after isString =>
              split at read
              · cases read
              · next mark others skips =>
                  split at read
                  · next isColon =>
                      cases read
                      rw [if_pos isQuote, readString_append isString more]
                      dsimp only
                      rw [skipSpace_append skips more]
                      exact if_pos isColon
                  · cases read
      · cases read


theorem readKey_skipSpace_append {text key rest : Text}
    (read : readKey (skipSpace text) = some (key, rest)) (more : Text) :
    readKey (skipSpace (text ++ more)) = some (key, rest ++ more) := by
  cases skips : skipSpace text with
  | nil =>
      rw [skips] at read
      cases read
  | cons first others =>
      rw [skipSpace_append skips more, ← List.cons_append, ← skips]
      exact readKey_append read more

/-- Values whose end the reader sees: a number ends only where something follows. -/
def EndsBefore (value : Json) (rest : Text) : Prop :=
  (∃ number, value = .number number) → rest ≠ []

theorem ReadsValue.append {fuel fuel' : ℕ} {text rest : Text} {value : Json}
    (reads : ReadsValue fuel text value rest) (ends : EndsBefore value rest) (more : Text)
    (items : ∀ {text items rest}, readItems fuel text = some (items, rest) →
      readItems fuel' (text ++ more) = some (items, rest ++ more))
    (entries : ∀ {text entries rest}, readEntries fuel text = some (entries, rest) →
      readEntries fuel' (text ++ more) = some (entries, rest ++ more)) :
    ReadsValue fuel' (text ++ more) value (rest ++ more) := by
  cases reads with
  | emptyObject opens closes =>
      exact .emptyObject (skipSpace_append opens more) (skipSpace_append closes more)
  | object opens inside nonempty read =>
      exact .object (skipSpace_append opens more) (skipSpace_append inside more) nonempty
        (entries read)
  | emptyArray opens closes =>
      exact .emptyArray (skipSpace_append opens more) (skipSpace_append closes more)
  | array opens inside nonempty read =>
      exact .array (skipSpace_append opens more) (skipSpace_append inside more) nonempty
        (items read)
  | string opens read =>
      exact .string (skipSpace_append opens more) (readString_append read more)
  | word isWord begins =>
      apply ReadsValue.word isWord
      cases isWord with
      | null => exact skipSpace_append begins more
      | yes => exact skipSpace_append begins more
      | no => exact skipSpace_append begins more
  | number begins other read =>
      exact .number (skipSpace_append begins more) other
        (readNumber_append read (ends ⟨_, rfl⟩) more)

theorem skipSpace_ne_nil {text rest : Text} {first : CodeUnit}
    (skips : skipSpace text = first :: rest) : text ≠ [] := by
  rintro rfl
  cases skips

/-- Readers look only at what they take, and more fuel changes nothing. -/
theorem read_append (fuel extra : ℕ) (more : Text) :
    (∀ {text value rest}, readValue fuel text = some (value, rest) → EndsBefore value rest →
      readValue (fuel + extra) (text ++ more) = some (value, rest ++ more)) ∧
    (∀ {text items rest}, readItems fuel text = some (items, rest) →
      readItems (fuel + extra) (text ++ more) = some (items, rest ++ more)) ∧
    ∀ {text entries rest}, readEntries fuel text = some (entries, rest) →
      readEntries (fuel + extra) (text ++ more) = some (entries, rest ++ more) := by
  induction fuel with
  | zero =>
      refine ⟨?_, ?_, ?_⟩
      · intro text value rest read
        rw [readValue] at read
        cases read
      · intro text items rest read
        rw [readItems] at read
        cases read
      · intro text entries rest read
        rw [readEntries] at read
        cases read
  | succ fuel ih =>
      rcases ih with ⟨ihValue, ihItems, ihEntries⟩
      have ihInside : ∀ {text value after mark others},
          readValue fuel text = some (value, after) → skipSpace after = mark :: others →
          readValue (fuel + extra) (text ++ more) = some (value, after ++ more) :=
        fun read skips => ihValue read fun _ => skipSpace_ne_nil skips
      rw [Nat.add_right_comm]
      refine ⟨?_, ?_, ?_⟩
      · intro text value rest read ends
        exact ((readsValue_of_readValue read).append ends more ihItems ihEntries).readValue
      · intro text items rest read
        cases readsItems_of_readItems read with
        | more first comma read =>
            exact (ReadsItems.more (ihInside first comma) (skipSpace_append comma more)
              (ihItems read)).readItems
        | last first closes =>
            exact (ReadsItems.last (ihInside first closes) (skipSpace_append closes more)).readItems
      · intro text entries rest read
        cases readsEntries_of_readEntries read with
        | more isKey first comma read =>
            exact (ReadsEntries.more (readKey_skipSpace_append isKey more) (ihInside first comma)
              (skipSpace_append comma more) (ihEntries read)).readEntries
        | last isKey first closes =>
            exact (ReadsEntries.last (readKey_skipSpace_append isKey more)
              (ihInside first closes) (skipSpace_append closes more)).readEntries

/-- An object that is cut off does not parse. -/
theorem parse_truncated {text more others : Text} {value : Json}
    (begins : text = unit '{' :: others) (whole : parse (text ++ more) = some value)
    (cut : skipSpace more ≠ []) : parse text = none := by
  have notSpace : isSpace (unit '{') = false := by decide
  cases read : readValue (text.length + 1) text with
  | none => rw [parse, read]
  | some result =>
      rcases result with ⟨value', rest⟩
      have ends : EndsBefore value' rest := by
        rintro ⟨number, rfl⟩
        cases readsValue_of_readValue read with
        | word isWord _ => cases isWord
        | number isFirst other _ =>
            rw [begins, skipSpace_cons _ notSpace, List.cons.injEq] at isFirst
            exact absurd isFirst.1.symm (other _ (by decide))
      have longer := (read_append (text.length + 1) more.length more).1 read ends
      have fuel : (text ++ more).length + 1 = text.length + 1 + more.length := by
        rw [List.length_append]
        omega
      rw [parse, fuel, longer] at whole
      rw [parse, read]
      dsimp only at whole ⊢
      split at whole
      · next done =>
          have notDone : skipSpace rest ≠ [] := by
            intro spaces
            unfold skipSpace at spaces done
            rw [List.dropWhile_append, spaces, List.isEmpty_nil, if_pos rfl] at done
            exact cut done
          rw [if_neg notDone]
      · cases whole

end Json
