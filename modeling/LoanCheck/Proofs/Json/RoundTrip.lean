import LoanCheck.Json.Reader
import LoanCheck.Json.Writer
import Mathlib.Data.List.Basic

/-!
# Reading back what was written

A value without numbers whose objects name each field once is read back from its written form,
on one line or over indented lines, as long as its arrays and objects do not lie too deep inside
each other.  Strings may hold any character: whatever is escaped when it is written is read back
as one character.
-/

namespace LoanCheck

/-- The last digit is written last, after the digits of the quotient. -/
theorem Text.hexadecimal_succ (width number : Nat) (wide : 0 < width) :
    hexadecimal (width + 1) number =
      hexadecimal width (number / 16) ++ [(number % 16).digitChar] := by
  by_cases small : number < 16
  · obtain ⟨less, rfl⟩ := Nat.exists_eq_add_one_of_ne_zero (Nat.ne_of_gt wide)
    have quotient : number / 16 = 0 := Nat.div_eq_of_lt small
    have remainder : number % 16 = number := Nat.mod_eq_of_lt small
    rw [quotient, remainder, hexadecimal, hexadecimal, Nat.toDigits_of_lt_base small,
      Nat.toDigits_zero]
    simp only [List.length_singleton, Nat.add_sub_cancel,
      List.replicate_succ', List.append_assoc]
  · have split := Nat.toDigits_of_base_le (by decide : 1 < 16) (Nat.le_of_not_lt small)
    simp [hexadecimal, split]

theorem Text.hexadecimal_four {number : Nat} (fits : number < 65536) :
    hexadecimal 4 number =
      [(number / 4096).digitChar, (number / 256 % 16).digitChar, (number / 16 % 16).digitChar,
        (number % 16).digitChar] := by
  have first : hexadecimal 1 (number / 16 / 16 / 16) = [(number / 16 / 16 / 16).digitChar] := by
    rw [hexadecimal, Nat.toDigits_of_lt_base (by omega)]
    rfl
  rw [hexadecimal_succ 3 _ (by decide), hexadecimal_succ 2 _ (by decide),
    hexadecimal_succ 1 _ (by decide), first]
  simp [Nat.div_div_eq_div_mul]

namespace Json

theorem hexDigit?_digitChar {digit : Nat} (fits : digit < 16) :
    hexDigit? digit.digitChar = some digit := by
  have all : ∀ digit < 16, hexDigit? digit.digitChar = some digit := by decide
  exact all digit fits

theorem unicodeEscape_eq {code : Nat} (fits : code < 65536) :
    ∃ first second third fourth, unicodeEscape code = ['\\', 'u', first, second, third, fourth] ∧
      hexQuad? first second third fourth = some code := by
  refine ⟨_, _, _, _, congrArg ('\\' :: 'u' :: ·) (Text.hexadecimal_four fits), ?_⟩
  have digits : 4096 * (code / 4096) + 256 * (code / 256 % 16) + 16 * (code / 16 % 16) +
      code % 16 = code := by omega
  simp only [hexQuad?, hexDigit?_digitChar (show code / 4096 < 16 by omega),
    hexDigit?_digitChar (Nat.mod_lt _ (by decide : 0 < 16)), Option.bind_eq_bind,
    Option.bind_some, digits]
  rfl

/-- Inside a string, some text is read as one character. -/
def StandsFor (written : List Char) (c : Char) : Prop :=
  ∀ (opening : Nat) (done text : List Char), text ≠ [] →
    stringFrom opening done 0 (written ++ text) = stringFrom opening (c :: done) 0 text

/-- The characters of an escape are passed over once it is read. -/
theorem stringFrom_skip (opening : Nat) (done skipped text : List Char) :
    stringFrom opening done skipped.length (skipped ++ text) =
      stringFrom opening done 0 text := by
  induction skipped with
  | nil => rfl
  | cons c rest ih => exact ih

theorem standsFor_escape {c : Char} {escape : List Char} (present : escape ≠ [])
    (read : ∀ text, text ≠ [] → escapeFrom (escape ++ text) = .ok (c, escape.length)) :
    StandsFor ('\\' :: escape) c := by
  intro opening done text more
  have filled : (escape ++ text).isEmpty = false := by simp [present]
  rw [List.cons_append, stringFrom]
  simp only [show '\\' ≠ '"' by decide, if_false, if_true, filled, read text more,
    Bool.false_eq_true]
  exact stringFrom_skip opening (c :: done) escape text

theorem standsFor_letter {letter c : Char} (plain : letter ≠ 'u')
    (simple : simpleEscape? letter = some c) : StandsFor ['\\', letter] c := by
  apply standsFor_escape (List.cons_ne_nil _ _)
  intro text _
  rw [List.singleton_append, escapeFrom]
  · simp [simple]
  · intro rest same
    exact plain (List.cons.inj same).1

/-- A plain character stands for itself. -/
theorem standsFor_self {c : Char} (quote : c ≠ '"') (backslash : c ≠ '\\')
    (plain : 0x20 ≤ c.toNat) : StandsFor [c] c := by
  intro opening done text _
  rw [List.singleton_append, stringFrom, if_neg quote, if_neg backslash,
    if_neg (Nat.not_lt.mpr plain)]

/-- No character is half of a pair. -/
theorem surrogate_free (c : Char) : c.toNat < 0xd800 ∨ 0xdfff < c.toNat ∧ c.toNat < 0x110000 :=
  c.valid

theorem standsFor_unicodeEscape {c : Char} (within : c.toNat < 0x10000) :
    StandsFor (unicodeEscape c.toNat) c := by
  obtain ⟨first, second, third, fourth, written, read⟩ := unicodeEscape_eq within
  have free := surrogate_free c
  have notHigh : isHighSurrogate c.toNat = false := by
    simp only [isHighSurrogate, Bool.and_eq_false_iff, decide_eq_false_iff_not]
    omega
  have notLow : isLowSurrogate c.toNat = false := by
    simp only [isLowSurrogate, Bool.and_eq_false_iff, decide_eq_false_iff_not]
    omega
  rw [written]
  apply standsFor_escape (List.cons_ne_nil _ _)
  intro text present
  -- The reader takes an escape only where something follows it.
  obtain ⟨next, more, rfl⟩ := List.exists_cons_of_ne_nil present
  simp [escapeFrom, read, notHigh, notLow, Char.ofNat_toNat]

theorem standsFor_pair {c : Char} (beyond : 0x10000 ≤ c.toNat) :
    StandsFor (unicodeEscape (0xd800 + (c.toNat - 0x10000) / 1024) ++
      unicodeEscape (0xdc00 + (c.toNat - 0x10000) % 1024)) c := by
  have free := surrogate_free c
  obtain ⟨_, _, _, _, writtenHigh, readHigh⟩ :=
    unicodeEscape_eq (show 0xd800 + (c.toNat - 0x10000) / 1024 < 65536 by omega)
  obtain ⟨_, _, _, _, writtenLow, readLow⟩ :=
    unicodeEscape_eq (show 0xdc00 + (c.toNat - 0x10000) % 1024 < 65536 by omega)
  have high : isHighSurrogate (0xd800 + (c.toNat - 0x10000) / 1024) = true := by
    simp only [isHighSurrogate, Bool.and_eq_true, decide_eq_true_eq]
    omega
  have low : isLowSurrogate (0xdc00 + (c.toNat - 0x10000) % 1024) = true := by
    simp only [isLowSurrogate, Bool.and_eq_true, decide_eq_true_eq]
    omega
  have halves : 0x10000 + 1024 * ((c.toNat - 0x10000) / 1024) + (c.toNat - 0x10000) % 1024 =
      c.toNat := by omega
  rw [writtenHigh, writtenLow]
  apply standsFor_escape (List.cons_ne_nil _ _)
  intro text present
  obtain ⟨next, more, rfl⟩ := List.exists_cons_of_ne_nil present
  simp [escapeFrom, readHigh, high, readLow, low, joinSurrogates, halves, Char.ofNat_toNat]

/-- Every character is read back from the way it is written. -/
theorem standsFor_escapeChar (c : Char) : StandsFor (escapeChar c) c := by
  have named {code : Nat} (same : c.toNat = code) : c = Char.ofNat code := by
    rw [← same, Char.ofNat_toNat]
  rw [escapeChar]
  split_ifs with quoted newline carriage tab backspace formFeed plain within
  · obtain rfl | rfl := quoted
    · exact standsFor_letter (by decide) (by decide)
    · exact standsFor_letter (by decide) (by decide)
  · exact newline ▸ standsFor_letter (by decide) (by decide)
  · exact carriage ▸ standsFor_letter (by decide) (by decide)
  · exact tab ▸ standsFor_letter (by decide) (by decide)
  · exact named backspace ▸ standsFor_letter (by decide) (by decide)
  · exact named formFeed ▸ standsFor_letter (by decide) (by decide)
  · exact standsFor_self (fun same => quoted (.inl same)) (fun same => quoted (.inr same)) plain.1
  · exact standsFor_unicodeEscape within
  · exact standsFor_pair (Nat.le_of_not_lt within)

/-- The characters of a string are read back up to its closing quote. -/
theorem stringFrom_escaped (opening : Nat) (characters done rest : List Char) :
    stringFrom opening done 0 (characters.flatMap escapeChar ++ '"' :: rest) =
      .ok (done.reverse ++ characters, rest) := by
  induction characters generalizing done with
  | nil => simp [stringFrom]
  | cons c more ih =>
      rw [List.flatMap_cons, List.append_assoc,
        standsFor_escapeChar c opening done _ (by simp), ih]
      simp

example : writeString "é😀\n" = "\"\\u00e9\\ud83d\\ude00\\n\"".toList := by decide

theorem skipBlanks_append {blanks : List Char} (text : List Char)
    (blank : ∀ c ∈ blanks, isBlank c = true) : skipBlanks (blanks ++ text) = skipBlanks text :=
  List.dropWhile_append_of_pos blank

theorem skipBlanks_cons {c : Char} (text : List Char) (visible : isBlank c = false) :
    skipBlanks (c :: text) = c :: text :=
  List.dropWhile_cons_of_neg (by simp [visible])

theorem Style.isBlank_newline {width depth : Nat} {c : Char}
    (listed : c ∈ Style.newline width depth) : isBlank c = true := by
  obtain rfl | space := List.mem_cons.mp listed
  · rfl
  · rw [List.eq_of_mem_replicate space]
    rfl

theorem Style.isBlank_opening {style : Style} {depth : Nat} {c : Char}
    (listed : c ∈ style.opening depth) : isBlank c = true := by
  cases style with
  | line => cases listed
  | indented width => exact isBlank_newline listed

/-- Parts are set apart by a comma and blanks. -/
theorem Style.separator_eq (style : Style) (depth : Nat) :
    ∃ blanks, style.separator depth = ',' :: blanks ∧ ∀ c ∈ blanks, isBlank c = true := by
  cases style with
  | line => exact ⟨[' '], rfl, List.forall_mem_singleton.mpr rfl⟩
  | indented width => exact ⟨newline width depth, rfl, fun _ listed => isBlank_newline listed⟩

/-- A text whose first character is no blank, closes nothing and marks no byte order. -/
def StartsPart (text : List Char) : Prop :=
  ∃ c rest, text = c :: rest ∧ isBlank c = false ∧ c ≠ ']' ∧ c ≠ '}' ∧ c ≠ Char.ofNat 0xfeff

namespace StartsPart

variable {text : List Char} (starts : StartsPart text)

include starts

theorem append (more : List Char) : StartsPart (text ++ more) := by
  obtain ⟨c, rest, rfl, visible⟩ := starts
  exact ⟨c, rest ++ more, rfl, visible⟩

theorem joined (separator : List Char) (pieces : List (List Char)) :
    StartsPart (joined separator (text :: pieces)) := by
  cases pieces with
  | nil => exact starts
  | cons next more => exact (starts.append separator).append _

theorem skipBlanks_append {blanks : List Char} (blank : ∀ c ∈ blanks, isBlank c = true) :
    skipBlanks (blanks ++ text) = text := by
  obtain ⟨c, rest, rfl, visible, _⟩ := starts
  rw [Json.skipBlanks_append _ blank, skipBlanks_cons rest visible]

end StartsPart

/-- A value is read back from its written form, whatever follows it. -/
structure ReadBack (style : Style) (room : Nat) (value : Json) : Prop where
  starts : ∀ depth, StartsPart (writeAt style depth value)
  reads : ∀ (depth fuel : Nat) (rest : List Char), 2 * (writeAt style depth value).length ≤ fuel →
    valueFrom fuel room (writeAt style depth value ++ rest) = .ok (value, rest)

variable {style : Style} {room depth fuel : Nat}

/-- Whatever is written as a text that is not empty is read with some fuel. -/
theorem ReadBack.of_step {value : Json}
    (starts : ∀ depth, StartsPart (writeAt style depth value))
    (step : ∀ (depth fuel : Nat) (rest : List Char),
      2 * (writeAt style depth value).length ≤ fuel + 1 →
        valueFrom (fuel + 1) room (writeAt style depth value ++ rest) = .ok (value, rest)) :
    ReadBack style room value := by
  refine ⟨starts, ?_⟩
  intro depth fuel rest enough
  cases fuel with
  | zero =>
      obtain ⟨c, more, written, _⟩ := starts depth
      rw [written] at enough
      cases enough
  | succ fuel => exact step depth fuel rest enough

theorem readBack_of_word {value : Json} (c : Char) (letters : List Char)
    (written : ∀ depth, writeAt style depth value = c :: letters)
    (word : ∀ rest, word? (c :: (letters ++ rest)) = some (value, rest))
    (visible : isBlank c = false ∧ c ≠ ']' ∧ c ≠ '}' ∧ c ≠ Char.ofNat 0xfeff)
    (bare : c ≠ '"' ∧ c ≠ '[' ∧ c ≠ '{') :
    ReadBack style room value := by
  apply ReadBack.of_step
  · exact fun depth => ⟨c, letters, written depth, visible⟩
  · intro depth fuel rest _
    obtain ⟨quote, bracket, brace⟩ := bare
    simp only [written, List.cons_append, valueFrom.eq_def, quote, bracket, brace, if_false,
      word rest]

theorem readBack_null : ReadBack style room .null := by
  apply readBack_of_word 'n' ['u', 'l', 'l'] (fun _ => by rw [writeAt]; rfl) _ (by decide)
    (by decide)
  intro rest
  simp [word?, wordValues, ← String.length_toList]

theorem readBack_bool (value : Bool) : ReadBack style room (.bool value) := by
  cases value with
  | true =>
      apply readBack_of_word 't' ['r', 'u', 'e'] (fun _ => by rw [writeAt]; rfl) _ (by decide)
        (by decide)
      intro rest
      simp [word?, wordValues, ← String.length_toList]
  | false =>
      apply readBack_of_word 'f' ['a', 'l', 's', 'e'] (fun _ => by rw [writeAt]; rfl) _
        (by decide) (by decide)
      intro rest
      simp [word?, wordValues, ← String.length_toList]

theorem startsPart_writeString (text : String) : StartsPart (writeString text) :=
  ⟨'"', _, rfl, by decide⟩

theorem startsPart_field (style : Style) (depth : Nat) (key : String) (value : Json) :
    StartsPart (writeString key ++ [':', ' '] ++ writeAt style depth value) :=
  ((startsPart_writeString key).append [':', ' ']).append (writeAt style depth value)

theorem readBack_str (text : String) : ReadBack style room (.str text) := by
  apply ReadBack.of_step
  · intro depth
    rw [writeAt]
    exact startsPart_writeString text
  · intro depth fuel rest _
    simp [writeAt, valueFrom, writeString, stringFrom_escaped]

/-- The items of an array are read back one after another up to its closing bracket. -/
theorem itemsFrom_joined {items : List Json} {blanks : List Char} (rest : List Char)
    (present : items ≠ []) (read : ∀ item ∈ items, ReadBack style room item)
    (blank : ∀ c ∈ blanks, isBlank c = true)
    (enough : 2 * (joined (style.separator depth) (writeItems style depth items)).length < fuel) :
    itemsFrom fuel room (joined (style.separator depth) (writeItems style depth items) ++
      (blanks ++ ']' :: rest)) = .ok (items, rest) := by
  obtain ⟨gap, separated, blankGap⟩ := style.separator_eq depth
  rw [separated] at enough ⊢
  induction items generalizing fuel with
  | nil => exact absurd rfl present
  | cons item items ih =>
      obtain ⟨fuel, rfl⟩ := Nat.exists_eq_add_one_of_ne_zero (Nat.ne_zero_of_lt enough)
      obtain ⟨first, others⟩ := List.forall_mem_cons.mp read
      cases items with
      | nil =>
          simp only [writeItems, joined] at enough ⊢
          rw [itemsFrom, first.reads depth fuel _ (by omega)]
          simp only [bind, Except.bind, skipBlanks_append _ blank]
          rfl
      | cons next items =>
          have starts := ((others next List.mem_cons_self).starts depth).joined (',' :: gap)
            (writeItems style depth items)
          -- An item and its comma take more fuel away from the bound than the one step taken here.
          have later := @ih fuel (List.cons_ne_nil next items) others
          simp only [writeItems, joined, List.length_append, List.length_cons, List.append_assoc,
            List.cons_append] at enough later ⊢
          rw [itemsFrom, first.reads depth fuel _ (by omega)]
          simp only [bind, Except.bind, skipBlanks_cons _ (show isBlank ',' = false by decide)]
          rw [(starts.append _).skipBlanks_append blankGap, later (by omega)]
          rfl

theorem insertField_of_new {key : String} (value : Json) {fields : List (String × Json)}
    (new : key ∉ fields.map Prod.fst) :
    insertField key value fields = fields ++ [(key, value)] := by
  induction fields with
  | nil => rfl
  | cons field fields ih =>
      obtain ⟨name, old⟩ := field
      rw [List.map_cons, List.mem_cons, not_or] at new
      rw [insertField, if_neg (Ne.symm new.1), ih new.2, List.cons_append]

/-- One field is read back and added to those before it; what follows it decides how it goes
on. -/
theorem fieldsFrom_field {key : String} {value : Json} {done : List (String × Json)}
    (after : List Char) (new : key ∉ done.map Prod.fst) (read : ReadBack style room value)
    (enough : 2 * (writeAt style depth value).length ≤ fuel) :
    fieldsFrom (fuel + 1) room done
        (writeString key ++ [':', ' '] ++ writeAt style depth value ++ after) =
      match skipBlanks after with
      | '}' :: rest => .ok (done ++ [(key, value)], rest)
      | ',' :: rest => fieldsFrom fuel room (done ++ [(key, value)]) (skipBlanks rest)
      | rest => failAt .comma rest := by
  have space : ∀ c ∈ [' '], isBlank c = true := List.forall_mem_singleton.mpr rfl
  have readValue : valueFrom fuel room (skipBlanks (' ' :: (writeAt style depth value ++ after))) =
      .ok (value, after) := by
    rw [← List.singleton_append, ((read.starts depth).append after).skipBlanks_append space]
    exact read.reads depth fuel after enough
  simp only [writeString, List.append_assoc, List.cons_append, List.nil_append]
  rw [fieldsFrom, stringFrom_escaped]
  simp only [bind, Except.bind, skipBlanks_cons _ (show isBlank ':' = false by decide),
    readValue, List.reverse_nil, List.nil_append, String.ofList_toList,
    insertField_of_new value new]
  rfl

/-- The fields of an object are read back after those that were read before them. -/
theorem fieldsFrom_joined {fields done : List (String × Json)} {blanks : List Char}
    (rest : List Char) (present : fields ≠ []) (distinct : ((done ++ fields).map Prod.fst).Nodup)
    (read : ∀ field ∈ fields, ReadBack style room field.2)
    (blank : ∀ c ∈ blanks, isBlank c = true)
    (enough : 2 * (joined (style.separator depth) (writeFields style depth fields)).length <
      fuel) :
    fieldsFrom fuel room done (joined (style.separator depth) (writeFields style depth fields) ++
      (blanks ++ '}' :: rest)) = .ok (done ++ fields, rest) := by
  obtain ⟨gap, separated, blankGap⟩ := style.separator_eq depth
  rw [separated] at enough ⊢
  induction fields generalizing fuel done with
  | nil => exact absurd rfl present
  | cons field fields ih =>
      obtain ⟨key, value⟩ := field
      obtain ⟨fuel, rfl⟩ := Nat.exists_eq_add_one_of_ne_zero (Nat.ne_zero_of_lt enough)
      obtain ⟨(first : ReadBack style room value), others⟩ := List.forall_mem_cons.mp read
      -- A field that is new goes to the end, so the fields keep their order.
      have new : key ∉ done.map Prod.fst := by
        intro listed
        rw [List.map_append, List.nodup_append] at distinct
        exact distinct.2.2 key listed key List.mem_cons_self rfl
      cases fields with
      | nil =>
          simp only [writeFields, joined, List.length_append] at enough ⊢
          rw [fieldsFrom_field _ new first (by omega), skipBlanks_append _ blank]
          rfl
      | cons next fields =>
          have starts := (startsPart_field style depth next.1 next.2).joined (',' :: gap)
            (writeFields style depth fields)
          have later := @ih fuel (done ++ [(key, value)]) (List.cons_ne_nil next fields)
            (by rwa [List.append_assoc]) others
          simp only [writeFields, joined, List.length_append, List.length_cons] at enough later ⊢
          rw [List.append_assoc, List.append_assoc, fieldsFrom_field _ new first (by omega)]
          simp only [List.cons_append, skipBlanks_cons _ (show isBlank ',' = false by decide)]
          rw [(starts.append _).skipBlanks_append blankGap, later (by omega), List.append_assoc]
          rfl

theorem valueFrom_array {items : List Json} {blanks text rest : List Char}
    (starts : StartsPart text) (blank : ∀ c ∈ blanks, isBlank c = true)
    (read : itemsFrom fuel room text = .ok (items, rest)) :
    valueFrom (fuel + 1) (room + 1) ('[' :: (blanks ++ text)) = .ok (.arr items, rest) := by
  have begun := starts.skipBlanks_append blank
  obtain ⟨c, more, rfl, _, bracket, _⟩ := starts
  simp [valueFrom, begun, read, bracket]

theorem valueFrom_object {fields : List (String × Json)} {blanks text rest : List Char}
    (starts : StartsPart text) (blank : ∀ c ∈ blanks, isBlank c = true)
    (read : fieldsFrom fuel room [] text = .ok (fields, rest)) :
    valueFrom (fuel + 1) (room + 1) ('{' :: (blanks ++ text)) = .ok (.obj fields, rest) := by
  have begun := starts.skipBlanks_append blank
  obtain ⟨c, more, rfl, _, _, brace, _⟩ := starts
  simp [valueFrom, begun, read, brace]

theorem readBack_arr {items : List Json} (read : ∀ item ∈ items, ReadBack style room item) :
    ReadBack style (room + 1) (.arr items) := by
  cases items with
  | nil =>
      apply ReadBack.of_step
      · exact fun depth => ⟨'[', [']'], by rw [writeAt], by decide⟩
      · intro depth fuel rest _
        simp only [writeAt]
        rfl
  | cons item items =>
      apply ReadBack.of_step
      · exact fun depth => ⟨'[', _, by rw [writeAt], by decide⟩
      · intro depth fuel rest enough
        have starts := ((read item List.mem_cons_self).starts (depth + 1)).joined
          (style.separator (depth + 1)) (writeItems style (depth + 1) items)
        simp only [writeAt, List.length_cons, List.length_append, List.cons_append,
          List.append_assoc, List.nil_append] at enough ⊢
        apply valueFrom_array (starts.append _) (fun _ => Style.isBlank_opening)
        apply itemsFrom_joined rest (List.cons_ne_nil item items) read
          (fun _ => Style.isBlank_opening)
        omega

theorem readBack_obj {fields : List (String × Json)} (distinct : (fields.map Prod.fst).Nodup)
    (read : ∀ field ∈ fields, ReadBack style room field.2) :
    ReadBack style (room + 1) (.obj fields) := by
  cases fields with
  | nil =>
      apply ReadBack.of_step
      · exact fun depth => ⟨'{', ['}'], by rw [writeAt], by decide⟩
      · intro depth fuel rest _
        simp only [writeAt]
        rfl
  | cons field fields =>
      apply ReadBack.of_step
      · exact fun depth => ⟨'{', _, by rw [writeAt], by decide⟩
      · intro depth fuel rest enough
        have starts := (startsPart_field style (depth + 1) field.1 field.2).joined
          (style.separator (depth + 1)) (writeFields style (depth + 1) fields)
        simp only [writeAt, List.length_cons, List.length_append, List.cons_append,
          List.append_assoc, List.nil_append] at enough ⊢
        rw [writeFields] at enough ⊢
        apply valueFrom_object (starts.append _) (fun _ => Style.isBlank_opening)
        apply fieldsFrom_joined rest (List.cons_ne_nil field fields) distinct read
          (fun _ => Style.isBlank_opening)
        rw [writeFields]
        omega

/-- Values without numbers, whose objects name each field once and in which at most `room`
arrays and objects lie inside each other. -/
inductive Plain : Nat → Json → Prop where
  | null (room : Nat) : Plain room .null
  | bool (room : Nat) (value : Bool) : Plain room (.bool value)
  | str (room : Nat) (value : String) : Plain room (.str value)
  | arr {room : Nat} {items : List Json} (plain : ∀ item ∈ items, Plain room item) :
      Plain (room + 1) (.arr items)
  | obj {room : Nat} {fields : List (String × Json)} (distinct : (fields.map Prod.fst).Nodup)
      (plain : ∀ field ∈ fields, Plain room field.2) : Plain (room + 1) (.obj fields)

theorem plain_arr_iff {items : List Json} :
    Plain (room + 1) (.arr items) ↔ ∀ item ∈ items, Plain room item := by
  refine ⟨?_, .arr⟩
  rintro ⟨⟩
  assumption

theorem plain_obj_iff {fields : List (String × Json)} :
    Plain (room + 1) (.obj fields) ↔
      (fields.map Prod.fst).Nodup ∧ ∀ field ∈ fields, Plain room field.2 := by
  refine ⟨?_, fun plain => .obj plain.1 plain.2⟩
  rintro ⟨⟩
  constructor <;> assumption

theorem Plain.readBack {value : Json} (plain : Plain room value) (style : Style) :
    ReadBack style room value := by
  induction plain with
  | null => exact readBack_null
  | bool room value => exact readBack_bool value
  | str room value => exact readBack_str value
  | arr _ ih => exact readBack_arr ih
  | obj distinct _ ih => exact readBack_obj distinct ih

/-- A plain value is read back from the whole text that is written for it. -/
theorem Plain.parseChars_write {value : Json} (plain : Plain maxNesting value) (style : Style) :
    parseChars (value.write style).toList = .ok value := by
  have read := plain.readBack style
  obtain ⟨c, rest, written, visible, _, _, unmarked⟩ := read.starts 0
  have whole := read.reads 0 (2 * (writeAt style 0 value).length + 2) [] (by omega)
  rw [List.append_nil] at whole
  have begun : skipBlanks (writeAt style 0 value) = writeAt style 0 value := by
    rw [written]
    exact skipBlanks_cons rest visible
  have marked : (writeAt style 0 value).head? ≠ some (Char.ofNat 0xfeff) := by
    rw [written]
    exact fun same => unmarked (Option.some.inj same)
  have all : readAll (writeAt style 0 value) = .ok value := by
    rw [readAll, if_neg marked, begun, whole]
    rfl
  rw [parseChars, write, String.toList_ofList, all]

end Json

end LoanCheck
