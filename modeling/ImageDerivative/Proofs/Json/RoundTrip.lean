import Mathlib
import ImageDerivative.Json.Reader

/-! What the writer of JSON writes, the reader reads back. -/
namespace ImageDerivative.JsonReader

open JsonValue (escapeChar quote indentation enclose render renderItems renderFields pretty)

/-- The form in which a written character is read: control characters that have no short
escape are read as units. -/
def unitOf (c : Char) : Nat ⊕ Char :=
  if c.toNat < 0x20 ∧ c ∉ ['\n', '\r', '\t', '\x08', '\x0c'] then .inl c.toNat else .inr c

theorem hexDigit?_digitChar {n : Nat} (small : n < 16) : hexDigit? (Nat.digitChar n) = some n := by
  revert n
  decide

theorem readUnits_escapeChar (c : Char) (rest : Rest) (units : List (Nat ⊕ Char)) :
    readUnits ((escapeChar c).toList ++ rest) units = readUnits rest (unitOf c :: units) := by
  unfold escapeChar
  split
  case h_8 _ quote backslash newline ret tab backspace feed =>
    split
    · rename_i control
      have unit : unitOf c = .inl c.toNat := by
        rw [unitOf, if_pos ⟨control, by simpa using ⟨newline, ret, tab, backspace, feed⟩⟩]
      have high := hexDigit?_digitChar (n := c.toNat / 16) (by omega)
      have low := hexDigit?_digitChar (n := c.toNat % 16) (by omega)
      have zero : hexDigit? '0' = some 0 := rfl
      have number : hexNumber? ['0', '0', (c.toNat / 16).digitChar, (c.toNat % 16).digitChar] =
          some c.toNat := by
        simp only [hexNumber?, List.foldlM_cons, List.foldlM_nil, high, low, zero, bind,
          Option.bind_some, pure]
        congr 1
        omega
      simp only [String.toList_append, String.toList_ofList]
      show readUnits ('\\' :: 'u' :: '0' :: '0' :: _ :: _ :: rest) units = _
      rw [readUnits, number, unit]
      rfl
    · rename_i printable
      have unit : unitOf c = .inr c := by
        rw [unitOf, if_neg fun both => printable both.1]
      rw [unit, Char.toString_eq_singleton, String.toList_singleton]
      show readUnits (c :: rest) units = _
      rw [readUnits.eq_4 _ _ _ quote (fun _ _ _ _ _ escape _ => backslash escape)
        (fun _ _ escape _ => backslash escape), if_neg]
      rintro (escape | control)
      · exact backslash escape
      · exact printable control
  all_goals rfl

theorem readUnits_escaped (cs : List Char) (rest : Rest) (units : List (Nat ⊕ Char)) :
    readUnits (cs.flatMap (fun c => (escapeChar c).toList) ++ '"' :: rest) units =
      some (units.reverse ++ cs.map unitOf, rest) := by
  induction cs generalizing units with
  | nil => simp only [List.flatMap_nil, List.nil_append, readUnits, List.map_nil, List.append_nil]
  | cons c cs ih =>
    rw [List.flatMap_cons, List.append_assoc, readUnits_escapeChar, ih]
    simp only [List.reverse_cons, List.map_cons, List.append_assoc, List.singleton_append]

/-- No written unit is half of a character. -/
theorem textOfUnits?_map (cs : List Char) : textOfUnits? (cs.map unitOf) = some cs := by
  induction cs with
  | nil => rfl
  | cons c cs ih =>
    rw [List.map_cons]
    by_cases control : c.toNat < 0x20 ∧ c ∉ ['\n', '\r', '\t', '\x08', '\x0c']
    · have unit : unitOf c = .inl c.toNat := by rw [unitOf, if_pos control]
      have small := control.1
      have high : ¬ (0xD800 ≤ c.toNat ∧ c.toNat < 0xDC00) := by omega
      have low : ¬ (0xDC00 ≤ c.toNat ∧ c.toNat < 0xE000) := by omega
      have half : ¬ (0xD800 ≤ c.toNat ∧ c.toNat < 0xE000) := by omega
      rw [unit]
      cases next : cs.map unitOf with
      | nil =>
        obtain rfl := List.map_eq_nil_iff.mp next
        simp only [textOfUnits?, half, if_false, Char.ofNat_toNat, bind, Option.bind_some, pure]
      | cons other rest =>
        rw [next] at ih
        cases other with
        | inl second =>
          simp only [textOfUnits?, high, low, if_false]
          rw [ih]
          simp only [Char.ofNat_toNat, bind, Option.bind_some, pure]
        | inr second =>
          rw [textOfUnits?, if_neg half, ih]
          simp only [Char.ofNat_toNat, bind, Option.bind_some, pure]
          simp
    · have unit : unitOf c = .inr c := by rw [unitOf, if_neg control]
      rw [unit, textOfUnits?, ih]
      rfl

theorem toList_quote (s : String) :
    (quote s).toList = '"' :: (s.toList.flatMap (fun c => (escapeChar c).toList) ++ ['"']) := by
  simp only [quote, String.toList_append, String.toList_join, List.flatMap_map]
  rfl

theorem readString_quote (s : String) (rest : Rest) :
    readString (s.toList.flatMap (fun c => (escapeChar c).toList) ++ '"' :: rest) =
      some (some s, rest) := by
  unfold readString
  rw [readUnits_escaped]
  simp only [List.reverse_nil, List.nil_append, bind, Option.bind_some, textOfUnits?_map,
    Option.map_some, String.ofList_toList, pure]

/-- Nothing that would go on with a number. -/
def Ends (rest : Rest) : Prop := rest = [] ∨ (∃ more, rest = ',' :: more) ∨ ∃ more, rest = '\n' :: more

theorem span_digits {digits rest : List Char} (all : ∀ c ∈ digits, c.isDigit = true)
    (ends : Ends rest) : splitDigits (digits ++ rest) = (digits, rest) := by
  have stop : rest.takeWhile Char.isDigit = [] ∧ rest.dropWhile Char.isDigit = rest := by
    rcases ends with rfl | ⟨more, rfl⟩ | ⟨more, rfl⟩
    · exact ⟨rfl, rfl⟩
    · exact ⟨rfl, rfl⟩
    · exact ⟨rfl, rfl⟩
  rw [splitDigits, List.span_eq_takeWhile_dropWhile, List.takeWhile_append_of_pos all, stop.1,
    List.dropWhile_append_of_pos all, stop.2, List.append_nil]

theorem head_toDigits {n : Nat} (some : n ≠ 0) : (Nat.toDigits 10 n).head? ≠ .some '0' := by
  induction n using Nat.strongRecOn with
  | ind n ih =>
    by_cases small : n < 10
    · have other : ∀ d < 10, d ≠ 0 → Nat.digitChar d ≠ '0' := by decide
      rw [Nat.toDigits_of_lt_base small, List.head?_cons, Ne, Option.some.injEq]
      exact other n small some
    · have large : 10 ≤ n := Nat.le_of_not_lt small
      have before := ih (n / 10) (by omega) (by omega)
      rw [Nat.toDigits_of_base_le (by decide) large, List.head?_append_of_ne_nil _ Nat.toDigits_ne_nil]
      exact before

theorem foldl_toDigits (n : Nat) :
    (Nat.toDigits 10 n).foldl (fun n c => n * 10 + (c.toNat - '0'.toNat)) 0 = n := by
  have same := Nat.ofDigitChars_ten_toDigits (n := n)
  unfold Nat.ofDigitChars at same
  refine Eq.trans ?_ same
  congr 1
  funext value c
  rw [Nat.mul_comm]

theorem readWhole?_toDigits (n : Nat) {rest : Rest} (ends : Ends rest) :
    readWhole? (Nat.toDigits 10 n ++ rest) = some (n, rest) := by
  have digits : ∀ c ∈ Nat.toDigits 10 n, c.isDigit = true := fun c member =>
    Nat.isDigit_of_mem_toDigits (by decide) (by decide) member
  unfold readWhole?
  rw [span_digits digits ends]
  by_cases zero : n = 0
  · subst zero
    rfl
  · have head := head_toDigits zero
    have value := foldl_toDigits n
    have nonempty : Nat.toDigits 10 n ≠ [] := Nat.toDigits_ne_nil
    cases given : Nat.toDigits 10 n with
    | nil => exact absurd given nonempty
    | cons c cs =>
      rw [given] at head value
      have other : c ≠ '0' := fun same => head (by rw [same, List.head?_cons])
      split
      case h_1 empty => cases empty
      case h_2 one => cases one; exact absurd rfl other
      case h_3 many => cases many; exact absurd rfl other
      case h_4 all => cases all; rw [value]

theorem readNumber?_toDigits (n : Nat) {rest : Rest} (ends : Ends rest) :
    readNumber? (Nat.toDigits 10 n ++ rest) = some (.natural n, rest) := by
  have whole := readWhole?_toDigits n ends
  have fraction : readFraction? rest = some (false, rest) := by
    rcases ends with rfl | ⟨more, rfl⟩ | ⟨more, rfl⟩ <;> rfl
  have exponent : readExponent? rest = some (false, rest) := by
    rcases ends with rfl | ⟨more, rfl⟩ | ⟨more, rfl⟩ <;> rfl
  have sign : ∀ more, Nat.toDigits 10 n ++ rest ≠ '-' :: more := by
    intro more same
    cases given : Nat.toDigits 10 n with
    | nil => exact Nat.toDigits_ne_nil given
    | cons c cs =>
      rw [given, List.cons_append, List.cons.injEq] at same
      have digit := Nat.isDigit_of_mem_toDigits (b := 10) (n := n) (c := c) (by decide) (by decide)
        (by rw [given]; exact List.mem_cons_self)
      rw [same.1] at digit
      contradiction
  unfold readNumber?
  simp only [whole, fraction, exponent, bind, Option.bind_some, pure, Bool.or_self,
    if_false, Bool.false_eq_true]

theorem skipBlanks_append {blanks : List Char} (all : ∀ c ∈ blanks, isBlank c = true) (cs : Rest) :
    skipBlanks (blanks ++ cs) = skipBlanks cs := List.dropWhile_append_of_pos all

theorem skipBlanks_cons {c : Char} (shown : isBlank c = false) (cs : Rest) :
    skipBlanks (c :: cs) = c :: cs := by
  rw [skipBlanks, List.dropWhile_cons_of_neg (by rw [shown]; decide)]

theorem skipBlanks_skipBlanks (cs : Rest) : skipBlanks (skipBlanks cs) = skipBlanks cs :=
  List.dropWhile_idempotent _ cs

def indent (level : Nat) : List Char := List.replicate (2 * level) ' '

theorem isBlank_of_mem_indent {level : Nat} {c : Char} (member : c ∈ indent level) :
    isBlank c = true := by
  rw [List.eq_of_mem_replicate member]
  rfl

theorem skipBlanks_indent (level : Nat) (cs : Rest) : skipBlanks (indent level ++ cs) = skipBlanks cs :=
  skipBlanks_append (fun _ member => isBlank_of_mem_indent member) cs

theorem skipBlanks_newline (cs : Rest) : skipBlanks ('\n' :: cs) = skipBlanks cs := rfl

theorem readValue?_blanks {a b : Rest} (same : skipBlanks a = skipBlanks b) (fuel depth : Nat) :
    readValue? fuel depth a = readValue? fuel depth b := by
  cases fuel with
  | zero => rw [readValue?, readValue?]
  | succ fuel => rw [readValue?, readValue?, same]

theorem readItems?_blanks {a b : Rest} (same : skipBlanks a = skipBlanks b) (fuel depth : Nat) :
    readItems? fuel depth a = readItems? fuel depth b := by
  cases fuel with
  | zero => rw [readItems?, readItems?]
  | succ fuel => rw [readItems?, readItems?, readValue?_blanks same]

theorem readFields?_blanks {a b : Rest} (same : skipBlanks a = skipBlanks b) (fuel depth : Nat) :
    readFields? fuel depth a = readFields? fuel depth b := by
  cases fuel with
  | zero => rw [readFields?, readFields?]
  | succ fuel => rw [readFields?, readFields?, same]

/-- The texts on lines of their own, with commas between them, and what closes them. -/
def lines (level : Nat) (closing : Rest) : List (List Char) → Rest
  | [] => closing
  | [text] => indent level ++ (text ++ '\n' :: closing)
  | text :: next :: rest =>
    indent level ++ (text ++ ',' :: '\n' :: lines level closing (next :: rest))

theorem intercalate_lines (level : Nat) (text : List Char) (texts : List (List Char))
    (closing : Rest) :
    ",\n".toList.intercalate ((text :: texts).map (indent level ++ ·)) ++ '\n' :: closing =
      lines level closing (text :: texts) := by
  induction texts generalizing text with
  | nil =>
    simp only [List.map_cons, List.map_nil, List.intercalate_singleton, lines, List.append_assoc]
  | cons next rest ih =>
    rw [lines, ← ih]
    simp

theorem toList_enclose_nil (openBracket closeBracket : String) (level : Nat) :
    (enclose openBracket closeBracket level []).toList = openBracket.toList ++ closeBracket.toList := by
  simp only [enclose, List.isEmpty_nil, if_true, String.toList_append]

theorem toList_enclose (openBracket closeBracket text : String) (texts : List String) (level : Nat) :
    (enclose openBracket closeBracket level (text :: texts)).toList =
      openBracket.toList ++ '\n' :: lines (level + 1) (indent level ++ closeBracket.toList)
        (text.toList :: texts.map String.toList) := by
  have indented : ∀ text : String,
      (indentation (level + 1) ++ text).toList = indent (level + 1) ++ text.toList := fun text => by
    rw [String.toList_append, indentation, String.toList_ofList, indent]
  rw [← intercalate_lines]
  simp only [enclose, List.isEmpty_cons, if_false, Bool.false_eq_true, String.toList_append,
    String.toList_intercalate, List.map_map, List.map_cons, Function.comp_def, indented]
  simp [indentation, indent]

theorem lines_append (level : Nat) (closing tail : Rest) (text : List Char)
    (texts : List (List Char)) :
    lines level closing (text :: texts) ++ tail = lines level (closing ++ tail) (text :: texts) := by
  induction texts generalizing text with
  | nil => simp only [lines, List.append_assoc, List.cons_append]
  | cons next rest ih => simp only [lines, List.append_assoc, List.cons_append, ih]

/-- How many characters there are on lines at least. -/
def weight (texts : List (List Char)) : Nat := (texts.map fun text => text.length + 1).sum

theorem weight_cons (text : List Char) (texts : List (List Char)) :
    weight (text :: texts) = text.length + 1 + weight texts := by
  rw [weight, List.map_cons, List.sum_cons, weight]

theorem weight_le_length_lines (level : Nat) (closing : Rest) (texts : List (List Char)) :
    weight texts ≤ (lines level closing texts).length := by
  induction texts with
  | nil => exact Nat.zero_le _
  | cons text texts ih =>
    have one := weight_cons text texts
    cases texts with
    | nil => simp [lines, weight]; omega
    | cons next rest =>
      simp only [lines, List.length_append, List.length_cons]
      omega

mutual

/-- Values that are read back where `depth` more levels may be opened: numbers other
than natural ones and strings without a text are not written. -/
def Readable : (depth : Nat) → JsonValue → Prop
  | _, .null | _, .boolean _ | _, .natural _ => True
  | _, .otherNumber => False
  | _, .string content => content.isSome
  | 0, .array _ | 0, .object _ => False
  | depth + 1, .array items => ReadableItems depth items
  | depth + 1, .object fields => ReadableFields depth fields

def ReadableItems : (depth : Nat) → List JsonValue → Prop
  | _, [] => True
  | depth, item :: rest => Readable depth item ∧ ReadableItems depth rest

def ReadableFields : (depth : Nat) → List (Option String × JsonValue) → Prop
  | _, [] => True
  | depth, (key, value) :: rest =>
    key.isSome ∧ Readable depth value ∧ ReadableFields depth rest

end

theorem readable_text (depth : Nat) (content : String) : Readable depth (.text content) := by
  rw [JsonValue.text, Readable]
  rfl

theorem readable_natural (depth n : Nat) : Readable depth (.natural n) := by
  rw [Readable]
  trivial

theorem readable_ofFields {depth : Nat} {fields : List (String × JsonValue)}
    (each : ∀ field ∈ fields, Readable depth field.2) :
    Readable (depth + 1) (.ofFields fields) := by
  rw [JsonValue.ofFields, Readable]
  induction fields with
  | nil => rw [List.map_nil, ReadableFields]; trivial
  | cons field rest ih =>
    rw [List.map_cons, ReadableFields]
    exact ⟨rfl, each field List.mem_cons_self,
      ih fun other member => each other (List.mem_cons_of_mem _ member)⟩

theorem isBlank_of_isDigit {c : Char} (digit : c.isDigit = true) : isBlank c = false := by
  by_contra blank
  simp only [Bool.not_eq_false, isBlank, Bool.or_eq_true, decide_eq_true_eq] at blank
  rcases blank with ((rfl | rfl) | rfl) | rfl <;> contradiction

/-- What a written value begins with is neither a blank nor a closing bracket. -/
theorem toList_render (level : Nat) (value : JsonValue) :
    ∃ c cs, (render level value).toList = c :: cs ∧ isBlank c = false ∧ c ≠ ']' := by
  cases value with
  | null | otherNumber => exact ⟨'n', "ull".toList, by rw [render]; rfl, rfl, by decide⟩
  | boolean value =>
    cases value with
    | false => exact ⟨'f', "alse".toList, by rw [render]; rfl, rfl, by decide⟩
    | true => exact ⟨'t', "rue".toList, by rw [render]; rfl, rfl, by decide⟩
  | natural n =>
    cases given : Nat.toDigits 10 n with
    | nil => exact absurd given Nat.toDigits_ne_nil
    | cons c cs =>
      have digit := Nat.isDigit_of_mem_toDigits (b := 10) (n := n) (c := c) (by decide) (by decide)
        (by rw [given]; exact List.mem_cons_self)
      refine ⟨c, cs, ?_, ?_, ?_⟩
      · rw [render, Nat.toString_eq_repr, Nat.toList_repr, given]
      · exact isBlank_of_isDigit digit
      · rintro rfl
        contradiction
  | string content => exact ⟨'"', _, by rw [render, toList_quote], rfl, by decide⟩
  | array items =>
    cases items with
    | nil => exact ⟨'[', [']'], by rw [render, renderItems, toList_enclose_nil]; rfl, rfl, by decide⟩
    | cons item rest =>
      exact ⟨'[', _, by rw [render, renderItems, toList_enclose]; rfl, rfl, by decide⟩
  | object fields =>
    cases fields with
    | nil =>
      exact ⟨'\x7b', ['\x7d'], by rw [render, renderFields, toList_enclose_nil]; rfl, rfl,
        by decide⟩
    | cons field rest =>
      exact ⟨'\x7b', _, by rw [render, renderFields, toList_enclose]; rfl, rfl, by decide⟩

theorem readValue?_digit {c : Char} (digit : c.isDigit = true) (fuel depth : Nat) (cs : Rest) :
    readValue? (fuel + 1) depth (c :: cs) = readNumber? (c :: cs) := by
  rw [readValue?, skipBlanks_cons (isBlank_of_isDigit digit)]
  split
  case h_7 => rfl
  all_goals
    rename_i given
    rw [(List.cons.inj given).1] at digit
    contradiction

theorem toList_field (level : Nat) (key : String) (value : JsonValue) :
    (quote key ++ ": " ++ render level value).toList =
      '"' :: (key.toList.flatMap (fun c => (escapeChar c).toList) ++
        '"' :: ':' :: ' ' :: (render level value).toList) := by
  simp only [String.toList_append, toList_quote, List.cons_append, List.append_assoc]
  rfl

theorem readValue?_array {fuel depth : Nat} {cs rest tail : Rest} {c : Char}
    {items : List JsonValue} (head : skipBlanks cs = c :: rest) (other : c ≠ ']')
    (read : readItems? fuel depth cs = some (items, tail)) :
    readValue? (fuel + 1) (depth + 1) ('[' :: cs) = some (.array items, tail) := by
  rw [readValue?, skipBlanks_cons (c := '[') rfl]
  simp only [Nat.add_eq_zero_iff, Nat.succ_ne_self, and_false, if_false, Nat.add_sub_cancel]
  split
  case h_1 closed =>
    rw [head] at closed
    exact absurd (List.cons.inj closed).1 other
  case h_2 => rw [readItems?_blanks (skipBlanks_skipBlanks cs), read]; rfl

theorem readValue?_object {fuel depth : Nat} {cs rest tail : Rest} {c : Char}
    {fields : List (Option String × JsonValue)} (head : skipBlanks cs = c :: rest)
    (other : c ≠ '\x7d') (read : readFields? fuel depth cs = some (fields, tail)) :
    readValue? (fuel + 1) (depth + 1) ('\x7b' :: cs) = some (.object fields, tail) := by
  rw [readValue?, skipBlanks_cons (c := '\x7b') rfl]
  simp only [Nat.add_eq_zero_iff, Nat.succ_ne_self, and_false, if_false, Nat.add_sub_cancel]
  split
  case h_1 closed =>
    rw [head] at closed
    exact absurd (List.cons.inj closed).1 other
  case h_2 => rw [readFields?_blanks (skipBlanks_skipBlanks cs), read]; rfl

theorem skipBlanks_lines (level : Nat) (closing : Rest) {text cs : List Char} {c : Char}
    (texts : List (List Char)) (begins : text = c :: cs) (shown : isBlank c = false) :
    ∃ rest, skipBlanks ('\n' :: lines level closing (text :: texts)) = c :: rest := by
  rw [skipBlanks_newline]
  cases texts with
  | nil =>
    rw [lines, skipBlanks_indent, begins, List.cons_append, skipBlanks_cons shown]
    exact ⟨_, rfl⟩
  | cons next texts =>
    rw [lines, skipBlanks_indent, begins, List.cons_append, skipBlanks_cons shown]
    exact ⟨_, rfl⟩

/-- A written value is read back wherever it stands. -/
def ReadBack (value : JsonValue) : Prop :=
  ∀ (level fuel depth : Nat) (tail : Rest), Readable depth value →
    (render level value).toList.length ≤ fuel → Ends tail →
    readValue? fuel depth ((render level value).toList ++ tail) = some (value, tail)

/-- Written items, of one at least, are read back up to the closing bracket. -/
def ItemsReadBack (items : List JsonValue) : Prop :=
  ∀ (level fuel depth : Nat) (closing tail : Rest), items ≠ [] → ReadableItems depth items →
    weight ((renderItems level items).map String.toList) ≤ fuel →
    skipBlanks closing = ']' :: tail →
    readItems? fuel depth (lines level closing ((renderItems level items).map String.toList)) =
      some (items, tail)

def FieldsReadBack (fields : List (Option String × JsonValue)) : Prop :=
  ∀ (level fuel depth : Nat) (closing tail : Rest), fields ≠ [] → ReadableFields depth fields →
    weight ((renderFields level fields).map String.toList) ≤ fuel →
    skipBlanks closing = '\x7d' :: tail →
    readFields? fuel depth (lines level closing ((renderFields level fields).map String.toList)) =
      some (fields, tail)

theorem ItemsReadBack.cons {item : JsonValue} {items : List JsonValue} (first : ReadBack item)
    (others : ItemsReadBack items) : ItemsReadBack (item :: items) := by
  intro level fuel depth closing tail _ readable enough closed
  rw [ReadableItems] at readable
  rw [renderItems, List.map_cons, weight_cons] at enough
  rw [renderItems, List.map_cons]
  obtain ⟨fuel, rfl⟩ : ∃ more, fuel = more + 1 := ⟨fuel - 1, by omega⟩
  have read (rest : Rest) (ends : Ends rest) :=
    first level fuel depth rest readable.1 (by omega) ends
  cases items with
  | nil =>
    rw [renderItems, List.map_nil, lines, readItems?,
      readValue?_blanks (skipBlanks_indent level _), read _ (.inr (.inr ⟨_, rfl⟩))]
    simp only [bind, Option.bind_some, skipBlanks_newline, closed]
    rfl
  | cons next rest =>
    have more := others level fuel depth closing tail (List.cons_ne_nil _ _) readable.2
      (by omega) closed
    rw [renderItems, List.map_cons] at more ⊢
    rw [lines, readItems?, readValue?_blanks (skipBlanks_indent level _),
      read _ (.inr (.inl ⟨_, rfl⟩))]
    simp only [bind, Option.bind_some, skipBlanks_cons (c := ',') rfl,
      readItems?_blanks (skipBlanks_newline _), more]
    rfl

theorem FieldsReadBack.cons {key : Option String} {value : JsonValue}
    {fields : List (Option String × JsonValue)} (first : ReadBack value)
    (others : FieldsReadBack fields) : FieldsReadBack ((key, value) :: fields) := by
  intro level fuel depth closing tail _ readable enough closed
  rw [ReadableFields] at readable
  obtain ⟨key, rfl⟩ := Option.isSome_iff_exists.mp readable.1
  rw [renderFields, List.map_cons, Option.getD_some, toList_field, weight_cons] at enough
  simp only [List.length_cons, List.length_append] at enough
  rw [renderFields, List.map_cons, Option.getD_some, toList_field]
  obtain ⟨fuel, rfl⟩ : ∃ more, fuel = more + 1 := ⟨fuel - 1, by omega⟩
  have read (rest : Rest) (ends : Ends rest) :=
    first level fuel depth rest readable.2.1 (by omega) ends
  have space (rest : Rest) : skipBlanks (' ' :: rest) = skipBlanks rest := rfl
  cases fields with
  | nil =>
    rw [renderFields, List.map_nil, lines, readFields?, skipBlanks_indent]
    simp only [List.cons_append, List.append_assoc, skipBlanks_cons (c := '"') rfl,
      readString_quote, bind, Option.bind_some, skipBlanks_cons (c := ':') rfl,
      readValue?_blanks (space _), read _ (.inr (.inr ⟨_, rfl⟩)), skipBlanks_newline, closed]
    rfl
  | cons next rest =>
    have more := others level fuel depth closing tail (List.cons_ne_nil _ _) readable.2.2
      (by omega) closed
    rw [renderFields, List.map_cons] at more ⊢
    rw [lines, readFields?, skipBlanks_indent]
    simp only [List.cons_append, List.append_assoc, skipBlanks_cons (c := '"') rfl,
      readString_quote, bind, Option.bind_some, skipBlanks_cons (c := ':') rfl,
      readValue?_blanks (space _), read _ (.inr (.inl ⟨_, rfl⟩)), skipBlanks_cons (c := ',') rfl,
      readFields?_blanks (skipBlanks_newline _), more]
    rfl

/-- There is fuel for the first character. -/
theorem exists_fuel {level fuel : Nat} {value : JsonValue}
    (enough : (render level value).toList.length ≤ fuel) : ∃ more, fuel = more + 1 := by
  obtain ⟨c, cs, begins, _⟩ := toList_render level value
  rw [begins, List.length_cons] at enough
  exact ⟨fuel - 1, by omega⟩

namespace ReadBack

theorem null : ReadBack .null := by
  intro level fuel depth tail _ enough _
  obtain ⟨fuel, rfl⟩ := exists_fuel enough
  rw [render]
  show readValue? (fuel + 1) depth ('n' :: 'u' :: 'l' :: 'l' :: tail) = _
  rw [readValue?]
  rfl

theorem boolean (value : Bool) : ReadBack (.boolean value) := by
  intro level fuel depth tail _ enough _
  obtain ⟨fuel, rfl⟩ := exists_fuel enough
  rw [render]
  cases value with
  | true =>
    show readValue? (fuel + 1) depth ('t' :: 'r' :: 'u' :: 'e' :: tail) = _
    rw [readValue?]
    rfl
  | false =>
    show readValue? (fuel + 1) depth ('f' :: 'a' :: 'l' :: 's' :: 'e' :: tail) = _
    rw [readValue?]
    rfl

theorem natural (n : Nat) : ReadBack (.natural n) := by
  intro level fuel depth tail _ enough ends
  obtain ⟨fuel, rfl⟩ := exists_fuel enough
  rw [render, Nat.toString_eq_repr, Nat.toList_repr]
  have number := readNumber?_toDigits n ends
  cases given : Nat.toDigits 10 n with
  | nil => exact absurd given Nat.toDigits_ne_nil
  | cons c cs =>
    have digit := Nat.isDigit_of_mem_toDigits (b := 10) (n := n) (c := c) (by decide) (by decide)
      (by rw [given]; exact List.mem_cons_self)
    rw [given, List.cons_append] at number
    rw [List.cons_append, readValue?_digit digit, number]

theorem string (content : Option String) : ReadBack (.string content) := by
  intro level fuel depth tail readable enough _
  obtain ⟨fuel, rfl⟩ := exists_fuel enough
  rw [Readable] at readable
  obtain ⟨text, rfl⟩ := Option.isSome_iff_exists.mp readable
  rw [render, toList_quote, List.cons_append, List.append_assoc]
  simp only [readValue?, skipBlanks_cons (c := '"') rfl, Option.getD_some,
    List.singleton_append, readString_quote]
  rfl

theorem array {items : List JsonValue} (inner : ItemsReadBack items) : ReadBack (.array items) := by
  intro level fuel depth tail readable enough _
  obtain ⟨fuel, rfl⟩ := exists_fuel enough
  cases depth with
  | zero => rw [Readable] at readable; exact readable.elim
  | succ depth =>
    rw [Readable] at readable
    cases items with
    | nil =>
      rw [render, renderItems, toList_enclose_nil]
      show readValue? (fuel + 1) (depth + 1) ('[' :: ']' :: tail) = _
      rw [readValue?]
      rfl
    | cons item rest =>
      obtain ⟨c, cs, begins, shown, other⟩ := toList_render (level + 1) item
      obtain ⟨more, head⟩ := skipBlanks_lines (level + 1) (indent level ++ ']' :: tail)
        ((renderItems (level + 1) rest).map String.toList) begins shown
      rw [render, renderItems, toList_enclose, List.length_append, List.length_cons] at enough
      have weighed := weight_le_length_lines (level + 1) (indent level ++ "]".toList)
        ((render (level + 1) item).toList :: (renderItems (level + 1) rest).map String.toList)
      have body := inner (level + 1) fuel depth _ tail (List.cons_ne_nil _ _) readable
        (by rw [renderItems, List.map_cons]; omega) (skipBlanks_indent level (']' :: tail))
      rw [renderItems, List.map_cons, ← readItems?_blanks (skipBlanks_newline _)] at body
      rw [render, renderItems, toList_enclose, List.append_assoc, List.cons_append, lines_append,
        List.append_assoc]
      exact readValue?_array head other body

theorem object {fields : List (Option String × JsonValue)} (inner : FieldsReadBack fields) :
    ReadBack (.object fields) := by
  intro level fuel depth tail readable enough _
  obtain ⟨fuel, rfl⟩ := exists_fuel enough
  cases depth with
  | zero => rw [Readable] at readable; exact readable.elim
  | succ depth =>
    rw [Readable] at readable
    cases fields with
    | nil =>
      rw [render, renderFields, toList_enclose_nil]
      show readValue? (fuel + 1) (depth + 1) ('\x7b' :: '\x7d' :: tail) = _
      rw [readValue?]
      rfl
    | cons field rest =>
      obtain ⟨key, value⟩ := field
      obtain ⟨more, head⟩ := skipBlanks_lines (level + 1) (indent level ++ '\x7d' :: tail)
        ((renderFields (level + 1) rest).map String.toList)
        (toList_field (level + 1) (key.getD "") value) rfl
      rw [render, renderFields, toList_enclose, List.length_append, List.length_cons] at enough
      have weighed := weight_le_length_lines (level + 1) (indent level ++ "\x7d".toList)
        ((quote (key.getD "") ++ ": " ++ render (level + 1) value).toList ::
          (renderFields (level + 1) rest).map String.toList)
      have body := inner (level + 1) fuel depth _ tail (List.cons_ne_nil _ _) readable
        (by rw [renderFields, List.map_cons]; omega) (skipBlanks_indent level ('\x7d' :: tail))
      rw [renderFields, List.map_cons, ← readFields?_blanks (skipBlanks_newline _)] at body
      rw [render, renderFields, toList_enclose, List.append_assoc, List.cons_append, lines_append,
        List.append_assoc]
      exact readValue?_object head (by decide) body

end ReadBack

mutual

theorem readBack : (value : JsonValue) → ReadBack value
  | .null => .null
  | .boolean value => .boolean value
  | .natural n => .natural n
  | .otherNumber => fun _ _ _ _ readable => by rw [Readable] at readable; exact readable.elim
  | .string content => .string content
  | .array items => .array (itemsReadBack items)
  | .object fields => .object (fieldsReadBack fields)

theorem itemsReadBack : (items : List JsonValue) → ItemsReadBack items
  | [] => fun _ _ _ _ _ some => absurd rfl some
  | item :: rest => .cons (readBack item) (itemsReadBack rest)

theorem fieldsReadBack : (fields : List (Option String × JsonValue)) → FieldsReadBack fields
  | [] => fun _ _ _ _ _ some => absurd rfl some
  | (_, value) :: rest => .cons (readBack value) (fieldsReadBack rest)

end

/-- What the writer writes, the reader reads back. -/
theorem parse?_pretty {value : JsonValue} (readable : Readable maxDepth value) :
    parse? value.pretty = some value := by
  have read := readBack value 0 (2 * value.pretty.toList.length + 2) maxDepth [] readable
    (by rw [pretty]; omega) (.inl rfl)
  rw [List.append_nil] at read
  rw [pretty] at read ⊢
  simp only [parse?, read, bind, Option.bind_some, skipBlanks, List.dropWhile_nil, List.isEmpty_nil,
    if_true, pure]

end ImageDerivative.JsonReader
