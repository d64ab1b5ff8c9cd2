import Mathlib.Data.List.Basic
import Mathlib.Data.String.Basic

/-!
# JSON values and their compact text

Values and the text a compact serializer writes for them.  Every text but
that of a number delimits itself: no text is a proper prefix of another value's
text followed by anything.  A number ends only where a character that cannot
belong to a number begins, so adjacent numbers run together.
-/

namespace Json

def isNumberChar (c : Char) : Bool :=
  c.isDigit || c = '-' || c = '+' || c = '.' || c = 'e' || c = 'E'

/-- A number is known by the text that is written for it. -/
structure Number where
  text : List Char
  nonempty : text ≠ []
  numeric : ∀ c ∈ text, isNumberChar c = true
  deriving DecidableEq

theorem isNumberChar_of_isDigit {c : Char} (digit : c.isDigit = true) :
    isNumberChar c = true := by
  simp [isNumberChar, digit]

def Number.ofNat (n : Nat) : Number where
  text := Nat.toDigits 10 n
  nonempty := Nat.toDigits_ne_nil
  numeric _ member := isNumberChar_of_isDigit
    (Nat.isDigit_of_mem_toDigits (by decide) (by decide) member)

inductive Value where
  | null
  | bool (value : Bool)
  | number (value : Number)
  | string (value : String)
  | array (items : List Value)
  | object (fields : List (String × Value))

/-- The escapes of a compact writer: quotes, backslashes, control characters. -/
def escapeChar (c : Char) : List Char :=
  if c = '"' then ['\\', '"']
  else if c = '\\' then ['\\', '\\']
  else if c = '\x08' then ['\\', 'b']
  else if c = '\x0c' then ['\\', 'f']
  else if c = '\n' then ['\\', 'n']
  else if c = '\r' then ['\\', 'r']
  else if c = '\t' then ['\\', 't']
  else if c.toNat < 0x20 then
    ['\\', 'u', '0', '0', Nat.digitChar (c.toNat / 16), Nat.digitChar (c.toNat % 16)]
  else [c]

def escaped (cs : List Char) : List Char :=
  cs.flatMap escapeChar

def stringText (s : String) : List Char :=
  '"' :: (escaped s.toList ++ ['"'])

mutual

def Value.text : Value → List Char
  | .null => ['n', 'u', 'l', 'l']
  | .bool true => ['t', 'r', 'u', 'e']
  | .bool false => ['f', 'a', 'l', 's', 'e']
  | .number n => n.text
  | .string s => stringText s
  | .array items => '[' :: itemsText items
  | .object fields => '{' :: fieldsText fields

def itemsText : List Value → List Char
  | [] => [']']
  | item :: rest => item.text ++ moreItemsText rest

def moreItemsText : List Value → List Char
  | [] => [']']
  | item :: rest => ',' :: (item.text ++ moreItemsText rest)

def fieldsText : List (String × Value) → List Char
  | [] => ['}']
  | (key, value) :: rest => stringText key ++ ':' :: (value.text ++ moreFieldsText rest)

def moreFieldsText : List (String × Value) → List Char
  | [] => ['}']
  | (key, value) :: rest =>
      ',' :: (stringText key ++ ':' :: (value.text ++ moreFieldsText rest))

end

/-! ## Strings -/

def hexValue (c : Char) : Nat :=
  if c.isDigit then c.toNat - '0'.toNat else c.toNat - 'a'.toNat + 10

theorem hexValue_digitChar : ∀ d < 16, hexValue (Nat.digitChar d) = d := by
  decide

/-- Read one character of a string body back; `none` at the closing quote. -/
def unescapeChar : List Char → Option (Char × List Char)
  | '\\' :: 'u' :: _ :: _ :: high :: low :: rest =>
      some (Char.ofNat (16 * hexValue high + hexValue low), rest)
  | '\\' :: 'b' :: rest => some ('\x08', rest)
  | '\\' :: 'f' :: rest => some ('\x0c', rest)
  | '\\' :: 'n' :: rest => some ('\n', rest)
  | '\\' :: 'r' :: rest => some ('\r', rest)
  | '\\' :: 't' :: rest => some ('\t', rest)
  | '\\' :: c :: rest => some (c, rest)
  | '"' :: _ => none
  | c :: rest => some (c, rest)
  | [] => none

theorem unescapeChar_escapeChar (c : Char) (rest : List Char) :
    unescapeChar (escapeChar c ++ rest) = some (c, rest) := by
  unfold escapeChar
  split_ifs with quote backslash b f n r t control
  all_goals try (subst c; rfl)
  · have high := hexValue_digitChar (c.toNat / 16) (by omega)
    have low := hexValue_digitChar (c.toNat % 16) (by omega)
    have whole : 16 * (c.toNat / 16) + c.toNat % 16 = c.toNat := by omega
    simp [unescapeChar, high, low, whole]
  · simp [unescapeChar, backslash]

theorem unescapeChar_quote (rest : List Char) : unescapeChar ('"' :: rest) = none := rfl

theorem escaped_append_inj {cs ds x y : List Char}
    (same : escaped cs ++ '"' :: x = escaped ds ++ '"' :: y) : cs = ds ∧ x = y := by
  induction cs generalizing ds with
  | nil =>
      cases ds with
      | nil => simpa [escaped] using same
      | cons d ds =>
          have read := congrArg unescapeChar same
          simp only [escaped, List.flatMap_nil, List.nil_append, List.flatMap_cons,
            List.append_assoc, unescapeChar_escapeChar, unescapeChar_quote, reduceCtorEq] at read
  | cons c cs inductionHypothesis =>
      have read := congrArg unescapeChar same
      cases ds with
      | nil =>
          simp only [escaped, List.flatMap_nil, List.nil_append, List.flatMap_cons,
            List.append_assoc, unescapeChar_escapeChar, unescapeChar_quote, reduceCtorEq] at read
      | cons d ds =>
          simp only [escaped, List.flatMap_cons, List.append_assoc, unescapeChar_escapeChar,
            Option.some.injEq, Prod.mk.injEq] at read
          obtain ⟨rfl, later⟩ := read
          obtain ⟨rfl, tails⟩ := inductionHypothesis later
          exact ⟨rfl, tails⟩

theorem stringText_append_inj {s t : String} {x y : List Char}
    (same : stringText s ++ x = stringText t ++ y) : s = t ∧ x = y := by
  simp only [stringText, List.cons_append, List.append_assoc, List.cons.injEq, true_and,
    List.nil_append] at same
  obtain ⟨chars, tails⟩ := escaped_append_inj same
  exact ⟨String.toList_inj.mp chars, tails⟩

/-! ## Values -/

def Value.isNumber : Value → Bool
  | .number _ => true
  | _ => false

/-- The list does not go on with a character of a number. -/
def Stops : List Char → Prop
  | [] => True
  | c :: _ => isNumberChar c = false

/-- What may follow the text of a value without running into it. -/
def Delimited (value : Value) (rest : List Char) : Prop :=
  value.isNumber = true → Stops rest

theorem numeric_append_inj {s t x y : List Char}
    (numericS : ∀ c ∈ s, isNumberChar c = true) (numericT : ∀ c ∈ t, isNumberChar c = true)
    (stopsX : Stops x) (stopsY : Stops y) (same : s ++ x = t ++ y) : s = t ∧ x = y := by
  have taken : ∀ {u rest : List Char}, (∀ c ∈ u, isNumberChar c = true) → Stops rest →
      (u ++ rest).takeWhile isNumberChar = u := by
    intro u rest numeric stops
    rw [List.takeWhile_append_of_pos numeric]
    cases rest with
    | nil => simp
    | cons c rest => simp [show isNumberChar c = false from stops]
  obtain rfl : s = t := by rw [← taken numericS stopsX, same, taken numericT stopsY]
  exact ⟨rfl, List.append_cancel_left same⟩

theorem number_append_inj {n m : Number} {x y : List Char} (stopsX : Stops x)
    (stopsY : Stops y) (same : n.text ++ x = m.text ++ y) : n = m ∧ x = y := by
  obtain ⟨texts, tails⟩ := numeric_append_inj n.numeric m.numeric stopsX stopsY same
  obtain ⟨text, _, _⟩ := n
  obtain ⟨text', _, _⟩ := m
  cases texts
  exact ⟨rfl, tails⟩

/-- The kind of a value shows in the first character of its text. -/
def Value.kind : Value → Nat
  | .null => 0
  | .bool _ => 1
  | .number _ => 2
  | .string _ => 3
  | .array _ => 4
  | .object _ => 5

def leadKind : List Char → Nat
  | [] => 6
  | c :: _ =>
      if c = 'n' then 0
      else if c = 't' ∨ c = 'f' then 1
      else if isNumberChar c then 2
      else if c = '"' then 3
      else if c = '[' then 4
      else if c = '{' then 5
      else 6

theorem leadKind_numeric {text : List Char} (nonempty : text ≠ [])
    (numeric : ∀ c ∈ text, isNumberChar c = true) (rest : List Char) :
    leadKind (text ++ rest) = 2 := by
  cases text with
  | nil => exact absurd rfl nonempty
  | cons c cs =>
      have number := numeric c List.mem_cons_self
      have notN : c ≠ 'n' := by rintro rfl; simp [isNumberChar] at number
      have notT : c ≠ 't' := by rintro rfl; simp [isNumberChar] at number
      have notF : c ≠ 'f' := by rintro rfl; simp [isNumberChar] at number
      simp [leadKind, number, notN, notT, notF]

theorem leadKind_text (value : Value) (rest : List Char) :
    leadKind (value.text ++ rest) = value.kind := by
  cases value with
  | bool value => cases value <;> rfl
  | number n => exact leadKind_numeric n.nonempty n.numeric rest
  | _ => rfl

theorem stops_moreItemsText (items : List Value) (rest : List Char) :
    Stops (moreItemsText items ++ rest) := by
  cases items <;> rfl

theorem stops_moreFieldsText (fields : List (String × Value)) (rest : List Char) :
    Stops (moreFieldsText fields ++ rest) := by
  cases fields <;> rfl

theorem text_ne_closing (value : Value) (x y : List Char) :
    value.text ++ x ≠ ']' :: y := by
  intro same
  have kinds : value.kind = 6 := by
    rw [← leadKind_text value x, same]
    rfl
  cases value <;> simp [Value.kind] at kinds

mutual

/-- Texts can be told apart from the front, numbers only where they are
delimited. -/
theorem text_append_inj : ∀ (v w : Value) {x y : List Char},
    Delimited v x → Delimited w y → v.text ++ x = w.text ++ y → v = w ∧ x = y
  | v, w, x, y, delimitedV, delimitedW, same => by
      have kinds : v.kind = w.kind := by
        rw [← leadKind_text v x, same, leadKind_text w y]
      match v, w, kinds with
      | .null, .null, _ => exact ⟨rfl, by simpa [Value.text] using same⟩
      | .bool b, .bool c, _ => cases b <;> cases c <;> simp_all [Value.text]
      | .number n, .number m, _ =>
          obtain ⟨rfl, tails⟩ := number_append_inj (delimitedV rfl) (delimitedW rfl) same
          exact ⟨rfl, tails⟩
      | .string s, .string t, _ =>
          obtain ⟨rfl, tails⟩ := stringText_append_inj same
          exact ⟨rfl, tails⟩
      | .array items, .array others, _ =>
          simp only [Value.text, List.cons_append, List.cons.injEq, true_and] at same
          obtain ⟨rfl, tails⟩ := itemsText_append_inj items others same
          exact ⟨rfl, tails⟩
      | .object fields, .object others, _ =>
          simp only [Value.text, List.cons_append, List.cons.injEq, true_and] at same
          obtain ⟨rfl, tails⟩ := fieldsText_append_inj fields others same
          exact ⟨rfl, tails⟩

theorem itemsText_append_inj : ∀ (items others : List Value) {x y : List Char},
    itemsText items ++ x = itemsText others ++ y → items = others ∧ x = y
  | [], [], x, y, same => ⟨rfl, by simpa [itemsText] using same⟩
  | [], w :: ws, x, y, same => by
      simp only [itemsText, List.append_assoc] at same
      exact absurd same.symm (text_ne_closing w _ _)
  | v :: vs, [], x, y, same => by
      simp only [itemsText, List.append_assoc] at same
      exact absurd same (text_ne_closing v _ _)
  | v :: vs, w :: ws, x, y, same => by
      simp only [itemsText, List.append_assoc] at same
      obtain ⟨rfl, later⟩ := text_append_inj v w (fun _ => stops_moreItemsText vs x)
        (fun _ => stops_moreItemsText ws y) same
      obtain ⟨rfl, tails⟩ := moreItemsText_append_inj vs ws later
      exact ⟨rfl, tails⟩

theorem moreItemsText_append_inj : ∀ (items others : List Value) {x y : List Char},
    moreItemsText items ++ x = moreItemsText others ++ y → items = others ∧ x = y
  | [], [], x, y, same => ⟨rfl, by simpa [moreItemsText] using same⟩
  | [], w :: ws, x, y, same => by simp [moreItemsText] at same
  | v :: vs, [], x, y, same => by simp [moreItemsText] at same
  | v :: vs, w :: ws, x, y, same => by
      simp only [moreItemsText, List.cons_append, List.append_assoc, List.cons.injEq,
        true_and] at same
      obtain ⟨rfl, later⟩ := text_append_inj v w (fun _ => stops_moreItemsText vs x)
        (fun _ => stops_moreItemsText ws y) same
      obtain ⟨rfl, tails⟩ := moreItemsText_append_inj vs ws later
      exact ⟨rfl, tails⟩

theorem fieldsText_append_inj : ∀ (fields others : List (String × Value)) {x y : List Char},
    fieldsText fields ++ x = fieldsText others ++ y → fields = others ∧ x = y
  | [], [], x, y, same => ⟨rfl, by simpa [fieldsText] using same⟩
  | [], (t, w) :: ws, x, y, same => by simp [fieldsText, stringText] at same
  | (s, v) :: vs, [], x, y, same => by simp [fieldsText, stringText] at same
  | (s, v) :: vs, (t, w) :: ws, x, y, same => by
      simp only [fieldsText, List.append_assoc, List.cons_append] at same
      obtain ⟨rfl, values⟩ := stringText_append_inj same
      obtain ⟨rfl, later⟩ := text_append_inj v w (fun _ => stops_moreFieldsText vs x)
        (fun _ => stops_moreFieldsText ws y) (List.cons.inj values).2
      obtain ⟨rfl, tails⟩ := moreFieldsText_append_inj vs ws later
      exact ⟨rfl, tails⟩

theorem moreFieldsText_append_inj : ∀ (fields others : List (String × Value))
    {x y : List Char}, moreFieldsText fields ++ x = moreFieldsText others ++ y →
    fields = others ∧ x = y
  | [], [], x, y, same => ⟨rfl, by simpa [moreFieldsText] using same⟩
  | [], (t, w) :: ws, x, y, same => by simp [moreFieldsText] at same
  | (s, v) :: vs, [], x, y, same => by simp [moreFieldsText] at same
  | (s, v) :: vs, (t, w) :: ws, x, y, same => by
      simp only [moreFieldsText, List.append_assoc, List.cons_append, List.cons.injEq,
        true_and] at same
      obtain ⟨rfl, values⟩ := stringText_append_inj same
      obtain ⟨rfl, later⟩ := text_append_inj v w (fun _ => stops_moreFieldsText vs x)
        (fun _ => stops_moreFieldsText ws y) (List.cons.inj values).2
      obtain ⟨rfl, tails⟩ := moreFieldsText_append_inj vs ws later
      exact ⟨rfl, tails⟩

end

/-! ## Concatenated texts

Values written one after the other, without separators, are read back up to
the borders between adjacent numbers. -/

def concatText (values : List Value) : List Char :=
  values.flatMap Value.text

/-- A maximal run of adjacent numbers, or one value that is not a number. -/
inductive Chunk where
  | digits (text : List Char)
  | plain (value : Value)

def Chunk.text : Chunk → List Char
  | .digits text => text
  | .plain value => value.text

def chunksText (chunks : List Chunk) : List Char :=
  chunks.flatMap Chunk.text

def chunks : List Value → List Chunk
  | [] => []
  | .number n :: rest =>
      match chunks rest with
      | .digits text :: later => .digits (n.text ++ text) :: later
      | later => .digits n.text :: later
  | value :: rest => .plain value :: chunks rest

/-- The chunks of some values: runs of digits that cannot be extended. -/
def Separated : List Chunk → Prop
  | [] => True
  | .digits text :: rest =>
      text ≠ [] ∧ (∀ c ∈ text, isNumberChar c = true) ∧ Stops (chunksText rest) ∧
        Separated rest
  | .plain value :: rest => value.isNumber = false ∧ Separated rest

theorem chunksText_chunks (values : List Value) :
    chunksText (chunks values) = concatText values := by
  induction values with
  | nil => rfl
  | cons value rest inductionHypothesis =>
      rw [concatText, List.flatMap_cons, ← concatText, ← inductionHypothesis]
      cases value with
      | number n =>
          simp only [chunks]
          cases chunks rest with
          | nil => rfl
          | cons chunk later =>
              cases chunk with
              | digits text => simp [chunksText, Chunk.text, Value.text]
              | plain value => rfl
      | _ => rfl

theorem stops_chunksText {items : List Chunk} (separated : Separated items)
    (noDigits : ∀ text later, items ≠ .digits text :: later) : Stops (chunksText items) := by
  cases items with
  | nil => trivial
  | cons chunk rest =>
      cases chunk with
      | digits text => exact absurd rfl (noDigits text rest)
      | plain value =>
          have lead := leadKind_text value (chunksText rest)
          have notNumber : value.kind ≠ 2 := by
            have := separated.1
            cases value <;> simp_all [Value.kind, Value.isNumber]
          change Stops (value.text ++ chunksText rest)
          cases shown : value.text ++ chunksText rest with
          | nil => trivial
          | cons c cs =>
              rw [shown] at lead
              by_contra number
              have numeric : isNumberChar c = true := by simpa [Stops] using number
              exact notNumber (lead ▸ @leadKind_numeric [c] (by simp)
                (by simpa using numeric) cs)

theorem separated_chunks (values : List Value) : Separated (chunks values) := by
  induction values with
  | nil => trivial
  | cons value rest inductionHypothesis =>
      cases value with
      | number n =>
          unfold chunks
          split
          next text later found =>
            rw [found] at inductionHypothesis
            obtain ⟨_, numeric, stops, separated⟩ := inductionHypothesis
            refine ⟨by simp [n.nonempty], ?_, stops, separated⟩
            intro c member
            rcases List.mem_append.mp member with first | second
            · exact n.numeric c first
            · exact numeric c second
          next noDigits =>
            exact ⟨n.nonempty, n.numeric, stops_chunksText inductionHypothesis noDigits,
              inductionHypothesis⟩
      | _ => exact ⟨rfl, inductionHypothesis⟩

theorem chunksText_inj : ∀ {first second : List Chunk}, Separated first → Separated second →
    chunksText first = chunksText second → first = second
  | [], [], _, _, _ => rfl
  | [], .digits text :: rest, _, separated, same => by
      have lead := leadKind_numeric separated.1 separated.2.1 (chunksText rest)
      rw [show text ++ chunksText rest = [] from same.symm] at lead
      simp [leadKind] at lead
  | [], .plain value :: rest, _, _, same => by
      have lead := leadKind_text value (chunksText rest)
      rw [show value.text ++ chunksText rest = [] from same.symm] at lead
      cases value <;> simp [leadKind, Value.kind] at lead
  | .digits text :: rest, [], separated, _, same => by
      have lead := leadKind_numeric separated.1 separated.2.1 (chunksText rest)
      rw [show text ++ chunksText rest = [] from same] at lead
      simp [leadKind] at lead
  | .plain value :: rest, [], _, _, same => by
      have lead := leadKind_text value (chunksText rest)
      rw [show value.text ++ chunksText rest = [] from same] at lead
      cases value <;> simp [leadKind, Value.kind] at lead
  | .digits text :: rest, .digits other :: later, separated, separated', same => by
      obtain ⟨rfl, tails⟩ := numeric_append_inj separated.2.1 separated'.2.1
        separated.2.2.1 separated'.2.2.1 same
      rw [chunksText_inj separated.2.2.2 separated'.2.2.2 tails]
  | .digits text :: rest, .plain value :: later, separated, separated', same => by
      have lead := leadKind_text value (chunksText later)
      rw [show value.text ++ chunksText later = text ++ chunksText rest from same.symm,
        leadKind_numeric separated.1 separated.2.1] at lead
      have := separated'.1
      cases value <;> simp_all [Value.kind, Value.isNumber]
  | .plain value :: later, .digits text :: rest, separated, separated', same => by
      have lead := leadKind_text value (chunksText later)
      rw [show value.text ++ chunksText later = text ++ chunksText rest from same,
        leadKind_numeric separated'.1 separated'.2.1] at lead
      have := separated.1
      cases value <;> simp_all [Value.kind, Value.isNumber]
  | .plain value :: rest, .plain other :: later, separated, separated', same => by
      obtain ⟨rfl, tails⟩ := text_append_inj value other
        (fun number => by simp [separated.1] at number)
        (fun number => by simp [separated'.1] at number) same
      rw [chunksText_inj separated.2 separated'.2 tails]

/-- Concatenated texts are equal exactly when the values are, up to the
borders between adjacent numbers. -/
theorem concatText_eq_iff {first second : List Value} :
    concatText first = concatText second ↔ chunks first = chunks second := by
  constructor
  · intro same
    apply chunksText_inj (separated_chunks first) (separated_chunks second)
    rw [chunksText_chunks, chunksText_chunks, same]
  · intro same
    rw [← chunksText_chunks, ← chunksText_chunks, same]

/-! ## Terminated texts

A character that belongs to no number ends every value's text, so values that
are each closed by it are read back one by one. -/

theorem terminated_inj {c : Char} (stop : isNumberChar c = false) :
    ∀ {first second : List Value}, first.flatMap (fun value => value.text ++ [c]) =
      second.flatMap (fun value => value.text ++ [c]) → first = second := by
  intro first
  induction first with
  | nil =>
      intro second same
      cases second with
      | nil => rfl
      | cons value rest => simp at same
  | cons value rest inductionHypothesis =>
      intro second same
      cases second with
      | nil => simp at same
      | cons other later =>
          simp only [List.flatMap_cons, List.append_assoc, List.singleton_append] at same
          have stops : ∀ tail, Stops (c :: tail) := fun _ => stop
          obtain ⟨rfl, tails⟩ :=
            text_append_inj value other (fun _ => stops _) (fun _ => stops _) same
          rw [inductionHypothesis (List.cons.inj tails).2]

end Json
