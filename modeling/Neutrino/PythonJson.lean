import Neutrino.JsonLaws

/-! JSON documents as Python's json module holds and writes them, beside the values and compact
texts of the compiler's JSON library. -/

namespace Neutrino

/-- A parsed document. The items of a dict stand in the order of their keys, in which they are
written. -/
inductive PyJson
  | none
  | bool (value : Bool)
  | int (value : Int)
  | float (value : Rat)
  | str (value : String)
  | list (elements : List PyJson)
  | dict (items : List (String × PyJson))

namespace PyJson

abbrev Dict := List (String × PyJson)

def has (items : Dict) (key : String) : Bool := (items.lookup key).isSome

/-- `items.get(key)` -/
def get (items : Dict) (key : String) : PyJson := (items.lookup key).getD .none

def isStr : PyJson → Bool
  | .str _ => true
  | _ => false

def isList : PyJson → Bool
  | .list _ => true
  | _ => false

def isDict : PyJson → Bool
  | .dict _ => true
  | _ => false

def isNone : PyJson → Bool
  | .none => true
  | _ => false

/-- `value == text` for a string. -/
def eqStr (value : PyJson) (text : String) : Bool :=
  match value with
  | .str held => held = text
  | _ => false

/-- `value == number` for an integer: a bool is the number one or zero. -/
def eqInt (value : PyJson) (number : Int) : Bool :=
  match value with
  | .bool held => (if held then 1 else 0) = number
  | .int held => held = number
  | .float held => held = number
  | _ => false

/-- What counts as true in a condition. -/
def truthy : PyJson → Bool
  | .none => false
  | .bool value => value
  | .int value => value ≠ 0
  | .float value => value ≠ 0
  | .str value => value ≠ ""
  | .list elements => !elements.isEmpty
  | .dict items => !items.isEmpty

/-! Writing. -/

/-- How a printer writes what a document is made of. -/
structure Printer where
  str : String → List Char
  int : Int → List Char
  float : Rat → List Char

section Render

variable (printer : Printer)

mutual

def render : PyJson → List Char
  | .none => "null".toList
  | .bool value => if value then "true".toList else "false".toList
  | .int value => printer.int value
  | .float value => printer.float value
  | .str value => printer.str value
  | .list [] => ['[', ']']
  | .list (first :: rest) => '[' :: (render first ++ renderElements rest)
  | .dict [] => ['\x7b', '\x7d']
  | .dict ((key, value) :: rest) =>
      '\x7b' :: (printer.str key ++ ':' :: (render value ++ renderItems rest))

def renderElements : List PyJson → List Char
  | [] => [']']
  | element :: rest => ',' :: (render element ++ renderElements rest)

def renderItems : List (String × PyJson) → List Char
  | [] => ['\x7d']
  | (key, value) :: rest =>
      ',' :: (printer.str key ++ ':' :: (render value ++ renderItems rest))

end

end Render

def pyQuoteChar (c : Char) : String :=
  if c = '"' then "\\\""
  else if c = '\\' then "\\\\"
  else if c = '\x08' then "\\b"
  else if c = '\x0c' then "\\f"
  else if c = '\n' then "\\n"
  else if c = '\r' then "\\r"
  else if c = '\t' then "\\t"
  else if c.toNat < 32 then "\\u00" ++ controlDigits c.toNat
  else c.toString

/-- A text between quotes, character by character. -/
def quoteWith (char : Char → String) (text : String) : List Char :=
  '"' :: (text.toList.flatMap (fun c => (char c).toList) ++ ['"'])

section Numbers

variable (repr printDouble : Rat → String) (nearest : Int → Rat)

def pythonPrinter : Printer where
  str := quoteWith pyQuoteChar
  int value := (toString value).toList
  float value := (repr value).toList

/-- `json.dumps(document, sort_keys=True, separators=(",", ":"), ensure_ascii=False)` -/
def dumps (document : PyJson) : String := String.ofList (render (pythonPrinter repr) document)

def isLong (value : Int) : Bool := -(2 ^ 63) ≤ value ∧ value < 2 ^ 64

/-- The compiler's library writes an integer that no machine integer holds as a double. -/
def llvmPrinter : Printer where
  str := quoteWith quoteChar
  int value := if isLong value then (toString value).toList else (printDouble (nearest value)).toList
  float value := (printDouble value).toList

/-! The same document in the compiler's library. -/

def llvmNumber (value : Int) : Json.Number :=
  if -(2 ^ 63) ≤ value ∧ value < 2 ^ 63 then .integer (Int64.ofInt value)
  else if 0 ≤ value ∧ value < 2 ^ 64 then .unsigned (UInt64.ofNat value.toNat)
  else .double (nearest value)

mutual

def llvm : PyJson → Json
  | .none => .null
  | .bool value => .boolean value
  | .int value => .number (llvmNumber nearest value)
  | .float value => .number (.double value)
  | .str value => .string value
  | .list elements => .array (llvmElements elements)
  | .dict items => .object (llvmItems items)

def llvmElements : List PyJson → List Json
  | [] => []
  | element :: rest => llvm element :: llvmElements rest

def llvmItems : List (String × PyJson) → List (String × Json)
  | [] => []
  | (key, value) :: rest => (key, llvm value) :: llvmItems rest

end

def writtenNumber : Json.Number → String
  | .integer value => toString value.toInt
  | .unsigned value => toString value.toNat
  | .double value => printDouble value

mutual

/-- The compact text of a value, doubles written by the library. -/
def written : Json → List Char
  | .null => "null".toList
  | .boolean value => if value then "true".toList else "false".toList
  | .number value => (writtenNumber printDouble value).toList
  | .string value => (quote value).toList
  | .array [] => ['[', ']']
  | .array (first :: rest) => '[' :: (written first ++ writtenElements rest)
  | .object [] => ['\x7b', '\x7d']
  | .object ((key, value) :: rest) =>
      '\x7b' :: ((quote key).toList ++ ':' :: (written value ++ writtenMembers rest))

def writtenElements : List Json → List Char
  | [] => [']']
  | element :: rest => ',' :: (written element ++ writtenElements rest)

def writtenMembers : List (String × Json) → List Char
  | [] => ['\x7d']
  | (key, value) :: rest =>
      ',' :: ((quote key).toList ++ ':' :: (written value ++ writtenMembers rest))

end

end Numbers

mutual

/-- What Python reads from the text of a value. -/
def ofJson : Json → PyJson
  | .null => .none
  | .boolean value => .bool value
  | .number (.integer value) => .int value.toInt
  | .number (.unsigned value) => .int value.toNat
  | .number (.double value) => .float value
  | .string value => .str value
  | .array elements => .list (ofElements elements)
  | .object members => .dict (ofMembers members)

def ofElements : List Json → List PyJson
  | [] => []
  | element :: rest => ofJson element :: ofElements rest

def ofMembers : List (String × Json) → List (String × PyJson)
  | [] => []
  | (key, value) :: rest => (key, ofJson value) :: ofMembers rest

end

theorem ofJson_string (value : String) : ofJson (.string value) = .str value := by rw [ofJson]

/-! The same text from both printers. -/

section Every

variable (str : String → Prop) (int : Int → Prop) (float : Rat → Prop)

mutual

/-- What holds of all strings, keys and numbers inside. -/
def Every : PyJson → Prop
  | .int value => int value
  | .float value => float value
  | .str value => str value
  | .list elements => EveryElement elements
  | .dict items => EveryItem items
  | _ => True

def EveryElement : List PyJson → Prop
  | [] => True
  | element :: rest => Every element ∧ EveryElement rest

def EveryItem : List (String × PyJson) → Prop
  | [] => True
  | (key, value) :: rest => str key ∧ Every value ∧ EveryItem rest

end

end Every

def isDelimiter (c : Char) : Bool := c = ',' || c = ']' || c = '\x7d'

/-- What may follow a value inside a document. -/
def Delimited (rest : List Char) : Prop := ∀ c ∈ rest.head?, isDelimiter c = true

/-- A text before a delimiter ends there. -/
theorem delimited_unique {text other rest rest' : List Char} (ends : Delimited rest)
    (ends' : Delimited rest') (free : ∀ c ∈ text, isDelimiter c = false)
    (free' : ∀ c ∈ other, isDelimiter c = false) (same : text ++ rest = other ++ rest') :
    text = other ∧ rest = rest' := by
  induction text generalizing other with
  | nil =>
      cases other with
      | nil => exact ⟨rfl, same⟩
      | cons c others =>
          have first := ends c (by rw [List.nil_append] at same; simp [same])
          rw [free' c List.mem_cons_self] at first
          cases first
  | cons c others ih =>
      cases other with
      | nil =>
          have first := ends' c (by rw [List.nil_append] at same; simp [← same])
          rw [free c List.mem_cons_self] at first
          cases first
      | cons c' others' =>
          simp only [List.cons_append, List.cons.injEq] at same
          obtain ⟨rfl, tails⟩ := same
          obtain ⟨rfl, rests⟩ := ih (fun d listed => free d (List.mem_cons_of_mem _ listed))
            (fun d listed => free' d (List.mem_cons_of_mem _ listed)) tails
          exact ⟨rfl, rests⟩

/-- Two printers whose texts of one value are the same when what follows may be. -/
structure Joint (first second : Printer) : Prop where
  str : ∀ value rest rest', first.str value ++ rest = second.str value ++ rest' →
    first.str value = second.str value ∧ rest = rest'
  int : ∀ value rest rest', Delimited rest → Delimited rest' →
    first.int value ++ rest = second.int value ++ rest' →
      first.int value = second.int value ∧ rest = rest'
  float : ∀ value rest rest', Delimited rest → Delimited rest' →
    first.float value ++ rest = second.float value ++ rest' →
      first.float value = second.float value ∧ rest = rest'

section Joint

variable {first second : Printer}

theorem renderElements_delimited (printer : Printer) (elements : List PyJson) (rest : List Char) :
    Delimited (renderElements printer elements ++ rest) := by
  cases elements <;> simp [renderElements, Delimited, isDelimiter]

theorem renderItems_delimited (printer : Printer) (items : List (String × PyJson))
    (rest : List Char) : Delimited (renderItems printer items ++ rest) := by
  cases items with
  | nil => simp [renderItems, Delimited, isDelimiter]
  | cons item others =>
      obtain ⟨key, value⟩ := item
      simp [renderItems, Delimited, isDelimiter]

variable (first second) in
/-- Both printers write everything inside alike. -/
abbrev Alike (document : PyJson) : Prop :=
  Every (fun value => first.str value = second.str value)
    (fun value => first.int value = second.int value)
    (fun value => first.float value = second.float value) document

variable (first second) in
abbrev AlikeElements (elements : List PyJson) : Prop :=
  EveryElement (fun value => first.str value = second.str value)
    (fun value => first.int value = second.int value)
    (fun value => first.float value = second.float value) elements

variable (first second) in
abbrev AlikeItems (items : List (String × PyJson)) : Prop :=
  EveryItem (fun value => first.str value = second.str value)
    (fun value => first.int value = second.int value)
    (fun value => first.float value = second.float value) items

mutual

theorem render_congr : (document : PyJson) → Alike first second document →
    render first document = render second document
  | .none, _ | .bool _, _ => by simp [render]
  | .int value, alike | .float value, alike | .str value, alike => by
      simpa [render, Every] using alike
  | .list [], _ | .dict [], _ => by simp [render]
  | .list (element :: rest), alike => by
      simp only [Every, EveryElement] at alike
      simp only [render, render_congr element alike.1, renderElements_congr rest alike.2]
  | .dict ((key, value) :: rest), alike => by
      simp only [Every, EveryItem] at alike
      simp only [render, alike.1, render_congr value alike.2.1, renderItems_congr rest alike.2.2]

theorem renderElements_congr : (elements : List PyJson) →
    AlikeElements first second elements →
    renderElements first elements = renderElements second elements
  | [], _ => by simp [renderElements]
  | element :: rest, alike => by
      simp only [EveryElement] at alike
      simp only [renderElements, render_congr element alike.1, renderElements_congr rest alike.2]

theorem renderItems_congr : (items : List (String × PyJson)) →
    AlikeItems first second items →
    renderItems first items = renderItems second items
  | [], _ => by simp [renderItems]
  | (key, value) :: rest, alike => by
      simp only [EveryItem] at alike
      simp only [renderItems, alike.1, render_congr value alike.2.1,
        renderItems_congr rest alike.2.2]

end

mutual

theorem alike_of_render (joint : Joint first second) :
    (document : PyJson) → (rest rest' : List Char) → Delimited rest → Delimited rest' →
    render first document ++ rest = render second document ++ rest' →
    Alike first second document ∧ rest = rest'
  | .none, rest, rest', _, _, same | .bool _, rest, rest', _, _, same => by
      simp only [render] at same
      exact ⟨trivial, List.append_cancel_left same⟩
  | .int value, rest, rest', ends, ends', same => by
      simpa [Every] using joint.int value rest rest' ends ends' same
  | .float value, rest, rest', ends, ends', same => by
      simpa [Every] using joint.float value rest rest' ends ends' same
  | .str value, rest, rest', _, _, same => by
      simpa [Every] using joint.str value rest rest' same
  | .list [], rest, rest', _, _, same | .dict [], rest, rest', _, _, same => by
      simp only [render] at same
      exact ⟨trivial, List.append_cancel_left same⟩
  | .list (element :: others), rest, rest', ends, ends', same => by
      simp only [render, List.cons_append, List.append_assoc, List.cons.injEq, true_and] at same
      obtain ⟨here, later⟩ := alike_of_render joint element _ _
        (renderElements_delimited first others rest) (renderElements_delimited second others rest')
        same
      obtain ⟨there, rests⟩ := alike_of_renderElements joint others rest rest' later
      exact ⟨⟨here, there⟩, rests⟩
  | .dict ((key, value) :: others), rest, rest', ends, ends', same => by
      simp only [render, List.cons_append, List.append_assoc, List.cons.injEq, true_and] at same
      obtain ⟨keys, after⟩ := joint.str key _ _ same
      obtain ⟨here, later⟩ := alike_of_render joint value _ _
        (renderItems_delimited first others rest) (renderItems_delimited second others rest')
        (List.cons.inj after).2
      obtain ⟨there, rests⟩ := alike_of_renderItems joint others rest rest' later
      exact ⟨⟨keys, here, there⟩, rests⟩

theorem alike_of_renderElements (joint : Joint first second) :
    (elements : List PyJson) → (rest rest' : List Char) →
    renderElements first elements ++ rest = renderElements second elements ++ rest' →
    AlikeElements first second elements ∧ rest = rest'
  | [], rest, rest', same => by
      simp only [renderElements] at same
      exact ⟨trivial, List.append_cancel_left same⟩
  | element :: others, rest, rest', same => by
      simp only [renderElements, List.cons_append, List.append_assoc, List.cons.injEq,
        true_and] at same
      obtain ⟨here, later⟩ := alike_of_render joint element _ _
        (renderElements_delimited first others rest) (renderElements_delimited second others rest')
        same
      obtain ⟨there, rests⟩ := alike_of_renderElements joint others rest rest' later
      exact ⟨⟨here, there⟩, rests⟩

theorem alike_of_renderItems (joint : Joint first second) :
    (items : List (String × PyJson)) → (rest rest' : List Char) →
    renderItems first items ++ rest = renderItems second items ++ rest' →
    AlikeItems first second items ∧ rest = rest'
  | [], rest, rest', same => by
      simp only [renderItems] at same
      exact ⟨trivial, List.append_cancel_left same⟩
  | (key, value) :: others, rest, rest', same => by
      simp only [renderItems, List.cons_append, List.append_assoc, List.cons.injEq,
        true_and] at same
      obtain ⟨keys, after⟩ := joint.str key _ _ same
      obtain ⟨here, later⟩ := alike_of_render joint value _ _
        (renderItems_delimited first others rest) (renderItems_delimited second others rest')
        (List.cons.inj after).2
      obtain ⟨there, rests⟩ := alike_of_renderItems joint others rest rest' later
      exact ⟨⟨keys, here, there⟩, rests⟩

end

/-- Two printers write a document alike exactly when they write all that is inside alike. -/
theorem render_eq_iff (joint : Joint first second) {document : PyJson} :
    render first document = render second document ↔ Alike first second document :=
  ⟨fun same => (alike_of_render joint document [] [] (by simp [Delimited]) (by simp [Delimited])
    (by simpa using same)).1, render_congr document⟩

end Joint

/-! Python's printer and the compiler's. -/

section Both

variable {repr printDouble : Rat → String} {nearest : Int → Rat}

/-- No character that Python escapes in its own way. -/
def PlainText (text : String) : Prop := ∀ c ∈ text.toList, c ≠ '\x08' ∧ c ≠ '\x0c'

instance (text : String) : Decidable (PlainText text) :=
  List.decidableBAll (fun c => c ≠ '\x08' ∧ c ≠ '\x0c') text.toList

theorem pyQuoteChar_eq {c : Char} (plain : c ≠ '\x08' ∧ c ≠ '\x0c') :
    pyQuoteChar c = quoteChar c := by
  by_cases tab : c = '\t'
  · subst tab
    rfl
  · simp only [pyQuoteChar, quoteChar, plain.1, plain.2, tab, if_false]

theorem quoted_unique {chars rest rest' : List Char}
    (same : chars.flatMap (fun c => (pyQuoteChar c).toList) ++ '"' :: rest =
      chars.flatMap (fun c => (quoteChar c).toList) ++ '"' :: rest') :
    (∀ c ∈ chars, c ≠ '\x08' ∧ c ≠ '\x0c') ∧ rest = rest' := by
  induction chars with
  | nil =>
      simp only [List.flatMap_nil, List.nil_append, List.cons.injEq, true_and] at same
      exact ⟨by simp, same⟩
  | cons c others ih =>
      rw [List.flatMap_cons, List.flatMap_cons, List.append_assoc, List.append_assoc] at same
      by_cases plain : c ≠ '\x08' ∧ c ≠ '\x0c'
      · rw [pyQuoteChar_eq plain] at same
        obtain ⟨later, rests⟩ := ih (List.append_cancel_left same)
        exact ⟨List.forall_mem_cons.mpr ⟨plain, later⟩, rests⟩
      · rcases Decidable.or_iff_not_not_and_not.mpr plain with rfl | rfl
        · simp [pyQuoteChar, quoteChar, controlDigits] at same
        · simp [pyQuoteChar, quoteChar, controlDigits] at same

theorem quoteWith_eq_iff {text : String} :
    quoteWith pyQuoteChar text = quoteWith quoteChar text ↔ PlainText text := by
  constructor
  · intro same
    simp only [quoteWith, List.cons.injEq, true_and] at same
    exact (quoted_unique same).1
  · intro plain
    have chars : text.toList.flatMap (fun c => (pyQuoteChar c).toList) =
        text.toList.flatMap (fun c => (quoteChar c).toList) :=
      List.flatMap_congr fun c listed => by rw [pyQuoteChar_eq (plain c listed)]
    rw [quoteWith, chars, quoteWith]

/-- Number texts hold no character that ends a value. -/
structure NumberTexts (repr printDouble : Rat → String) : Prop where
  repr : ∀ value, ∀ c ∈ (repr value).toList, isDelimiter c = false
  printDouble : ∀ value, ∀ c ∈ (printDouble value).toList, isDelimiter c = false

theorem toString_free (value : Int) : ∀ c ∈ (toString value).toList, isDelimiter c = false := by
  intro c listed
  have numeral := int_toString_numeral value c listed
  simp only [isDelimiter, Bool.or_eq_false_iff, decide_eq_false_iff_not]
  refine ⟨⟨?_, ?_⟩, ?_⟩ <;> rintro rfl <;> exact absurd numeral (by decide)

theorem llvmPrinter_long {value : Int} (long : isLong value = true) :
    (llvmPrinter printDouble nearest).int value = (toString value).toList :=
  if_pos long

theorem llvmPrinter_short {value : Int} (long : ¬isLong value = true) :
    (llvmPrinter printDouble nearest).int value = (printDouble (nearest value)).toList :=
  if_neg long

theorem joint_printers (texts : NumberTexts repr printDouble) :
    Joint (pythonPrinter repr) (llvmPrinter printDouble nearest) where
  str value rest rest' same := by
    simp only [pythonPrinter, llvmPrinter, quoteWith, List.cons_append, List.append_assoc,
      List.nil_append, List.cons.injEq, true_and] at same
    obtain ⟨plain, rests⟩ := quoted_unique same
    exact ⟨quoteWith_eq_iff.mpr plain, rests⟩
  int value rest rest' ends ends' same := by
    refine delimited_unique ends ends' (toString_free value) ?_ same
    by_cases long : isLong value = true
    · rw [llvmPrinter_long long]
      exact toString_free value
    · rw [llvmPrinter_short long]
      exact texts.printDouble _
  float value rest rest' ends ends' same :=
    delimited_unique ends ends' (texts.repr value) (texts.printDouble value) same

variable (repr printDouble nearest) in
/-- All strings are plain, and both write all numbers alike. -/
def Plain (document : PyJson) : Prop :=
  Every PlainText (fun value => isLong value = true ∨ printDouble (nearest value) = toString value)
    (fun value => repr value = printDouble value) document

mutual

theorem Every.imp {str str' : String → Prop} {int int' : Int → Prop} {float float' : Rat → Prop}
    (strs : ∀ value, str value → str' value) (ints : ∀ value, int value → int' value)
    (floats : ∀ value, float value → float' value) :
    (document : PyJson) → Every str int float document → Every str' int' float' document
  | .none, _ | .bool _, _ => trivial
  | .int value, every => ints value every
  | .float value, every => floats value every
  | .str value, every => strs value every
  | .list elements, every => EveryElement.imp strs ints floats elements every
  | .dict items, every => EveryItem.imp strs ints floats items every

theorem EveryElement.imp {str str' : String → Prop} {int int' : Int → Prop}
    {float float' : Rat → Prop} (strs : ∀ value, str value → str' value)
    (ints : ∀ value, int value → int' value) (floats : ∀ value, float value → float' value) :
    (elements : List PyJson) → EveryElement str int float elements →
      EveryElement str' int' float' elements
  | [], _ => trivial
  | element :: rest, every =>
      ⟨Every.imp strs ints floats element every.1, EveryElement.imp strs ints floats rest every.2⟩

theorem EveryItem.imp {str str' : String → Prop} {int int' : Int → Prop}
    {float float' : Rat → Prop} (strs : ∀ value, str value → str' value)
    (ints : ∀ value, int value → int' value) (floats : ∀ value, float value → float' value) :
    (items : List (String × PyJson)) → EveryItem str int float items →
      EveryItem str' int' float' items
  | [], _ => trivial
  | (key, value) :: rest, every => ⟨strs key every.1, Every.imp strs ints floats value every.2.1,
      EveryItem.imp strs ints floats rest every.2.2⟩

end

theorem alike_iff_plain {document : PyJson} :
    Alike (pythonPrinter repr) (llvmPrinter printDouble nearest) document ↔
      Plain repr printDouble nearest document := by
  have ints : ∀ value, (pythonPrinter repr).int value =
      (llvmPrinter printDouble nearest).int value ↔
        isLong value = true ∨ printDouble (nearest value) = toString value := by
    intro value
    rw [pythonPrinter, llvmPrinter]
    by_cases long : isLong value = true
    · simp [long]
    · simp only [long, Bool.false_eq_true, if_false, false_or, String.toList_inj]
      exact eq_comm
  constructor
  · exact Every.imp (fun _ => quoteWith_eq_iff.mp) (fun value => (ints value).mp)
      (fun _ => String.toList_inj.mp) document
  · exact Every.imp (fun _ => quoteWith_eq_iff.mpr) (fun value => (ints value).mpr)
      (fun _ => String.toList_inj.mpr) document

theorem quote_quoteWith (text : String) : (quote text).toList = quoteWith quoteChar text := by
  rw [quote_toList, quoteWith, List.map_map, List.flatMap_def]
  rfl

theorem writtenNumber_llvm (value : Int) :
    (writtenNumber printDouble (llvmNumber nearest value)).toList =
      (llvmPrinter printDouble nearest).int value := by
  rw [llvmNumber]
  split
  · rename_i small
    rw [llvmPrinter_long (by simp [isLong]; omega), writtenNumber,
      Int64.toInt_ofInt_of_le (by omega) (by omega)]
  · split
    · rename_i outside unsigned
      rw [llvmPrinter_long (by simp [isLong]; omega), writtenNumber,
        UInt64.toNat_ofNat_of_lt' (by simp [UInt64.size]; omega)]
      rw [← Int.toNat_of_nonneg unsigned.1]
      rfl
    · rw [llvmPrinter_short (by simp [isLong]; omega), writtenNumber]

mutual

/-- The library's text of a document. -/
theorem written_llvm : (document : PyJson) → written printDouble (llvm nearest document) =
    render (llvmPrinter printDouble nearest) document
  | .none | .bool _ => by simp [llvm, written, render]
  | .int value => by simp only [llvm, written, render, writtenNumber_llvm]
  | .float value => by simp [llvm, written, render, writtenNumber, llvmPrinter]
  | .str value => by simp [llvm, written, render, llvmPrinter, quote_quoteWith]
  | .list [] | .dict [] => by simp [llvm, llvmElements, llvmItems, written, render]
  | .list (element :: rest) => by
      simp only [llvm, llvmElements, written, render, written_llvm element, writtenElements_llvm]
  | .dict ((key, value) :: rest) => by
      simp only [llvm, llvmItems, written, render, written_llvm value, writtenMembers_llvm,
        quote_quoteWith]
      rfl

theorem writtenElements_llvm : (elements : List PyJson) →
    writtenElements printDouble (llvmElements nearest elements) =
      renderElements (llvmPrinter printDouble nearest) elements
  | [] => by simp [llvmElements, writtenElements, renderElements]
  | element :: rest => by
      simp only [llvmElements, writtenElements, renderElements, written_llvm element,
        writtenElements_llvm rest]

theorem writtenMembers_llvm : (items : List (String × PyJson)) →
    writtenMembers printDouble (llvmItems nearest items) =
      renderItems (llvmPrinter printDouble nearest) items
  | [] => by simp [llvmItems, writtenMembers, renderItems]
  | (key, value) :: rest => by
      simp only [llvmItems, writtenMembers, renderItems, written_llvm value,
        writtenMembers_llvm rest, quote_quoteWith]
      rfl

end

theorem isLong_int64 (value : Int64) : isLong value.toInt = true := by
  have low := value.le_toInt
  have high := value.toInt_lt
  simp [isLong]
  omega

theorem isLong_uint64 (value : UInt64) : isLong value.toNat = true := by
  have high := value.toNat_lt
  simp [isLong]
  omega

mutual

/-- A text of the library reads back as a document of that text. -/
theorem render_ofJson : (json : Json) → render (llvmPrinter printDouble nearest) (ofJson json) =
    written printDouble json
  | .null | .boolean _ => by simp [ofJson, written, render]
  | .number (.integer value) => by
      rw [ofJson, render, llvmPrinter_long (isLong_int64 value), written, writtenNumber]
  | .number (.unsigned value) => by
      rw [ofJson, render, llvmPrinter_long (isLong_uint64 value), written, writtenNumber]
      rfl
  | .number (.double value) => by simp [ofJson, render, written, writtenNumber, llvmPrinter]
  | .string value => by simp [ofJson, written, render, llvmPrinter, quote_quoteWith]
  | .array [] | .object [] => by simp [ofJson, ofElements, ofMembers, written, render]
  | .array (element :: rest) => by
      simp only [ofJson, ofElements, written, render, render_ofJson element,
        renderElements_ofElements]
  | .object ((key, value) :: rest) => by
      simp only [ofJson, ofMembers, written, render, render_ofJson value, renderItems_ofMembers,
        quote_quoteWith]
      rfl

theorem renderElements_ofElements : (elements : List Json) →
    renderElements (llvmPrinter printDouble nearest) (ofElements elements) =
      writtenElements printDouble elements
  | [] => by simp [ofElements, writtenElements, renderElements]
  | element :: rest => by
      simp only [ofElements, writtenElements, renderElements, render_ofJson element,
        renderElements_ofElements rest]

theorem renderItems_ofMembers : (members : List (String × Json)) →
    renderItems (llvmPrinter printDouble nearest) (ofMembers members) =
      writtenMembers printDouble members
  | [] => by simp [ofMembers, writtenMembers, renderItems]
  | (key, value) :: rest => by
      simp only [ofMembers, writtenMembers, renderItems, render_ofJson value,
        renderItems_ofMembers rest, quote_quoteWith]
      rfl

end

end Both

end PyJson

end Neutrino
