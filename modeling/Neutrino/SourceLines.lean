import Mathlib

/-! The lexing of `.neu` source: logical lines, and the words and string literals of a line. -/

namespace Neutrino

namespace SourceLines

structure Line where
  no : Nat
  text : String
  deriving DecidableEq, Repr

/-- A quote opens or closes a string literal, in which no comment starts. -/
def stripComment (inStr : Bool) : List Char → List Char
  | [] => []
  | c :: rest =>
      if c = '"' then c :: stripComment (!inStr) rest
      else if !inStr && (c = '#' || (c = '/' && rest.head? = some '/')) then []
      else c :: stripComment inStr rest

def splitLines : List Char → List (List Char)
  | [] => [[]]
  | c :: rest =>
      if c = '\n' then [] :: splitLines rest
      else
        match splitLines rest with
        | [] => [[c]]
        | line :: lines => (c :: line) :: lines

def isSpace (c : Char) : Bool :=
  c = ' ' || c = '\t' || c = '\n' || c = '\x0b' || c = '\x0c' || c = '\r'

def trim (text : List Char) : List Char :=
  ((text.dropWhile isSpace).reverse.dropWhile isSpace).reverse

/-- What is left of a line, unless that is blank. -/
def logicalLine (line : List Char) : Option (List Char) :=
  let trimmed := trim (stripComment false line)
  if trimmed = [] then none else some trimmed

def logicalLines (text : String) : List Line :=
  ((splitLines text.toList).zipIdx 1).filterMap fun line =>
    (logicalLine line.1).map fun trimmed => ⟨line.2, String.ofList trimmed⟩

inductive Token
  | word (text : String)
  | literal (text : String)
  | unterminated (text : String)
  deriving DecidableEq, Repr

/-- What the characters read so far belong to. -/
inductive Mode
  | idle
  | word (text : List Char)
  | literal (text : List Char)

/-- Words stand between blanks, and a string literal ends at its closing quote. -/
def readTokens : Mode → List Char → List Token
  | .idle, [] => []
  | .idle, c :: rest =>
      if isSpace c then readTokens .idle rest
      else if c = '"' then readTokens (.literal []) rest
      else readTokens (.word [c]) rest
  | .word text, [] => [.word (String.ofList text)]
  | .word text, c :: rest =>
      if isSpace c then .word (String.ofList text) :: readTokens .idle rest
      else if c = '"' then .word (String.ofList text) :: readTokens (.literal []) rest
      else readTokens (.word (text ++ [c])) rest
  | .literal text, [] => [.unterminated (String.ofList text)]
  | .literal text, c :: rest =>
      if c = '"' then .literal (String.ofList text) :: readTokens .idle rest
      else readTokens (.literal (text ++ [c])) rest

def lineTokens (text : String) : List (List Token) :=
  (logicalLines text).map fun line => readTokens .idle line.text.toList

/-! Lines of a text. -/

theorem splitLines_ne_nil (text : List Char) : splitLines text ≠ [] := by
  induction text with
  | nil => simp [splitLines]
  | cons c rest ih =>
      simp only [splitLines]
      split
      · simp
      · split <;> simp

theorem splitLines_cons {c : Char} (other : c ≠ '\n') (rest : List Char) :
    ∃ line lines, splitLines rest = line :: lines ∧
      splitLines (c :: rest) = (c :: line) :: lines := by
  cases split : splitLines rest with
  | nil => exact absurd split (splitLines_ne_nil rest)
  | cons line lines => exact ⟨line, lines, rfl, by simp [splitLines, other, split]⟩

theorem splitLines_append (first second : List Char) :
    splitLines (first ++ '\n' :: second) = splitLines first ++ splitLines second := by
  induction first with
  | nil => simp [splitLines]
  | cons c rest ih =>
      by_cases newline : c = '\n'
      · simp [splitLines, newline, ih]
      · obtain ⟨line, lines, split, grown⟩ := splitLines_cons newline rest
        obtain ⟨line', lines', split', grown'⟩ :=
          splitLines_cons newline (rest ++ '\n' :: second)
        rw [ih, split, List.cons_append] at split'
        obtain ⟨rfl, rfl⟩ := List.cons.inj split'
        rw [List.cons_append, grown', grown, List.cons_append]

theorem splitLines_of_clean {line : List Char} (clean : '\n' ∉ line) : splitLines line = [line] := by
  induction line with
  | nil => rfl
  | cons c rest ih =>
      simp only [List.mem_cons, not_or] at clean
      obtain ⟨first, lines, split, grown⟩ := splitLines_cons (Ne.symm clean.1) rest
      rw [ih clean.2] at split
      obtain ⟨rfl, rfl⟩ := List.cons.inj split
      exact grown

theorem not_mem_splitLines {text line : List Char} (listed : line ∈ splitLines text) :
    '\n' ∉ line := by
  induction text generalizing line with
  | nil =>
      simp only [splitLines, List.mem_singleton] at listed
      simp [listed]
  | cons c rest ih =>
      by_cases newline : c = '\n'
      · simp only [splitLines, newline, if_true, List.mem_cons] at listed
        rcases listed with rfl | later
        · simp
        · exact ih later
      · obtain ⟨first, lines, split, grown⟩ := splitLines_cons newline rest
        rw [grown, List.mem_cons] at listed
        rcases listed with rfl | later
        · have clean := @ih first (by simp [split])
          simp [Ne.symm newline, clean]
        · exact ih (by simp [split, later])

/-- The lines of a text, each ended but the last. -/
def joinLines (lines : List (List Char)) : List Char := List.intercalate ['\n'] lines

theorem joinLines_cons (first : List Char) {rest : List (List Char)} (some' : rest ≠ []) :
    joinLines (first :: rest) = first ++ '\n' :: joinLines rest := by
  cases rest with
  | nil => exact absurd rfl some'
  | cons second others => simp [joinLines, List.intercalate, List.intersperse]

theorem splitLines_joinLines {lines : List (List Char)} (some' : lines ≠ []) :
    splitLines (joinLines lines) = lines.flatMap splitLines := by
  induction lines with
  | nil => exact absurd rfl some'
  | cons first rest ih =>
      cases rest with
      | nil => simp [joinLines]
      | cons second others =>
          rw [joinLines_cons first (by simp), splitLines_append, ih (by simp)]
          rfl

/-- A first line that is itself made of lines. -/
theorem joinLines_joinLines {lines rest : List (List Char)} (some' : lines ≠ [])
    (more : rest ≠ []) : joinLines (joinLines lines :: rest) = joinLines (lines ++ rest) := by
  induction lines with
  | nil => exact absurd rfl some'
  | cons first others ih =>
      rw [joinLines_cons _ more]
      cases others with
      | nil =>
          rw [List.singleton_append, joinLines_cons first more]
          simp [joinLines]
      | cons second others =>
          rw [joinLines_cons first (by simp), List.cons_append, joinLines_cons first (by simp),
            ← ih (by simp), joinLines_cons _ more, List.append_assoc, List.cons_append]

theorem zipIdx_filterMap {α β γ : Type} (f : α → Option β) (g : β → Nat → γ) (h : γ → β)
    (back : ∀ value index, h (g value index) = value) (elements : List α) (start : Nat) :
    ((elements.zipIdx start).filterMap fun element =>
      (f element.1).map fun value => g value element.2).map h = elements.filterMap f := by
  induction elements generalizing start with
  | nil => rfl
  | cons first rest ih =>
      rw [List.zipIdx_cons, List.filterMap_cons, List.filterMap_cons]
      cases f first with
      | none => exact ih (start + 1)
      | some value =>
          simp only [Option.map_some, List.map_cons, back]
          rw [ih (start + 1)]

theorem lineTokens_eq (text : String) : lineTokens text =
    ((splitLines text.toList).filterMap logicalLine).map (readTokens .idle) := by
  rw [← zipIdx_filterMap logicalLine (fun trimmed no => (⟨no, String.ofList trimmed⟩ : Line))
    (fun line => line.text.toList) (by simp) (splitLines text.toList) 1, List.map_map]
  rfl

/-! Tokens spelt out are read back. -/

def isPlain (c : Char) : Bool := !isSpace c && c ≠ '"' && c ≠ '#' && c ≠ '/'

/-- A word of plain characters, or a literal with no quote and no comment marker in it. -/
def Token.Spelt : Token → Prop
  | .word text => text ≠ "" ∧ ∀ c ∈ text.toList, isPlain c = true
  | .literal text => ∀ c ∈ text.toList, c ≠ '"' ∧ c ≠ '#' ∧ c ≠ '/' ∧ c ≠ '\n'
  | .unterminated _ => False

instance : (token : Token) → Decidable token.Spelt
  | .word text => @instDecidableAnd _ _ _ (List.decidableBAll (isPlain · = true) text.toList)
  | .literal text =>
      List.decidableBAll (fun c => c ≠ '"' ∧ c ≠ '#' ∧ c ≠ '/' ∧ c ≠ '\n') text.toList
  | .unterminated _ => instDecidableFalse

def Token.spell : Token → List Char
  | .word text => text.toList
  | .literal text => '"' :: (text.toList ++ ['"'])
  | .unterminated text => '"' :: text.toList

def spell (tokens : List Token) : List Char := List.intercalate [' '] (tokens.map Token.spell)

theorem spell_cons {first second : Token} {rest : List Token} :
    spell (first :: second :: rest) = first.spell ++ ' ' :: spell (second :: rest) := by
  simp [spell, List.intercalate]

theorem readTokens_word {word : List Char} (plain : ∀ c ∈ word, isPlain c = true)
    (text rest : List Char) :
    readTokens (.word text) (word ++ ' ' :: rest) =
      .word (String.ofList (text ++ word)) :: readTokens .idle rest ∧
    readTokens (.word text) word = [.word (String.ofList (text ++ word))] := by
  induction word generalizing text with
  | nil => simp [readTokens, isSpace]
  | cons c others ih =>
      simp only [List.forall_mem_cons, isPlain, Bool.and_eq_true, Bool.not_eq_true',
        decide_eq_true_eq] at plain
      obtain ⟨⟨⟨⟨space, quote⟩, _⟩, _⟩, later⟩ := plain
      have again := ih (fun c listed => by simpa [isPlain] using later c listed) (text ++ [c])
      rw [List.append_assoc, List.singleton_append] at again
      constructor
      · rw [List.cons_append, readTokens]
        simp only [space, Bool.false_eq_true, if_false, quote]
        exact again.1
      · rw [readTokens]
        simp only [space, Bool.false_eq_true, if_false, quote]
        exact again.2

theorem readTokens_literal {literal : List Char} (closed : '"' ∉ literal) (text rest : List Char) :
    readTokens (.literal text) (literal ++ '"' :: rest) =
      .literal (String.ofList (text ++ literal)) :: readTokens .idle rest := by
  induction literal generalizing text with
  | nil => simp [readTokens]
  | cons c others ih =>
      simp only [List.mem_cons, not_or] at closed
      rw [List.cons_append, readTokens, if_neg (Ne.symm closed.1), ih closed.2]
      simp

theorem readTokens_spell_token {token : Token} (spelt : token.Spelt) (rest : List Char) :
    readTokens .idle (token.spell ++ ' ' :: rest) = token :: readTokens .idle rest ∧
    readTokens .idle token.spell = [token] := by
  cases token with
  | word text =>
      obtain ⟨some', plain⟩ := spelt
      cases split : text.toList with
      | nil =>
          have empty : text = "" := by
            rw [← String.ofList_toList (s := text), split]
          exact absurd empty some'
      | cons c others =>
          rw [split] at plain
          have first := plain c List.mem_cons_self
          simp only [isPlain, Bool.and_eq_true, Bool.not_eq_true', decide_eq_true_eq] at first
          have read := readTokens_word
            (fun c listed => plain c (List.mem_cons_of_mem _ listed)) [c] rest
          have whole : String.ofList ([c] ++ others) = text := by
            rw [List.singleton_append, ← split, String.ofList_toList]
          rw [whole] at read
          simp only [Token.spell, split, List.cons_append, readTokens, first.1.1.1,
            Bool.false_eq_true, if_false, first.1.1.2]
          exact read
  | literal text =>
      have closed : '"' ∉ text.toList := fun listed => (spelt _ listed).1 rfl
      have read := fun rest => readTokens_literal closed [] rest
      simp only [List.nil_append, String.ofList_toList] at read
      constructor
      · simp only [Token.spell, List.cons_append, List.append_assoc, List.nil_append]
        rw [readTokens]
        simp [isSpace, read, readTokens]
      · simp only [Token.spell]
        rw [readTokens]
        simp [isSpace, read, readTokens]
  | unterminated text => exact spelt.elim

theorem readTokens_spell {tokens : List Token} (spelt : ∀ token ∈ tokens, token.Spelt) :
    readTokens .idle (spell tokens) = tokens := by
  induction tokens with
  | nil => rfl
  | cons first rest ih =>
      simp only [List.forall_mem_cons] at spelt
      cases rest with
      | nil =>
          have alone : spell [first] = first.spell := by simp [spell, List.intercalate]
          rw [alone]
          exact (readTokens_spell_token spelt.1 []).2
      | cons second others =>
          rw [spell_cons, (readTokens_spell_token spelt.1 _).1, ih spelt.2]

theorem stripComment_unmarked {line : List Char} (unmarked : ∀ c ∈ line, c ≠ '#' ∧ c ≠ '/')
    (inStr : Bool) : stripComment inStr line = line := by
  induction line generalizing inStr with
  | nil => rfl
  | cons c rest ih =>
      simp only [List.forall_mem_cons] at unmarked
      rw [stripComment]
      split
      · rw [ih unmarked.2]
      · simp [unmarked.1.1, unmarked.1.2, ih unmarked.2]

theorem dropWhile_isSpace {text : List Char} {c : Char} (first : text.head? = some c)
    (solid : isSpace c = false) : text.dropWhile isSpace = text := by
  cases text with
  | nil => rfl
  | cons d rest =>
      rw [List.head?_cons, Option.some.injEq] at first
      rw [List.dropWhile_cons, first, solid, if_neg Bool.false_ne_true]

theorem dropWhile_indent (width : Nat) (text : List Char) :
    (List.replicate width ' ' ++ text).dropWhile isSpace = text.dropWhile isSpace := by
  induction width with
  | zero => rfl
  | succ width ih =>
      rw [List.replicate_succ, List.cons_append, List.dropWhile_cons, if_pos (by decide), ih]

/-- A blank line, or one that is a comment from its first mark on. -/
def Quiet (line : List Char) : Prop := logicalLine line = none

instance (line : List Char) : Decidable (Quiet line) := by
  unfold Quiet
  infer_instance

/-- A text of solid ends and without comments is the whole of its line, however indented. -/
theorem logicalLine_indent {width : Nat} {text : List Char} {first last : Char}
    (unmarked : ∀ c ∈ text, c ≠ '#' ∧ c ≠ '/') (start : text.head? = some first)
    (ends : text.getLast? = some last) (solidFirst : isSpace first = false)
    (solidLast : isSpace last = false) :
    logicalLine (List.replicate width ' ' ++ text) = some text := by
  have whole : ∀ c ∈ List.replicate width ' ' ++ text, c ≠ '#' ∧ c ≠ '/' := by
    intro c listed
    rcases List.mem_append.mp listed with blank | inner
    · rw [(List.mem_replicate.mp blank).2]
      decide
    · exact unmarked c inner
  have reversed : text.reverse.head? = some last := by rw [List.head?_reverse, ends]
  have trimmed : trim (List.replicate width ' ' ++ text) = text := by
    rw [trim, dropWhile_indent, dropWhile_isSpace start solidFirst,
      dropWhile_isSpace reversed solidLast, List.reverse_reverse]
  have some' : text ≠ [] := by
    rintro rfl
    simp at start
  rw [logicalLine, stripComment_unmarked whole, trimmed, if_neg some']

theorem Token.Spelt.unmarked {token : Token} (spelt : token.Spelt) :
    ∀ c ∈ token.spell, c ≠ '#' ∧ c ≠ '/' := by
  cases token with
  | word text =>
      intro c listed
      have plain := spelt.2 c listed
      simp only [isPlain, Bool.and_eq_true, decide_eq_true_eq] at plain
      exact ⟨plain.1.2, plain.2⟩
  | literal text =>
      intro c listed
      simp only [Token.spell, List.mem_cons, List.mem_append, List.not_mem_nil, or_false] at listed
      rcases listed with rfl | inner | rfl
      · decide
      · exact ⟨(spelt c inner).2.1, (spelt c inner).2.2.1⟩
      · decide
  | unterminated text => exact spelt.elim

/-- A token starts and ends with characters that are no blanks. -/
theorem Token.Spelt.solid {token : Token} (spelt : token.Spelt) :
    (∃ first, token.spell.head? = some first ∧ isSpace first = false) ∧
    ∃ last, token.spell.getLast? = some last ∧ isSpace last = false := by
  cases token with
  | word text =>
      have some' : text.toList ≠ [] := by
        intro empty
        refine spelt.1 ?_
        rw [← String.ofList_toList (s := text), empty]
      have plain := fun c listed => spelt.2 c listed
      simp only [isPlain, Bool.and_eq_true, Bool.not_eq_true', decide_eq_true_eq] at plain
      refine ⟨⟨text.toList.head some', List.head?_eq_some_head some', ?_⟩,
        ⟨text.toList.getLast some', List.getLast?_eq_some_getLast some', ?_⟩⟩
      · exact (plain _ (List.head_mem some')).1.1.1
      · exact (plain _ (List.getLast_mem some')).1.1.1
  | literal text =>
      refine ⟨⟨'"', rfl, by decide⟩, '"', ?_, by decide⟩
      simp only [Token.spell]
      rw [← List.cons_append, List.getLast?_concat]
  | unterminated text => exact spelt.elim

theorem spell_unmarked {tokens : List Token} (spelt : ∀ token ∈ tokens, token.Spelt) :
    ∀ c ∈ spell tokens, c ≠ '#' ∧ c ≠ '/' := by
  induction tokens with
  | nil => simp [spell, List.intercalate]
  | cons first rest ih =>
      simp only [List.forall_mem_cons] at spelt
      cases rest with
      | nil =>
          simp only [spell, List.map_cons, List.map_nil, List.intercalate, List.intersperse,
            List.flatten_cons, List.flatten_nil, List.append_nil]
          exact spelt.1.unmarked
      | cons second others =>
          intro c listed
          rw [spell_cons, List.mem_append, List.mem_cons] at listed
          rcases listed with here | rfl | later
          · exact spelt.1.unmarked c here
          · decide
          · exact ih spelt.2 c later

theorem spell_solid {tokens : List Token} (some' : tokens ≠ [])
    (spelt : ∀ token ∈ tokens, token.Spelt) :
    (∃ first, (spell tokens).head? = some first ∧ isSpace first = false) ∧
    ∃ last, (spell tokens).getLast? = some last ∧ isSpace last = false := by
  induction tokens with
  | nil => exact absurd rfl some'
  | cons first rest ih =>
      simp only [List.forall_mem_cons] at spelt
      cases rest with
      | nil =>
          simp only [spell, List.map_cons, List.map_nil, List.intercalate, List.intersperse,
            List.flatten_cons, List.flatten_nil, List.append_nil]
          exact spelt.1.solid
      | cons second others =>
          obtain ⟨⟨c, start, solid⟩, _⟩ := spelt.1.solid
          obtain ⟨_, last, ends, solidLast⟩ := ih (by simp) spelt.2
          rw [spell_cons]
          refine ⟨⟨c, ?_, solid⟩, last, ?_, solidLast⟩
          · rw [List.head?_append, start, Option.some_or]
          · rw [List.getLast?_append, List.getLast?_cons, ends]
            rfl

/-- A line of tokens with single blanks between them is read back, however indented. -/
theorem logicalLine_spell (width : Nat) {tokens : List Token} (some' : tokens ≠ [])
    (spelt : ∀ token ∈ tokens, token.Spelt) :
    logicalLine (List.replicate width ' ' ++ spell tokens) = some (spell tokens) := by
  obtain ⟨⟨first, start, solidFirst⟩, last, ends, solidLast⟩ := spell_solid some' spelt
  exact logicalLine_indent (spell_unmarked spelt) start ends solidFirst solidLast

/-! What is read of a line is a part of it. -/

theorem mem_stripComment {inStr : Bool} {line : List Char} {c : Char}
    (kept : c ∈ stripComment inStr line) : c ∈ line := by
  induction line generalizing inStr with
  | nil => exact kept
  | cons d rest ih =>
      rw [stripComment] at kept
      split at kept
      · rcases List.mem_cons.mp kept with rfl | later
        · exact List.mem_cons_self
        · exact List.mem_cons_of_mem _ (ih later)
      · split at kept
        · simp at kept
        · rcases List.mem_cons.mp kept with rfl | later
          · exact List.mem_cons_self
          · exact List.mem_cons_of_mem _ (ih later)

theorem mem_trim {text : List Char} {c : Char} (kept : c ∈ trim text) : c ∈ text := by
  rw [trim, List.mem_reverse] at kept
  have inner := (List.dropWhile_sublist isSpace).mem kept
  rw [List.mem_reverse] at inner
  exact (List.dropWhile_sublist isSpace).mem inner

theorem mem_logicalLine {line text : List Char} (read : logicalLine line = some text) {c : Char}
    (kept : c ∈ text) : c ∈ line := by
  rw [logicalLine] at read
  split at read
  · cases read
  · cases read
    exact mem_stripComment (mem_trim kept)

def Token.text : Token → String
  | .word text => text
  | .literal text => text
  | .unterminated text => text

def Mode.text : Mode → List Char
  | .idle => []
  | .word text => text
  | .literal text => text

theorem mem_readTokens {mode : Mode} {line : List Char} {token : Token}
    (read : token ∈ readTokens mode line) {c : Char} (kept : c ∈ token.text.toList) :
    c ∈ mode.text ∨ c ∈ line := by
  induction line generalizing mode with
  | nil =>
      cases mode with
      | idle => simp [readTokens] at read
      | word text =>
          simp only [readTokens, List.mem_singleton] at read
          subst read
          exact .inl (by simpa [Token.text, Mode.text] using kept)
      | literal text =>
          simp only [readTokens, List.mem_singleton] at read
          subst read
          exact .inl (by simpa [Token.text, Mode.text] using kept)
  | cons d rest ih =>
      have later : ∀ {next : Mode}, token ∈ readTokens next rest →
          (∀ e ∈ next.text, e ∈ mode.text ∨ e = d) → c ∈ mode.text ∨ c ∈ d :: rest := by
        intro next listed grown
        rcases ih listed with held | inner
        · rcases grown c held with before | rfl
          · exact .inl before
          · exact .inr List.mem_cons_self
        · exact .inr (List.mem_cons_of_mem _ inner)
      cases mode with
      | idle =>
          rw [readTokens] at read
          split at read
          · exact later read (by simp [Mode.text])
          · split at read
            · exact later read (by simp [Mode.text])
            · exact later read (by simp [Mode.text])
      | word text =>
          rw [readTokens] at read
          split at read
          · rcases List.mem_cons.mp read with rfl | read
            · exact .inl (by simpa [Token.text, Mode.text] using kept)
            · exact later read (by simp [Mode.text])
          · split at read
            · rcases List.mem_cons.mp read with rfl | read
              · exact .inl (by simpa [Token.text, Mode.text] using kept)
              · exact later read (by simp [Mode.text])
            · exact later read (by simp [Mode.text])
      | literal text =>
          rw [readTokens] at read
          split at read
          · rcases List.mem_cons.mp read with rfl | read
            · exact .inl (by simpa [Token.text, Mode.text] using kept)
            · exact later read (by simp [Mode.text])
          · exact later read (by simp [Mode.text])

/-- No token holds a line end. -/
theorem lineTokens_clean {text : String} {tokens : List Token} (listed : tokens ∈ lineTokens text)
    {token : Token} (read : token ∈ tokens) : '
' ∉ token.text.toList := by
  rw [lineTokens_eq, List.mem_map] at listed
  obtain ⟨trimmed, kept, rfl⟩ := listed
  obtain ⟨line, split, logical⟩ := List.mem_filterMap.mp kept
  intro newline
  rcases mem_readTokens read newline with held | inner
  · simp [Mode.text] at held
  · exact not_mem_splitLines split (mem_logicalLine logical inner)

/-! A text line by line. -/

theorem toList_intercalate_lines (lines : List String) :
    (String.intercalate "\n" lines).toList = joinLines (lines.map String.toList) := by
  rw [String.toList_intercalate]
  rfl

theorem intercalate_intercalate {lines rest : List String} (some' : lines ≠ []) (more : rest ≠ []) :
    String.intercalate "\n" (String.intercalate "\n" lines :: rest) =
      String.intercalate "\n" (lines ++ rest) := by
  apply String.toList_injective
  rw [toList_intercalate_lines, toList_intercalate_lines, List.map_cons, toList_intercalate_lines,
    List.map_append]
  exact joinLines_joinLines (by simpa using some') (by simpa using more)

/-- The tokens of a text are those of its lines. -/
theorem lineTokens_intercalate {lines : List String} (some' : lines ≠ []) :
    lineTokens (String.intercalate "\n" lines) = lines.flatMap lineTokens := by
  rw [lineTokens_eq, toList_intercalate_lines, splitLines_joinLines (by simpa using some'),
    List.flatMap_map, List.filterMap_flatMap, List.map_flatMap]
  congr 1
  funext line
  rw [lineTokens_eq]

theorem Token.Spelt.clean {token : Token} (spelt : token.Spelt) : '\n' ∉ token.spell := by
  cases token with
  | word text =>
      intro newline
      have plain := spelt.2 '\n' newline
      revert plain
      decide
  | literal text =>
      simp only [Token.spell, List.mem_cons, List.mem_append, List.not_mem_nil, or_false, not_or]
      exact ⟨by decide, fun inner => (spelt _ inner).2.2.2 rfl, by decide⟩
  | unterminated text => exact spelt.elim

theorem spell_clean {tokens : List Token} (spelt : ∀ token ∈ tokens, token.Spelt) :
    '\n' ∉ spell tokens := by
  induction tokens with
  | nil => simp [spell, List.intercalate]
  | cons first rest ih =>
      simp only [List.forall_mem_cons] at spelt
      cases rest with
      | nil =>
          simp only [spell, List.map_cons, List.map_nil, List.intercalate, List.intersperse,
            List.flatten_cons, List.flatten_nil, List.append_nil]
          exact spelt.1.clean
      | cons second others =>
          rw [spell_cons, List.mem_append, List.mem_cons, not_or, not_or]
          exact ⟨spelt.1.clean, by decide, ih spelt.2⟩

theorem lineTokens_line (width : Nat) {tokens : List Token} {text : String}
    (spelled : text.toList = List.replicate width ' ' ++ spell tokens) (some' : tokens ≠ [])
    (spelt : ∀ token ∈ tokens, token.Spelt) : lineTokens text = [tokens] := by
  have clean : '\n' ∉ text.toList := by
    rw [spelled, List.mem_append, not_or]
    refine ⟨?_, spell_clean spelt⟩
    rw [List.mem_replicate]
    rintro ⟨_, blank⟩
    revert blank
    decide
  rw [lineTokens_eq, splitLines_of_clean clean, List.filterMap_cons, spelled,
    logicalLine_spell width some' spelt]
  simp only [List.filterMap_nil, List.map_cons, List.map_nil, readTokens_spell spelt]

theorem lineTokens_nil_iff {text : String} :
    lineTokens text = [] ↔ ∀ line ∈ splitLines text.toList, Quiet line := by
  rw [lineTokens_eq, List.map_eq_nil_iff, List.filterMap_eq_nil_iff]
  rfl

end SourceLines

end Neutrino
