import Neutrino.MlirLexing

/-! An accepted attribute comes back from its text exactly where the names of its calls stand for
themselves between quotes. -/

namespace Neutrino

open Checked

namespace ExprAttrText

/-! What a literal spells. -/

theorem spells_length {plain : Char → Bool} {raw text : List Char} (spells : Spells plain raw text) :
    raw = text ∧ text.all plain = true ∨ text.length < raw.length := by
  induction spells with
  | done => exact .inl ⟨rfl, rfl⟩
  | char stands rest ih =>
      rcases ih with ⟨rfl, all⟩ | shorter
      · exact .inl ⟨rfl, by simp [stands, all]⟩
      · exact .inr (by simpa using shorter)
  | escape known rest ih =>
      refine .inr ?_
      rcases ih with ⟨rfl, -⟩ | shorter <;> simp only [List.length_cons] <;> omega
  | hex digits rest ih =>
      refine .inr ?_
      rcases ih with ⟨rfl, -⟩ | shorter <;> simp only [List.length_cons] <;> omega

/-- The first quote of a literal is escaped, so the text has a quote before that place. -/
theorem spells_quote {plain : Char → Bool} (quoted : plain '"' = false) {raw text : List Char}
    (spells : Spells plain raw text) {clean rest : List Char} (split : raw = clean ++ '"' :: rest)
    (none : '"' ∉ clean) : ∃ before after, text = before ++ '"' :: after ∧
      before.length < clean.length := by
  induction spells generalizing clean with
  | done => simp at split
  | @char c raw text stands _ ih =>
      cases clean with
      | nil =>
          rw [List.nil_append, List.cons.injEq] at split
          rw [split.1, quoted] at stands
          contradiction
      | cons first clean =>
          rw [List.cons_append, List.cons.injEq] at split
          obtain ⟨before, after, rfl, shorter⟩ := ih split.2 (fun listed => none (.tail _ listed))
          exact ⟨c :: before, after, rfl, by simpa using shorter⟩
  | @escape written c raw text known _ ih =>
      match clean with
      | [] => exact absurd (List.cons.inj split).1 (by decide)
      | [_] =>
          simp only [List.cons_append, List.nil_append, List.cons.injEq] at split
          have same : c = '"' := by simpa [split.2.1] using known
          exact ⟨[], text, by rw [same]; rfl, by simp⟩
      | _ :: _ :: clean =>
          simp only [List.cons_append, List.cons.injEq] at split
          obtain ⟨before, after, rfl, shorter⟩ :=
            ih split.2.2 (fun listed => none (.tail _ (.tail _ listed)))
          exact ⟨c :: before, after, rfl, by simp only [List.length_cons]; omega⟩
  | @hex high low c raw text digits _ ih =>
      match clean with
      | [] => exact absurd (List.cons.inj split).1 (by decide)
      | [_] =>
          simp only [List.cons_append, List.nil_append, List.cons.injEq] at split
          rw [split.2.1] at digits
          exact absurd digits.1 (by decide)
      | [_, _] =>
          simp only [List.cons_append, List.nil_append, List.cons.injEq] at split
          rw [split.2.2.1] at digits
          exact absurd digits.2 (by decide)
      | _ :: _ :: _ :: clean =>
          simp only [List.cons_append, List.cons.injEq] at split
          obtain ⟨before, after, rfl, shorter⟩ :=
            ih split.2.2.2 (fun listed => none (.tail _ (.tail _ (.tail _ listed))))
          exact ⟨c :: before, after, rfl, by simp only [List.length_cons]; omega⟩

/-- No literal that goes on past its own text spells that text. -/
theorem spells_stops {plain : Char → Bool} (quoted : plain '"' = false) {text more : List Char}
    (spells : Spells plain (text ++ '"' :: more) text) : False := by
  have listed : '"' ∈ text ++ '"' :: more := by simp
  obtain ⟨clean, rest, split, none⟩ := List.eq_append_cons_of_mem listed
  obtain ⟨before, after, found, shorter⟩ := spells_quote quoted spells split none
  rw [found, List.append_assoc, List.cons_append] at split
  have here : (before ++ '"' :: (after ++ '"' :: more))[before.length]? = some '"' := by simp
  rw [split, List.getElem?_append_left shorter] at here
  exact none (List.mem_of_getElem? here)

/-! The fields of an accepted node. -/

section Fields

variable (lexing : Lexing)

mutual

/-- The names of the calls stand for themselves between quotes. -/
def Tree.Plain : Tree → Prop
  | .mk kind _ _ _ name _ children =>
      (kind = "call" → name.toList.all lexing.plain = true) ∧ allPlain children

def allPlain : List Tree → Prop
  | [] => True
  | child :: rest => child.Plain ∧ allPlain rest

end

/-- What the verifier leaves of the fields for the lexer. -/
structure Fields (kind dtype name binop : String) : Prop where
  kind_word : kind ≠ "" ∧ kind.toList.all Char.isLower = true
  dtype_word : dtype ≠ "" ∧ dtype.toList.all Char.isLower = true
  name_plain : kind ≠ "call" → name.toList.all lexing.plain = true
  binop_plain : binop.toList.all lexing.plain = true

theorem printable_plain {text : String}
    (printable : text.toList.all (fun c => ' ' ≤ c && c ≤ '~' && c ≠ '"' && c ≠ '\\') = true) :
    text.toList.all lexing.plain = true := by
  rw [List.all_eq_true] at printable ⊢
  intro c listed
  have range := printable c listed
  simp only [Bool.and_eq_true, decide_eq_true_eq, ne_eq] at range
  obtain ⟨⟨⟨low, high⟩, quote⟩, escape⟩ := range
  exact lexing.printable c low high (by simpa using quote) (by simpa using escape)

theorem fields_of_verify {kind dtype name binop : String} {num slot : Int64} {children : List Tree}
    (verified : verify kind dtype num slot name binop children = .ok ()) :
    Fields lexing kind dtype name binop := by
  simp only [verify, check_ok, require_ok] at verified
  obtain ⟨canonical, -, noName, noBinop, -, shape⟩ := verified
  have dtypeWord : dtype ≠ "" ∧ dtype.toList.all Char.isLower = true := by
    rw [← canonical]
    cases categoryFromName dtype <;> decide
  have binopPlain (given : kind ≠ "bin") : binop.toList.all lexing.plain = true := by
    have empty : binop = "" := by
      by_contra filled
      exact noBinop ⟨given, filled⟩
    simp [empty]
  have namePlain (cmp : kind ≠ "cmp") (call : kind ≠ "call") :
      name.toList.all lexing.plain = true := by
    have empty : name = "" := by
      by_contra filled
      exact noName ⟨cmp, call, filled⟩
    simp [empty]
  split_ifs at shape with isNum isVar isBin isCmp isCall
  · subst isNum
    exact ⟨by decide, dtypeWord, fun _ => namePlain (by decide) (by decide), binopPlain (by decide)⟩
  · subst isVar
    exact ⟨by decide, dtypeWord, fun _ => namePlain (by decide) (by decide), binopPlain (by decide)⟩
  · subst isBin
    rw [require_ok] at shape
    refine ⟨by decide, dtypeWord, fun _ => namePlain (by decide) (by decide), ?_⟩
    apply printable_plain
    have known := shape.2
    simp only [List.mem_cons, List.not_mem_nil, or_false] at known
    rcases known with rfl | rfl | rfl | rfl <;> decide
  · subst isCmp
    rw [require_ok] at shape
    refine ⟨by decide, dtypeWord, fun _ => ?_, binopPlain (by decide)⟩
    apply printable_plain
    have known := shape.2
    simp only [comparisons, List.mem_cons, List.not_mem_nil, or_false] at known
    rcases known with rfl | rfl | rfl | rfl | rfl | rfl <;> decide
  · subst isCall
    exact ⟨by decide, dtypeWord, fun given => absurd rfl given, binopPlain (by decide)⟩

/-- Reading a node up to its name. -/
theorem parse_fields {fuel : Nat} {kind dtype name binop : String} {num slot : Int64}
    (fields : Fields lexing kind dtype name binop) (text : List Char) :
    parse lexing (fuel + 1) ('<' :: (kind.toList ++ ' ' :: (dtype.toList ++ ' ' ::
        ((toString num).toList ++ ' ' :: ((toString slot).toList ++ ' ' :: '"' :: text))))) =
      (lexing.string ('"' :: text)).bind fun read =>
        parseNamed lexing (parseChildren lexing fuel) kind dtype num slot read.1 read.2 := by
  rw [parse]
  simp only [lexing.mark_here '<' (by decide), Option.bind_eq_bind, Option.bind_some,
    lexing.word_letters kind fields.kind_word.1 fields.kind_word.2, lexing.word_blank,
    lexing.word_letters dtype fields.dtype_word.1 fields.dtype_word.2, lexing.integer_blank,
    lexing.integer_decimal, lexing.string_blank]

variable {kind dtype name binop : String}

/-- Reading on after the name of a leaf. -/
theorem parseNamed_leaf (readChildren : List Char → Option (List Tree × List Char))
    (num slot : Int64) (fields : Fields lexing kind dtype name binop) (found : String)
    (rest : List Char) :
    parseNamed lexing readChildren kind dtype num slot found
        (' ' :: '"' :: (binop.toList ++ '"' :: ' ' :: '[' :: ']' :: '>' :: rest)) =
      if verify kind dtype num slot found binop [] = .ok () then
        some (.mk kind dtype num slot found binop [], rest)
      else none := by
  simp only [parseNamed, lexing.string_blank, lexing.string_plain binop fields.binop_plain,
    lexing.mark_blank, lexing.mark_here '[' (by decide), lexing.mark_here ']' (by decide),
    lexing.mark_here '>' (by decide), Option.bind_eq_bind, Option.bind_some]

variable {readChildren : List Char → Option (List Tree × List Char)} {num slot : Int64}

/-- Reading on after the name of a node with children. -/
theorem parseNamed_children (fields : Fields lexing kind dtype name binop) (found : String)
    (text : List Char) :
    parseNamed lexing readChildren kind dtype num slot found
        (' ' :: '"' :: (binop.toList ++ '"' :: ' ' :: '[' :: '#' :: text)) =
      (readChildren ('#' :: text)).bind fun read =>
        (lexing.mark ']' read.2).bind fun text => (lexing.mark '>' text).bind fun text =>
          if verify kind dtype num slot found binop read.1 = .ok () then
            some (.mk kind dtype num slot found binop read.1, text)
          else none := by
  simp only [parseNamed, lexing.string_blank, lexing.string_plain binop fields.binop_plain,
    lexing.mark_blank, lexing.mark_here '[' (by decide),
    lexing.mark_other ']' (by decide) '#' (by decide) (by decide), Option.bind_eq_bind,
    Option.bind_some, Option.bind_assoc, Option.bind_map]
  rfl

theorem parseChildren_blank (fuel : Nat) (text : List Char) :
    parseChildren lexing fuel (' ' :: text) = parseChildren lexing fuel text := by
  cases fuel with
  | zero => rfl
  | succ fuel => rw [parseChildren, parseChildren, lexing.hash_blank]

theorem print_mk (kind dtype : String) (num slot : Int64) (name binop : String)
    (children : List Tree) (rest : List Char) :
    print (.mk kind dtype num slot name binop children) ++ rest =
      '<' :: (kind.toList ++ ' ' :: (dtype.toList ++ ' ' :: ((toString num).toList ++
        ' ' :: ((toString slot).toList ++ ' ' :: '"' :: (name.toList ++ '"' :: ' ' :: '"' ::
          (binop.toList ++ '"' :: ' ' :: '[' :: (printChildren children ++ ']' :: '>' :: rest))))))) := by
  simp [print]

/-- The children's text begins as an attribute. -/
theorem printChildren_hash (child : Tree) (more : List Tree) :
    ∃ text, printChildren (child :: more) = '#' :: text :=
  ⟨_, rfl⟩

theorem print_open (tree : Tree) : ∃ text, print tree = '<' :: text := by
  cases tree
  exact ⟨_, rfl⟩

/-- The first child is read as an attribute of its own. -/
theorem parseChildren_cons (fuel : Nat) (child : Tree) (more : List Tree) (rest : List Char) :
    parseChildren lexing (fuel + 1) (printChildren (child :: more) ++ rest) =
      (parse lexing fuel (print child ++ (printMore more ++ rest))).bind fun read =>
        match lexing.mark ',' read.2 with
        | some text => (parseChildren lexing fuel text).map fun others =>
            (read.1 :: others.1, others.2)
        | none => some ([read.1], read.2) := by
  obtain ⟨text, opened⟩ := print_open child
  rw [parseChildren]
  simp only [printChildren, opened, List.append_assoc, List.cons_append, lexing.hash_here,
    Option.bind_eq_bind, Option.bind_some]
  congr 1
  funext read
  cases lexing.mark ',' read.2 with
  | none => rfl
  | some text => simp [Option.map_eq_bind]

theorem printMore_cons (child : Tree) (more : List Tree) :
    printMore (child :: more) = ',' :: ' ' :: printChildren (child :: more) := by
  rw [printMore, printChildren]

theorem printChildren_length (child : Tree) (more : List Tree) :
    (printChildren (child :: more)).length =
      attributeName.length + (print child).length + (printMore more).length := by
  rw [printChildren, List.length_append, List.length_append, Nat.add_assoc]

theorem print_shorter {fuel : Nat} (child : Tree) (more : List Tree)
    (enough : (printChildren (child :: more)).length ≤ fuel + 1) : (print child).length ≤ fuel := by
  rw [printChildren_length] at enough
  have named : 0 < attributeName.length := by decide
  omega

theorem printMore_shorter {fuel : Nat} (child next : Tree) (more : List Tree)
    (enough : (printChildren (child :: next :: more)).length ≤ fuel + 1) :
    (printChildren (next :: more)).length ≤ fuel := by
  rw [printChildren_length, printMore_cons, List.length_cons, List.length_cons] at enough
  have named : 0 < attributeName.length := by decide
  omega

theorem accepted_mk {children : List Tree} :
    (Tree.mk kind dtype num slot name binop children).Accepted ↔
      verify kind dtype num slot name binop children = .ok () ∧ allAccepted children := by
  rw [Tree.Accepted]

theorem plain_mk {children : List Tree} :
    (Tree.mk kind dtype num slot name binop children).Plain lexing ↔
      (kind = "call" → name.toList.all lexing.plain = true) ∧ allPlain lexing children := by
  rw [Tree.Plain]

theorem name_plain (fields : Fields lexing kind dtype name binop)
    (call : kind = "call" → name.toList.all lexing.plain = true) :
    name.toList.all lexing.plain = true := by
  by_cases isCall : kind = "call"
  · exact call isCall
  · exact fields.name_plain isCall

mutual

theorem parse_print : ∀ (tree : Tree) (fuel : Nat) (rest : List Char), tree.Accepted →
    tree.Plain lexing → (print tree).length ≤ fuel →
    parse lexing fuel (print tree ++ rest) = some (tree, rest)
  | .mk kind dtype num slot name binop children, 0, rest, _, _, enough => by
      simp [print] at enough
  | .mk kind dtype num slot name binop [], fuel + 1, rest, accepted, plain, enough => by
      rw [accepted_mk] at accepted
      rw [plain_mk] at plain
      have fields := fields_of_verify lexing accepted.1
      have namePlain := name_plain lexing fields plain.1
      rw [print_mk, parse_fields lexing fields, lexing.string_plain name namePlain]
      have read := parseNamed_leaf lexing (parseChildren lexing fuel) num slot fields name rest
      simp only [Option.bind_some, printChildren, List.nil_append, read, accepted.1, if_true]
  | .mk kind dtype num slot name binop (child :: more), fuel + 1, rest, accepted, plain, enough => by
      rw [accepted_mk] at accepted
      rw [plain_mk] at plain
      have fields := fields_of_verify lexing accepted.1
      have namePlain := name_plain lexing fields plain.1
      rw [print_mk, parse_fields lexing fields, lexing.string_plain name namePlain]
      obtain ⟨text, hash⟩ := printChildren_hash child more
      have shorter : (printChildren (child :: more)).length ≤ fuel := by
        have := congrArg List.length (print_mk kind dtype num slot name binop (child :: more) [])
        simp only [List.append_nil, List.length_cons, List.length_append] at this
        omega
      have inner := parseChildren_print child more fuel ('>' :: rest) accepted.2 plain.2 shorter
      simp only [hash, List.cons_append] at inner
      simp only [Option.bind_some, hash, List.cons_append, parseNamed_children lexing fields, inner,
        lexing.mark_here ']' (by decide), lexing.mark_here '>' (by decide), accepted.1, if_true]

theorem parseChildren_print : ∀ (child : Tree) (more : List Tree) (fuel : Nat) (rest : List Char),
    allAccepted (child :: more) → allPlain lexing (child :: more) →
    (printChildren (child :: more)).length ≤ fuel →
    parseChildren lexing fuel (printChildren (child :: more) ++ ']' :: rest) =
      some (child :: more, ']' :: rest)
  | child, more, 0, rest, _, _, enough => by
      obtain ⟨text, hash⟩ := printChildren_hash child more
      simp [hash] at enough
  | child, [], fuel + 1, rest, accepted, plain, enough => by
      have first := parse_print child fuel (']' :: rest) accepted.1 plain.1
        (print_shorter child [] enough)
      rw [parseChildren_cons]
      simp only [printMore, List.nil_append, first, Option.bind_some,
        lexing.mark_other ',' (by decide) ']' (by decide) (by decide)]
  | child, next :: more, fuel + 1, rest, accepted, plain, enough => by
      have first := parse_print child fuel (printMore (next :: more) ++ ']' :: rest) accepted.1
        plain.1 (print_shorter child (next :: more) enough)
      have others := parseChildren_print next more fuel rest accepted.2 plain.2
        (printMore_shorter child next more enough)
      rw [parseChildren_cons, first, Option.bind_some, printMore_cons]
      simp only [List.cons_append, lexing.mark_here ',' (by decide), parseChildren_blank, others,
        Option.map_some]

end

/-- A name that is read back from between its quotes stands for itself, and nothing more is read. -/
theorem read_name {text rest : List Char}
    (read : lexing.string ('"' :: (name.toList ++ '"' :: text)) = some (name, rest)) :
    name.toList.all lexing.plain = true ∧ rest = text := by
  obtain ⟨raw, split, spells⟩ := lexing.string_spelled _ _ _ read
  rcases List.append_eq_append_iff.mp split with ⟨more, longer, ends⟩ | ⟨more, shorter, ends⟩
  · cases more with
    | nil =>
        rw [List.append_nil] at longer
        rw [List.nil_append, List.cons.injEq] at ends
        rw [longer] at spells
        rcases spells_length spells with plain | impossible
        · exact ⟨plain.2, ends.2.symm⟩
        · exact absurd impossible (Nat.lt_irrefl _)
    | cons first more =>
        rw [List.cons_append, List.cons.injEq] at ends
        rw [longer, ← ends.1] at spells
        exact absurd spells (spells_stops lexing.quoted_plain)
  · cases more with
    | nil =>
        rw [List.append_nil] at shorter
        rw [List.nil_append, List.cons.injEq] at ends
        rw [← shorter] at spells
        rcases spells_length spells with plain | impossible
        · exact ⟨plain.2, ends.2⟩
        · exact absurd impossible (Nat.lt_irrefl _)
    | cons first more =>
        rcases spells_length spells with ⟨same, -⟩ | impossible
        · have longer := congrArg List.length (same.trans shorter)
          simp at longer
        · have longer := congrArg List.length shorter
          rw [List.length_append] at longer
          omega

/-- The name of what is read is the one that stood in the text. -/
theorem parseNamed_name {found : String} {text left : List Char} {children : List Tree}
    (read : parseNamed lexing readChildren kind dtype num slot found text =
      some (.mk kind dtype num slot name binop children, left)) : found = name := by
  have last {other : Tree × List Char} {rest : List Char} {kept : List Tree} {sign : String}
      (read : (if verify kind dtype num slot found sign kept = .ok () then
        some (Tree.mk kind dtype num slot found sign kept, rest) else none) = some other) :
      found = other.1.name := by
    split at read
    · rw [Option.some.injEq] at read
      rw [← read]
      rfl
    · contradiction
  unfold parseNamed at read
  simp only [Option.bind_eq_bind, Option.bind_eq_some_iff] at read
  obtain ⟨_, -, _, -, read⟩ := read
  split at read
  · simp only [Option.bind_eq_some_iff] at read
    obtain ⟨_, -, _, -, read⟩ := read
    exact last read
  · simp only [Option.bind_eq_some_iff] at read
    obtain ⟨_, -, _, -, read⟩ := read
    exact last read

mutual

theorem print_parse : ∀ (tree : Tree) (fuel : Nat) (rest left : List Char), tree.Accepted →
    parse lexing fuel (print tree ++ rest) = some (tree, left) → tree.Plain lexing ∧ left = rest
  | _, 0, _, _, _, read => by simp [parse] at read
  | .mk kind dtype num slot name binop [], fuel + 1, rest, left, accepted, read => by
      rw [accepted_mk] at accepted
      have fields := fields_of_verify lexing accepted.1
      rw [print_mk, parse_fields lexing fields, Option.bind_eq_some_iff] at read
      obtain ⟨⟨found, text⟩, named, read⟩ := read
      obtain rfl := parseNamed_name lexing read
      obtain ⟨plain, rfl⟩ := read_name lexing named
      have leaf := parseNamed_leaf lexing (parseChildren lexing fuel) num slot fields found rest
      dsimp only [printChildren, List.nil_append] at read
      rw [leaf, if_pos accepted.1, Option.some.injEq, Prod.mk.injEq] at read
      rw [plain_mk]
      exact ⟨⟨fun _ => plain, trivial⟩, read.2.symm⟩
  | .mk kind dtype num slot name binop (child :: more), fuel + 1, rest, left, accepted, read => by
      rw [accepted_mk] at accepted
      have fields := fields_of_verify lexing accepted.1
      rw [print_mk, parse_fields lexing fields, Option.bind_eq_some_iff] at read
      obtain ⟨⟨found, text⟩, named, read⟩ := read
      obtain rfl := parseNamed_name lexing read
      obtain ⟨plain, rfl⟩ := read_name lexing named
      obtain ⟨text, hash⟩ := printChildren_hash child more
      dsimp only at read
      rw [hash, List.cons_append, parseNamed_children lexing fields] at read
      simp only [Option.bind_eq_some_iff] at read
      obtain ⟨⟨children, after⟩, inner, closed, here, last, there, read⟩ := read
      split at read
      · simp only [Option.some.injEq, Prod.mk.injEq, Tree.mk.injEq] at read
        obtain ⟨⟨-, -, -, -, -, -, rfl⟩, rfl⟩ := read
        rw [← List.cons_append, ← hash] at inner
        obtain ⟨plainChildren, rfl⟩ :=
          printChildren_parse child more fuel ('>' :: rest) after accepted.2 inner
        rw [lexing.mark_here ']' (by decide), Option.some.injEq] at here
        rw [← here, lexing.mark_here '>' (by decide), Option.some.injEq] at there
        rw [plain_mk]
        exact ⟨⟨fun _ => plain, plainChildren⟩, there.symm⟩
      · contradiction

theorem printChildren_parse : ∀ (child : Tree) (more : List Tree) (fuel : Nat)
    (rest left : List Char), allAccepted (child :: more) →
    parseChildren lexing fuel (printChildren (child :: more) ++ ']' :: rest) =
      some (child :: more, left) → allPlain lexing (child :: more) ∧ left = ']' :: rest
  | _, _, 0, _, _, _, read => by simp [parseChildren] at read
  | child, [], fuel + 1, rest, left, accepted, read => by
      rw [parseChildren_cons, Option.bind_eq_some_iff] at read
      obtain ⟨⟨first, after⟩, parsed, read⟩ := read
      have same : first = child := by
        dsimp only at read
        split at read
        · simp only [Option.map_eq_some_iff, Prod.mk.injEq, List.cons.injEq] at read
          obtain ⟨_, -, ⟨same, -⟩, -⟩ := read
          exact same
        · simp only [Option.some.injEq, Prod.mk.injEq, List.cons.injEq] at read
          exact read.1.1
      subst same
      obtain ⟨plain, rfl⟩ := print_parse first fuel _ after accepted.1 parsed
      simp only [printMore, List.nil_append,
        lexing.mark_other ',' (by decide) ']' (by decide) (by decide), Option.some.injEq,
        Prod.mk.injEq] at read
      exact ⟨⟨plain, trivial⟩, read.2.symm⟩
  | child, next :: more, fuel + 1, rest, left, accepted, read => by
      rw [parseChildren_cons, Option.bind_eq_some_iff] at read
      obtain ⟨⟨first, after⟩, parsed, read⟩ := read
      have same : first = child := by
        dsimp only at read
        split at read
        · simp only [Option.map_eq_some_iff, Prod.mk.injEq, List.cons.injEq] at read
          obtain ⟨_, -, ⟨same, -⟩, -⟩ := read
          exact same
        · simp at read
      subst same
      obtain ⟨plain, rfl⟩ := print_parse first fuel _ after accepted.1 parsed
      rw [printMore_cons] at read
      simp only [List.cons_append, lexing.mark_here ',' (by decide), parseChildren_blank,
        Option.map_eq_some_iff, Prod.mk.injEq, List.cons.injEq, true_and] at read
      obtain ⟨⟨others, last⟩, inner, same, rfl⟩ := read
      obtain rfl : others = next :: more := same
      obtain ⟨plainMore, ends⟩ :=
        printChildren_parse next more fuel rest last accepted.2 inner
      exact ⟨⟨plain, plainMore⟩, ends⟩

end

/-- An accepted attribute is what its text denotes exactly where its calls have plain names. -/
theorem parseText_print {tree : Tree} (accepted : tree.Accepted) :
    parseText lexing (print tree) = some tree ↔ tree.Plain lexing := by
  unfold parseText
  constructor
  · intro read
    obtain ⟨⟨found, left⟩, parsed, rfl⟩ := Option.map_eq_some_iff.mp read
    rw [← List.append_nil (print found)] at parsed
    exact (print_parse lexing found _ [] left accepted parsed).1
  · intro plain
    have parsed := parse_print lexing tree ((print tree).length + 1) [] accepted plain
      (Nat.le_succ _)
    rw [List.append_nil] at parsed
    rw [parsed]
    rfl

/-- Two accepted attributes come back from their texts, and are told apart by them, exactly where
the calls of both have names that stand for themselves between quotes. -/
theorem expr_text_faithful {tree other : Tree} (accepted : tree.Accepted)
    (accepted' : other.Accepted) :
    (parseText lexing (print tree) = some tree ∧ parseText lexing (print other) = some other ∧
        (print tree = print other → tree = other)) ↔
      tree.Plain lexing ∧ other.Plain lexing := by
  rw [parseText_print lexing accepted, parseText_print lexing accepted']
  constructor
  · rintro ⟨plain, plain', -⟩
    exact ⟨plain, plain'⟩
  · rintro ⟨plain, plain'⟩
    refine ⟨plain, plain', fun same => ?_⟩
    have read := (parseText_print lexing accepted).mpr plain
    rw [same, (parseText_print lexing accepted').mpr plain', Option.some.injEq] at read
    exact read.symm

end Fields

def callOf (name : String) (children : List Tree) : Tree := .mk "call" "decimal" 0 (-1) name "" children

def numeral (value : Int64) : Tree := .mk "num" "decimal" value (-1) "" "" []

theorem expr_text_faithful_sample :
    (parseText mlirLexing (print (callOf "round" [numeral (-9223372036854775808)])) =
        some (callOf "round" [numeral (-9223372036854775808)]) ∧
      parseText mlirLexing (print (numeral 7)) = some (numeral 7) ∧
      (print (callOf "round" [numeral (-9223372036854775808)]) = print (numeral 7) →
        callOf "round" [numeral (-9223372036854775808)] = numeral 7)) ↔
      (callOf "round" [numeral (-9223372036854775808)]).Plain mlirLexing ∧
        (numeral 7).Plain mlirLexing :=
  expr_text_faithful mlirLexing ⟨by decide, ⟨by decide, trivial⟩, trivial⟩ ⟨by decide, trivial⟩

/-- A call whose name holds a quote is accepted and lost. -/
def quotedCall : Tree := callOf "a\"b" [numeral 1]

/-- A name that goes on like the text of a nested call. -/
def openName (outer inner : String) : String :=
  outer ++ "\" \"\" [#neutrino.expr<call decimal 0 -1 \"" ++ inner

/-- Two calls with one text. -/
def nestedCall : Tree := callOf "f" [callOf "g" [callOf (openName "m" "x") [numeral 1]]]

def flatCall : Tree := callOf (openName "f" "g") [callOf "m" [callOf "x" [numeral 1]]]

theorem quoted_name_lost :
    (quotedCall.Accepted ∧ (parseText mlirLexing (print quotedCall)).isNone) ∧
      nestedCall.Accepted ∧ flatCall.Accepted ∧ nestedCall ≠ flatCall ∧
        print nestedCall = print flatCall := by
  refine ⟨⟨⟨by decide, ⟨by decide, trivial⟩, trivial⟩, by decide +kernel⟩, ?_, ?_, ?_,
    by decide +kernel⟩
  · exact ⟨by decide, ⟨by decide, ⟨by decide, ⟨by decide, trivial⟩, trivial⟩, trivial⟩, trivial⟩
  · exact ⟨by decide, ⟨by decide, ⟨by decide, ⟨by decide, trivial⟩, trivial⟩, trivial⟩, trivial⟩
  · intro same
    have names : "f" = openName "f" "g" := congrArg Tree.name same
    exact absurd names (by decide)

end ExprAttrText

end Neutrino
