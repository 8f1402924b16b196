import Neutrino.ProcedureView
import Neutrino.JsonParse

/-! The textual form of expression attributes: the printer, the parser over a lexer that is given,
and which attributes come back from their text. -/

namespace Neutrino

open Checked

namespace ExprAttrText

/-- An expression attribute with the fields that its text carries. -/
inductive Tree
  | mk (kind dtype : String) (num slot : Int64) (name binop : String) (children : List Tree)

def Tree.name : Tree → String
  | .mk _ _ _ _ name _ _ => name

def comparisons : List String := ["<", "<=", ">", ">=", "==", "!="]

/-- What one node promises; its children were verified when they were made. -/
def verify (kind dtype : String) (num slot : Int64) (name binop : String) (children : List Tree) :
    Except String Unit := do
  require (categoryName (categoryFromName dtype) = dtype)
    ("neutrino.expr dtype '" ++ dtype ++ "' is not a canonical value category")
  require (¬(kind ≠ "var" ∧ slot ≠ -1)) "neutrino.expr non-var node must have slot -1"
  require (¬(kind ≠ "cmp" ∧ kind ≠ "call" ∧ name ≠ ""))
    ("neutrino.expr " ++ kind ++ " must have empty name")
  require (¬(kind ≠ "bin" ∧ binop ≠ "")) ("neutrino.expr " ++ kind ++ " must have empty binop")
  require (¬(kind ≠ "num" ∧ num ≠ 0)) ("neutrino.expr " ++ kind ++ " must have num 0")
  if kind = "num" then require (children.length = 0) "neutrino.expr num takes no children"
  else if kind = "var" then
    require (children.length = 0 ∧ ¬slot < 0)
      "neutrino.expr var needs a dep slot >= 0 and no children"
  else if kind = "bin" then
    require (children.length = 2 ∧ binop ∈ ["+", "-", "*", "/"])
      "neutrino.expr bin needs a +-*/ operator and two children"
  else if kind = "cmp" then
    require (children.length = 2 ∧ name ∈ comparisons)
      "neutrino.expr cmp needs a comparison operator and two children"
  else if kind = "call" then
    require (children.length ≠ 0 ∧ name ≠ "") "neutrino.expr call needs a callee and >=1 arg"
  else throw ("neutrino.expr unknown kind '" ++ kind ++ "'")

mutual

def Tree.Accepted : Tree → Prop
  | .mk kind dtype num slot name binop children =>
      verify kind dtype num slot name binop children = .ok () ∧ allAccepted children

def allAccepted : List Tree → Prop
  | [] => True
  | child :: rest => child.Accepted ∧ allAccepted rest

end

/-! Printing. -/

def attributeName : List Char := "#neutrino.expr".toList

mutual

/-- The text after the attribute's name. -/
def print : Tree → List Char
  | .mk kind dtype num slot name binop children =>
      '<' :: (kind.toList ++ ' ' :: (dtype.toList ++ ' ' :: ((toString num).toList ++
        ' ' :: ((toString slot).toList ++ ' ' :: '"' :: (name.toList ++ '"' :: ' ' :: '"' ::
          (binop.toList ++ '"' :: ' ' :: '[' :: (printChildren children ++ [']', '>'])))))))

def printChildren : List Tree → List Char
  | [] => []
  | child :: rest => attributeName ++ (print child ++ printMore rest)

def printMore : List Tree → List Char
  | [] => []
  | child :: rest => ',' :: ' ' :: (attributeName ++ (print child ++ printMore rest))

end

/-! Lexing. -/

def isHexDigit (c : Char) : Bool :=
  c.isDigit || ('a' ≤ c && c ≤ 'f') || ('A' ≤ c && c ≤ 'F')

/-- How a string literal spells its text: characters that stand for themselves, and escapes. -/
inductive Spells (plain : Char → Bool) : List Char → List Char → Prop
  | done : Spells plain [] []
  | char {c : Char} {raw text : List Char} (stands : plain c = true) (rest : Spells plain raw text) :
      Spells plain (c :: raw) (c :: text)
  | escape {written c : Char} {raw text : List Char}
      (known : (written, c) ∈ [('"', '"'), ('\\', '\\'), ('n', '\n'), ('t', '\t')])
      (rest : Spells plain raw text) : Spells plain ('\\' :: written :: raw) (c :: text)
  | hex {high low c : Char} {raw text : List Char}
      (digits : isHexDigit high ∧ isHexDigit low) (rest : Spells plain raw text) :
      Spells plain ('\\' :: high :: low :: raw) (c :: text)

def marks : List Char := ['<', '>', '[', ']', ',']

/-- The lexer under the parser, as far as the parser relies on it: each reader skips a blank, takes
its own token and leaves what follows. -/
structure Lexing where
  plain : Char → Bool
  mark : Char → List Char → Option (List Char)
  word : List Char → Option (String × List Char)
  integer : List Char → Option (Int64 × List Char)
  string : List Char → Option (String × List Char)
  hash : List Char → Option (List Char)
  quoted_plain : plain '"' = false
  escaped_plain : plain '\\' = false
  printable : ∀ c : Char, ' ' ≤ c → c ≤ '~' → c ≠ '"' → c ≠ '\\' → plain c = true
  mark_blank : ∀ c text, mark c (' ' :: text) = mark c text
  mark_here : ∀ c ∈ marks, ∀ text, mark c (c :: text) = some text
  mark_other : ∀ c ∈ marks, ∀ d ∈ '#' :: marks, d ≠ c → ∀ text, mark c (d :: text) = none
  word_blank : ∀ text, word (' ' :: text) = word text
  word_letters : ∀ w : String, w ≠ "" → w.toList.all Char.isLower → ∀ text,
    word (w.toList ++ ' ' :: text) = some (w, ' ' :: text)
  integer_blank : ∀ text, integer (' ' :: text) = integer text
  integer_decimal : ∀ (value : Int64) text,
    integer ((toString value).toList ++ ' ' :: text) = some (value, ' ' :: text)
  string_blank : ∀ text, string (' ' :: text) = string text
  string_plain : ∀ value : String, value.toList.all plain → ∀ text,
    string ('"' :: (value.toList ++ '"' :: text)) = some (value, text)
  string_spelled : ∀ text value rest, string ('"' :: text) = some (value, rest) →
    ∃ raw, text = raw ++ '"' :: rest ∧ Spells plain raw value.toList
  hash_blank : ∀ text, hash (' ' :: text) = hash text
  hash_here : ∀ text, hash (attributeName ++ '<' :: text) = some ('<' :: text)

/-! Parsing. -/

section Parse

variable (lexing : Lexing)

/-- The rest of an attribute after its name, with a reader for its children. -/
def parseNamed (readChildren : List Char → Option (List Tree × List Char)) (kind dtype : String)
    (num slot : Int64) (name : String) (text : List Char) : Option (Tree × List Char) := do
  let (binop, text) ← lexing.string text
  let text ← lexing.mark '[' text
  let (children, text) ←
    match lexing.mark ']' text with
    | some text => some ([], text)
    | none => (readChildren text).bind fun read =>
        (lexing.mark ']' read.2).map fun text => (read.1, text)
  let text ← lexing.mark '>' text
  if verify kind dtype num slot name binop children = .ok () then
    some (.mk kind dtype num slot name binop children, text)
  else none

mutual

/-- Fuel is the length of the text at most. -/
def parse : Nat → List Char → Option (Tree × List Char)
  | 0, _ => none
  | fuel + 1, text => do
      let text ← lexing.mark '<' text
      let (kind, text) ← lexing.word text
      let (dtype, text) ← lexing.word text
      let (num, text) ← lexing.integer text
      let (slot, text) ← lexing.integer text
      let (name, text) ← lexing.string text
      parseNamed lexing (fun text => parseChildren fuel text) kind dtype num slot name text

def parseChildren : Nat → List Char → Option (List Tree × List Char)
  | 0, _ => none
  | fuel + 1, text => do
      let text ← lexing.hash text
      let (child, text) ← parse fuel text
      match lexing.mark ',' text with
      | some text => do
          let (rest, text) ← parseChildren fuel text
          return (child :: rest, text)
      | none => some ([child], text)

end

/-- The attribute that a text denotes. -/
def parseText (text : List Char) : Option Tree := (parse lexing (text.length + 1) text).map Prod.fst

end Parse

end ExprAttrText

end Neutrino
