import Neutrino.ExprParser

/-! Where a numeral beyond 64 bits stops a parse: a scan of the tokens that knows the open
brackets and whether an operand is due, and builds no tree. -/

namespace Neutrino.Parser

open Checked

/-! The scan. -/

inductive Bracket
  | group
  | call
  deriving DecidableEq, Repr

/-- What may stand next: an operand, one or the end of a call just opened, what follows a name,
or what follows any other operand. -/
inductive Due
  | operand
  | argument
  | name
  | operator
  deriving DecidableEq, Repr

/-- `comparison` tells whether a comparison may still stand outside all brackets. -/
structure Scan where
  due : Due
  inside : List Bracket
  comparison : Bool
  deriving DecidableEq, Repr

namespace Scan

def operand (scan : Scan) (token : String) : Option Scan :=
  if token = "(" then some ⟨.operand, .group :: scan.inside, scan.comparison⟩
  else if isNumeral token then some ⟨.operator, scan.inside, scan.comparison⟩
  else if isNameStart (firstChar token) then some ⟨.name, scan.inside, scan.comparison⟩
  else none

def operator (scan : Scan) (token : String) : Option Scan :=
  if token ∈ ["+", "-", "*", "/"] then some ⟨.operand, scan.inside, scan.comparison⟩
  else
    match scan.inside with
    | [] =>
        if scan.comparison && isCmpOp token then some ⟨.operand, [], false⟩ else none
    | bracket :: outside =>
        if token = ")" then some ⟨.operator, outside, scan.comparison⟩
        else if token = "," ∧ bracket = .call then
          some ⟨.operand, bracket :: outside, scan.comparison⟩
        else none

def step (scan : Scan) (token : String) : Option Scan :=
  match scan.due with
  | .operand => scan.operand token
  | .argument =>
      if token = ")" then some ⟨.operator, scan.inside.tail, scan.comparison⟩
      else scan.operand token
  | .name =>
      if token = "(" then some ⟨.argument, .call :: scan.inside, scan.comparison⟩
      else scan.operator token
  | .operator => scan.operator token

def run : Scan → List String → Option Scan
  | scan, [] => some scan
  | scan, token :: rest => do
      let next ← scan.step token
      next.run rest

/-- An operand may stand next. -/
def wantsOperand (scan : Scan) : Bool := scan.due = .operand || scan.due = .argument

end Scan

/-- Some numeral of at least `2 ^ 63` stands where the tokens before it make an operand due. -/
def MeetsOverflow (scan : Scan) (tokens : List String) : Prop :=
  ∃ before numeral after, tokens = before ++ numeral :: after ∧
    (scan.run before).any Scan.wantsOperand = true ∧ isNumeral numeral = true ∧
    2 ^ 63 ≤ Parser.numeral numeral

theorem meetsOverflow_nil (scan : Scan) : ¬MeetsOverflow scan [] := by
  rintro ⟨before, numeral, after, split, _⟩
  simp at split

theorem meetsOverflow_cons {scan : Scan} {token : String} {rest : List String} :
    MeetsOverflow scan (token :: rest) ↔
      (scan.wantsOperand = true ∧ isNumeral token = true ∧ 2 ^ 63 ≤ numeral token) ∨
        ∃ next, scan.step token = some next ∧ MeetsOverflow next rest := by
  constructor
  · rintro ⟨before, found, after, split, due, digits, large⟩
    cases before with
    | nil =>
        obtain ⟨rfl, rfl⟩ := List.cons.inj split
        exact .inl ⟨by simpa [Scan.run] using due, digits, large⟩
    | cons first before =>
        obtain ⟨rfl, rfl⟩ := List.cons.inj split
        simp only [Scan.run] at due
        cases stepped : scan.step token with
        | none => simp [stepped] at due
        | some next =>
            rw [stepped] at due
            exact .inr ⟨next, rfl, before, found, after, rfl, due, digits, large⟩
  · rintro (⟨due, digits, large⟩ | ⟨next, stepped, before, found, after, rfl, due, digits, large⟩)
    · exact ⟨[], token, rest, rfl, by simpa [Scan.run] using due, digits, large⟩
    · refine ⟨token :: before, found, after, rfl, ?_, digits, large⟩
      simpa [Scan.run, stepped] using due

/-- A token that is no numeral is stepped over. -/
theorem meetsOverflow_step {scan : Scan} {token : String} {rest : List String}
    (plain : isNumeral token = false) :
    MeetsOverflow scan (token :: rest) ↔
      ∃ next, scan.step token = some next ∧ MeetsOverflow next rest := by
  rw [meetsOverflow_cons, plain]
  simp

theorem meetsOverflow_onto {scan next : Scan} {token : String} {rest : List String}
    (plain : isNumeral token = false) (stepped : scan.step token = some next) :
    MeetsOverflow scan (token :: rest) ↔ MeetsOverflow next rest := by
  rw [meetsOverflow_step plain, stepped]
  simp

theorem meetsOverflow_stuck {scan : Scan} {token : String} (rest : List String)
    (plain : isNumeral token = false) (stuck : scan.step token = none) :
    ¬MeetsOverflow scan (token :: rest) := by
  rw [meetsOverflow_step plain, stuck]
  simp

/-! The parser keeps to the scan. -/

/-- A reading from one point of a scan to another: it meets an overflow exactly when it is
stopped by one or what it leaves meets one. -/
inductive Tracks {α : Type} (scan : Scan) (tokens : List String) (leaves : List String → Prop)
    (later : Scan) : Except ParseFailure (α × List String) → Prop
  | read {value : α} {rest : List String} (left : leaves rest)
      (same : MeetsOverflow scan tokens ↔ MeetsOverflow later rest) :
      Tracks scan tokens leaves later (.ok (value, rest))
  | refused {failure : ExprError} (none : ¬MeetsOverflow scan tokens) :
      Tracks scan tokens leaves later (.error (.refused failure))
  | outOfRange (met : MeetsOverflow scan tokens) : Tracks scan tokens leaves later (.error .outOfRange)
  | exhausted : Tracks scan tokens leaves later (.error .exhausted)

namespace Tracks

variable {α β : Type} {scan mid later : Scan} {tokens : List String}
  {leaves leaves' : List String → Prop}

theorem bind {first : Except ParseFailure (α × List String)}
    {next : α × List String → Except ParseFailure (β × List String)}
    (here : Tracks scan tokens leaves mid first)
    (after : ∀ value rest, leaves rest → Tracks mid rest leaves' later (next (value, rest))) :
    Tracks scan tokens leaves' later (first >>= next) := by
  cases here with
  | @read value rest left same =>
      rw [ok_bind]
      cases followed : next (value, rest) with
      | ok result =>
          have tracked := after value rest left
          rw [followed] at tracked
          cases tracked with
          | read left' same' => exact .read left' (same.trans same')
      | error failure =>
          have tracked := after value rest left
          rw [followed] at tracked
          cases tracked with
          | refused none => exact .refused fun met => none (same.mp met)
          | outOfRange met => exact .outOfRange (same.mpr met)
          | exhausted => exact .exhausted
  | refused none => exact .refused none
  | outOfRange met => exact .outOfRange met
  | exhausted => exact .exhausted

/-- The first tokens of a reading may have been stepped over already. -/
theorem earlier {scan' : Scan} {tokens' : List String}
    {outcome : Except ParseFailure (α × List String)}
    (tracks : Tracks scan tokens leaves later outcome)
    (same : MeetsOverflow scan' tokens' ↔ MeetsOverflow scan tokens) :
    Tracks scan' tokens' leaves later outcome := by
  cases tracks with
  | read left same' => exact .read left (same.trans same')
  | refused none => exact .refused fun met => none (same.mp met)
  | outOfRange met => exact .outOfRange (same.mpr met)
  | exhausted => exact .exhausted

end Tracks

abbrev AfterTerm : List String → Prop := NotFirst ["*", "/"]

abbrev AfterValue : List String → Prop := NotFirst ["+", "-", "*", "/"]

abbrev AfterArguments : List String → Prop := NotFirst ["+", "-", "*", "/", ","]

/-- Every part of the grammar, read with so many steps, keeps to the scan. -/
structure Follows (fuel : Nat) : Prop where
  expr : ∀ inside comparison tokens, Tracks ⟨.operand, inside, comparison⟩ tokens AfterValue
    ⟨.operator, inside, comparison⟩ (expr fuel tokens)
  sums : ∀ inside comparison start tokens, AfterTerm tokens →
    Tracks ⟨.operator, inside, comparison⟩ tokens AfterValue ⟨.operator, inside, comparison⟩
      (sums fuel start tokens)
  term : ∀ inside comparison tokens, Tracks ⟨.operand, inside, comparison⟩ tokens AfterTerm
    ⟨.operator, inside, comparison⟩ (term fuel tokens)
  products : ∀ inside comparison start tokens, Tracks ⟨.operator, inside, comparison⟩ tokens
    AfterTerm ⟨.operator, inside, comparison⟩ (products fuel start tokens)
  factor : ∀ inside comparison tokens, Tracks ⟨.operand, inside, comparison⟩ tokens
    (fun _ => True) ⟨.operator, inside, comparison⟩ (factor fuel tokens)
  arguments : ∀ inside comparison tokens, Tracks ⟨.argument, .call :: inside, comparison⟩ tokens
    AfterArguments ⟨.operator, .call :: inside, comparison⟩ (arguments fuel tokens)
  moreArguments : ∀ inside comparison tokens, AfterValue tokens →
    Tracks ⟨.operator, .call :: inside, comparison⟩ tokens AfterArguments
      ⟨.operator, .call :: inside, comparison⟩ (moreArguments fuel tokens)

section Step

variable {fuel : Nat} (inside : List Bracket) (comparison : Bool) {tokens : List String}

theorem expr_follows (follows : Follows fuel) (tokens : List String) :
    Tracks ⟨.operand, inside, comparison⟩ tokens AfterValue ⟨.operator, inside, comparison⟩
      (expr (fuel + 1) tokens) :=
  (follows.term inside comparison tokens).bind fun start rest left =>
    follows.sums inside comparison start rest left

theorem term_follows (follows : Follows fuel) (tokens : List String) :
    Tracks ⟨.operand, inside, comparison⟩ tokens AfterTerm ⟨.operator, inside, comparison⟩
      (term (fuel + 1) tokens) :=
  (follows.factor inside comparison tokens).bind fun start rest _ =>
    follows.products inside comparison start rest

theorem operator_step {op : String} (known : op ∈ ["+", "-", "*", "/"]) (rest : List String) :
    MeetsOverflow ⟨.operator, inside, comparison⟩ (op :: rest) ↔
      MeetsOverflow ⟨.operand, inside, comparison⟩ rest := by
  refine meetsOverflow_onto ?_ (by simp only [Scan.step, Scan.operator, if_pos known])
  simp only [List.mem_cons, List.not_mem_nil, or_false] at known
  rcases known with rfl | rfl | rfl | rfl <;> rfl

theorem sums_follows (follows : Follows fuel) (start : ExprNode) (after : AfterTerm tokens) :
    Tracks ⟨.operator, inside, comparison⟩ tokens AfterValue ⟨.operator, inside, comparison⟩
      (sums (fuel + 1) start tokens) := by
  cases tokens with
  | nil => exact .read (by simp [NotFirst]) Iff.rfl
  | cons op tokens =>
      simp only [sums]
      split
      next operator =>
        refine Tracks.earlier ?_ (operator_step inside comparison (by simp; tauto) tokens)
        exact (follows.term inside comparison tokens).bind fun operand rest left =>
          follows.sums inside comparison _ rest left
      next other =>
        refine .read ?_ Iff.rfl
        have here := after op rfl
        simp only [NotFirst, List.head?_cons, Option.mem_def, Option.some.injEq, forall_eq',
          List.mem_cons, List.not_mem_nil, or_false] at here ⊢
        tauto

theorem products_follows (follows : Follows fuel) (start : ExprNode) (tokens : List String) :
    Tracks ⟨.operator, inside, comparison⟩ tokens AfterTerm ⟨.operator, inside, comparison⟩
      (products (fuel + 1) start tokens) := by
  cases tokens with
  | nil => exact .read (by simp [NotFirst]) Iff.rfl
  | cons op tokens =>
      simp only [products]
      split
      next operator =>
        refine Tracks.earlier ?_ (operator_step inside comparison (by simp; tauto) tokens)
        exact (follows.factor inside comparison tokens).bind fun operand rest _ =>
          follows.products inside comparison _ rest
      next other =>
        exact .read (by simpa [NotFirst] using other) Iff.rfl

/-- The closing parenthesis of a bracket, or nothing that the scan could pass. -/
theorem close_tracks {α : Type} {message : String} (bracket : Bracket) (value : α)
    (after : AfterValue tokens) (last : bracket = .call → tokens.head? ≠ some ",") :
    Tracks ⟨.operator, bracket :: inside, comparison⟩ tokens (fun _ => True)
      ⟨.operator, inside, comparison⟩ (do
        let rest ← close message tokens
        return (value, rest)) := by
  cases tokens with
  | nil => exact .refused (meetsOverflow_nil _)
  | cons token rest =>
      have here : token ∉ ["+", "-", "*", "/"] := after token rfl
      by_cases closes : token = ")"
      · subst closes
        exact .read trivial (meetsOverflow_onto rfl (by simp [Scan.step, Scan.operator]))
      · have refuses : close message (token :: rest) = .error (invalid message) := by
          simp [close, closes]
        rw [refuses]
        refine .refused ?_
        rw [meetsOverflow_cons]
        have stuck : Scan.step ⟨.operator, bracket :: inside, comparison⟩ token = none := by
          have inCall : ¬(token = "," ∧ bracket = .call) := by
            rintro ⟨rfl, called⟩
            exact last called rfl
          simp only [Scan.step, Scan.operator, if_neg here, if_neg closes, if_neg inCall]
        simp [stuck, Scan.wantsOperand]

theorem factor_follows (follows : Follows fuel) (tokens : List String) :
    Tracks ⟨.operand, inside, comparison⟩ tokens (fun _ => True) ⟨.operator, inside, comparison⟩
      (factor (fuel + 1) tokens) := by
  cases tokens with
  | nil => exact .refused (meetsOverflow_nil _)
  | cons token tokens =>
      simp only [factor]
      split_ifs with opens digit name call
      · subst opens
        refine Tracks.earlier ?_ (meetsOverflow_onto rfl rfl)
        refine (follows.expr (.group :: inside) comparison tokens).bind fun value rest left => ?_
        exact close_tracks inside comparison .group value left (by simp)
      · have numeric : isNumeral token = true := digit
        have steps : Scan.step ⟨.operand, inside, comparison⟩ token =
            some ⟨.operator, inside, comparison⟩ := by
          simp only [Scan.step, Scan.operand, if_neg opens, if_pos numeric]
        unfold stoll
        split
        next fits =>
          refine .read trivial ?_
          have small : ¬2 ^ 63 ≤ numeral token := Nat.not_le.mpr fits
          rw [meetsOverflow_cons, steps]
          simp only [small, and_false, false_or, Option.some.injEq, exists_eq_left']
        next large =>
          refine .outOfRange ?_
          rw [meetsOverflow_cons]
          exact .inl ⟨rfl, digit, Nat.le_of_not_lt large⟩
      · have plain : isNumeral token = false := not_digit_of_nameStart name
        have steps : Scan.step ⟨.operand, inside, comparison⟩ token =
            some ⟨.name, inside, comparison⟩ := by
          simp [Scan.step, Scan.operand, opens, plain, name]
        refine Tracks.earlier ?_ (meetsOverflow_onto plain steps)
        obtain ⟨inner, rfl⟩ := List.head?_eq_some_iff.mp call
        refine Tracks.earlier ?_ (meetsOverflow_onto rfl rfl)
        refine (follows.arguments inside comparison inner).bind fun args rest left => ?_
        have tracked := @close_tracks inside comparison _ _ "missing ')' in call" .call args
          (fun token first listed => left token first (by simp at listed ⊢; tauto))
          (fun _ first => left "," (by simp [first]) (by simp))
        generalize close "missing ')' in call" rest = closed at tracked ⊢
        cases closed with
        | ok later =>
            cases tracked with
            | read _ same => exact .read trivial same
        | error failure =>
            cases tracked with
            | refused none => exact .refused none
            | outOfRange met => exact .outOfRange met
            | exhausted => exact .exhausted
      · have plain : isNumeral token = false := not_digit_of_nameStart name
        have steps : Scan.step ⟨.operand, inside, comparison⟩ token =
            some ⟨.name, inside, comparison⟩ := by
          simp [Scan.step, Scan.operand, opens, plain, name]
        refine Tracks.earlier (.read trivial ?_) (meetsOverflow_onto plain steps)
        cases tokens with
        | nil => simp [meetsOverflow_nil]
        | cons next rest =>
            have later : next ≠ "(" := by simpa using call
            rw [meetsOverflow_cons, meetsOverflow_cons]
            simp only [Scan.step, Scan.wantsOperand, later, ↓reduceIte]
            exact Iff.rfl
      · have plain : isNumeral token = false := by simpa [isNumeral] using digit
        refine .refused (meetsOverflow_stuck _ plain ?_)
        simp [Scan.step, Scan.operand, opens, plain, name]

theorem arguments_follows (follows : Follows fuel) (tokens : List String) :
    Tracks ⟨.argument, .call :: inside, comparison⟩ tokens AfterArguments
      ⟨.operator, .call :: inside, comparison⟩ (arguments (fuel + 1) tokens) := by
  simp only [arguments]
  split
  next closes =>
    obtain ⟨rest, rfl⟩ := List.head?_eq_some_iff.mp closes
    refine .read (by simp [NotFirst]) ?_
    rw [meetsOverflow_onto rfl rfl, meetsOverflow_onto rfl rfl]
    rfl
  next opens =>
    have due : MeetsOverflow ⟨.argument, .call :: inside, comparison⟩ tokens ↔
        MeetsOverflow ⟨.operand, .call :: inside, comparison⟩ tokens := by
      cases tokens with
      | nil => simp [meetsOverflow_nil]
      | cons token rest =>
          have other : token ≠ ")" := by simpa using opens
          rw [meetsOverflow_cons, meetsOverflow_cons]
          simp only [Scan.step, Scan.wantsOperand, if_neg other]
          exact Iff.rfl
    refine Tracks.earlier ?_ due
    refine (follows.expr (.call :: inside) comparison tokens).bind fun arg rest left => ?_
    exact (follows.moreArguments inside comparison rest left).bind fun others ended left =>
      .read left Iff.rfl

theorem moreArguments_follows (follows : Follows fuel) (after : AfterValue tokens) :
    Tracks ⟨.operator, .call :: inside, comparison⟩ tokens AfterArguments
      ⟨.operator, .call :: inside, comparison⟩ (moreArguments (fuel + 1) tokens) := by
  simp only [moreArguments]
  split
  next comma =>
    obtain ⟨inner, rfl⟩ := List.head?_eq_some_iff.mp comma
    refine Tracks.earlier ?_ (meetsOverflow_onto rfl rfl)
    refine (follows.expr (.call :: inside) comparison inner).bind fun arg rest left => ?_
    exact (follows.moreArguments inside comparison rest left).bind fun others ended left =>
      .read left Iff.rfl
  next other =>
    refine .read (fun token first => ?_) Iff.rfl
    have here := after token first
    have comma : token ≠ "," := by
      rintro rfl
      exact other first
    simp only [List.mem_cons, List.not_mem_nil, or_false] at here ⊢
    tauto

end Step

theorem follows : (fuel : Nat) → Follows fuel
  | 0 => by constructor <;> (intros; exact .exhausted)
  | fuel + 1 =>
      { expr := fun inside comparison => expr_follows inside comparison (follows fuel)
        sums := fun inside comparison start _ => sums_follows inside comparison (follows fuel) start
        term := fun inside comparison => term_follows inside comparison (follows fuel)
        products := fun inside comparison => products_follows inside comparison (follows fuel)
        factor := fun inside comparison => factor_follows inside comparison (follows fuel)
        arguments := fun inside comparison => arguments_follows inside comparison (follows fuel)
        moreArguments := fun inside comparison _ =>
          moreArguments_follows inside comparison (follows fuel) }

/-! Whole sources. -/

/-- Before any token: `comparison` for a guard. -/
def Scan.start (comparison : Bool) : Scan := ⟨.operand, [], comparison⟩

/-- How a parse that has ended leaves: with a tree, a refusal or the exception. -/
inductive Leaves (overflow : Prop) : Except ParseFailure ExprNode → Prop
  | tree {node : ExprNode} (none : ¬overflow) : Leaves overflow (.ok node)
  | refused {failure : ExprError} (none : ¬overflow) : Leaves overflow (.error (.refused failure))
  | outOfRange (met : overflow) : Leaves overflow (.error .outOfRange)

/-- Outside all brackets nothing follows a value but a comparison that is still open. -/
theorem meetsOverflow_trailing {comparison : Bool} {rest : List String} (after : AfterValue rest)
    (closed : ∀ token ∈ rest.head?, (comparison && isCmpOp token) = false) :
    ¬MeetsOverflow ⟨.operator, [], comparison⟩ rest := by
  cases rest with
  | nil => exact meetsOverflow_nil _
  | cons token rest =>
      have here : token ∉ ["+", "-", "*", "/"] := after token rfl
      have stuck : Scan.step ⟨.operator, [], comparison⟩ token = none := by
        simp only [Scan.step, Scan.operator, if_neg here, closed token rfl, Bool.false_eq_true,
          if_false]
      rw [meetsOverflow_cons, stuck]
      simp [Scan.wantsOperand]

theorem parse_leaves {tokens : List String} (proper : Proper tokens) :
    Leaves (MeetsOverflow (.start false) tokens) (parse tokens) := by
  have ended := (ends (steps tokens)).expr proper le_rfl
  have tracked := (follows (steps tokens)).expr [] false tokens
  unfold parse
  generalize expr (steps tokens) tokens = outcome at ended tracked ⊢
  cases tracked with
  | exhausted => exact absurd rfl ended
  | refused none => exact .refused none
  | outOfRange met => exact .outOfRange met
  | @read node rest left same =>
      have clear : ¬MeetsOverflow (.start false) tokens := by
        rw [Scan.start, same]
        exact meetsOverflow_trailing left fun token _ => rfl
      rw [ok_bind]
      dsimp only
      split
      · exact .tree clear
      · exact .refused clear

theorem bareGuard_leaves {overflow : Prop} (node : ExprNode) (rest : List String)
    (none : ¬overflow) : Leaves overflow (bareGuard node rest) := by
  unfold bareGuard
  split_ifs
  · exact .tree none
  · exact .refused none
  · exact .refused none

theorem comparison_step {op : String} (known : isCmpOp op = true) (rest : List String) :
    MeetsOverflow ⟨.operator, [], true⟩ (op :: rest) ↔ MeetsOverflow (.start false) rest := by
  simp only [isCmpOp, Bool.or_eq_true, decide_eq_true_eq, or_assoc] at known
  rcases known with rfl | rfl | rfl | rfl | rfl | rfl <;> exact meetsOverflow_onto rfl rfl

theorem parseGuardTop_leaves {tokens : List String} (proper : Proper tokens) :
    Leaves (MeetsOverflow (.start true) tokens) (parseGuardTop tokens) := by
  have ended := (ends (steps tokens)).expr proper le_rfl
  have tracked := (follows (steps tokens)).expr [] true tokens
  have reads := @(sound (steps tokens)).expr tokens
  unfold parseGuardTop
  generalize expr (steps tokens) tokens = outcome at ended tracked reads ⊢
  cases tracked with
  | exhausted => exact absurd rfl ended
  | refused none => exact .refused none
  | outOfRange met => exact .outOfRange met
  | @read lhs rest left same =>
      have suffix := (reads proper rfl).suffix
      rw [ok_bind]
      cases rest with
      | nil => exact bareGuard_leaves _ _ fun met => meetsOverflow_nil _ (same.mp met)
      | cons op later =>
          have length := suffix.length_le
          rw [List.length_cons] at length
          dsimp only
          split
          next known =>
            have proper' : Proper later := (proper.suffix suffix).suffix (List.suffix_cons _ _)
            have ended' := (ends (steps tokens)).expr proper' (by simp only [steps]; omega)
            have tracked' := (follows (steps tokens)).expr [] false later
            have same' := same.trans (comparison_step known later)
            generalize expr (steps tokens) later = outcome' at ended' tracked' ⊢
            cases tracked' with
            | exhausted => exact absurd rfl ended'
            | refused none => exact .refused fun met => none (same'.mp met)
            | outOfRange met => exact .outOfRange (same'.mpr met)
            | @read rhs rest left' same'' =>
                have clear : ¬MeetsOverflow (.start true) tokens := fun met =>
                  meetsOverflow_trailing left' (fun token _ => rfl) (same''.mp (same'.mp met))
                rw [ok_bind]
                dsimp only
                split
                · exact .tree clear
                · exact .refused clear
          next other =>
            refine bareGuard_leaves _ _ fun met => ?_
            exact meetsOverflow_trailing left (by simpa using other) (same.mp met)

end Neutrino.Parser

namespace Neutrino

open Checked Neutrino.Parser

/-- The source splits into tokens, and a numeral beyond 64 bits stands where an operand is due. -/
def NumeralOverflows (comparison : Bool) (source : String) : Prop :=
  ∃ tokens, tokenize source = .ok tokens ∧ MeetsOverflow (.start comparison) tokens

/-- A tree that holds exactly the numbers written, or a refusal with its code. -/
def CodedParse (source : String) (outcome : Except ParseFailure ExprNode) : Prop :=
  (∃ node tokens, outcome = .ok node ∧ tokenize source = .ok tokens ∧
    literals node = numerals tokens) ∨
  ∃ failure, outcome = .error (.refused failure)

theorem codedParse_iff {source : String} {tokens : List String} {outcome : Except ParseFailure ExprNode}
    {overflow : Prop} (tokenized : tokenize source = .ok tokens) (leaves : Leaves overflow outcome)
    (exact : ∀ node, outcome = .ok node → literals node = numerals tokens) :
    (CodedParse source outcome ↔ ¬overflow) ∧ outcome ≠ .error .exhausted := by
  cases leaves with
  | @tree node none =>
      exact ⟨⟨fun _ => none, fun _ => .inl ⟨node, tokens, rfl, tokenized, exact node rfl⟩⟩, by simp⟩
  | @refused failure none => exact ⟨⟨fun _ => none, fun _ => .inr ⟨failure, rfl⟩⟩, by simp⟩
  | outOfRange met => exact ⟨by simp [CodedParse, met], by simp⟩

/-- A source parses or is refused with a code, unless an operand is a numeral beyond 64 bits. -/
theorem parsing_coded_iff (source : String) :
    ((CodedParse source (parseExpr source) ↔ ¬NumeralOverflows false source) ∧
      parseExpr source ≠ .error .exhausted) ∧
    ((CodedParse source (parseGuard source) ↔ ¬NumeralOverflows true source) ∧
      parseGuard source ≠ .error .exhausted) := by
  cases tokenized : tokenize source with
  | error failure =>
      have expr : parseExpr source = .error (.refused failure) := by
        simp [parseExpr, tokenized, Except.mapError, bind, Except.bind]
      have guard : parseGuard source = .error (.refused failure) := by
        simp [parseGuard, tokenized, Except.mapError, bind, Except.bind]
      simp [expr, guard, CodedParse, NumeralOverflows, tokenized]
  | ok tokens =>
      have proper := tokenize_proper tokenized
      have expr : parseExpr source = parse tokens := by
        simp [parseExpr, tokenized, Except.mapError, ok_bind]
      have guard : parseGuard source = parseGuardTop tokens := by
        simp [parseGuard, tokenized, Except.mapError, ok_bind]
      simp only [NumeralOverflows, tokenized, Except.ok.injEq, exists_eq_left', expr, guard]
      exact ⟨codedParse_iff tokenized (parse_leaves proper) fun node read =>
          (parse_reads proper read).2,
        codedParse_iff tokenized (parseGuardTop_leaves proper) fun guard read =>
          (parseGuardTop_reads proper read).2⟩

/-- The first number beyond 64 bits leaves the parser by an exception of the library. -/
theorem large_numeral_escapes :
    ¬∀ source, CodedParse source (parseExpr source) ∧ CodedParse source (parseGuard source) := by
  intro coded
  have tokenized : tokenize "9223372036854775808" = .ok ["9223372036854775808"] := by
    decide +kernel
  have large : numeral "9223372036854775808" = 9223372036854775808 := by decide +kernel
  have escapes : parseExpr "9223372036854775808" = .error .outOfRange := by
    simp [parseExpr, tokenized, Except.mapError, parse, steps, expr, term, factor, firstChar, stoll,
      large, bind, Except.bind]
  have here := (coded "9223372036854775808").1
  simp [CodedParse, escapes] at here

end Neutrino
