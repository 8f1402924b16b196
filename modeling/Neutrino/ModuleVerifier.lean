import Mathlib
import Neutrino.ProcedureView
import Neutrino.SourceLines

/-! The verifiers of the dialect's operations. -/

namespace Neutrino

open Checked

/-- The text is more than whitespace. -/
def hasText (text : String) : Bool := SourceLines.trim text.toList ≠ []

/-! Versions. -/

/-- The pieces between the dots. -/
def splitDots : List Char → List (List Char)
  | [] => [[]]
  | c :: rest =>
      if c = '.' then [] :: splitDots rest
      else
        match splitDots rest with
        | [] => [[c]]
        | piece :: pieces => (c :: piece) :: pieces

def isValidSemVer (version : String) : Bool :=
  let parts := splitDots version.toList
  parts.length = 3 && parts.all fun part => part ≠ [] && part.all fun c => '0' ≤ c && c ≤ '9'

/-! Participants and attestation policies. -/

def bindAssuranceTiers : List String := ["A1", "A2", "A3", "A4"]

/-- The policy of a slot that is bound late, and no policy on one that is not. -/
def ParticipantOp.verify (op : ParticipantOp) : Except String Unit := do
  let flexible := op.binding = some "to_be_bound"
  require (op.binding = none ∨ flexible) ("[kernel.binding.invalid_mode] binding must be " ++
    "\"to_be_bound\" if set, got \"" ++ op.binding.getD "" ++ "\"")
  require (flexible ∨ op.bindRuntimes = [] ∧ op.bindMinAssurance = none)
    ("[kernel.binding.policy_without_flag] sets bind_runtimes/bind_min_assurance without " ++
    "binding = \"to_be_bound\"")
  require (¬flexible ∨ op.org.isSome = true) ("[kernel.binding.missing_binder] is binding = " ++
    "\"to_be_bound\" but declares no org (the authorized binder would be unspecified)")
  require (¬flexible ∨ op.bindRuntimes ≠ []) ("[kernel.binding.missing_runtimes] is binding = " ++
    "\"to_be_bound\" but declares no bind_runtimes")
  require (¬flexible ∨ op.bindRuntimes.all hasText = true)
    "[kernel.binding.empty_runtime] bind_runtimes contains an empty runtime family"
  require (op.bindMinAssurance.all (· ∈ bindAssuranceTiers) = true)
    ("[kernel.binding.invalid_assurance] bind_min_assurance must be one of A1/A2/A3/A4, got \"" ++
      op.bindMinAssurance.getD "" ++ "\"")

def attestationCanonicalizationModes : List String := ["exact", "median"]

def attestationFallbacks : List String := ["abort", "escalate"]

def attestationAssuranceTiers : List String := ["A1", "A2", "A3", "A4"]

def attestationIndependenceModes : List String := ["independent", "correlated"]

def AttestOp.verify (op : AttestOp) : Except String Unit := do
  require (0 < op.quorum.toInt) ("[kernel.attest.invalid_quorum] quorum must be a positive " ++
    "integer (the M-of-N threshold), got " ++ toString op.quorum)
  require (hasText op.observerSet = true)
    "[kernel.attest.missing_observer_set] declares no observer-set reference"
  require (op.canonicalization ∈ attestationCanonicalizationModes)
    ("[kernel.attest.invalid_canonicalization] canonicalization must be one of exact/median, " ++
      "got \"" ++ op.canonicalization ++ "\"")
  require (op.fallback ∈ attestationFallbacks) ("[kernel.attest.invalid_fallback] fallback must " ++
    "be one of abort/escalate, got \"" ++ op.fallback ++ "\"")
  require (op.assurance.all (· ∈ attestationAssuranceTiers) = true)
    ("[kernel.attest.invalid_assurance] observer-set assurance must be one of A1/A2/A3/A4, " ++
      "got \"" ++ op.assurance.getD "" ++ "\"")
  require (op.independence.all (· ∈ attestationIndependenceModes) = true)
    ("[kernel.attest.invalid_independence] observer-set independence must be one of " ++
      "independent/correlated, got \"" ++ op.independence.getD "" ++ "\"")

/-! Obligations. -/

def Op.name : Op → String
  | .const _ => "neutrino.const"
  | .input _ _ => "neutrino.input"
  | .compute _ _ _ _ => "neutrino.compute"
  | .debit _ => "neutrino.debit"
  | .credit _ => "neutrino.credit"
  | .assertBalanced => "neutrino.assert_balanced"
  | .participant _ => "neutrino.participant"
  | .allowOrgs _ => "neutrino.allow_orgs"
  | .attest _ => "neutrino.attest"
  | .obligation _ => "neutrino.obligation"

def Op.symName? : Op → Option String
  | .input symName _ => some symName
  | .compute _ symName _ _ => some symName
  | .debit entry => some entry.symName
  | .credit entry => some entry.symName
  | .participant op => some op.symName
  | .obligation op => some op.symName
  | _ => none

def Op.isParticipant : Op → Bool
  | .participant _ => true
  | _ => false

/-- Whether the operation is a value effect. -/
def Op.isEntry : Op → Bool
  | .debit _ => true
  | .credit _ => true
  | _ => false

/-- All operations that declare a name, of any kind. -/
def declarations (proc : ProcedureOp) (name : String) : List Op :=
  (proc.body.map Located.op).filter fun op => op.symName? = some name

def requireUnambiguous (proc : ProcedureOp) (role name : String) : Except String Unit :=
  let decls := declarations proc name
  require (decls.length ≤ 1) ("[kernel.obligation.ambiguous_ref] " ++ role ++ " '" ++ name ++
    "' resolves to " ++ toString decls.length ++ " declarations of that name (order-dependent)")

def requireParticipant (proc : ProcedureOp) (code role name : String) : Except String Unit := do
  require (hasText name = true) ("[kernel.obligation." ++ code ++ "] declares no " ++ role)
  requireUnambiguous proc role name
  require ((declarations proc name).any Op.isParticipant = true) ("[kernel.obligation." ++ code ++
    "] " ++ role ++ " '" ++ name ++ "' does not resolve to a declared participant")

def requireEffect (proc : ProcedureOp) (name : String) : Except String Unit := do
  requireUnambiguous proc "effect" name
  match declarations proc name with
  | [] => .error ("[kernel.obligation.not_an_effect] effect '" ++ name ++
      "' does not resolve to a declared value effect (absent from the procedure)")
  | op :: _ => require (op.isEntry = true) ("[kernel.obligation.not_an_effect] effect '" ++ name ++
      "' resolves to '" ++ op.name ++ "', which is not a value effect (debit/credit)")

def verifyEffects (proc : ProcedureOp) (seen : List String) : List String → Except String Unit
  | [] => .ok ()
  | name :: rest => do
      require (name ∉ seen)
        ("[kernel.obligation.duplicate_effect] declares effect '" ++ name ++ "' more than once")
      requireEffect proc name
      verifyEffects proc (name :: seen) rest

section Parse

variable (parse : Bool → String → Except ExprError ExprNode)

def ObligationOp.verify (proc : ProcedureOp) (op : ObligationOp) : Except String Unit := do
  require (hasText op.symName = true)
    "[kernel.obligation.identity] declares an empty identity (sym_name)"
  requireParticipant proc "obligor" "obligor" op.obligor
  requireParticipant proc "scope" "beneficiary" op.beneficiary
  requireParticipant proc "scope" "authority" op.authority
  match op.when, op.whenAst with
  | some text, some ast => verifyTypedExpr parse (procEnv proc) ast op.whenDeps text true
  | _, _ => .error ("[kernel.obligation.predicate] activation predicate is missing (when text and " ++
      "when_ast must both be present)")
  require (op.effects ≠ []) "[kernel.obligation.effects_empty] authorizes no value effects"
  verifyEffects proc [] op.effects

end Parse

/-! Procedures. -/

def debitOf : Op → Option EntryOp
  | .debit entry => some entry
  | _ => none

def creditOf : Op → Option EntryOp
  | .credit entry => some entry
  | _ => none

def isAttest : Op → Bool
  | .attest _ => true
  | _ => false

namespace ProcedureOp

variable (proc : ProcedureOp)

def debits : List EntryOp := proc.body.filterMap fun located => debitOf located.op

def credits : List EntryOp := proc.body.filterMap fun located => creditOf located.op

def hasAssert : Bool := proc.body.any fun located => isAssertBalanced located.op

def hasAttest : Bool := proc.body.any fun located => isAttest located.op

/-- The declared types, a later declaration of a name over an earlier one. -/
def inputType (name : String) : Option String :=
  (proc.body.filterMap fun located => inputView located.op).reverse.lookup name

def declaredKey : String := proc.instanceKey.getD ""

end ProcedureOp

/-- The input that an entry keys on; none for a literal or a compute. -/
def idemRef (entry : EntryOp) : String :=
  match entry.idempotencyKey with
  | .input symName _ => symName
  | _ => ""

def verifyKey (instanceKey : String) (entry : EntryOp) : Except String Unit :=
  require (idemRef entry = instanceKey) ("[kernel.identity.instance_key] ambiguous instance key — " ++
    "effect does not key on the declared instance key '" ++ instanceKey ++ "' (effect key: " ++
    (if idemRef entry = "" then "literal" else "ref '" ++ idemRef entry ++ "'") ++ ")")

def verifyInstanceKey (proc : ProcedureOp) : Except String Unit :=
  if proc.declaredKey = "" then .ok ()
  else
    match proc.inputType proc.declaredKey with
    | none => .error ("[kernel.identity.instance_key] instance key '" ++ proc.declaredKey ++
        "' names no declared input")
    | some type => do
        require (classifyValueType type = .string) ("[kernel.identity.instance_key] instance key '" ++
          proc.declaredKey ++ "' has non-string type '" ++ type ++ "'")
        each (verifyKey proc.declaredKey) proc.debits
        each (verifyKey proc.declaredKey) proc.credits

def Value.operandKey : Value → String
  | .const value => "lit:" ++ value
  | .input symName _ => "ref:" ++ symName
  | .compute symName _ => "ref:" ++ symName
  | .other => "ssa"

/-- The structural key of an entry's guard. -/
def guardOf (entry : EntryOp) : String :=
  match entry.guardAst with
  | none => ""
  | some ast => structuralKey (toExprNode ast (depSymbols entry.guardDeps))

def flow (entry : EntryOp) : String × String :=
  (entry.amount.operandKey, entry.currency.operandKey)

def guardedFlow (entry : EntryOp) : String × String × String := (guardOf entry, flow entry)

def verifyBalance (proc : ProcedureOp) : Except String Unit := do
  require (proc.hasAssert = true) ("[kernel.balance.assert_missing] moves value (debit/credit) but " ++
    "does not declare the 'assert_balanced' invariant")
  require (proc.debits ≠ [] ∧ proc.credits ≠ []) ("[kernel.balance.not_balanceable] declares " ++
    "'assert_balanced' but is not balanceable: needs at least one debit and one credit")
  require ((proc.debits.map flow : Multiset (String × String)) = proc.credits.map flow)
    ("[kernel.balance.unbalanced] is not balanced: the (amount, currency) moved by debits does not " ++
    "match the credits")
  require ((proc.debits.map guardedFlow : Multiset (String × String × String)) =
      proc.credits.map guardedFlow)
    "[kernel.balance.unbalanced] guarded legs are not balanced under the same guard"

/-- An effectless coordination is an evidence acceptance under a declared key, or has neither. -/
def verifyEffectless (proc : ProcedureOp) : Except String Unit := do
  require (¬(proc.hasAttest = true ∧ proc.declaredKey = "")) ("[kernel.identity.evidence_only] " ++
    "evidence-only coordination requires an explicit instance key")
  require (¬(proc.hasAttest = false ∧ proc.declaredKey ≠ "")) ("[kernel.identity.evidence_only] an " ++
    "effectless coordination must declare an attestation/evidence acceptance action")

def ProcedureOp.verify (proc : ProcedureOp) : Except String Unit := do
  require (proc.version.all isValidSemVer = true) ("[kernel.version.invalid] has an invalid version " ++
    "\"" ++ proc.version.getD "" ++ "\": must be a semantic version MAJOR.MINOR.PATCH")
  verifyInstanceKey proc
  if proc.debits = [] ∧ proc.credits = [] then verifyEffectless proc else verifyBalance proc

/-! Modules. -/

section Module

variable (parse : Bool → String → Except ExprError ExprNode)

def Op.verify (proc : ProcedureOp) : Op → Except String Unit
  | .compute deps _ expr ast => verifyTypedExpr parse (procEnv proc) ast deps expr false
  | .debit entry => verifyEntryOp parse (procEnv proc) entry
  | .credit entry => verifyEntryOp parse (procEnv proc) entry
  | .participant op => op.verify
  | .attest op => op.verify
  | .obligation op => op.verify parse proc
  | _ => .ok ()

/-- Every verifier of the procedure and of its operations accepts. -/
structure ProcedureOp.Accepted (proc : ProcedureOp) : Prop where
  procedure : proc.verify = .ok ()
  operations : ∀ located ∈ proc.body, located.op.verify parse proc = .ok ()

end Module

end Neutrino
