import Neutrino.OracleObserver

/-! The files of the observer generator: where the modules of a bound set go, whether any two
meet in one path, and when the members of a set can reach their policy's quorum. -/

namespace Neutrino.Oracle

open Json Checked Quorum

/-! Files. -/

/-- What a generated file holds. -/
inductive Module
  | observer (p : AttestationPolicy) (b : BoundSet) (member : String × String)
  | aggregator (p : AttestationPolicy) (b : BoundSet)
  deriving DecidableEq

structure OracleFile where
  path : String
  code : Module
  deriving DecidableEq

def directory (b : BoundSet) : String := "observers/" ++ b.ref ++ "/"

def filePath : Module → String
  | .observer _ b member => directory b ++ member.1 ++ ".js"
  | .aggregator _ b => directory b ++ "aggregate.js"

/-- A policy's files: one module for each bound member, then the aggregator. -/
def policyModules (bound : AttestationPolicy × BoundSet) : List Module :=
  bound.2.members.map (.observer bound.1 bound.2) ++ [.aggregator bound.1 bound.2]

def generatedFiles (bound : List (AttestationPolicy × BoundSet)) : List OracleFile :=
  (bound.flatMap policyModules).map fun code => ⟨filePath code, code⟩

/-! What the generator has checked. -/

/-- A name that is one segment of a path. -/
def Plain (name : String) : Prop :=
  name ≠ "" ∧ name ≠ "." ∧ name ≠ ".." ∧ '/' ∉ name.toList

theorem safeIdent_plain {text what : String} (safe : safeIdent text what = .ok ()) :
    Plain text := by
  rw [safeIdent, require_ok] at safe
  obtain ⟨nonempty, dot, dots, chars⟩ := safe
  refine ⟨nonempty, dot, dots, fun slash => ?_⟩
  have allowed := List.all_eq_true.mp chars _ slash
  revert allowed
  decide

theorem members_distinct {b : BoundSet} {members : List (String × String)} {seen : List String}
    (checked : thread (checkMember b) [] members = .ok seen) : (members.map Prod.fst).Nodup := by
  suffices (members.map Prod.fst).Nodup ∧ ∀ id, id ∈ members.map Prod.fst → id ∈ seen from this.1
  refine thread_preserves
    (fun members seen => (members.map Prod.fst).Nodup ∧ ∀ id, id ∈ members.map Prod.fst → id ∈ seen)
    ?_ ⟨by simp, by simp⟩ checked
  rintro members seen member next ⟨distinct, noted⟩ accepted
  simp only [checkMember, check_ok, require_ok, pure_ok] at accepted
  obtain ⟨_, fresh, rfl⟩ := accepted
  rw [List.map_append, List.map_singleton]
  constructor
  · rw [List.nodup_append_comm, List.singleton_append, List.nodup_cons]
    exact ⟨fun held => fresh (noted _ held), distinct⟩
  · intro id listed
    rcases List.mem_append.mp listed with held | last
    · exact List.mem_cons_of_mem _ (noted id held)
    · rw [List.mem_singleton.mp last]
      exact List.mem_cons_self

/-- What holds of every policy the generator renders, and of the set bound to it. -/
structure Bound (binding : Object) (p : AttestationPolicy) (b : BoundSet) : Prop where
  ref : b.ref = p.observerSet
  resolved : ∃ found, resolveSet binding p = .ok found ∧ found.members = b.members
  positive : 0 < p.quorum
  distinct : (b.members.map Prod.fst).Nodup
  plainRef : Plain b.ref
  plainIds : ∀ member ∈ b.members, Plain member.1

theorem resolveSet_ref {binding : Object} {p : AttestationPolicy} {b : BoundSet}
    (resolved : resolveSet binding p = .ok b) : b.ref = p.observerSet := by
  unfold resolveSet at resolved
  split at resolved
  · cases resolved
  · split at resolved
    · cases resolved
    · split at resolved
      · cases resolved
      · cases resolved
        rfl

theorem bindDomain_same {spec : Object} {b bound : BoundSet}
    (accepted : bindDomain spec b = .ok bound) : bound.ref = b.ref ∧ bound.members = b.members := by
  unfold bindDomain at accepted
  split at accepted
  · simp only [check_ok, pure_ok] at accepted
    obtain ⟨_, _, rfl⟩ := accepted
    exact ⟨rfl, rfl⟩
  · rw [pure_ok.mp accepted]
    exact ⟨rfl, rfl⟩

theorem quorum_positive {p : AttestationPolicy} (valid : validateAttestationPolicy p = "") :
    0 < p.quorum := by
  by_contra low
  rw [validateAttestationPolicy, if_pos (by omega)] at valid
  have chars := congrArg String.toList valid
  rw [String.toList_append] at chars
  have impossible := List.append_eq_nil_iff.mp chars
  cases impossible.1

theorem bindPolicy_bound {spec binding : Object} {p : AttestationPolicy}
    {bound : AttestationPolicy × BoundSet} (accepted : bindPolicy spec binding p = .ok bound) :
    bound.1 = p ∧ Bound binding p bound.2 := by
  simp only [bindPolicy, bind_ok, require_ok, pure_ok] at accepted
  obtain ⟨_, valid, b, resolved, _, _, _, _, _, _, seen, named, domain, accepted, _, _, _, ref, _,
    ids, rfl⟩ := accepted
  have same := bindDomain_same accepted
  refine ⟨rfl, ?_⟩
  constructor
  · exact same.1.trans (resolveSet_ref resolved)
  · exact ⟨b, resolved, same.2.symm⟩
  · exact quorum_positive valid
  · rw [same.2]
    exact members_distinct named
  · rw [same.1]
    exact safeIdent_plain ref
  · rw [same.2]
    exact fun member listed => safeIdent_plain (each_ok.mp ids member listed)

theorem generated_bound {spec binding : Object} {bound : List (AttestationPolicy × BoundSet)}
    (generated : generateOracleObserverFromSpec spec binding = .ok bound) :
    bound.map Prod.fst = attestationPoliciesFromSpec spec ∧
      ∀ x ∈ bound, Bound binding x.1 x.2 := by
  simp only [generateOracleObserverFromSpec, bind_ok, require_ok] at generated
  obtain ⟨_, _, _, _, _, _, _, _, collected⟩ := generated
  constructor
  · exact collect_project (fun _ _ accepted => (bindPolicy_bound accepted).1) collected
  · intro x listed
    obtain ⟨p, _, accepted⟩ := collect_mem_result collected listed
    obtain ⟨same, bound⟩ := bindPolicy_bound accepted
    rw [same]
    exact bound

/-! Paths. -/

theorem segment_unique {first second rest rest' : List Char} (plain : '/' ∉ first)
    (plain' : '/' ∉ second) (same : first ++ '/' :: rest = second ++ '/' :: rest') :
    first = second ∧ rest = rest' := by
  induction first generalizing second with
  | nil =>
      cases second with
      | nil => exact ⟨rfl, List.cons.inj same |>.2⟩
      | cons c others =>
          have here : '/' = c := (List.cons.inj same).1
          exact absurd (here ▸ List.mem_cons_self) plain'
  | cons c others ih =>
      cases second with
      | nil =>
          have here : c = '/' := (List.cons.inj same).1
          exact absurd (here ▸ List.mem_cons_self) plain
      | cons d more =>
          obtain ⟨rfl, later⟩ := List.cons.inj same
          obtain ⟨rfl, rest⟩ := ih (fun held => plain (List.mem_cons_of_mem _ held))
            (fun held => plain' (List.mem_cons_of_mem _ held)) later
          exact ⟨rfl, rest⟩

/-- The name of a module's file in the directory of its set. -/
def fileName : Module → String
  | .observer _ _ member => member.1
  | .aggregator _ _ => "aggregate"

def Module.set : Module → BoundSet
  | .observer _ b _ => b
  | .aggregator _ b => b

theorem filePath_toList (code : Module) : (filePath code).toList =
    "observers/".toList ++ (code.set.ref.toList ++ '/' :: ((fileName code).toList ++ ".js".toList)) := by
  cases code <;> simp [filePath, directory, Module.set, fileName]

theorem filePath_eq {code other : Module} (plain : Plain code.set.ref) (plain' : Plain other.set.ref) :
    filePath code = filePath other ↔
      code.set.ref = other.set.ref ∧ fileName code = fileName other := by
  rw [← String.toList_inj, filePath_toList, filePath_toList, List.append_cancel_left_eq]
  constructor
  · intro same
    obtain ⟨ref, name⟩ := segment_unique plain.2.2.2 plain'.2.2.2 same
    exact ⟨String.toList_inj.mp ref, String.toList_inj.mp (List.append_cancel_right name)⟩
  · rintro ⟨ref, name⟩
    rw [ref, name]

theorem mem_policyModules {bound : AttestationPolicy × BoundSet} {code : Module} :
    code ∈ policyModules bound ↔
      (∃ member ∈ bound.2.members, code = .observer bound.1 bound.2 member) ∨
        code = .aggregator bound.1 bound.2 := by
  simp [policyModules, eq_comm]

theorem set_of_policyModules {bound : AttestationPolicy × BoundSet} {code : Module}
    (listed : code ∈ policyModules bound) : code.set = bound.2 := by
  rcases mem_policyModules.mp listed with ⟨_, _, rfl⟩ | rfl <;> rfl

section Collisions

variable {binding : Object} {bound : List (AttestationPolicy × BoundSet)}
  (checked : ∀ x ∈ bound, Bound binding x.1 x.2)

include checked

theorem policyPaths_distinct {x : AttestationPolicy × BoundSet} (listed : x ∈ bound) :
    ((policyModules x).map filePath).Nodup ↔ "aggregate" ∉ x.2.members.map Prod.fst := by
  have plain := (checked x listed).plainRef
  have byName : ((policyModules x).map filePath).Nodup ↔ ((policyModules x).map fileName).Nodup := by
    simp only [List.Nodup, List.pairwise_map]
    refine List.Pairwise.iff_of_mem fun {code other} here there => not_congr ?_
    have set := set_of_policyModules here
    have set' := set_of_policyModules there
    rw [filePath_eq (set ▸ plain) (set' ▸ plain), set, set']
    exact and_iff_right rfl
  have names : (policyModules x).map fileName = x.2.members.map Prod.fst ++ ["aggregate"] := by
    simp [policyModules, fileName, Function.comp_def]
  rw [byName, names, List.nodup_append_comm, List.singleton_append, List.nodup_cons]
  exact and_iff_left (checked x listed).distinct

theorem disjoint_paths {x y : AttestationPolicy × BoundSet} (here : x ∈ bound) (there : y ∈ bound) :
    ((policyModules x).map filePath).Disjoint ((policyModules y).map filePath) ↔
      x.2.ref ≠ y.2.ref := by
  have plain := (checked x here).plainRef
  have plain' := (checked y there).plainRef
  constructor
  · intro apart same
    have meet : filePath (.aggregator x.1 x.2) = filePath (.aggregator y.1 y.2) := by
      refine (filePath_eq ?_ ?_).mpr ⟨same, rfl⟩
      · exact plain
      · exact plain'
    refine apart (List.mem_map_of_mem (mem_policyModules.mpr (.inr rfl))) ?_
    rw [meet]
    exact List.mem_map_of_mem (mem_policyModules.mpr (.inr rfl))
  · intro different path first second
    obtain ⟨code, listed, rfl⟩ := List.mem_map.mp first
    obtain ⟨other, listed', same⟩ := List.mem_map.mp second
    have set := set_of_policyModules listed
    have set' := set_of_policyModules listed'
    have refs := ((filePath_eq (set' ▸ plain') (set ▸ plain)).mp same).1
    rw [set, set'] at refs
    exact different refs.symm

theorem paths_distinct_iff : ((generatedFiles bound).map OracleFile.path).Nodup ↔
    (bound.map fun x => x.2.ref).Nodup ∧
      ∀ x ∈ bound, "aggregate" ∉ x.2.members.map Prod.fst := by
  have paths : (generatedFiles bound).map OracleFile.path =
      bound.flatMap fun x => (policyModules x).map filePath := by
    simp [generatedFiles, List.map_flatMap, Function.comp_def]
  rw [paths, List.nodup_flatMap, and_comm]
  refine and_congr ?_ (forall₂_congr fun x listed => policyPaths_distinct checked listed)
  simp only [List.Nodup, List.pairwise_map]
  exact List.Pairwise.iff_of_mem fun here there => disjoint_paths checked here there

end Collisions

/-! The quorum. -/

section Gathering

variable {aggregator : Aggregator}

def signersOf (digest : String) (byDigest : List (String × Signers)) : Signers :=
  ((byDigest.find? fun group => group.1 = digest).map Prod.snd).getD []

theorem signersOf_addToDigest (digest : String) (byDigest : List (String × Signers))
    (a : Attestation) : signersOf digest (addToDigest a byDigest) =
      if a.digest = digest then addSigner (signersOf digest byDigest) a
      else signersOf digest byDigest := by
  induction byDigest with
  | nil =>
      by_cases own : a.digest = digest <;> simp [addToDigest, signersOf, own]
  | cons group rest ih =>
      rw [addToDigest]
      by_cases here : group.1 = a.digest
      · rw [if_pos here]
        by_cases own : a.digest = digest <;> simp [signersOf, here, own]
      · rw [if_neg here]
        by_cases found : group.1 = digest
        · have other : a.digest ≠ digest := fun own => here (found.trans own.symm)
          simp [signersOf, found, other]
        · simpa [signersOf, found] using ih

/-- The attestations that count towards one digest. -/
def counted (aggregator : Aggregator) (digest : String) (attestations : List Attestation) :
    List Attestation :=
  attestations.filter fun a => a.publicKey ∈ aggregator.authorized ∧ a.digest = digest

theorem signersOf_gathered (digest : String) (attestations : List Attestation)
    (byDigest : List (String × Signers)) :
    signersOf digest (attestations.foldl (countSigner aggregator) byDigest) =
      (counted aggregator digest attestations).foldl addSigner (signersOf digest byDigest) := by
  induction attestations generalizing byDigest with
  | nil => rfl
  | cons first rest ih =>
      rw [List.foldl_cons, ih, countSigner]
      by_cases known : first.publicKey ∈ aggregator.authorized
      · rw [if_pos known, signersOf_addToDigest]
        by_cases own : first.digest = digest <;> simp [known, own, counted]
      · simp [known, counted]

theorem key_gathered {key : String} (attestations : List Attestation) (signers : Signers) :
    key ∈ (attestations.foldl addSigner signers).map Prod.fst ↔
      key ∈ signers.map Prod.fst ∨ ∃ a ∈ attestations, a.publicKey = key := by
  induction attestations generalizing signers with
  | nil => simp
  | cons first rest ih =>
      have grown : key ∈ (addSigner signers first).map Prod.fst ↔
          key ∈ signers.map Prod.fst ∨ first.publicKey = key := by
        unfold addSigner
        split
        · rename_i held
          refine ⟨.inl, fun | .inl listed => listed | .inr same => same ▸ held⟩
        · simp [eq_comm]
      rw [List.foldl_cons, ih, grown, List.exists_mem_cons_iff, or_assoc]

/-- Where every authorized key attests to one digest, some digest has a quorum. -/
theorem aggregate_reached {attestations : List Attestation} {digest : String}
    (positive : 0 < aggregator.threshold)
    (enough : aggregator.threshold ≤ aggregator.authorized.dedup.length)
    (attested : ∀ key ∈ aggregator.authorized, ∃ a ∈ attestations, a.publicKey = key ∧
      a.digest = digest) :
    ∃ found claim signatures signers,
      aggregate aggregator attestations = .met found claim signatures signers := by
  let byDigest := attestations.foldl (countSigner aggregator) []
  have signers : signersOf digest byDigest =
      (counted aggregator digest attestations).foldl addSigner [] := signersOf_gathered _ _ _
  have gathered : aggregator.authorized.dedup ⊆ (signersOf digest byDigest).map Prod.fst := by
    intro key listed
    have authorized := List.mem_dedup.mp listed
    obtain ⟨a, arrived, named, own⟩ := attested key authorized
    rw [signers, key_gathered]
    refine .inr ⟨a, List.mem_filter.mpr ⟨arrived, ?_⟩, named⟩
    simpa [named, own] using authorized
  have size := ((List.nodup_dedup _).subperm gathered).length_le
  rw [List.length_map] at size
  have reached : aggregator.threshold ≤ (signersOf digest byDigest).length := by omega
  obtain ⟨group, grouped⟩ : ∃ group, byDigest.find? (fun group => group.1 = digest) = some group := by
    cases grouped : byDigest.find? fun group => group.1 = digest with
    | some group => exact ⟨group, rfl⟩
    | none =>
        rw [signersOf, grouped] at reached
        simp at reached
        omega
  have own : group.1 = digest := by simpa using List.find?_some grouped
  have members : group.2 = signersOf digest byDigest := by rw [signersOf, grouped]; rfl
  have known : digest ∈ (byDigest.map Prod.fst).mergeSort fun a b => decide (a ≤ b) := by
    rw [List.mem_mergeSort, ← own]
    exact List.mem_map_of_mem (List.mem_of_find?_eq_some grouped)
  rw [aggregate]
  split
  · exact ⟨_, _, _, _, rfl⟩
  · rename_i none
    have refused := List.find?_eq_none.mp none group (List.mem_filterMap.mpr ⟨digest, known, grouped⟩)
    rw [members] at refused
    simp [reached] at refused

end Gathering

/-! What is generated. -/

/-- No two files meet in one path, every policy has one module for each bound member and one
aggregator, and its members reach the quorum when they attest to one claim. -/
structure Deployable (bound : List (AttestationPolicy × BoundSet)) : Prop where
  paths : ((generatedFiles bound).map OracleFile.path).Nodup
  observers : ∀ x ∈ bound, ∀ member ∈ x.2.members,
    ((generatedFiles bound).map OracleFile.code).count (.observer x.1 x.2 member) = 1
  aggregators : ∀ x ∈ bound,
    ((generatedFiles bound).map OracleFile.code).count (.aggregator x.1 x.2) = 1
  authorized : ∀ x ∈ bound,
    x.1.quorum ≤ (renderAggregator x.1 x.2).authorized.dedup.length
  reached : ∀ x ∈ bound, ∀ attestations digest,
    (∀ key ∈ x.2.members.map Prod.snd, ∃ a ∈ attestations, a.publicKey = key ∧ a.digest = digest) →
      ∃ found claim signatures signers,
        aggregate (renderAggregator x.1 x.2) attestations = .met found claim signatures signers

/-- No two policies name one observer set, no member of a policy's set is called `aggregate`, and
the set has as many different public keys as the quorum asks for. -/
structure Separable (spec binding : Object) : Prop where
  sets : ((attestationPoliciesFromSpec spec).map AttestationPolicy.observerSet).Nodup
  names : ∀ p ∈ attestationPoliciesFromSpec spec, ∀ b, resolveSet binding p = .ok b →
    "aggregate" ∉ b.members.map Prod.fst
  keys : ∀ p ∈ attestationPoliciesFromSpec spec, ∀ b, resolveSet binding p = .ok b →
    p.quorum ≤ (b.members.map Prod.snd).dedup.length

theorem codes_distinct {bound : List (AttestationPolicy × BoundSet)}
    (paths : ((generatedFiles bound).map OracleFile.path).Nodup) :
    ((generatedFiles bound).map OracleFile.code).Nodup := by
  have same : (generatedFiles bound).map OracleFile.path =
      ((generatedFiles bound).map OracleFile.code).map filePath := by
    simp [generatedFiles, Function.comp_def]
  rw [same] at paths
  exact paths.of_map

theorem code_generated {bound : List (AttestationPolicy × BoundSet)}
    {x : AttestationPolicy × BoundSet} (listed : x ∈ bound) {code : Module}
    (own : code ∈ policyModules x) : code ∈ (generatedFiles bound).map OracleFile.code := by
  have codes : (generatedFiles bound).map OracleFile.code = bound.flatMap policyModules := by
    simp [generatedFiles, Function.comp_def]
  rw [codes]
  exact List.mem_flatMap.mpr ⟨x, listed, own⟩

/-- Every file is one segment below a directory of `observers/`. -/
theorem generated_below {binding : Object} {bound : List (AttestationPolicy × BoundSet)}
    (checked : ∀ x ∈ bound, Bound binding x.1 x.2) : ∀ file ∈ generatedFiles bound, ∃ ref name,
      file.path = "observers/" ++ ref ++ "/" ++ name ∧ Plain ref ∧ Plain name := by
  intro file listed
  obtain ⟨code, generated, rfl⟩ := List.mem_map.mp listed
  obtain ⟨x, bound, own⟩ := List.mem_flatMap.mp generated
  have set := set_of_policyModules own
  have stem : '/' ∉ (fileName code).toList := by
    rcases mem_policyModules.mp own with ⟨member, held, rfl⟩ | rfl
    · exact ((checked x bound).plainIds member held).2.2.2
    · simp [fileName]
  have long : 3 ≤ (fileName code ++ ".js").toList.length := by simp
  refine ⟨code.set.ref, fileName code ++ ".js", ?_, set ▸ (checked x bound).plainRef, ?_, ?_, ?_, ?_⟩
  · rw [← String.toList_inj, filePath_toList]
    simp
  · intro empty
    simp [empty] at long
  · intro dot
    simp [dot] at long
  · intro dots
    simp [dots] at long
  · simpa using stem

/-- What the generator accepts has its files below `observers/`, and they are as a deployment
needs them exactly when the policies' sets are apart, no member is called `aggregate` and enough
public keys differ. -/
theorem observer_files_exact {spec binding : Object} {bound : List (AttestationPolicy × BoundSet)}
    (generated : generateOracleObserverFromSpec spec binding = .ok bound) :
    bound.map Prod.fst = attestationPoliciesFromSpec spec ∧
    (∀ file ∈ generatedFiles bound, ∃ ref name,
      file.path = "observers/" ++ ref ++ "/" ++ name ∧ Plain ref ∧ Plain name) ∧
    (Deployable bound ↔ Separable spec binding) := by
  obtain ⟨policies, checked⟩ := generated_bound generated
  have refs : (bound.map fun x => x.2.ref) =
      (attestationPoliciesFromSpec spec).map AttestationPolicy.observerSet := by
    rw [← policies, List.map_map]
    exact List.map_congr_left fun x listed => (checked x listed).ref
  have policy_bound : ∀ p ∈ attestationPoliciesFromSpec spec, ∀ b, resolveSet binding p = .ok b →
      ∃ x ∈ bound, x.1 = p ∧ x.2.members = b.members := by
    intro p listed b resolved
    rw [← policies] at listed
    obtain ⟨x, held, rfl⟩ := List.mem_map.mp listed
    obtain ⟨found, same, members⟩ := (checked x held).resolved
    cases resolved.symm.trans same
    exact ⟨x, held, rfl, members.symm⟩
  have set_resolved : ∀ x ∈ bound, x.1 ∈ attestationPoliciesFromSpec spec ∧
      ∃ b, resolveSet binding x.1 = .ok b ∧ b.members = x.2.members := by
    intro x held
    refine ⟨?_, (checked x held).resolved⟩
    rw [← policies]
    exact List.mem_map_of_mem held
  refine ⟨policies, generated_below checked, ?_, ?_⟩
  · intro deployable
    obtain ⟨distinct, named⟩ := (paths_distinct_iff checked).mp deployable.paths
    refine ⟨refs ▸ distinct, ?_, ?_⟩
    · intro p listed b resolved
      obtain ⟨x, held, rfl, members⟩ := policy_bound p listed b resolved
      rw [← members]
      exact named x held
    · intro p listed b resolved
      obtain ⟨x, held, rfl, members⟩ := policy_bound p listed b resolved
      rw [← members]
      exact deployable.authorized x held
  · intro separable
    have keys : ∀ x ∈ bound, x.1.quorum ≤ (x.2.members.map Prod.snd).dedup.length := by
      intro x held
      obtain ⟨listed, b, resolved, members⟩ := set_resolved x held
      rw [← members]
      exact separable.keys x.1 listed b resolved
    have named : ∀ x ∈ bound, "aggregate" ∉ x.2.members.map Prod.fst := by
      intro x held
      obtain ⟨listed, b, resolved, members⟩ := set_resolved x held
      rw [← members]
      exact separable.names x.1 listed b resolved
    have distinct : (bound.map fun x => x.2.ref).Nodup := by
      rw [refs]
      exact separable.sets
    have paths := (paths_distinct_iff checked).mpr ⟨distinct, named⟩
    have once := codes_distinct paths
    constructor
    · exact paths
    · intro x held member bound
      exact List.count_eq_one_of_mem once
        (code_generated held (mem_policyModules.mpr (.inl ⟨member, bound, rfl⟩)))
    · intro x held
      exact List.count_eq_one_of_mem once (code_generated held (mem_policyModules.mpr (.inr rfl)))
    · exact keys
    · intro x held attestations digest attested
      exact aggregate_reached (checked x held).positive (keys x held) attested

theorem observer_files_exact_pair :
    generateOracleObserverFromSpec pairSpec pairBinding = .ok [(pairPolicy, pairSet)] ∧
      (Deployable [(pairPolicy, pairSet)] ↔ Separable pairSpec pairBinding) :=
  ⟨pair_generated, (observer_files_exact pair_generated).2.2⟩

/-! Two members that share a public key. -/

def sharedKeyBinding : Object :=
  [("kind", .string "neutrino.observation-binding"), ("schemaVersion", .number (.integer 1)),
    ("observerSets", .array [.object [("ref", .string "couriers"),
      ("source", .object [("type", .string "mock"), ("claimField", .string "delivered")]),
      ("members", .array [
        .object [("id", .string "obs-alpha"), ("publicKey", .string "key-alpha")],
        .object [("id", .string "obs-beta"), ("publicKey", .string "key-alpha")]])]])]

def sharedKeySet : BoundSet where
  ref := "couriers"
  sourceType := "mock"
  claimField := "delivered"
  members := [("obs-alpha", "key-alpha"), ("obs-beta", "key-alpha")]
  chainId := ""
  verifyingContract := ""
  capabilityHash := ""

theorem shared_key_unreachable :
    generateOracleObserverFromSpec pairSpec sharedKeyBinding = .ok [(pairPolicy, sharedKeySet)] ∧
      ¬Deployable [(pairPolicy, sharedKeySet)] := by
  refine ⟨by decide +kernel, fun deployable => ?_⟩
  have enough := deployable.authorized (pairPolicy, sharedKeySet) List.mem_cons_self
  revert enough
  decide

end Neutrino.Oracle
