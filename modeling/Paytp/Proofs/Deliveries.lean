import Paytp.Instance
import Paytp.Lib.Run
import Paytp.Proofs.Destinations
import Paytp.Signing

/-!
# What deliveries pay

An attested entry and a lapsed one are delivered. The rail floors what a destination is due of all
that was delivered so far, and so pays with a later entry what an earlier one left; the chain
floors each entry on its own and leaves the rest of it in the entry's escrow.
-/

namespace Paytp

/-- What a destination is paid over some deliveries, each with its payouts by destination. -/
def paidOver {α : Type*} (paid : α → ℕ) (deliveries : List (ℕ × α)) : ℕ :=
  (deliveries.map fun d => paid d.2).sum

/-- The amounts of some deliveries. -/
def amountsOf {α : Type*} (deliveries : List (ℕ × α)) : List ℕ := deliveries.map Prod.fst

/-! ## On the rail -/

namespace PurchaseInstance

variable (suite : Suite) {inst : PurchaseInstance}

/-- The entry that an operation delivers. -/
def delivers : Op → Option (ByteArr 32)
  | .attest entryId _ | .claimLapsed entryId => some entryId
  | _ => none

/-- A delivery that a step makes: the amount of the entry, and the payouts. -/
def deliveryOf (inst : PurchaseInstance) (x : ℕ × Op) : Option (ℕ × List Payout) :=
  match delivers x.2, inst.run suite x.1 x.2 with
  | some entryId, .ok (out, _) => (inst.entries.lookup entryId).map fun e => (e.amount, out)
  | _, _ => none

/-- Everything delivered was divided: each share was paid its floor of all of it. -/
structure Divided (meed : List MeedShare) (delivered : ℕ) (inst : PurchaseInstance) : Prop where
  shares : inst.meed = meed
  received : inst.vReceived = min U128_MAX delivered
  floors : inst.paid =
    meed.map fun r => min U128_MAX delivered * r.bp / (meed.map MeedShare.bp).sum

variable {meed : List MeedShare} {delivered : ℕ}

/-- What a destination is due of all that was delivered. -/
def dueOn (meed : List MeedShare) (dest : String) (delivered : ℕ) : ℕ :=
  dueOf (min U128_MAX delivered) (meed.map MeedShare.bp).sum meed dest

theorem Divided.setState (h : Divided meed delivered inst) (entryId : ByteArr 32) (e : Entry)
    (state : State) : Divided meed delivered (inst.setState entryId e state) :=
  ⟨h.shares, h.received, h.floors⟩

theorem Divided.divide (h : Divided meed delivered inst) (hbp : (meed.map MeedShare.bp).sum ≠ 0)
    (amount : ℕ) : Divided meed (delivered + amount) (inst.distribute amount).2 ∧
      ∀ dest, paidOut (inst.distribute amount).1 dest + dueOn meed dest delivered =
        dueOn meed dest (delivered + amount) := by
  have hv : satAddU128 inst.vReceived amount = min U128_MAX (delivered + amount) := by
    rw [h.received, satAddU128]
    omega
  have hfloors := fun dest => @MeedInstance.entitle_floors (min U128_MAX delivered)
    (min U128_MAX (delivered + amount)) (meed.map MeedShare.bp).sum (by omega) dest meed
  unfold distribute bpTotal
  rw [h.shares, if_neg hbp, h.floors, hv]
  exact ⟨⟨rfl, rfl, (hfloors "").1⟩, fun dest => (hfloors dest).2⟩

/-- A step delivers nothing, or an entry and divides it. -/
theorem step_divides (h : Divided meed delivered inst) (hbp : (meed.map MeedShare.bp).sum ≠ 0)
    (x : ℕ × Op) :
    deliveryOf suite inst x = none ∧ Divided meed delivered (step suite inst x).1 ∨
      ∃ amount out, deliveryOf suite inst x = some (amount, out) ∧
        Divided meed (delivered + amount) (step suite inst x).1 ∧
        ∀ dest, paidOut out dest + dueOn meed dest delivered =
          dueOn meed dest (delivered + amount) := by
  obtain ⟨now, op⟩ := x
  unfold deliveryOf step
  rcases hrun : inst.run suite now op with err | ⟨out, inst'⟩
  · refine .inl ⟨?_, h⟩
    rcases delivers op with _ | entryId <;> rfl
  rcases op <;> simp only [delivers, run] at hrun ⊢
  case attest entryId signed =>
    simp only [attest, entry, bind_eq_ok, okOr_eq_ok, pure_eq_ok] at hrun
    obtain ⟨e, he, -, -, -, -, hout⟩ := hrun
    obtain ⟨hnext, hpaid⟩ := (h.setState entryId e .attested).divide hbp e.amount
    rw [hout] at hnext hpaid
    exact .inr ⟨e.amount, out, by rw [he]; rfl, hnext, hpaid⟩
  case claimLapsed entryId =>
    simp only [claimLapsed, entry, bind_eq_ok, okOr_eq_ok, pure_eq_ok] at hrun
    obtain ⟨e, he, -, -, -, -, hout⟩ := hrun
    obtain ⟨hnext, hpaid⟩ := (h.setState entryId e .lapsed).divide hbp e.amount
    rw [hout] at hnext hpaid
    exact .inr ⟨e.amount, out, by rw [he]; rfl, hnext, hpaid⟩
  case fundEntry t refundPtr =>
    simp only [fundEntry, bind_eq_ok, map_eq_ok, pure_eq_ok] at hrun
    obtain ⟨_, ⟨-, -, -, -, -, -, -, -, rfl⟩, hout⟩ := hrun
    cases hout
    exact .inl ⟨trivial, h.shares, h.received, h.floors⟩
  case cancel entryId signed =>
    simp only [cancel, entry, bind_eq_ok, okOr_eq_ok, pure_eq_ok] at hrun
    obtain ⟨e, -, -, -, -, -, hout⟩ := hrun
    cases hout
    exact .inl ⟨trivial, h.setState entryId e .cancelled⟩
  case openReclaim entryId =>
    simp only [openReclaim, entry, bind_eq_ok, map_eq_ok, okOr_eq_ok, pure_eq_ok] at hrun
    obtain ⟨_, ⟨e, -, -, -, -, -, rfl⟩, hout⟩ := hrun
    cases hout
    exact .inl ⟨trivial, h.setState entryId e _⟩
  case executeReclaim entryId =>
    simp only [executeReclaim, entry, bind_eq_ok, okOr_eq_ok] at hrun
    obtain ⟨e, -, hrun⟩ := hrun
    rcases hs : e.state <;> simp only [hs, bind_eq_ok, pure_eq_ok] at hrun
    case reclaimOpen openedAt =>
      obtain ⟨_, -, -, -, hout⟩ := hrun
      cases hout
      exact .inl ⟨trivial, h.setState entryId e .reclaimed⟩
    all_goals
      obtain ⟨_, hnone, -⟩ := hrun
      cases hnone

/-- What a run delivers, it divides: a destination is paid what it is due of all of it. -/
theorem run_divides (suite : Suite) (hbp : (meed.map MeedShare.bp).sum ≠ 0) : ∀ (xs : List (ℕ × Op))
    (inst : PurchaseInstance) (delivered : ℕ), Divided meed delivered inst → ∀ dest,
    paidOver (fun out => paidOut out dest) (marks (step suite) (deliveryOf suite) inst xs) +
        dueOn meed dest delivered =
      dueOn meed dest
        (delivered + (amountsOf (marks (step suite) (deliveryOf suite) inst xs)).sum)
  | [], _, _, _, _ => by simp [paidOver, amountsOf, marks]
  | x :: xs, inst, delivered, h, dest => by
    rw [marks]
    rcases @step_divides suite _ _ _ h hbp x with ⟨hnone, hnext⟩ | ⟨a, out, hsome, hnext, hpaid⟩
    · rw [hnone]
      exact run_divides suite hbp xs _ _ hnext dest
    · rw [hsome]
      have hrest := run_divides suite hbp xs _ _ hnext dest
      have hhere := hpaid dest
      simp only [paidOver, amountsOf, Option.toList_some, List.singleton_append, List.map_cons,
        List.sum_cons, ← Nat.add_assoc] at hrest ⊢
      omega

end PurchaseInstance

/-! ## On the chain -/

namespace Kit.Program

variable {rt : Runtime} {s t : Program} {key : Pubkey} {inst : Instance}

/-- What payments pay an account. -/
def paidIn (payments : List Payment) (dest : Pubkey) : ℕ :=
  (payments.map fun p => if p.dest = dest then p.amount else 0).sum

/-- A distribution under an instance that a step makes: the amount of the entry, and the
payments. -/
def distributionOf (rt : Runtime) (key : Pubkey) (s : Program) : Event → Option (ℕ × List Payment)
  | .instruction (.distribute inst entry escrow dests) ctx =>
    match s.run rt ctx (.distribute inst entry escrow dests) with
    | .ok (payments, _) =>
      if inst = key then (s.entries.lookup entry).map fun e => (e.amount, payments) else none
    | .error _ => none
  | _ => none

/-- A slot's destination is paid its share, also where that is nothing. -/
theorem payShare_paid {instKey escrow : Pubkey} {amount : ℕ} {dests : Fin 4 → Pubkey}
    {tokens tokens' : Tokens} {payments payments' : List Payment} {seat : Fin 4}
    (h : payShare instKey escrow amount dests (entryShares dests).weight (payments, tokens) seat =
      .ok (payments', tokens')) (dest : Pubkey) :
    paidIn payments' dest = paidIn payments dest +
      if dests seat = dest then (entryShares dests).entitlement amount seat else 0 := by
  unfold payShare at h
  rw [claimableD_eq] at h
  split_ifs at h with hweight
  · cases h
    simp [Shares.entitlement, hweight]
  · simp only [bind_eq_ok, require_eq_ok] at h
    obtain ⟨-, -, h⟩ := h
    split_ifs at h with hzero
    · cases h
      simp [hzero]
    · simp only [bind_eq_ok, pure_eq_ok, Prod.mk.injEq] at h
      obtain ⟨_, -, rfl, -⟩ := h
      simp [paidIn]

theorem foldlM_payShare_paid {instKey escrow : Pubkey} {amount : ℕ} {dests : Fin 4 → Pubkey}
    (dest : Pubkey) : ∀ (seats : List (Fin 4)) (paid paid' : List Payment × Tokens),
    seats.foldlM (payShare instKey escrow amount dests (entryShares dests).weight) paid =
      .ok paid' → paidIn paid'.1 dest = paidIn paid.1 dest +
        (seats.map fun seat =>
          if dests seat = dest then (entryShares dests).entitlement amount seat else 0).sum
  | [], paid, paid', h => by
    rw [List.foldlM_nil, pure_eq_ok] at h
    rw [h, List.map_nil, List.sum_nil, Nat.add_zero]
  | seat :: seats, paid, paid', h => by
    rw [List.foldlM_cons, bind_eq_ok] at h
    obtain ⟨paid₁, hstep, h⟩ := h
    have hhere := payShare_paid hstep dest
    have hrest := foldlM_payShare_paid dest seats paid₁ paid' h
    rw [List.map_cons, List.sum_cons]
    omega

/-- A distribution pays each destination the floor of its part of the entry. -/
theorem distributionOf_paid {ev : Event} {amount : ℕ} {payments : List Payment}
    (hinst : s.instances.lookup key = some inst)
    (h : distributionOf rt key s ev = some (amount, payments)) (i : Fin 4) :
    paidIn payments (inst.dests i) =
      (entryShares inst.dests).entitlement amount (canonical inst.dests i) := by
  unfold distributionOf at h
  split at h
  case h_2 => cases h
  case h_1 instKey entry escrow dests ctx =>
    rcases hrun : s.run rt ctx (.distribute instKey entry escrow dests) with err | ⟨out, t⟩
    · simp only [hrun] at h
      cases h
    · simp only [hrun] at h
      split_ifs at h with hkey
      subst hkey
      obtain ⟨e, he, hx⟩ := Option.map_eq_some_iff.1 h
      cases hx
      simp only [run, distribute, bind_eq_ok, require_eq_ok, entryAt_eq_ok, beq_iff_eq,
        decide_eq_true_eq, pure_eq_ok, Prod.mk.injEq,
        aggregateBpByDest_eq _ SCHEMA_01_BP (by decide)] at hrun
      obtain ⟨⟨i', e'⟩, ⟨hi', he', -⟩, -, -, _, -, -, -, -, rfl, _, hagg, ⟨paid, tokens⟩, hfold,
        rfl, -⟩ := hrun
      obtain rfl : inst = i' := Option.some.inj (hinst.symm.trans hi')
      obtain rfl : e = e' := Option.some.inj (he.symm.trans he')
      cases hagg
      have hpaid := foldlM_payShare_paid (inst.dests i) _ _ _ hfold
      rw [← Fin.sum_univ_def, ← Finset.sum_filter] at hpaid
      refine hpaid.trans ((Nat.zero_add _).trans ?_)
      have hslots : (Finset.univ.filter fun seat => inst.dests seat = inst.dests i) =
          Finset.univ.filter fun seat => canonical inst.dests seat = canonical inst.dests i :=
        Finset.filter_congr fun _ _ => (canonical_eq_iff inst.dests).symm
      rw [hslots]
      exact congrFun (Shares.grouped_entitlement _ (canonical_idem inst.dests) e.amount) _

/-- Over a run under a deployed instance, each entry is floored on its own. -/
theorem run_distributes (rt : Runtime) : ∀ (es : List Event) (s : Program),
    s.instances.lookup key = some inst → ∀ i,
    paidOver (fun payments => paidIn payments (inst.dests i))
        (marks (step rt) (distributionOf rt key) s es) =
      ((amountsOf (marks (step rt) (distributionOf rt key) s es)).map fun amount =>
        (entryShares inst.dests).entitlement amount (canonical inst.dests i)).sum
  | [], _, _, _ => rfl
  | ev :: es, s, hinst, i => by
    have hrest := run_distributes rt es _ (@step_instances rt s ev key inst hinst) i
    rw [marks]
    rcases h : distributionOf rt key s ev with _ | ⟨amount, payments⟩
    · exact hrest
    · have hhere := distributionOf_paid hinst h i
      simp only [paidOver, amountsOf, Option.toList_some, List.singleton_append, List.map_cons,
        List.sum_cons] at hrest ⊢
      rw [hhere, hrest]

end Kit.Program

/-! ## Both sides -/

theorem PurchaseInstance.new_divided (merchantKey : ByteArr 32) (strs : Fin 4 → String)
    (seed : ByteArr 32) :
    Divided (schemaMeed strs) 0 (.new merchantKey (schemaShares strs) seed) := by
  refine ⟨rfl, rfl, ?_⟩
  simp only [Nat.min_zero, Nat.zero_mul, Nat.zero_div]
  rfl

/-- Where both deliver the same amounts, the rail pays a destination the floor of its part of them
all, and the chain the floor of its part of each. -/
theorem deliveries_paid (suite : Suite) (rt : Kit.Runtime) (merchantKey seed : ByteArr 32)
    {strs : Fin 4 → String} {inst : Kit.Instance} (hpattern : SamePattern strs inst.dests)
    (xs : List (ℕ × PurchaseInstance.Op)) {tokens : Kit.Tokens} {key : Kit.Pubkey}
    {setup : List Kit.Program.Event} (es : List Kit.Program.Event)
    (hinst : (exec (Kit.Program.step rt) (.initial tokens) setup).instances.lookup key = some inst)
    (hsame : (amountsOf (marks (PurchaseInstance.step suite) (PurchaseInstance.deliveryOf suite)
        (.new merchantKey (schemaShares strs) seed) xs)).Perm
      (amountsOf (marks (Kit.Program.step rt) (Kit.Program.distributionOf rt key)
        (exec (Kit.Program.step rt) (.initial tokens) setup) es))) (i : Fin 4) :
    let rail := marks (PurchaseInstance.step suite) (PurchaseInstance.deliveryOf suite)
      (.new merchantKey (schemaShares strs) seed) xs
    let chain := marks (Kit.Program.step rt) (Kit.Program.distributionOf rt key)
      (exec (Kit.Program.step rt) (.initial tokens) setup) es
    let bp := ∑ j with inst.dests j = inst.dests i, Kit.SCHEMA_01_BP j
    let onRail := paidOver (fun out => paidOut out (strs i)) rail
    let onChain := paidOver (fun payments => Kit.Program.paidIn payments (inst.dests i)) chain
    onRail = min U128_MAX (amountsOf chain).sum * bp / Kit.SCHEMA_01_BP_TOTAL ∧
      onChain = ((amountsOf chain).map fun a => a * bp / Kit.SCHEMA_01_BP_TOTAL).sum ∧
      ((amountsOf chain).sum ≤ U128_MAX →
        onRail = onChain + ((amountsOf chain).map fun a =>
          a * bp % Kit.SCHEMA_01_BP_TOTAL).sum / Kit.SCHEMA_01_BP_TOTAL ∧
        (onRail = onChain ↔ ((amountsOf chain).map fun a =>
          a * bp % Kit.SCHEMA_01_BP_TOTAL).sum < Kit.SCHEMA_01_BP_TOTAL)) := by
  have hbp : ((schemaMeed strs).map MeedShare.bp).sum = Kit.SCHEMA_01_BP_TOTAL :=
    (schemaMeed_shares strs).2.2
  have hrail := PurchaseInstance.run_divides suite (by rw [hbp]; decide) xs _ _
    (PurchaseInstance.new_divided merchantKey strs seed) (strs i)
  have hchain := Kit.Program.run_distributes rt es _ hinst i
  generalize marks (PurchaseInstance.step suite) _ _ xs = rail at *
  generalize marks (Kit.Program.step rt) _ _ es = chain at *
  have hsum := hsame.sum_eq
  have hdue : ∀ total, PurchaseInstance.dueOn (schemaMeed strs) (strs i) total =
      min U128_MAX total * (∑ j with inst.dests j = inst.dests i, Kit.SCHEMA_01_BP j) /
        Kit.SCHEMA_01_BP_TOTAL := fun total => by
    rw [PurchaseInstance.dueOn, hbp, dueOf_schemaMeed hpattern, entitlement_canonical]
  simp only [hdue, hsum, Nat.min_zero, Nat.zero_mul, Nat.zero_div, Nat.add_zero, Nat.zero_add]
    at hrail
  simp only [entitlement_canonical] at hchain
  refine ⟨hrail, hchain, fun hle => ?_⟩
  have hparts := sum_mul_div (amountsOf chain)
    (∑ j with inst.dests j = inst.dests i, Kit.SCHEMA_01_BP j)
    (show 0 < Kit.SCHEMA_01_BP_TOTAL by decide)
  rw [Nat.min_eq_right hle, hparts, ← hchain] at hrail
  refine ⟨hrail, ?_⟩
  rw [hrail, Nat.add_eq_left, Nat.div_eq_zero_iff_lt (by decide)]

/-! Two entries of 1 under an instance of four destinations, attested and divided on both sides. -/

namespace Deliveries

open Kit Kit.Program

def merchantKey : ByteArr 32 := .ofNat 32 11
def mint : Pubkey := .ofNat 32 6
def dest (i : Fin 4) : Pubkey := .ofNat 32 (i + 2)
def funder : Pubkey := .ofNat 32 21
def funderToken : Pubkey := .ofNat 32 20

def canonicalBytes : Bytes :=
  0x00 :: 0x20 :: (merchantKey.toList ++ (dest 0).toList ++ (dest 1).toList ++ (dest 2).toList ++
    (dest 3).toList ++ mint.toList)

/-- An address of its own for what is named so. -/
def address (tag : UInt8) (name : ByteArr 32) : Pubkey := .ofNat 32 (digest (tag :: name.toList))

def runtime : Runtime where
  crypto := keyedSuite.toCrypto
  addr :=
    { instanceOf := address 1, entryOf := address 2, escrowOf := address 3, splitOf := address 4
      associatedTokenAccount := fun owner mint => address 5 (.ofNat 32 (digest (keyed owner
        mint.toList))) }
  ed25519Program := .ofNat 32 22

def seed : ByteArr 32 := seedInstance runtime canonicalBytes
def instKey : Pubkey := address 1 seed

def inst : Instance where
  seedInstance := seed
  merchantKey
  dests := ![dest 0, dest 1, dest 2, dest 3]
  mint

def account (owner : Pubkey) (amount : ℕ) : TokenAccount := { mint, owner, amount, frozen := false }

def tokens : Tokens :=
  (List.ofFn dest).foldl (fun tokens key => tokens.insert key (account (.ofNat 32 30) 0))
    (Finmap.singleton funderToken (account funder 10))

def terms (n : ℕ) : EntryTerms where
  nonce := .ofNat 32 n
  amount := 1
  tOpen := 60
  tLapse := 100
  contest := 20

def entryId (n : ℕ) : ByteArr 32 := deriveEntryId keyedSuite.toCrypto seed (terms n)

/-- Signed by the funder and the merchant. -/
def context (now : ℕ) : Context where
  now
  signers := {funder, merchantKey}
  listed := []

def setup : List Event := [.instruction (.deployInstance seed canonicalBytes) (context 40)]

def onChain (n : ℕ) : List Event :=
  [.instruction (.fundEntry instKey (entryId n) (terms n) funderToken mint funderToken funder)
      (context 50),
    .instruction (.attest instKey (address 2 (entryId n)) merchantKey) (context 70),
    .instruction (.distribute instKey (address 2 (entryId n)) (address 3 (entryId n))
      ![dest 0, dest 1, dest 2, dest 3]) (context 80)]

def onRail (n : ℕ) : List (ℕ × PurchaseInstance.Op) :=
  [(50, .fundEntry (terms n) "payer"),
    (70, .attest (entryId n)
      (.create keyedSuite .attestation (terms n).nonce (entryId n) merchantKey))]

def strs : Fin 4 → String := !["a", "b", "c", "d"]

/-- What the rail pays a destination over some operations, and the chain over some instructions. -/
def railPaid (xs : List (ℕ × PurchaseInstance.Op)) (i : Fin 4) : ℕ :=
  paidOver (fun out => paidOut out (strs i)) (marks (PurchaseInstance.step keyedSuite)
    (PurchaseInstance.deliveryOf keyedSuite) (.new merchantKey (schemaShares strs) seed) xs)

def chainPaid (es : List Event) (i : Fin 4) : ℕ :=
  paidOver (fun payments => paidIn payments (inst.dests i)) (marks (Program.step runtime)
    (distributionOf runtime instKey) (exec (Program.step runtime) (.initial tokens) setup) es)

theorem strs_pattern : SamePattern strs inst.dests := by
  unfold SamePattern
  decide +kernel

theorem deployed_inst : (exec (Program.step runtime) (.initial tokens) setup).instances.lookup
    instKey = some inst := by
  decide +kernel

theorem deliveries_paid_single :
    railPaid (onRail 7) 0 = chainPaid (onChain 7) 0 := by
  have h := deliveries_paid keyedSuite runtime merchantKey seed strs_pattern (onRail 7) (onChain 7)
    deployed_inst (by decide +kernel) 0
  exact (h.2.2 (by decide +kernel)).2.2 (by decide +kernel)

/-- Two entries of 1: the rail pays the first role's destination 1, and the chain nothing. -/
theorem deliveries_disagree : ¬ ∀ (suite : Suite) (rt : Runtime) (merchantKey seed : ByteArr 32)
    (strs : Fin 4 → String) (inst : Instance) (xs : List (ℕ × PurchaseInstance.Op))
    (tokens : Tokens) (key : Pubkey) (setup es : List Event),
    SamePattern strs inst.dests →
    (exec (Program.step rt) (.initial tokens) setup).instances.lookup key = some inst →
    (amountsOf (marks (PurchaseInstance.step suite) (PurchaseInstance.deliveryOf suite)
        (.new merchantKey (schemaShares strs) seed) xs)).Perm
      (amountsOf (marks (Program.step rt) (distributionOf rt key)
        (exec (Program.step rt) (.initial tokens) setup) es)) →
    (∀ a ∈ amountsOf (marks (Program.step rt) (distributionOf rt key)
      (exec (Program.step rt) (.initial tokens) setup) es), a ≤ U64_MAX) →
    ∀ i, paidOver (fun out => paidOut out (strs i)) (marks (PurchaseInstance.step suite)
        (PurchaseInstance.deliveryOf suite) (.new merchantKey (schemaShares strs) seed) xs) =
      paidOver (fun payments => paidIn payments (inst.dests i)) (marks (Program.step rt)
        (distributionOf rt key) (exec (Program.step rt) (.initial tokens) setup) es) := by
  intro h
  have heq := h keyedSuite runtime merchantKey seed strs inst (onRail 7 ++ onRail 8) tokens instKey
    setup (onChain 7 ++ onChain 8) strs_pattern deployed_inst (by decide +kernel)
    (by decide +kernel) 0
  have hne : railPaid (onRail 7 ++ onRail 8) 0 ≠ chainPaid (onChain 7 ++ onChain 8) 0 := by
    decide +kernel
  exact hne heq

end Deliveries

end Paytp
