import Paytp.Proofs.Retries
import Paytp.Proofs.SplitRuns

/-!
# What a purchase pays its roles

A baseline quote asks the split to be paid whose address its vector derives. While nobody deploys
other inputs at this address, a redemption that settles a payment pays the roles of the vector what
their points give them, whatever it answers.
-/

namespace Paytp

namespace AddressInputs

/-- The order of the vector does not matter. -/
theorem Same.due {inputs inputs' : AddressInputs} (h : inputs.Same inputs') (total : ℕ)
    (dest : String) : inputs.due total dest = inputs'.due total dest := by
  unfold AddressInputs.due pointsOf
  rw [h.merchantNet, ((h.vector.map _).map _).sum_eq, (h.vector.map fun e => e.bp.toNat).sum_eq]

/-- A destination gets at least the floor of the points of each of its entries. -/
theorem le_due {inputs : AddressInputs} {e : VectorEntry} (he : e ∈ inputs.vector) (total : ℕ) :
    total * e.bp.toNat / 10000 ≤ inputs.due total e.dest := by
  have hpoints : e.bp.toNat ≤
      pointsOf (inputs.vector.map fun e => ⟨e.dest, e.bp.toNat⟩) e.dest := by
    unfold pointsOf
    rw [List.map_map]
    refine List.single_le_sum (fun _ _ => Nat.zero_le _) _ (List.mem_map.2 ⟨e, he, ?_⟩)
    simp
  exact (Nat.div_le_div_right (Nat.mul_le_mul_left total hpoints)).trans (Nat.le_add_right _ _)

/-- The merchant gets at least the floor of what the points of the vector leave. -/
theorem le_due_net {inputs : AddressInputs} {net : String} (h : inputs.merchantNet = some net)
    {points : ℕ} (hpoints : (inputs.vector.map fun e => e.bp.toNat).sum = points) (total : ℕ) :
    total * (10000 - points) / 10000 ≤ inputs.due total net := by
  unfold due
  rw [if_pos h, hpoints]
  exact Nat.le_add_left _ _

end AddressInputs

/-- A vector that the governance allows has the points of the schema, and pins what it governs. -/
theorem Quote.governed_roles {q : Quote} {suite : Suite}
    (h : q.validateVectorGoverned suite = true) :
    q.vector.map (fun e => (e.role, e.bp)) = SCHEMA_01_ROLES ∧ ∀ e ∈ q.vector,
      (e.role = ROLE_OS → suite.osDestinationAccepted q.registry e.dest = true) ∧
        (e.role = ROLE_DEV_FUND → e.dest = suite.devFundDest) := by
  unfold Quote.validateVectorGoverned validateShapeSchema01 validateGovernedDestinations at h
  simp only [Bool.and_eq_true, beq_iff_eq, List.all_eq_true] at h
  obtain ⟨⟨⟨-, hroles⟩, -⟩, -, hdests⟩ := h
  refine ⟨hroles, fun e he => ⟨fun hos => ?_, fun hdev => ?_⟩⟩
  · have hdest := hdests e he
    rwa [if_pos hos] at hdest
  · have hdest := hdests e he
    have hne : e.role ≠ ROLE_OS := by
      rw [hdev]
      decide
    rw [if_neg hne, if_pos hdev] at hdest
    exact beq_iff_eq.1 hdest

/-- What the split that the terms ask to be paid is derived from. -/
def Merchant.splitInputs (m : Merchant) (t : BaselineTerms) : AddressInputs :=
  t.quote.addressInputs m.key t.asset t.offer.merchantNet

namespace HostedRail

variable {codec : TextCodec} {suite : Suite} {m : Merchant}

/-- What is settled to a split of some inputs pays every destination what they give it more. -/
theorem settlement_pays {finalityDelay : ℕ} {ops : List Op} (htyped : ∀ op ∈ ops, op.Typed)
    {rail after : VirtualRail} (hrail : rail = (exec (step suite) (new finalityDelay) ops).rail)
    {transfer : Transfer} {inputs : AddressInputs}
    (hfree : ∀ seed inputs', .deploySplit seed inputs' ∈ ops →
      inputs'.seedSplit suite = some seed →
      VirtualRail.deriveAddress seed = transfer.dest → inputs'.Same inputs)
    {split : SplitState} (hsplit : rail.splits.lookup transfer.dest = some split)
    {settleId : ByteArr 32} (hnew : rail.settleIds.lookup settleId = none)
    {paymentRef : String} (hsettle : rail.settle transfer settleId = (.ok paymentRef, after))
    (dest : String) :
    after.balance dest = rail.balance dest +
      (inputs.due (split.vReceived + transfer.amount) dest - inputs.due split.vReceived dest) := by
  subst hrail
  have hsound := split_sound htyped hsplit
  obtain ⟨-, seed, inputs', hop, hseed, haddr, net, hnet, hrec⟩ := split_deployed hsplit
  have hsame := hfree seed inputs' hop hseed haddr
  rw [← hsame.due, ← hsame.due, ← AddressInputs.due_eq hnet hrec, ← AddressInputs.due_eq hnet hrec]
  exact VirtualRail.settle_pays _ dest hsound hsplit hnew hsettle

/-- Over any run of the rail: a redemption that settles a payment of its quote pays every
destination what the vector of the quote gives it more, whatever the call answers, while the split
that is paid is of no other inputs. The roles are those of the schema with their points, the
governed ones at the destinations that are pinned or listed. Of all that the split received each
role's destination has at least its own floor, and the merchant the floor of the other 99 parts of a
hundred. -/
theorem redemption_pays_roles {finalityDelay : ℕ} {ops : List Op} (htyped : ∀ op ∈ ops, op.Typed)
    {rail after : VirtualRail} (hrail : rail = (exec (step suite) (new finalityDelay) ops).rail)
    {json resource : String} {t : Merchant.BaselineTerms}
    (hterms : m.baselineTerms codec suite json resource = .ok t)
    (hfree : ∀ seed inputs, .deploySplit seed inputs ∈ ops → inputs.seedSplit suite = some seed →
      VirtualRail.deriveAddress seed = t.payTo → inputs.Same (m.splitInputs t))
    {split : SplitState} (hsplit : rail.splits.lookup t.payTo = some split)
    {transfer : Transfer} (hpays : t.paidBy transfer = true)
    {settleId : ByteArr 32} (hnew : rail.settleIds.lookup settleId = none)
    {paymentRef : String} (hsettle : rail.settle transfer settleId = (.ok paymentRef, after)) :
    (∀ now io wal, (m.redeemBaseline codec suite json resource transfer settleId now io rail
      wal).2.1 = after) ∧
    (∀ dest, after.balance dest = rail.balance dest +
      ((m.splitInputs t).due (split.vReceived + transfer.amount) dest -
        (m.splitInputs t).due split.vReceived dest)) ∧
    t.quote.vector.map (fun e => (e.role, e.bp)) = SCHEMA_01_ROLES ∧
    (∀ e ∈ t.quote.vector,
      (e.role = ROLE_OS → suite.osDestinationAccepted t.quote.registry e.dest = true) ∧
      (e.role = ROLE_DEV_FUND → e.dest = suite.devFundDest) ∧
      ∀ total, total * e.bp.toNat / 10000 ≤ (m.splitInputs t).due total e.dest) ∧
    ∀ net total, t.offer.merchantNet = some net →
      total * 9900 / 10000 ≤ (m.splitInputs t).due total net := by
  obtain ⟨-, hgoverned, -⟩ := Merchant.baselineTerms_eq_ok.1 hterms
  obtain ⟨hroles, hdests⟩ := Quote.governed_roles hgoverned
  have hdest : transfer.dest = t.payTo := by
    unfold Merchant.BaselineTerms.paidBy at hpays
    simp only [Bool.not_eq_true', Bool.or_eq_false_iff, bne_eq_false_iff_eq] at hpays
    exact hpays.1.1
  refine ⟨fun now io wal => Merchant.redeemBaseline_settles hterms hpays hsettle, fun dest => ?_,
    hroles, fun e he => ⟨(hdests e he).1, (hdests e he).2, fun total => ?_⟩,
    fun net' total hnet' => ?_⟩
  · exact settlement_pays htyped hrail (by rw [hdest]; exact hfree) (by rw [hdest]; exact hsplit)
      hnew hsettle dest
  · exact @AddressInputs.le_due (m.splitInputs t) e he total
  · have hpoints : (t.quote.vector.map fun e => e.bp.toNat).sum = 100 := by
      have hbp := congrArg (List.map fun r => r.2.toNat) hroles
      rw [List.map_map] at hbp
      exact (congrArg List.sum hbp).trans (by decide)
    exact @AddressInputs.le_due_net (m.splitInputs t) net' hnet' 100 hpoints total

end HostedRail

namespace Shop

/-- The split of the quote is deployed. -/
def splitThere : List HostedRail.Op :=
  [.deploySplit (((merchant.splitInputs terms).seedSplit keyedSuite).getD (.replicate 32 0))
    (merchant.splitInputs terms)]

theorem splitThere_typed : ∀ op ∈ splitThere, HostedRail.Op.Typed op := by
  intro op hop
  rw [List.mem_singleton.1 hop]
  trivial

theorem splitThere_free : ∀ seed inputs, HostedRail.Op.deploySplit seed inputs ∈ splitThere →
    inputs.seedSplit keyedSuite = some seed → VirtualRail.deriveAddress seed = terms.payTo →
    inputs.Same (merchant.splitInputs terms) := by
  intro seed inputs hop _ _
  obtain ⟨-, rfl⟩ := HostedRail.Op.deploySplit.inj (List.mem_singleton.1 hop)
  exact ⟨rfl, rfl, rfl, .refl _, rfl, rfl⟩

/-- The payment of the quote settles at its split. -/
theorem splitThere_settles {rail : VirtualRail}
    (hrail : rail = (exec (HostedRail.step keyedSuite) (.new 0) splitThere).rail) :
    rail.splits.lookup splitAddress = some
        { recipients := [("layer", 50), ("os", 10), ("dev", 40), (merchant.payout, 9900)]
          vReceived := 0, paid := [0, 0, 0, 0] } ∧
      rail.settleIds.lookup (.ofNat 32 1) = none ∧
      ∃ paymentRef after, rail.settle transfer (.ofNat 32 1) = (.ok paymentRef, after) := by
  rw [hrail]
  refine ⟨by decide +kernel, by decide +kernel, ?_⟩
  have hok : ((exec (HostedRail.step keyedSuite) (.new 0) splitThere).rail.settle transfer
      (.ofNat 32 1)).1.isOk = true := by decide +kernel
  rcases hsettle : (exec (HostedRail.step keyedSuite) (.new 0) splitThere).rail.settle transfer
    (.ofNat 32 1) with ⟨e | paymentRef, after⟩
  · rw [hsettle] at hok
    cases hok
  · exact ⟨paymentRef, after, rfl⟩

/-- Of a payment of 100 the merchant has 99. -/
theorem redemption_pays_roles_shop : ∃ rail after : VirtualRail,
    rail = (exec (HostedRail.step keyedSuite) (.new 0) splitThere).rail ∧
    (merchant.redeemBaseline (readerOf quote) keyedSuite (textOf quote) "https://shop.example/song"
      transfer (.ofNat 32 1) 1000 .good rail emptyWal).2.1 = after ∧
    after.balance merchant.payout = rail.balance merchant.payout + 99 := by
  generalize hrail : (exec (HostedRail.step keyedSuite) (.new 0) splitThere).rail = rail
  obtain ⟨hsplit, hnew, paymentRef, after, hsettle⟩ := splitThere_settles hrail.symm
  obtain ⟨hafter, hpaid, -⟩ := HostedRail.redemption_pays_roles splitThere_typed hrail.symm
    quote_terms splitThere_free hsplit (rfl : terms.paidBy transfer = true) hnew hsettle
  have hdue : (merchant.splitInputs terms).due (0 + transfer.amount) merchant.payout -
      (merchant.splitInputs terms).due 0 merchant.payout = 99 := by decide +kernel
  have hpaid := hpaid merchant.payout
  rw [hdue] at hpaid
  exact ⟨rail, after, rfl, hafter _ _ _, hpaid⟩

end Shop

end Paytp
