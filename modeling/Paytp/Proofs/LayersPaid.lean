import Paytp.Client
import Paytp.Proofs.RolesPaid
import Paytp.Proofs.SameOffer

/-!
# A purchase that a layer drives pays the layer

An interaction layer has a wallet pay a quote. Each of the two holds the vector to its own
destination before it lets the quote pass, so that the redemption of the payment pays both of them.
-/

namespace Paytp

/-- Each party's own share goes where it expects. -/
theorem validatePayerSideDestinations_checked {suite : Suite} {vector : List VectorEntry}
    {il wallet : ExpectedDest} (h : validatePayerSideDestinations suite vector il wallet = true)
    {e : VectorEntry} (he : e ∈ vector) :
    (e.role = ROLE_INTERACTION_LAYER → il.check suite e.dest = true) ∧
      (e.role = ROLE_WALLET → wallet.check suite e.dest = true) := by
  unfold validatePayerSideDestinations at h
  simp only [Bool.and_eq_true, List.all_eq_true] at h
  have hdest := h.1.1 e he
  refine ⟨fun hil => ?_, fun hwallet => ?_⟩
  · rwa [if_pos hil] at hdest
  · have hne : e.role ≠ ROLE_INTERACTION_LAYER := by
      rw [hwallet]
      decide
    rwa [if_neg hne, if_pos hwallet] at hdest

/-- Of a total, a role's destination is due at least the floor of the role's points. -/
theorem AddressInputs.role_floor {inputs : AddressInputs}
    (hroles : inputs.vector.map (fun e => (e.role, e.bp)) = SCHEMA_01_ROLES) {role : UInt8}
    {bp : UInt16} (hrole : (role, bp) ∈ SCHEMA_01_ROLES) {dest : String}
    (hdest : ∀ e ∈ inputs.vector, e.role = role → e.dest = dest) (total : ℕ) :
    total * bp.toNat / 10000 ≤ inputs.due total dest := by
  rw [← hroles] at hrole
  obtain ⟨e, he, heq⟩ := List.mem_map.1 hrole
  obtain ⟨hits, rfl⟩ := Prod.mk.inj heq
  rw [← hdest e he hits]
  exact AddressInputs.le_due he total

namespace Wallet

variable {codec : TextCodec} {suite : Suite} {idna : Host.Idna} {w : Wallet}

/-- The key of an origin is the candidate that was authenticated. -/
theorem acceptOrigin_key {validateNormalizedHost : String → Bool} {merchantKey : ByteArr 32}
    {artifactBytes : Bytes} {connCertHash : ByteArr 32} {connHost : String} {now : ℕ}
    {binding : AcceptedBinding} (h : acceptOrigin suite validateNormalizedHost merchantKey
      artifactBytes connCertHash connHost now = .ok binding) :
    binding.merchantKey = merchantKey := by
  unfold acceptOrigin BindingArtifact.accept at h
  simp only [bind_eq_ok, mapError_eq_ok, okOr_eq_ok, pure_eq_ok] at h
  obtain ⟨artifact, -, sig, -, fields, -, -, -, -, -, -, -, -, -, rfl⟩ := h
  rfl

/-- A wallet that pays holds the vector to its own destination. -/
theorem payBaseline_defends {rail : EntryRail} {quoteJson resource : String}
    {accept : PaymentRequirements} {binding : AcceptedBinding} {settleId : ByteArr 32}
    {payment : BaselinePayment}
    (h : w.payBaseline codec suite idna rail quoteJson accept binding resource settleId =
      .ok payment) :
    ∃ q, Quote.parseVerify codec suite quoteJson binding.merchantKey = some q ∧
      validatePayerSideDestinations (suite.under w.registry) q.vector .unchecked
        w.walletMeedExpectation = true := by
  unfold payBaseline at h
  simp only [bind_eq_ok, require_eq_ok] at h
  obtain ⟨q, hq, -, -, -, hpayer, -⟩ := h
  exact ⟨q, (openQuote_ok hq).1, hpayer⟩

/-- What a wallet expects: its own destination, or the fund if it has none. -/
theorem walletMeedExpectation_checked {dest : String}
    (h : w.walletMeedExpectation.check suite dest = true) :
    dest = w.meedDest.getD suite.devFundDest := by
  unfold walletMeedExpectation at h
  rcases hdest : w.meedDest with _ | own <;> rw [hdest] at h
  · exact beq_iff_eq.1 h
  · exact beq_iff_eq.1 h

end Wallet

/-- What a client lets pass, whatever the wallet is. -/
theorem Client.payBaseline_ok {codec : TextCodec} {suite : Suite} {idna : Host.Idna}
    {client : Client} {ε : Type} {wallet : PayerWallet ε} {rail : EntryRail}
    {quoteJson resource : String} {accept : PaymentRequirements} {origin : OriginContext}
    {payment : BaselinePayment}
    (h : client.payBaseline codec suite idna wallet rail quoteJson accept origin resource =
      .ok payment) :
    ∃ binding q, wallet.acceptOrigin origin = .ok binding ∧
      Quote.parseVerify codec suite quoteJson binding.merchantKey = some q ∧
      q.resource = resource ∧
      validatePayerSideDestinations suite q.vector (.asserted client.il.ilDest) .unchecked = true ∧
      wallet.payBaselineQuote rail quoteJson accept binding resource = .ok payment := by
  unfold payBaseline at h
  simp only [bind_eq_ok, mapError_eq_ok, okOr_eq_ok, require_eq_ok, beq_iff_eq] at h
  obtain ⟨binding, hbinding, -, -, q, hq, -, hresource, -, hil, hpay⟩ := h
  exact ⟨binding, q, hbinding, hq, hresource, hil, hpay⟩

/-- A payment to a split pays a destination what the inputs of the split give it more, which is of
all that the split received the floor of some points at least. -/
structure PaysShare (inputs : AddressInputs) (received amount points : ℕ) (dest : String)
    (rail after : VirtualRail) : Prop where
  floor : (received + amount) * points / 10000 ≤ inputs.due (received + amount) dest
  credited : after.balance dest = rail.balance dest +
    (inputs.due (received + amount) dest - inputs.due received dest)

namespace Client

variable {codec : TextCodec} {suite : Suite} {idna : Host.Idna} {m : Merchant}

/-- A payment that a layer has a wallet make is of the terms that the merchant judges by, if it is
for the first baseline offer of the quote. Wherever it is redeemed while the split is of no other
inputs, it pays the layer its 50 points and the wallet's destination its 30 points, or the fund for
a wallet without one. -/
theorem driven_purchase_pays_layers {client : Client} {w : Wallet} {view : EntryRail}
    {quoteJson resource : String} {accept : PaymentRequirements} {origin : OriginContext}
    {settleId : ByteArr 32} {payment : BaselinePayment}
    (hpay : client.payBaseline codec suite idna (w.payer codec suite idna settleId) view quoteJson
      accept origin resource = .ok payment)
    (hkey : origin.candidateMerchantKey = m.key) (hregistry : w.registry = suite.toRegistry)
    (hfirst : ∀ q, Quote.parseVerify codec suite quoteJson m.key = some q →
      (q.offers.find? fun o => o.twoLeg.isNone) = Wallet.mirroredBaseline q.offers accept) :
    ∃ t, m.baselineTerms codec suite quoteJson resource = .ok t ∧
      t.paidBy payment.transfer = true ∧ payment.settleId = settleId ∧
      ∀ finalityDelay ops rail split paymentRef after, (∀ op ∈ ops, HostedRail.Op.Typed op) →
        rail = (exec (HostedRail.step suite) (.new finalityDelay) ops).rail →
        (∀ seed inputs, .deploySplit seed inputs ∈ ops → inputs.seedSplit suite = some seed →
          VirtualRail.deriveAddress seed = t.payTo → inputs.Same (m.splitInputs t)) →
        rail.splits.lookup t.payTo = some split → rail.settleIds.lookup settleId = none →
        rail.settle payment.transfer settleId = (.ok paymentRef, after) →
        (∀ now io wal, (m.redeemBaseline codec suite quoteJson resource payment.transfer settleId
          now io rail wal).2.1 = after) ∧
        PaysShare (m.splitInputs t) split.vReceived payment.transfer.amount 50 client.il.ilDest
          rail after ∧
        PaysShare (m.splitInputs t) split.vReceived payment.transfer.amount 30
          (w.meedDest.getD suite.devFundDest) rail after := by
  obtain ⟨binding, q, hbinding, hq, -, hil, hwallet⟩ := payBaseline_ok hpay
  have hmerchant : binding.merchantKey = m.key :=
    (Wallet.acceptOrigin_key (show Wallet.acceptOrigin suite _ origin.candidateMerchantKey
      origin.artifactBytes origin.connCertHash origin.connHost origin.time = .ok binding from
        hbinding)).trans hkey
  have hpaid : w.payBaseline codec suite idna view quoteJson accept binding resource settleId =
      .ok payment := hwallet
  obtain ⟨hid, q', offer, seed, hauth⟩ := Wallet.payBaseline_ok hpaid
  obtain ⟨q'', hq'', hown⟩ := Wallet.payBaseline_defends hpaid
  rw [hmerchant] at hq hauth hq''
  obtain rfl : q = q' := Option.some.inj (hq.symm.trans hauth.quote)
  obtain rfl : q = q'' := Option.some.inj (hq.symm.trans hq'')
  obtain ⟨t, hterms, rfl, rfl, htransfer⟩ :=
    hauth.terms hregistry ((hfirst q hq).trans hauth.mirrored)
  obtain ⟨-, hgoverned, -⟩ := Merchant.baselineTerms_eq_ok.1 hterms
  obtain ⟨hroles, -⟩ := Quote.governed_roles hgoverned
  have hpays : t.paidBy payment.transfer = true := by
    rw [htransfer]
    simp [Merchant.BaselineTerms.paidBy]
  have hdest : payment.transfer.dest = t.payTo := by rw [htransfer]
  refine ⟨t, hterms, hpays, hid, ?_⟩
  intro finalityDelay ops rail split paymentRef after htyped hrail hfree hsplit hnew hsettle
  have hcredited := fun dest => HostedRail.settlement_pays htyped hrail
    (by rw [hdest]; exact hfree) (by rw [hdest]; exact hsplit) hnew hsettle dest
  refine ⟨fun now io wal => Merchant.redeemBaseline_settles hterms hpays hsettle, ⟨?_, hcredited _⟩,
    ⟨?_, hcredited _⟩⟩
  · exact @AddressInputs.role_floor (m.splitInputs t) hroles ROLE_INTERACTION_LAYER 50 (by decide)
      client.il.ilDest (fun e he hrole =>
        beq_iff_eq.1 ((validatePayerSideDestinations_checked hil he).1 hrole)) _
  · rw [hregistry, suite.under_self] at hown
    exact @AddressInputs.role_floor (m.splitInputs t) hroles ROLE_WALLET 30 (by decide)
      (w.meedDest.getD suite.devFundDest) (fun e he hrole => Wallet.walletMeedExpectation_checked
        ((validatePayerSideDestinations_checked hown he).2 hrole)) _

end Client

namespace Shop

/-- Is it a host that is normalized already? -/
def normal (host : String) : Bool := (Host.validateNormalizedHost asciiIdna host).isOk

/-- What the shop says of its connection, not signed yet. -/
def unsignedArtifact : BindingArtifact where
  host := "shop.example"
  certHash := .ofNat 32 6
  encKey := .ofNat 32 5
  notBefore := 0
  notAfter := 5000
  sig := none

def artifact : BindingArtifact :=
  (unsignedArtifact.sign keyedSuite normal merchant.signingKey).getD unsignedArtifact

def connection : OriginContext where
  candidateMerchantKey := merchant.key
  artifactBytes := (artifact.encode keyedSuite normal).getD []
  connCertHash := .ofNat 32 6
  connHost := "shop.example"
  time := 1000

/-- The layer that the quote's vector names. -/
def layerClient : Client := ⟨{ ilDest := "layer", platformOs := none }⟩

theorem quote_driven : layerClient.payBaseline (readerOf quote) keyedSuite asciiIdna
    (purse.payer (readerOf quote) keyedSuite asciiIdna (.ofNat 32 1)) newRail (textOf quote)
    entryReqs connection "https://shop.example/song" = .ok ⟨transfer, .ofNat 32 1⟩ := by
  have horigin : (purse.payer (readerOf quote) keyedSuite asciiIdna (.ofNat 32 1)).acceptOrigin
      connection = .ok origin := by
    show Wallet.acceptOrigin keyedSuite normal merchant.key _ _ _ _ = _
    unfold Wallet.acceptOrigin BindingArtifact.accept
    simp only [bind_eq_ok, mapError_eq_ok, okOr_eq_ok, require_eq_ok, pure_eq_ok]
    exact ⟨artifact, by decide +kernel, artifact.sig.getD (.replicate 64 0), by decide +kernel,
      (artifact.contentFields keyedSuite normal).getD [], by decide +kernel, ⟨⟩, by decide +kernel,
      ⟨⟩, by decide +kernel, ⟨⟩, by decide +kernel, ⟨⟩, by decide +kernel, rfl⟩
  have hhost : Client.requireBindingHostMatchesResource asciiIdna origin
      "https://shop.example/song" = (.ok () : Except (ClientError WalletError) Unit) := by
    unfold Client.requireBindingHostMatchesResource
    rw [host_matches]
    rfl
  unfold Client.payBaseline
  simp only [bind_eq_ok, mapError_eq_ok, okOr_eq_ok, require_eq_ok, beq_iff_eq]
  exact ⟨origin, horigin, ⟨⟩, hhost, quote, quote_reads, ⟨⟩, rfl, ⟨⟩, by decide +kernel, quote_paid⟩

/-- The purchase that the layer drives pays its share. -/
theorem driven_purchase_pays_layers_shop : ∃ t rail after,
    merchant.baselineTerms (readerOf quote) keyedSuite (textOf quote) "https://shop.example/song" =
      .ok t ∧
    rail = (exec (HostedRail.step keyedSuite) (.new 0) splitThere).rail ∧
    PaysShare (merchant.splitInputs t) 0 100 50 "layer" rail after := by
  obtain ⟨t, hterms, -, -, hpaid⟩ := Client.driven_purchase_pays_layers quote_driven
    (rfl : connection.candidateMerchantKey = merchant.key) rfl (fun q hq => by
      obtain rfl := Option.some.inj (hq.symm.trans quote_reads)
      exact (Wallet.mirroredBaseline_singleton rfl (by decide +kernel)).symm)
  obtain rfl : t = terms := Except.ok.inj (hterms.symm.trans quote_terms)
  generalize hrail : (exec (HostedRail.step keyedSuite) (.new 0) splitThere).rail = rail
  obtain ⟨hsplit, hnew, paymentRef, after, hsettle⟩ := splitThere_settles hrail.symm
  obtain ⟨-, hlayer, -⟩ := hpaid 0 splitThere rail _ paymentRef after splitThere_typed hrail.symm
    splitThere_free hsplit hnew hsettle
  exact ⟨terms, rail, after, hterms, rfl, hlayer⟩

end Shop

end Paytp
