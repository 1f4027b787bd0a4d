import Paytp.Carriage
import Paytp.Signing
import Paytp.Wallet.Channel

/-!
# A payer and a merchant

A payer's signed messages to a merchant who keeps a store and runs on the virtual rail, on one
set of terms. Events are named by the call they make; their store does not fail unless said so.
-/

namespace Paytp

namespace Sample

def payerSk : ByteArr 32 := .ofNat 32 7
def merchantSk : ByteArr 32 := .ofNat 32 11
def secret : ByteArr 32 := .ofNat 32 13

def env : Env VirtualRail := { suite := keyedSuite, adapter := VirtualRail.adapter }

def driver : ChannelDriver := .new keyedSuite merchantSk merchantSk "merchant"

/-- The merchant's carriage on a new store and a rail where transfers are final at once. -/
def start : Carriage VirtualRail :=
  (Carriage.proof driver (.new 0) []).get rfl

theorem start_built : Carriage.Built env start := .proof (Option.some_get _).symm

/-- The names of channels. -/
def cid (n : ℕ) : ByteArr 8 := .ofNat 8 n

/-- The terms of a prepay channel. -/
def terms (channelId : ByteArr 8) (predecessor : Option (ByteArr 8 × ByteArr 32))
    (timestamp : ℕ) : ChannelAuth where
  payerKey := payerSk
  channelId
  merchantKey := merchantSk
  denom := "usd"
  mode := MODE_PREPAY
  limitL := 1000000
  limitE := 1000
  thValue := 0
  thTime := 0
  refundPtr := some "payer"
  baselineNet := "net"
  rateSource := none
  rateDev := none
  schema := SCHEMA_V0_1
  vector := [⟨ROLE_INTERACTION_LAYER, 50, "layer"⟩, ⟨ROLE_OS, 10, "os"⟩,
    ⟨ROLE_WALLET, 30, "wallet"⟩, ⟨ROLE_DEV_FUND, 10, "dev"⟩]
  registryV := 1
  hs := keyedSuite.hCommit secret
  predecessor
  timestamp
  baselineAsset := "usd"
  contract := 1
  finMeed := "final"
  finDenom := "final"
  sig := none

/-- The OPEN the payer sends on some terms. -/
def openOn (auth : ChannelAuth) : ChannelOpen :=
  let auth := (auth.sign keyedSuite payerSk).getD auth
  { auth, sealed := keyedSeal merchantSk secret ((auth.canonicalContent keyedSuite).getD []) }

def closeOf (channelId : ByteArr 8) (ckptRef : ByteArr 32) (chainIntent : Bool) : Close :=
  Close.sign keyedSuite { channelId, ckptRef, chainIntent, sig := none } payerSk

def fundingOf (auth : ChannelAuth) (txRef : String) (amount : ℕ) : FundingProof :=
  let fp : FundingProof :=
    { channelId := auth.channelId
      authHash := (auth.authHash keyedSuite).getD (.replicate 32 0)
      rail := "virtual"
      txRef
      amount
      sig := none }
  (fp.sign keyedSuite payerSk).getD fp

/-- The payer pays the merchant for a channel. -/
def pay (auth : ChannelAuth) (amount : ℕ) (rail : VirtualRail) : VirtualRail :=
  (rail.submit { dest := "merchant", asset := "usd", amount
                 memo := auth.authHash keyedSuite }).2

/-! ## A channel on credit -/

/-- The terms of a postpay channel. -/
def creditTerms (channelId : ByteArr 8) : ChannelAuth :=
  { terms channelId none 1000 with mode := MODE_POSTPAY, refundPtr := none }

theorem one_le_seqMax : 1 ≤ SEQ_MAX := by decide
theorem two_le_seqMax : 2 ≤ SEQ_MAX := by decide
theorem thousand_micro : 1000 < 2 ^ 48 := by decide

def sliceOf (auth : ChannelAuth) (seq amtMicro : ℕ) (hseq : seq ≤ SEQ_MAX)
    (hamt : amtMicro < 2 ^ 48) : Slice :=
  .sealWith keyedSuite.toCrypto (ChannelDriver.deriveKey keyedSuite auth secret) seq amtMicro
    hseq hamt

/-- The payer's request after funding a fresh channel and slices, metered as the merchant does. -/
def checkpointOf (auth : ChannelAuth) (credited : ℕ) (slices : List Slice) : CheckpointRequest :=
  let opened : ChannelState := .new keyedSuite.toCrypto auth.channelId
    (ChannelDriver.deriveKey keyedSuite auth secret) (modeOf auth.mode) auth.limitL
    auth.limitE SCHEMA_01_ROLES
  let metered := ((opened.creditFunding credited).acceptEach keyedSuite.toCrypto slices).2
  .sign keyedSuite (metered.buildCheckpoint keyedSuite.toCrypto 1000 (.replicate 32 0) []) payerSk

/-- The name of a request once the merchant signed it. -/
def ckptRefOf (request : CheckpointRequest) : ByteArr 32 :=
  ((driver.countersignCheckpoint keyedSuite request.proposed).reference keyedSuite).getD
    (.replicate 32 0)

/-- The round that pays the merchant `net` and brings the meed to `target`, settling `numerators`
by the shares of the terms. -/
def proposeOf (channelId : ByteArr 8) (ckptRef : ByteArr 32) (net target numerators : ℕ) :
    SettlementPropose :=
  let p : SettlementPropose :=
    { channelId
      ckptRef
      outputs := [{ amount := net, asset := "usd", dest := "merchant" }]
      instanceLeg := some
        { amount := target
          credited := []
          extinguished := SCHEMA_01_ROLES.map fun r => (r.1, numerators / 100 * r.2.toNat) }
      conversion := none
      sigPayer := none
      sigMerchant := none }
  { p with sigPayer := (p.contentFields keyedSuite).map fun fields =>
      keyedSuite.ed25519Sign payerSk (covered .settlePropose (Tlv.encode fields)) }

def proofOf (p : SettlementPropose) (txRefs : List TxRef) : SettlementProof :=
  let proof : SettlementProof :=
    { channelId := p.channelId
      proposalHash := (p.proposalHash keyedSuite).getD (.replicate 32 0)
      txRefs
      sigPayer := none
      sigMerchant := none }
  { proof with sigPayer := proof.contentFields.map fun fields =>
      keyedSuite.ed25519Sign payerSk (covered .settleProof (Tlv.encode fields)) }

/-- The payer advances the meed of a channel to a target, on the instance of its terms. -/
def payMeed (auth : ChannelAuth) (target : ℕ) (rail : VirtualRail) : VirtualRail :=
  let seed := ((ChannelDriver.addressInputs auth).seedInstance keyedSuite).getD (.replicate 32 0)
  let deployed := rail.deployInstance seed [⟨"layer", 50⟩, ⟨"os", 10⟩, ⟨"wallet", 30⟩, ⟨"dev", 10⟩]
  (deployed.advanceChannelMeed none (VirtualRail.deriveAddress seed) auth.channelId target
    auth.baselineAsset).2

/-- The payer pays the net leg of a round. -/
def payNet (channelId : ByteArr 8) (ckptRef : ByteArr 32) (amount : ℕ) (rail : VirtualRail) :
    VirtualRail :=
  (rail.submit { dest := "merchant", asset := "usd", amount
                 memo := some (keyedSuite.settlementNetMemo channelId ckptRef) }).2

/-! ## A prepay channel -/

/-- The name of the position of a prepay channel that metered nothing. -/
def birthRef (channelId : ByteArr 8) (fundingSum timestamp : ℕ) : ByteArr 32 :=
  let still : StillbornState :=
    { channelId
      prepay := true
      cumTotal := 0
      accruals := SCHEMA_01_ROLES.map fun r => (r.1, 0)
      settledSum := 0
      netLegsSum := 0
      fundingSum
      timestamp
      prevRef := .replicate 32 0 }
  ((still.syntheticCheckpoint keyedSuite).bind (Checkpoint.syntheticReference keyedSuite)).getD
    (.replicate 32 0)

/-! ## A wallet -/

def walletEnv : Wallet.Env VirtualRail where
  suite := keyedSuite
  adapter := VirtualRail.adapter
  sealSessionSecret pk aad s := some (keyedSeal pk s aad)
  registrableDomain host := some host

def walletTrust : Wallet.PayerChannelTrust where
  custody := ⟨payerSk⟩
  walletMeedDest := some "wallet"
  binding := ⟨merchantSk, "merchant", merchantSk⟩

theorem tenThousand_le : 10000 ≤ U128_MAX := by decide

/-- The terms of a prepay channel that settles at `thValue` or after `thTime`. -/
def openParams (channelId : ByteArr 8) (thValue thTime : ℕ) (hle : thValue ≤ U128_MAX) :
    Wallet.ChannelOpenParams :=
  let auth := terms channelId none 1000
  { channelId
    denom := auth.denom
    baselineAsset := auth.baselineAsset
    baselineNet := auth.baselineNet
    prepay := true
    limitL := auth.limitL
    limitE := auth.limitE
    thValue
    thTime
    schema := auth.schema
    contract := auth.contract
    registryV := auth.registryV
    vector := auth.vector
    refundPtr := auth.refundPtr
    rateSource := auth.rateSource
    rateDev := auth.rateDev
    finMeed := auth.finMeed
    finDenom := auth.finDenom
    timestamp := auth.timestamp
    thValue_le := hle }

/-- The opening at a round of 100 within an hour. -/
def walletOpening : Option (ChannelOpen × Wallet.ChannelClient) :=
  (Wallet.openInner walletEnv walletTrust 1000 .approve
    (openParams (cid 1) 10000 3600 tenThousand_le) secret).toOption

theorem walletOpening_isSome : walletOpening.isSome = true := by decide +kernel

/-- The wallet's channel as it opens. -/
def wallet : Wallet.ChannelClient := (walletOpening.get walletOpening_isSome).2

theorem wallet_opened : Wallet.openInner walletEnv walletTrust 1000 .approve
    (openParams (cid 1) 10000 3600 tenThousand_le) secret =
      .ok ((walletOpening.get walletOpening_isSome).1, wallet) :=
  toOption_eq_some.1 (Option.some_get walletOpening_isSome).symm

/-- A call whose store decides every key. -/
def sent (call : Carriage.Call VirtualRail) : Carriage.Event VirtualRail := ⟨call, fun _ => false⟩

/-- What the payer closes is accepted with the intent it states. -/
theorem closeOf_accept (channelId : ByteArr 8) (ckptRef : ByteArr 32) (chainIntent : Bool) :
    (closeOf channelId ckptRef chainIntent).accept keyedSuite channelId payerSk driver.key =
      some { byPayer := true, chainIntent } :=
  Close.accept_sign keyedSuite_signs _ _

/-- The terms verify as the payer sends them. -/
theorem openOn_verify {auth : ChannelAuth} (hkey : auth.payerKey = payerSk)
    (hc : (auth.contentFields keyedSuite).isSome = true) :
    (openOn auth).auth.verify keyedSuite = true := by
  obtain ⟨signed, hs⟩ : ∃ signed, auth.sign keyedSuite payerSk = some signed := by
    rw [← Option.isSome_iff_exists, ChannelAuth.sign, Option.isSome_map, hc]
  show ((auth.sign keyedSuite payerSk).getD auth).verify keyedSuite = true
  rw [hs]
  exact ChannelAuth.verify_sign keyedSuite_signs hkey hs

end Sample

end Paytp
