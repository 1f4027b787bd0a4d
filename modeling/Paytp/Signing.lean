import Paytp.Settle
import Paytp.Establish

/-!
# Signing

What a payer signs and seals. In a suite whose signatures verify, everything signed verifies
under the key of its signer. `keyedSuite` is such a suite that can be computed with: it digests
modulo a prime, a signature is a digest under the key, and a seal is the secret with a digest of
what it is bound to.
-/

namespace Paytp

def ByteArr.ofNat (w n : ℕ) : ByteArr w := ⟨toBE w n, length_toBE w n⟩

namespace Suite

/-- Every signature verifies under the public key of its signer. -/
def Signs (suite : Suite) : Prop :=
  ∀ sk msg, suite.ed25519VerifyStrict (suite.ed25519Public sk) msg (suite.ed25519Sign sk msg) = true

theorem Signs.verifySigned {suite : Suite} (h : suite.Signs) (sk : ByteArr 32)
    (label : DomainLabel) (fields : List Tlv.Field) :
    suite.verifySigned (suite.ed25519Public sk) label (some fields)
      (some (suite.ed25519Sign sk (covered label (Tlv.encode fields)))) = true := h sk _

end Suite

variable {suite : Suite} {sk : ByteArr 32}

def ChannelAuth.sign (suite : Suite) (auth : ChannelAuth) (payerSk : ByteArr 32) :
    Option ChannelAuth :=
  (auth.contentFields suite).map fun fields =>
    { auth with sig := some (suite.ed25519Sign payerSk (covered .chanAuth (Tlv.encode fields))) }

theorem ChannelAuth.verify_sign (h : suite.Signs) {auth signed : ChannelAuth}
    (hkey : auth.payerKey = suite.ed25519Public sk) (hs : auth.sign suite sk = some signed) :
    signed.verify suite = true := by
  rw [ChannelAuth.sign] at hs
  obtain ⟨fields, hfields, rfl⟩ := Option.map_eq_some_iff.mp hs
  have hc : ({ auth with sig := some (suite.ed25519Sign sk
      (covered .chanAuth (Tlv.encode fields))) } : ChannelAuth).contentFields suite =
      auth.contentFields suite := rfl
  rw [ChannelAuth.verify, hc, hfields]
  show suite.verifySigned auth.payerKey _ _ _ = true
  rw [hkey]
  exact h.verifySigned sk .chanAuth fields

def FundingProof.sign (suite : Suite) (fp : FundingProof) (payerSk : ByteArr 32) :
    Option FundingProof :=
  (fp.contentFields suite).map fun fields =>
    { fp with sig := some (suite.ed25519Sign payerSk (covered .funding (Tlv.encode fields))) }

theorem FundingProof.verify_sign (h : suite.Signs) {fp signed : FundingProof}
    (hs : fp.sign suite sk = some signed) :
    signed.verify suite (suite.ed25519Public sk) = true := by
  rw [FundingProof.sign] at hs
  obtain ⟨fields, hfields, rfl⟩ := Option.map_eq_some_iff.mp hs
  have hc : ({ fp with sig := some (suite.ed25519Sign sk
      (covered .funding (Tlv.encode fields))) } : FundingProof).contentFields suite =
      fp.contentFields suite := rfl
  rw [FundingProof.verify, hc, hfields]
  exact h.verifySigned sk .funding fields

def AckRequest.sign (suite : Suite) (req : AckRequest) (payerSk : ByteArr 32) : AckRequest :=
  { req with
    sig := some (suite.ed25519Sign payerSk (covered .ackReq (Tlv.encode req.contentFields))) }

def Close.sign (suite : Suite) (close : Close) (signerSk : ByteArr 32) : Close :=
  { close with
    sig := some (suite.ed25519Sign signerSk (covered .close (Tlv.encode close.contentFields))) }

/-- A close the payer signed is accepted with the intent it states. -/
theorem Close.accept_sign (h : suite.Signs) (close : Close) (merchantKey : ByteArr 32) :
    (close.sign suite sk).accept suite close.channelId (suite.ed25519Public sk) merchantKey =
      some { byPayer := true, chainIntent := close.chainIntent } := by
  have hv : suite.verifySigned (suite.ed25519Public sk) .close
      (some (close.sign suite sk).contentFields) (close.sign suite sk).sig = true :=
    h.verifySigned sk .close close.contentFields
  rw [Close.accept, if_neg (fun hne => hne rfl), hv]
  rfl

def Checkpoint.signPayer (suite : Suite) (cp : Checkpoint) (payerSk : ByteArr 32) : Checkpoint :=
  { cp with sigPayer := some (suite.ed25519Sign payerSk cp.coveredBytes) }

/-- A proposal signed by the payer, in the request that proposes it. -/
def CheckpointRequest.sign (suite : Suite) (cp : Checkpoint) (payerSk : ByteArr 32) :
    CheckpointRequest :=
  let request : CheckpointRequest := { proposed := cp.signPayer suite payerSk, sig := none }
  { request with
    sig := some (suite.ed25519Sign payerSk (covered .ckptReq (Tlv.encode request.contentFields))) }

theorem CheckpointRequest.verify_sign (h : suite.Signs) (cp : Checkpoint)
    (hm : cp.sigMerchant = none) :
    (CheckpointRequest.sign suite cp sk).verify suite (suite.ed25519Public sk) = true := by
  have hp : (CheckpointRequest.sign suite cp sk).proposed.verifyPayer suite
      (suite.ed25519Public sk) = true := h.verifySigned sk .ckpt cp.contentFields
  have hr : suite.verifySigned (suite.ed25519Public sk) .ckptReq
      (some (CheckpointRequest.sign suite cp sk).contentFields)
      (CheckpointRequest.sign suite cp sk).sig = true := h.verifySigned sk .ckptReq _
  rw [CheckpointRequest.verify, hp, hr]
  show (cp.sigMerchant.isNone && true && true) = true
  rw [hm]
  rfl

/-- The slice `seq` of `amtMicro` under a session key. -/
def Slice.sealWith (crypto : Crypto) (kSession : ByteArr 32) (seq amtMicro : ℕ)
    (hseq : seq ≤ SEQ_MAX) (hamt : amtMicro < 2 ^ 48) : Slice where
  seq
  amtMicro
  tag := crypto.sliceTag (crypto.sliceSubkey kSession seq) (coveredBytes seq amtMicro)
  seq_le := hseq
  amt_lt := hamt

theorem Slice.verify_sealWith (crypto : Crypto) (kSession : ByteArr 32) {seq amtMicro : ℕ}
    (hseq : seq ≤ SEQ_MAX) (hamt : amtMicro < 2 ^ 48) :
    (sealWith crypto kSession seq amtMicro hseq hamt).verify crypto kSession = true :=
  beq_self_eq_true _

/-! ## A suite to compute with -/

/-- A digest: the bytes, behind a mark for their number, modulo a prime. -/
def digest (bytes : Bytes) : ℕ := ofBE (1 :: bytes) % (2 ^ 255 - 19)

/-- The bytes that a digest under a key takes. -/
def keyed (key : ByteArr 32) (msg : Bytes) : Bytes := key.toList ++ msg

def keyedSuite : Suite where
  sha256 bytes := .ofNat 32 (digest bytes)
  hkdfSha256 ikm salt info := .ofNat 32 (digest (toBE 4 ikm.length ++ ikm ++ salt ++ info))
  poly1305 key msg := .ofNat 16 (digest (keyed key msg))
  ed25519Public sk := sk
  ed25519Sign sk msg := .ofNat 64 (digest (keyed sk msg))
  ed25519VerifyStrict pk msg sig := sig == .ofNat 64 (digest (keyed pk msg))
  x25519KeypairFromSeed seed := (seed, seed)
  openSessionSecret sk sealed aad :=
    if sealed.drop 32 = toBE 32 (digest (keyed sk aad)) then
      ByteArr.ofBytes? 32 (sealed.take 32)
    else none
  validateText s := s != ""
  isAssetId s _ := s != ""
  isCaip2 s := s != ""
  isRailId s := s != ""
  parsePointer s := if s = "" then none else some true
  governanceReady := true
  osDestinationAccepted _ dest := dest == "os"
  devFundDest := "dev"

theorem keyedSuite_signs : keyedSuite.Signs := fun _ _ => beq_self_eq_true _

/-- A seal of a session secret over the terms it is bound to. -/
def keyedSeal (pk s : ByteArr 32) (aad : Bytes) : Bytes :=
  s.toList ++ toBE 32 (digest (keyed pk aad))

/-- What was sealed opens under the terms it is bound to. -/
theorem keyedSuite_opens (sk s : ByteArr 32) (aad : Bytes) :
    keyedSuite.openSessionSecret sk (keyedSeal sk s aad) aad = some s := by
  have hdrop : (keyedSeal sk s aad).drop 32 = toBE 32 (digest (keyed sk aad)) :=
    List.drop_left' s.toList_length
  have htake : (keyedSeal sk s aad).take 32 = s.toList := List.take_left' s.toList_length
  show (if _ then _ else _) = _
  rw [if_pos hdrop, htake, ByteArr.ofBytes?_toList]

end Paytp
