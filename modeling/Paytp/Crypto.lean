import Paytp.Lib.Bytes

/-!
# Cryptographic primitives and signing envelopes

The primitives are functions given from outside; everything built on them, the domain labels and
what a slice tag covers, follows the protocol.
-/

namespace Paytp

structure Crypto where
  sha256 : Bytes → ByteArr 32
  /-- Input keying material, salt and info to 32 bytes. -/
  hkdfSha256 : Bytes → Bytes → Bytes → ByteArr 32
  poly1305 : ByteArr 32 → Bytes → ByteArr 16

inductive DomainLabel
  | slice
  | chanAuth
  | chanAck
  | ckpt
  | ckptReq
  | funding
  | settlePropose
  | settleProof
  | settleConfirm
  | close
  | prepayDraw
  | reqs
  | receipt
  | artifact
  | ackReq
  | attest
  | cancel
  | registry
  deriving DecidableEq

def DomainLabel.asStr : DomainLabel → String
  | slice => "PayTPv1-slice"
  | chanAuth => "PayTPv1-chan-auth"
  | chanAck => "PayTPv1-chan-ack"
  | ckpt => "PayTPv1-ckpt"
  | ckptReq => "PayTPv1-ckpt-req"
  | funding => "PayTPv1-funding"
  | settlePropose => "PayTPv1-settle-propose"
  | settleProof => "PayTPv1-settle-proof"
  | settleConfirm => "PayTPv1-settle-confirm"
  | close => "PayTPv1-close"
  | prepayDraw => "PayTPv1-prepay-draw"
  | reqs => "PayTPv1-reqs"
  | receipt => "PayTPv1-receipt"
  | artifact => "PayTPv1-artifact"
  | ackReq => "PayTPv1-ack-req"
  | attest => "PayTPv1-attest"
  | cancel => "PayTPv1-cancel"
  | registry => "PayTPv1-registry"

/-- The bytes a signature or a tag covers. -/
def covered (label : DomainLabel) (canonicalBytes : Bytes) : Bytes :=
  Bytes.ofString label.asStr ++ 0 :: canonicalBytes

namespace Crypto

variable (crypto : Crypto)

/-- One Poly1305 key per slice, from the little-endian bytes of its number. -/
def sliceSubkey (kSession : ByteArr 32) (seq : ℕ) : ByteArr 32 :=
  crypto.hkdfSha256 kSession.toList [] (toBE 8 seq).reverse

def sliceTag (subkey : ByteArr 32) (coveredSlice : Bytes) : ByteArr 16 :=
  crypto.poly1305 subkey coveredSlice

def sliceTagVerify (subkey : ByteArr 32) (coveredSlice : Bytes) (tag : ByteArr 16) : Bool :=
  crypto.sliceTag subkey coveredSlice == tag

end Crypto

end Paytp
