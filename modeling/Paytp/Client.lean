import Paytp.Roles
import Paytp.Wallet.Execute

/-!
# The client

The interaction layer finds a quote and has a wallet pay it. It drives any wallet that the operator
selects, and checks what concerns itself: the origin, the resource and its own share.
-/

namespace Paytp

/-- What authenticates the origin of a connection. -/
structure OriginContext where
  candidateMerchantKey : ByteArr 32
  artifactBytes : Bytes
  connCertHash : ByteArr 32
  connHost : String
  time : ℕ

/-- What the client asks of a wallet, which refuses with an error of its own. -/
structure PayerWallet (ε : Type) where
  acceptOrigin : OriginContext → Except ε Wallet.AcceptedBinding
  /-- The rail, the text of the quote, the entry that was approved, the origin, the resource. -/
  payBaselineQuote : EntryRail → String → PaymentRequirements → Wallet.AcceptedBinding → String →
    Except ε BaselinePayment

inductive ClientError (ε : Type)
  | quoteInvalid
  | resourceMismatch
  | originResourceMismatch
  | wallet (e : ε)
  | relay (e : RelayError)
  deriving DecidableEq, Repr

/-- The wallet as one that a client drives, with the id that it settles the next payment under. -/
def Wallet.payer (codec : TextCodec) (suite : Suite) (idna : Host.Idna) (w : Wallet)
    (settleId : ByteArr 32) : PayerWallet WalletError where
  acceptOrigin ctx :=
    Wallet.acceptOrigin suite (fun host => (Host.validateNormalizedHost idna host).isOk)
      ctx.candidateMerchantKey ctx.artifactBytes ctx.connCertHash ctx.connHost ctx.time
  payBaselineQuote rail quoteJson accept binding requestedResource :=
    w.payBaseline codec suite idna rail quoteJson accept binding requestedResource settleId

structure Client where
  il : InteractionLayer
  deriving DecidableEq

namespace Client

variable {ε : Type} (codec : TextCodec) (suite : Suite) (idna : Host.Idna) (client : Client)

def requireBindingHostMatchesResource (binding : Wallet.AcceptedBinding)
    (requestedResource : String) : Except (ClientError ε) Unit :=
  (Wallet.requireBindingHostMatchesResource idna binding requestedResource).mapError
    fun _ => .originResourceMismatch

/-- Have the wallet pay a quote that is signed by the merchant of the origin, for the resource that
was asked for, and with the share of this layer in its place. -/
def payBaseline (wallet : PayerWallet ε) (rail : EntryRail) (quoteJson : String)
    (accept : PaymentRequirements) (origin : OriginContext) (requestedResource : String) :
    Except (ClientError ε) BaselinePayment := do
  let binding ← (wallet.acceptOrigin origin).mapError .wallet
  requireBindingHostMatchesResource idna binding requestedResource
  let quote ← okOr (Quote.parseVerify codec suite quoteJson binding.merchantKey) .quoteInvalid
  require (quote.resource == requestedResource) .resourceMismatch
  require (validatePayerSideDestinations suite quote.vector (.asserted client.il.ilDest) .unchecked)
    .quoteInvalid
  (wallet.payBaselineQuote rail quoteJson accept binding requestedResource).mapError .wallet

end Client

end Paytp
