import Paytp.Endpoint
import Paytp.Sample

/-!
# What an unauthenticated sender sees

A handler looks a channel up and refuses a message for several reasons. Up to and including its
authentication every refusal is the same one, and nothing is changed before. So what a body that
is not authentic draws depends on its bytes alone.
-/

namespace Paytp

namespace ChannelState

variable {crypto : Crypto} {s : ChannelState}

/-- A unit whose first slice carries no tag of the channel moves nothing. -/
theorem acceptBatch_of_badMac {slice : Slice} (slices : List Slice)
    (h : s.kSession.any (slice.verify crypto) = false) :
    s.acceptBatch crypto (slice :: slices) = (.error .badMac, s) := by
  have hmac : (s.kSession.isNone || !slice.verify crypto (s.kSession.getD (.replicate 32 0))) =
      true := by
    rcases hk : s.kSession with _ | key
    · rfl
    · rw [hk] at h
      simpa using h
  have haccept : s.acceptSlice crypto slice = (.error .badMac, s) := by
    rw [acceptSlice, if_pos hmac]
  rw [acceptBatch, acceptEach, haccept]
  rfl

end ChannelState

namespace Carriage

variable {ρ : Type} {env : Env ρ} {s : Carriage ρ}

/-! ## The handlers -/

/-- The key a channel is looked up for verifies nothing here: there is none, or it fails. -/
theorem unverified {α : Type} {key : Option (ByteArr 32)} {verifies : ByteArr 32 → Bool}
    (h : key.any verifies = false) (rest : ByteArr 32 → Except CarriageError α)
    (hrest : ∀ payerKey, verifies payerKey = false → rest payerKey = .error .rejected) :
    (okOr key .rejected >>= rest) = .error .rejected := by
  rcases key with _ | payerKey
  · rfl
  · exact hrest payerKey h

theorem onCheckpointRequest_unverified (request : CheckpointRequest)
    (h : (s.driver.payerKey request.proposed.channelId).any (request.verify env.suite) = false) :
    s.onCheckpointRequest env request = (.error .rejected, s) := by
  have hscreen : s.screenCheckpoint env request = .error .rejected :=
    unverified h _ fun payerKey hv => by rw [hv]; rfl
  rw [onCheckpointRequest, hscreen]

theorem onFunding_unverified (fails : StoreFaults) (fp : FundingProof)
    (h : (s.driver.payerKey fp.channelId).any (fp.verify env.suite) = false) :
    s.onFunding env fails fp = (.error .rejected, s) := by
  have hcredit : s.fundingCredit env fp = .error .rejected := by
    refine unverified h _ fun payerKey hv => ?_
    rw [hv]
    rcases s.driver.authHash fp.channelId with _ | authHash <;> rfl
  rw [onFunding, hcredit]

theorem onSettlementPropose_unverified (p : SettlementPropose)
    (h : (s.driver.payerKey p.channelId).any (p.verifyPayer env.suite) = false) :
    s.onSettlementPropose env p = (.error .rejected, s) := by
  have hround : s.proposedRound env p = .error .rejected := by
    rw [proposedRound]
    -- a channel that bars its rounds is refused before the signature, in the same way
    rcases s.barsNewRound p.channelId
    · exact unverified h _ fun payerKey hv => by rw [hv]; rfl
    · rfl
  rw [onSettlementPropose, hround]

theorem onSettlementProof_unverified (fails : StoreFaults) (proof : SettlementProof)
    (h : (s.driver.payerKey proof.channelId).any (proof.verifyPayer env.suite) = false) :
    s.onSettlementProof env fails proof = (.error .rejected, s) := by
  have hplan : s.proofPlan env proof = .error .rejected :=
    unverified h _ fun payerKey hv => by rw [hv]; rfl
  rw [onSettlementProof, hplan]

theorem onClose_unverified (fails : StoreFaults) (close : Close)
    (h : (s.driver.payerKey close.channelId).any (fun payerKey =>
      (close.accept env.suite close.channelId payerKey s.driver.key).isSome) = false) :
    s.onClose env fails close = (.error .rejected, s) := by
  have hscreen : s.screenClose env close = .error .rejected := by
    refine unverified h _ fun payerKey hv => ?_
    rw [Option.not_isSome_iff_eq_none.1 (Bool.eq_false_iff.1 hv)]
    rfl
  rw [onClose, hscreen]

theorem ack_unverified (req : AckRequest) (now : ℕ)
    (h : (s.driver.payerKey req.channelId).any (req.verify env.suite) = false) :
    s.ack env req now = .error .rejected := by
  have hserve : s.driver.serveAckRequest env.suite req now = none := by
    rw [ChannelDriver.payerKey, Option.any_map] at h
    rw [ChannelDriver.serveAckRequest]
    rcases hr : s.driver.retained.lookup req.channelId with _ | r
    · rfl
    · rw [hr] at h
      have hv : req.verify env.suite r.payerKey = false := h
      simp [hv]
  rw [ack, hserve]

theorem batch_unverified (cid : ByteArr 8) (slices : List Slice)
    (h : ((s.channels.lookup cid).any fun state => slices.head?.any fun slice =>
      state.kSession.any (slice.verify env.suite.toCrypto)) = false) :
    s.batch env cid slices =
      (.error (if slices.isEmpty then .malformed else .rejected), s) := by
  rcases slices with _ | ⟨slice, slices⟩
  · rfl
  · rcases hst : s.channels.lookup cid with _ | state
    · rw [batch, hst]
      rfl
    · rw [hst] at h
      have hsame : s.channels.insert cid state = s.channels := by
        refine Finmap.ext_lookup fun k => ?_
        rw [HashMap.lookup_insert_ite]
        split_ifs with hk
        · rw [hk, hst]
        · rfl
      rw [batch, hst]
      dsimp only
      rw [ChannelState.acceptBatch_of_badMac slices h, hsame]
      rfl

end Carriage

namespace Endpoint

variable {ρ : Type} {codec : Codec} {env : Env ρ} {fails : StoreFaults} {s : Carriage ρ}

/-! ## Bodies -/

/-- How a body is refused that is not authentic, by its bytes. -/
def refusalOf (codec : Codec) : Post → Refusal
  | .channel [] | .ack [] => .unknownType
  | .channel (octet :: obj) =>
    let parsed (isSome : Bool) : Refusal := .refused (if isSome then .rejected else .malformed)
    if octet = T_CHECKPOINT_REQUEST then parsed (codec.checkpointRequest obj).isSome
    else if octet = T_FUNDING_PROOF then parsed (codec.fundingProof obj).isSome
    else if octet = T_SETTLEMENT_PROPOSE then parsed (codec.settlementPropose obj).isSome
    else if octet = T_SETTLEMENT_PROOF then parsed (codec.settlementProof obj).isSome
    else if octet = T_CLOSE then parsed (codec.close obj).isSome
    else if octet = T_CHECKPOINT ∨ octet = T_SETTLEMENT_CONFIRMED then .unsupported
    else if octet = T_ACK_REQUEST ∨ octet = T_CHANNEL_ACK then .misrouted
    else .unknownType
  | .ack (octet :: obj) =>
    if octet = T_ACK_REQUEST then
      .refused (if (codec.ackRequest obj).isSome then .rejected else .malformed)
    else .misrouted
  | .batch body =>
    .refused (if (codec.batch body).any fun b => !b.2.isEmpty then .rejected else .malformed)

/-- A handler that rejects whatever its object does not authenticate. -/
theorem handled_unsigned {α : Type} {object : Option α} {cid : α → ByteArr 8}
    {verifies : α → ByteArr 32 → Bool}
    {handler : α → Except CarriageError Response × Carriage ρ}
    (h : signedBy s object cid verifies = false)
    (hreject : ∀ o, (s.driver.payerKey (cid o)).any (verifies o) = false →
      handler o = (.error .rejected, s)) :
    handled s object handler =
      (.error (.refused (if object.isSome then .rejected else .malformed)), s) := by
  rcases object with _ | o
  · rfl
  · rw [handled, hreject o h]
    rfl

theorem post_unauthentic {p : Post} (now : ℕ) (hopen : p.opens = false)
    (h : authentic codec env s p = false) :
    post codec env fails s now p = (.error (refusalOf codec p), s) := by
  rcases p with (_ | ⟨octet, obj⟩) | (_ | ⟨octet, obj⟩) | body
  · rfl
  · have hne : octet ≠ T_CHANNEL_OPEN := by simpa [Post.opens] using hopen
    rw [post, channel, if_neg hne]
    rw [authentic] at h
    rw [refusalOf]
    split_ifs at h ⊢
    · exact handled_unsigned h s.onCheckpointRequest_unverified
    · exact handled_unsigned h (s.onFunding_unverified fails)
    · exact handled_unsigned h s.onSettlementPropose_unverified
    · exact handled_unsigned h (s.onSettlementProof_unverified fails)
    · exact handled_unsigned h (s.onClose_unverified fails)
    · rfl
    · rfl
    · rfl
  · rfl
  · rw [post, ack, refusalOf]
    rw [authentic] at h
    by_cases hreq : octet = T_ACK_REQUEST
    · rw [if_pos hreq] at h
      rw [if_pos hreq, if_pos hreq]
      refine handled_unsigned h fun req hv => ?_
      show (s.ack env req now, s) = _
      rw [s.ack_unverified req now hv]
    · rw [if_neg hreq, if_neg hreq]
  · rw [post, batch, refusalOf]
    rw [authentic] at h
    rcases hb : codec.batch body with _ | ⟨cid, slices⟩
    · rfl
    · rw [hb] at h
      rw [handled]
      dsimp only
      rw [s.batch_unverified cid slices h]
      rcases slices with _ | ⟨slice, slices⟩ <;> rfl

/-- Two states answer a body that is authentic in neither in the same way, and stay as they
are. -/
theorem no_oracle (codec : Codec) (env : Env ρ) (fails : StoreFaults) (s s' : Carriage ρ)
    (p : Post) (now : ℕ) (hopen : p.opens = false) (h : authentic codec env s p = false)
    (h' : authentic codec env s' p = false) :
    (post codec env fails s now p).1 = (post codec env fails s' now p).1 ∧
      (post codec env fails s now p).2 = s ∧ (post codec env fails s' now p).2 = s' := by
  rw [post_unauthentic now hopen h, post_unauthentic now hopen h']
  exact ⟨rfl, rfl, rfl⟩

/-! ## A close that nobody signed -/

/-- A codec for the close of the first channel, without a signature. -/
def unsignedClose : Codec where
  channelOpen _ := none
  checkpointRequest _ := none
  fundingProof _ := none
  settlementPropose _ := none
  settlementProof _ := none
  close _ := some { channelId := Sample.cid 1, ckptRef := .replicate 32 0
                    chainIntent := false, sig := none }
  ackRequest _ := none
  batch _ := none

/-- The merchant once the payer opened the first channel. -/
def opened : Carriage VirtualRail :=
  (Sample.start.step Sample.env
    (Sample.sent (.channelOpen (Sample.openOn (Sample.terms (Sample.cid 1) none 1000)) 1000))).1

/-- Neither a merchant who knows the channel nor one who does not closes it. -/
theorem no_oracle_unsignedClose :
    (opened.channels.lookup (Sample.cid 1)).isSome = true ∧
      Sample.start.channels.lookup (Sample.cid 1) = none ∧
      (post unsignedClose Sample.env (fun _ => false) opened 1000 (.channel [T_CLOSE])).1 =
        (post unsignedClose Sample.env (fun _ => false) Sample.start 1000
          (.channel [T_CLOSE])).1 :=
  ⟨by decide +kernel, by decide +kernel,
    (no_oracle unsignedClose Sample.env (fun _ => false) opened Sample.start
      (.channel [T_CLOSE]) 1000 rfl (by decide +kernel) (by decide +kernel)).1⟩

end Endpoint

end Paytp
