import Paytp.Proofs.Relay

/-!
# The bound of what is not evidenced

The unevidenced amount of a channel is its window's and in its limit, in every state a carriage
reaches. The running total is the evidence and the unevidenced amount on top until it reaches the
top of its type, which a relay of channels does.
-/

namespace Paytp

namespace Carriage

variable {ρ : Type} {env : Env ρ} {s : Carriage ρ}

/-- In every state a carriage reaches from its construction, the unevidenced amount of a channel
is the sum over its window and at most its limit, and the running total is the total of the
channel's evidence and the unevidenced amount, stopping at the top of its type. -/
theorem evidence_bound (h : Built env s) (es : List (Event ρ)) {cid : ByteArr 8}
    {st : ChannelState} (hst : (exec (step env) s es).channels.lookup cid = some st) :
    st.unevidenced = ChannelState.amounts st.window.values ∧
      st.unevidenced ≤ st.limitE ∧
      st.cumTotal = min U128_MAX ((exec (step env) s es).evidenceCum cid + st.unevidenced) ∧
      (st.cumTotal < U128_MAX →
        st.unevidenced = st.cumTotal - (exec (step env) s es).evidenceCum cid) := by
  have hall : (exec (step env) s es).Evidenced := exec_evidenced (.built h) es
  have hev := hall.channel cid st hst
  have hcum : st.cumTotal =
    min U128_MAX ((exec (step env) s es).evidenceCum cid + st.unevidenced) := hev.cumTotal
  refine ⟨hev.wellFormed.unevidenced_eq, hev.wellFormed.unevidenced_le, hcum, ?_⟩
  intro hlt
  omega

end Carriage

namespace Relay

open Sample

/-- The first channel is opened and metered. -/
def metered : List (Carriage.Event VirtualRail) :=
  let slice (seq amtMicro : ℕ) (hseq : seq ≤ SEQ_MAX) (hamt : amtMicro < 2 ^ 48) : Slice :=
    Slice.sealWith keyedSuite.toCrypto (sessionKey 0) seq amtMicro hseq hamt
  [Sample.sent (.channelOpen (openOn (terms 0 none)) 1000),
    Sample.sent (.batch (cid 1) [slice 1 1000 (by decide) (by decide),
      slice 2 5000 (by decide) (by decide)])]

theorem evidence_bound_metered : ∃ st,
    (exec (Carriage.step env) start metered).channels.lookup (cid 1) = some st ∧
      st.cumTotal = 6000 ∧ st.unevidenced = ChannelState.amounts st.window.values := by
  have hcum : ((exec (Carriage.step env) start metered).channels.lookup (cid 1)).map
      ChannelState.cumTotal = some 6000 := by
    decide +kernel
  obtain ⟨st, hst, hsix⟩ := Option.map_eq_some_iff.mp hcum
  exact ⟨st, hst, hsix, (Carriage.evidence_bound start_built metered hst).1⟩

/-- At the last channel the total stops at the top of its type. -/
theorem evidence_saturates : Carriage.Built env start ∧ ∃ es st,
    (exec (Carriage.step env) start es).channels.lookup (cid (2 ^ 17 + 1)) = some st ∧
      st.unevidenced ≠
        st.cumTotal - (exec (Carriage.step env) start es).evidenceCum (cid (2 ^ 17 + 1)) := by
  refine ⟨start_built, ?_⟩
  have hle : 2 ^ 17 * full ≤ U128_MAX := by decide
  have hlt : 2 ^ 17 * full < U128_MAX := by decide
  have hover : U128_MAX < 2 ^ 17 * full + full := by decide
  obtain ⟨es, hes⟩ := reach (2 ^ 17) hle (by norm_num)
  generalize hs : exec (Carriage.step env) start es = s at hes
  obtain ⟨e, slices, st, h, htaken, hsum⟩ := meter hle hes.channel
  have hall : s.Evidenced := hs ▸ Carriage.exec_evidenced (.built start_built) es
  have hev := hall.channel _ _ hes.channel
  have hbasis : 2 ^ 17 * full = min U128_MAX (s.evidenceCum (cid (2 ^ 17 + 1)) + 0) := hev.cumTotal
  refine ⟨es ++ [e], st, ?_, ?_⟩
  · rw [exec_concat, hs, h]
    exact Finmap.lookup_insert _
  · have hsame : (exec (Carriage.step env) start (es ++ [e])).evidenceCum (cid (2 ^ 17 + 1)) =
        2 ^ 17 * full := by
      rw [exec_concat, hs, h]
      show s.evidenceCum (cid (2 ^ 17 + 1)) = 2 ^ 17 * full
      omega
    have hunevidenced : st.unevidenced = full := by
      rw [htaken.unevidenced_eq hev.wellFormed, hsum]
      exact Nat.zero_add full
    have hcum : st.cumTotal = U128_MAX := by
      rw [htaken.cumTotal, hsum]
      exact min_eq_left hover.le
    rw [hsame, hunevidenced, hcum]
    omega

end Relay

end Paytp
