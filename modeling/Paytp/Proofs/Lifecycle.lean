import Paytp.Lifecycle
import Paytp.Proofs.EntryEscrow
import Paytp.Signing

/-!
# Where the lifecycles part

What an operation makes of an entry depends on its state, its terms and the clock, and is the same
on the rail and on the chain but for one: an entry that is still funded after its lapse is attested
and cancelled on the rail, and neither on the chain.
-/

namespace Paytp

open Attest Kit

namespace PurchaseInstance

variable {suite : Suite} {h h' : PurchaseInstance} {entryId : ByteArr 32} {e : Entry} {now : ℕ}
  {signed : Signed}

/-- What the rail makes of the state of an entry. It divides and refunds at once. -/
def Entry.next (e : Entry) (now : ℕ) : EntryOp → Option State
  | .attest => if e.state.active then some .attested else none
  | .cancel => if e.state.active then some .cancelled else none
  | .lapse => if e.state = .funded ∧ e.tLapse < now then some .lapsed else none
  | .openReclaim =>
    if e.state = .funded ∧ e.tOpen ≤ now ∧ now ≤ e.tLapse then some (.reclaimOpen now) else none
  | .executeReclaim =>
    match e.state with
    | .reclaimOpen openedAt =>
      if min U64_MAX (openedAt + e.contest) < now then some .reclaimed else none
    | _ => none
  | .distribute =>
    if e.state.status = .attested ∨ e.state.status = .lapsed then some e.state else none
  | .refund =>
    if e.state.status = .cancelled ∨ e.state.status = .reclaimed then some e.state else none

/-- An instance whose entry is brought to a state. -/
structure Brought (h : PurchaseInstance) (entryId : ByteArr 32) (e : Entry) (state : State)
    (h' : PurchaseInstance) : Prop where
  merchantKey : h'.merchantKey = h.merchantKey
  seedInstance : h'.seedInstance = h.seedInstance
  entries : h'.entries = h.entries.insert entryId { e with state }

theorem setState_brought (state : State) :
    h.Brought entryId e state (h.setState entryId e state) := ⟨rfl, rfl, rfl⟩

theorem distribute_brought {state : State} (amount : ℕ) :
    h.Brought entryId e state ((h.setState entryId e state).distribute amount).2 := by
  unfold distribute
  split_ifs <;> exact ⟨rfl, rfl, rfl⟩

/-- An operation goes to the next state, and is refused where there is none. -/
def Performs (h : PurchaseInstance) (entryId : ByteArr 32) (e : Entry) (next : Option State)
    (x : Except EntryError PurchaseInstance) : Prop :=
  match next, x with
  | none, .error _ => True
  | some state, .ok h' => h.Brought entryId e state h'
  | _, _ => False

section operations
variable (he : h.entries.lookup entryId = some e)
include he

theorem entry_eq : h.entry entryId = .ok e := by
  rw [entry, okOr_eq_ok]
  exact he

theorem attest_performs (hsig : h.checkSig suite e entryId signed .attestation = .ok ()) :
    h.Performs entryId e (e.next now .attest) (Prod.snd <$> h.attest suite entryId signed) := by
  rw [attest, entry_eq he, Entry.next]
  by_cases hact : e.state.active = true
  · rw [if_pos hact]
    simp only [bind, Except.bind, require, hact, hsig, if_true]
    exact distribute_brought e.amount
  · rw [if_neg hact]
    simp only [bind, Except.bind, require, hact]
    exact trivial

theorem cancel_performs (hsig : h.checkSig suite e entryId signed .cancellation = .ok ()) :
    h.Performs entryId e (e.next now .cancel) (Prod.snd <$> h.cancel suite entryId signed) := by
  rw [cancel, entry_eq he, Entry.next]
  by_cases hact : e.state.active = true
  · rw [if_pos hact]
    simp only [bind, Except.bind, require, hact, hsig, if_true]
    exact setState_brought _
  · rw [if_neg hact]
    simp only [bind, Except.bind, require, hact]
    exact trivial

theorem claimLapsed_performs :
    h.Performs entryId e (e.next now .lapse) (Prod.snd <$> h.claimLapsed entryId now) := by
  rw [claimLapsed, entry_eq he, Entry.next]
  by_cases hs : e.state = .funded
  · by_cases hlapse : e.tLapse < now
    · rw [if_pos ⟨hs, hlapse⟩]
      simp only [bind, Except.bind, require, hs, not_le.2 hlapse]
      exact distribute_brought e.amount
    · rw [if_neg fun hc => hlapse hc.2]
      simp only [bind, Except.bind, require, hs, not_lt.1 hlapse]
      exact trivial
  · rw [if_neg fun hc => hs hc.1]
    simp only [bind, Except.bind, require, beq_iff_eq, hs]
    exact trivial

theorem openReclaim_performs :
    h.Performs entryId e (e.next now .openReclaim) (h.openReclaim entryId now) := by
  rw [openReclaim, entry_eq he, Entry.next]
  by_cases hs : e.state = .funded
  · by_cases hwindow : e.tOpen ≤ now ∧ now ≤ e.tLapse
    · rw [if_pos ⟨hs, hwindow⟩]
      simp only [bind, Except.bind, require, hs, not_lt.2 hwindow.1, not_lt.2 hwindow.2]
      exact setState_brought _
    · rw [if_neg fun hc => hwindow hc.2]
      have hout : (decide (now < e.tOpen) || decide (now > e.tLapse)) = true := by
        rw [Bool.or_eq_true, decide_eq_true_eq, decide_eq_true_eq]
        omega
      simp only [bind, Except.bind, require, hs, hout]
      exact trivial
  · rw [if_neg fun hc => hs hc.1]
    simp only [bind, Except.bind, require, beq_iff_eq, hs]
    exact trivial

theorem executeReclaim_performs :
    h.Performs entryId e (e.next now .executeReclaim)
      (Prod.snd <$> h.executeReclaim entryId now) := by
  rw [executeReclaim, entry_eq he, Entry.next]
  rcases hs : e.state with _ | _ | _ | openedAt | _ | _
  case reclaimOpen =>
    by_cases hexec : min U64_MAX (openedAt + e.contest) < now
    · simp only [if_pos hexec, bind, Except.bind, require, hs, not_le.2 hexec]
      exact setState_brought _
    · simp only [if_neg hexec, bind, Except.bind, require, hs, not_lt.1 hexec]
      exact trivial
  all_goals
    simp only [bind, Except.bind, hs]
    exact trivial

end operations

/-- Funding creates the entry under its name, or is refused. -/
theorem fundEntry_eq_ok {t : EntryTerms} {refundPtr : String} {x : ByteArr 32 × PurchaseInstance} :
    h.fundEntry suite t refundPtr now = .ok x ↔
      (t.amount ≠ 0 ∧ now ≤ t.tLapse ∧ t.tOpen ≤ t.tLapse ∧
        deriveEntryId suite.toCrypto h.seedInstance t ∉ h.entries.keys) ∧
      x = (deriveEntryId suite.toCrypto h.seedInstance t,
        { h with entries := h.entries.insert (deriveEntryId suite.toCrypto h.seedInstance t)
                  { t with refundPtr, state := .funded } }) := by
  have hid : suite.entryIdPurchase h.seedInstance t.nonce t.amount t.tOpen t.tLapse t.contest =
      deriveEntryId suite.toCrypto h.seedInstance t := rfl
  unfold fundEntry
  simp only [bind_eq_ok, require_eq_ok, pure_eq_ok, hid, bne_iff_ne, Bool.not_eq_true',
    decide_eq_false_iff_not, not_lt, exists_const, and_assoc, @eq_comm _ x, gt_iff_lt]

end PurchaseInstance

/-! ## One entry -/

/-- An entry of the rail and one of the chain, with the same terms and in the same state. -/
structure SameEntry (e : PurchaseInstance.Entry) (c : Kit.Entry) : Prop where
  terms : c.toEntryTerms = e.toEntryTerms
  state : c.state = e.state.status.onChain
  openedAt : ∀ t, e.state = .reclaimOpen t → c.openedAt = t

/-- Do the attestation and the cancellation of the entry come too late? -/
def PurchaseInstance.Entry.late (e : PurchaseInstance.Entry) (now : ℕ) : EntryOp → Bool
  | .attest | .cancel => decide (e.state = .funded ∧ e.tLapse < now)
  | _ => false

/-- What an operation makes of an entry that is already paid out. -/
theorem PurchaseInstance.Entry.next_of_settle {e : PurchaseInstance.Entry} {now : ℕ} {op : EntryOp}
    {state : PurchaseInstance.State} (hop : op = .distribute ∨ op = .refund)
    (h : e.next now op = some state) : state = e.state := by
  rcases hop with rfl | rfl <;>
  · rw [PurchaseInstance.Entry.next] at h
    split_ifs at h
    exact (Option.some.inj h).symm

section entry
variable {e : PurchaseInstance.Entry} {c c' : Kit.Entry} {now : ℕ} {op : EntryOp}

/-- What the chain accepts, the rail accepts, to the same state. -/
theorem SameEntry.next_of_apply (h : SameEntry e c) (hc : c.apply now op = .ok c') :
    ∃ state, e.next now op = some state ∧ SameEntry { e with state } c' := by
  obtain ⟨hterms, hstate, hopened⟩ := h
  have hlapse : c.tLapse = e.tLapse := congrArg EntryTerms.tLapse hterms
  have hopen : c.tOpen = e.tOpen := congrArg EntryTerms.tOpen hterms
  have hcontest : c.contest = e.contest := congrArg EntryTerms.contest hterms
  have hop := Kit.Entry.apply_eq_ok.1 hc
  rcases op <;> obtain ⟨hreq, rfl⟩ := hop
  case attest | cancel =>
    refine ⟨_, if_pos ?_, hterms, rfl, nofun⟩
    rw [hstate] at hreq
    rcases hs : e.state <;> simp [hs, PurchaseInstance.State.status, EntryStatus.onChain,
      PurchaseInstance.State.active] at hreq ⊢
  case lapse =>
    refine ⟨_, if_pos ⟨?_, by omega⟩, hterms, rfl, nofun⟩
    rw [hstate] at hreq
    rcases hs : e.state <;> simp [hs, PurchaseInstance.State.status, EntryStatus.onChain] at hreq ⊢
  case openReclaim =>
    refine ⟨_, if_pos ⟨?_, by omega⟩, hterms, rfl, ?_⟩
    · rintro t ht
      cases ht
      rfl
    · rw [hstate] at hreq
      rcases hs : e.state <;>
        simp [hs, PurchaseInstance.State.status, EntryStatus.onChain] at hreq ⊢
  case executeReclaim =>
    rcases hs : e.state with _ | _ | _ | openedAt | _ | _
    case reclaimOpen =>
      refine ⟨.reclaimed, ?_, hterms, rfl, nofun⟩
      have hlt := hreq.2
      rw [hopened openedAt hs, hcontest] at hlt
      simp only [PurchaseInstance.Entry.next, hs, if_pos hlt]
    all_goals
      rw [hstate, hs] at hreq
      exact absurd hreq.1 nofun
  case distribute | refund =>
    refine ⟨e.state, if_pos ?_, hterms, hstate, hopened⟩
    rw [hstate] at hreq
    rcases hs : e.state <;> simp [hs, PurchaseInstance.State.status, EntryStatus.onChain] at hreq ⊢

/-- What the rail accepts and does not pay, the chain accepts exactly if it does not come too
late. -/
theorem SameEntry.apply_isOk_iff (h : SameEntry e c) {state : PurchaseInstance.State}
    (hnext : e.next now op = some state) (hop : op ≠ .distribute ∧ op ≠ .refund) :
    (∃ c', c.apply now op = .ok c') ↔ e.late now op = false := by
  obtain ⟨hterms, hstate, hopened⟩ := h
  have hlapse : c.tLapse = e.tLapse := congrArg EntryTerms.tLapse hterms
  have hopen : c.tOpen = e.tOpen := congrArg EntryTerms.tOpen hterms
  have hcontest : c.contest = e.contest := congrArg EntryTerms.contest hterms
  simp only [Kit.Entry.apply_eq_ok]
  rcases op <;> simp only [exists_and_left, exists_eq, and_true]
  case attest | cancel =>
    rw [hstate, hlapse, PurchaseInstance.Entry.late, decide_eq_false_iff_not]
    rcases hs : e.state <;> simp [PurchaseInstance.Entry.next, hs, PurchaseInstance.State.status,
      EntryStatus.onChain, PurchaseInstance.State.active] at hnext ⊢
  case lapse =>
    rw [PurchaseInstance.Entry.next] at hnext
    split_ifs at hnext with hreq
    rw [hstate, hlapse, hreq.1]
    exact ⟨fun _ => rfl, fun _ => ⟨rfl, hreq.2⟩⟩
  case openReclaim =>
    rw [PurchaseInstance.Entry.next] at hnext
    split_ifs at hnext with hreq
    rw [hstate, hlapse, hopen, hreq.1]
    exact ⟨fun _ => rfl, fun _ => ⟨rfl, hreq.2⟩⟩
  case executeReclaim =>
    rcases hs : e.state with _ | _ | _ | openedAt | _ | _
    case reclaimOpen =>
      simp only [PurchaseInstance.Entry.next, hs] at hnext
      split_ifs at hnext with hlt
      rw [hstate, hs, hopened openedAt hs, hcontest]
      exact ⟨fun _ => rfl, fun _ => ⟨rfl, hlt⟩⟩
    all_goals
      simp only [PurchaseInstance.Entry.next, hs] at hnext
      cases hnext
  case distribute => exact absurd rfl hop.1
  case refund => exact absurd rfl hop.2

end entry

/-! ## One step -/

namespace Lifecycle

variable {suite : Suite} {s : Lifecycle} {now : ℕ} {r : EntryRequest} {entryId : ByteArr 32}
  {op : EntryOp} {e : PurchaseInstance.Entry} {c : Kit.Entry}

/-- The same entries under the same names. -/
structure Aligned (suite : Suite) (s : Lifecycle) : Prop where
  merchantKey : s.host.merchantKey = s.chain.inst.merchantKey
  seedInstance : s.host.seedInstance = s.chain.inst.seedInstance
  entries : ∀ entryId, Option.Rel SameEntry (s.host.entries.lookup entryId)
    (s.chain.entries.lookup entryId)
  named : ∀ entryId c, s.chain.entries.lookup entryId = some c → c.id suite.toCrypto = entryId

/-- The entry that a request is about, and what is asked. -/
def acts : EntryRequest → Option (ByteArr 32 × EntryOp)
  | .fund .. => none
  | .attest entryId _ => some (entryId, .attest)
  | .cancel entryId _ _ => some (entryId, .cancel)
  | .lapse entryId => some (entryId, .lapse)
  | .openReclaim entryId => some (entryId, .openReclaim)
  | .executeReclaim entryId => some (entryId, .executeReclaim)
  | .distribute entryId => some (entryId, .distribute)
  | .refund entryId => some (entryId, .refund)

theorem hostPaid_performs {statuses : List EntryStatus}
    (he : s.host.entries.lookup entryId = some e)
    (hnext : e.next now op = if e.state.status ∈ statuses then some e.state else none) :
    s.host.Performs entryId e (e.next now op) (s.hostPaid entryId statuses) := by
  rw [hostPaid, PurchaseInstance.entry_eq he, hnext]
  by_cases hs : e.state.status ∈ statuses
  · rw [if_pos hs]
    simp only [bind, Except.bind, require, hs, decide_true, if_true]
    exact ⟨rfl, rfl, (HashMap.insert_of_lookup he).symm⟩
  · rw [if_neg hs]
    simp only [bind, Except.bind, require, hs]
    exact trivial

theorem hostRun_performs (hr : acts r = some (entryId, op)) (hvalid : Valid suite s (now, r))
    (he : s.host.entries.lookup entryId = some e) :
    s.host.Performs entryId e (e.next now op) (s.hostRun suite now r) := by
  rcases r <;> cases hr
  case attest => exact PurchaseInstance.attest_performs he (hvalid e he)
  case cancel => exact PurchaseInstance.cancel_performs he (hvalid.2 e he)
  case lapse => exact PurchaseInstance.claimLapsed_performs he
  case openReclaim => exact PurchaseInstance.openReclaim_performs he
  case executeReclaim => exact PurchaseInstance.executeReclaim_performs he
  case distribute => exact hostPaid_performs he (by simp [PurchaseInstance.Entry.next])
  case refund => exact hostPaid_performs he (by simp [PurchaseInstance.Entry.next])

/-- The chain expects the message that the merchant signs off it. -/
theorem coveredBytes_attestation (nonce entryId : ByteArr 32) :
    coveredBytes .attestation nonce entryId = attestMessage nonce entryId := by
  have hlength : Leb128.encode 32 = [0x20] := by decide
  have hfield : ∀ (t : UInt8) (a : ByteArr 32),
      (Tlv.Field.array t a).encode = t :: 0x20 :: a.toList := fun t a => by
    show t :: (Leb128.encode a.toList.length ++ a.toList) = _
    rw [a.toList_length, hlength]
    rfl
  show Bytes.ofString "PayTPv1-attest" ++ 0x00 :: ((Tlv.Field.array 0x00 nonce).encode ++
    ((Tlv.Field.array 0x01 entryId).encode ++ [])) = _
  rw [hfield, hfield, attestMessage, List.append_nil]
  rfl

theorem act_eq_ok {book : EntryBook} (hc : s.chain.entries.lookup entryId = some c) :
    s.chain.act entryId op now = .ok book ↔ ∃ c', c.apply now op = .ok c' ∧
      book = s.chain.put entryId c' := by
  have hentry : s.chain.entry entryId = .ok c := okOr_eq_ok.2 hc
  unfold EntryBook.act
  simp only [hentry, bind_eq_ok, Except.ok.injEq, exists_eq_left', pure_eq_ok, @eq_comm _ book]

theorem chainRun_eq (ha : Aligned suite s) (hr : acts r = some (entryId, op))
    (hvalid : Valid suite s (now, r)) (he : s.host.entries.lookup entryId = some e)
    (hc : s.chain.entries.lookup entryId = some c) (hsame : SameEntry e c) :
    s.chainRun suite now r = s.chain.act entryId op now := by
  have hentry : s.chain.entry entryId = .ok c := okOr_eq_ok.2 hc
  rcases r <;> cases hr
  case attest signed =>
    have hsig := hvalid e he
    rw [PurchaseInstance.checkSig, require_eq_ok] at hsig
    simp only [Bool.and_eq_true, beq_iff_eq] at hsig
    obtain ⟨⟨⟨hkind, hid⟩, hnonce⟩, hverify⟩ := hsig
    have hmessage : coveredBytes signed.kind signed.nonce signed.entryId =
        attestMessage c.nonce (c.id suite.toCrypto) := by
      rw [hkind, hid, hnonce, ha.named _ c hc, coveredBytes_attestation]
      exact congrArg (attestMessage · _) (congrArg EntryTerms.nonce hsame.terms).symm
    rw [chainRun, EntryBook.attestDetached, hentry, hmessage, ← ha.merchantKey, hverify]
    simp [bind, Except.bind, require]
  case cancel signed signers =>
    rw [chainRun, EntryBook.cancel, ← ha.merchantKey]
    simp [bind, Except.bind, require, hvalid.1]
  all_goals rfl

theorem Aligned.lookup (ha : Aligned suite s) (entryId : ByteArr 32) :
    (s.host.entries.lookup entryId = none ∧ s.chain.entries.lookup entryId = none) ∨
      ∃ e c, s.host.entries.lookup entryId = some e ∧ s.chain.entries.lookup entryId = some c ∧
        SameEntry e c := by
  have hrel := ha.entries entryId
  rcases he : s.host.entries.lookup entryId with _ | e <;>
    rcases hc : s.chain.entries.lookup entryId with _ | c <;> rw [he, hc] at hrel
  · exact .inl ⟨rfl, rfl⟩
  · cases hrel
  · cases hrel
  · rcases hrel with ⟨hsame⟩ | _
    exact .inr ⟨e, c, rfl, rfl, hsame⟩

/-- The two entries of a name are replaced. -/
theorem Aligned.insert (ha : Aligned suite s) {host : PurchaseInstance}
    (hkey : host.merchantKey = s.host.merchantKey)
    (hseed : host.seedInstance = s.host.seedInstance)
    (hentries : host.entries = s.host.entries.insert entryId e) (hsame : SameEntry e c)
    (hid : c.id suite.toCrypto = entryId) :
    Aligned suite { host, chain := s.chain.put entryId c } where
  merchantKey := hkey.trans ha.merchantKey
  seedInstance := hseed.trans ha.seedInstance
  entries := fun k => by
    dsimp only [EntryBook.put]
    rw [hentries, HashMap.lookup_insert_ite, HashMap.lookup_insert_ite]
    split_ifs
    · exact .some hsame
    · exact ha.entries k
  named := fun k c' h => by
    dsimp only [EntryBook.put] at h
    rw [HashMap.lookup_insert_ite] at h
    split_ifs at h with hk
    · cases h
      rw [hk, hid]
    · exact ha.named k c' h

theorem late_eq (hr : acts r = some (entryId, op)) (he : s.host.entries.lookup entryId = some e) :
    late s (now, r) = e.late now op := by
  rcases r <;> cases hr <;> simp [late, he, PurchaseInstance.Entry.late]

theorem late_absent (hr : acts r = some (entryId, op))
    (he : s.host.entries.lookup entryId = none) : late s (now, r) = false := by
  rcases r <;> cases hr <;> simp [late, he]

/-- An attestation or a cancellation that comes too late is accepted on the rail. -/
theorem next_of_late (h : e.late now op = true) : (e.next now op).isSome = true := by
  rcases op <;> simp [PurchaseInstance.Entry.late] at h <;>
    simp [PurchaseInstance.Entry.next, h.1, PurchaseInstance.State.active]

theorem accepts_of_eq (h : (step suite s (now, r)).2.1 = (step suite s (now, r)).2.2) :
    Accepts suite s (now, r) := by
  unfold Accepts
  rcases r <;> dsimp only
  case distribute | refund =>
    intro hchain
    rw [h]
    exact hchain
  all_goals exact h

/-- What the rail has paid out the chain may refuse to. -/
theorem accepts_of_settle (hr : acts r = some (entryId, op)) (hop : op = .distribute ∨ op = .refund)
    (h : (step suite s (now, r)).2.1 = true) : Accepts suite s (now, r) := by
  rcases hop with rfl | rfl <;> rcases r <;> cases hr <;> exact fun _ => h

theorem accepts_iff (hr : acts r = some (entryId, op)) (hop : op ≠ .distribute ∧ op ≠ .refund) :
    Accepts suite s (now, r) ↔ (step suite s (now, r)).2.1 = (step suite s (now, r)).2.2 := by
  rcases r <;> cases hr
  case distribute => exact absurd rfl hop.1
  case refund => exact absurd rfl hop.2
  all_goals exact Iff.rfl

theorem late_of_settle (hop : op = .distribute ∨ op = .refund) : e.late now op = false := by
  rcases hop with rfl | rfl <;> rfl

theorem Performs.ok {next : Option PurchaseInstance.State} {x : Except EntryError PurchaseInstance}
    {state : PurchaseInstance.State} (h : s.host.Performs entryId e next x)
    (hnext : next = some state) : ∃ host, x = .ok host ∧ s.host.Brought entryId e state host := by
  subst hnext
  rcases x with err | host
  · cases h
  · exact ⟨host, rfl, h⟩

theorem Performs.error {next : Option PurchaseInstance.State}
    {x : Except EntryError PurchaseInstance} (h : s.host.Performs entryId e next x)
    (hnext : next = none) : ∃ err, x = .error err := by
  subst hnext
  rcases x with err | host
  · exact ⟨err, rfl⟩
  · cases h

/-- The chain accepts: so does the rail, and not too late. -/
theorem step_accepted (ha : Aligned suite s) (hvalid : Valid suite s (now, r))
    (hr : acts r = some (entryId, op)) (he : s.host.entries.lookup entryId = some e)
    (hc : s.chain.entries.lookup entryId = some c) (hsame : SameEntry e c) {c' : Kit.Entry}
    (happly : c.apply now op = .ok c') :
    late s (now, r) = false ∧ Accepts suite s (now, r) ∧
      Aligned suite (step suite s (now, r)).1 := by
  obtain ⟨state, hnext, hsame'⟩ := hsame.next_of_apply happly
  obtain ⟨host, hhost, hbrought⟩ := Performs.ok (hostRun_performs hr hvalid he) hnext
  have hchain : s.chainRun suite now r = .ok (s.chain.put entryId c') :=
    (chainRun_eq ha hr hvalid he hc hsame).trans ((act_eq_ok hc).2 ⟨c', happly, rfl⟩)
  have hstep : step suite s (now, r) =
      ({ host, chain := s.chain.put entryId c' }, true, true) := by
    simp [step, hhost, hchain, Except.toOption]
  have hid : c'.id suite.toCrypto = entryId := by
    rw [(Kit.Entry.apply_kept happly).id_eq, ha.named entryId c hc]
  refine ⟨?_, accepts_of_eq (by rw [hstep]), ?_⟩
  · rw [late_eq hr he]
    by_cases hop : op = .distribute ∨ op = .refund
    · exact late_of_settle hop
    · exact (hsame.apply_isOk_iff hnext (not_or.1 hop)).1 ⟨c', happly⟩
  · rw [hstep]
    exact ha.insert hbrought.merchantKey hbrought.seedInstance hbrought.entries hsame' hid

/-- The chain refuses: so does the rail, but for what it has paid out and what comes too late. -/
theorem step_refused (ha : Aligned suite s) (hvalid : Valid suite s (now, r))
    (hr : acts r = some (entryId, op)) (he : s.host.entries.lookup entryId = some e)
    (hc : s.chain.entries.lookup entryId = some c) (hsame : SameEntry e c)
    (happly : ¬ ∃ c', c.apply now op = .ok c') :
    (late s (now, r) = true ∧ ¬ Accepts suite s (now, r)) ∨
      (late s (now, r) = false ∧ Accepts suite s (now, r) ∧
        Aligned suite (step suite s (now, r)).1) := by
  obtain ⟨err, hchain⟩ : ∃ err, s.chainRun suite now r = .error err := by
    rcases hrun : s.chainRun suite now r with err | book
    · exact ⟨err, rfl⟩
    · obtain ⟨c', hok, -⟩ := (act_eq_ok hc).1
        ((chainRun_eq ha hr hvalid he hc hsame).symm.trans hrun)
      exact absurd ⟨c', hok⟩ happly
  have hperforms := hostRun_performs hr hvalid he
  rw [late_eq hr he]
  rcases hnext : e.next now op with _ | state
  · obtain ⟨err', hhost⟩ := Performs.error hperforms hnext
    have hstep : step suite s (now, r) = (s, false, false) := by
      simp [step, hhost, hchain, Except.toOption]
    refine .inr ⟨?_, accepts_of_eq (by rw [hstep]), by rw [hstep]; exact ha⟩
    by_contra hlate
    have hsome := next_of_late (Bool.not_eq_false _ ▸ hlate)
    rw [hnext] at hsome
    cases hsome
  · obtain ⟨host, hhost, hbrought⟩ := Performs.ok hperforms hnext
    have hstep : step suite s (now, r) = ({ s with host }, true, false) := by
      simp [step, hhost, hchain, Except.toOption]
    by_cases hop : op = .distribute ∨ op = .refund
    · refine .inr ⟨late_of_settle hop, accepts_of_settle hr hop (by rw [hstep]), ?_⟩
      rw [hstep]
      obtain rfl := PurchaseInstance.Entry.next_of_settle hop hnext
      have hinsert := ha.insert hbrought.merchantKey hbrought.seedInstance hbrought.entries hsame
        (ha.named entryId c hc)
      rwa [EntryBook.put, HashMap.insert_of_lookup hc] at hinsert
    · left
      constructor
      · by_contra hlate
        exact happly ((hsame.apply_isOk_iff hnext (not_or.1 hop)).2 (Bool.not_eq_true _ ▸ hlate))
      · rw [accepts_iff hr (not_or.1 hop), hstep]
        rintro ⟨⟩

/-- Nothing happens to an entry that is not there. -/
theorem step_absent (hr : acts r = some (entryId, op))
    (he : s.host.entries.lookup entryId = none) (hc : s.chain.entries.lookup entryId = none) :
    step suite s (now, r) = (s, false, false) := by
  have hentry : s.host.entry entryId = .error .notFound := by
    rw [PurchaseInstance.entry, he]
    rfl
  have hentry' : s.chain.entry entryId = .error .runtime := by
    rw [EntryBook.entry, hc]
    rfl
  have hact : ∀ op, s.chain.act entryId op now = .error .runtime := fun op => by
    rw [EntryBook.act, hentry']
    rfl
  have hhost : (s.hostRun suite now r).toOption = none := by
    rcases r <;> cases hr <;>
      simp only [hostRun, PurchaseInstance.attest, PurchaseInstance.cancel,
        PurchaseInstance.claimLapsed, PurchaseInstance.openReclaim,
        PurchaseInstance.executeReclaim, hostPaid, hentry] <;> rfl
  have hchain : (s.chainRun suite now r).toOption = none := by
    rcases r <;> cases hr
    case attest =>
      rw [chainRun, EntryBook.attestDetached, hentry']
      rfl
    case cancel signed signers =>
      rw [chainRun, EntryBook.cancel]
      rcases hsigns : decide (s.chain.inst.merchantKey ∈ signers) <;>
        simp [bind, Except.bind, require, hact, Except.toOption]
    all_goals
      rw [chainRun, hact]
      rfl
  simp [step, hhost, hchain]

/-- What both require of a funding. -/
def Fundable (suite : Suite) (s : Lifecycle) (t : EntryTerms) (now : ℕ) : Prop :=
  t.amount ≠ 0 ∧ now ≤ t.tLapse ∧ t.tOpen ≤ t.tLapse ∧
    deriveEntryId suite.toCrypto s.chain.inst.seedInstance t ∉ s.chain.entries.keys

theorem fund_ok {t : EntryTerms} (refundAccount : Pubkey) (hamount : t.amount ≤ U64_MAX)
    (h : Fundable suite s t now) : ∃ c : Kit.Entry, c.toEntryTerms = t ∧
      c.seedInstance = s.chain.inst.seedInstance ∧ c.state = .funded ∧
      s.chain.fund suite (deriveEntryId suite.toCrypto s.chain.inst.seedInstance t) t
          refundAccount now =
        .ok (s.chain.put (deriveEntryId suite.toCrypto s.chain.inst.seedInstance t) c) := by
  obtain ⟨hpos, hlapse, hopen, hfresh⟩ := h
  refine ⟨⟨t, s.chain.inst.seedInstance, 0, .funded, false, refundAccount⟩, rfl, rfl, rfl, ?_⟩
  unfold EntryBook.fund Kit.Entry.fund
  simp only [bind_eq_ok, require_eq_ok, decide_eq_true_eq, beq_iff_eq, pure_eq_ok, exists_const]
  exact ⟨hfresh, _, ⟨by omega, hamount, hopen, trivial, hlapse, trivial, rfl⟩, rfl⟩

theorem fundable_of_ok {t : EntryTerms} {refundAccount : Pubkey} {book : EntryBook}
    (h : s.chain.fund suite (deriveEntryId suite.toCrypto s.chain.inst.seedInstance t) t
      refundAccount now = .ok book) : Fundable suite s t now := by
  unfold EntryBook.fund Kit.Entry.fund at h
  simp only [bind_eq_ok, require_eq_ok, decide_eq_true_eq, pure_eq_ok, exists_const] at h
  obtain ⟨hfresh, _, ⟨hpos, -, hopen, -, hlapse, -, -⟩, -⟩ := h
  exact ⟨by omega, hlapse, hopen, hfresh⟩

theorem Aligned.keys (ha : Aligned suite s) (k : ByteArr 32) :
    k ∉ s.host.entries.keys ↔ k ∉ s.chain.entries.keys := by
  rw [Finmap.mem_keys, Finmap.mem_keys, ← Finmap.lookup_eq_none, ← Finmap.lookup_eq_none]
  rcases ha.lookup k with ⟨he, hc⟩ | ⟨e, c, he, hc, -⟩ <;> simp [he, hc]

theorem step_fund (ha : Aligned suite s) {t : EntryTerms} {refundPtr : String}
    {refundAccount : Pubkey} (hamount : t.amount ≤ U64_MAX) :
    Accepts suite s (now, .fund t refundPtr refundAccount) ∧
      Aligned suite (step suite s (now, .fund t refundPtr refundAccount)).1 := by
  have hiff : ∀ x, s.host.fundEntry suite t refundPtr now = .ok x ↔ Fundable suite s t now ∧ _ :=
    fun x => by rw [PurchaseInstance.fundEntry_eq_ok, ha.seedInstance, ha.keys, Fundable]
  by_cases hreq : Fundable suite s t now
  · obtain ⟨c, hterms, hseed, hstate, hchain⟩ := fund_ok refundAccount hamount hreq
    have hhost := (hiff _).2 ⟨hreq, rfl⟩
    have hid : c.id suite.toCrypto =
        deriveEntryId suite.toCrypto s.chain.inst.seedInstance t := by
      rw [Kit.Entry.id, hterms, hseed]
    have hrun : s.chainRun suite now (.fund t refundPtr refundAccount) = _ := hchain
    generalize deriveEntryId suite.toCrypto s.chain.inst.seedInstance t = entryId at *
    obtain ⟨host, hrun', hkey, hseed', e, hentries, hsame⟩ : ∃ host,
        s.hostRun suite now (.fund t refundPtr refundAccount) = .ok host ∧
          host.merchantKey = s.host.merchantKey ∧ host.seedInstance = s.host.seedInstance ∧
          ∃ e, host.entries = s.host.entries.insert entryId e ∧ SameEntry e c :=
      ⟨_, congrArg (Prod.snd <$> ·) hhost, rfl, ha.seedInstance.symm, _, rfl, hterms, hstate,
        by rintro _ ⟨⟩⟩
    have hstep : step suite s (now, .fund t refundPtr refundAccount) =
        ({ host, chain := s.chain.put entryId c }, true, true) := by
      simp [step, hrun, hrun', Except.toOption]
    refine ⟨accepts_of_eq (by rw [hstep]), ?_⟩
    rw [hstep]
    exact ha.insert hkey hseed' hentries hsame hid
  · have hhost : (s.host.fundEntry suite t refundPtr now).toOption = none := by
      rcases hrun : s.host.fundEntry suite t refundPtr now with err | x
      · rfl
      · exact absurd ((hiff x).1 hrun).1 hreq
    have hchain : (s.chainRun suite now (.fund t refundPtr refundAccount)).toOption = none := by
      rcases hrun : s.chainRun suite now (.fund t refundPtr refundAccount) with err | book
      · rfl
      · exact absurd (fundable_of_ok hrun) hreq
    have hstep : step suite s (now, .fund t refundPtr refundAccount) = (s, false, false) := by
      have hhost' : (s.hostRun suite now (.fund t refundPtr refundAccount)).toOption = none := by
        rw [hostRun]
        rcases hrun : s.host.fundEntry suite t refundPtr now with err | x
        · rfl
        · rw [hrun] at hhost
          cases hhost
      simp [step, hhost', hchain]
    refine ⟨accepts_of_eq (by rw [hstep]), ?_⟩
    rw [hstep]
    exact ha

/-- Aligned instances agree on a request exactly if it does not come too late, and stay aligned. -/
theorem step_agrees (ha : Aligned suite s) (hvalid : Valid suite s (now, r)) :
    (late s (now, r) = true ∧ ¬ Accepts suite s (now, r)) ∨
      (late s (now, r) = false ∧ Accepts suite s (now, r) ∧
        Aligned suite (step suite s (now, r)).1) := by
  rcases hr : acts r with _ | ⟨entryId, op⟩
  · rcases r with ⟨t, refundPtr, refundAccount⟩ | _ | _ | _ | _ | _ | _ | _ <;> cases hr
    exact .inr ⟨rfl, step_fund ha hvalid⟩
  · rcases ha.lookup entryId with ⟨he, hc⟩ | ⟨e, c, he, hc, hsame⟩
    · have hstep : step suite s (now, r) = (s, false, false) := step_absent hr he hc
      refine .inr ⟨late_absent hr he, accepts_of_eq (by rw [hstep]), ?_⟩
      rw [hstep]
      exact ha
    · by_cases happly : ∃ c', c.apply now op = .ok c'
      · obtain ⟨c', happly⟩ := happly
        exact .inr (step_accepted ha hvalid hr he hc hsame happly)
      · exact step_refused ha hvalid hr he hc hsame happly

theorem Aligned.status (ha : Aligned suite s) (entryId : ByteArr 32) :
    (s.host.status entryId).map EntryStatus.onChain = s.chain.status entryId := by
  rw [PurchaseInstance.status, EntryBook.status]
  rcases ha.lookup entryId with ⟨he, hc⟩ | ⟨e, c, he, hc, hsame⟩
  · rw [he, hc]
    rfl
  · rw [he, hc, Option.map_some, Option.map_some, Option.map_some, hsame.state]

end Lifecycle

end Paytp
