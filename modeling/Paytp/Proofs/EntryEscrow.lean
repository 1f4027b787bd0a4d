import Paytp.Kit.Program
import Paytp.Lib.Run

/-!
# The escrow of an entry is settled once

An instruction does one thing to one entry, by the machine of entries, and only what settles an
entry makes a payment out of its escrow. An entry in a terminal state stays in it, one that is
settled stays settled, and no two entries share an escrow.
-/

namespace Paytp

namespace Kit

namespace Entry

variable {e e' : Entry} {now : ℕ} {op : EntryOp}

theorem guardActive_eq_ok {u : Unit} : e.guardActive now = .ok u ↔
    e.state = .funded ∧ now ≤ e.tLapse ∨ e.state = .reclaimOpen := by
  rcases hs : e.state <;> simp [guardActive, hs]

/-- What each operation requires, and what it leaves. -/
theorem apply_eq_ok : e.apply now op = .ok e' ↔ match op with
    | .attest => (e.state = .funded ∧ now ≤ e.tLapse ∨ e.state = .reclaimOpen) ∧
        e' = { e with state := .attested }
    | .cancel => (e.state = .funded ∧ now ≤ e.tLapse ∨ e.state = .reclaimOpen) ∧
        e' = { e with state := .cancelled }
    | .lapse => (e.state = .funded ∧ e.tLapse < now) ∧ e' = { e with state := .lapsed }
    | .openReclaim => (e.state = .funded ∧ e.tOpen ≤ now ∧ now ≤ e.tLapse) ∧
        e' = { e with state := .reclaimOpen, openedAt := now }
    | .executeReclaim =>
        (e.state = .reclaimOpen ∧ min U64_MAX (e.openedAt + e.contest) < now) ∧
          e' = { e with state := .reclaimed }
    | .distribute => ((e.state = .attested ∨ e.state = .lapsed) ∧ e.distributed = false) ∧
        e' = { e with distributed := true }
    | .refund => ((e.state = .cancelled ∨ e.state = .reclaimed) ∧ e.distributed = false) ∧
        e' = { e with distributed := true } := by
  rcases op <;>
    simp only [apply, attest, cancel, lapse, openReclaim, executeReclaim, distribute, refund,
      bind_eq_ok, require_eq_ok, pure_eq_ok, guardActive_eq_ok, exists_const, @eq_comm _ e',
      beq_iff_eq, decide_eq_true_eq, Bool.and_eq_true, Bool.or_eq_true, Bool.not_eq_true',
      and_assoc, ge_iff_le, gt_iff_lt]

/-- Nothing changes what the name of an entry commits to, nor who is refunded. A terminal state is
kept, and so is a settlement. -/
structure Kept (e e' : Entry) : Prop where
  terms : e'.toEntryTerms = e.toEntryTerms
  seedInstance : e'.seedInstance = e.seedInstance
  refundAccount : e'.refundAccount = e.refundAccount
  state : e.state.terminal = true → e'.state = e.state
  distributed : e.distributed = true → e'.distributed = true

theorem Kept.refl (e : Entry) : e.Kept e := ⟨rfl, rfl, rfl, fun _ => rfl, fun hd => hd⟩

theorem Kept.trans {e'' : Entry} (h : e.Kept e') (h' : e'.Kept e'') : e.Kept e'' where
  terms := h'.terms.trans h.terms
  seedInstance := h'.seedInstance.trans h.seedInstance
  refundAccount := h'.refundAccount.trans h.refundAccount
  state := fun ht => (h'.state (by rw [h.state ht, ht])).trans (h.state ht)
  distributed := fun hd => h'.distributed (h.distributed hd)

theorem Kept.id_eq (crypto : Crypto) (h : e.Kept e') : e'.id crypto = e.id crypto := by
  rw [id, id, h.terms, h.seedInstance]

theorem apply_kept (h : e.apply now op = .ok e') : e.Kept e' := by
  have hop := apply_eq_ok.1 h
  rcases op with _ | _ | _ | _ | _ | _ | _ <;> obtain ⟨hreq, rfl⟩ := hop
  case distribute | refund => exact ⟨rfl, rfl, rfl, fun _ => rfl, fun _ => rfl⟩
  all_goals
    refine ⟨rfl, rfl, rfl, fun ht => absurd ht ?_, fun hd => hd⟩
    rcases hs : e.state <;> simp [hs, EntryState.terminal] at hreq ⊢

end Entry

/-! ## Payments -/

/-- Payments out of one account. What it loses is what is paid, and no other account loses. -/
structure Paid (source : Pubkey) (tokens : Tokens) (payments : List Payment) (tokens' : Tokens) :
    Prop where
  kind : ∀ key, tokens'.kind key = tokens.kind key
  given : tokens.amount source ≤ tokens'.amount source + (payments.map Payment.amount).sum
  other : ∀ key, key ≠ source → tokens.amount key ≤ tokens'.amount key
  out : ∀ p ∈ payments, p.source = source

namespace Paid

variable {source dest authority : Pubkey} {tokens tokens' tokens'' : Tokens}
  {payments : List Payment} {n : ℕ}

theorem nil : Paid source tokens [] tokens where
  kind := fun _ => rfl
  given := Nat.le_refl _
  other := fun _ _ => Nat.le_refl _
  out := nofun

theorem transfer (h : Paid source tokens payments tokens')
    (ht : tokens'.transfer source dest authority n = .ok tokens'') :
    Paid source tokens (payments ++ [{ source, dest, amount := n }]) tokens'' := by
  have hgiven := h.given
  refine ⟨fun key => (Tokens.transfer_kind ht key).trans (h.kind key), ?_, fun key hkey => ?_, ?_⟩
  · rw [List.map_append, List.sum_append, List.map_singleton, List.sum_singleton]
    dsimp only
    by_cases hne : source = dest
    · have hsame := Tokens.transfer_self hne ht
      rw [hsame]
      omega
    · obtain ⟨hle, hafter⟩ := Tokens.transfer_source hne ht
      omega
  · exact (h.other key hkey).trans (Tokens.transfer_le hkey ht)
  · intro p hp
    rcases List.mem_append.1 hp with hp | hp
    · exact h.out p hp
    · rw [List.mem_singleton.1 hp]

end Paid

/-- The shares of a division of an entry, by the first slots of the destinations. -/
def entryShares (dests : Fin 4 → Pubkey) : Shares (Fin 4) :=
  Shares.group { weight := SCHEMA_01_BP, whole := SCHEMA_01_BP_TOTAL, sum_le := by decide }
    (canonical dests)

namespace Program

variable {rt : Runtime} {ctx : Context} {s t : Program}

section shares
variable {inst escrow : Pubkey} {amount : ℕ} {dests : Fin 4 → Pubkey} {tokens tokens' : Tokens}
  {payments payments' : List Payment}

theorem claimableD_eq (seat : Fin 4) :
    Fee.claimableD amount ((entryShares dests).weight seat) SCHEMA_01_BP_TOTAL 0 =
      (entryShares dests).entitlement amount seat := by
  have hle : (entryShares dests).weight seat ≤ SCHEMA_01_BP_TOTAL :=
    (Finset.single_le_sum (fun _ _ => Nat.zero_le _) (Finset.mem_univ seat)).trans
      (entryShares dests).sum_le
  have hpos : SCHEMA_01_BP_TOTAL ≠ 0 := by decide
  exact if_neg (by omega)

/-- A slot is paid its share or nothing. -/
theorem payShare_cases {seat : Fin 4}
    (h : payShare inst escrow amount dests (entryShares dests).weight (payments, tokens) seat =
      .ok (payments', tokens')) :
    payments' = payments ∧ tokens' = tokens ∨
      payments' = payments ++
          [⟨escrow, dests seat, (entryShares dests).entitlement amount seat⟩] ∧
        tokens.transfer escrow (dests seat) inst
          ((entryShares dests).entitlement amount seat) = .ok tokens' := by
  unfold payShare at h
  rw [claimableD_eq] at h
  split_ifs at h
  · cases h
    exact .inl ⟨rfl, rfl⟩
  · simp only [bind_eq_ok, require_eq_ok] at h
    obtain ⟨-, -, h⟩ := h
    split_ifs at h
    · cases h
      exact .inl ⟨rfl, rfl⟩
    · simp only [bind_eq_ok, pure_eq_ok, Prod.mk.injEq] at h
      obtain ⟨_, ht, rfl, rfl⟩ := h
      exact .inr ⟨rfl, ht⟩

/-- What the slots are paid: to their destinations, and together no more than their shares. -/
theorem foldlM_payShare {before : Tokens} : ∀ (seats : List (Fin 4)) (payments : List Payment)
    (tokens : Tokens), Paid escrow before payments tokens →
    seats.foldlM (payShare inst escrow amount dests (entryShares dests).weight)
      (payments, tokens) = .ok (payments', tokens') →
    Paid escrow before payments' tokens' ∧
      (∀ p ∈ payments', p ∈ payments ∨ p.dest ∈ Set.range dests) ∧
      (payments'.map Payment.amount).sum ≤ (payments.map Payment.amount).sum +
        (seats.map ((entryShares dests).entitlement amount)).sum
  | [], payments, tokens, hpaid, h => by
    rw [List.foldlM_nil, pure_eq_ok] at h
    cases h
    exact ⟨hpaid, fun p hp => .inl hp, Nat.le_refl _⟩
  | seat :: seats, payments, tokens, hpaid, h => by
    rw [List.foldlM_cons, bind_eq_ok] at h
    obtain ⟨⟨payments₁, tokens₁⟩, hstep, h⟩ := h
    rw [List.map_cons, List.sum_cons]
    rcases payShare_cases hstep with ⟨rfl, rfl⟩ | ⟨rfl, ht⟩
    · obtain ⟨hpaid', hdest, hsum⟩ := foldlM_payShare seats _ _ hpaid h
      exact ⟨hpaid', hdest, by omega⟩
    · obtain ⟨hpaid', hdest, hsum⟩ := foldlM_payShare seats _ _ (hpaid.transfer ht) h
      refine ⟨hpaid', fun p hp => ?_, ?_⟩
      · rcases hdest p hp with hp | hp
        · rcases List.mem_append.1 hp with hp | hp
          · exact .inl hp
          · rw [List.mem_singleton.1 hp]
            exact .inr ⟨seat, rfl⟩
        · exact .inr hp
      · rw [List.map_append, List.sum_append, List.map_singleton, List.sum_singleton] at hsum
        dsimp only at hsum
        omega

end shares

/-! ## What an instruction does -/

/-- An instruction that settles an entry, and how. -/
def settles : Instruction → Option (Pubkey × EntryOp)
  | .distribute _ entry _ _ => some (entry, .distribute)
  | .refund _ entry _ _ => some (entry, .refund)
  | _ => none

/-- An entry as it was when it was settled, and what was paid. -/
structure Settlement where
  entry : Entry
  op : EntryOp
  payments : List Payment

/-- The escrow of an entry. -/
def escrowKey (rt : Runtime) (e : Entry) : Pubkey := rt.addr.escrowOf (e.id rt.crypto)

/-- A settlement of an entry under an instance: an attested or lapsed one is divided among the
destinations of the instance, a cancelled or reclaimed one is refunded whole to its payer. -/
def Settlement.Sound (rt : Runtime) (inst : Instance) (x : Settlement) : Prop :=
  match x.op with
  | .distribute => (x.entry.state = .attested ∨ x.entry.state = .lapsed) ∧
      (∀ p ∈ x.payments, p.source = escrowKey rt x.entry ∧ p.dest ∈ Set.range inst.dests) ∧
      (x.payments.map Payment.amount).sum ≤ x.entry.amount
  | .refund => (x.entry.state = .cancelled ∨ x.entry.state = .reclaimed) ∧
      x.payments = [⟨escrowKey rt x.entry, x.entry.refundAccount, x.entry.amount⟩]
  | _ => False

/-- What an instruction that is accepted does. -/
inductive Effect (rt : Runtime) (ctx : Context) (s : Program) :
    Instruction → List Payment → Program → Prop
  | deployed {seed : ByteArr 32} {bytes : Bytes} {inst : Instance}
      (fresh : rt.addr.instanceOf seed ∉ s.instances.keys) (hseed : inst.seedInstance = seed) :
      Effect rt ctx s (.deployInstance seed bytes) []
        { s with instances := s.instances.insert (rt.addr.instanceOf seed) inst }
  | funded {instKey : Pubkey} {entryId : ByteArr 32} {terms : EntryTerms}
      {refundAccount mint funderToken funder : Pubkey} {inst : Instance} {e : Entry}
      {tokens : Tokens}
      (hinst : s.instances.lookup instKey = some inst) (hfunder : funder ∉ s.instances.keys)
      (fresh : rt.addr.entryOf entryId ∉ s.entries.keys)
      (hid : e.id rt.crypto = entryId) (hseed : e.seedInstance = inst.seedInstance)
      (hescrow : rt.addr.escrowOf entryId ∉ s.tokens.keys)
      (ht : Tokens.transfer (s.tokens.insert (rt.addr.escrowOf entryId)
        { mint, owner := instKey, amount := 0, frozen := false }) funderToken
        (rt.addr.escrowOf entryId) funder terms.amount = .ok tokens) :
      Effect rt ctx s
        (.fundEntry instKey entryId terms refundAccount mint funderToken funder)
        [⟨funderToken, rt.addr.escrowOf entryId, terms.amount⟩]
        { s with entries := s.entries.insert (rt.addr.entryOf entryId) e, tokens }
  | moved {i : Instruction} {k : Pubkey} {e e' : Entry} (hi : settles i = none)
      (he : s.entries.lookup k = some e) (hkept : e.Kept e') :
      Effect rt ctx s i [] { s with entries := s.entries.insert k e' }
  | settled {i : Instruction} {k : Pubkey} {op : EntryOp} {inst : Instance} {e e' : Entry}
      {payments : List Payment} {tokens : Tokens}
      (hi : settles i = some (k, op)) (he : s.entries.lookup k = some e)
      (hop : e.apply ctx.now op = .ok e')
      (hinst : s.instances.lookup (rt.addr.instanceOf e.seedInstance) = some inst)
      (hpaid : Paid (escrowKey rt e) s.tokens payments tokens)
      (hsound : (Settlement.mk e op payments).Sound rt inst) :
      Effect rt ctx s i payments { s with entries := s.entries.insert k e', tokens }

/-- An entry that an instruction names with its instance. -/
theorem entryAt_eq_ok {inst entry : Pubkey} {x : Instance × Entry} :
    s.entryAt inst entry = .ok x ↔ s.instances.lookup inst = some x.1 ∧
      s.entries.lookup entry = some x.2 ∧ x.2.seedInstance = x.1.seedInstance := by
  unfold entryAt
  simp only [bind_eq_ok, okOr_eq_ok, require_eq_ok, beq_iff_eq, pure_eq_ok]
  constructor
  · rintro ⟨i, hi, e, he, -, hseed, rfl⟩
    exact ⟨hi, he, hseed⟩
  · rintro ⟨hi, he, hseed⟩
    exact ⟨x.1, hi, x.2, he, ⟨⟩, hseed, rfl⟩

theorem moved_of_setEntry {i : Instruction} {k : Pubkey} {e : Entry} {payments : List Payment}
    (op : EntryOp) (hi : settles i = none) (he : s.entries.lookup k = some e)
    (h : s.setEntry k <$> e.apply ctx.now op = .ok (payments, t)) :
    Effect rt ctx s i payments t := by
  rw [map_eq_ok] at h
  obtain ⟨e', hop, h⟩ := h
  cases h
  exact .moved hi he (Entry.apply_kept hop)

theorem merchantAction_effect {i : Instruction} {inst entry merchant : Pubkey}
    {payments : List Payment} (op : EntryOp) (hi : settles i = none)
    (h : s.merchantAction ctx inst entry merchant (fun e now => e.apply now op) =
      .ok (payments, t)) : Effect rt ctx s i payments t := by
  unfold merchantAction at h
  simp only [bind_eq_ok, require_eq_ok, entryAt_eq_ok] at h
  obtain ⟨x, ⟨-, he, -⟩, -, -, h⟩ := h
  exact moved_of_setEntry op hi he h

theorem entryOnly_effect {i : Instruction} {entry : Pubkey} {payments : List Payment}
    (op : EntryOp) (hi : settles i = none)
    (h : s.entryOnly ctx entry (fun e now => e.apply now op) = .ok (payments, t)) :
    Effect rt ctx s i payments t := by
  unfold entryOnly at h
  simp only [bind_eq_ok, okOr_eq_ok] at h
  obtain ⟨e, he, h⟩ := h
  exact moved_of_setEntry op hi he h

theorem deployInstance_effect {seed : ByteArr 32} {bytes : Bytes} {payments : List Payment}
    (h : s.deployInstance rt seed bytes = .ok (payments, t)) :
    Effect rt ctx s (.deployInstance seed bytes) payments t := by
  unfold deployInstance at h
  simp only [bind_eq_ok, require_eq_ok, decide_eq_true_eq, pure_eq_ok, Prod.mk.injEq] at h
  obtain ⟨-, fresh, -, -, -, -, _, -, _, -, _, -, _, -, _, -, _, -, rfl, rfl⟩ := h
  exact .deployed fresh rfl

theorem fundEntry_effect {inst : Pubkey} {entryId : ByteArr 32} {terms : EntryTerms}
    {refundAccount mint funderToken funder : Pubkey} {payments : List Payment}
    (h : s.fundEntry rt ctx inst entryId terms refundAccount mint funderToken funder =
      .ok (payments, t)) :
    Effect rt ctx s (.fundEntry inst entryId terms refundAccount mint funderToken funder)
      payments t := by
  unfold fundEntry Entry.fund signs at h
  simp only [bind_eq_ok, okOr_eq_ok, require_eq_ok, decide_eq_true_eq, Bool.and_eq_true,
    beq_iff_eq, pure_eq_ok, Prod.mk.injEq] at h
  obtain ⟨i, hi, -, ⟨-, hfunder⟩, -, fresh, _, ⟨-, -, -, -, -, -, -, -, -, -, -, hid, rfl⟩,
    -, hescrow, tokens, ht, rfl, rfl⟩ := h
  exact .funded hi hfunder fresh hid rfl hescrow ht

theorem distribute_effect {inst entry escrow : Pubkey} {dests : Fin 4 → Pubkey}
    {payments : List Payment}
    (h : s.distribute rt inst entry escrow dests = .ok (payments, t)) :
    Effect rt ctx s (.distribute inst entry escrow dests) payments t := by
  unfold distribute at h
  simp only [bind_eq_ok, require_eq_ok, entryAt_eq_ok, beq_iff_eq, decide_eq_true_eq,
    pure_eq_ok, Prod.mk.injEq, aggregateBpByDest_eq _ SCHEMA_01_BP (by decide)] at h
  obtain ⟨⟨i, e⟩, ⟨hi, he, hseed⟩, -, rfl, e', hop, -, rfl, -, rfl, _, hagg, ⟨_, tokens⟩, hfold,
    rfl, rfl⟩ := h
  cases hagg
  dsimp only at *
  obtain ⟨hpaid, hdest, hsum⟩ := foldlM_payShare (List.finRange 4) [] s.tokens Paid.nil hfold
  refine .settled (show settles _ = some (entry, .distribute) from rfl) he hop
    (by rw [hseed]; exact hi) hpaid ?_
  obtain ⟨⟨hstate, -⟩, -⟩ := Entry.apply_eq_ok.1 (show e.apply ctx.now .distribute = _ from hop)
  refine ⟨hstate, fun p hp => ⟨hpaid.out p hp, (hdest p hp).resolve_left (List.not_mem_nil)⟩, ?_⟩
  have htotal := (entryShares i.dests).sum_entitlement_le e.amount
  rw [Fin.sum_univ_def] at htotal
  rw [List.map_nil, List.sum_nil, Nat.zero_add] at hsum
  exact hsum.trans htotal

theorem refund_effect {inst entry escrow refundDest : Pubkey} {payments : List Payment}
    (h : s.refund rt inst entry escrow refundDest = .ok (payments, t)) :
    Effect rt ctx s (.refund inst entry escrow refundDest) payments t := by
  unfold refund at h
  simp only [bind_eq_ok, require_eq_ok, entryAt_eq_ok, beq_iff_eq, pure_eq_ok,
    Prod.mk.injEq] at h
  obtain ⟨⟨i, e⟩, ⟨hi, he, hseed⟩, -, rfl, e', hop, -, rfl, -, rfl, -, -, tokens, ht, rfl, rfl⟩ := h
  dsimp only at *
  refine .settled (show settles _ = some (entry, .refund) from rfl) he hop
    (by rw [hseed]; exact hi) (Paid.nil.transfer ht) ?_
  obtain ⟨⟨hstate, -⟩, -⟩ := Entry.apply_eq_ok.1 (show e.apply ctx.now .refund = _ from hop)
  exact ⟨hstate, rfl⟩

theorem run_effect {i : Instruction} {payments : List Payment}
    (h : s.run rt ctx i = .ok (payments, t)) : Effect rt ctx s i payments t := by
  rcases i with _ | _ | _ | _ | _ | _ | _ | _ | _ | _
  case deployInstance => exact deployInstance_effect h
  case fundEntry => exact fundEntry_effect h
  case attest => exact merchantAction_effect .attest rfl h
  case attestDetached =>
    unfold run attestDetached at h
    simp only [bind_eq_ok, require_eq_ok, entryAt_eq_ok] at h
    obtain ⟨x, ⟨-, he, -⟩, -, -, h⟩ := h
    exact moved_of_setEntry .attest rfl he h
  case cancel => exact merchantAction_effect .cancel rfl h
  case lapse => exact entryOnly_effect .lapse rfl h
  case openReclaim => exact entryOnly_effect .openReclaim rfl h
  case executeReclaim => exact entryOnly_effect .executeReclaim rfl h
  case distribute => exact distribute_effect h
  case refund => exact refund_effect h

/-! ## What steps keep -/

/-- Every instance is at its address. An entry's instance is deployed and owns the entry's escrow,
and entries that share an escrow are one. -/
structure WellFormed (rt : Runtime) (s : Program) : Prop where
  placed : ∀ key inst, s.instances.lookup key = some inst →
    key = rt.addr.instanceOf inst.seedInstance
  deployed : ∀ k e, s.entries.lookup k = some e →
    rt.addr.instanceOf e.seedInstance ∈ s.instances.keys
  escrow : ∀ k e, s.entries.lookup k = some e → ∃ mint frozen,
    s.tokens.kind (escrowKey rt e) = some (mint, rt.addr.instanceOf e.seedInstance, frozen)
  apart : ∀ k k' e e', s.entries.lookup k = some e → s.entries.lookup k' = some e' →
    escrowKey rt e = escrowKey rt e' → k = k'

/-- An entry is kept, and its escrow loses no more than `outflow`. -/
def EntryKept (rt : Runtime) (k : Pubkey) (outflow : ℕ) (s t : Program) : Prop :=
  ∀ e, s.entries.lookup k = some e → ∃ e', t.entries.lookup k = some e' ∧ e.Kept e' ∧
    s.tokens.amount (escrowKey rt e) ≤ t.tokens.amount (escrowKey rt e) + outflow

theorem escrowKey_kept {e e' : Entry} (h : e.Kept e') : escrowKey rt e' = escrowKey rt e :=
  congrArg rt.addr.escrowOf (h.id_eq rt.crypto)

theorem wellFormed_initial (tokens : Tokens) : (initial tokens).WellFormed rt where
  placed := fun key inst h => absurd h (by simp [initial])
  deployed := fun k e h => absurd h (by simp [initial])
  escrow := fun k e h => absurd h (by simp [initial])
  apart := fun k k' e e' h => absurd h (by simp [initial])

/-- An entry is replaced by what it is kept as, and the accounts stay those they were. -/
theorem WellFormed.replace (h : s.WellFormed rt) {k : Pubkey} {e e' : Entry} {tokens : Tokens}
    (he : s.entries.lookup k = some e) (hkept : e.Kept e')
    (hkind : ∀ key, tokens.kind key = s.tokens.kind key) :
    ({ s with entries := s.entries.insert k e', tokens } : Program).WellFormed rt := by
  have hback : ∀ k₁ e₁, (s.entries.insert k e').lookup k₁ = some e₁ →
      ∃ e₀, s.entries.lookup k₁ = some e₀ ∧ e₁.seedInstance = e₀.seedInstance ∧
        escrowKey rt e₁ = escrowKey rt e₀ := by
    intro k₁ e₁ h₁
    rw [HashMap.lookup_insert_ite] at h₁
    split_ifs at h₁ with hk
    · cases h₁
      exact ⟨e, by rw [hk, he], hkept.seedInstance, escrowKey_kept hkept⟩
    · exact ⟨e₁, h₁, rfl, rfl⟩
  refine ⟨h.placed, fun k₁ e₁ h₁ => ?_, fun k₁ e₁ h₁ => ?_, fun k₁ k₂ e₁ e₂ h₁ h₂ heq => ?_⟩
  · obtain ⟨e₀, h₀, hseed, -⟩ := hback k₁ e₁ h₁
    rw [hseed]
    exact h.deployed k₁ e₀ h₀
  · obtain ⟨e₀, h₀, hseed, hkey⟩ := hback k₁ e₁ h₁
    rw [hseed, hkey, hkind]
    exact h.escrow k₁ e₀ h₀
  · obtain ⟨e₀, h₀, -, hkey⟩ := hback k₁ e₁ h₁
    obtain ⟨e₀', h₀', -, hkey'⟩ := hback k₂ e₂ h₂
    exact h.apart k₁ k₂ e₀ e₀' h₀ h₀' (by rw [← hkey, heq, hkey'])

/-- A new entry, whose escrow is a new account. -/
theorem WellFormed.insert (h : s.WellFormed rt) {entryId : ByteArr 32} {inst : Instance}
    {instKey : Pubkey} {e : Entry} {tokens : Tokens} {mint : Pubkey}
    (hinst : s.instances.lookup instKey = some inst) (hid : e.id rt.crypto = entryId)
    (hseed : e.seedInstance = inst.seedInstance)
    (hescrow : rt.addr.escrowOf entryId ∉ s.tokens.keys)
    (hkind : ∀ key, tokens.kind key = Tokens.kind (s.tokens.insert (rt.addr.escrowOf entryId)
      { mint, owner := instKey, amount := 0, frozen := false }) key) (k : Pubkey) :
    ({ s with entries := s.entries.insert k e, tokens } : Program).WellFormed rt := by
  have hkey : instKey = rt.addr.instanceOf e.seedInstance := by
    rw [hseed]
    exact h.placed instKey inst hinst
  have hnew : escrowKey rt e = rt.addr.escrowOf entryId := congrArg rt.addr.escrowOf hid
  have hold : ∀ k₁ e₁, s.entries.lookup k₁ = some e₁ →
      escrowKey rt e₁ ≠ rt.addr.escrowOf entryId := by
    intro k₁ e₁ h₁ heq
    obtain ⟨_, _, hkind₁⟩ := h.escrow k₁ e₁ h₁
    rw [heq, Tokens.kind, Finmap.lookup_eq_none.2 hescrow] at hkind₁
    cases hkind₁
  refine ⟨h.placed, fun k₁ e₁ h₁ => ?_, fun k₁ e₁ h₁ => ?_, fun k₁ k₂ e₁ e₂ h₁ h₂ heq => ?_⟩
  · dsimp only at h₁
    rw [HashMap.lookup_insert_ite] at h₁
    split_ifs at h₁ with hk
    · cases h₁
      rw [← hkey]
      exact Finmap.mem_iff.2 ⟨inst, hinst⟩
    · exact h.deployed k₁ e₁ h₁
  · dsimp only at h₁ ⊢
    rw [HashMap.lookup_insert_ite] at h₁
    split_ifs at h₁ with hk
    · cases h₁
      refine ⟨mint, false, ?_⟩
      rw [hkind, hnew, Tokens.kind, Finmap.lookup_insert, hkey]
      rfl
    · rw [hkind, Tokens.kind, Finmap.lookup_insert_of_ne _ (hold k₁ e₁ h₁)]
      exact h.escrow k₁ e₁ h₁
  · dsimp only at h₁ h₂
    rw [HashMap.lookup_insert_ite] at h₁ h₂
    split_ifs at h₁ h₂ with hk₁ hk₂ hk₂
    · rw [hk₁, hk₂]
    · cases h₁
      exact absurd (heq.symm.trans hnew) (hold k₂ e₂ h₂)
    · cases h₂
      exact absurd (heq.trans hnew) (hold k₁ e₁ h₁)
    · exact h.apart k₁ k₂ e₁ e₂ h₁ h₂ heq

theorem Effect.wellFormed {i : Instruction} {payments : List Payment}
    (h : Effect rt ctx s i payments t) (hs : s.WellFormed rt) : t.WellFormed rt := by
  rcases h with ⟨fresh, hseed⟩ | ⟨hinst, _, _, hid, hseed, hescrow, ht⟩ | ⟨_, he, hkept⟩ |
    ⟨_, he, hop, _, hpaid, _⟩
  case deployed =>
    refine ⟨fun key inst h => ?_, fun k e h => ?_, hs.escrow, hs.apart⟩
    · dsimp only at h
      rw [HashMap.lookup_insert_ite] at h
      split_ifs at h with hk
      · cases h
        rw [hk, hseed]
      · exact hs.placed key inst h
    · rw [HashMap.keys_insert]
      exact Finset.mem_insert_of_mem (hs.deployed k e h)
  case funded => exact hs.insert hinst hid hseed hescrow (Tokens.transfer_kind ht) _
  case moved => exact hs.replace he hkept fun _ => rfl
  case settled => exact hs.replace he (Entry.apply_kept hop) hpaid.kind

/-- Only what settles an entry takes from its escrow, and no more than it pays. -/
theorem Effect.entryKept {i : Instruction} {payments : List Payment}
    (h : Effect rt ctx s i payments t) (hs : s.WellFormed rt) (k : Pubkey) :
    EntryKept rt k (if (settles i).any (fun x => x.1 = k) then
      (payments.map Payment.amount).sum else 0) s t := by
  intro e₁ h₁
  rcases h with ⟨fresh, hseed⟩ | ⟨hinst, hfunder, fresh, hid, hseed, hescrow, ht⟩ |
    ⟨hi, he, hkept⟩ | ⟨hi, he, hop, hinst, hpaid, hsound⟩
  case deployed => exact ⟨e₁, h₁, Entry.Kept.refl e₁, Nat.le_add_right _ _⟩
  case funded instKey entryId terms refundAccount mint funderToken funder inst e tokens =>
    have hne : k ≠ rt.addr.entryOf entryId := fun heq => fresh (by
      rw [← heq]
      exact Finmap.mem_iff.2 ⟨e₁, h₁⟩)
    obtain ⟨mint₁, frozen, hkind⟩ := hs.escrow k e₁ h₁
    have hnew : escrowKey rt e₁ ≠ rt.addr.escrowOf entryId := fun heq => by
      rw [heq, Tokens.kind, Finmap.lookup_eq_none.2 hescrow] at hkind
      cases hkind
    obtain ⟨mint', frozen', hauth⟩ := Tokens.transfer_authority ht
    refine ⟨e₁, (Finmap.lookup_insert_of_ne _ hne).trans h₁, Entry.Kept.refl e₁, ?_⟩
    -- The instance owns the escrow, and the funder has the key of no instance.
    have hsource : escrowKey rt e₁ ≠ funderToken := fun heq => by
      rw [← heq, Tokens.kind, Finmap.lookup_insert_of_ne _ hnew] at hauth
      rw [Tokens.kind, hauth] at hkind
      cases hkind
      exact hfunder (hs.deployed k e₁ h₁)
    have hle := Tokens.transfer_le hsource ht
    refine le_trans ?_ (hle.trans (Nat.le_add_right _ _))
    rw [Tokens.amount, Tokens.amount, Finmap.lookup_insert_of_ne _ hnew]
  case moved k₀ e e' =>
    by_cases hk : k = k₀
    · subst hk
      cases he.symm.trans h₁
      exact ⟨e', Finmap.lookup_insert _, hkept, Nat.le_add_right _ _⟩
    · exact ⟨e₁, (Finmap.lookup_insert_of_ne _ hk).trans h₁, Entry.Kept.refl e₁,
        Nat.le_add_right _ _⟩
  case settled k₀ op inst e e' tokens =>
    by_cases hk : k = k₀
    · subst hk
      cases he.symm.trans h₁
      refine ⟨e', Finmap.lookup_insert _, Entry.apply_kept hop, ?_⟩
      rw [if_pos (by rw [hi]; simp)]
      exact hpaid.given
    · refine ⟨e₁, (Finmap.lookup_insert_of_ne _ hk).trans h₁, Entry.Kept.refl e₁, ?_⟩
      exact (hpaid.other _ fun heq => hk (hs.apart k k₀ e₁ e h₁ he heq)).trans
        (Nat.le_add_right _ _)

/-! ## Runs -/

/-- A settlement of the entry that a step makes. -/
def settlementOf (rt : Runtime) (k : Pubkey) (s : Program) : Event → Option Settlement
  | .instruction i ctx =>
    match s.run rt ctx i, settles i with
    | .ok (payments, _), some (entry, op) =>
      if entry = k then (s.entries.lookup k).map fun e => ⟨e, op, payments⟩ else none
    | _, _ => none
  | _ => none

/-- What a settlement takes from the escrow. -/
def outflow (rt : Runtime) (k : Pubkey) (s : Program) (ev : Event) : ℕ :=
  ((settlementOf rt k s ev).map fun x => (x.payments.map Payment.amount).sum).getD 0

theorem settlementOf_eq_some {k : Pubkey} {ev : Event} {x : Settlement}
    (h : settlementOf rt k s ev = some x) : ∃ i ctx t, ev = .instruction i ctx ∧
      s.run rt ctx i = .ok (x.payments, t) ∧ settles i = some (k, x.op) ∧
      s.entries.lookup k = some x.entry := by
  rcases ev with ⟨i, ctx⟩ | _ | _ | _
  case instruction =>
    rcases hrun : s.run rt ctx i with err | ⟨payments, t⟩
    · simp only [settlementOf, hrun] at h
      cases h
    · rcases hi : settles i with _ | ⟨entry, op⟩
      · simp only [settlementOf, hrun, hi] at h
        cases h
      · simp only [settlementOf, hrun, hi] at h
        split_ifs at h with hk
        obtain ⟨e, he, rfl⟩ := Option.map_eq_some_iff.1 h
        exact ⟨i, ctx, t, rfl, hrun, by rw [hi, hk], he⟩
  all_goals cases h

/-- The accounts of the instances stay, and lose nothing. -/
def AccountsKept (s : Program) (tokens : Tokens) : Prop :=
  ∀ key a, s.tokens.lookup key = some a → a.owner ∈ s.instances.keys →
    ∃ a', tokens.lookup key = some a' ∧ a'.mint = a.mint ∧ a'.owner = a.owner ∧
      a.amount ≤ a'.amount

theorem accountsKept_self (s : Program) : s.AccountsKept s.tokens :=
  fun _ a ha _ => ⟨a, ha, rfl, rfl, Nat.le_refl _⟩

theorem outside_kept (s : Program) (key : Pubkey) {change : TokenAccount → TokenAccount}
    (hchange : ∀ a, (change a).mint = a.mint ∧ (change a).owner = a.owner ∧
      a.amount ≤ (change a).amount) :
    ∃ tokens, s.outside key change = { s with tokens } ∧ s.AccountsKept tokens := by
  unfold outside
  rcases hkey : s.tokens.lookup key with _ | a₀
  · exact ⟨s.tokens, rfl, s.accountsKept_self⟩
  · refine ⟨_, rfl, fun key' a ha _ => ?_⟩
    rw [HashMap.lookup_insert_ite]
    split_ifs with heq
    · rw [heq, hkey] at ha
      cases ha
      exact ⟨_, rfl, hchange a₀⟩
    · exact ⟨a, ha, rfl, rfl, Nat.le_refl _⟩

/-- What others do keeps the accounts of the instances. -/
theorem step_outside {ev : Event} (hev : ∀ i ctx, ev ≠ .instruction i ctx) :
    ∃ tokens, (step rt s ev).1 = { s with tokens } ∧ s.AccountsKept tokens := by
  rcases ev with ⟨i, ctx⟩ | ⟨key, account⟩ | ⟨key, amount⟩ | ⟨key, frozen⟩
  case instruction => exact absurd rfl (hev i ctx)
  case account =>
    by_cases hown : s.ownsAccount key = true
    · exact ⟨s.tokens, if_pos hown, s.accountsKept_self⟩
    · refine ⟨_, if_neg hown, fun key' a ha howner => ?_⟩
      have hne : key' ≠ key := fun heq => hown (by
        rw [heq] at ha
        simp [ownsAccount, ha, howner])
      exact ⟨a, (Finmap.lookup_insert_of_ne _ hne).trans ha, rfl, rfl, Nat.le_refl _⟩
  case credit => exact s.outside_kept key fun _ => ⟨rfl, rfl, Nat.le_add_right _ _⟩
  case freeze => exact s.outside_kept key fun _ => ⟨rfl, rfl, Nat.le_refl _⟩

/-- An instruction is run, with some effect, or nothing changes; or others act. -/
theorem step_cases (ev : Event) : (step rt s ev).1 = s ∨
    (∃ i ctx payments t, ev = .instruction i ctx ∧ s.run rt ctx i = .ok (payments, t) ∧
      (step rt s ev).1 = t) ∨ ∀ i ctx, ev ≠ .instruction i ctx := by
  rcases ev with ⟨i, ctx⟩ | _ | _ | _
  case instruction =>
    rcases hrun : s.run rt ctx i with err | ⟨payments, t⟩
    · left
      simp only [step, hrun]
    · refine .inr (.inl ⟨i, ctx, payments, t, rfl, hrun, ?_⟩)
      simp only [step, hrun]
  all_goals exact .inr (.inr fun _ _ => nofun)

theorem step_wellFormed (ev : Event) (hs : s.WellFormed rt) : (step rt s ev).1.WellFormed rt := by
  rcases @step_cases rt s ev with h | ⟨i, ctx, payments, t, -, hrun, h⟩ | hev
  · rw [h]
    exact hs
  · rw [h]
    exact (run_effect hrun).wellFormed hs
  · obtain ⟨tokens, h, hkeep⟩ := @step_outside rt s ev hev
    rw [h]
    refine ⟨hs.placed, hs.deployed, fun k e he => ?_, hs.apart⟩
    obtain ⟨mint, frozen, hkind⟩ := hs.escrow k e he
    obtain ⟨a, ha, hkind⟩ := Option.map_eq_some_iff.1 hkind
    obtain ⟨rfl, howner, -⟩ := by simpa only [Prod.mk.injEq] using hkind
    obtain ⟨a', ha', hmint, howner', -⟩ := hkeep _ a ha (by
      rw [howner]
      exact hs.deployed k e he)
    refine ⟨a.mint, a'.frozen, ?_⟩
    simp only [Tokens.kind, ha', Option.map_some, hmint, howner', howner]

/-- What `settles` is told of is what the run finds. -/
theorem outflow_eq {i : Instruction} {payments : List Payment} {k : Pubkey}
    (hrun : s.run rt ctx i = .ok (payments, t)) {e : Entry} (he : s.entries.lookup k = some e) :
    outflow rt k s (.instruction i ctx) = if (settles i).any (fun x => x.1 = k) then
      (payments.map Payment.amount).sum else 0 := by
  rcases hi : settles i with _ | ⟨entry, op⟩
  · simp [outflow, settlementOf, hrun, hi]
  · by_cases hk : entry = k <;> simp [outflow, settlementOf, hrun, hi, hk, he]

theorem step_entryKept (k : Pubkey) (ev : Event) (hs : s.WellFormed rt) :
    EntryKept rt k (outflow rt k s ev) s (step rt s ev).1 := by
  intro e he
  rcases @step_cases rt s ev with h | ⟨i, ctx, payments, t, rfl, hrun, h⟩ | hev
  · rw [h]
    exact ⟨e, he, Entry.Kept.refl e, Nat.le_add_right _ _⟩
  · rw [h, outflow_eq hrun he]
    exact (run_effect hrun).entryKept hs k e he
  · obtain ⟨tokens, h, hkeep⟩ := @step_outside rt s ev hev
    obtain ⟨mint, frozen, hkind⟩ := hs.escrow k e he
    obtain ⟨a, ha, hkind⟩ := Option.map_eq_some_iff.1 hkind
    obtain ⟨-, howner, -⟩ := by simpa only [Prod.mk.injEq] using hkind
    obtain ⟨a', ha', -, -, hle⟩ := hkeep _ a ha (by
      rw [howner]
      exact hs.deployed k e he)
    rw [h]
    refine ⟨e, he, Entry.Kept.refl e, le_trans ?_ (Nat.le_add_right _ _)⟩
    simpa only [Tokens.amount, ha, ha', Option.map_some, Option.getD_some] using hle

/-- What stays as it is of the instances and of one entry. -/
structure Kept (k : Pubkey) (s t : Program) : Prop where
  instances : ∀ key inst, s.instances.lookup key = some inst →
    t.instances.lookup key = some inst
  entry : ∀ e, s.entries.lookup k = some e → ∃ e', t.entries.lookup k = some e' ∧ e.Kept e'

theorem step_instances (ev : Event) {key : Pubkey} {inst : Instance}
    (hinst : s.instances.lookup key = some inst) :
    (step rt s ev).1.instances.lookup key = some inst := by
  rcases @step_cases rt s ev with h | ⟨i, ctx, payments, t, -, hrun, h⟩ | hev
  · rw [h]
    exact hinst
  · rw [h]
    rcases run_effect hrun with ⟨fresh, -⟩ | _ | _ | _
    case deployed =>
      refine (Finmap.lookup_insert_of_ne _ fun heq => fresh ?_).trans hinst
      rw [← heq]
      exact Finmap.mem_iff.2 ⟨inst, hinst⟩
    all_goals exact hinst
  · obtain ⟨tokens, h, -⟩ := @step_outside rt s ev hev
    rw [h]
    exact hinst

/-- A settlement is recorded. -/
theorem step_settled {k : Pubkey} {ev : Event} {x : Settlement}
    (hx : settlementOf rt k s ev = some x) :
    x.entry.distributed = false ∧ (∃ e, (step rt s ev).1.entries.lookup k = some e ∧
      e.distributed = true) ∧ ∃ inst, s.instances.lookup
        (rt.addr.instanceOf x.entry.seedInstance) = some inst ∧ x.Sound rt inst := by
  obtain ⟨i, ctx, t, rfl, hrun, hi, he⟩ := settlementOf_eq_some hx
  rcases x with ⟨e, op, payments⟩
  dsimp only at *
  have hstep : (step rt s (.instruction i ctx)).1 = t := by simp only [step, hrun]
  rw [hstep]
  rcases run_effect hrun with _ | _ | ⟨hnone, -, -⟩ | ⟨hi', he', hop, hinst, -, hsound⟩
  case deployed | funded => cases hi
  case moved => rw [hnone] at hi; cases hi
  case settled =>
    cases hi.symm.trans hi'
    cases he.symm.trans he'
    have hcases := Entry.apply_eq_ok.1 hop
    rcases op
    case distribute | refund =>
      obtain ⟨⟨-, hd⟩, rfl⟩ := hcases
      exact ⟨hd, ⟨_, Finmap.lookup_insert _, rfl⟩, _, hinst, hsound⟩
    all_goals cases hsound

/-- A step takes no more from the escrow of an entry than a settlement of the entry pays, and a
settlement is sound. -/
def SettlesSoundly (rt : Runtime) (k : Pubkey) (s : Program) (ev : Event) : Prop :=
  (∀ e, s.entries.lookup k = some e → s.tokens.amount (escrowKey rt e) ≤
    (step rt s ev).1.tokens.amount (escrowKey rt e) + outflow rt k s ev) ∧
  ∀ x, settlementOf rt k s ev = some x → ∃ inst, s.instances.lookup
    (rt.addr.instanceOf x.entry.seedInstance) = some inst ∧ x.Sound rt inst

theorem step_settlesSoundly (k : Pubkey) (ev : Event) (hs : s.WellFormed rt) :
    SettlesSoundly rt k s ev := by
  refine ⟨fun e he => ?_, fun x hx => (step_settled hx).2.2⟩
  obtain ⟨-, -, -, hle⟩ := step_entryKept k ev hs e he
  exact hle

theorem run_kept (k : Pubkey) (s : Program) (es : List Event) (hs : s.WellFormed rt) :
    Kept k s (exec (step rt) s es) := by
  refine exec_related (P := WellFormed rt) (R := Kept k) (fun s => ⟨fun _ _ h => h, fun e he =>
    ⟨e, he, Entry.Kept.refl e⟩⟩) (fun s t u hst htu => ⟨fun key inst h => htu.instances key inst
      (hst.instances key inst h), fun e he => ?_⟩) (fun s ev => step_wellFormed ev)
    (fun s ev hs => ⟨fun key inst => step_instances ev, fun e he => ?_⟩) s es hs
  · obtain ⟨e', he', hkept⟩ := hst.entry e he
    obtain ⟨e'', he'', hkept'⟩ := htu.entry e' he'
    exact ⟨e'', he'', hkept.trans hkept'⟩
  · obtain ⟨e', he', hkept, -⟩ := step_entryKept k ev hs e he
    exact ⟨e', he', hkept⟩

/-- A settled entry stays settled and is not settled again. -/
theorem settled_once (k : Pubkey) (s : Program) (es : List Event) (hs : s.WellFormed rt) :
    (marks (step rt) (settlementOf rt k) s es).length ≤ 1 := by
  have hinv : Along (step rt) (fun s _ => s.WellFormed rt) s es :=
    along_of_invariant (fun s ev => step_wellFormed ev) s es hs
  refine marks_length_le_one (P := fun s => ∃ e, s.entries.lookup k = some e ∧
    e.distributed = true) (fun s ev _ hsome => ?_) (fun s ev hs hP => ?_)
    (fun s ev _ hP => ?_) s es hinv
  · obtain ⟨x, hx⟩ := Option.isSome_iff_exists.1 hsome
    exact (step_settled hx).2.1
  · obtain ⟨e, he, hd⟩ := hP
    obtain ⟨e', he', hkept, -⟩ := step_entryKept k ev hs e he
    exact ⟨e', he', hkept.distributed hd⟩
  · obtain ⟨e, he, hd⟩ := hP
    rcases hx : settlementOf rt k s ev with _ | x
    · rfl
    · obtain ⟨_, _, _, -, -, -, hentry⟩ := settlementOf_eq_some hx
      cases he.symm.trans hentry
      rw [(step_settled hx).1] at hd
      exact absurd hd Bool.false_ne_true

/-- Over any run: an entry keeps its terms, its payer and any terminal state, and its instance the
destinations; it is settled at most once, soundly, and nothing else takes from its escrow. -/
theorem escrow_settled (rt : Runtime) (tokens : Tokens) (k : Pubkey) (es fs : List Event) :
    Kept k (exec (step rt) (initial tokens) es) (exec (step rt) (initial tokens) (es ++ fs)) ∧
      (marks (step rt) (settlementOf rt k) (initial tokens) es).length ≤ 1 ∧
      Along (step rt) (SettlesSoundly rt k) (initial tokens) es := by
  have hinit : (initial tokens).WellFormed rt := wellFormed_initial tokens
  have hinv : Along (step rt) (fun s _ => s.WellFormed rt) (initial tokens) es :=
    along_of_invariant (fun s ev => step_wellFormed ev) _ es hinit
  refine ⟨?_, settled_once k _ es hinit, hinv.mono fun s ev => step_settlesSoundly k ev⟩
  rw [exec_append]
  exact run_kept k _ fs (exec_invariant (fun s ev => step_wellFormed ev) _ es hinit)

end Program

end Kit

end Paytp
