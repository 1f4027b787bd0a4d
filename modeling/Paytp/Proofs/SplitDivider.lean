import Paytp.Kit.Split
import Paytp.Lib.Reorder

/-!
# The split divides all it receives

The seats that draw for others are recipients, with the points of all the seats they draw for.
Nobody is on record with more than its share of what the vault received so far: a claim brings
its recipient up to its share, and what it is owed is in the vault, whatever was claimed before.
-/

namespace Paytp

namespace Kit

/-- The points of each seat. -/
def SEAT_BP : Fin 5 → ℕ := Fin.cons SPLIT_MERCHANT_BP SCHEMA_01_BP

def seatShares : Shares (Fin 5) where
  weight := SEAT_BP
  whole := SPLIT_BP_TOTAL
  sum_le := by decide

namespace Split

variable (split : Split)

/-- What the destination of a seat that draws was paid. -/
def paidTo : Fin 5 → ℕ := Shares.grouped split.drawer split.paid

/-- The points of the destination of a seat that draws. -/
def bpTo : Fin 5 → ℕ := Shares.grouped split.drawer SEAT_BP

/-- The shares of the recipients. -/
def shares : Shares (Fin 5) := seatShares.group split.drawer

/-! ## Recipients -/

@[simp] theorem drawer_zero : split.drawer 0 = 0 := rfl

@[simp] theorem drawer_succ (m : Fin 4) : split.drawer m.succ = (canonical split.dests m).succ :=
  rfl

theorem grouped_drawer_zero (f : Fin 5 → ℕ) : Shares.grouped split.drawer f 0 = f 0 := by
  rw [Shares.grouped, Finset.sum_filter, Fin.sum_univ_succ]
  simp

theorem grouped_drawer_succ (f : Fin 5 → ℕ) (m : Fin 4) :
    Shares.grouped split.drawer f m.succ =
      Shares.grouped (canonical split.dests) (fun i => f i.succ) m := by
  rw [Shares.grouped, Finset.sum_filter, Fin.sum_univ_succ, Shares.grouped, Finset.sum_filter]
  simp [Fin.succ_inj, (Fin.succ_ne_zero m).symm]

/-- The kit puts the weights of the roles together as the recipients do. -/
theorem aggregate_bpOf : ∃ meedBpD, aggregateBpByDest split.dests SCHEMA_01_BP =
    .ok (canonical split.dests, meedBpD) ∧ ∀ seat, bpOf meedBpD seat = split.bpTo seat := by
  refine ⟨_, aggregateBpByDest_eq split.dests SCHEMA_01_BP (by decide), fun seat => ?_⟩
  rcases Fin.eq_zero_or_eq_succ seat with rfl | ⟨m, rfl⟩
  · exact (split.grouped_drawer_zero SEAT_BP).symm
  · exact (split.grouped_drawer_succ SEAT_BP m).symm

theorem sum_paidTo : ∑ seat, split.paidTo seat = ∑ seat, split.paid seat :=
  Shares.sum_grouped split.drawer split.paid

theorem paidTo_le (seat : Fin 5) : split.paidTo seat ≤ ∑ j, split.paid j := by
  rw [← split.sum_paidTo]
  exact Finset.single_le_sum (fun _ _ => Nat.zero_le _) (Finset.mem_univ seat)

theorem bpTo_le (seat : Fin 5) : split.bpTo seat ≤ SPLIT_BP_TOTAL :=
  (Finset.single_le_sum (fun _ _ => Nat.zero_le _) (Finset.mem_univ seat)).trans
    split.shares.sum_le

variable {split} {seat : Fin 5} {balance : ℕ}

/-- A record brings the destination of the seat to the new amount and leaves the others. -/
theorem paidTo_record (hseat : split.drawer seat = seat) (newPaid : ℕ) :
    (split.record seat newPaid).paidTo = Function.update split.paidTo seat newPaid := by
  funext c
  show ∑ j with split.drawer j = c, _ = _
  by_cases hc : c = seat
  · subst hc
    rw [Function.update_self, Finset.sum_eq_single c]
    · exact if_pos rfl
    · intro j hj hne
      rw [record]
      dsimp only
      rw [if_neg hne, if_pos (Finset.mem_filter.1 hj).2]
    · intro hnot
      exact absurd (by simpa using hseat) hnot
  · rw [Function.update_of_ne hc]
    refine Finset.sum_congr rfl fun j hj => ?_
    have hj : split.drawer j = c := (Finset.mem_filter.1 hj).2
    have hne : j ≠ seat := fun heq => hc (by rw [← hj, heq, hseat])
    rw [record]
    dsimp only
    rw [if_neg hne, if_neg (by rw [hj]; exact hc)]

/-- What a seat is owed: what its share of all that was received exceeds its payments by. -/
theorem owed_eq_ok {amount paidDest : ℕ} :
    split.owed balance (split.bpTo seat) seat = .ok (amount, paidDest) ↔
      balance + ∑ j, split.paid j ≤ U128_MAX ∧ paidDest = split.paidTo seat ∧
        amount = split.shares.entitlement (balance + ∑ j, split.paid j) seat -
          split.paidTo seat ∧ amount ≤ U64_MAX := by
  have hsum : (List.ofFn split.paid).sum = ∑ j, split.paid j := List.sum_ofFn
  have hgroup : ((split.drawnBy seat).map split.paid).sum = split.paidTo seat :=
    Multiset.sum_coe _
  have hclaim (total paid : ℕ) : Fee.claimableD total (split.bpTo seat) SPLIT_BP_TOTAL paid =
      split.shares.entitlement total seat - paid :=
    if_neg (by
      have := split.bpTo_le seat
      have hpos : SPLIT_BP_TOTAL ≠ 0 := by decide
      omega)
  have hle := split.paidTo_le seat
  rw [owed]
  simp only [bind_eq_ok, checkedSum_eq_ok, require_eq_ok, decide_eq_true_eq, pure_eq_ok,
    Prod.mk.injEq, hsum, hgroup, hclaim]
  unfold checkedAdd
  constructor
  · rintro ⟨_, ⟨-, rfl⟩, total, htotal, _, ⟨-, rfl⟩, -, hamt, rfl, rfl⟩
    split_ifs at htotal with hmax
    cases htotal
    exact ⟨hmax, rfl, rfl, hamt⟩
  · rintro ⟨hmax, rfl, rfl, hamt⟩
    exact ⟨_, ⟨by omega, rfl⟩, _, if_pos hmax, _, ⟨by omega, rfl⟩, ⟨⟩, hamt, rfl, rfl⟩

end Split

namespace SplitVault

variable {addr : Addresses} {s t : SplitVault} {seat : ℕ} {vault dest : Pubkey} {amount : ℕ}

/-- All that the vault received: what it holds and what is on record as paid. -/
def received (addr : Addresses) (s : SplitVault) : ℕ :=
  s.balance addr + ∑ seat, s.split.paid seat

/-- No seat is paid at the vault, and nobody is on record with more than its share. -/
structure Sound (addr : Addresses) (s : SplitVault) : Prop where
  apart : ∀ seat, s.split.destOf seat ≠ s.split.vaultKey addr
  within : s.split.shares.Within (s.received addr) s.split.paidTo

theorem Sound.owed_le (h : s.Sound addr) (seat : Fin 5) :
    s.split.shares.entitlement (s.received addr) seat - s.split.paidTo seat ≤ s.balance addr := by
  have hle := h.within.owed_le seat
  rw [s.split.sum_paidTo, received] at hle
  rw [received]
  omega

/-! ## Claims -/

/-- What a claim that is not refused does: nothing for a seat another one draws for, or where
nothing is owed; else it pays what is owed. -/
theorem splitClaim_cases (h : s.splitClaim addr seat vault dest = .ok (amount, t)) :
    ∃ hseat : seat < 5, vault = s.split.vaultKey addr ∧ dest = s.split.destOf ⟨seat, hseat⟩ ∧
      (s.split.drawer ⟨seat, hseat⟩ ≠ ⟨seat, hseat⟩ ∧ amount = 0 ∧ t = s ∨
        s.split.drawer ⟨seat, hseat⟩ = ⟨seat, hseat⟩ ∧
          ((s.tokens.kind vault).isSome = true ∧ s.received addr ≤ U128_MAX ∧
            amount ≤ U64_MAX) ∧
          amount = s.split.shares.entitlement (s.received addr) ⟨seat, hseat⟩ -
            s.split.paidTo ⟨seat, hseat⟩ ∧
          (amount = 0 ∧ t = s ∨ 0 < amount ∧
            s.tokens.transfer vault dest (s.split.key addr) amount = .ok t.tokens ∧
            t.split = s.split.record ⟨seat, hseat⟩
              (s.split.paidTo ⟨seat, hseat⟩ + amount))) := by
  unfold splitClaim at h
  split_ifs at h with hseat
  obtain ⟨meedBpD, hagg, hbp⟩ := s.split.aggregate_bpOf
  rw [hagg] at h
  simp only [bind_eq_ok, Except.ok.injEq, exists_eq_left', require_eq_ok, beq_iff_eq] at h
  obtain ⟨-, rfl, -, rfl, h⟩ := h
  refine ⟨hseat, rfl, rfl, ?_⟩
  generalize (⟨seat, hseat⟩ : Fin 5) = seat at *
  by_cases hd : s.split.drawer seat = seat
  · rw [if_neg (not_not.2 hd), hbp] at h
    simp only [bind_eq_ok, require_eq_ok] at h
    obtain ⟨-, hthere, ⟨owed, paidDest⟩, howed, h⟩ := h
    obtain ⟨hmax, rfl, rfl, hle⟩ := Split.owed_eq_ok.1 howed
    refine .inr ⟨hd, ?_⟩
    dsimp only at h
    split_ifs at h with hzero
    · cases h
      exact ⟨⟨hthere, hmax, Nat.zero_le _⟩, hzero.symm, .inl ⟨rfl, rfl⟩⟩
    · simp only [bind_eq_ok, pure_eq_ok] at h
      obtain ⟨newPaid, hnew, tokens, htransfer, h⟩ := h
      unfold checkedAdd at hnew
      split_ifs at hnew
      cases hnew
      cases h
      exact ⟨⟨hthere, hmax, hle⟩, rfl, .inr ⟨Nat.pos_of_ne_zero hzero, htransfer, rfl⟩⟩
  · rw [if_pos hd] at h
    cases h
    exact .inl ⟨hd, rfl, rfl⟩

/-- An amount that left the vault for the destination of a seat. -/
structure Drawn (addr : Addresses) (s t : SplitVault) (seat : Fin 5) (amount : ℕ) : Prop where
  terms : t.split = { s.split with paid := t.split.paid }
  paidTo : t.split.paidTo =
    Function.update s.split.paidTo seat (s.split.paidTo seat + amount)
  le : amount ≤ s.balance addr
  balance : t.balance addr = s.balance addr - amount
  kind : ∀ key, t.tokens.kind key = s.tokens.kind key

theorem Drawn.refl (s : SplitVault) (seat : Fin 5) : Drawn addr s s seat 0 where
  terms := rfl
  paidTo := by rw [Nat.add_zero, Function.update_eq_self]
  le := Nat.zero_le _
  balance := rfl
  kind := fun _ => rfl

theorem Drawn.received {seat : Fin 5} (h : Drawn addr s t seat amount) :
    t.received addr = s.received addr := by
  have hsum := Finset.sum_update_of_mem (Finset.mem_univ seat) s.split.paidTo
    (s.split.paidTo seat + amount)
  have hrest := Finset.add_sum_erase Finset.univ s.split.paidTo (Finset.mem_univ seat)
  have hle := h.le
  rw [Finset.sdiff_singleton_eq_erase] at hsum
  rw [SplitVault.received, SplitVault.received, h.balance, ← t.split.sum_paidTo, h.paidTo, hsum,
    ← s.split.sum_paidTo]
  omega

theorem splitClaim_drawn (hs : s.Sound addr)
    (h : s.splitClaim addr seat vault dest = .ok (amount, t)) :
    ∃ hseat : seat < 5, Drawn addr s t ⟨seat, hseat⟩ amount ∧
      (s.split.drawer ⟨seat, hseat⟩ ≠ ⟨seat, hseat⟩ → amount = 0 ∧ t = s) ∧
      (s.split.drawer ⟨seat, hseat⟩ = ⟨seat, hseat⟩ → s.split.paidTo ⟨seat, hseat⟩ + amount =
        s.split.shares.entitlement (s.received addr) ⟨seat, hseat⟩) := by
  obtain ⟨hseat, rfl, rfl, hcases⟩ := splitClaim_cases h
  refine ⟨hseat, ?_⟩
  generalize (⟨seat, hseat⟩ : Fin 5) = seat at *
  have hwithin := hs.within seat
  obtain ⟨hd, rfl, rfl⟩ | ⟨hd, -, hamt, ⟨rfl, rfl⟩ | ⟨hpos, htransfer, hsplit⟩⟩ := hcases
  · exact ⟨.refl t seat, fun _ => ⟨rfl, rfl⟩, fun heq => absurd heq hd⟩
  · exact ⟨.refl t seat, fun hne => absurd hd hne, fun _ => by omega⟩
  · have hne : s.split.vaultKey addr ≠ s.split.destOf seat := (hs.apart seat).symm
    obtain ⟨hle, hleft⟩ := Tokens.transfer_source hne htransfer
    have hkey : t.split.vaultKey addr = s.split.vaultKey addr := by rw [hsplit]; rfl
    refine ⟨?_, fun hnot => absurd hd hnot, fun _ => by omega⟩
    constructor
    · rw [hsplit]
      rfl
    · rw [hsplit, Split.paidTo_record hd]
    · exact hle
    · rw [balance, hkey, hleft]
      rfl
    · exact Tokens.transfer_kind htransfer

theorem Drawn.sound (hs : s.Sound addr) {seat : Fin 5} (h : Drawn addr s t seat amount)
    (hent : s.split.paidTo seat + amount ≤ s.split.shares.entitlement (s.received addr) seat) :
    t.Sound addr := by
  have hshares : t.split.shares = s.split.shares := by
    rw [h.terms]
    rfl
  constructor
  · intro j
    rw [h.terms]
    exact hs.apart j
  · rw [h.received, h.paidTo, hshares]
    intro j
    by_cases hj : j = seat
    · rw [hj, Function.update_self]
      exact hent
    · rw [Function.update_of_ne hj]
      exact hs.within j

theorem splitClaim_sound (hs : s.Sound addr)
    (h : s.splitClaim addr seat vault dest = .ok (amount, t)) : t.Sound addr := by
  obtain ⟨hseat, hdrawn, hfolded, hdraws⟩ := splitClaim_drawn hs h
  by_cases hd : s.split.drawer ⟨seat, hseat⟩ = ⟨seat, hseat⟩
  · exact hdrawn.sound hs (hdraws hd).le
  · rw [(hfolded hd).2]
    exact hs

/-- What a claim needs not to be refused. -/
theorem splitClaim_isOk (hs : s.Sound addr) (seat : Fin 5) (hdraws : s.split.drawer seat = seat)
    (hthere : (s.tokens.kind (s.split.vaultKey addr)).isSome = true)
    (hmax : s.received addr ≤ U128_MAX)
    (howed : s.split.shares.entitlement (s.received addr) seat - s.split.paidTo seat ≤ U64_MAX)
    (hmov : s.split.shares.entitlement (s.received addr) seat - s.split.paidTo seat = 0 ∨
      Tokens.movable (s.split.key addr) (s.tokens.kind (s.split.vaultKey addr))
        (s.tokens.kind (s.split.destOf seat)) = true) :
    ∃ amount t, s.splitClaim addr seat (s.split.vaultKey addr) (s.split.destOf seat) =
      .ok (amount, t) := by
  obtain ⟨meedBpD, hagg, hbp⟩ := s.split.aggregate_bpOf
  have hcalc : s.split.owed (s.balance addr) (Split.bpOf meedBpD seat) seat = .ok
      (s.split.shares.entitlement (s.received addr) seat - s.split.paidTo seat,
        s.split.paidTo seat) := by
    rw [hbp]
    exact Split.owed_eq_ok.2 ⟨hmax, rfl, rfl, howed⟩
  rw [balance] at hcalc
  unfold splitClaim
  rw [dif_pos seat.isLt]
  simp only [Fin.eta, bind_eq_ok, require_eq_ok, hagg, Except.ok.injEq, exists_eq_left',
    beq_self_eq_true, true_and, exists_const, if_neg (not_not.2 hdraws), hthere, hcalc]
  by_cases hzero : s.split.shares.entitlement (s.received addr) seat - s.split.paidTo seat = 0
  · simp only [if_pos hzero]
    exact ⟨_, _, rfl⟩
  · have hle := hs.owed_le seat
    have hpaid := s.split.paidTo_le seat
    have hsum : s.received addr = s.balance addr + ∑ j, s.split.paid j := rfl
    have htransfer := (Tokens.transfer_eq_ok (hs.apart seat).symm).2
      ⟨hmov.resolve_left hzero, hle, rfl⟩
    simp only [if_neg hzero, bind_eq_ok, htransfer]
    exact ⟨_, _, _, if_pos (by omega), _, rfl, rfl⟩

/-! ## Runs -/

namespace Outcome

def receivedAmount : Outcome → ℕ
  | received amount => amount
  | _ => 0

def paidAmount : Outcome → ℕ
  | paid _ _ amount => amount
  | _ => 0

/-- What was paid for a seat. -/
def paidFor (seat : Fin 5) : Outcome → ℕ
  | paid s _ amount => if s = seat.val then amount else 0
  | _ => 0

end Outcome

/-- A step that moves what its outcome says. -/
structure Moved (addr : Addresses) (s : SplitVault) (o : Outcome) (t : SplitVault) : Prop where
  sound : t.Sound addr
  balance : o.paidAmount + t.balance addr = s.balance addr + o.receivedAmount
  received : t.received addr = s.received addr + o.receivedAmount
  paidTo : ∀ seat, t.split.paidTo seat = s.split.paidTo seat + o.paidFor seat

/-- More in the vault leaves the record within its shares. -/
theorem Sound.of_tokens (hs : s.Sound addr) {tokens : Tokens}
    (hle : s.balance addr ≤ tokens.amount (s.split.vaultKey addr)) :
    Sound addr { s with tokens } where
  apart := hs.apart
  within := hs.within.mono (Nat.add_le_add_right hle _)

theorem Moved.idle (hs : s.Sound addr) {o : Outcome} (hp : o.paidAmount = 0)
    (hr : o.receivedAmount = 0) (hf : ∀ seat, o.paidFor seat = 0) : Moved addr s o s :=
  ⟨hs, by rw [hp, hr, Nat.zero_add, Nat.add_zero], by rw [hr, Nat.add_zero],
    fun seat => by rw [hf seat, Nat.add_zero]⟩

theorem inflow_moved (hs : s.Sound addr) (amount : ℕ) :
    Moved addr s (s.inflow addr amount).2 (s.inflow addr amount).1 := by
  unfold inflow
  split_ifs with h
  · have hthere : (s.tokens.kind (s.split.vaultKey addr)).isSome = true := by
      simp only [Bool.and_eq_true, receives] at h
      exact Option.isSome_of_any h.1
    have hamount := Tokens.amount_setAmount (n := s.balance addr + amount) hthere
    constructor
    · refine hs.of_tokens ?_
      rw [hamount]
      exact Nat.le_add_right _ _
    · show 0 + Tokens.amount _ _ = _
      rw [hamount, Nat.zero_add]
      rfl
    · show Tokens.amount _ _ + _ = s.balance addr + _ + amount
      rw [hamount, Nat.add_right_comm]
    · exact fun seat => rfl
  · exact .idle hs rfl rfl fun _ => rfl

theorem setAccount_balance (addr : Addresses) (s : SplitVault) (key : Pubkey)
    (account : Option TokenAccount) :
    (s.setAccount addr key account).1.balance addr = s.balance addr ∧
      (s.setAccount addr key account).1.split = s.split ∧
      (s.setAccount addr key account).2 = .none := by
  unfold setAccount
  split_ifs with hkey
  · exact ⟨rfl, rfl, rfl⟩
  · rcases account with _ | a
    · exact ⟨congrArg (Option.getD · 0) (congrArg _ (Finmap.lookup_erase_ne (Ne.symm hkey))),
        rfl, rfl⟩
    · exact ⟨congrArg (Option.getD · 0)
        (congrArg _ (Finmap.lookup_insert_of_ne _ (Ne.symm hkey))), rfl, rfl⟩

theorem claim_moved (hs : s.Sound addr) (seat : ℕ) (vault dest : Pubkey) :
    Moved addr s (s.claim addr seat vault dest).2 (s.claim addr seat vault dest).1 := by
  unfold claim
  rcases h : s.splitClaim addr seat vault dest with e | ⟨amount, t⟩
  · exact .idle hs rfl rfl fun _ => rfl
  · obtain ⟨hseat, hdrawn, -, -⟩ := splitClaim_drawn hs h
    constructor
    · exact splitClaim_sound hs h
    · show amount + _ = _ + 0
      rw [hdrawn.balance]
      have := hdrawn.le
      omega
    · exact hdrawn.received
    · intro j
      show t.split.paidTo j = _ + if seat = j.val then amount else 0
      rw [hdrawn.paidTo]
      by_cases hj : j = ⟨seat, hseat⟩
      · rw [hj, Function.update_self, if_pos rfl]
      · rw [Function.update_of_ne hj, if_neg fun heq => hj (Fin.ext heq.symm), Nat.add_zero]

theorem step_moved (hs : s.Sound addr) (e : Event) :
    Moved addr s (s.step addr e).2 (s.step addr e).1 := by
  rcases e with amount | ⟨key, account⟩ | ⟨seat, vault, dest⟩
  · exact inflow_moved hs amount
  · obtain ⟨hbalance, hsplit, hout⟩ := s.setAccount_balance addr key account
    constructor
    · constructor
      · intro seat
        rw [step, hsplit]
        exact hs.apart seat
      · rw [received, step, hbalance, hsplit]
        exact hs.within
    · rw [step, hbalance, hout]
      exact Nat.zero_add _
    · rw [SplitVault.received, SplitVault.received, step, hbalance, hsplit, hout]
      rfl
    · intro seat
      rw [step, hsplit, hout]
      rfl
  · exact claim_moved hs seat vault dest

/-- What some outcomes say together. -/
def total (amount : Outcome → ℕ) (outcomes : List Outcome) : ℕ := (outcomes.map amount).sum

theorem run_moved (hs : s.Sound addr) (es : List Event) :
    (exec (step addr) s es).Sound addr ∧
      total Outcome.paidAmount (answers (step addr) s es) + (exec (step addr) s es).balance addr =
        s.balance addr + total Outcome.receivedAmount (answers (step addr) s es) ∧
      (exec (step addr) s es).received addr =
        s.received addr + total Outcome.receivedAmount (answers (step addr) s es) ∧
      ∀ seat, (exec (step addr) s es).split.paidTo seat =
        s.split.paidTo seat + total (Outcome.paidFor seat) (answers (step addr) s es) := by
  induction es generalizing s with
  | nil =>
    exact ⟨hs, by simp [total, answers], by simp [total, answers],
      fun seat => by simp [total, answers]⟩
  | cons e es ih =>
    have hstep := step_moved hs e
    obtain ⟨hsound, hbalance, hreceived, hpaid⟩ := ih hstep.sound
    refine ⟨hsound, ?_, ?_, fun seat => ?_⟩
    · have := hstep.balance
      simp only [total, answers, List.map_cons, List.sum_cons, exec_cons] at hbalance ⊢
      omega
    · have := hstep.received
      simp only [total, answers, List.map_cons, List.sum_cons, exec_cons] at hreceived ⊢
      omega
    · have := hstep.paidTo seat
      have := hpaid seat
      simp only [total, answers, List.map_cons, List.sum_cons, exec_cons] at this ⊢
      omega

/-! ## The order of claims -/

/-- What claims can tell of a vault: its terms, what each destination was paid, what it holds and
of what kind the accounts are. -/
structure View where
  terms : Split
  paidTo : Fin 5 → ℕ
  balance : ℕ
  kind : Pubkey → Option (Pubkey × Pubkey × Bool)

def view (addr : Addresses) (s : SplitVault) : View where
  terms := { s.split with paid := fun _ => 0 }
  paidTo := s.split.paidTo
  balance := s.balance addr
  kind := s.tokens.kind

namespace View

variable (addr : Addresses) (v : View)

def received : ℕ := v.balance + ∑ seat, v.paidTo seat

def owed (seat : Fin 5) : ℕ :=
  v.terms.shares.entitlement v.received seat - v.paidTo seat

/-- Is a claim carried out? -/
structure Allows (seat : Fin 5) (vault dest : Pubkey) : Prop where
  atVault : vault = v.terms.vaultKey addr
  toDest : dest = v.terms.destOf seat
  draws : v.terms.drawer seat = seat
  there : (v.kind vault).isSome = true
  received_le : v.received ≤ U128_MAX
  owed_le : v.owed seat ≤ U64_MAX
  movable : v.owed seat = 0 ∨
    Tokens.movable (v.terms.key addr) (v.kind vault) (v.kind dest) = true

open scoped Classical in
/-- A claim brings its destination up to its share. -/
noncomputable def claim (seat : ℕ) (vault dest : Pubkey) : View :=
  if h : ∃ hseat : seat < 5, v.Allows addr ⟨seat, hseat⟩ vault dest then
    { v with
      paidTo := Function.update v.paidTo ⟨seat, h.1⟩
        (v.terms.shares.entitlement v.received ⟨seat, h.1⟩)
      balance := v.balance - v.owed ⟨seat, h.1⟩ }
  else v

noncomputable def step (v : View) : Event → View
  | .inflow amount =>
    if (v.kind (v.terms.vaultKey addr)).any (fun kind => !kind.2.2) &&
        decide (v.balance + amount ≤ U64_MAX) then
      { v with balance := v.balance + amount }
    else v
  | .account key account =>
    if key = v.terms.vaultKey addr then v
    else
      let kind := account.map fun a => (a.mint, a.owner, a.frozen)
      { v with kind := Function.update v.kind key kind }
  | .claim seat vault dest => v.claim addr seat vault dest

end View

theorem view_received (s : SplitVault) : (s.view addr).received = s.received addr :=
  congrArg (s.balance addr + ·) s.split.sum_paidTo

/-- A claim that draws changes the view in what its destination was paid and what is left. -/
theorem Drawn.view_eq {seat : Fin 5} (h : Drawn addr s t seat amount) :
    t.view addr = { s.view addr with
      paidTo := Function.update s.split.paidTo seat (s.split.paidTo seat + amount)
      balance := s.balance addr - amount } := by
  have hkind : t.tokens.kind = s.tokens.kind := funext h.kind
  rw [view, h.paidTo, h.balance, hkind, h.terms]
  rfl

theorem allows_of_claim {hseat : seat < 5} (hv : vault = s.split.vaultKey addr)
    (hd : dest = s.split.destOf ⟨seat, hseat⟩)
    (hdraws : s.split.drawer ⟨seat, hseat⟩ = ⟨seat, hseat⟩)
    (hthere : (s.tokens.kind vault).isSome = true) (hmax : s.received addr ≤ U128_MAX)
    (hle : (s.view addr).owed ⟨seat, hseat⟩ ≤ U64_MAX)
    (hmov : (s.view addr).owed ⟨seat, hseat⟩ = 0 ∨
      Tokens.movable (s.split.key addr) (s.tokens.kind vault) (s.tokens.kind dest) = true) :
    (s.view addr).Allows addr ⟨seat, hseat⟩ vault dest :=
  ⟨hv, hd, hdraws, hthere, by rwa [view_received], hle, hmov⟩

theorem view_claim (hs : s.Sound addr) (seat : ℕ) (vault dest : Pubkey) :
    (s.claim addr seat vault dest).1.view addr = (s.view addr).claim addr seat vault dest := by
  unfold claim View.claim
  rcases h : s.splitClaim addr seat vault dest with e | ⟨amount, t⟩
  · rw [dif_neg]
    rintro ⟨hseat, ⟨rfl, rfl, hdraws, hthere, hmax, howed, hmov⟩⟩
    rw [View.owed, view_received] at howed hmov
    rw [view_received] at hmax
    obtain ⟨amount, t, hok⟩ := splitClaim_isOk hs ⟨seat, hseat⟩ hdraws hthere hmax howed hmov
    exact absurd (h.symm.trans hok) nofun
  · obtain ⟨hseat, hv, hd, hcases⟩ := splitClaim_cases h
    obtain ⟨_, hdrawn, -, hdraws⟩ := splitClaim_drawn hs h
    obtain ⟨hne, -, rfl⟩ | ⟨hdraw, ⟨hthere, hmax, hle⟩, hamt, hrest⟩ := hcases
    · rw [dif_neg]
      rintro ⟨_, hallows⟩
      exact hne hallows.draws
    · have howed : (s.view addr).owed ⟨seat, hseat⟩ = amount := by
        rw [View.owed, view_received, hamt]
        rfl
      have hallows : (s.view addr).Allows addr ⟨seat, hseat⟩ vault dest := by
        refine allows_of_claim hv hd hdraw hthere hmax (by rw [howed]; exact hle) ?_
        obtain ⟨hzero, -⟩ | ⟨-, htransfer, -⟩ := hrest
        · exact .inl (by rw [howed, hzero])
        · right
          rw [hv, hd] at htransfer ⊢
          exact ((Tokens.transfer_eq_ok (hs.apart ⟨seat, hseat⟩).symm).1 htransfer).1
      rw [dif_pos ⟨hseat, hallows⟩]
      dsimp only
      rw [hdrawn.view_eq, hdraws hdraw, howed, view_received]
      rfl

theorem view_inflow (s : SplitVault) (amount : ℕ) :
    (s.inflow addr amount).1.view addr = (s.view addr).step addr (.inflow amount) := by
  unfold inflow
  split_ifs with h
  · refine Eq.trans ?_ (if_pos h).symm
    have hthere : (s.tokens.kind (s.split.vaultKey addr)).isSome = true := by
      simp only [Bool.and_eq_true, receives] at h
      exact Option.isSome_of_any h.1
    have hkind : Tokens.kind (s.tokens.setAmount (s.split.vaultKey addr)
        (s.balance addr + amount)) = s.tokens.kind := funext fun key => Tokens.kind_setAmount
    dsimp only [view]
    rw [hkind]
    exact congrArg (View.mk _ _ · _) (Tokens.amount_setAmount hthere)
  · exact (if_neg h).symm

theorem view_setAccount (s : SplitVault) (key : Pubkey) (account : Option TokenAccount) :
    (s.setAccount addr key account).1.view addr =
    (s.view addr).step addr (.account key account) := by
  obtain ⟨hbalance, hsplit, -⟩ := s.setAccount_balance addr key account
  rw [view, hbalance, hsplit]
  unfold setAccount
  split_ifs with h
  · exact (if_pos h).symm
  · refine Eq.trans ?_ (if_neg h).symm
    refine congrArg (View.mk _ _ _) (funext fun k => ?_)
    by_cases hk : k = key
    · rw [hk, Function.update_self]
      rcases account with _ | a
      · exact congrArg _ (Finmap.lookup_erase _ _)
      · exact congrArg _ (Finmap.lookup_insert _)
    · rw [Function.update_of_ne hk]
      rcases account with _ | a
      · exact congrArg _ (Finmap.lookup_erase_ne hk)
      · exact congrArg _ (Finmap.lookup_insert_of_ne _ hk)

theorem view_step (hs : s.Sound addr) (e : Event) :
    (s.step addr e).1.view addr = (s.view addr).step addr e := by
  rcases e with amount | ⟨key, account⟩ | ⟨seat, vault, dest⟩
  · exact s.view_inflow amount
  · exact s.view_setAccount key account
  · exact view_claim hs seat vault dest

/-! ### Claims commute -/

namespace View

variable {v : View} {seat' : ℕ} {vault' dest' : Pubkey}

/-- Nobody is shown with more than its share. -/
def Within (v : View) : Prop := v.terms.shares.Within v.received v.paidTo

theorem Within.owed_le (h : v.Within) (seat : Fin 5) : v.owed seat ≤ v.balance := by
  have hle := Shares.Within.owed_le h seat
  rw [received] at hle
  rw [owed, received]
  omega

/-- A claim that is carried out. -/
def drawn (v : View) (seat : Fin 5) : View :=
  { v with
    paidTo := Function.update v.paidTo seat (v.terms.shares.entitlement v.received seat)
    balance := v.balance - v.owed seat }

theorem Within.received_drawn (h : v.Within) (seat : Fin 5) :
    (v.drawn seat).received = v.received := by
  have hsum := Finset.sum_update_of_mem (Finset.mem_univ seat) v.paidTo
    (v.terms.shares.entitlement v.received seat)
  have hrest := Finset.add_sum_erase Finset.univ v.paidTo (Finset.mem_univ seat)
  have hle := h.owed_le seat
  have hseat := h seat
  rw [Finset.sdiff_singleton_eq_erase] at hsum
  have hreceived : v.received = v.balance + ∑ j, v.paidTo j := rfl
  show v.balance - v.owed seat + ∑ j, Function.update v.paidTo seat _ j = _
  rw [hsum]
  rw [owed] at hle ⊢
  omega

/-- One claim does not change what another seat is owed. -/
theorem Within.owed_drawn (h : v.Within) {seat other : Fin 5} (hne : other ≠ seat) :
    (v.drawn seat).owed other = v.owed other := by
  rw [owed, h.received_drawn seat]
  show _ - Function.update v.paidTo seat _ other = _
  rw [Function.update_of_ne hne]
  rfl

theorem Within.allows_drawn (h : v.Within) {seat other : Fin 5} (hne : other ≠ seat)
    {vault dest : Pubkey} : (v.drawn seat).Allows addr other vault dest ↔
      v.Allows addr other vault dest := by
  constructor
  · rintro ⟨hv, hd, hdraws, hthere, hmax, howed, hmov⟩
    rw [h.owed_drawn hne] at howed hmov
    rw [h.received_drawn seat] at hmax
    exact ⟨hv, hd, hdraws, hthere, hmax, howed, hmov⟩
  · rintro ⟨hv, hd, hdraws, hthere, hmax, howed, hmov⟩
    rw [← h.owed_drawn hne] at howed hmov
    rw [← h.received_drawn seat] at hmax
    exact ⟨hv, hd, hdraws, hthere, hmax, howed, hmov⟩

theorem claim_of_allows {seat : Fin 5} {vault dest : Pubkey}
    (h : v.Allows addr seat vault dest) : v.claim addr seat vault dest = v.drawn seat :=
  dif_pos ⟨seat.isLt, h⟩

theorem claim_of_not {seat : ℕ} {vault dest : Pubkey}
    (h : ∀ hseat : seat < 5, ¬v.Allows addr ⟨seat, hseat⟩ vault dest) :
    v.claim addr seat vault dest = v :=
  dif_neg fun ⟨hseat, hallows⟩ => h hseat hallows

theorem drawn_comm (h : v.Within) {seat other : Fin 5} (hne : other ≠ seat) :
    (v.drawn seat).drawn other = (v.drawn other).drawn seat := by
  have hleft : (v.drawn seat).drawn other = { v with
      paidTo := Function.update (Function.update v.paidTo seat
        (v.terms.shares.entitlement v.received seat)) other
        (v.terms.shares.entitlement v.received other)
      balance := v.balance - v.owed seat - v.owed other } := by
    rw [drawn, h.received_drawn seat, h.owed_drawn hne]
    rfl
  have hright : (v.drawn other).drawn seat = { v with
      paidTo := Function.update (Function.update v.paidTo other
        (v.terms.shares.entitlement v.received other)) seat
        (v.terms.shares.entitlement v.received seat)
      balance := v.balance - v.owed other - v.owed seat } := by
    rw [drawn, h.received_drawn other, h.owed_drawn hne.symm]
    rfl
  rw [hleft, hright, Function.update_comm hne, Nat.sub_right_comm]

/-- A claim that is not carried out is not carried out after another one either. -/
theorem Within.not_allows_drawn (h : v.Within) {seat other : Fin 5}
    {vault dest vault' dest' : Pubkey}
    (hseat : v.Allows addr seat vault dest) (hother : ¬v.Allows addr other vault' dest') :
    ¬(v.drawn seat).Allows addr other vault' dest' := by
  intro hafter
  by_cases hne : other = seat
  · subst hne
    have hv : vault' = vault := hafter.atVault.trans hseat.atVault.symm
    have hd : dest' = dest := hafter.toDest.trans hseat.toDest.symm
    exact hother (by rw [hv, hd]; exact hseat)
  · exact hother ((h.allows_drawn hne).1 hafter)

theorem Within.claim_drawn (h : v.Within) {seat seat' : ℕ} {vault dest vault' dest' : Pubkey}
    {hseat : seat < 5} (hallows : v.Allows addr ⟨seat, hseat⟩ vault dest)
    (hnot : ∀ hseat' : seat' < 5, ¬v.Allows addr ⟨seat', hseat'⟩ vault' dest') :
    (v.claim addr seat vault dest).claim addr seat' vault' dest' =
      (v.claim addr seat' vault' dest').claim addr seat vault dest := by
  have hclaim : v.claim addr seat vault dest = v.drawn ⟨seat, hseat⟩ := claim_of_allows hallows
  rw [claim_of_not hnot, hclaim,
    claim_of_not fun hseat' => h.not_allows_drawn hallows (hnot hseat')]

theorem claim_comm (h : v.Within) (seat seat' : ℕ) (vault dest vault' dest' : Pubkey) :
    (v.claim addr seat vault dest).claim addr seat' vault' dest' =
      (v.claim addr seat' vault' dest').claim addr seat vault dest := by
  by_cases ha : ∃ hseat : seat < 5, v.Allows addr ⟨seat, hseat⟩ vault dest
  · obtain ⟨hseat, ha⟩ := ha
    by_cases hb : ∃ hseat' : seat' < 5, v.Allows addr ⟨seat', hseat'⟩ vault' dest'
    · obtain ⟨hseat', hb⟩ := hb
      by_cases hne : seat' = seat
      · subst hne
        rw [ha.atVault, ha.toDest, hb.atVault, hb.toDest]
      · have hne : (⟨seat', hseat'⟩ : Fin 5) ≠ ⟨seat, hseat⟩ := fun heq => hne (Fin.mk.inj heq)
        have hclaim : v.claim addr seat vault dest = v.drawn ⟨seat, hseat⟩ := claim_of_allows ha
        have hclaim' : v.claim addr seat' vault' dest' = v.drawn ⟨seat', hseat'⟩ :=
          claim_of_allows hb
        have hnext : (v.drawn ⟨seat, hseat⟩).claim addr seat' vault' dest' =
            (v.drawn ⟨seat, hseat⟩).drawn ⟨seat', hseat'⟩ :=
          claim_of_allows ((h.allows_drawn hne).2 hb)
        have hnext' : (v.drawn ⟨seat', hseat'⟩).claim addr seat vault dest =
            (v.drawn ⟨seat', hseat'⟩).drawn ⟨seat, hseat⟩ :=
          claim_of_allows ((h.allows_drawn hne.symm).2 ha)
        rw [hclaim, hclaim', hnext, hnext', drawn_comm h hne]
    · exact h.claim_drawn ha fun hseat' hb' => hb ⟨hseat', hb'⟩
  · by_cases hb : ∃ hseat' : seat' < 5, v.Allows addr ⟨seat', hseat'⟩ vault' dest'
    · obtain ⟨hseat', hb⟩ := hb
      exact (h.claim_drawn hb fun hseat ha' => ha ⟨hseat, ha'⟩).symm
    · rw [claim_of_not fun hseat ha' => ha ⟨hseat, ha'⟩,
        claim_of_not fun hseat' hb' => hb ⟨hseat', hb'⟩,
        claim_of_not fun hseat ha' => ha ⟨hseat, ha'⟩]

end View

/-- Is the event a claim? -/
def Event.IsClaim : Event → Prop
  | .claim _ _ _ => True
  | _ => False

theorem paidTo_reordered (hs : s.Sound addr) {es fs : List Event}
    (h : Reordered Event.IsClaim es fs) :
    (exec (step addr) s es).split.paidTo = (exec (step addr) s fs).split.paidTo := by
  have hview := exec_reordered (fun _ e hs => (step_moved hs e).sound)
    (fun _ e hs => view_step hs e) (fun t e e' ht he he' => ?_) h hs
  · exact congrArg View.paidTo hview
  · have hwithin : (t.view addr).Within := by
      rw [View.Within, view_received]
      exact ht.within
    rcases e with _ | _ | ⟨seat, vault, dest⟩
    · exact he.elim
    · exact he.elim
    · rcases e' with _ | _ | ⟨seat', vault', dest'⟩
      · exact he'.elim
      · exact he'.elim
      · exact View.claim_comm hwithin seat seat' vault dest vault' dest'

/-! ## The divider -/

/-- Seats that were each paid within their own points are a sound record for the destinations. -/
theorem Sound.of_seats (hapart : ∀ seat, s.split.destOf seat ≠ s.split.vaultKey addr)
    (hrecord : seatShares.Within (s.received addr) s.split.paid) : s.Sound addr :=
  ⟨hapart, hrecord.group⟩

/-- Whatever the vault receives and whoever claims, from a record on which no seat was paid more
than its points: nothing is lost, a claim brings the destination it draws for up to its share of
all that was received, a seat that another one draws for draws nothing, what is owed is in the
vault, and the order of the claims does not matter. -/
theorem split_divides (addr : Addresses) (s : SplitVault)
    (hapart : ∀ seat, s.split.destOf seat ≠ s.split.vaultKey addr)
    (hrecord : seatShares.Within (s.received addr) s.split.paid) (es : List Event) :
    let t := exec (step addr) s es
    let outcomes := answers (step addr) s es
    let inflow := s.received addr + total Outcome.receivedAmount outcomes
    ∑ seat, s.split.paid seat + total Outcome.paidAmount outcomes + t.balance addr = inflow ∧
      (∀ seat, t.split.paidTo seat =
        s.split.paidTo seat + total (Outcome.paidFor seat) outcomes) ∧
      (∀ seat vault dest amount t', t.splitClaim addr seat vault dest = .ok (amount, t') →
        ∃ hseat : seat < 5,
          (t.split.drawer ⟨seat, hseat⟩ = ⟨seat, hseat⟩ →
            t'.split.paidTo ⟨seat, hseat⟩ = inflow * t.split.bpTo ⟨seat, hseat⟩ / 10000) ∧
          (t.split.drawer ⟨seat, hseat⟩ ≠ ⟨seat, hseat⟩ → amount = 0 ∧ t' = t)) ∧
      (∀ seat amount paidDest,
        t.split.owed (t.balance addr) (t.split.bpTo seat) seat = .ok (amount, paidDest) →
        amount ≤ t.balance addr) ∧
      ∀ fs, Reordered Event.IsClaim es fs →
        (exec (step addr) s fs).split.paidTo = t.split.paidTo := by
  dsimp only
  have hs : s.Sound addr := .of_seats hapart hrecord
  obtain ⟨ht, hbalance, hinflow, hpaid⟩ := run_moved hs es
  have hconserved : ∑ seat, s.split.paid seat +
      total Outcome.paidAmount (answers (step addr) s es) +
        (exec (step addr) s es).balance addr =
      s.received addr + total Outcome.receivedAmount (answers (step addr) s es) := by
    rw [received]
    omega
  refine ⟨hconserved, hpaid, ?_, ?_, fun fs hfs => (paidTo_reordered hs hfs).symm⟩
  · intro seat vault dest amount t' h
    obtain ⟨hseat, hdrawn, hfolded, hdraws⟩ := splitClaim_drawn ht h
    refine ⟨hseat, fun hdraw => ?_, hfolded⟩
    rw [hdrawn.paidTo, Function.update_self, hdraws hdraw, hinflow]
    rfl
  · intro seat amount paidDest h
    obtain ⟨-, -, rfl, -⟩ := Split.owed_eq_ok.1 h
    exact ht.owed_le seat

/-! ### A fund that several roles name -/

/-- A vault of 1 after the seats were paid by their own points of 1050; the first three roles name
one fund. -/
def demoVault : SplitVault where
  split :=
    { seedSplit := .replicate 32 0
      merchantKey := .replicate 32 1
      merchantNet := .replicate 32 3
      dests := ![.replicate 32 4, .replicate 32 4, .replicate 32 4, .replicate 32 5]
      mint := .replicate 32 6
      paid := ![1039, 5, 1, 3, 1] }
  tokens := ((∅ : Tokens).insert (.replicate 32 2)
      { mint := .replicate 32 6, owner := .replicate 32 7, amount := 1, frozen := false }).insert
    (.replicate 32 4)
      { mint := .replicate 32 6, owner := .replicate 32 8, amount := 0, frozen := false }

def demoAddresses : Addresses where
  instanceOf := id
  entryOf := id
  escrowOf := id
  splitOf _ := .replicate 32 7
  associatedTokenAccount _ _ := .replicate 32 2

/-- The fund draws the 9 it has not had of the 18 that 90 points of 2050 come to. -/
theorem split_divides_fund :
    (exec (step demoAddresses) demoVault [.inflow 1000,
      .claim 1 (.replicate 32 2) (.replicate 32 4)]).split.paidTo 1 = 9 + 9 :=
  (split_divides demoAddresses demoVault (by decide) (by decide)
    [.inflow 1000, .claim 1 (.replicate 32 2) (.replicate 32 4)]).2.1 1

/-! ### The merchant at a role's account -/

/-- What the seats that name an account were paid there, and their points. -/
def paidAt (s : SplitVault) (dest : Pubkey) : ℕ :=
  ∑ seat with s.split.destOf seat = dest, s.split.paid seat

def bpAt (s : SplitVault) (dest : Pubkey) : ℕ :=
  ∑ seat with s.split.destOf seat = dest, SEAT_BP seat

/-- A vault of 10000 all of whose seats name one account. -/
def sharedVault : SplitVault where
  split :=
    { seedSplit := .replicate 32 0
      merchantKey := .replicate 32 1
      merchantNet := .replicate 32 4
      dests := fun _ => .replicate 32 4
      mint := .replicate 32 6
      paid := fun _ => 0 }
  tokens := ((∅ : Tokens).insert (.replicate 32 2)
      { mint := .replicate 32 6, owner := .replicate 32 7, amount := 10000
        frozen := false }).insert
    (.replicate 32 4)
      { mint := .replicate 32 6, owner := .replicate 32 8, amount := 0, frozen := false }

/-- The claim of a merchant who names the account of the roles leaves the roles' points there
unpaid. -/
theorem claim_merchantShared :
    (∀ seat, sharedVault.split.destOf seat ≠ sharedVault.split.vaultKey demoAddresses) ∧
      seatShares.Within (sharedVault.received demoAddresses) sharedVault.split.paid ∧
      ∃ t, sharedVault.splitClaim demoAddresses 0 (.replicate 32 2) (.replicate 32 4) =
          .ok (9900, t) ∧ t.split.drawer 0 = 0 ∧
        t.paidAt (.replicate 32 4) ≠ sharedVault.received demoAddresses *
          t.bpAt (.replicate 32 4) / 10000 :=
  ⟨by decide, by decide, (sharedVault.claim demoAddresses 0 (.replicate 32 2)
    (.replicate 32 4)).1, by decide +kernel, by decide +kernel, by decide +kernel⟩

end SplitVault

end Kit

end Paytp
