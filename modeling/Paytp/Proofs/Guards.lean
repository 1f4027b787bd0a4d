import Mathlib.Logic.Relation
import Paytp.Proofs.Relinks
import Paytp.Proofs.SingleImport

/-!
# What a restart replays

A carriage guards what it did once by its store, the references it consumed and the dispositions
it recorded. Every handler moves these three by decisions of its own keys, and a terminal
disposition is a record of fixed shape that reads back.
-/

namespace Paytp

/-! ## Records of dispositions -/

/-- A disposition that is recorded: any but the intent to chain. -/
def ChainState.Terminal : ChainState → Prop
  | .pending => False
  | .committed _ => True
  | .reconciled none => True
  | .reconciled (some (_, p)) => p ≤ U128_MAX

theorem decodeDisp_encodeDisp {d : ChainState} (h : d.Terminal) :
    decodeDisp (encodeDisp d) = some d := by
  match d with
  | .pending => cases h
  | .committed successor => exact decodeDisp_committed successor
  | .reconciled none => rfl
  | .reconciled (some (ckpt, p)) =>
    have hlen : (ckpt.toList ++ toBE 16 p).length = 48 := by
      rw [List.length_append, ckpt.toList_length, length_toBE]
    have hp : p < 256 ^ 16 := by
      have hle : p ≤ U128_MAX := h
      unfold U128_MAX at hle
      omega
    have htake : (ckpt.toList ++ toBE 16 p).take 32 = ckpt.toList :=
      List.take_left' ckpt.toList_length
    have hdrop : (ckpt.toList ++ toBE 16 p).drop 32 = toBE 16 p :=
      List.drop_left' ckpt.toList_length
    rw [encodeDisp, decodeDisp, if_pos hlen, htake, hdrop, ByteArr.ofBytes?_toList, ofBE_toBE hp]
    rfl

/-- A record reads back as a disposition exactly if it is the record of it. -/
theorem decodeDisp_eq_some {bs : Bytes} {d : ChainState} :
    decodeDisp bs = some d ↔ d.Terminal ∧ bs = encodeDisp d := by
  constructor
  · intro h
    unfold decodeDisp at h
    split at h
    · obtain ⟨successor, hsucc, rfl⟩ := Option.map_eq_some_iff.1 h
      exact ⟨trivial, by rw [ByteArr.ofBytes?_eq_some.1 hsucc]; rfl⟩
    · obtain rfl := Option.some_inj.1 h
      exact ⟨trivial, rfl⟩
    · split_ifs at h with hlen
      rename_i bytes
      obtain ⟨ckpt, hckpt, rfl⟩ := Option.map_eq_some_iff.1 h
      have hdrop : (bytes.drop 32).length = 16 := by
        rw [List.length_drop, hlen]
      have hlt := ofBE_lt (bytes.drop 32)
      rw [hdrop] at hlt
      refine ⟨?_, ?_⟩
      · show ofBE (bytes.drop 32) ≤ U128_MAX
        unfold U128_MAX
        omega
      · have hback := toBE_ofBE (bytes.drop 32)
        rw [hdrop] at hback
        rw [encodeDisp, hback, ← ByteArr.ofBytes?_eq_some.1 hckpt, List.take_append_drop]
    · cases h
  · rintro ⟨hd, rfl⟩
    exact decodeDisp_encodeDisp hd

/-! ## Moves -/

/-- The store of a carriage and what it replays into. -/
structure Guards where
  decisions : Option DecisionStore
  consumedFunding : Finset String
  chainState : HashMap (ByteArr 8) ChainState

namespace Guards

variable {fails : StoreFaults} {fresh : Prop} {g g' : Guards} {key : Bytes}

/-- A key that a handler decides and that no guard is replayed from. -/
inductive Other : Bytes → Prop
  | chopen (cid : ByteArr 8) : Other (chopenKey cid)
  | refundReserve (cid : ByteArr 8) (ckptRef : ByteArr 32) : Other (refundReserveKey cid ckptRef)
  | refundRef (cid : ByteArr 8) (ckptRef : ByteArr 32) : Other (refundRefKey cid ckptRef)

/-- The guards after deciding a key, where there is a store. -/
def decide (fails : StoreFaults) (key value : Bytes) (g : Guards) : Guards :=
  { g with decisions := g.decisions.map fun store =>
      (DecisionStore.decide fails store key value).2 }

/-- The disposition a channel has, in memory or else in the store. -/
def prior (g : Guards) (cid : ByteArr 8) : Option ChainState :=
  (g.chainState.lookup cid).or
    (g.decisions.bind fun store => (store.lookup (dispKey cid)).bind decodeDisp)

/-- A store that is there does not fail to decide the key. -/
def Decides (g : Guards) (fails : StoreFaults) (key : Bytes) : Prop :=
  g.decisions.isSome → fails key = false

/-- A single move of the guards. No predecessor is committed over a reconciliation, and none
that is committed already unless a stale snapshot is imported. -/
inductive Move (fails : StoreFaults) (fresh : Prop) (g : Guards) : Guards → Prop
  | other {key : Bytes} (value : Bytes) (hkey : Other key) : Move fails fresh g
    (g.decide fails key value)
  | consume {r : String} (h : g.Decides fails (fundKey r)) : Move fails fresh g
    { g.decide fails (fundKey r) [] with consumedFunding := insert r g.consumedFunding }
  | pending {cid : ByteArr 8} (h : g.prior cid = none) : Move fails fresh g
    { g with chainState := g.chainState.insert cid .pending }
  | commit {cid : ByteArr 8} (successor : ByteArr 8)
    (hopen : ∀ draw, g.chainState.lookup cid ≠ some (.reconciled draw))
    (hfresh : fresh → ∀ other, g.chainState.lookup cid ≠ some (.committed other)) :
    Move fails fresh g
      { g.decide fails (dispKey cid) (encodeDisp (.committed successor)) with
        chainState := g.chainState.insert cid (.committed successor) }
  | reconcile {cid : ByteArr 8} {draw : Option (ByteArr 32 × ℕ)}
    (hdraw : (ChainState.reconciled draw).Terminal) (h : g.Decides fails (dispKey cid))
    (hfirst : g.prior cid = none ∨ g.prior cid = some .pending) : Move fails fresh g
      { g.decide fails (dispKey cid) (encodeDisp (.reconciled draw)) with
        chainState := g.chainState.insert cid (.reconciled draw) }
  | drawn {cid : ByteArr 8} {draw : ByteArr 32 × ℕ}
    (h : g.chainState.lookup cid = some (.reconciled (some draw))) : Move fails fresh g
      { g with chainState := g.chainState.insert cid (.reconciled none) }

/-- Any number of moves, one after the other. -/
abbrev Moves (fails : StoreFaults) (fresh : Prop) : Guards → Guards → Prop :=
  Relation.ReflTransGen (Move fails fresh)

/-- What every single move keeps, all moves keep. -/
theorem Moves.keep {P : Guards → Prop} (hmove : ∀ {g g'}, Move fails fresh g g' → P g → P g')
    (h : Moves fails fresh g g') (hg : P g) : P g' := by
  induction h with
  | refl => exact hg
  | tail _ hlast ih => exact hmove hlast ih

/-- A store that fails to decide a key is left as it was. -/
theorem decide_failed (h : ¬ g.Decides fails key) (value : Bytes) :
    g.decide fails key value = g := by
  unfold Decides at h
  push Not at h
  obtain ⟨store, hstore⟩ := Option.isSome_iff_exists.1 h.1
  have hfails : fails key = true := by simpa using h.2
  unfold decide DecisionStore.decide
  rw [hstore, Option.map_some, if_pos hfails, ← hstore]

/-- Deciding keys from which no guard is replayed. -/
abbrev Aside (fails : StoreFaults) : Guards → Guards → Prop :=
  Relation.ReflTransGen fun g g' => ∃ key value, Other key ∧ g' = g.decide fails key value

theorem Aside.moves (h : Aside fails g g') : Moves fails fresh g g' := by
  induction h with
  | refl => exact .refl
  | tail _ hlast ih =>
    obtain ⟨key, value, hkey, rfl⟩ := hlast
    exact ih.tail (.other value hkey)

theorem Other.ne_dispKey (h : Other key) (cid : ByteArr 8) : key ≠ dispKey cid := by
  cases h with
  | chopen cid' => exact chopenKey_ne cid' cid
  | refundReserve cid' ckptRef => exact refundReserveKey_ne cid' ckptRef cid
  | refundRef cid' ckptRef => exact refundRefKey_ne cid' ckptRef cid

/-- Deciding a key leaves what is decided of another. -/
theorem decide_lookup_of_ne {store : DecisionStore} {key' : Bytes} (h : key' ≠ key)
    (value : Bytes) :
    (DecisionStore.decide fails store key value).2.lookup key' = store.lookup key' := by
  unfold DecisionStore.decide
  split_ifs
  · rfl
  · split
    · rfl
    · exact Finmap.lookup_insert_of_ne _ h

theorem Aside.prior_eq (h : Aside fails g g') (cid : ByteArr 8) : g'.prior cid = g.prior cid := by
  induction h with
  | refl => rfl
  | @tail g₁ g₂ _ hlast ih =>
    obtain ⟨key, value, hkey, rfl⟩ := hlast
    rw [← ih]
    unfold prior decide
    cases g₁.decisions with
    | none => rfl
    | some store =>
      dsimp only [Option.map_some, Option.bind_some]
      rw [decide_lookup_of_ne (hkey.ne_dispKey cid).symm]

end Guards

namespace Carriage

variable {ρ : Type} {env : Env ρ} {fails : StoreFaults} {fresh : Prop} {s s' : Carriage ρ}

def guards (s : Carriage ρ) : Guards := ⟨s.decisions, s.consumedFunding, s.chainState⟩

open Guards (Moves)

theorem Redrawn.moves (h : s.Redrawn s') : Moves fails fresh s.guards s'.guards := by
  obtain ⟨rounds, ledger, rfl⟩ := h
  exact .refl

theorem decideKey_guards (s : Carriage ρ) (fails : StoreFaults) (key value : Bytes) :
    (s.decideKey fails key value).2.guards = s.guards.decide fails key value := by
  unfold decideKey
  cases hs : s.decisions with
  | none => simp only [guards, Guards.decide, hs, Option.map_none]
  | some store => simp only [guards, Guards.decide, hs, Option.map_some]

/-- A decision fails exactly if there is a store that fails to decide the key. -/
theorem decideKey_eq_failed (s : Carriage ρ) (fails : StoreFaults) (key value : Bytes) :
    (s.decideKey fails key value).1 = .failed ↔ ¬ s.guards.Decides fails key := by
  unfold decideKey Guards.Decides
  cases hs : s.decisions with
  | none => simp [guards, hs]
  | some store =>
    simp only [guards, hs, DecisionStore.decide]
    cases fails key with
    | true => simp
    | false => cases store.lookup key <;> simp

theorem consumeRef_moves (s : Carriage ρ) (r : String) :
    Moves fails fresh s.guards (s.consumeRef fails r).2.guards := by
  by_cases hdecides : s.guards.Decides fails (fundKey r)
  · have hmove : Moves fails fresh s.guards _ := .single (.consume hdecides)
    unfold Guards.decide guards at hmove
    dsimp only at hmove
    unfold consumeRef
    cases hs : s.decisions with
    | none =>
      rw [hs, Option.map_none] at hmove
      dsimp only
      split_ifs
      · exact .refl
      · rw [guards, guards, hs]
        exact hmove
    | some store =>
      have hgo : fails (fundKey r) = false := hdecides (by rw [guards, hs]; rfl)
      have hne : (DecisionStore.decide fails store (fundKey r) []).1 ≠ .failed := by
        unfold DecisionStore.decide
        rw [if_neg (by simp [hgo])]
        cases store.lookup (fundKey r) <;> exact nofun
      rw [hs, Option.map_some] at hmove
      rw [guards, hs]
      dsimp only
      generalize DecisionStore.decide fails store (fundKey r) [] = decided at hne hmove ⊢
      obtain ⟨_ | _ | _, store'⟩ := decided
      · exact hmove
      · exact hmove
      · exact absurd rfl hne
  · unfold Guards.Decides at hdecides
    push Not at hdecides
    obtain ⟨store, hstore⟩ := Option.isSome_iff_exists.1 hdecides.1
    have hs : s.decisions = some store := hstore
    have hfail : fails (fundKey r) = true := by simpa using hdecides.2
    unfold consumeRef
    rw [hs]
    dsimp only
    rw [DecisionStore.decide, if_pos hfail]

theorem consumeRefs_moves : ∀ (s : Carriage ρ) (rs : List String),
    Moves fails fresh s.guards (s.consumeRefs fails rs).2.guards
  | s, [] => .refl
  | s, r :: rs => by
    have hr : Moves fails fresh s.guards (s.consumeRef fails r).2.guards :=
      s.consumeRef_moves r
    unfold consumeRefs
    split
    case h_1 s₁ heq =>
      rw [heq] at hr
      exact hr.trans (consumeRefs_moves s₁ rs)
    case h_2 outcome s₁ hne heq =>
      rw [heq] at hr
      exact hr

/-! ## Closing -/

theorem releaseRefund_aside (s : Carriage ρ) (close : Close) :
    Guards.Aside fails s.guards (s.releaseRefund env fails close).guards := by
  unfold releaseRefund
  split
  · have hreserve : ∀ rail : Option ρ, Guards.Aside fails s.guards
        ({ (s.decideKey fails (refundReserveKey close.channelId close.ckptRef) []).2 with
          rail } : Carriage ρ).guards :=
      fun _ => .single ⟨_, [], .refundReserve close.channelId close.ckptRef,
        s.decideKey_guards fails _ []⟩
    dsimp only
    split
    · exact (hreserve _).tail ⟨_, _, .refundRef close.channelId close.ckptRef,
        decideKey_guards _ fails _ _⟩
    · exact hreserve _
  · exact .refl

theorem cumulativeTargetP_le {cid : ByteArr 8} {accruals : List (UInt8 × ℕ)} {p : ℕ}
    (h : s.cumulativeTargetP cid accruals = some p) : p ≤ U128_MAX := by
  unfold cumulativeTargetP at h
  simp only [Option.bind_eq_bind, Option.bind_eq_some_iff, u128OfNat_eq_some] at h
  obtain ⟨-, -, div, -, -, -, hle, rfl⟩ := h
  exact hle

/-- A draw that is pinned fits its record. -/
theorem computePendingDraw_terminal (s : Carriage ρ) (cid : ByteArr 8) :
    (ChainState.reconciled (s.computePendingDraw cid)).Terminal := by
  cases hdraw : s.computePendingDraw cid with
  | none => trivial
  | some draw =>
    obtain ⟨ckptRef, targetP⟩ := draw
    unfold computePendingDraw at hdraw
    simp only [Option.bind_eq_bind, Option.bind_eq_some_iff] at hdraw
    obtain ⟨-, -, terms, -, -, -, hdraw⟩ := hdraw
    have htarget : ∃ accruals, s.cumulativeTargetP cid accruals = some targetP := by
      split at hdraw
      · simp only [Option.bind_some, Option.bind_eq_some_iff] at hdraw
        obtain ⟨p, hp, -, -, heq⟩ := hdraw
        cases heq
        exact ⟨_, hp⟩
      · simp only [Option.bind_some, Option.bind_eq_some_iff] at hdraw
        obtain ⟨p, hp, -, -, heq⟩ := hdraw
        cases heq
        exact ⟨_, hp⟩
      · cases hdraw
    obtain ⟨accruals, hp⟩ := htarget
    exact cumulativeTargetP_le hp

theorem reconcile_moves (s : Carriage ρ) (close : Close)
    (h : s.firstClose close.channelId = true) :
    Moves fails fresh s.guards (s.reconcile env fails close).2.guards := by
  unfold reconcile
  dsimp only
  have haside : Guards.Aside fails s.guards (s.releaseRefund env fails close).guards :=
    releaseRefund_aside s close
  have hdrain : ((s.releaseRefund env fails close).drainInterimRounds env
      close.channelId).guards = (s.releaseRefund env fails close).guards := by
    obtain ⟨rounds, ledger, heq⟩ := drainInterimRounds_redrawn (s.releaseRefund env fails close)
      env close.channelId
    rw [heq]
    rfl
  generalize (s.releaseRefund env fails close).drainInterimRounds env close.channelId = s₁
    at hdrain ⊢
  rw [← hdrain] at haside
  have hfirst : s₁.guards.prior close.channelId = none ∨
      s₁.guards.prior close.channelId = some .pending := by
    rw [haside.prior_eq]
    unfold firstClose at h
    split at h
    · exact .inl ‹_›
    · exact .inr ‹_›
    · cases h
  have hterminal := s₁.computePendingDraw_terminal close.channelId
  generalize s₁.computePendingDraw close.channelId = draw at hterminal
  have hguards := s₁.decideKey_guards fails (dispKey close.channelId)
    (encodeDisp (.reconciled draw))
  have hfailed := s₁.decideKey_eq_failed fails (dispKey close.channelId)
    (encodeDisp (.reconciled draw))
  refine haside.moves.trans ?_
  split
  case h_1 s₂ heq =>
    rw [recordDisposition] at heq
    rw [heq] at hguards hfailed
    rw [hguards, Guards.decide_failed (hfailed.1 rfl)]
  case h_2 outcome s₂ hne heq =>
    rw [recordDisposition] at heq
    rw [heq] at hguards hfailed
    have hdecides : s₁.guards.Decides fails (dispKey close.channelId) :=
      not_not.1 fun hnot => hne (hfailed.2 hnot)
    show Moves fails fresh s₁.guards { s₂.guards with
      chainState := s₂.guards.chainState.insert close.channelId (.reconciled draw) }
    rw [hguards]
    exact .single (.reconcile hterminal hdecides hfirst)

theorem attemptPrepayCloseDraw_moves (s : Carriage ρ) (cid : ByteArr 8) :
    Moves fails fresh s.guards (s.attemptPrepayCloseDraw env cid).guards := by
  unfold attemptPrepayCloseDraw
  split
  · rename_i draw _ _ _ hstate _ _
    dsimp only
    split
    · exact .single (.drawn hstate)
    · exact .single (.drawn hstate)
    · exact .refl
  · exact .refl

theorem closePlain_moves (s : Carriage ρ) (close : Close) :
    Moves fails fresh s.guards (s.closePlain env fails close).2.guards := by
  unfold closePlain
  split_ifs with hfirst
  · have hrec : Moves fails fresh s.guards (s.reconcile env fails close).2.guards :=
      s.reconcile_moves close hfirst
    rcases heq : s.reconcile env fails close with ⟨_ | _, s₁⟩ <;> rw [heq] at hrec
    · exact hrec
    · exact hrec.trans (attemptPrepayCloseDraw_moves s₁ _)
  · exact attemptPrepayCloseDraw_moves s _

theorem closeChained_moves (s : Carriage ρ) (cid : ByteArr 8) :
    Moves fails fresh s.guards (s.closeChained cid).2.guards := by
  unfold closeChained
  dsimp only
  split_ifs with _ _ hprior
  · exact .refl
  · exact .refl
  · exact .single (.pending (Option.isNone_iff_eq_none.1 hprior))
  · exact .refl

theorem onClose_moves (s : Carriage ρ) (close : Close) :
    Moves fails fresh s.guards (s.onClose env fails close).2.guards := by
  unfold onClose
  split
  · exact .refl
  · rename_i decision _
    have hclose : Moves fails fresh s.guards (if s.chains close.channelId decision then
        s.closeChained close.channelId else s.closePlain env fails close).2.guards := by
      split_ifs
      · exact closeChained_moves s _
      · exact closePlain_moves s close
    dsimp only
    generalize (if s.chains close.channelId decision then s.closeChained close.channelId
        else s.closePlain env fails close) = r at hclose ⊢
    obtain ⟨_ | _, s₁⟩ := r
    · exact hclose
    · refine hclose.trans ?_
      unfold finishClose
      dsimp only
      split
      · exact .refl
      · exact .refl

/-! ## Opening -/

/-- Opening a channel decides no key but its own. -/
theorem openChannel_store (driver : ChannelDriver) (suite : Suite) (fails : StoreFaults)
    (store : Option DecisionStore) (o : ChannelOpen) (now : ℕ) :
    (driver.openChannel suite fails store o now).2.2 = store ∨
      (driver.openChannel suite fails store o now).2.2 = store.map fun store =>
        (DecisionStore.decide fails store (chopenKey o.auth.channelId) []).2 := by
  unfold ChannelDriver.openChannel
  dsimp only
  split
  · exact .inl rfl
  · split
    · split_ifs <;> exact .inl rfl
    · split
      · exact .inl rfl
      · have hopen : (driver.decideOpen fails store o.auth.channelId).2 = store ∨
            (driver.decideOpen fails store o.auth.channelId).2 = store.map fun store =>
              (DecisionStore.decide fails store (chopenKey o.auth.channelId) []).2 := by
          unfold ChannelDriver.decideOpen
          split
          · exact .inr rfl
          · exact .inl rfl
        split <;> (rename_i heq; rw [heq] at hopen; exact hopen)

theorem commitPredecessor_moves (s : Carriage ρ)
    (predecessor : Option (ByteArr 8 × ByteArr 32)) (successor : ByteArr 8)
    (hopen : ∀ pred, predecessor = some pred →
      ∀ draw, s.chainState.lookup pred.1 ≠ some (.reconciled draw))
    (hfresh : fresh → ∀ pred, predecessor = some pred →
      ∀ other, s.chainState.lookup pred.1 ≠ some (.committed other)) :
    Moves fails fresh s.guards (s.commitPredecessor fails predecessor successor).guards := by
  cases predecessor with
  | none => exact .refl
  | some pred =>
    have hguards := s.decideKey_guards fails (dispKey pred.1)
      (encodeDisp (.committed successor))
    show Moves fails fresh s.guards
      { (s.decideKey fails (dispKey pred.1) (encodeDisp (.committed successor))).2.guards with
        chainState := (s.decideKey fails (dispKey pred.1)
          (encodeDisp (.committed successor))).2.guards.chainState.insert pred.1
            (.committed successor) }
    rw [hguards]
    exact .single (.commit successor (hopen pred rfl) fun h => hfresh h pred rfl)

/-- A step that establishes a channel commits its predecessor over nothing terminal. -/
theorem establishes_over {e : Event ρ} {auth : ChannelAuth}
    (h : s.establishes env e = some auth) (pred : ByteArr 8 × ByteArr 32)
    (hpred : auth.predecessor = some pred) :
    (∀ draw, s.chainState.lookup pred.1 ≠ some (.reconciled draw)) ∧
      (s.importsStale env e = false →
        ∀ other, s.chainState.lookup pred.1 ≠ some (.committed other)) := by
  constructor
  · obtain ⟨o, now, snaps, authHash, openHash, acc, decisions, -, -, hscreen, -⟩ :=
      establishes_cases h
    exact ((screenOpen_cases hscreen).2 pred hpred).2
  · intro hfresh other hcommitted
    have hstage : s.stage pred.1 = .committed := by
      rw [stage, hcommitted]
      rfl
    have hnone : s.successorOf env pred.1 e = none := successor_none_of_committed hfresh hstage
    rw [successorOf, h, Option.bind_some, hpred, Option.map_some, if_pos rfl] at hnone
    cases hnone

theorem onOpen_moves (s : Carriage ρ) (o : ChannelOpen) (now : ℕ) :
    Moves fails (s.importsStale env ⟨.channelOpen o now, fails⟩ = false) s.guards
      (s.onOpen env fails o now).2.guards := by
  have hover : ∀ auth, s.establishes env ⟨.channelOpen o now, fails⟩ = some auth →
      ∀ pred, auth.predecessor = some pred → _ ∧ _ :=
    fun auth h pred hpred => establishes_over h pred hpred
  unfold establishes at hover
  unfold onOpen
  dsimp only at hover
  cases hs : s.screenOpen env o.auth with
  | error e => exact .refl
  | ok s₁ =>
    rw [hs] at hover
    obtain ⟨⟨snaps, rfl, -⟩, -⟩ := screenOpen_cases hs
    have hstore := openChannel_store (s.withSnapshots snaps).driver env.suite fails
      (s.withSnapshots snaps).decisions o now
    dsimp only at hover ⊢
    generalize (s.withSnapshots snaps).driver.openChannel env.suite fails
      (s.withSnapshots snaps).decisions o now = outcome at hstore hover ⊢
    obtain ⟨outcome, driver, decisions⟩ := outcome
    have hdecided : Moves fails (s.importsStale env ⟨.channelOpen o now, fails⟩ = false) s.guards
        { s.guards with decisions } := by
      rcases hstore with hsame | hopened
      · rw [show decisions = s.guards.decisions from hsame]
      · rw [show decisions = (s.guards.decide fails (chopenKey o.auth.channelId) []).decisions
          from hopened]
        exact .single (.other [] (.chopen o.auth.channelId))
    rcases outcome with e | est | ack
    · exact hdecided
    · dsimp only
      split_ifs
      · exact hdecided
      · refine hdecided.trans ?_
        have hpred := hover o.auth rfl
        exact commitPredecessor_moves
          (({ s.withSnapshots snaps with driver, decisions } : Carriage ρ).install est
            o.auth.predecessor) _ est.channelId (fun pred hp => (hpred pred hp).1)
          fun hfresh pred hp => (hpred pred hp).2 hfresh
    · dsimp only
      split_ifs <;> exact hdecided

/-- Every step moves the guards. -/
theorem step_moves (s : Carriage ρ) (e : Event ρ) :
    Moves e.fails (s.importsStale env e = false) s.guards (step env s e).1.guards := by
  obtain ⟨call, fails⟩ := e
  cases call with
  | channelOpen o now => exact onOpen_moves s o now
  | checkpointRequest request =>
    show Moves _ _ s.guards (s.onCheckpointRequest env request).2.guards
    unfold onCheckpointRequest
    split
    · exact .refl
    · dsimp only
      split_ifs
      · split <;> exact .refl
      · exact .refl
      · exact .refl
  | fundingProof fp =>
    show Moves _ _ s.guards (s.onFunding env fails fp).2.guards
    unfold onFunding
    split
    · exact .refl
    · rename_i c _
      have hkeep : Moves fails (s.importsStale env ⟨.fundingProof fp, fails⟩ = false) s.guards
        (s.consumeRef fails c.canonicalRef).2.guards := s.consumeRef_moves c.canonicalRef
      split <;> (rename_i heq; rw [heq] at hkeep; exact hkeep)
  | settlementPropose p => exact (onSettlementPropose_redrawn s p).moves
  | settlementProof proof =>
    show Moves _ _ s.guards (s.onSettlementProof env fails proof).2.guards
    unfold onSettlementProof
    split
    · exact .refl
    · exact .refl
    · exact .refl
    · rename_i fold _
      have hkeep : Moves fails (s.importsStale env ⟨.settlementProof proof, fails⟩ = false) s.guards
        (s.consumeRefs fails (if fold.foldNet then fold.netRefs else [])).2.guards :=
        s.consumeRefs_moves _
      split <;> (rename_i heq; rw [heq] at hkeep; exact hkeep)
  | close close => exact onClose_moves s close
  | batch cid slices =>
    show Moves _ _ s.guards (s.batch env cid slices).2.guards
    obtain heq | ⟨st, st', -, heq, -⟩ := s.batch_cases env cid slices <;> rw [heq]
    exact .refl
  | ackRequest req now => exact .refl
  | prepayInterimDraw cid =>
    obtain ⟨rail, hdraw⟩ := s.runPrepayInterimDraw_redrawn env cid
    exact hdraw.moves
  | rail op => exact .refl

end Carriage

end Paytp
