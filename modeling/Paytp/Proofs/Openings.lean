import Paytp.Carriage

/-!
# What an OPEN does

The driver either retains nothing or accepts a channel it did not know. The carriage either
leaves all but the recorded snapshots as they were or installs the accepted channel and commits
its predecessor.
-/

namespace Paytp

/-- Terms the governance allows have the shares of the schema. -/
theorem ChannelAuth.validateVectorGoverned_roles {auth : ChannelAuth} {suite : Suite}
    (h : auth.validateVectorGoverned suite = true) :
    auth.vector.map (fun v => (v.role, v.bp)) = SCHEMA_01_ROLES := by
  simp only [ChannelAuth.validateVectorGoverned, validateShapeSchema01, Bool.and_eq_true,
    beq_iff_eq] at h
  exact h.1.1.2

namespace ChannelDriver

variable {suite : Suite} {fails : StoreFaults} {driver : ChannelDriver}

/-- A signed acknowledgement encodes. -/
theorem encode_of_sign {unsigned ack : ChannelAck} {sk : ByteArr 32}
    (h : unsigned.sign suite sk = some ack) : (ack.encode suite).isSome = true := by
  rw [ChannelAck.sign] at h
  obtain ⟨fields, hfields, rfl⟩ := Option.map_eq_some_iff.mp h
  rw [ChannelAck.contentFields] at hfields
  rw [ChannelAck.encode, Option.isSome_map, ChannelAck.contentFields, hfields]
  rfl

/-- An accepted OPEN imports exactly if it names a predecessor, which is not consumed. -/
theorem acceptOpen_ok {o : ChannelOpen} {authHash openHash : ByteArr 32} {acc : Accepted}
    (h : driver.acceptOpen suite o authHash openHash = .ok acc) :
    (acc.ack.encode suite).isSome = true ∧
      (o.auth.predecessor = none → acc.imported = none) ∧
      ∀ pred, o.auth.predecessor = some pred → pred ∉ driver.consumedChainRefs ∧
        ∃ i kSession seed, acc.imported = some i ∧
          driver.chainedImport suite pred o.auth kSession seed (modeOf o.auth.mode) = .ok i := by
  unfold acceptOpen at h
  cases hp : o.auth.predecessor with
  | none =>
    simp only [hp, bind_eq_ok, okOr_eq_ok, pure_eq_ok] at h
    obtain ⟨-, -, -, -, -, -, -, -, -, rfl, ack, hack, rfl⟩ := h
    exact ⟨encode_of_sign hack, fun _ => rfl, by rintro _ ⟨⟩⟩
  | some pred =>
    simp only [hp, bind_eq_ok, okOr_eq_ok, require_eq_ok, pure_eq_ok] at h
    obtain ⟨-, hnew, secret, -, -, -, seed, -, imported, himp, ack, hack, rfl⟩ := h
    refine ⟨encode_of_sign hack, by rintro ⟨⟩, ?_⟩
    intro pred' hpred
    cases hpred
    refine ⟨by simpa using hnew, ?_⟩
    cases hc : driver.chainedImport suite pred o.auth (deriveKey suite o.auth secret) seed
        (modeOf o.auth.mode) with
    | error e =>
      rw [hc] at himp
      cases himp
    | ok i =>
      rw [hc] at himp
      cases himp
      exact ⟨i, _, seed, rfl, hc⟩

/-- What is imported has a snapshot. -/
theorem chainedImport_snapshot {pred : ByteArr 8 × ByteArr 32} {auth : ChannelAuth}
    {kSession seed : ByteArr 32} {mode : Mode} {i : Import}
    (h : driver.chainedImport suite pred auth kSession seed mode = .ok i) :
    (driver.chainSnapshots.lookup pred).isSome = true := by
  unfold chainedImport at h
  simp only [bind_eq_ok, okOr_eq_ok] at h
  obtain ⟨snap, hsnap, -⟩ := h
  rw [hsnap]
  rfl

theorem error_ne_established (e : ChannelError) (est : Established) :
    (.error e : Except ChannelError OpenOutcome) ≠ .ok (.established est) := nofun

theorem retransmit_ne_established (ack : ChannelAck) (est : Established) :
    (.ok (.retransmit ack) : Except ChannelError OpenOutcome) ≠ .ok (.established est) := nofun

/-- An OPEN establishes a channel that was not retained, and leaves the driver alone otherwise. -/
theorem openChannel_cases (driver : ChannelDriver) (suite : Suite) (fails : StoreFaults)
    (store : Option DecisionStore) (o : ChannelOpen) (now : ℕ) :
    (∃ r store', driver.openChannel suite fails store o now = (r, driver, store') ∧
      ∀ est, r ≠ .ok (.established est)) ∨
    (∃ authHash openHash acc store', driver.screenOpen suite o now = .ok (authHash, openHash) ∧
      driver.retained.lookup o.auth.channelId = none ∧
      driver.acceptOpen suite o authHash openHash = .ok acc ∧
      driver.openChannel suite fails store o now =
        (.ok (.established (established suite o.auth acc)), driver.retain o.auth acc, store')) := by
  unfold openChannel
  dsimp only
  cases hs : driver.screenOpen suite o now with
  | error e => exact .inl ⟨_, _, rfl, error_ne_established e⟩
  | ok hashes =>
    obtain ⟨authHash, openHash⟩ := hashes
    dsimp only
    cases hr : driver.retained.lookup o.auth.channelId with
    | some r =>
      dsimp only
      split_ifs
      · exact .inl ⟨_, _, rfl, retransmit_ne_established r.ack⟩
      · exact .inl ⟨_, _, rfl, error_ne_established _⟩
    | none =>
      dsimp only
      cases ha : driver.acceptOpen suite o authHash openHash with
      | error e => exact .inl ⟨_, _, rfl, error_ne_established e⟩
      | ok acc =>
        dsimp only
        rcases driver.decideOpen fails store o.auth.channelId with ⟨_ | _ | _, store'⟩
        · exact .inr ⟨authHash, openHash, acc, store', rfl, rfl, ha, rfl⟩
        · exact .inl ⟨_, _, rfl, error_ne_established _⟩
        · exact .inl ⟨_, _, rfl, error_ne_established _⟩

end ChannelDriver

namespace Carriage

variable {ρ : Type} {env : Env ρ} {fails : StoreFaults} {s s' : Carriage ρ}

/-- A carriage with other snapshots. -/
def withSnapshots (s : Carriage ρ)
    (snaps : HashMap (ByteArr 8 × ByteArr 32) ChainSnapshot) : Carriage ρ :=
  { s with driver := { s.driver with chainSnapshots := snaps } }

/-- Every snapshot's total is in its domain. -/
def Fit (snaps : HashMap (ByteArr 8 × ByteArr 32) ChainSnapshot) : Prop :=
  ∀ key snap, snaps.lookup key = some snap → snap.cumTotal ≤ U128_MAX

theorem u128OfNat_eq_some {n m : ℕ} : u128OfNat n = some m ↔ n ≤ U128_MAX ∧ n = m := by
  unfold u128OfNat
  split_ifs with h <;> simp [h]

/-- A position that is imported has a total in its domain. -/
theorem computeChainSnapshot_fits {suite : Suite} {cid : ByteArr 8} {ckptRef : ByteArr 32}
    {snap : ChainSnapshot} (h : s.computeChainSnapshot suite cid ckptRef = some snap) :
    snap.cumTotal ≤ U128_MAX := by
  unfold computeChainSnapshot at h
  cases hop : s.operative.lookup cid with
  | some op =>
    simp only [hop, Option.bind_eq_bind, Option.bind_eq_some_iff, u128OfNat_eq_some] at h
    obtain ⟨ch, -, payerKey, -, t, -, establishedAt, -, -, -, cum, ⟨hle, rfl⟩, _, hpair, -, -, -, -,
      -, -, h⟩ := h
    cases hpair
    cases h
    exact hle
  | none =>
    simp only [hop, Option.bind_eq_bind, Option.bind_eq_some_iff] at h
    obtain ⟨ch, -, payerKey, -, t, -, establishedAt, -, -, -, cp, -, _, -, -, -, _, hpair, -, -, -,
      -, -, -, h⟩ := h
    cases hpair
    cases h
    exact Nat.zero_le _

/-- The snapshots are among those recorded before or are what is computed now of a channel that
may still be chained. -/
def Recorded (s : Carriage ρ) (env : Env ρ)
    (snaps : HashMap (ByteArr 8 × ByteArr 32) ChainSnapshot) : Prop :=
  ∀ key snap, snaps.lookup key = some snap → s.driver.chainSnapshots.lookup key = some snap ∨
    s.chainState.lookup key.1 = some .pending ∧
      s.computeChainSnapshot env.suite key.1 key.2 = some snap

theorem Recorded.refl (s : Carriage ρ) (env : Env ρ) : s.Recorded env s.driver.chainSnapshots :=
  fun _ _ => .inl

theorem Recorded.fit {snaps : HashMap (ByteArr 8 × ByteArr 32) ChainSnapshot}
    (h : s.Recorded env snaps) (hfit : Fit s.driver.chainSnapshots) : Fit snaps := by
  intro key snap hs
  obtain hold | ⟨-, hnew⟩ := h key snap hs
  · exact hfit key snap hold
  · exact computeChainSnapshot_fits hnew

theorem recorded_erase (s : Carriage ρ) (env : Env ρ) (pred : ByteArr 8 × ByteArr 32) :
    s.Recorded env (s.driver.chainSnapshots.erase pred) := by
  intro key snap hs
  by_cases hk : key = pred
  · rw [hk, Finmap.lookup_erase] at hs
    cases hs
  · rw [Finmap.lookup_erase_ne hk] at hs
    exact .inl hs

/-- Preparing an import refreshes the snapshot of a pending predecessor and refuses a reconciled
one. -/
theorem prepareImport_cases {pred : ByteArr 8 × ByteArr 32}
    (h : s.prepareImport env pred = .ok s') :
    (∃ snaps, s' = s.withSnapshots snaps ∧ s.Recorded env snaps) ∧
      (s.chainState.lookup pred.1 ≠ some .pending → s' = s) ∧
      ∀ draw, s.chainState.lookup pred.1 ≠ some (.reconciled draw) := by
  unfold prepareImport at h
  split at h
  case h_1 hc =>
    rw [hc]
    refine ⟨?_, fun hne => absurd rfl hne, fun draw => nofun⟩
    dsimp only at h
    split at h
    · rename_i snap hsnap
      cases h
      refine ⟨_, rfl, fun key snap' hs => ?_⟩
      have hs : (((s.driver.removeChainSnapshot pred).chainSnapshots).insert pred snap).lookup key =
          some snap' := hs
      rw [HashMap.lookup_insert_ite] at hs
      split_ifs at hs with hk
      · cases hs
        rw [hk]
        exact .inr ⟨hc, hsnap⟩
      · exact s.recorded_erase env pred key snap' hs
    · cases h
      exact ⟨_, rfl, s.recorded_erase env pred⟩
  case h_2 => cases h
  case h_3 successor hc =>
    cases h
    rw [hc]
    exact ⟨⟨_, rfl, .refl s env⟩, fun _ => rfl, nofun⟩
  case h_4 hc =>
    cases h
    rw [hc]
    exact ⟨⟨_, rfl, .refl s env⟩, fun _ => rfl, nofun⟩

theorem screenOpen_cases {auth : ChannelAuth} (h : s.screenOpen env auth = .ok s') :
    (∃ snaps, s' = s.withSnapshots snaps ∧ s.Recorded env snaps) ∧
      ∀ pred, auth.predecessor = some pred →
        (s.chainState.lookup pred.1 ≠ some .pending → s' = s) ∧
        ∀ draw, s.chainState.lookup pred.1 ≠ some (.reconciled draw) := by
  unfold screenOpen at h
  simp only [bind_eq_ok] at h
  obtain ⟨-, -, h⟩ := h
  cases hp : auth.predecessor with
  | none =>
    rw [hp] at h
    cases h
    exact ⟨⟨_, rfl, .refl s env⟩, by rintro _ ⟨⟩⟩
  | some pred =>
    rw [hp] at h
    obtain ⟨hsnaps, hrest⟩ := prepareImport_cases h
    refine ⟨hsnaps, fun pred' hpred => ?_⟩
    cases hpred
    exact hrest

/-- What a carriage is after an OPEN that it established. -/
def opened (s : Carriage ρ) (env : Env ρ) (fails : StoreFaults)
    (snaps : HashMap (ByteArr 8 × ByteArr 32) ChainSnapshot) (decisions : Option DecisionStore)
    (o : ChannelOpen) (acc : ChannelDriver.Accepted) : Carriage ρ :=
  let driver := { s.driver with chainSnapshots := snaps }
  let est := ChannelDriver.established env.suite o.auth acc
  (({ s with driver := driver.retain o.auth acc, decisions } : Carriage ρ).install est
    o.auth.predecessor).commitPredecessor fails o.auth.predecessor est.channelId

/-- An OPEN either establishes nothing, and moves no more than the snapshots and the store, or
it installs an accepted channel. -/
theorem onOpen_cases (s : Carriage ρ) (env : Env ρ) (fails : StoreFaults) (o : ChannelOpen)
    (now : ℕ) :
    (s.establishes env ⟨.channelOpen o now, fails⟩ = none ∧ ∃ r snaps decisions,
      s.Recorded env snaps ∧
      s.onOpen env fails o now = (r, { s.withSnapshots snaps with decisions })) ∨
    (s.establishes env ⟨.channelOpen o now, fails⟩ = some o.auth ∧
      ∃ snaps authHash openHash acc decisions,
        s.screenOpen env o.auth = .ok (s.withSnapshots snaps) ∧ s.Recorded env snaps ∧
        s.driver.screenOpen env.suite o now = .ok (authHash, openHash) ∧
        s.driver.retained.lookup o.auth.channelId = none ∧
        (s.withSnapshots snaps).driver.acceptOpen env.suite o authHash openHash = .ok acc ∧
        s.onOpen env fails o now = (.ok (.message (.channelAck acc.ack)),
          s.opened env fails snaps decisions o acc)) := by
  unfold establishes onOpen
  dsimp only
  cases hs : s.screenOpen env o.auth with
  | error e => exact .inl ⟨rfl, _, s.driver.chainSnapshots, s.decisions, .refl s env, rfl⟩
  | ok s₁ =>
    obtain ⟨⟨snaps, rfl, hrec⟩, -⟩ := screenOpen_cases hs
    dsimp only
    obtain ⟨r, store', heq, hne⟩ | ⟨authHash, openHash, acc, store', hscreen, hret, hacc, heq⟩ :=
      (s.withSnapshots snaps).driver.openChannel_cases env.suite fails
        (s.withSnapshots snaps).decisions o now
    · left
      rw [heq]
      dsimp only
      refine ⟨?_, ?_⟩
      · split
        · exact absurd rfl (hne _)
        · rfl
      · split
        · exact ⟨_, snaps, store', hrec, rfl⟩
        · split_ifs <;> exact ⟨_, snaps, store', hrec, rfl⟩
        · rename_i est
          exact absurd rfl (hne est)
    · right
      rw [heq]
      refine ⟨rfl, snaps, authHash, openHash, acc, store', rfl, hrec, hscreen, hret, hacc, ?_⟩
      have hack := (ChannelDriver.acceptOpen_ok hacc).1
      dsimp only
      rw [if_neg]
      · rfl
      · rw [ChannelDriver.established, Option.isNone_iff_eq_none]
        exact Option.isSome_iff_ne_none.mp hack

end Carriage

end Paytp
