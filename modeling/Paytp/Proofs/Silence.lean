import Paytp.Proofs.Retention

/-!
# After a termination

A terminated channel never opens again: its life retains it as terminated, and every later life
has it as a tombstone. The retrieval of acknowledgements does not look at the termination, so the
life that retains a terminated channel still acknowledges it to its payer.
-/

namespace Paytp

namespace Retention

variable {suite : Suite} {config : Config} {cid : ByteArr 8}

/-- The channel `cid` is retained in the life a service is in. -/
def Service.retains (cid : ByteArr 8) : Service → Bool
  | .down _ => false
  | .up p => (p.driver.retained.lookup cid).isSome

/-- The channel `cid` was terminated: its life has it so, and every other has it as a tombstone. -/
def Service.Dead (cid : ByteArr 8) : Service → Prop
  | .down disk => (Service.down disk).Known cid
  | .up p => (∃ r, p.driver.retained.lookup cid = some r ∧ r.terminated = true) ∨
    p.driver.retained.lookup cid = none ∧ cid ∈ p.driver.tombstones

/-- The call is made for the channel `cid`. -/
def Event.names (cid : ByteArr 8) : Event → Bool
  | .channelOpen o _ _ => o.auth.channelId == cid
  | .ackRequest req _ => req.channelId == cid
  | _ => false

/-- A request of the channel's payer, in time, to the life that retains the channel. -/
def retrieves (suite : Suite) (cid : ByteArr 8) : Service → Event → Bool
  | .up p, .ackRequest req now =>
    req.channelId == cid && (p.driver.retained.lookup req.channelId).any fun r =>
      decide (Nat.dist now req.timestamp ≤ SKEW_SECS + LATENCY_SECS) && req.verify suite r.payerKey
  | _, _ => false

theorem dead_of_terminate {s : Service} (hret : s.retains cid = true) :
    (step suite config s (.terminate cid)).1.Dead cid := by
  rcases s with disk | p
  · cases hret
  · obtain ⟨r, hr⟩ := Option.isSome_iff_exists.1 hret
    refine .inl ⟨{ r with terminated := true }, ?_, rfl⟩
    show (p.driver.terminate cid).retained.lookup cid = _
    rw [terminate_lookup, hr, Option.map_some, if_pos rfl]

theorem opens_dead {p p' : Process} {o : ChannelOpen} {now : ℕ} {io : AppendIo}
    {r : Except ChannelError OpenOutcome} (ho : Opens suite p o now io r p')
    (hd : (Service.up p).Dead cid) : (Service.up p').Dead cid := by
  cases ho with
  | refused => exact hd
  | retransmit => exact hd
  | undecided => exact hd
  | established acc channels wal hasks hret htomb hfresh =>
    have hne : cid ≠ o.auth.channelId := by
      rintro rfl
      rcases hd with ⟨r, hr, -⟩ | ⟨-, ht⟩
      · simp [hret] at hr
      · exact htomb ht
    simp only [Service.Dead, ChannelDriver.retain, HashMap.lookup_insert_ite, if_neg hne]
    exact hd

theorem step_dead {s : Service} (h : s.Sound) (e : Event) (hd : s.Dead cid) :
    (step suite config s e).1.Dead cid := by
  rcases s with disk | p
  · obtain ⟨disk', heq, -⟩ | ⟨d, driver, wal, rfl, heq, -, hmap, hret, -, htomb⟩ :=
      down_cases suite config disk e
    · have hknown : (step suite config (.down disk) e).1.Known cid := step_known h e hd
      rw [heq] at hknown ⊢
      exact hknown
    · rw [heq]
      refine .inr ⟨by rw [hret]; rfl, (htomb cid).2 ?_⟩
      rw [hmap]
      exact hd d rfl
  · replace h : p.Sound := h
    obtain ⟨o, now, io, rfl⟩ | ⟨p', a, heq, hgoes⟩ | ⟨disk, heq, hsaves⟩ :=
      up_cases suite config h e
    · exact opens_dead (openChannel_opens suite h.durable o now io) hd
    · rw [heq]
      rcases hd with ⟨r, hr, hterm⟩ | ⟨hnone, htomb⟩
      · left
        rcases hgoes.retained cid with hret | hret <;> rw [hret, hr]
        · exact ⟨r, rfl, hterm⟩
        · exact ⟨_, rfl, rfl⟩
      · right
        rw [hgoes.tombstones]
        refine ⟨?_, htomb⟩
        rcases hgoes.retained cid with hret | hret <;> rw [hret, hnone]
        rfl
    · rw [heq]
      rintro bytes rfl
      cases hpw : p.wal with
      | none => rw [hpw] at hsaves; cases hsaves
      | some wal =>
        rw [hpw] at hsaves
        cases hsaves with
        | some hs =>
          refine hs _ (h.decided wal hpw cid ?_)
          rcases hd with ⟨r, hr, -⟩ | ⟨-, htomb⟩
          · exact .inl (by rw [hr]; rfl)
          · exact .inr htomb

theorem serveAckRequest_isSome (suite : Suite) (driver : ChannelDriver) (req : AckRequest)
    (now : ℕ) :
    (driver.serveAckRequest suite req now).isSome =
      (driver.retained.lookup req.channelId).any fun r =>
        decide (Nat.dist now req.timestamp ≤ SKEW_SECS + LATENCY_SECS) &&
          req.verify suite r.payerKey := by
  unfold ChannelDriver.serveAckRequest
  cases driver.retained.lookup req.channelId with
  | none => rfl
  | some r =>
    by_cases htime : Nat.dist now req.timestamp ≤ SKEW_SECS + LATENCY_SECS <;>
      by_cases hsig : req.verify suite r.payerKey <;> simp [htime, hsig]

/-- No OPEN of a terminated channel is answered with an acknowledgement. -/
theorem opens_ack_none {p p' : Process} {o : ChannelOpen} {now : ℕ} {io : AppendIo}
    {r : Except ChannelError OpenOutcome} (ho : Opens suite p o now io r p')
    (hd : (Service.up p).Dead o.auth.channelId) : (Answer.opened r).ack? = none := by
  cases ho with
  | refused => rfl
  | undecided => rfl
  | retransmit r hasks hr hlive =>
    rcases hd with ⟨r', hr', hterm⟩ | ⟨hnone, -⟩
    · rw [hr, Option.some_inj] at hr'
      rw [hr', hterm] at hlive
      cases hlive
    · rw [hr] at hnone
      cases hnone
  | established acc channels wal hasks hret htomb hfresh =>
    rcases hd with ⟨r, hr, -⟩ | ⟨-, ht⟩
    · rw [hret] at hr
      cases hr
    · exact absurd ht htomb

/-- For a terminated channel only a retrieval is answered with an acknowledgement. -/
theorem dead_ack_iff {s : Service} (h : s.Sound) (hd : s.Dead cid) (e : Event) :
    (e.names cid = true → (step suite config s e).2.ack? = none) ↔
      retrieves suite cid s e = false := by
  rcases s with disk | p
  · refine iff_of_true (fun _ => ?_) rfl
    obtain ⟨disk', heq, -⟩ | ⟨d, driver, wal, -, heq, -⟩ := down_cases suite config disk e <;>
      rw [heq] <;> rfl
  · replace h : p.Sound := h
    cases e with
    | channelOpen o now io =>
      refine iff_of_true (fun hcid => ?_) rfl
      obtain rfl := beq_iff_eq.1 hcid
      exact opens_ack_none (openChannel_opens suite h.durable o now io) hd
    | ackRequest req now =>
      have hserve := serveAckRequest_isSome suite p.driver req now
      rw [retrieves, ← hserve]
      show (req.channelId == cid) = true → p.driver.serveAckRequest suite req now = none ↔ _
      cases p.driver.serveAckRequest suite req now <;> simp
    | meter cid' f => exact iff_of_true (fun hcid => by cases hcid) rfl
    | _ => exact iff_of_true (fun hcid => by cases hcid) rfl

/-! ## Silence -/

/-- After the termination of a channel that is retained, no call made for it is answered with an
acknowledgement. -/
def Silent (suite : Suite) (config : Config) (s : Service) (es : List Event) : Prop :=
  ∀ es₁ cid es₂ e es₃, es = es₁ ++ .terminate cid :: (es₂ ++ e :: es₃) →
    (exec (step suite config) s es₁).retains cid = true → e.names cid = true →
      (step suite config
        (exec (step suite config) s (es₁ ++ .terminate cid :: es₂)) e).2.ack? = none

/-- After the termination of a channel that is retained, its payer retrieves no acknowledgement from
the same life. -/
def Unasked (suite : Suite) (config : Config) (s : Service) (es : List Event) : Prop :=
  ∀ es₁ cid es₂ e es₃, es = es₁ ++ .terminate cid :: (es₂ ++ e :: es₃) →
    (exec (step suite config) s es₁).retains cid = true →
      retrieves suite cid (exec (step suite config) s (es₁ ++ .terminate cid :: es₂)) e = false

theorem exec_dead {s : Service} (h : s.Sound) (es : List Event) (hd : s.Dead cid) :
    (exec (step suite config) s es).Dead cid :=
  (exec_invariant (P := fun s => s.Sound ∧ s.Dead cid)
    (fun _ e hs => ⟨step_sound hs.1 e, step_dead hs.1 e hs.2⟩) s es ⟨h, hd⟩).2

theorem exec_sound (suite : Suite) (config : Config) (disk : Option Bytes) (es : List Event) :
    (exec (step suite config) (begin suite config disk) es).Sound :=
  exec_invariant (P := Service.Sound) (fun _ e hs => step_sound hs e) _ es (begin_sound disk)

/-- A run is silent on the channels it terminated exactly if none of them is asked for. -/
theorem silent_iff (suite : Suite) (config : Config) (disk : Option Bytes) (es : List Event) :
    Silent suite config (begin suite config disk) es ↔
      Unasked suite config (begin suite config disk) es := by
  have hiff : ∀ es₁ cid es₂ e,
      (exec (step suite config) (begin suite config disk) es₁).retains cid = true →
      ((e.names cid = true → (step suite config (exec (step suite config) (begin suite config disk)
        (es₁ ++ .terminate cid :: es₂)) e).2.ack? = none) ↔
      retrieves suite cid (exec (step suite config) (begin suite config disk)
        (es₁ ++ .terminate cid :: es₂)) e = false) := by
    intro es₁ cid es₂ e hret
    refine dead_ack_iff (exec_sound suite config disk _) ?_ e
    rw [exec_append, exec_cons]
    exact exec_dead (step_sound (exec_sound suite config disk es₁) _) es₂ (dead_of_terminate hret)
  constructor
  · intro h es₁ cid es₂ e es₃ hes hret
    exact (hiff es₁ cid es₂ e hret).1 (h es₁ cid es₂ e es₃ hes hret)
  · intro h es₁ cid es₂ e es₃ hes hret
    exact (hiff es₁ cid es₂ e hret).2 (h es₁ cid es₂ e es₃ hes hret)

open Sample in
/-- The payer's request for the acknowledgement of a channel. -/
def retrieval : Event :=
  .ackRequest (AckRequest.sign keyedSuite
    { channelId := Sample.cid 1, timestamp := 1000, sig := none } payerSk) 1000

open Sample in
def opening : Event := .channelOpen (openOn (terms (Sample.cid 1) none 1000)) 1000 .good

/-- The payer retrieves the acknowledgement of a channel that is terminated. -/
theorem retrieval_not_silent : ¬Silent keyedSuite sampleConfig
    (begin keyedSuite sampleConfig (some []))
    [.start .good [], opening, .terminate (Sample.cid 1), retrieval] := by
  intro h
  have hack := h [.start .good [], opening] (Sample.cid 1) [] retrieval [] rfl
  revert hack
  decide +kernel

end Retention

end Paytp
