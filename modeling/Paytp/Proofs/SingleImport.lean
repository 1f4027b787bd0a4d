import Paytp.Proofs.Dispositions
import Paytp.Sample

/-!
# One successor for a predecessor

A channel that a successor imported is committed for good. A committed channel is not computed
anew, so only a snapshot that an earlier OPEN left behind, under a reference that no OPEN
consumed since, could be imported a second time.
-/

namespace Paytp

namespace Carriage

variable {ρ : Type} {env : Env ρ}

/-- Does the call open a channel on a snapshot left behind of a predecessor that is committed
already? -/
def namesStale (s : Carriage ρ) (e : Event ρ) : Bool :=
  match e.call with
  | .channelOpen o _ => o.auth.predecessor.any fun pred =>
    decide (s.stage pred.1 = .committed) && (s.driver.chainSnapshots.lookup pred).isSome &&
      decide (pred ∉ s.driver.consumedChainRefs)
  | _ => false

/-- Does the call import such a snapshot? -/
def importsStale (env : Env ρ) (s : Carriage ρ) (e : Event ρ) : Bool :=
  s.namesStale e && (s.establishes env e).isSome

/-- A snapshot that is not named is not imported. -/
theorem importsStale_of_names {s : Carriage ρ} {e : Event ρ} (h : s.namesStale e = false) :
    s.importsStale env e = false := by
  rw [importsStale, h, Bool.false_and]

/-- What a step that establishes a channel found, and the state it leads to. -/
theorem establishes_cases {s : Carriage ρ} {e : Event ρ} {auth : ChannelAuth}
    (h : s.establishes env e = some auth) :
    ∃ o now snaps authHash openHash acc decisions, e.call = .channelOpen o now ∧ o.auth = auth ∧
      s.screenOpen env auth = .ok (s.withSnapshots snaps) ∧
      s.driver.retained.lookup auth.channelId = none ∧
      (s.withSnapshots snaps).driver.acceptOpen env.suite o authHash openHash = .ok acc ∧
      (step env s e).1 = s.opened env e.fails snaps decisions o acc := by
  obtain ⟨call, fails⟩ := e
  cases call with
  | channelOpen o now =>
    obtain ⟨hnone, -⟩ | ⟨hauth, snaps, authHash, openHash, acc, decisions, hs, -, -, hret, hacc,
      heq⟩ :=
      s.onOpen_cases env fails o now
    · rw [hnone] at h
      cases h
    · rw [hauth, Option.some_inj] at h
      subst h
      refine ⟨o, now, snaps, authHash, openHash, acc, decisions, rfl, rfl, hs, hret, hacc, ?_⟩
      show (s.onOpen env fails o now).2 = _
      rw [heq]
  | _ => cases h

theorem successorOf_cases {s : Carriage ρ} {e : Event ρ} {pred successor : ByteArr 8}
    (h : s.successorOf env pred e = some successor) :
    ∃ auth ckptRef, s.establishes env e = some auth ∧ auth.predecessor = some (pred, ckptRef) ∧
      auth.channelId = successor := by
  obtain ⟨auth, hauth, hsucc⟩ := Option.bind_eq_some_iff.mp h
  split_ifs at hsucc with hpred
  obtain ⟨⟨cid, ckptRef⟩, hnamed, rfl⟩ := Option.map_eq_some_iff.mp hpred
  exact ⟨auth, ckptRef, hauth, hnamed, Option.some_inj.mp hsucc⟩

/-- An import commits the predecessor. -/
theorem stage_of_successor {s : Carriage ρ} {e : Event ρ} {pred : ByteArr 8}
    (h : (s.successorOf env pred e).isSome) : (step env s e).1.stage pred = .committed := by
  obtain ⟨successor, hsucc⟩ := Option.isSome_iff_exists.mp h
  obtain ⟨auth, ckptRef, hest, hnamed, -⟩ := successorOf_cases hsucc
  obtain ⟨o, -, snaps, -, -, acc, decisions, -, rfl, -, -, -, heq⟩ := establishes_cases hest
  have hcs := s.opened_chainState env e.fails snaps decisions o acc
  rw [hnamed] at hcs
  rw [heq, stage_insert hcs, if_pos rfl]
  rfl

/-- A committed predecessor is imported from a snapshot left behind only. -/
theorem successor_none_of_committed {s : Carriage ρ} {e : Event ρ} {pred : ByteArr 8}
    (hfresh : s.importsStale env e = false) (hstage : s.stage pred = .committed) :
    s.successorOf env pred e = none := by
  rw [Option.eq_none_iff_forall_ne_some]
  intro successor hsucc
  obtain ⟨auth, ckptRef, hest, hnamed, -⟩ := successorOf_cases hsucc
  obtain ⟨o, now, snaps, _, _, acc, _, hcall, rfl, hscreen, -, hacc, -⟩ := establishes_cases hest
  have hpending : s.chainState.lookup pred ≠ some .pending := by
    intro hc
    rw [stage, hc] at hstage
    cases hstage
  have hsame : s.withSnapshots snaps = s :=
    ((screenOpen_cases hscreen).2 _ hnamed).1 hpending
  rw [hsame] at hacc
  obtain ⟨hnew, i, kSession, seed, -, himp⟩ := (ChannelDriver.acceptOpen_ok hacc).2.2 _ hnamed
  have hstale : s.namesStale e = true := by
    simp only [namesStale, hcall, hnamed, Option.any_some, Bool.and_eq_true, decide_eq_true_eq]
    exact ⟨⟨hstage, ChannelDriver.chainedImport_snapshot himp⟩, hnew⟩
  rw [importsStale, hstale, hest] at hfresh
  cases hfresh

/-- In every run whose OPENs never name a snapshot left behind of a committed predecessor, at
most one successor of a predecessor is established. -/
theorem one_successor (env : Env ρ) (pred : ByteArr 8) (s : Carriage ρ) (es : List (Event ρ))
    (h : Along (step env) (fun s e => s.namesStale e = false) s es) :
    (marks (step env) (successorOf env pred) s es).length ≤ 1 :=
  marks_length_le_one (P := fun s => s.stage pred = .committed) (fun _ _ _ => stage_of_successor)
    (fun s e _ => stage_committed_step s e)
    (fun _ _ hfresh => successor_none_of_committed (importsStale_of_names hfresh)) s es h

open Sample in
/-- A predecessor closes for chaining and is funded late; the successor that names its position
after the funding is established. -/
def lateFunding : List (Event VirtualRail) :=
  [sent (.channelOpen (openOn (terms (cid 1) none 1000)) 1000),
    sent (.close (closeOf (cid 1) (.replicate 32 0) true)),
    sent (.rail (pay (terms (cid 1) none 1000) 500)),
    sent (.fundingProof (fundingOf (terms (cid 1) none 1000) "virt-ref:0" 500)),
    sent (.channelOpen (openOn (terms (cid 3) (some (cid 1, birthRef (cid 1) 500 1000)) 3000))
      3000)]

theorem one_successor_lateFunding :
    (marks (step Sample.env) (successorOf Sample.env (Sample.cid 1)) Sample.start
      lateFunding).length ≤ 1 ∧
    marks (step Sample.env) (successorOf Sample.env (Sample.cid 1)) Sample.start lateFunding =
      [Sample.cid 3] :=
  ⟨one_successor _ _ _ _ (by decide +kernel), by decide +kernel⟩

open Sample in
/-- Before the late funding, a successor that names the position of that time comes too early to
be established; the same OPEN comes again when the predecessor is committed already. -/
def doubleImport : List (Event VirtualRail) :=
  let early := openOn (terms (cid 2) (some (cid 1, birthRef (cid 1) 0 1000)) 3000)
  lateFunding.take 2 ++ sent (.channelOpen early 2000) :: lateFunding.drop 2 ++
    [sent (.channelOpen early 3000)]

/-- The snapshot the early OPEN left behind is imported by a second successor. -/
theorem doubleImport_two_successors :
    Built Sample.env Sample.start ∧
      marks (step Sample.env) (successorOf Sample.env (Sample.cid 1)) Sample.start doubleImport =
        [Sample.cid 3, Sample.cid 2] :=
  ⟨Sample.start_built, by decide +kernel⟩

end Carriage

end Paytp
