import Paytp.Proofs.DecisionLog
import Paytp.Proofs.Openings
import Paytp.Retention
import Paytp.Sample

/-!
# One life for a channel

A channel that was accepted once is decided in the store, or retained by a driver that keeps no
store, and neither is ever undone. So no later OPEN creates its metering again, in whichever life.
-/

namespace Paytp

theorem mem_of_mapM_some {α β : Type} {f : α → Option β} : ∀ {xs : List α} {ys : List β},
    xs.mapM f = some ys → ∀ y, y ∈ ys ↔ ∃ x ∈ xs, f x = some y
  | [], ys, h, y => by
    obtain rfl : [] = ys := by simpa using h
    simp
  | x :: xs, ys, h, y => by
    simp only [List.mapM_cons, Option.bind_eq_bind, Option.bind_eq_some_iff, Option.pure_def,
      Option.some_inj] at h
    obtain ⟨b, hb, bs, hbs, rfl⟩ := h
    simp only [List.mem_cons, exists_eq_or_imp, mem_of_mapM_some hbs, hb, Option.some_inj]
    rw [eq_comm]

namespace Retention

theorem chopenKey_eq (cid : ByteArr 8) :
    chopenKey cid = Bytes.ofString "chopen:" ++ cid.toList := by
  simp [chopenKey, storeKey]

theorem mem_tombstonesOf {entries : List (Bytes × Bytes)} {tombstones : Finset (ByteArr 8)}
    (h : Carriage.tombstonesOf entries = some tombstones) {cid : ByteArr 8} :
    cid ∈ tombstones ↔ ∃ e ∈ entries, e.1 = chopenKey cid := by
  obtain ⟨cids, hcids, rfl⟩ := Option.map_eq_some_iff.1 h
  simp only [List.mem_toFinset, mem_of_mapM_some hcids, List.mem_filterMap,
    List.dropPrefix?_eq_some_iff, beq_iff_eq, ByteArr.ofBytes?_eq_some, chopenKey_eq]
  constructor
  · rintro ⟨_, ⟨e, he, _, hkey, rfl⟩, rfl⟩
    exact ⟨e, he, hkey⟩
  · rintro ⟨e, he, hkey⟩
    exact ⟨_, ⟨e, he, _, hkey, rfl⟩, rfl⟩

theorem lookup_entries (entries : List (Bytes × Bytes)) (m : HashMap Bytes Bytes) (key : Bytes) :
    ((entries.foldl (fun store e => store.insert e.1 e.2) m).lookup key).isSome ↔
      (m.lookup key).isSome ∨ ∃ e ∈ entries, e.1 = key := by
  induction entries generalizing m with
  | nil => simp
  | cons e entries ih =>
    rw [List.foldl_cons, ih, HashMap.lookup_insert_ite]
    simp only [List.mem_cons, exists_eq_or_imp]
    by_cases hk : key = e.1
    · simp [hk]
    · simp [hk, Ne.symm hk]

theorem mem_attachDecisions {driver driver' : ChannelDriver} {entries : List (Bytes × Bytes)}
    (h : driver.attachDecisions entries = some driver') (cid : ByteArr 8) :
    cid ∈ driver'.tombstones ↔ cid ∈ driver.tombstones ∨
      ((entries.foldl (fun store e => store.insert e.1 e.2) (∅ : HashMap Bytes Bytes)).lookup
        (chopenKey cid)).isSome := by
  obtain ⟨tombstones, htomb, rfl⟩ := Option.map_eq_some_iff.1 h
  rw [Finset.mem_union, mem_tombstonesOf htomb, lookup_entries]
  simp

open OneDecision (Wal)

variable {suite : Suite} {config : Config}

/-- The key a channel's acceptance is decided under, as a field of a record. -/
def chopenField (cid : ByteArr 8) : Field where
  bytes := chopenKey cid
  short := by
    have hlen : (Bytes.ofString "chopen:").length = 7 := by decide
    have hcid := cid.2
    rw [chopenKey_eq, List.length_append, hlen]
    show 7 + cid.1.length < _
    omega

/-- What handling an OPEN comes to. -/
inductive Opens (suite : Suite) (p : Process) (o : ChannelOpen) (now : ℕ) (io : AppendIo) :
    Except ChannelError OpenOutcome → Process → Prop
  | refused (e : ChannelError) (hasks : p.driver.asks suite o now = false) :
    Opens suite p o now io (.error e) p
  | undecided (e : ChannelError) (hasks : p.driver.asks suite o now = true) {wal wal' : Wal}
    {d : Decision} (hwal : p.wal = some wal)
    (hd : wal.decide (chopenKey o.auth.channelId) [] io = (d, wal')) (hne : d ≠ .fresh) :
    Opens suite p o now io (.error e) { p with wal := some wal' }
  | retransmit (r : Retained) (hasks : p.driver.asks suite o now = false)
    (hr : p.driver.retained.lookup o.auth.channelId = some r) (hlive : r.terminated = false) :
    Opens suite p o now io (.ok (.retransmit r.ack)) p
  | established (acc : ChannelDriver.Accepted) (channels : HashMap (ByteArr 8) ChannelState)
    (wal : Option Wal) (hasks : p.driver.asks suite o now = true)
    (hr : p.driver.retained.lookup o.auth.channelId = none)
    (htomb : o.auth.channelId ∉ p.driver.tombstones)
    (hfresh : p.wal.map (fun wal => wal.decide (chopenKey o.auth.channelId) [] io) =
      wal.map fun wal => (.fresh, wal)) :
    Opens suite p o now io (.ok (.established (ChannelDriver.established suite o.auth acc)))
      { driver := p.driver.retain o.auth acc, channels, wal }

theorem screenOpen_tombstones {driver : ChannelDriver} {o : ChannelOpen} {now : ℕ}
    {hashes : ByteArr 32 × ByteArr 32} (h : driver.screenOpen suite o now = .ok hashes) :
    o.auth.channelId ∉ driver.tombstones := by
  unfold ChannelDriver.screenOpen at h
  simp only [bind_eq_ok, okOr_eq_ok, require_eq_ok, pure_eq_ok, decide_eq_true_eq] at h
  obtain ⟨-, -, -, -, -, -, -, -, -, -, _, -, _, -, -, htomb, -⟩ := h
  exact htomb

/-- The driver's decision is the store's, and fresh where there is none. -/
theorem decideOpen_eq {p : Process} (hdur : p.driver.durable = p.wal.isSome) (io : AppendIo)
    (cid : ByteArr 8) :
    p.driver.decideOpen (p.faults io) (p.wal.map Wal.map) cid =
      ((p.wal.map fun wal => (wal.decide (chopenKey cid) [] io).1).getD .fresh,
        p.wal.map fun wal => (wal.decide (chopenKey cid) [] io).2.map) := by
  unfold ChannelDriver.decideOpen Process.faults
  cases hwal : p.wal with
  | none =>
    rw [hwal] at hdur
    simp [hdur]
  | some wal =>
    rw [hwal] at hdur
    simp [hdur, DecisionStore.decide_walFaults]

theorem openChannel_opens (suite : Suite) {p : Process} (hdur : p.driver.durable = p.wal.isSome)
    (o : ChannelOpen) (now : ℕ) (io : AppendIo) :
    Opens suite p o now io (p.openChannel suite o now io).1 (p.openChannel suite o now io).2 := by
  cases hs : p.driver.screenOpen suite o now with
  | error e =>
    have hasks : p.driver.asks suite o now = false := by simp [ChannelDriver.asks, hs]
    simp only [Process.openChannel, ChannelDriver.openChannel, hs, hasks, Bool.false_eq_true,
      if_false]
    exact .refused e hasks
  | ok hashes =>
    obtain ⟨authHash, openHash⟩ := hashes
    cases hr : p.driver.retained.lookup o.auth.channelId with
    | some r =>
      have hasks : p.driver.asks suite o now = false := by simp [ChannelDriver.asks, hs, hr]
      simp only [Process.openChannel, ChannelDriver.openChannel, hs, hr, hasks,
        Bool.false_eq_true, if_false]
      split_ifs with hsame
      · simp only [Bool.and_eq_true, Bool.not_eq_true'] at hsame
        exact .retransmit r hasks hr hsame.1.1
      · exact .refused _ hasks
    | none =>
      cases ha : p.driver.acceptOpen suite o authHash openHash with
      | error e =>
        have hasks : p.driver.asks suite o now = false := by simp [ChannelDriver.asks, hs, ha]
        simp only [Process.openChannel, ChannelDriver.openChannel, hs, hr, ha, hasks,
          Bool.false_eq_true, if_false]
        exact .refused e hasks
      | ok acc =>
        have hasks : p.driver.asks suite o now = true := by simp [ChannelDriver.asks, hs, hr, ha]
        have htomb := screenOpen_tombstones hs
        simp only [Process.openChannel, ChannelDriver.openChannel, hs, hr, ha, hasks, if_true,
          decideOpen_eq hdur]
        cases hwal : p.wal with
        | none => exact .established acc _ none hasks hr htomb (by rw [hwal]; rfl)
        | some wal =>
          simp only [Option.map_some, Option.getD_some]
          cases hd : wal.decide (chopenKey o.auth.channelId) [] io with
          | mk d wal' =>
            cases d with
            | fresh =>
              have hfresh : p.wal.map (fun wal => wal.decide (chopenKey o.auth.channelId) [] io) =
                  (some wal').map fun wal => (.fresh, wal) := by
                rw [hwal, Option.map_some, hd, Option.map_some]
              exact .established acc _ (some wal') hasks hr htomb hfresh
            | alreadyDecided v => exact .undecided _ hasks hwal hd nofun
            | failed => exact .undecided _ hasks hwal hd nofun

/-! ## The store under the service -/

theorem wal_crash {wal : Wal} (h : wal.Sound) {k : Bytes} (hk : (wal.map.lookup k).isSome) :
    ((OneDecision.replay wal.file.content).1.lookup k).isSome := by
  obtain ⟨v, hv⟩ := Option.isSome_iff_exists.1 hk
  exact Option.isSome_iff_exists.2 ⟨v, h.replay_of_some hv⟩

theorem wal_crashIn {wal : Wal} (h : wal.Sound) (key value : Field) (landed : ℕ) {k : Bytes}
    (hk : (wal.map.lookup k).isSome) :
    ((OneDecision.replay (wal.crashIn key.bytes value.bytes landed)).1.lookup k).isSome := by
  obtain ⟨v, hv⟩ := Option.isSome_iff_exists.1 hk
  exact Option.isSome_iff_exists.2
    ⟨v, OneDecision.step_keeps (.up wal) (.crashIn key value landed) h k v hv⟩

/-- A life starts with the decisions of the file and their channels as tombstones. -/
theorem start_cases (disk : Bytes) (io : AppendLog.OpenIo) (entries : List (Bytes × Bytes)) :
    (∃ disk', start suite config disk io entries = .down (some disk') ∧
      (OneDecision.replay disk').1 = (OneDecision.replay disk).1) ∨
    ∃ driver wal, start suite config disk io entries =
        .up { driver, channels := ∅, wal := some wal } ∧ wal.Sound ∧
      wal.map = (OneDecision.replay disk).1 ∧ driver.retained = ∅ ∧ driver.durable = true ∧
      ∀ cid, cid ∈ driver.tombstones ↔ (wal.map.lookup (chopenKey cid)).isSome := by
  have hspec := (OneDecision.openLog_spec disk io).1
  unfold start
  rcases hopen : OneDecision.openLog disk io with ⟨disk', _ | wal⟩ <;> rw [hopen] at hspec
  · exact .inl ⟨disk', rfl, hspec⟩
  · dsimp only
    split_ifs with hentries
    · cases hattach : (config.driver suite).attachDecisions entries with
      | none => exact .inl ⟨disk', rfl, hspec⟩
      | some driver =>
        obtain ⟨hsound, -, hmap⟩ := OneDecision.openLog_sound disk io wal (by rw [hopen])
        have htomb := mem_attachDecisions hattach
        obtain ⟨tombstones, -, rfl⟩ := Option.map_eq_some_iff.1 hattach
        refine .inr ⟨_, wal, rfl, hsound, hmap, rfl, rfl, fun cid => ?_⟩
        rw [htomb, hentries]
        simp [Config.driver, ChannelDriver.new]
    · exact .inl ⟨disk', rfl, hspec⟩

/-- Between two lives a step keeps what the file knows, or starts a life on it. -/
theorem down_cases (suite : Suite) (config : Config) (disk : Option Bytes) (e : Event) :
    (∃ disk', step suite config (.down disk) e = (.down disk', .none) ∧
      Option.Rel (fun d d' => (OneDecision.replay d').1 = (OneDecision.replay d).1) disk disk') ∨
    ∃ d driver wal, disk = some d ∧ step suite config (.down disk) e =
        (.up { driver, channels := ∅, wal := some wal }, .none) ∧ wal.Sound ∧
      wal.map = (OneDecision.replay d).1 ∧ driver.retained = ∅ ∧ driver.durable = true ∧
      ∀ cid, cid ∈ driver.tombstones ↔ (wal.map.lookup (chopenKey cid)).isSome := by
  rcases disk with _ | d
  · exact .inl ⟨none, by cases e <;> rfl, .none⟩
  · cases e with
    | start io entries =>
      obtain ⟨d', heq, hrep⟩ | ⟨driver, wal, heq, hlife⟩ := start_cases d io entries
      · exact .inl ⟨some d', by rw [step, heq], .some hrep⟩
      · exact .inr ⟨d, driver, wal, rfl, by rw [step, heq], hlife⟩
    | _ => exact .inl ⟨some d, rfl, .some rfl⟩

/-! ## What a service keeps -/

/-- The store is sound, and knows every channel that is retained or was accepted before. -/
structure Process.Sound (p : Process) : Prop where
  wal : ∀ wal, p.wal = some wal → wal.Sound
  durable : p.driver.durable = p.wal.isSome
  decided : ∀ wal, p.wal = some wal → ∀ cid,
    (p.driver.retained.lookup cid).isSome ∨ cid ∈ p.driver.tombstones →
      (wal.map.lookup (chopenKey cid)).isSome

def Service.Sound : Service → Prop
  | .down _ => True
  | .up p => p.Sound

/-- The channel `cid` was accepted in some life. -/
def Service.Known (cid : ByteArr 8) : Service → Prop
  | .down disk => ∀ bytes, disk = some bytes →
    ((OneDecision.replay bytes).1.lookup (chopenKey cid)).isSome
  | .up p => match p.wal with
    | some wal => (wal.map.lookup (chopenKey cid)).isSome
    | none => (p.driver.retained.lookup cid).isSome

theorem terminate_lookup (driver : ChannelDriver) (cid cid' : ByteArr 8) :
    (driver.terminate cid).retained.lookup cid' = (driver.retained.lookup cid').map fun r =>
      if cid' = cid then { r with terminated := true } else r := by
  unfold ChannelDriver.terminate
  cases hr : driver.retained.lookup cid with
  | none =>
    dsimp only
    by_cases hcid : cid' = cid
    · rw [hcid, hr]
      rfl
    · simp [hcid]
  | some r =>
    dsimp only
    rw [HashMap.lookup_insert_ite]
    by_cases hcid : cid' = cid
    · rw [hcid, hr]
      simp
    · simp [hcid]

theorem terminate_tombstones (driver : ChannelDriver) (cid : ByteArr 8) :
    (driver.terminate cid).tombstones = driver.tombstones ∧
      (driver.terminate cid).durable = driver.durable := by
  unfold ChannelDriver.terminate
  split <;> exact ⟨rfl, rfl⟩

/-- A store that is sound and knows what another one did. -/
def More (wal wal' : Wal) : Prop :=
  wal'.Sound ∧ ∀ k, (wal.map.lookup k).isSome → (wal'.map.lookup k).isSome

theorem More.refl {wal : Wal} (h : wal.Sound) : More wal wal := ⟨h, fun _ hk => hk⟩

theorem more_decide {wal : Wal} (h : wal.Sound) (key value : Field) (io : AppendIo) :
    More wal (wal.decide key.bytes value.bytes io).2 := by
  refine ⟨OneDecision.step_sound (.up wal) (.decide key value io) h, fun k hk => ?_⟩
  obtain ⟨v, hv⟩ := Option.isSome_iff_exists.1 hk
  exact Option.isSome_iff_exists.2
    ⟨v, OneDecision.step_keeps (.up wal) (.decide key value io) h k v hv⟩

theorem decide_fresh {wal wal' : Wal} (h : wal.Sound) (key value : Field) {io : AppendIo}
    (hd : wal.decide key.bytes value.bytes io = (.fresh, wal')) :
    wal.map.lookup key.bytes = none ∧ (wal'.map.lookup key.bytes).isSome := by
  have hfresh : (OneDecision.step (.up wal) (.decide key value io)).2 = some .fresh := by
    simp [OneDecision.step, hd]
  obtain ⟨hnone, hsome⟩ := OneDecision.fresh_cases (s := .up wal) h hfresh
  refine ⟨hnone, ?_⟩
  simp only [OneDecision.step, hd, OneDecision.Store.decisions] at hsome
  rw [hsome]
  rfl

namespace Process

variable {p : Process}

/-- A process stays sound when its store knows more and covers what the driver newly retains. -/
theorem Sound.of_more (h : p.Sound) (driver : ChannelDriver) {wal : Option Wal}
    (hwal : Option.Rel More p.wal wal) (hdur : driver.durable = p.driver.durable)
    (htomb : driver.tombstones = p.driver.tombstones)
    (hret : ∀ cid, (driver.retained.lookup cid).isSome → (p.driver.retained.lookup cid).isSome ∨
      ∀ w, wal = some w → (w.map.lookup (chopenKey cid)).isSome)
    (channels : HashMap (ByteArr 8) ChannelState) : Process.Sound { driver, channels, wal } := by
  generalize hpw : p.wal = old at hwal
  cases hwal with
  | none => exact ⟨nofun, by rw [hdur, h.durable, hpw], nofun⟩
  | @some w w' hmore =>
    refine ⟨fun _ he => Option.some_inj.1 he ▸ hmore.1, by rw [hdur, h.durable, hpw]; rfl, ?_⟩
    intro _ he cid hcid
    obtain rfl := Option.some_inj.1 he
    rw [htomb] at hcid
    rcases hcid with hcid | hcid
    · rcases hret cid hcid with hold | hnew
      · exact hmore.2 _ (h.decided w hpw cid (.inl hold))
      · exact hnew w' rfl
    · exact hmore.2 _ (h.decided w hpw cid (.inr hcid))

theorem Sound.rel_refl (h : p.Sound) : Option.Rel More p.wal p.wal := by
  cases hw : p.wal with
  | none => exact .none
  | some w => exact .some (.refl (h.wal w hw))

theorem Sound.rel_decide (h : p.Sound) (key value : Field) (io : AppendIo) :
    Option.Rel More p.wal (p.wal.map fun wal => (wal.decide key.bytes value.bytes io).2) := by
  cases hw : p.wal with
  | none => exact .none
  | some w => exact .some (more_decide (h.wal w hw) key value io)

end Process

/-- A channel's acceptance is decided with an empty value. -/
def emptyField : Field := ⟨[], by decide⟩

theorem opens_sound {p p' : Process} {o : ChannelOpen} {now : ℕ} {io : AppendIo}
    {r : Except ChannelError OpenOutcome} (h : p.Sound) (ho : Opens suite p o now io r p') :
    p'.Sound := by
  have hrel := h.rel_decide (chopenField o.auth.channelId) emptyField io
  cases ho with
  | refused => exact h
  | retransmit => exact h
  | @undecided e hasks wal wal' d hwal hd hne =>
    refine h.of_more p.driver ?_ rfl rfl (fun _ => .inl) p.channels
    have hwal' : (wal.decide (chopenKey o.auth.channelId) [] io).2 = wal' := by rw [hd]
    rw [← hwal']
    rw [hwal] at hrel ⊢
    exact hrel
  | established acc channels wal hasks hr htomb hfresh =>
    have hwal : (p.wal.map fun wal => (wal.decide (chopenKey o.auth.channelId) [] io).2) = wal := by
      have := congrArg (Option.map Prod.snd) hfresh
      simpa [Option.map_map, Function.comp_def] using this
    refine h.of_more (p.driver.retain o.auth acc) (hwal ▸ hrel) rfl rfl (fun cid hcid => ?_)
      channels
    simp only [ChannelDriver.retain, HashMap.lookup_insert_ite] at hcid
    split_ifs at hcid with he
    · right
      rintro w rfl
      cases hpw : p.wal with
      | none => simp [hpw] at hfresh
      | some w₀ =>
        rw [hpw, Option.map_some, Option.map_some, Option.some_inj] at hfresh
        rw [he]
        exact (decide_fresh (h.wal w₀ hpw) (chopenField o.auth.channelId) emptyField hfresh).2
    · exact .inl hcid

/-- What a life keeps while it handles no OPEN: a channel that is retained may be terminated. -/
structure GoesOn (p p' : Process) : Prop where
  wal : Option.Rel More p.wal p'.wal
  durable : p'.driver.durable = p.driver.durable
  tombstones : p'.driver.tombstones = p.driver.tombstones
  retained : ∀ cid, p'.driver.retained.lookup cid = p.driver.retained.lookup cid ∨
    p'.driver.retained.lookup cid =
      (p.driver.retained.lookup cid).map fun r => { r with terminated := true }

theorem GoesOn.of_driver {p : Process} (h : p.Sound) (driver : ChannelDriver)
    (hdur : driver.durable = p.driver.durable) (htomb : driver.tombstones = p.driver.tombstones)
    (hret : driver.retained = p.driver.retained) (channels : HashMap (ByteArr 8) ChannelState) :
    GoesOn p { p with driver, channels } :=
  ⟨h.rel_refl, hdur, htomb, fun _ => .inl (by rw [hret])⟩

/-- A file that knows what the store does. -/
def Saves (wal : Wal) (disk : Bytes) : Prop :=
  ∀ k, (wal.map.lookup k).isSome → ((OneDecision.replay disk).1.lookup k).isSome

theorem Process.Sound.saves {p : Process} (h : p.Sound) {f : Wal → Bytes}
    (hf : ∀ wal, wal.Sound → Saves wal (f wal)) : Option.Rel Saves p.wal (p.wal.map f) := by
  cases hw : p.wal with
  | none => exact .none
  | some wal => exact .some (hf wal (h.wal wal hw))

/-- A life handles an OPEN, goes on, or ends. -/
theorem up_cases (suite : Suite) (config : Config) {p : Process} (h : p.Sound) (e : Event) :
    (∃ o now io, e = .channelOpen o now io) ∨
    (∃ p' a, step suite config (.up p) e = (.up p', a) ∧ GoesOn p p') ∨
    ∃ disk, step suite config (.up p) e = (.down disk, .none) ∧ Option.Rel Saves p.wal disk := by
  rcases e with ⟨o, now, io⟩ | ⟨req, now⟩ | cid | ⟨cid, f⟩ | ⟨key, snapshot⟩ | key |
    ⟨key, value, io⟩ | _ | ⟨o, now, landed⟩ | ⟨key, value, landed⟩ | ⟨io, entries⟩
  case channelOpen => exact .inl ⟨o, now, io, rfl⟩
  case ackRequest => exact .inr (.inl ⟨p, _, rfl, .of_driver h _ rfl rfl rfl _⟩)
  case terminate =>
    have hterm := terminate_tombstones p.driver cid
    refine .inr (.inl ⟨_, _, rfl, h.rel_refl, hterm.2, hterm.1, fun cid' => ?_⟩)
    rw [terminate_lookup]
    by_cases hcid : cid' = cid
    · simp [hcid]
    · simp [hcid]
  case meter =>
    rw [step]
    split
    · exact .inr (.inl ⟨_, _, rfl, .of_driver h _ rfl rfl rfl _⟩)
    · exact .inr (.inl ⟨_, _, rfl, .of_driver h _ rfl rfl rfl _⟩)
  case recordChainSnapshot =>
    exact .inr (.inl ⟨_, _, rfl, .of_driver h (p.driver.recordChainSnapshot key snapshot)
      rfl rfl rfl _⟩)
  case removeChainSnapshot =>
    exact .inr (.inl ⟨_, _, rfl, .of_driver h (p.driver.removeChainSnapshot key) rfl rfl rfl _⟩)
  case decide =>
    exact .inr (.inl ⟨_, _, rfl, h.rel_decide key value io, rfl, rfl, fun _ => .inl rfl⟩)
  case crash =>
    exact .inr (.inr ⟨_, rfl, h.saves fun _ hs _ => wal_crash hs⟩)
  case crashInOpen =>
    refine .inr (.inr ⟨_, rfl, ?_⟩)
    split_ifs
    · exact h.saves fun _ hs _ => wal_crashIn hs (chopenField o.auth.channelId) emptyField landed
    · exact h.saves fun _ hs _ => wal_crash hs
  case crashIn => exact .inr (.inr ⟨_, rfl, h.saves fun _ hs _ => wal_crashIn hs key value landed⟩)
  case start => exact .inr (.inl ⟨p, _, rfl, .of_driver h _ rfl rfl rfl _⟩)

theorem step_sound {s : Service} (h : s.Sound) (e : Event) : (step suite config s e).1.Sound := by
  rcases s with disk | p
  · obtain ⟨disk', heq, -⟩ | ⟨d, driver, wal, -, heq, hsound, -, hret, hdur, htomb⟩ :=
      down_cases suite config disk e
    · rw [heq]
      trivial
    · rw [heq]
      refine ⟨fun _ he => Option.some_inj.1 he ▸ hsound, hdur, ?_⟩
      intro _ he cid hcid
      rw [← Option.some_inj.1 he]
      rw [hret] at hcid
      rcases hcid with hcid | hcid
      · simp at hcid
      · exact (htomb cid).1 hcid
  · replace h : p.Sound := h
    obtain ⟨o, now, io, rfl⟩ | ⟨p', a, heq, hgoes⟩ | ⟨disk, heq, -⟩ :=
      up_cases suite config h e
    · exact opens_sound h (openChannel_opens suite h.durable o now io)
    · rw [heq]
      refine h.of_more p'.driver hgoes.wal hgoes.durable hgoes.tombstones (fun cid hcid => ?_) _
      left
      rcases hgoes.retained cid with hret | hret <;> rw [hret] at hcid
      · exact hcid
      · rwa [Option.isSome_map] at hcid
    · rw [heq]
      trivial

theorem begin_sound (disk : Option Bytes) : (begin suite config disk).Sound := by
  cases disk with
  | none => exact ⟨nofun, rfl, nofun⟩
  | some disk => trivial

/-! ## Created once -/

theorem opens_known {p p' : Process} {o : ChannelOpen} {now : ℕ} {io : AppendIo}
    {r : Except ChannelError OpenOutcome} (h : p.Sound) (ho : Opens suite p o now io r p')
    {cid : ByteArr 8} (hk : (Service.up p).Known cid) : (Service.up p').Known cid := by
  cases ho with
  | refused => exact hk
  | retransmit => exact hk
  | @undecided e hasks wal wal' d hwal hd hne =>
    simp only [Service.Known, hwal] at hk ⊢
    have hmore := more_decide (h.wal wal hwal) (chopenField o.auth.channelId) emptyField io
    have hwal' : (wal.decide (chopenKey o.auth.channelId) [] io).2 = wal' := by rw [hd]
    exact hwal' ▸ hmore.2 _ hk
  | established acc channels wal hasks hr htomb hfresh =>
    cases hpw : p.wal with
    | none =>
      obtain rfl : wal = none := by simpa [hpw] using hfresh.symm
      simp only [Service.Known, hpw, ChannelDriver.retain, HashMap.lookup_insert_ite] at hk ⊢
      split_ifs
      · rfl
      · exact hk
    | some w =>
      cases wal with
      | none => simp [hpw] at hfresh
      | some w' =>
        rw [hpw, Option.map_some, Option.map_some, Option.some_inj] at hfresh
        simp only [Service.Known, hpw] at hk ⊢
        have hmore := more_decide (h.wal w hpw) (chopenField o.auth.channelId) emptyField io
        have hw' : (w.decide (chopenKey o.auth.channelId) [] io).2 = w' := by rw [hfresh]
        exact hw' ▸ hmore.2 _ hk

theorem step_known {s : Service} (h : s.Sound) (e : Event) {cid : ByteArr 8} (hk : s.Known cid) :
    (step suite config s e).1.Known cid := by
  rcases s with disk | p
  · obtain ⟨disk', heq, hrel⟩ | ⟨d, driver, wal, rfl, heq, -, hmap, -⟩ :=
      down_cases suite config disk e
    · rw [heq]
      cases hrel with
      | none => exact nofun
      | some hrep =>
        intro bytes hbytes
        rw [← Option.some_inj.1 hbytes, hrep]
        exact hk _ rfl
    · rw [heq]
      show (wal.map.lookup (chopenKey cid)).isSome
      rw [hmap]
      exact hk d rfl
  · replace h : p.Sound := h
    obtain ⟨o, now, io, rfl⟩ | ⟨p', a, heq, hgoes⟩ | ⟨disk, heq, hsaves⟩ :=
      up_cases suite config h e
    · exact opens_known h (openChannel_opens suite h.durable o now io) hk
    · rw [heq]
      have hwal := hgoes.wal
      simp only [Service.Known] at hk ⊢
      cases hpw : p.wal <;> cases hpw' : p'.wal <;> rw [hpw, hpw'] at hwal <;> rw [hpw] at hk
      · rcases hgoes.retained cid with hret | hret <;> rw [hret]
        · exact hk
        · rwa [Option.isSome_map]
      · cases hwal
      · cases hwal
      · cases hwal with
        | some hmore => exact hmore.2 _ hk
    · rw [heq]
      simp only [Service.Known] at hk ⊢
      rintro bytes rfl
      cases hpw : p.wal with
      | none => rw [hpw] at hsaves; cases hsaves
      | some wal =>
        rw [hpw] at hsaves hk
        cases hsaves with
        | some hs => exact hs _ hk

/-- Only an OPEN to a life is answered with its outcome. -/
theorem opened_cases {s : Service} {e : Event} {r : Except ChannelError OpenOutcome}
    (h : (step suite config s e).2 = .opened r) :
    ∃ p o now io, s = .up p ∧ e = .channelOpen o now io ∧
      r = (p.openChannel suite o now io).1 := by
  rcases s with disk | p
  · obtain ⟨disk', heq, -⟩ | ⟨d, driver, wal, -, heq, -⟩ := down_cases suite config disk e <;>
      simp [heq] at h
  · cases e with
    | channelOpen o now io => exact ⟨p, o, now, io, rfl, rfl, (Answer.opened.inj h).symm⟩
    | meter cid f =>
      rw [step] at h
      split at h <;> cases h
    | _ => cases h

/-- Where metering is created, an OPEN for the channel is accepted. -/
theorem creates_cases {s : Service} (h : s.Sound) {e : Event} {cid : ByteArr 8}
    (hc : (creates suite config cid s e).isSome) :
    ∃ p o now io acc channels wal, s = .up p ∧ e = .channelOpen o now io ∧
      o.auth.channelId = cid ∧ p.driver.retained.lookup cid = none ∧
      p.wal.map (fun wal => wal.decide (chopenKey cid) [] io) = wal.map (fun wal => (.fresh, wal)) ∧
      (step suite config s e).1 =
        .up { driver := p.driver.retain o.auth acc, channels, wal } := by
  unfold creates at hc
  cases ha : (step suite config s e).2 with
  | opened r =>
    obtain ⟨p, o, now, io, rfl, rfl, hr⟩ := opened_cases ha
    rw [ha] at hc
    replace h : p.Sound := h
    have ho := openChannel_opens suite h.durable o now io
    have hstep : (step suite config (.up p) (.channelOpen o now io)).1 =
      .up (p.openChannel suite o now io).2 := rfl
    rw [hstep]
    rw [← hr] at ho
    generalize (p.openChannel suite o now io).2 = p' at ho
    cases ho with
    | refused => simp at hc
    | undecided => simp at hc
    | retransmit => simp at hc
    | established acc channels wal hasks hret htomb hfresh =>
      have hcid : o.auth.channelId = cid := by
        by_contra hne
        simp [hne, ChannelDriver.established] at hc
      subst hcid
      exact ⟨p, o, now, io, acc, channels, wal, rfl, rfl, rfl, hret, hfresh, rfl⟩
  | acked => simp [ha] at hc
  | none => simp [ha] at hc

theorem known_of_creates {s : Service} (h : s.Sound) {e : Event} {cid : ByteArr 8}
    (hc : (creates suite config cid s e).isSome) : (step suite config s e).1.Known cid := by
  obtain ⟨p, o, now, io, acc, channels, wal, rfl, rfl, rfl, hret, hfresh, heq⟩ := creates_cases h hc
  replace h : p.Sound := h
  rw [heq]
  cases wal with
  | none => simp [Service.Known, ChannelDriver.retain]
  | some w' =>
    cases hpw : p.wal with
    | none => simp [hpw] at hfresh
    | some w =>
      rw [hpw, Option.map_some, Option.map_some, Option.some_inj] at hfresh
      exact (decide_fresh (h.wal w hpw) (chopenField o.auth.channelId) emptyField hfresh).2

theorem creates_none_of_known {s : Service} (h : s.Sound) {e : Event} {cid : ByteArr 8}
    (hk : s.Known cid) : creates suite config cid s e = none := by
  rw [← Option.not_isSome_iff_eq_none]
  intro hc
  obtain ⟨p, o, now, io, acc, channels, wal, rfl, rfl, rfl, hret, hfresh, -⟩ := creates_cases h hc
  replace h : p.Sound := h
  simp only [Service.Known] at hk
  cases hpw : p.wal with
  | none =>
    rw [hpw] at hk
    simp [hret] at hk
  | some w =>
    rw [hpw] at hk hfresh
    cases wal with
    | none => simp at hfresh
    | some w' =>
      rw [Option.map_some, Option.map_some, Option.some_inj] at hfresh
      have hnone := (decide_fresh (h.wal w hpw) (chopenField o.auth.channelId) emptyField hfresh).1
      exact Option.not_isSome_iff_eq_none.2 hnone hk

/-! ## What an OPEN leaves alone -/

/-- A step whose OPEN is a retransmission answers with the stored acknowledgement and touches
nothing. -/
def RepeatsOnly (suite : Suite) (config : Config) (s : Service) (e : Event) : Prop :=
  ∀ ack, (step suite config s e).2 = .opened (.ok (.retransmit ack)) →
    (step suite config s e).1 = s ∧ ∃ p o now io r, s = .up p ∧ e = .channelOpen o now io ∧
      p.driver.retained.lookup o.auth.channelId = some r ∧ r.ack = ack

/-- A step that refuses an OPEN retains and consumes what it did, and so does its file. -/
def RefusesCleanly (suite : Suite) (config : Config) (s : Service) (e : Event) : Prop :=
  ∀ err, (step suite config s e).2 = .opened (.error err) →
    ∃ p p', s = .up p ∧ (step suite config s e).1 = .up p' ∧
      p'.driver.retained = p.driver.retained ∧
      p'.driver.consumedChainRefs = p.driver.consumedChainRefs ∧
      (step suite config s e).1.durable = s.durable

/-- An OPEN whose acceptance fails to be decided, on a disk that keeps the whole record of it. -/
def strands (suite : Suite) : Service → Event → Bool
  | .up p, .channelOpen o now io =>
    p.driver.asks suite o now && p.wal.any fun wal =>
      !wal.poisoned && (wal.map.lookup (chopenKey o.auth.channelId)).isNone &&
        io.strands (OneDecision.record (chopenKey o.auth.channelId) [])
  | _, _ => false

theorem repeatsOnly {s : Service} (h : s.Sound) (e : Event) : RepeatsOnly suite config s e := by
  intro ack ha
  obtain ⟨p, o, now, io, rfl, rfl, hr⟩ := opened_cases ha
  replace h : p.Sound := h
  have ho := openChannel_opens suite h.durable o now io
  rw [← hr] at ho
  have hstep : (step suite config (.up p) (.channelOpen o now io)).1 =
    .up (p.openChannel suite o now io).2 := rfl
  rw [hstep]
  generalize (p.openChannel suite o now io).2 = p' at ho
  cases ho with
  | retransmit r hasks hret hlive => exact ⟨rfl, p, o, now, io, r, rfl, rfl, hret, rfl⟩

/-- A decision that is not fresh leaves the decisions in the file alone, unless it fails and its
record is stranded. -/
theorem replay_of_not_fresh {wal wal' : Wal} (h : wal.Sound) (key value : Field) {io : AppendIo}
    {d : Decision} (hd : wal.decide key.bytes value.bytes io = (d, wal')) (hne : d ≠ .fresh) :
    (OneDecision.replay wal'.file.content).1 = (OneDecision.replay wal.file.content).1 ↔
      (!wal.poisoned && (wal.map.lookup key.bytes).isNone &&
        io.strands (OneDecision.record key.bytes value.bytes)) = false := by
  have hdec := OneDecision.Wal.Sound.decide h key value io
  rw [hd] at hdec
  cases hdec with
  | poisoned hp =>
    replace hp : wal'.poisoned = true := hp
    simp [hp]
  | already hp hk => simp [hk]
  | fresh => exact absurd rfl hne
  | failed hp hk hio hs hm hrep =>
    rw [hrep, h.replay_clean hp, hp, hk]
    cases io.strands (OneDecision.record key.bytes value.bytes) with
    | false => simp
    | true =>
      simp only [if_true, Bool.not_false, Option.isNone_none, Bool.and_self, Bool.true_eq_false,
        iff_false]
      intro heq
      rw [← heq, Finmap.lookup_insert] at hk
      cases hk

/-- What a step refuses stays as it was, unless the record of its channel is stranded. -/
theorem refusesCleanly_iff {s : Service} (h : s.Sound) (e : Event) :
    RefusesCleanly suite config s e ↔ strands suite s e = false := by
  by_cases hopen : ∃ p o now io, s = .up p ∧ e = .channelOpen o now io
  · obtain ⟨p, o, now, io, rfl, rfl⟩ := hopen
    replace h : p.Sound := h
    have ho := openChannel_opens suite h.durable o now io
    have hstep : step suite config (.up p) (.channelOpen o now io) =
      (.up (p.openChannel suite o now io).2, .opened (p.openChannel suite o now io).1) := rfl
    have hstrands : strands suite (.up p) (.channelOpen o now io) =
      (p.driver.asks suite o now && p.wal.any fun wal =>
        !wal.poisoned && (wal.map.lookup (chopenKey o.auth.channelId)).isNone &&
          io.strands (OneDecision.record (chopenKey o.auth.channelId) [])) := rfl
    rw [RefusesCleanly, hstep, hstrands]
    generalize (p.openChannel suite o now io).1 = r, (p.openChannel suite o now io).2 = p' at ho
    cases ho with
    | refused err hasks =>
      rw [hasks, Bool.false_and]
      exact iff_of_true (fun _ _ => ⟨p, p, rfl, rfl, rfl, rfl, rfl⟩) rfl
    | retransmit r hasks =>
      rw [hasks, Bool.false_and]
      exact iff_of_true nofun rfl
    | @undecided err hasks wal wal' d hwal hd hne =>
      have hiff := replay_of_not_fresh (h.wal wal hwal) (chopenField o.auth.channelId) emptyField
        hd hne
      have hbefore : (Service.up p).durable = (OneDecision.replay wal.file.content).1 := by
        simp [Service.durable, Process.disk, hwal]
      rw [hasks, Bool.true_and, hwal, Option.any_some, hbefore]
      refine Iff.trans ⟨fun hr => ?_, fun hr => ?_⟩ hiff
      · obtain ⟨_, _, -, -, -, -, hdur⟩ := hr err rfl
        exact hdur
      · exact fun _ _ => ⟨p, _, rfl, rfl, rfl, rfl, hr⟩
    | established acc channels wal hasks hret htomb hfresh =>
      rw [hasks, Bool.true_and]
      refine iff_of_true nofun ?_
      cases hwal : p.wal with
      | none => rfl
      | some w =>
        cases wal with
        | none => simp [hwal] at hfresh
        | some w' =>
          rw [hwal, Option.map_some, Option.map_some, Option.some_inj] at hfresh
          have hdec := (h.wal w hwal).decide (chopenField o.auth.channelId) emptyField io
          rw [show w.decide (chopenField o.auth.channelId).bytes emptyField.bytes io = _
            from hfresh] at hdec
          cases hdec with
          | fresh hp hk hio => simp [AppendIo.strands, hio]
  · refine iff_of_true (fun err herr => ?_) ?_
    · obtain ⟨p, o, now, io, hs, he, -⟩ := opened_cases herr
      exact absurd ⟨p, o, now, io, hs, he⟩ hopen
    · rcases s with disk | p
      · rfl
      · cases e with
        | channelOpen o now io => exact absurd ⟨p, o, now, io, rfl, rfl⟩ hopen
        | _ => rfl

/-- A channel is initialized at most once. -/
structure InitializesOnce (suite : Suite) (config : Config) (s : Service) (es : List Event) :
    Prop where
  created : ∀ cid, (marks (step suite config) (creates suite config cid) s es).length ≤ 1
  repeats : Along (step suite config) (RepeatsOnly suite config) s es
  refuses : Along (step suite config) (RefusesCleanly suite config) s es

theorem initializesOnce_iff (suite : Suite) (config : Config) (disk : Option Bytes)
    (es : List Event) : InitializesOnce suite config (begin suite config disk) es ↔
      Along (step suite config) (fun s e => strands suite s e = false)
        (begin suite config disk) es := by
  have hsound : Along (step suite config) (fun s _ => s.Sound) (begin suite config disk) es :=
    along_of_invariant (fun _ e h => step_sound h e) _ es (begin_sound disk)
  constructor
  · intro h
    exact (hsound.and h.refuses).mono fun s e hs => (refusesCleanly_iff hs.1 e).1 hs.2
  · intro h
    refine ⟨fun cid => ?_, hsound.mono fun s e hs => repeatsOnly hs e,
      (hsound.and h).mono fun s e hs => (refusesCleanly_iff hs.1 e).2 hs.2⟩
    exact marks_length_le_one (P := fun s => s.Sound ∧ s.Known cid)
      (fun s e hs hc => ⟨step_sound hs e, known_of_creates hs hc⟩)
      (fun s e hs hk => ⟨step_sound hs e, step_known hs e hk.2⟩)
      (fun s e hs hk => creates_none_of_known hs hk.2) _ es hsound

open Sample in
def sampleConfig : Config := ⟨merchantSk, merchantSk, "merchant"⟩

open Sample in
/-- The disk writes the record of an OPEN, but neither syncs it nor cuts it off again. -/
def strandedOpen : Event :=
  .channelOpen (openOn (terms (cid 1) none 1000)) 1000 ⟨none, false, false, true⟩

/-- The OPEN is refused, and its channel is accepted once the file is read again. -/
theorem strandedOpen_decides : ¬InitializesOnce keyedSuite sampleConfig
    (begin keyedSuite sampleConfig (some [])) [.start .good [], strandedOpen] := by
  intro h
  obtain ⟨-, hrefuses, -⟩ := h.refuses
  obtain ⟨_, _, -, -, -, -, hdurable⟩ := hrefuses .storeUnavailable (by decide +kernel)
  revert hdurable
  decide +kernel

end Retention

end Paytp
