import Paytp.Proofs.Replays
import Paytp.Proofs.Watermark

/-!
# Restarts on the same store

What a carriage built on a store recorded of its references and dispositions is what a restart
on the store replays. A disposition that is terminal stays, and is the recorded one but for a
draw that is made since and for an import that the store failed to record.
-/

namespace Paytp

/-! ## Moving -/

namespace Guards

variable {fails : StoreFaults} {fresh lossy lossy' : Prop} {g g' : Guards} {key value : Bytes}
  {store : DecisionStore}

/-- How the disposition recorded of a channel and the live one go together. -/
inductive Mirrors (lossy : Prop) : Option ChainState → Option ChainState → Prop
  | unset : Mirrors lossy none none
  | pending : Mirrors lossy none (some .pending)
  | terminal {d : ChainState} (hd : d.Terminal) : Mirrors lossy (some d) (some d)
  | drawn (draw : ByteArr 32 × ℕ) :
    Mirrors lossy (some (.reconciled (some draw))) (some (.reconciled none))
  | lost (h : lossy) (successor : ByteArr 8) :
    Mirrors lossy none (some (.committed successor))

theorem Mirrors.mono (himp : lossy → lossy') {recorded live : Option ChainState}
    (h : Mirrors lossy recorded live) : Mirrors lossy' recorded live := by
  cases h with
  | unset => exact .unset
  | pending => exact .pending
  | terminal hd => exact .terminal hd
  | drawn draw => exact .drawn draw
  | lost h successor => exact .lost (himp h) successor

/-- A channel that is live without a terminal disposition has none recorded. -/
theorem Mirrors.recorded_none {recorded live : Option ChainState}
    (h : Mirrors lossy recorded live) (hlive : ∀ d, live = some d → ¬ d.Terminal) :
    recorded = none := by
  cases h with
  | unset => rfl
  | pending => rfl
  | terminal hd => exact absurd hd (hlive _ rfl)
  | drawn draw => exact absurd trivial (hlive _ rfl)
  | lost h successor => rfl

/-- Guards on a store whose records all replay, where the dispositions of `lossy` channels may
be live only. -/
structure Durable (lossy : ByteArr 8 → Prop) (g : Guards) (store : DecisionStore) : Prop where
  decisions : g.decisions = some store
  clean : ∀ {key value : Bytes}, store.lookup key = some value → Clean (key, value)
  consumed : ∀ r, r ∈ g.consumedFunding ↔ store.lookup (fundKey r) = some []
  mirrors : ∀ cid, Mirrors (lossy cid) (store.recorded cid) (g.chainState.lookup cid)

/-- A clean record of a channel is one of a terminal disposition. -/
theorem lookup_of_recorded_none (hclean : ∀ {key value : Bytes},
    store.lookup key = some value → Clean (key, value)) {cid : ByteArr 8}
    (h : store.recorded cid = none) : store.lookup (dispKey cid) = none := by
  rw [Option.eq_none_iff_forall_ne_some]
  intro value hvalue
  have hrecord := hclean hvalue
  rw [DecisionStore.recorded, hvalue, Option.bind_some] at h
  generalize hkey : dispKey cid = key at hrecord
  cases hrecord with
  | fund r => exact fundKey_ne r cid hkey.symm
  | disp cid' hd =>
    rw [decodeDisp_encodeDisp hd] at h
    cases h
  | other hfund hdisp hopen =>
    rw [← hkey, dropPrefix?_disp] at hdisp
    cases hdisp

/-- What is decided of a key: what was, or else what it is given. -/
theorem lookup_decide (hgo : fails key = false) :
    (DecisionStore.decide fails store key value).2.lookup key =
      some ((store.lookup key).getD value) := by
  unfold DecisionStore.decide
  rw [if_neg (by simp [hgo])]
  cases hlookup : store.lookup key with
  | none => exact Finmap.lookup_insert _
  | some old => exact hlookup

theorem clean_decide (hclean : ∀ {key value : Bytes},
    store.lookup key = some value → Clean (key, value)) (h : Clean (key, value))
    {key' value' : Bytes}
    (hlookup : (DecisionStore.decide fails store key value).2.lookup key' = some value') :
    Clean (key', value') := by
  by_cases hkey : key' = key
  · subst hkey
    unfold DecisionStore.decide at hlookup
    split_ifs at hlookup
    · exact hclean hlookup
    · split at hlookup
      · exact hclean hlookup
      · rw [Finmap.lookup_insert, Option.some_inj] at hlookup
        rw [← hlookup]
        exact h
  · rw [decide_lookup_of_ne hkey] at hlookup
    exact hclean hlookup

theorem recorded_decide_of_ne {cid : ByteArr 8} (h : dispKey cid ≠ key) :
    DecisionStore.recorded (DecisionStore.decide fails store key value).2 cid =
      store.recorded cid := by
  rw [DecisionStore.recorded, DecisionStore.recorded, decide_lookup_of_ne h]

/-- A disposition that is recorded is never recorded anew. -/
theorem recorded_decide {cid : ByteArr 8} {d : ChainState} (h : store.recorded cid = some d) :
    DecisionStore.recorded (DecisionStore.decide fails store key value).2 cid = some d := by
  obtain ⟨record, hrecord, hd⟩ := Option.bind_eq_some_iff.1 h
  by_cases hkey : dispKey cid = key
  · subst hkey
    unfold DecisionStore.decide
    split_ifs
    · exact h
    · rw [hrecord]
      exact h
  · rw [recorded_decide_of_ne hkey, h]

/-- The record of a reference has no value. -/
theorem value_of_fundKey {r : String} (h : Clean (fundKey r, value)) : value = [] := by
  generalize hrecord : (fundKey r, value) = record at h
  cases h with
  | fund r' => exact (Prod.ext_iff.1 hrecord).2
  | disp cid hd => exact absurd (Prod.ext_iff.1 hrecord).1 (fundKey_ne r cid)
  | other hfund hdisp hopen =>
    obtain ⟨rfl, -⟩ := Prod.ext_iff.1 hrecord
    dsimp only at hfund
    rw [dropPrefix?_fundKey] at hfund
    cases hfund

theorem Other.ne_fundKey (h : Guards.Other key) (r : String) : fundKey r ≠ key := by
  rintro rfl
  cases value_of_fundKey (h.clean [0])

namespace Durable

variable {lossy : ByteArr 8 → Prop}

theorem mem_decide_iff (h : g.Durable lossy store) {r : String} (hne : fundKey r ≠ key) :
    r ∈ g.consumedFunding ↔
      (DecisionStore.decide fails store key value).2.lookup (fundKey r) = some [] := by
  rw [decide_lookup_of_ne hne, h.consumed]

/-- A disposition that is recorded where none was. -/
theorem recorded_fresh (h : g.Durable lossy store) {cid : ByteArr 8} {d : ChainState}
    (hnone : store.recorded cid = none) (hd : d.Terminal) (hgo : fails (dispKey cid) = false) :
    DecisionStore.recorded (DecisionStore.decide fails store (dispKey cid) (encodeDisp d)).2 cid =
      some d := by
  rw [DecisionStore.recorded, lookup_decide hgo, lookup_of_recorded_none h.clean hnone,
    Option.getD_none, Option.bind_some, decodeDisp_encodeDisp hd]

/-- Guards that decide a key whose record is clean stay durable, if what is live of it goes with
what is recorded. -/
theorem decided (h : g.Durable lossy store) (hclean : Clean (key, value))
    (hstore : g'.decisions = (g.decide fails key value).decisions)
    (hconsumed : ∀ r, r ∈ g'.consumedFunding ↔
      (DecisionStore.decide fails store key value).2.lookup (fundKey r) = some [])
    (hmirrors : ∀ cid, Mirrors (lossy cid)
      (DecisionStore.recorded (DecisionStore.decide fails store key value).2 cid)
      (g'.chainState.lookup cid)) :
    g'.Durable lossy (DecisionStore.decide fails store key value).2 := by
  refine ⟨?_, fun hlookup => clean_decide h.clean hclean hlookup, hconsumed, hmirrors⟩
  rw [hstore, Guards.decide, h.decisions, Option.map_some]

/-- What a channel has before it is given a terminal disposition. -/
theorem recorded_none (h : g.Durable lossy store) {cid : ByteArr 8}
    (hlive : ∀ d, g.chainState.lookup cid = some d → ¬ d.Terminal) :
    store.recorded cid = none :=
  (h.mirrors cid).recorded_none hlive

theorem prior_eq (h : g.Durable lossy store) (cid : ByteArr 8) :
    g.prior cid = (g.chainState.lookup cid).or (store.recorded cid) := by
  rw [prior, h.decisions, Option.bind_some, DecisionStore.recorded]

/-- What is live and recorded of one channel is changed. -/
theorem mirrors_insert (h : g.Durable lossy store) {store' : DecisionStore} {cid : ByteArr 8}
    {d : ChainState} (hcid : Mirrors (lossy cid) (store'.recorded cid) (some d))
    (hother : ∀ cid', cid' ≠ cid → store'.recorded cid' = store.recorded cid')
    (cid' : ByteArr 8) :
    Mirrors (lossy cid') (store'.recorded cid') ((g.chainState.insert cid d).lookup cid') := by
  rw [HashMap.lookup_insert_ite]
  split_ifs with heq
  · rw [heq]
    exact hcid
  · rw [hother cid' heq]
    exact h.mirrors cid'

/-- A terminal disposition is decided of a channel. -/
theorem disposed (h : g.Durable lossy store) {cid : ByteArr 8} {d : ChainState} (hd : d.Terminal)
    (hcid : Mirrors (lossy cid)
      (DecisionStore.recorded (DecisionStore.decide fails store (dispKey cid) (encodeDisp d)).2 cid)
      (some d)) :
    Durable lossy
      { g.decide fails (dispKey cid) (encodeDisp d) with chainState := g.chainState.insert cid d }
      (DecisionStore.decide fails store (dispKey cid) (encodeDisp d)).2 :=
  h.decided (.disp cid hd) rfl (fun r => h.mem_decide_iff (fundKey_ne r cid))
    (h.mirrors_insert hcid fun _ hne => recorded_decide_of_ne fun he => hne (dispKey_inj.1 he))

/-- A move keeps guards durable, and every disposition that is recorded. -/
theorem move (h : g.Durable lossy store) (hmove : Move fails fresh g g') (hfresh : fresh)
    (hlossy : ∀ cid, fails (dispKey cid) = true → lossy cid) :
    ∃ store', g'.Durable lossy store' ∧
      ∀ cid d, store.recorded cid = some d → store'.recorded cid = some d := by
  cases hmove with
  | @other key value hkey =>
    refine ⟨_, h.decided (hkey.clean value) rfl (fun r => h.mem_decide_iff (hkey.ne_fundKey r))
      fun cid => ?_, fun _ _ => recorded_decide⟩
    rw [recorded_decide_of_ne (hkey.ne_dispKey cid).symm]
    exact h.mirrors cid
  | @consume r hdecides =>
    have hgo : fails (fundKey r) = false := hdecides (by rw [h.decisions]; rfl)
    refine ⟨_, h.decided (.fund r) rfl (fun r' => ?_) fun cid => ?_, fun _ _ => recorded_decide⟩
    · show r' ∈ insert r g.consumedFunding ↔ _
      rw [Finset.mem_insert]
      by_cases hr : r' = r
      · subst hr
        have hempty : (store.lookup (fundKey r')).getD [] = [] := by
          cases hold : store.lookup (fundKey r') with
          | none => rfl
          | some value => exact value_of_fundKey (h.clean hold)
        rw [lookup_decide hgo, hempty]
        simp
      · rw [← h.mem_decide_iff fun he => hr (fundKey_inj.1 he)]
        simp [hr]
    · rw [recorded_decide_of_ne (fundKey_ne r cid).symm]
      exact h.mirrors cid
  | @pending cid hprior =>
    rw [h.prior_eq, Option.or_eq_none_iff] at hprior
    refine ⟨store, ⟨h.decisions, h.clean, h.consumed, ?_⟩, fun _ _ hd => hd⟩
    refine h.mirrors_insert ?_ fun _ _ => rfl
    rw [hprior.2]
    exact .pending
  | @commit cid successor hopen hover =>
    have hnone : store.recorded cid = none := h.recorded_none fun d hd hterminal => by
      cases d with
      | pending => exact hterminal
      | committed other => exact hover hfresh other hd
      | reconciled draw => exact hopen draw hd
    refine ⟨_, h.disposed (d := .committed successor) trivial ?_, fun _ _ => recorded_decide⟩
    cases hgo : fails (dispKey cid) with
    | false =>
      rw [h.recorded_fresh (d := .committed successor) hnone trivial hgo]
      exact .terminal trivial
    | true =>
      unfold DecisionStore.decide
      rw [if_pos hgo, hnone]
      exact .lost (hlossy cid hgo) successor
  | @reconcile cid draw hdraw hdecides hfirst =>
    have hgo : fails (dispKey cid) = false := hdecides (by rw [h.decisions]; rfl)
    have hnone : store.recorded cid = none := h.recorded_none fun d hd hterminal => by
      rw [h.prior_eq, hd, Option.some_or] at hfirst
      obtain hfirst | hfirst := hfirst
      · cases hfirst
      · rw [Option.some_inj.1 hfirst] at hterminal
        exact hterminal
    refine ⟨_, h.disposed hdraw ?_, fun _ _ => recorded_decide⟩
    rw [h.recorded_fresh hnone hdraw hgo]
    exact .terminal hdraw
  | @drawn cid draw hlive =>
    refine ⟨store, ⟨h.decisions, h.clean, h.consumed, ?_⟩, fun _ _ hd => hd⟩
    refine h.mirrors_insert ?_ fun _ _ => rfl
    have hmirror := h.mirrors cid
    rw [hlive] at hmirror
    generalize store.recorded cid = recorded at hmirror ⊢
    cases hmirror
    exact .drawn draw

theorem moves (h : g.Durable lossy store) (hmoves : Moves fails fresh g g') (hfresh : fresh)
    (hlossy : ∀ cid, fails (dispKey cid) = true → lossy cid) :
    ∃ store', g'.Durable lossy store' ∧
      ∀ cid d, store.recorded cid = some d → store'.recorded cid = some d := by
  refine hmoves.keep (P := fun g => ∃ store', g.Durable lossy store' ∧
    ∀ cid d, store.recorded cid = some d → store'.recorded cid = some d) ?_
    ⟨store, h, fun _ _ hd => hd⟩
  rintro g₁ g₂ hmove ⟨store₁, h₁, hkept⟩
  obtain ⟨store₂, h₂, hkept'⟩ := h₁.move hmove hfresh hlossy
  exact ⟨store₂, h₂, fun cid d hd => hkept' cid d (hkept cid d hd)⟩

end Durable

/-- What a terminal disposition may become: a draw that is made is pinned no more. -/
def Stays (d d' : ChainState) : Prop :=
  d' = d ∨ ∃ draw, d = .reconciled (some draw) ∧ d' = .reconciled none

theorem Stays.trans {d d' d'' : ChainState} (h : Stays d d') (h' : Stays d' d'') :
    Stays d d'' := by
  rcases h with rfl | ⟨draw, rfl, rfl⟩
  · exact h'
  · rcases h' with rfl | ⟨draw', hd, -⟩
    · exact .inr ⟨draw, rfl, rfl⟩
    · cases hd

theorem Stays.terminal {d d' : ChainState} (h : Stays d d') (hd : d.Terminal) : d'.Terminal := by
  rcases h with rfl | ⟨draw, rfl, rfl⟩
  · exact hd
  · exact trivial

/-- A move leaves a terminal disposition, but for a draw that is made. -/
theorem Move.stays (hmove : Move fails fresh g g') (hfresh : fresh) {cid : ByteArr 8}
    {d : ChainState} (h : g.chainState.lookup cid = some d) (hd : d.Terminal) :
    ∃ d', g'.chainState.lookup cid = some d' ∧ Stays d d' := by
  have hother : ∀ {cid' : ByteArr 8} (d' : ChainState), cid ≠ cid' →
      ∃ d'', (g.chainState.insert cid' d').lookup cid = some d'' ∧ Stays d d'' := by
    intro cid' d' hne
    rw [Finmap.lookup_insert_of_ne _ hne]
    exact ⟨d, h, .inl rfl⟩
  cases hmove with
  | other => exact ⟨d, h, .inl rfl⟩
  | consume => exact ⟨d, h, .inl rfl⟩
  | @pending cid' hprior =>
    refine hother _ ?_
    rintro rfl
    rw [prior, h, Option.some_or] at hprior
    cases hprior
  | @commit cid' successor hopen hover =>
    refine hother _ ?_
    rintro rfl
    cases d with
    | pending => exact hd
    | committed other => exact hover hfresh other h
    | reconciled draw => exact hopen draw h
  | @reconcile cid' draw hdraw hdecides hfirst =>
    refine hother _ ?_
    rintro rfl
    rw [prior, h, Option.some_or] at hfirst
    obtain hfirst | hfirst := hfirst
    · cases hfirst
    · rw [Option.some_inj.1 hfirst] at hd
      exact hd
  | @drawn cid' draw hlive =>
    by_cases hcid : cid = cid'
    · subst hcid
      rw [hlive, Option.some_inj] at h
      exact ⟨.reconciled none, Finmap.lookup_insert _, .inr ⟨draw, h.symm, rfl⟩⟩
    · exact hother _ hcid

theorem Moves.stays (hmoves : Moves fails fresh g g') (hfresh : fresh) {cid : ByteArr 8}
    {d : ChainState} (h : g.chainState.lookup cid = some d) (hd : d.Terminal) :
    ∃ d', g'.chainState.lookup cid = some d' ∧ Stays d d' := by
  refine hmoves.keep (P := fun g => ∃ d', g.chainState.lookup cid = some d' ∧ Stays d d') ?_
    ⟨d, h, .inl rfl⟩
  rintro g₁ g₂ hmove ⟨d₁, h₁, hstays⟩
  obtain ⟨d₂, h₂, hstays'⟩ := hmove.stays hfresh h₁ (hstays.terminal hd)
  exact ⟨d₂, h₂, hstays.trans hstays'⟩

end Guards

namespace Carriage

open Guards (Mirrors Stays)

variable {ρ : Type} {env : Env ρ} {s s' : Carriage ρ} {lossy : ByteArr 8 → Prop}
  {store : DecisionStore} {driver : ChannelDriver} {rail : ρ} {entries : List (Bytes × Bytes)}

/-- A carriage that is built on a store has its guards as the store records them. -/
theorem proof_durable (h : proof driver rail entries = some s) :
    ∃ store, s.guards.Durable (fun _ => False) store := by
  obtain ⟨tombstones, htomb, h⟩ := Option.bind_eq_some_iff.1 h
  obtain ⟨s₁, hfold, rfl⟩ := Option.map_eq_some_iff.1 h
  have hrebuilt := foldlM_rebuilt hfold (.inl rfl) (rebuilt_empty _ _ _)
  have hclean := foldlM_clean hfold (tombstonesOf_isSome.1 (by rw [htomb, Option.isSome_some]))
  refine ⟨_, rfl, fun {key value} hlookup => ?_, hrebuilt.consumed, fun cid => ?_⟩
  · rcases DecisionStore.mem_of_lookup_foldl entries ∅ hlookup with hmem | hlookup
    · exact hclean _ hmem
    · cases hlookup
  · have hlive : s₁.chainState.lookup cid = _ := hrebuilt.dispositions cid
    show Mirrors False _ (s₁.chainState.lookup cid)
    rw [hlive]
    generalize hrec : DecisionStore.recorded _ cid = recorded
    cases recorded with
    | none => exact .unset
    | some d =>
      obtain ⟨record, -, hd⟩ := Option.bind_eq_some_iff.1 hrec
      exact .terminal (decodeDisp_eq_some.1 hd).1

/-- Durable guards restart. -/
theorem proof_restarts (h : s.guards.Durable lossy store) (hlists : store.Lists entries)
    (driver : ChannelDriver) (rail : ρ) :
    ∃ t, proof driver rail entries = some t ∧ t.decisions = some store ∧
      t.guards.Rebuilt store := by
  have hclean : ∀ e ∈ entries, Clean e := fun e he => h.clean (hlists.mem_iff.1 he)
  have hchopen : Bytes.ofString "chopen:" = 99 :: [104, 111, 112, 101, 110, 58] := by decide
  have hopen : (tombstonesOf entries).isSome = true := by
    rw [tombstonesOf_isSome]
    intro e he cid hcid
    cases hclean e he with
    | fund r =>
      dsimp only at hcid
      rw [dropPrefix?_of_head (head_fundKey r) hchopen (by decide)] at hcid
      cases hcid
    | disp cid' hd =>
      dsimp only at hcid
      rw [dropPrefix?_of_head (head_dispKey cid') hchopen (by decide)] at hcid
      cases hcid
    | other hfund hdisp hlen => exact hlen cid hcid
  obtain ⟨tombstones, htomb⟩ := Option.isSome_iff_exists.1 hopen
  let driver' : ChannelDriver :=
    { driver with tombstones := driver.tombstones ∪ tombstones, durable := true }
  have hsome : (replayGuards true { (empty driver' .proof : Carriage ρ) with rail := some rail }
      entries).isSome = true :=
    replayGuards_isSome _ fun e he s => replayGuard_isSome (hclean e he) s
  obtain ⟨t, ht⟩ := Option.isSome_iff_exists.1 hsome
  refine ⟨t, ?_, replayGuards_rebuilt ht hlists (rebuilt_empty _ _ _)⟩
  rw [proof, htomb]
  exact ht

/-- A lenient restart never stops. -/
theorem demo_restarts (hlists : store.Lists entries) (driver : ChannelDriver) (rail : Option ρ) :
    ∃ t, demo driver rail (some entries) = some t ∧ t.decisions = some store ∧
      t.guards.Rebuilt store := by
  have hsome : (replayGuards false { (empty driver .demo : Carriage ρ) with rail }
      entries).isSome = true :=
    replayGuards_isSome _ fun e _ s => replayGuard_lenient e s
  obtain ⟨t, ht⟩ := Option.isSome_iff_exists.1 hsome
  exact ⟨t, ht, replayGuards_rebuilt ht hlists (rebuilt_empty _ _ _)⟩

/-! ## Runs -/

/-- A run that imports no stale snapshot keeps guards durable, and every disposition that is
recorded. -/
theorem exec_durable : ∀ (s : Carriage ρ) (es : List (Event ρ)) {store : DecisionStore},
    Along (step env) (fun s e => s.importsStale env e = false) s es →
    (∀ e ∈ es, ∀ cid, e.fails (dispKey cid) = true → lossy cid) →
    s.guards.Durable lossy store →
    ∃ store', (exec (step env) s es).guards.Durable lossy store' ∧
      ∀ cid d, store.recorded cid = some d → store'.recorded cid = some d
  | _, [], store, _, _, hs => ⟨store, hs, fun _ _ hd => hd⟩
  | s, e :: es, store, hfresh, hlossy, hs => by
    rw [List.forall_mem_cons] at hlossy
    have hmoves : Guards.Moves e.fails (s.importsStale env e = false) s.guards
      (step env s e).1.guards := s.step_moves e
    obtain ⟨store₁, h₁, hkept⟩ := hs.moves hmoves hfresh.1 hlossy.1
    obtain ⟨store₂, h₂, hkept'⟩ := exec_durable _ es hfresh.2 hlossy.2 h₁
    exact ⟨store₂, h₂, fun cid d hd => hkept' cid d (hkept cid d hd)⟩

/-- In a run that imports no stale snapshot a terminal disposition stays, but for a draw that is
made. -/
theorem exec_stays : ∀ (s : Carriage ρ) (es : List (Event ρ)) {cid : ByteArr 8} {d : ChainState},
    Along (step env) (fun s e => s.importsStale env e = false) s es →
    s.chainState.lookup cid = some d → d.Terminal →
    ∃ d', (exec (step env) s es).chainState.lookup cid = some d' ∧ Stays d d'
  | _, [], _, d, _, hlive, _ => ⟨d, hlive, .inl rfl⟩
  | s, e :: es, cid, d, hfresh, hlive, hd => by
    have hmoves : Guards.Moves e.fails (s.importsStale env e = false) s.guards
      (step env s e).1.guards := s.step_moves e
    obtain ⟨d₁, h₁, hstays⟩ := hmoves.stays hfresh.1 hlive hd
    obtain ⟨d₂, h₂, hstays'⟩ := exec_stays _ es hfresh.2 h₁ (hstays.terminal hd)
    exact ⟨d₂, h₂, hstays.trans hstays'⟩

/-- How a carriage and a restart on its store go together, where the store may have failed to
record the imports of `lossy` channels. -/
structure RestartOf (lossy : ByteArr 8 → Prop) (s t : Carriage ρ) : Prop where
  store : t.decisions = s.decisions
  rebuilt : ∀ store, s.decisions = some store → t.guards.Rebuilt store
  consumed : t.consumedFunding = s.consumedFunding
  mirrors : ∀ cid, Mirrors (lossy cid) (t.chainState.lookup cid) (s.chainState.lookup cid)

theorem restartOf (h : s.guards.Durable lossy store) (hlists : store.Lists entries)
    (driver : ChannelDriver) (rail : ρ) :
    ∃ t, proof driver rail entries = some t ∧ RestartOf lossy s t := by
  obtain ⟨t, ht, hstore, hrebuilt⟩ := proof_restarts h hlists driver rail
  have hs : s.decisions = some store := h.decisions
  refine ⟨t, ht, by rw [hstore, hs], fun store' hstore' => ?_, ?_, fun cid => ?_⟩
  · rw [hs, Option.some_inj] at hstore'
    rw [← hstore']
    exact hrebuilt
  · ext r
    exact (hrebuilt.consumed r).trans (h.consumed r).symm
  · have hlive : t.chainState.lookup cid = store.recorded cid := hrebuilt.dispositions cid
    rw [hlive]
    exact h.mirrors cid

/-- The record of a terminal disposition reads back, and nothing else does. A restart on a store
builds the references and the dispositions that are recorded, whatever run filled it. These are
the live ones, but for a draw made since and an import that the store failed to record, and
neither a recorded nor a live disposition changes once it is terminal, but for the draw. -/
theorem durable_dispositions (env : Env ρ) :
    (∀ bs d, decodeDisp bs = some d ↔ d.Terminal ∧ bs = encodeDisp d) ∧
    (∀ d d', d.Terminal → d'.Terminal → encodeDisp d = encodeDisp d' → d = d') ∧
    (∀ (store : DecisionStore) entries driver rail, store.Lists entries →
      ∃ t : Carriage ρ, demo driver rail (some entries) = some t ∧ t.decisions = some store ∧
        t.guards.Rebuilt store) ∧
    (∀ (s : Carriage ρ) es cid d, Along (step env) (fun s e => s.importsStale env e = false) s es →
      s.chainState.lookup cid = some d → d.Terminal →
        ∃ d', (exec (step env) s es).chainState.lookup cid = some d' ∧ Stays d d') ∧
    ∀ driver rail entries (s : Carriage ρ) es, proof driver rail entries = some s →
      Along (step env) (fun s e => s.importsStale env e = false) s es →
      ∃ store store', s.decisions = some store ∧
        (exec (step env) s es).decisions = some store' ∧
        (∀ cid d, store.recorded cid = some d → store'.recorded cid = some d) ∧
        ∀ driver' rail' entries', store'.Lists entries' →
          ∃ t, proof driver' rail' entries' = some t ∧
            RestartOf (fun cid => ∃ e ∈ es, e.fails (dispKey cid) = true)
              (exec (step env) s es) t := by
  refine ⟨fun _ _ => decodeDisp_eq_some, fun d d' hd hd' heq => ?_,
    fun _ _ driver rail hlists => demo_restarts hlists driver rail,
    fun s es _ _ hfresh hlive hd => exec_stays s es hfresh hlive hd,
    fun driver rail entries s es hproof hfresh => ?_⟩
  · have hback := decodeDisp_encodeDisp hd
    rw [heq, decodeDisp_encodeDisp hd', Option.some_inj] at hback
    exact hback.symm
  · obtain ⟨store, hdurable⟩ := proof_durable hproof
    have hstart : s.guards.Durable (fun cid => ∃ e ∈ es, e.fails (dispKey cid) = true) store :=
      ⟨hdurable.decisions, hdurable.clean, hdurable.consumed,
        fun cid => (hdurable.mirrors cid).mono False.elim⟩
    obtain ⟨store', hend, hkept⟩ :=
      exec_durable s es hfresh (fun e he cid hfails => ⟨e, he, hfails⟩) hstart
    exact ⟨store, store', hdurable.decisions, hend.decisions, hkept,
      fun driver' rail' _ hlists => restartOf hend hlists driver' rail'⟩

section sample

open Sample

/-- A prepay channel is metered and closes plainly while the rail is out; the draw that is pinned
is made when the CLOSE comes again. -/
def drawLate : List (Event VirtualRail) :=
  let close := closeOf (cid 1) (ckptRefOf (checkpointOf prepayTerms 500 prepaySlices)) false
  [sent (.channelOpen (openOn prepayTerms) 1000),
    sent (.rail (pay prepayTerms 500)),
    sent (.fundingProof (fundingOf prepayTerms "virt-ref:0" 500)),
    sent (.batch (cid 1) prepaySlices),
    sent (.checkpointRequest (checkpointOf prepayTerms 500 prepaySlices)),
    sent (.rail (payMeed prepayTerms 0)),
    sent (.rail fun rail => rail.setOutage true),
    sent (.close close),
    sent (.rail fun rail => rail.setOutage false),
    sent (.close close)]

/-- The draw of the last close. -/
def lateDraw : ByteArr 32 × ℕ :=
  (ckptRefOf (checkpointOf prepayTerms 500 prepaySlices), 4)

theorem durable_dispositions_drawLate : ∃ store,
    (exec (step Sample.env) start drawLate).decisions = some store ∧
      ∀ entries, store.Lists entries → ∃ t,
        proof Sample.driver (VirtualRail.new 0) entries = some t ∧
        t.consumedFunding = {"virt-ref:0"} ∧
        t.chainState.lookup (cid 1) = some (.reconciled (some lateDraw)) := by
  obtain ⟨-, -, -, -, hruns⟩ := durable_dispositions Sample.env
  obtain ⟨-, store, -, hstore, -, hrestart⟩ :=
    hruns _ _ _ start drawLate (Option.some_get _).symm (by decide +kernel)
  refine ⟨store, hstore, fun entries hlists => ?_⟩
  obtain ⟨t, ht, hof⟩ := hrestart Sample.driver (VirtualRail.new 0) entries hlists
  have hconsumed : (exec (step Sample.env) start drawLate).consumedFunding = {"virt-ref:0"} := by
    decide +kernel
  have hrecorded : (exec (step Sample.env) start drawLate).decisions.bind
      (fun store => store.recorded (cid 1)) = some (.reconciled (some lateDraw)) := by
    decide +kernel
  rw [hstore, Option.bind_some] at hrecorded
  refine ⟨t, ht, hof.consumed.trans hconsumed, ?_⟩
  rw [← hrecorded]
  exact (hof.rebuilt store hstore).dispositions (cid 1)

/-- A channel that is reconciled with its draw pinned is reconciled without when it is made, and
a restart does not tell. -/
theorem terminal_changes_drawLate : Built Sample.env start ∧
    Along (step Sample.env) (fun s e => s.importsStale Sample.env e = false) start drawLate ∧
    (exec (step Sample.env) start drawLate.dropLast).chainState.lookup (cid 1) =
      some (.reconciled (some lateDraw)) ∧
    (exec (step Sample.env) start drawLate).chainState.lookup (cid 1) =
      some (.reconciled none) ∧
    (exec (step Sample.env) start drawLate).decisions.bind (fun store => store.recorded (cid 1)) =
      some (.reconciled (some lateDraw)) :=
  ⟨start_built, by decide +kernel⟩

end sample

end Carriage

end Paytp
