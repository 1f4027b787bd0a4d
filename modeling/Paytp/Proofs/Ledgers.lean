import Paytp.Proofs.SoundBooks
import Paytp.Proofs.Untouched

/-!
# The books in a carriage

A carriage keeps the books of every channel it opened. What it keeps about a channel moves along
the moves of its books while the other channels stay as they are.
-/

namespace Paytp

open Carriage

namespace ChannelState

variable {crypto : Crypto}

/-- Where the last slice is accepted, the balance is in the window. -/
theorem acceptEach_within : ∀ {slices : List Slice} {s s' : ChannelState}, slices ≠ [] →
    s.acceptEach crypto slices = (.ok (), s') → s'.balance ≤ s'.boundUpper
  | [], _, _, hne, _ => absurd rfl hne
  | slice :: slices, s, s', _, h => by
    have hcases := acceptSlice_cases crypto s slice
    unfold acceptEach at h
    rcases hslice : s.acceptSlice crypto slice with ⟨e | ⟨⟩, s₁⟩
    · rw [hslice] at h
      cases h
    · rw [hslice] at h hcases
      dsimp only at h
      cases hcases with
      | accepted hphase hfloor hnew hwindow hevidence =>
        by_cases hrest : slices = []
        · rw [hrest, acceptEach] at h
          cases h
          exact hwindow
        · exact acceptEach_within hrest h

/-- Slices are accepted on a live channel. -/
theorem acceptEach_open {slices : List Slice} {s s' : ChannelState} (hne : slices ≠ [])
    (h : s.acceptEach crypto slices = (.ok (), s')) : s.phase = .open := by
  cases slices with
  | nil => exact absurd rfl hne
  | cons slice slices =>
    have hcases := acceptSlice_cases crypto s slice
    unfold acceptEach at h
    rcases hslice : s.acceptSlice crypto slice with ⟨e | ⟨⟩, s₁⟩
    · rw [hslice] at h
      cases h
    · rw [hslice] at hcases
      cases hcases with
      | accepted hphase => exact hphase

end ChannelState

/-! ## Rounds of a channel -/

namespace Carriage

variable {ρ : Type} {env : Env ρ} {fails : StoreFaults} {s s' : Carriage ρ} {cid : ByteArr 8}

/-- The rounds that a table of all of them lists for a channel. -/
def listed (cid : ByteArr 8) (entries : List (Σ _ : ByteArr 8 × ByteArr 32, RoundDecision)) :
    List (ByteArr 32 × RoundDecision) :=
  entries.filterMap fun e => if e.1.1 = cid then some (e.1.2, e.2) else none

theorem mem_listed {entries : List (Σ _ : ByteArr 8 × ByteArr 32, RoundDecision)}
    {r : ByteArr 32 × RoundDecision} :
    r ∈ listed cid entries ↔ (⟨(cid, r.1), r.2⟩ : Σ _, RoundDecision) ∈ entries := by
  unfold listed
  rw [List.mem_filterMap]
  constructor
  · rintro ⟨⟨⟨c, k⟩, d⟩, he, h⟩
    dsimp only at h
    split_ifs at h with hc
    cases h
    rwa [← hc]
  · intro h
    exact ⟨_, h, if_pos rfl⟩

theorem mem_roundsOf {r : ByteArr 32 × RoundDecision} :
    r ∈ s.roundsOf cid ↔ s.rounds.lookup (cid, r.1) = some r.2 :=
  mem_listed.trans AList.mem_lookup_iff.symm

theorem listed_kerase {k : ByteArr 32} : ∀ {entries : List (Σ _ : ByteArr 8 × ByteArr 32,
    RoundDecision)}, entries.NodupKeys →
    listed cid (entries.kerase (cid, k)) = Keyed.drop k (listed cid entries)
  | [], _ => rfl
  | ⟨key, d⟩ :: entries, h => by
    rw [List.nodupKeys_cons] at h
    have hcons : ∀ (l : List (Σ _ : ByteArr 8 × ByteArr 32, RoundDecision)),
        listed cid (⟨key, d⟩ :: l) = if key.1 = cid then (key.2, d) :: listed cid l
          else listed cid l := by
      intro l
      rw [listed, List.filterMap_cons]
      dsimp only
      split_ifs <;> rfl
    by_cases hkey : (cid, k) = key
    · have hrest : ∀ e ∈ listed cid entries, e.1 ≠ k := by
        rintro e he rfl
        have hmem := List.mem_keys_of_mem (mem_listed.1 he)
        rw [← hkey] at h
        exact h.1 hmem
      rw [List.kerase_cons_eq hkey, hcons, ← hkey, if_pos rfl]
      have hdrop : Keyed.drop k ((k, d) :: listed cid entries) =
          Keyed.drop k (listed cid entries) := by
        simp [Keyed.drop]
      rw [hdrop, Keyed.drop_of_forall_ne hrest]
    · rw [List.kerase_cons_ne hkey, hcons, hcons, listed_kerase h.2]
      split_ifs with hc
      · have hne : key.2 ≠ k := fun hk => hkey (by rw [← hc, ← hk])
        simp [Keyed.drop, hne]
      · rfl

theorem listed_kerase_ne {k : ByteArr 32} {cid' : ByteArr 8} (hne : cid' ≠ cid) :
    ∀ {entries : List (Σ _ : ByteArr 8 × ByteArr 32, RoundDecision)},
    listed cid' (entries.kerase (cid, k)) = listed cid' entries
  | [] => rfl
  | ⟨key, d⟩ :: entries => by
    by_cases hkey : (cid, k) = key
    · have hc : key.1 ≠ cid' := by
        rw [← hkey]
        exact hne.symm
      rw [List.kerase_cons_eq hkey, listed, listed, List.filterMap_cons]
      simp [hc]
    · have hrest : listed cid' (entries.kerase (cid, k)) = listed cid' entries :=
        listed_kerase_ne hne
      unfold listed at hrest
      rw [List.kerase_cons_ne hkey, listed, listed, List.filterMap_cons, List.filterMap_cons, hrest]

theorem roundsOf_insert (s : Carriage ρ) (cid : ByteArr 8) (k : ByteArr 32) (d : RoundDecision) :
    ({ s with rounds := s.rounds.insert (cid, k) d } : Carriage ρ).roundsOf cid =
      Keyed.put k d (s.roundsOf cid) := by
  show listed cid (s.rounds.entries.kinsert (cid, k) d) = _
  rw [List.kinsert_def, Keyed.put]
  refine Eq.trans ?_ (congrArg ((k, d) :: ·) (listed_kerase s.rounds.nodupKeys))
  simp [listed]

theorem roundsOf_insert_ne (s : Carriage ρ) {cid' : ByteArr 8} (hne : cid' ≠ cid) (k : ByteArr 32)
    (d : RoundDecision) :
    ({ s with rounds := s.rounds.insert (cid, k) d } : Carriage ρ).roundsOf cid' =
      s.roundsOf cid' := by
  show listed cid' (s.rounds.entries.kinsert (cid, k) d) = _
  rw [List.kinsert_def]
  refine Eq.trans ?_ (listed_kerase_ne (k := k) hne)
  simp [listed, hne.symm]

theorem roundsOf_erase (s : Carriage ρ) (cid : ByteArr 8) (k : ByteArr 32) :
    ({ s with rounds := s.rounds.erase (cid, k) } : Carriage ρ).roundsOf cid =
      Keyed.drop k (s.roundsOf cid) := listed_kerase s.rounds.nodupKeys

theorem roundsOf_erase_ne (s : Carriage ρ) {cid' : ByteArr 8} (hne : cid' ≠ cid) (k : ByteArr 32) :
    ({ s with rounds := s.rounds.erase (cid, k) } : Carriage ρ).roundsOf cid' = s.roundsOf cid' :=
  listed_kerase_ne hne

/-! ## The books -/

/-- The books of a channel with the metering `state`. -/
def bookOf (s : Carriage ρ) (cid : ByteArr 8) (state : ChannelState) : Books where
  state
  operative := s.operative.lookup cid
  basis := s.importedBasis.lookup cid
  ledger := (s.ledger.lookup cid).getD {}
  rounds := s.roundsOf cid

def books (s : Carriage ρ) (cid : ByteArr 8) : Option Books :=
  (s.channels.lookup cid).map (s.bookOf cid)

theorem books_of {st : ChannelState} (h : s.channels.lookup cid = some st) :
    s.books cid = some (s.bookOf cid st) := by
  rw [books, h, Option.map_some]

theorem books_eq_some {b : Books} :
    s.books cid = some b ↔ ∃ st, s.channels.lookup cid = some st ∧ s.bookOf cid st = b :=
  Option.map_eq_some_iff

/-- What is kept about one channel is what it was. -/
structure SameAt (cid : ByteArr 8) (s s' : Carriage ρ) : Prop where
  channels : s'.channels.lookup cid = s.channels.lookup cid
  operative : s'.operative.lookup cid = s.operative.lookup cid
  importedBasis : s'.importedBasis.lookup cid = s.importedBasis.lookup cid
  ledger : s'.ledger.lookup cid = s.ledger.lookup cid
  rounds : s'.roundsOf cid = s.roundsOf cid

theorem SameAt.bookOf (h : SameAt cid s s') : s'.bookOf cid = s.bookOf cid := by
  funext st
  rw [Carriage.bookOf, h.operative, h.importedBasis, h.ledger, h.rounds, Carriage.bookOf]

theorem SameAt.books (h : SameAt cid s s') : s'.books cid = s.books cid := by
  rw [Carriage.books, h.channels, h.bookOf, Carriage.books]

/-- The books are what they were, and so are the positions handed on. -/
structure SameBooks (s s' : Carriage ρ) : Prop where
  channels : s'.channels = s.channels
  operative : s'.operative = s.operative
  importedBasis : s'.importedBasis = s.importedBasis
  ledger : s'.ledger = s.ledger
  rounds : s'.rounds = s.rounds
  driver : s'.driver = s.driver

namespace SameBooks

theorem refl (s : Carriage ρ) : s.SameBooks s := ⟨rfl, rfl, rfl, rfl, rfl, rfl⟩

theorem trans {a b c : Carriage ρ} (hab : a.SameBooks b) (hbc : b.SameBooks c) : a.SameBooks c where
  channels := hbc.channels.trans hab.channels
  operative := hbc.operative.trans hab.operative
  importedBasis := hbc.importedBasis.trans hab.importedBasis
  ledger := hbc.ledger.trans hab.ledger
  rounds := hbc.rounds.trans hab.rounds
  driver := hbc.driver.trans hab.driver

theorem sameAt (h : s.SameBooks s') (cid : ByteArr 8) : SameAt cid s s' where
  channels := by rw [h.channels]
  operative := by rw [h.operative]
  importedBasis := by rw [h.importedBasis]
  ledger := by rw [h.ledger]
  rounds := by rw [roundsOf, h.rounds, roundsOf]

end SameBooks

theorem decideKey_sameBooks (s : Carriage ρ) (fails : StoreFaults) (key value : Bytes) :
    s.SameBooks (s.decideKey fails key value).2 := by
  unfold decideKey
  split <;> exact ⟨rfl, rfl, rfl, rfl, rfl, rfl⟩

theorem consumeRef_sameBooks (s : Carriage ρ) (fails : StoreFaults) (r : String) :
    s.SameBooks (s.consumeRef fails r).2 := by
  unfold consumeRef
  split
  · split <;> exact ⟨rfl, rfl, rfl, rfl, rfl, rfl⟩
  · split_ifs <;> exact ⟨rfl, rfl, rfl, rfl, rfl, rfl⟩

theorem consumeRefs_sameBooks (fails : StoreFaults) : ∀ (s : Carriage ρ) (rs : List String),
    s.SameBooks (s.consumeRefs fails rs).2
  | s, [] => .refl s
  | s, r :: rs => by
    have hr := s.consumeRef_sameBooks fails r
    unfold consumeRefs
    split
    case h_1 s₁ heq =>
      rw [heq] at hr
      exact hr.trans (consumeRefs_sameBooks fails s₁ rs)
    case h_2 outcome s₁ hne heq =>
      rw [heq] at hr
      exact hr

theorem sameBooks_rail (s : Carriage ρ) (rail : Option ρ) : s.SameBooks { s with rail } :=
  ⟨rfl, rfl, rfl, rfl, rfl, rfl⟩

theorem releaseRefund_sameBooks (s : Carriage ρ) (close : Close) :
    s.SameBooks (s.releaseRefund env fails close) := by
  unfold releaseRefund
  split
  · rename_i refund rail _ _
    have hreserve := s.decideKey_sameBooks fails (refundReserveKey close.channelId close.ckptRef) []
    dsimp only
    split
    · exact (hreserve.trans (sameBooks_rail _ _)).trans (decideKey_sameBooks ..)
    · exact hreserve.trans (sameBooks_rail _ _)
  · exact .refl s

theorem attemptPrepayCloseDraw_sameBooks (s : Carriage ρ) (cid : ByteArr 8) :
    s.SameBooks (s.attemptPrepayCloseDraw env cid) := by
  unfold attemptPrepayCloseDraw
  split
  · dsimp only
    split <;> exact ⟨rfl, rfl, rfl, rfl, rfl, rfl⟩
  · exact .refl s

/-! ## Steps along the moves -/

/-- Moves of some kinds take the books of every channel to what they are now. -/
structure Follows (crypto : Crypto) (kinds : List Books.Kind) (s s' : Carriage ρ) : Prop where
  moves : ∀ cid b, s.books cid = some b →
    ∃ b', s'.books cid = some b' ∧ Books.Moves crypto kinds b b'
  vacant : ∀ cid, s.channels.lookup cid = none → SameAt cid s s'

namespace Follows

variable {crypto : Crypto} {kinds : List Books.Kind}

theorem refl (s : Carriage ρ) : s.Follows crypto kinds s :=
  ⟨fun _ b hb => ⟨b, hb, .refl⟩, fun _ _ => ⟨rfl, rfl, rfl, rfl, rfl⟩⟩

theorem trans {a b c : Carriage ρ} (hab : a.Follows crypto kinds b)
    (hbc : b.Follows crypto kinds c) : a.Follows crypto kinds c := by
  refine ⟨fun cid x hx => ?_, fun cid hnone => ?_⟩
  · obtain ⟨y, hy, hxy⟩ := hab.moves cid x hx
    obtain ⟨z, hz, hyz⟩ := hbc.moves cid y hy
    exact ⟨z, hz, hxy.trans hyz⟩
  · have h₁ := hab.vacant cid hnone
    have h₂ := hbc.vacant cid (h₁.channels.trans hnone)
    exact ⟨h₂.channels.trans h₁.channels, h₂.operative.trans h₁.operative,
      h₂.importedBasis.trans h₁.importedBasis, h₂.ledger.trans h₁.ledger,
      h₂.rounds.trans h₁.rounds⟩

theorem of_same (h : s.SameBooks s') : s.Follows crypto kinds s' := by
  refine ⟨fun cid b hb => ⟨b, ?_, .refl⟩, fun cid _ => h.sameAt cid⟩
  rw [(h.sameAt cid).books]
  exact hb

/-- More kinds of moves allow as much. -/
theorem mono {kinds' : List Books.Kind} (h : s.Follows crypto kinds s') (hsub : kinds ⊆ kinds') :
    s.Follows crypto kinds' s' := by
  refine ⟨fun cid b hb => ?_, h.vacant⟩
  obtain ⟨b', hb', hm⟩ := h.moves cid b hb
  refine ⟨b', hb', Relation.ReflTransGen.mono ?_ _ _ hm⟩
  rintro x y ⟨kind, hk, hxy⟩
  exact ⟨kind, hsub hk, hxy⟩

/-- The books of one channel move. -/
theorem at_channel {st st' : ChannelState} (hst : s.channels.lookup cid = some st)
    (hst' : s'.channels.lookup cid = some st')
    (hm : Books.Moves crypto kinds (s.bookOf cid st) (s'.bookOf cid st'))
    (hother : ∀ cid', cid' ≠ cid → SameAt cid' s s') : s.Follows crypto kinds s' := by
  constructor
  · intro cid' b hb
    by_cases he : cid' = cid
    · subst he
      rw [books_of hst] at hb
      cases hb
      exact ⟨_, books_of hst', hm⟩
    · refine ⟨b, ?_, .refl⟩
      rw [(hother cid' he).books]
      exact hb
  · intro cid' hnone
    refine hother cid' fun he => ?_
    rw [he, hst] at hnone
    cases hnone

end Follows

/-- Every channel's books are reachable, nothing is kept about a channel that is not there, and
what is handed on comes from reachable books. -/
structure Booked (crypto : Crypto) (s : Carriage ρ) : Prop where
  evidenced : s.Evidenced
  reachable : ∀ cid b, s.books cid = some b → Books.Reachable crypto b
  ledger : ∀ cid, s.channels.lookup cid = none → s.ledger.lookup cid = none
  rounds : ∀ cid, s.channels.lookup cid = none → s.roundsOf cid = []
  snapshots : ∀ key snap, s.driver.chainSnapshots.lookup key = some snap →
    ∃ b, Books.Reachable crypto b ∧ b.HandsOn snap

namespace Booked

variable {crypto : Crypto} {kinds : List Books.Kind}

theorem sound (h : s.Booked crypto) {st : ChannelState} (hst : s.channels.lookup cid = some st) :
    (s.bookOf cid st).Sound := (h.reachable cid _ (books_of hst)).sound

/-- Where there is a round there is its channel. -/
theorem channel_of_round (h : s.Booked crypto) {k : ByteArr 32} {d : RoundDecision}
    (hd : (k, d) ∈ s.roundsOf cid) : ∃ st, s.channels.lookup cid = some st := by
  cases hst : s.channels.lookup cid with
  | some st => exact ⟨st, rfl⟩
  | none =>
    rw [h.rounds cid hst] at hd
    cases hd

theorem channel_of_operative (h : s.Booked crypto) {op : Operative}
    (hop : s.operative.lookup cid = some op) : ∃ st, s.channels.lookup cid = some st :=
  Option.isSome_iff_exists.1 (h.evidenced.operative cid (by rw [hop]; rfl))

/-- What follows is booked, where the handed positions are the same. -/
theorem follows (h : s.Booked crypto) (hs : s.Follows crypto kinds s') (hev : s'.Evidenced)
    (hsnap : s'.driver.chainSnapshots = s.driver.chainSnapshots) : s'.Booked crypto := by
  have hback : ∀ cid, s'.channels.lookup cid = none → s.channels.lookup cid = none := by
    intro cid hnone
    cases hst : s.channels.lookup cid with
    | none => rfl
    | some st =>
      obtain ⟨b', hb', -⟩ := hs.moves cid _ (books_of hst)
      rw [Carriage.books, hnone] at hb'
      cases hb'
  constructor
  · exact hev
  · intro cid b' hb'
    obtain ⟨st, hst, -⟩ := books_eq_some.1 hb'
    cases hold : s.channels.lookup cid with
    | none =>
      rw [(hs.vacant cid hold).channels, hold] at hst
      cases hst
    | some st₀ =>
      obtain ⟨b₁, hb₁, hm⟩ := hs.moves cid _ (books_of hold)
      rw [hb'] at hb₁
      cases hb₁
      exact (h.reachable cid _ (books_of hold)).moves _ hm
  · intro cid hnone
    rw [(hs.vacant cid (hback cid hnone)).ledger]
    exact h.ledger cid (hback cid hnone)
  · intro cid hnone
    rw [(hs.vacant cid (hback cid hnone)).rounds]
    exact h.rounds cid (hback cid hnone)
  · rw [hsnap]
    exact h.snapshots

end Booked

end Carriage

end Paytp
