import Paytp.Lib.Frames

/-!
# Scanning a log of records

A log is scanned record by record into an accumulator, until a whole record is no longer there;
an accumulator may refuse a record and so the whole scan. The scan of a log of records with a
part of one more behind it is the fold over the records, and every file that scans is such a log
with a rest behind it.
-/

namespace Paytp

universe u v

variable {σ : Type u} {ε : Type v} (n : ℕ) (add : σ → List Bytes → Except ε σ)

/-- Scan records of `n` fields from `off` on, `valid` being where the last whole one ended. -/
def scanLoop (bytes : Bytes) : ℕ → σ → ℕ → ℕ → Except ε (σ × ℕ)
  | 0, s, _, valid => .ok (s, valid)
  | fuel + 1, s, off, valid =>
    match readFields n bytes off with
    | none => .ok (s, valid)
    | some (ds, off) =>
      match add s ds with
      | .error e => .error e
      | .ok s => scanLoop bytes fuel s off off

/-- Add the records one after the other. -/
def addAll : σ → List (List Field) → Except ε σ
  | s, [] => .ok s
  | s, r :: rs =>
    match add s (r.map Field.bytes) with
    | .error e => .error e
    | .ok s => addAll s rs

/-- Records of `n` fields. -/
def OfWidth (rs : List (List Field)) : Prop := ∀ r ∈ rs, r.length = n

/-- `t` is a proper part of a record of `n` fields, from its start. -/
def Torn (t : Bytes) : Prop := ∃ r : List Field, r.length = n ∧ t <+: encodeFields r ∧
  t ≠ encodeFields r

variable {n add}

theorem encodeFields_ne_nil {r : List Field} (h : r ≠ []) : encodeFields r ≠ [] := by
  rcases r with _ | ⟨d, r⟩
  · exact absurd rfl h
  · intro he
    have := congrArg List.length he
    simp at this

theorem torn_nil (hn : 0 < n) : Torn n [] := by
  have hlen : (List.replicate n (⟨[], by norm_num⟩ : Field)).length = n := List.length_replicate
  refine ⟨_, hlen, List.nil_prefix, (encodeFields_ne_nil fun h => ?_).symm⟩
  rw [h, List.length_nil] at hlen
  omega

theorem addAll_append : ∀ {s s' : σ} {rs ss : List (List Field)}, addAll add s rs = .ok s' →
    addAll add s (rs ++ ss) = addAll add s' ss
  | s, s', [], ss, h => by
    simp only [addAll, Except.ok.injEq] at h
    rw [List.nil_append, h]
  | s, s', r :: rs, ss, h => by
    rw [addAll] at h
    rw [List.cons_append, addAll]
    split at h
    · simp at h
    · exact addAll_append h

theorem scanLoop_torn {pre t : Bytes} (h : Torn n t) (fuel : ℕ) (s : σ) (valid : ℕ) :
    scanLoop n add (pre ++ t) fuel s pre.length valid = .ok (s, valid) := by
  obtain ⟨r, rfl, hpre, hne⟩ := h
  cases fuel with
  | zero => rfl
  | succ fuel => rw [scanLoop, readFields_torn r pre t hpre hne]

/-- The scan of a log with part of a record behind it is the fold over the records. -/
theorem scanLoop_encode {t : Bytes} (ht : Torn n t) : ∀ {rs : List (List Field)} (pre : Bytes)
    {fuel : ℕ} {s s' : σ}, OfWidth n rs → rs.length < fuel → addAll add s rs = .ok s' →
    scanLoop n add (pre ++ (encodeLog rs ++ t)) fuel s pre.length pre.length =
      .ok (s', pre.length + (encodeLog rs).length)
  | [], pre, fuel, s, s', _, _, h => by
    simp only [addAll, Except.ok.injEq] at h
    simpa [h] using scanLoop_torn ht fuel s' pre.length
  | r :: rs, pre, 0, s, s', _, hf, _ => by simp at hf
  | r :: rs, pre, fuel + 1, s, s', hw, hf, h => by
    have hr : readFields n (pre ++ (encodeFields r ++ (encodeLog rs ++ t))) pre.length =
        some (r.map Field.bytes, (pre ++ encodeFields r).length) := by
      rw [← hw r List.mem_cons_self, readFields_encode, List.length_append]
    have hassoc : pre ++ (encodeFields r ++ (encodeLog rs ++ t)) =
        (pre ++ encodeFields r) ++ (encodeLog rs ++ t) := by simp
    rw [addAll] at h
    rw [encodeLog_cons, List.append_assoc, scanLoop, hr]
    split at h
    · simp at h
    · rename_i s₁ hadd
      simp only [hadd]
      rw [hassoc, scanLoop_encode ht _ (fun q hq => hw q (List.mem_cons_of_mem _ hq))
        (by simpa using hf) h]
      simp [Nat.add_assoc]

theorem length_le_encodeLog (hn : 0 < n) : ∀ {rs : List (List Field)}, OfWidth n rs →
    rs.length ≤ (encodeLog rs).length
  | [], _ => Nat.zero_le _
  | r :: rs, hw => by
    have ih := length_le_encodeLog hn fun q hq => hw q (List.mem_cons_of_mem r hq)
    have hr : 0 < (encodeFields r).length := by
      refine List.length_pos_iff.2 (encodeFields_ne_nil fun h => ?_)
      have := hw r List.mem_cons_self
      rw [h, List.length_nil] at this
      omega
    rw [encodeLog_cons, List.length_append, List.length_cons]
    omega

variable (n add)

/-- The scan of a whole file. -/
def scan (s : σ) (bytes : Bytes) : Except ε (σ × ℕ) :=
  scanLoop n add bytes (bytes.length + 1) s 0 0

variable {n add}

theorem scan_encode (hn : 0 < n) {t : Bytes} (ht : Torn n t) {rs : List (List Field)} {s s' : σ}
    (hw : OfWidth n rs) (h : addAll add s rs = .ok s') :
    scan n add s (encodeLog rs ++ t) = .ok (s', (encodeLog rs).length) := by
  have hfuel : rs.length < (encodeLog rs ++ t).length + 1 := by
    have := length_le_encodeLog hn hw
    rw [List.length_append]
    omega
  simpa [scan] using scanLoop_encode ht [] hw hfuel h

/-! ## Every file is a log -/

theorem exists_of_readFields : ∀ {n off off' : ℕ} {bytes : Bytes} {ds : List Bytes},
    readFields n bytes off = some (ds, off') → off ≤ bytes.length →
    ∃ r : List Field, r.length = n ∧ r.map Field.bytes = ds ∧
      bytes = bytes.take off ++ (encodeFields r ++ bytes.drop off') ∧
      off' = (bytes.take off ++ encodeFields r).length
  | 0, off, off', bytes, ds, h, hle => by
    simp only [readFields, Option.some.injEq, Prod.mk.injEq] at h
    obtain ⟨rfl, rfl⟩ := h
    exact ⟨[], rfl, rfl, by simp, by simpa using hle⟩
  | n + 1, off, off', bytes, ds, h, hle => by
    obtain ⟨d, o, ds', hd, hds, rfl⟩ := readFields_succ_eq_some.1 h
    obtain ⟨f, rfl, hsplit, ho⟩ := exists_of_readField hd
    have htake : bytes.take o = bytes.take off ++ frame f.bytes := by
      conv_lhs => rw [hsplit, ho, ← List.append_assoc, List.take_left]
    have hole : o ≤ bytes.length := by
      have := congrArg List.length htake
      rw [← ho, List.length_take] at this
      omega
    obtain ⟨r, hlen, rfl, hsplit', ho'⟩ := exists_of_readFields hds hole
    refine ⟨f :: r, by simp [hlen], rfl, ?_, ?_⟩
    · rw [htake, List.append_assoc] at hsplit'
      rw [encodeFields_cons, List.append_assoc]
      exact hsplit'
    · rw [ho', htake, encodeFields_cons, List.append_assoc]

theorem scanLoop_sound : ∀ {fuel : ℕ} {bytes : Bytes} {s₀ s s' : σ} {rs : List (List Field)}
    {t : Bytes} {len : ℕ}, bytes = encodeLog rs ++ t → OfWidth n rs → addAll add s₀ rs = .ok s →
    scanLoop n add bytes fuel s (encodeLog rs).length (encodeLog rs).length = .ok (s', len) →
    ∃ rs' t', bytes = encodeLog rs' ++ t' ∧ OfWidth n rs' ∧ addAll add s₀ rs' = .ok s' ∧
      len = (encodeLog rs').length
  | 0, bytes, s₀, s, s', rs, t, len, hb, hw, hadd, h => by
    simp only [scanLoop, Except.ok.injEq, Prod.mk.injEq] at h
    exact ⟨rs, t, hb, hw, by rw [hadd, h.1], h.2.symm⟩
  | fuel + 1, bytes, s₀, s, s', rs, t, len, hb, hw, hadd, h => by
    rw [scanLoop] at h
    split at h
    · simp only [Except.ok.injEq, Prod.mk.injEq] at h
      exact ⟨rs, t, hb, hw, by rw [hadd, h.1], h.2.symm⟩
    · rename_i ds off hread
      split at h
      · simp at h
      · rename_i s₁ hs₁
        have hle : (encodeLog rs).length ≤ bytes.length := by simp [hb]
        obtain ⟨r, hlen, rfl, hsplit, hoff⟩ := exists_of_readFields hread hle
        have htake : bytes.take (encodeLog rs).length = encodeLog rs := by
          rw [hb, List.take_left]
        rw [htake] at hsplit hoff
        rw [← encodeLog_concat] at hoff
        rw [← List.append_assoc, ← encodeLog_concat] at hsplit
        have hwide : OfWidth n (rs ++ [r]) := by
          intro q hq
          rcases List.mem_append.1 hq with hq | hq
          · exact hw q hq
          · rw [List.mem_singleton.1 hq, hlen]
        have hadd' : addAll add s₀ (rs ++ [r]) = .ok s₁ := by
          rw [addAll_append hadd, addAll, hs₁]
          rfl
        rw [hoff] at h
        exact scanLoop_sound hsplit hwide hadd' h

/-- A file that scans is a log of the records scanned, with a rest behind it. -/
theorem scan_sound {bytes : Bytes} {s s' : σ} {len : ℕ}
    (h : scan n add s bytes = .ok (s', len)) : ∃ rs t, bytes = encodeLog rs ++ t ∧
      OfWidth n rs ∧ addAll add s rs = .ok s' ∧ len = (encodeLog rs).length := by
  have hwide : OfWidth n [] := fun _ hr => by simp at hr
  have hstart : bytes = encodeLog [] ++ bytes := rfl
  exact scanLoop_sound hstart hwide rfl h

end Paytp
