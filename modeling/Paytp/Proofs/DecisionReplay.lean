import Paytp.OneDecision
import Paytp.Lib.RecordLog

/-!
# Replaying a decision log

Replay is a scan of records of two fields into the map in which the first record of a key wins.
A log of whole decisions replays to their map, and a last record cut short anywhere changes
nothing; every file is such a log with a rest behind it.
-/

namespace Paytp

namespace OneDecision

/-- The two fields of a decision. -/
def fields (r : Field × Field) : List Field := [r.1, r.2]

/-- The log of the decisions `rs`. -/
def log (rs : List (Field × Field)) : List (List Field) := rs.map fields

/-- The map replaying the decisions `rs` gives: the first record of a key wins. -/
def mapOf (m : HashMap Bytes Bytes) (rs : List (Field × Field)) : HashMap Bytes Bytes :=
  rs.foldl (fun m r => m.orInsert r.1.bytes r.2.bytes) m

theorem record_eq (key value : Field) :
    record key.bytes value.bytes = encodeFields (fields (key, value)) := by
  simp [record, fields]

theorem log_concat (rs : List (Field × Field)) (r : Field × Field) :
    log (rs ++ [r]) = log rs ++ [fields r] := by
  simp [log]

theorem mapOf_concat (m : HashMap Bytes Bytes) (rs : List (Field × Field)) (r : Field × Field) :
    mapOf m (rs ++ [r]) = (mapOf m rs).orInsert r.1.bytes r.2.bytes := by
  simp [mapOf]

theorem ofWidth_log (rs : List (Field × Field)) : OfWidth 2 (log rs) := by
  intro q hq
  obtain ⟨r, -, rfl⟩ := List.mem_map.1 hq
  rfl

theorem exists_log : ∀ {rs : List (List Field)}, OfWidth 2 rs → ∃ ps, log ps = rs
  | [], _ => ⟨[], rfl⟩
  | r :: rs, h => by
    obtain ⟨ps, rfl⟩ := exists_log fun q hq => h q (List.mem_cons_of_mem r hq)
    obtain ⟨key, value, rfl⟩ := List.length_eq_two.1 (h r List.mem_cons_self)
    exact ⟨(key, value) :: ps, rfl⟩

theorem torn_of_isPrefix {t : Bytes} {r : Field × Field} (h : t <+: encodeFields (fields r))
    (hne : t ≠ encodeFields (fields r)) : Torn 2 t :=
  ⟨fields r, rfl, h, hne⟩

/-- One round of the replay loop on the two fields it read. -/
def addRecord (m : HashMap Bytes Bytes) : List Bytes → Except Empty (HashMap Bytes Bytes)
  | [key, val] => .ok (m.orInsert key val)
  | _ => .ok m

theorem scanLoop_eq_replayLoop (bytes : Bytes) : ∀ (fuel : ℕ) (m : HashMap Bytes Bytes)
    (off valid : ℕ), scanLoop 2 addRecord bytes fuel m off valid =
      .ok (replayLoop bytes fuel m off valid)
  | 0, _, _, _ => rfl
  | fuel + 1, m, off, valid => by
    rw [scanLoop, replayLoop, readFields]
    rcases readField bytes off with _ | ⟨key, off⟩
    · rfl
    · simp only [readFields]
      rcases readField bytes off with _ | ⟨val, off⟩
      · rfl
      · exact scanLoop_eq_replayLoop bytes fuel (m.orInsert key val) off off

theorem scan_eq_replay (bytes : Bytes) : scan 2 addRecord ∅ bytes = .ok (replay bytes) :=
  scanLoop_eq_replayLoop bytes _ ∅ 0 0

theorem addAll_log : ∀ (m : HashMap Bytes Bytes) (rs : List (Field × Field)),
    addAll addRecord m (log rs) = .ok (mapOf m rs)
  | _, [] => rfl
  | m, r :: rs => addAll_log (m.orInsert r.1.bytes r.2.bytes) rs

/-- Replaying the log of `rs` with a record cut short behind it gives the map of `rs`. -/
theorem replay_torn {t : Bytes} (h : Torn 2 t) (rs : List (Field × Field)) :
    replay (encodeLog (log rs) ++ t) = (mapOf ∅ rs, (encodeLog (log rs)).length) := by
  have hscan := scan_encode (by norm_num) h (ofWidth_log rs) (addAll_log ∅ rs)
  rw [scan_eq_replay] at hscan
  exact Except.ok.inj hscan

theorem replay_encodeLog (rs : List (Field × Field)) :
    replay (encodeLog (log rs)) = (mapOf ∅ rs, (encodeLog (log rs)).length) := by
  simpa using replay_torn (torn_nil (by norm_num)) rs

/-- Any file is a log of the decisions that replay reads, with the rest behind it. -/
theorem replay_sound (disk : Bytes) : ∃ rs t, disk = encodeLog (log rs) ++ t ∧
    replay disk = (mapOf ∅ rs, (encodeLog (log rs)).length) := by
  obtain ⟨rs, t, hdisk, hw, hadd, hlen⟩ := scan_sound (scan_eq_replay disk)
  obtain ⟨ps, rfl⟩ := exists_log hw
  rw [addAll_log, Except.ok.injEq] at hadd
  exact ⟨ps, t, hdisk, Prod.ext hadd.symm hlen⟩

/-- What opening leaves in the file replays as the file did, and a store it opens stands on
whole records. -/
theorem openLog_spec (disk : Bytes) (io : AppendLog.OpenIo) :
    (replay (openLog disk io).1).1 = (replay disk).1 ∧
      ∀ wal, (openLog disk io).2 = some wal → ∃ rs,
        wal = ⟨⟨⟨encodeLog (log rs), (encodeLog (log rs)).length⟩, (encodeLog (log rs)).length,
          false⟩, mapOf ∅ rs⟩ ∧ mapOf ∅ rs = (replay disk).1 := by
  obtain ⟨rs, t, hdisk, hreplay⟩ := replay_sound disk
  unfold openLog
  split_ifs with hread
  · exact ⟨rfl, fun wal h => by simp at h⟩
  · obtain ⟨hleft, hopen⟩ := AppendLog.openAt_spec (log rs) t io
    rw [← hdisk] at hleft hopen
    have hmap : ∀ disk', disk' = disk ∨ disk' = encodeLog (log rs) →
        (replay disk').1 = mapOf ∅ rs := by
      rintro _ (rfl | rfl)
      · rw [hreplay]
      · rw [replay_encodeLog]
    simp only [hreplay]
    rcases hres : AppendLog.openAt disk (encodeLog (log rs)).length io with ⟨disk', none | l⟩ <;>
      rw [hres] at hleft hopen
    · exact ⟨hmap disk' hleft, fun wal h => by simp at h⟩
    · refine ⟨hmap disk' hleft, fun wal h => ⟨rs, ?_, rfl⟩⟩
      rw [← Option.some.inj h, hopen l rfl]

end OneDecision

end Paytp
