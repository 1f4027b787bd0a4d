import Paytp.Lib.Frames

/-!
# An append-only log on a file

`LogFile` is the file with the cursor its handle keeps. `AppendLog` is a log over it: an append
that fails is cut back to the length of the whole records, and a log whose cut fails as well
poisons itself. What the disk does is given from outside: how many bytes an append lands, and
which of its calls report an error.

`Holds` says which records such a log holds. It leaves room for one more at the end, cut short
or not, when the log is poisoned.
-/

namespace Paytp

/-- A file's bytes and the cursor of the one handle on it. -/
structure LogFile where
  content : Bytes
  cursor : ℕ
  deriving DecidableEq

namespace LogFile

/-- Write at the cursor, over what is there; a hole before it reads as zeros. -/
def write (f : LogFile) (bs : Bytes) : LogFile where
  content := f.content.take f.cursor ++ List.replicate (f.cursor - f.content.length) 0 ++ bs ++
    f.content.drop (f.cursor + bs.length)
  cursor := f.cursor + bs.length

def setLen (f : LogFile) (n : ℕ) : LogFile :=
  { f with content := f.content.take n ++ List.replicate (n - f.content.length) 0 }

def seek (f : LogFile) (n : ℕ) : LogFile := { f with cursor := n }

theorem write_at_end {f : LogFile} (h : f.cursor = f.content.length) (bs : Bytes) :
    f.write bs = ⟨f.content ++ bs, f.content.length + bs.length⟩ := by
  simp [write, h]

theorem setLen_append (a b : Bytes) (c : ℕ) :
    (LogFile.mk (a ++ b) c).setLen a.length = ⟨a, c⟩ := by
  simp [setLen]

end LogFile

/-- How the disk answers one append: the bytes an error of the write left behind (`none` when it
wrote all), and whether the sync and the two calls of the recovery report success. -/
structure AppendIo where
  torn : Option ℕ
  synced : Bool
  truncated : Bool
  sought : Bool
  deriving DecidableEq

namespace AppendIo

/-- The write and the sync both report success. -/
def ok (io : AppendIo) : Bool := io.torn.isNone && io.synced

/-- The bytes of `rec` that reach the file. -/
def lands (io : AppendIo) (rec : Bytes) : Bytes :=
  match io.torn with
  | none => rec
  | some n => rec.take n

/-- A failed append of `rec` that leaves all of it in the file. -/
def strands (io : AppendIo) (rec : Bytes) : Bool :=
  !io.ok && !io.truncated && io.lands rec == rec

/-- Every call reports success. -/
def good : AppendIo := ⟨none, true, true, true⟩

theorem lands_prefix (io : AppendIo) (rec : Bytes) : io.lands rec <+: rec := by
  unfold lands
  split
  · exact List.prefix_rfl
  · exact List.take_prefix _ _

theorem lands_of_ok {io : AppendIo} (h : io.ok = true) (rec : Bytes) : io.lands rec = rec := by
  unfold lands
  split
  · rfl
  · rename_i n hn
    simp [ok, hn] at h

end AppendIo

/-- The log: its file, the length of its whole records, and whether a recovery has failed. -/
structure AppendLog where
  file : LogFile
  len : ℕ
  poisoned : Bool
  deriving DecidableEq

namespace AppendLog

/-- Write `rec` and sync it; on an error cut the file back to `len` and put the cursor there, and
poison the log when either of these fails too. Returns whether the record is durable. -/
def append (l : AppendLog) (rec : Bytes) (io : AppendIo) : Bool × AppendLog :=
  let file := l.file.write (io.lands rec)
  if io.ok then
    (true, { l with file, len := l.len + rec.length })
  else
    let file := if io.truncated then file.setLen l.len else file
    let file := if io.sought then file.seek l.len else file
    (false, { l with file, poisoned := l.poisoned || !io.truncated || !io.sought })

/-- The file when the process dies after `n` bytes of `rec` have landed. -/
def crashIn (l : AppendLog) (rec : Bytes) (n : ℕ) : Bytes := (l.file.write (rec.take n)).content

/-- Which of the calls that open a log report success. -/
structure OpenIo where
  read : Bool
  truncated : Bool
  sought : Bool
  deriving DecidableEq

def OpenIo.good : OpenIo := ⟨true, true, true⟩

/-- Open a log on a file of `disk` whose whole records take `validLen` bytes: cut off the rest
and put the cursor there. Returns the bytes left in the file, and the log unless a call failed. -/
def openAt (disk : Bytes) (validLen : ℕ) (io : OpenIo) : Bytes × Option AppendLog :=
  let torn := validLen != disk.length
  if torn && !io.truncated then (disk, none)
  else
    let file : LogFile := ⟨disk, disk.length⟩
    let file := if torn then file.setLen validLen else file
    if !io.sought then (file.content, none)
    else (file.content, some { file := file.seek validLen, len := validLen, poisoned := false })

/-- The log holds the records `rs`. Past them lies at most a prefix of one more record, which
`free` allows, and nothing at all while the log is not poisoned. -/
structure Holds (free : List Field → Prop) (l : AppendLog) (rs : List (List Field)) where
  len_eq : l.len = (encodeLog rs).length
  content_eq : ∃ t, l.file.content = encodeLog rs ++ t ∧
    (t = [] ∨ l.poisoned = true ∧ ∃ r, free r ∧ t <+: encodeFields r)
  cursor_eq : l.poisoned = false → l.file.cursor = l.len

variable {free : List Field → Prop} {l : AppendLog} {rs : List (List Field)}

theorem Holds.content_of_clean (h : l.Holds free rs) (hp : l.poisoned = false) :
    l.file.content = encodeLog rs := by
  obtain ⟨t, ht, rfl | ⟨hp', _⟩⟩ := h.content_eq
  · simpa using ht
  · simp [hp] at hp'

theorem Holds.mono {free' : List Field → Prop} (h : l.Holds free rs)
    (hf : ∀ r, free r → free' r) : l.Holds free' rs := by
  obtain ⟨t, ht, htail⟩ := h.content_eq
  refine ⟨h.len_eq, ⟨t, ht, ?_⟩, h.cursor_eq⟩
  exact htail.imp_right fun ⟨hp, r, hr, hpre⟩ => ⟨hp, r, hf r hr, hpre⟩

/-- A log just opened on whole records holds them. -/
theorem holds_open (rs : List (List Field)) :
    Holds free ⟨⟨encodeLog rs, (encodeLog rs).length⟩, (encodeLog rs).length, false⟩ rs :=
  ⟨rfl, ⟨[], by simp, .inl rfl⟩, fun _ => rfl⟩

/-- Opening a file of the records `rs` and a rest leaves them, with the rest or without, and a
log it opens holds them. -/
theorem openAt_spec (rs : List (List Field)) (t : Bytes) (io : OpenIo) :
    ((openAt (encodeLog rs ++ t) (encodeLog rs).length io).1 = encodeLog rs ++ t ∨
      (openAt (encodeLog rs ++ t) (encodeLog rs).length io).1 = encodeLog rs) ∧
      ∀ l, (openAt (encodeLog rs ++ t) (encodeLog rs).length io).2 = some l →
        l = ⟨⟨encodeLog rs, (encodeLog rs).length⟩, (encodeLog rs).length, false⟩ := by
  have hwhole : ¬(encodeLog rs).length ≠ (encodeLog rs ++ t).length → t = [] := by
    intro h
    rw [List.length_append] at h
    exact List.length_eq_zero_iff.1 (by omega)
  unfold openAt
  simp only [LogFile.setLen_append, bne_iff_ne, Bool.and_eq_true]
  split_ifs with htrunc hsought htorn htorn
  · exact ⟨.inl rfl, fun l h => by simp at h⟩
  · exact ⟨.inr rfl, fun l h => by simp at h⟩
  · exact ⟨.inl rfl, fun l h => by simp at h⟩
  · refine ⟨.inr rfl, fun l h => ?_⟩
    rw [← Option.some.inj h]
    rfl
  · refine ⟨.inl rfl, fun l h => ?_⟩
    rw [← Option.some.inj h, hwhole htorn, List.append_nil]
    rfl

/-- With every call succeeding the log opens. -/
theorem openAt_good (disk : Bytes) (validLen : ℕ) :
    ((openAt disk validLen .good).2).isSome = true := by
  simp [openAt, OpenIo.good]

theorem Holds.write (h : l.Holds free rs) (hp : l.poisoned = false) (bs : Bytes) :
    l.file.write bs = ⟨encodeLog rs ++ bs, l.len + bs.length⟩ := by
  have hc := h.content_of_clean hp
  rw [LogFile.write_at_end (by rw [h.cursor_eq hp, h.len_eq, hc]), hc, h.len_eq]

/-- A durable append adds its record. -/
theorem Holds.append_ok (h : l.Holds free rs) (hp : l.poisoned = false)
    (r : List Field) {io : AppendIo} (hio : io.ok = true) :
    (l.append (encodeFields r) io).1 = true ∧
      (l.append (encodeFields r) io).2.poisoned = false ∧
      (l.append (encodeFields r) io).2.Holds free (rs ++ [r]) := by
  have hw := h.write hp (encodeFields r)
  simp only [append, hio, if_true, AppendIo.lands_of_ok hio, hw]
  refine ⟨trivial, hp, ?_, ⟨[], ?_, .inl rfl⟩, ?_⟩
  · simp [encodeLog_concat, h.len_eq]
  · simp [encodeLog_concat]
  · simp

/-- An append that reports an error leaves the records as they were. What is left past them is
the part that landed, and only when the cut failed. -/
theorem Holds.append_error (h : l.Holds free rs) (hp : l.poisoned = false) {r : List Field}
    {io : AppendIo} (hio : io.ok = false) (hr : free r) :
    (l.append (encodeFields r) io).1 = false ∧
      (l.append (encodeFields r) io).2.Holds free rs ∧
      (l.append (encodeFields r) io).2.file.content =
        encodeLog rs ++ if io.truncated then [] else io.lands (encodeFields r) := by
  have hw := h.write hp (io.lands (encodeFields r))
  have hcut : ∀ c, (LogFile.mk (encodeLog rs ++ io.lands (encodeFields r)) c).setLen l.len =
      ⟨encodeLog rs, c⟩ := fun c => by rw [h.len_eq, LogFile.setLen_append]
  simp only [append, hio, Bool.false_eq_true, if_false, hw, hcut]
  refine ⟨trivial, ⟨h.len_eq, ?_, ?_⟩, ?_⟩
  · refine ⟨if io.truncated then [] else io.lands (encodeFields r), ?_, ?_⟩
    · cases io.truncated <;> cases io.sought <;> simp [LogFile.seek]
    · cases io.truncated with
      | true => exact .inl rfl
      | false => exact .inr ⟨by simp, r, hr, by simpa using io.lands_prefix _⟩
  · intro hq
    have hs : io.sought = true := by
      simp only [Bool.or_eq_false_iff, Bool.not_eq_false'] at hq
      exact hq.2
    simp [hs, LogFile.seek]
  · cases io.truncated <;> cases io.sought <;> simp [LogFile.seek]

/-- A crash inside an append leaves the records and a prefix of the new one. -/
theorem Holds.crashIn (h : l.Holds free rs) (hp : l.poisoned = false) (r : List Field) (n : ℕ) :
    l.crashIn (encodeFields r) n = encodeLog rs ++ (encodeFields r).take n := by
  rw [AppendLog.crashIn, h.write hp]

end AppendLog

end Paytp
