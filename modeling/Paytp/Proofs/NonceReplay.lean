import Paytp.MerchantStore
import Paytp.Lib.RecordLog

/-!
# Replaying a consumed-nonce log

A record decodes to what was encoded, so replaying the log of some consumptions books them one
after the other.
-/

namespace Paytp

namespace MerchantStore

variable {α : Type} {form : ReceiptForm α} {merchantKey : ByteArr 32}

theorem decodeRecord_encodeRecord (r : NonceRecord) (h : (encodeRecord r).length < 2 ^ 32) :
    decodeRecord (encodeRecord r) = some r := by
  simp only [encodeRecord, List.length_append, length_frame] at h
  let ref : Field := ⟨Bytes.ofString r.paymentRef, by omega⟩
  let idem : Field := ⟨r.idem, by omega⟩
  let res : Field := ⟨Bytes.ofString r.resource, by omega⟩
  have hsig : r.quoteSig.toList.length = 64 := r.quoteSig.toList_length
  have henc : encodeRecord r =
      frame ref.bytes ++ (frame idem.bytes ++ (frame res.bytes ++ r.quoteSig.toList)) := by
    simp [encodeRecord, ref, idem, res]
  have href := readField_frame [] (frame idem.bytes ++ (frame res.bytes ++ r.quoteSig.toList)) ref
  have hidem := readField_frame (frame ref.bytes) (frame res.bytes ++ r.quoteSig.toList) idem
  have hres := readField_frame (frame ref.bytes ++ frame idem.bytes) r.quoteSig.toList res
  rw [List.nil_append, List.length_nil, Nat.zero_add] at href
  rw [List.append_assoc, List.length_append] at hres
  have hdrop :
      (frame ref.bytes ++ (frame idem.bytes ++ (frame res.bytes ++ r.quoteSig.toList))).drop
      ((frame ref.bytes).length + (frame idem.bytes).length + (frame res.bytes).length) =
      r.quoteSig.toList := by
    rw [← List.append_assoc, ← List.append_assoc, ← List.length_append, ← List.length_append,
      List.drop_left]
  have htake : r.quoteSig.toList.take 64 = r.quoteSig.toList :=
    List.take_of_length_le (by rw [hsig])
  have hlen : (frame ref.bytes).length + (frame idem.bytes).length + (frame res.bytes).length +
      64 =
      (frame ref.bytes ++ (frame idem.bytes ++ (frame res.bytes ++ r.quoteSig.toList))).length := by
    simp only [List.length_append, hsig]
    omega
  rw [henc, decodeRecord]
  simp only [href, hidem, hres, hdrop, htake, hlen, Option.bind_eq_bind, Option.bind_some, ref,
    res, idem, Bytes.toString?_ofString, ByteArr.ofBytes?_toList, bne_self_eq_false,
    Bool.false_eq_true, if_false]

/-- Book a consumption. -/
def Books.add (b : Books α) (c : Consumption form merchantKey) : Books α where
  byNonce := b.byNonce.orInsert c.nonce (c.record, c.receipt)
  usedRefs := b.usedRefs ∪ (usedRefKeys c.record.paymentRef).toFinset

def booksOf (cs : List (Consumption form merchantKey)) : Books α := cs.foldl Books.add Books.empty

theorem booksOf_concat (cs : List (Consumption form merchantKey))
    (c : Consumption form merchantKey) : booksOf (cs ++ [c]) = (booksOf cs).add c := by
  simp [booksOf]

/-- The three fields of a consumption. -/
def fields (c : Consumption form merchantKey) : List Field :=
  [⟨c.nonce.toList, by rw [List.Vector.toList_length]; norm_num⟩,
    ⟨encodeRecord c.record, c.short_record⟩, ⟨form.toJson c.receipt, c.short_receipt⟩]

/-- The log of the consumptions `cs`. -/
def log (cs : List (Consumption form merchantKey)) : List (List Field) := cs.map fields

theorem entry_eq (c : Consumption form merchantKey) :
    entry form c.nonce c.record c.receipt = encodeFields (fields c) := by
  simp [entry, fields]

theorem log_concat (cs : List (Consumption form merchantKey))
    (c : Consumption form merchantKey) : log (cs ++ [c]) = log cs ++ [fields c] := by
  simp [log]

theorem ofWidth_log (cs : List (Consumption form merchantKey)) : OfWidth 3 (log cs) := by
  intro q hq
  obtain ⟨c, -, rfl⟩ := List.mem_map.1 hq
  rfl

theorem torn_of_isPrefix {t : Bytes} {c : Consumption form merchantKey}
    (h : t <+: encodeFields (fields c)) (hne : t ≠ encodeFields (fields c)) : Torn 3 t :=
  ⟨fields c, rfl, h, hne⟩

theorem replayRecord_fields (b : Books α) (c : Consumption form merchantKey) :
    replayRecord form merchantKey b c.nonce.toList (encodeRecord c.record) (form.toJson c.receipt) =
      .ok (b.add c) := by
  simp [replayRecord, ByteArr.ofBytes?_toList, decodeRecord_encodeRecord _ c.short_record, c.parses,
    c.nonce_eq, c.idem_eq, c.resource_eq, Books.add]

variable (form merchantKey) in
/-- One round of the replay loop on the three fields it read. -/
def addRecord (b : Books α) : List Bytes → Except OpenError (Books α)
  | [nonceBytes, recBytes, rcptBytes] =>
    replayRecord form merchantKey b nonceBytes recBytes rcptBytes
  | _ => .ok b

theorem scanLoop_eq_replayLoop (bytes : Bytes) : ∀ (fuel : ℕ) (b : Books α) (off valid : ℕ),
    scanLoop 3 (addRecord form merchantKey) bytes fuel b off valid =
      replayLoop form merchantKey bytes fuel b off valid
  | 0, _, _, _ => rfl
  | fuel + 1, b, off, valid => by
    rw [scanLoop, replayLoop, readFields]
    rcases readField bytes off with _ | ⟨nonceBytes, off⟩
    · rfl
    · simp only [readFields]
      rcases readField bytes off with _ | ⟨recBytes, off⟩
      · rfl
      · simp only
        rcases readField bytes off with _ | ⟨rcptBytes, off⟩
        · rfl
        · simp only [addRecord]
          rcases replayRecord form merchantKey b nonceBytes recBytes rcptBytes with e | b
          · rfl
          · exact scanLoop_eq_replayLoop bytes fuel b off off

theorem scan_eq_replay (bytes : Bytes) :
    scan 3 (addRecord form merchantKey) Books.empty bytes = replay form merchantKey bytes :=
  scanLoop_eq_replayLoop bytes _ Books.empty 0 0

theorem addAll_log : ∀ (b : Books α) (cs : List (Consumption form merchantKey)),
    addAll (addRecord form merchantKey) b (log cs) = .ok (cs.foldl Books.add b)
  | _, [] => rfl
  | b, c :: cs => by
    have hc : addRecord form merchantKey b ((fields c).map Field.bytes) = .ok (b.add c) :=
      replayRecord_fields b c
    rw [log, List.map_cons, addAll, hc]
    exact addAll_log (b.add c) cs

/-- Replaying the log of `cs` with a record cut short behind it gives the books of `cs`. -/
theorem replay_torn {t : Bytes} (h : Torn 3 t) (cs : List (Consumption form merchantKey)) :
    replay form merchantKey (encodeLog (log cs) ++ t) =
      .ok (booksOf cs, (encodeLog (log cs)).length) := by
  rw [← scan_eq_replay]
  exact scan_encode (by norm_num) h (ofWidth_log cs) (addAll_log Books.empty cs)

theorem replay_encodeLog (cs : List (Consumption form merchantKey)) :
    replay form merchantKey (encodeLog (log cs)) =
      .ok (booksOf cs, (encodeLog (log cs)).length) := by
  simpa using replay_torn (torn_nil (by norm_num)) cs

end MerchantStore

end Paytp
