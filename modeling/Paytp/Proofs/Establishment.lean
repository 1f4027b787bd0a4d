import Paytp.EstablishWire
import Paytp.Proofs.Slots
import Paytp.Sample

/-!
# Establishment objects, read and written

Each object is a row of fields. It parses from what it encodes to and from nothing else, where it
is what the parser asks for: its numbers in the domains, its texts valid and no field too long to
be written. Where the signer asks for less, it can emit what its peer refuses.
-/

namespace Paytp

open Tlv

/-! ## Requests for an acknowledgement -/

namespace AckRequest

def slots (req : AckRequest) : List (UInt8 × Option Bytes) :=
  [(0x00, some req.channelId.toList), (0x01, some (encodeUint req.timestamp)),
    (0x70, req.sig.map List.Vector.toList)]

theorem slots_typed (req : AckRequest) : Typed (req.slots.map Prod.fst) := by
  show Typed [0x00, 0x01, 0x70]
  decide

theorem encode_eq (req : AckRequest) : req.encode = Tlv.encode (row req.slots) := by
  unfold encode slots
  simp only [row_cons, optional_map, optional_some]
  simp [row]
  rfl

theorem short_slots {req : AckRequest} (h : req.timestamp ≤ 2 ^ 53 - 1) : Short req.slots := by
  unfold slots
  simp only [short_cons, short_some, List.Vector.toList_length]
  exact ⟨by decide, length_encodeUint (by omega), short_array _ (by decide), List.forall_mem_nil _⟩

theorem parse_eq_ok {b : Bytes} {req : AckRequest} :
    parse b = .ok req ↔ req.timestamp ≤ 2 ^ 53 - 1 ∧ b = req.encode := by
  unfold parse
  simp only [bind_eq_ok, pure_eq_ok, required_eq_ok (fixed_reads _),
    required_eq_ok (decodeUintMax_reads _), optional_eq_ok (fixed_reads _), decodeUintTime]
  constructor
  · rintro ⟨o, hparse, u, hvalid, cid, ⟨-, hcid⟩, ts, ⟨hts, hget⟩, sig, ⟨-, hsig⟩, rfl⟩
    obtain ⟨-, hb, -⟩ := (parse_row_iff (slots_typed ⟨cid, ts, sig⟩)).1 ⟨hparse, hvalid, by
      simp only [slots, List.forall_mem_cons]
      exact ⟨hcid, hget, hsig, List.forall_mem_nil _⟩⟩
    exact ⟨hts, hb.trans (encode_eq _).symm⟩
  · rintro ⟨hts, hb⟩
    obtain ⟨o, hparse, hvalid, hget⟩ :=
      parse_of_row (slots_typed req) (short_slots hts) (hb.trans (encode_eq _))
    simp only [slots, List.forall_mem_cons] at hget
    obtain ⟨hcid, htime, hsig, -⟩ := hget
    exact ⟨o, hparse, _, hvalid, _, ⟨⟨⟩, hcid⟩, _, ⟨hts, htime⟩, _, ⟨fun _ _ => ⟨⟩, hsig⟩, rfl⟩

end AckRequest

/-! ## Closing -/

namespace Close

def slots (close : Close) : List (UInt8 × Option Bytes) :=
  [(0x00, some close.channelId.toList), (0x01, some close.ckptRef.toList),
    (0x02, some [if close.chainIntent then 1 else 0]), (0x70, close.sig.map List.Vector.toList)]

theorem slots_typed (close : Close) : Typed (close.slots.map Prod.fst) := by
  show Typed [0x00, 0x01, 0x02, 0x70]
  decide

theorem encode_eq (close : Close) : close.encode = Tlv.encode (row close.slots) := by
  unfold encode slots
  simp only [row_cons, optional_map, optional_some]
  simp [row]
  rfl

theorem decodeIntent_reads :
    Reads (fun _ : Bool => True) (fun intent => [if intent then 1 else 0]) decodeIntent := by
  intro value intent
  unfold decodeIntent
  split
  · cases intent <;> simp
  · cases intent <;> simp
  · rename_i h0 h1
    cases intent
    · simpa using h0
    · simpa using h1

theorem parse_eq_ok {b : Bytes} {close : Close} : parse b = .ok close ↔ b = close.encode := by
  unfold parse
  simp only [bind_eq_ok, pure_eq_ok, required_eq_ok (fixed_reads _),
    required_eq_ok decodeIntent_reads, optional_eq_ok (fixed_reads _)]
  constructor
  · rintro ⟨o, hparse, u, hvalid, intent, ⟨-, hintent⟩, cid, ⟨-, hcid⟩, ref, ⟨-, href⟩, sig,
      ⟨-, hsig⟩, rfl⟩
    obtain ⟨-, hb, -⟩ := (parse_row_iff (slots_typed ⟨cid, ref, intent, sig⟩)).1
      ⟨hparse, hvalid, by
        simp only [slots, List.forall_mem_cons]
        exact ⟨hcid, href, hintent, hsig, List.forall_mem_nil _⟩⟩
    exact hb.trans (encode_eq _).symm
  · rintro hb
    have hshort : Short close.slots := by
      unfold slots
      simp only [short_cons, short_some, List.Vector.toList_length, List.length_singleton]
      exact ⟨by decide, by decide, by decide, short_array _ (by decide), List.forall_mem_nil _⟩
    obtain ⟨o, hparse, hvalid, hget⟩ :=
      parse_of_row (slots_typed close) hshort (hb.trans (encode_eq _))
    simp only [slots, List.forall_mem_cons] at hget
    obtain ⟨hcid, href, hintent, hsig, -⟩ := hget
    exact ⟨o, hparse, _, hvalid, _, ⟨⟨⟩, hintent⟩, _, ⟨⟨⟩, hcid⟩, _, ⟨⟨⟩, href⟩, _,
      ⟨fun _ _ => ⟨⟩, hsig⟩, rfl⟩

end Close

/-! ## Acknowledging and funding -/

namespace ChannelAck

variable {suite : Suite}

def slots (ack : ChannelAck) : List (UInt8 × Option Bytes) :=
  [(0x00, some ack.authHash.toList), (0x01, some (Bytes.ofString ack.settlePtr)),
    (0x70, ack.sig.map List.Vector.toList)]

theorem slots_typed (ack : ChannelAck) : Typed (ack.slots.map Prod.fst) := by
  show Typed [0x00, 0x01, 0x70]
  decide

theorem encode_eq_some {ack : ChannelAck} {b : Bytes} :
    ack.encode suite = some b ↔ suite.validateText ack.settlePtr = true ∧
      (suite.parsePointer ack.settlePtr).isSome = true ∧ b = Tlv.encode (row ack.slots) := by
  unfold encode contentFields slots
  simp only [row_cons, optional_map, optional_some, Field.text_eq, Field.array_eq]
  rw [Option.map_eq_some_iff]
  simp [row, and_assoc, eq_comm (a := b)]

theorem parse_eq_ok {b : Bytes} {ack : ChannelAck} :
    parse suite b = .ok ack ↔ ShortText ack.settlePtr ∧ ack.encode suite = some b := by
  unfold parse
  simp only [bind_eq_ok, pure_eq_ok, require_eq_ok, required_eq_ok (fixed_reads _),
    required_eq_ok (decodeText_reads _), optional_eq_ok (fixed_reads _), encode_eq_some]
  constructor
  · rintro ⟨o, hparse, u, hvalid, ptr, ⟨htext, hptr⟩, -, hpointer, hash, ⟨-, hhash⟩, sig,
      ⟨-, hsig⟩, rfl⟩
    obtain ⟨hshort, hb, -⟩ := (parse_row_iff (slots_typed ⟨hash, ptr, sig⟩)).1
      ⟨hparse, hvalid, by
        simp only [slots, List.forall_mem_cons]
        exact ⟨hhash, hptr, hsig, List.forall_mem_nil _⟩⟩
    simp only [slots, short_cons, short_some] at hshort
    exact ⟨hshort.2.1, htext, hpointer, hb⟩
  · rintro ⟨hlength, htext, hpointer, hb⟩
    have hshort : Short ack.slots := by
      unfold slots
      simp only [short_cons, short_some, List.Vector.toList_length]
      exact ⟨by decide, hlength, short_array _ (by decide), List.forall_mem_nil _⟩
    obtain ⟨o, hparse, hvalid, hget⟩ := parse_of_row (slots_typed ack) hshort hb
    simp only [slots, List.forall_mem_cons] at hget
    obtain ⟨hhash, hptr, hsig, -⟩ := hget
    exact ⟨o, hparse, _, hvalid, _, ⟨htext, hptr⟩, ⟨⟩, hpointer, _, ⟨⟨⟩, hhash⟩, _,
      ⟨fun _ _ => ⟨⟩, hsig⟩, rfl⟩

end ChannelAck

namespace FundingProof

variable {suite : Suite}

def slots (fp : FundingProof) : List (UInt8 × Option Bytes) :=
  [(0x00, some fp.channelId.toList), (0x01, some fp.authHash.toList),
    (0x02, some (Bytes.ofString fp.rail)), (0x03, some (Bytes.ofString fp.txRef)),
    (0x04, some (encodeUint fp.amount)), (0x70, fp.sig.map List.Vector.toList)]

theorem slots_typed (fp : FundingProof) : Typed (fp.slots.map Prod.fst) := by
  show Typed [0x00, 0x01, 0x02, 0x03, 0x04, 0x70]
  decide

theorem encode_eq_some {fp : FundingProof} {b : Bytes} :
    fp.encode suite = some b ↔ (suite.validateText fp.rail = true ∧
      suite.validateText fp.txRef = true ∧ suite.isRailId fp.rail = true) ∧
      b = Tlv.encode (row fp.slots) := by
  unfold encode contentFields slots
  simp only [row_cons, optional_map, optional_some, Field.text_eq, Field.uint_eq, Field.array_eq]
  rw [Option.map_eq_some_iff]
  simp [row, and_assoc, eq_comm (a := b)]

theorem parse_eq_ok {b : Bytes} {fp : FundingProof} :
    parse suite b = .ok fp ↔ fp.amount ≤ 2 ^ 128 - 1 ∧
      (ShortText fp.rail ∧ ShortText fp.txRef) ∧ fp.encode suite = some b := by
  unfold parse
  simp only [bind_eq_ok, pure_eq_ok, require_eq_ok, required_eq_ok (fixed_reads _),
    required_eq_ok (decodeText_reads _), required_eq_ok (decodeUintMax_reads _),
    optional_eq_ok (fixed_reads _), decodeUintU128, encode_eq_some]
  constructor
  · rintro ⟨o, hparse, u, hvalid, rail, ⟨htext, hrail⟩, -, hid, cid, ⟨-, hcid⟩, hash, ⟨-, hhash⟩,
      tx, ⟨htx, htxRef⟩, amount, ⟨hle, hamount⟩, sig, ⟨-, hsig⟩, rfl⟩
    obtain ⟨hshort, hb, -⟩ := (parse_row_iff (slots_typed ⟨cid, hash, rail, tx, amount, sig⟩)).1
      ⟨hparse, hvalid, by
        simp only [slots, List.forall_mem_cons]
        exact ⟨hcid, hhash, hrail, htxRef, hamount, hsig, List.forall_mem_nil _⟩⟩
    simp only [slots, short_cons, short_some] at hshort
    exact ⟨hle, ⟨hshort.2.2.1, hshort.2.2.2.1⟩, ⟨htext, htx, hid⟩, hb⟩
  · rintro ⟨hle, ⟨hshortRail, hshortTx⟩, ⟨htext, htx, hid⟩, hb⟩
    have hshort : Short fp.slots := by
      unfold slots
      simp only [short_cons, short_some, List.Vector.toList_length]
      exact ⟨by decide, by decide, hshortRail, hshortTx, length_encodeUint hle,
        short_array _ (by decide), List.forall_mem_nil _⟩
    obtain ⟨o, hparse, hvalid, hget⟩ := parse_of_row (slots_typed fp) hshort hb
    simp only [slots, List.forall_mem_cons] at hget
    obtain ⟨hcid, hhash, hrail, htxRef, hamount, hsig, -⟩ := hget
    exact ⟨o, hparse, _, hvalid, _, ⟨htext, hrail⟩, ⟨⟩, hid, _, ⟨⟨⟩, hcid⟩, _, ⟨⟨⟩, hhash⟩, _,
      ⟨htx, htxRef⟩, _, ⟨hle, hamount⟩, _, ⟨fun _ _ => ⟨⟩, hsig⟩, rfl⟩

end FundingProof

/-! ## Binding -/

namespace BindingArtifact

variable {suite : Suite} {validateNormalizedHost : String → Bool}

def slots (artifact : BindingArtifact) : List (UInt8 × Option Bytes) :=
  [(0x00, some (Bytes.ofString artifact.host)), (0x01, some artifact.certHash.toList),
    (0x02, some artifact.encKey.toList), (0x03, some (encodeUint artifact.notBefore)),
    (0x04, some (encodeUint artifact.notAfter)), (0x70, artifact.sig.map List.Vector.toList)]

theorem slots_typed (artifact : BindingArtifact) : Typed (artifact.slots.map Prod.fst) := by
  show Typed [0x00, 0x01, 0x02, 0x03, 0x04, 0x70]
  decide

theorem encode_eq_some {artifact : BindingArtifact} {b : Bytes} :
    artifact.encode suite validateNormalizedHost = some b ↔
      (suite.validateText artifact.host = true ∧ validateNormalizedHost artifact.host = true) ∧
      b = Tlv.encode (row artifact.slots) := by
  unfold encode contentFields slots
  simp only [row_cons, optional_map, optional_some, Field.text_eq, Field.uint_eq, Field.array_eq]
  rw [Option.map_eq_some_iff]
  simp [row, and_assoc, eq_comm (a := b)]

/-- The times are in their domain and the host is not too long. -/
def Readable (artifact : BindingArtifact) : Prop :=
  artifact.notBefore ≤ 2 ^ 53 - 1 ∧ artifact.notAfter ≤ 2 ^ 53 - 1 ∧ ShortText artifact.host

theorem parse_eq_ok {b : Bytes} {artifact : BindingArtifact} :
    parse suite validateNormalizedHost b = .ok artifact ↔ artifact.Readable ∧
      artifact.encode suite validateNormalizedHost = some b := by
  unfold parse
  simp only [bind_eq_ok, pure_eq_ok, require_eq_ok, required_eq_ok (fixed_reads _),
    required_eq_ok (decodeText_reads _), required_eq_ok (decodeUintMax_reads _),
    optional_eq_ok (fixed_reads _), decodeUintTime, encode_eq_some]
  constructor
  · rintro ⟨o, hparse, u, hvalid, host, ⟨htext, hhost⟩, -, hnormal, cert, ⟨-, hcert⟩, key,
      ⟨-, hkey⟩, before, ⟨hble, hbefore⟩, after, ⟨hale, hafter⟩, sig, ⟨-, hsig⟩, rfl⟩
    obtain ⟨hshort, hb, -⟩ := (parse_row_iff (slots_typed ⟨host, cert, key, before, after, sig⟩)).1
      ⟨hparse, hvalid, by
        simp only [slots, List.forall_mem_cons]
        exact ⟨hhost, hcert, hkey, hbefore, hafter, hsig, List.forall_mem_nil _⟩⟩
    simp only [slots, short_cons, short_some] at hshort
    exact ⟨⟨hble, hale, hshort.1⟩, ⟨htext, hnormal⟩, hb⟩
  · rintro ⟨⟨hble, hale, hlength⟩, ⟨htext, hnormal⟩, hb⟩
    have hshort : Short artifact.slots := by
      unfold slots
      simp only [short_cons, short_some, List.Vector.toList_length]
      exact ⟨hlength, by decide, by decide, length_encodeUint (by omega),
        length_encodeUint (by omega), short_array _ (by decide), List.forall_mem_nil _⟩
    obtain ⟨o, hparse, hvalid, hget⟩ := parse_of_row (slots_typed artifact) hshort hb
    simp only [slots, List.forall_mem_cons] at hget
    obtain ⟨hhost, hcert, hkey, hbefore, hafter, hsig, -⟩ := hget
    exact ⟨o, hparse, _, hvalid, _, ⟨htext, hhost⟩, ⟨⟩, hnormal, _, ⟨⟨⟩, hcert⟩, _, ⟨⟨⟩, hkey⟩, _,
      ⟨hble, hbefore⟩, _, ⟨hale, hafter⟩, _, ⟨fun _ _ => ⟨⟩, hsig⟩, rfl⟩

end BindingArtifact

/-! ## Opening -/

namespace VectorEntry

variable {suite : Suite}

theorem parseItem_delimits : Delimits
    (fun e => suite.validateText e.dest = true ∧ ShortText e.dest) encodeItem
    (parseItem suite) := by
  have h : Delimits _ _ (parseItem suite) :=
    (readByte_delimits.both ((readBE_delimits 2).both
      (readLpText_delimits suite.validateText))).mapItem
      (g := fun e => (e.role, e.bp.toNat, e.dest)) (fun e => by simp) (by
        rintro ⟨role, bp, dest⟩ ⟨-, hbp, -⟩
        have hmod : bp % 65536 = bp := Nat.mod_eq_of_lt hbp
        simp [hmod])
  intro bs e n
  rw [h bs e n]
  have hbp : e.bp.toNat < 256 ^ 2 := e.bp.toNat_lt
  simp only [true_and, hbp]
  rfl

theorem encodeItem_ne_nil (e : VectorEntry) : e.encodeItem ≠ [] := List.cons_ne_nil _ _

/-- The destinations of a vector are shorter than what the vector is written as. -/
theorem shortText_dest {vector : List VectorEntry}
    (h : (buildCountPrefixed (vector.map encodeItem)).length ≤ Leb128.MAX) :
    vector.length ≤ Leb128.MAX ∧ ∀ e ∈ vector, ShortText e.dest := by
  obtain ⟨hcount, hitems⟩ := length_le_counted encodeItem
    fun e (_ : e ∈ vector) => encodeItem_ne_nil e
  refine ⟨hcount.trans h, fun e he => ?_⟩
  have hle := (hitems e he).trans h
  have hdest := length_le_pushLp (Bytes.ofString e.dest)
  rw [encodeItem, List.length_cons, List.length_append, length_toBE] at hle
  unfold ShortText
  omega

end VectorEntry

namespace ChannelAuth

variable {suite : Suite}

def slots (auth : ChannelAuth) : List (UInt8 × Option Bytes) :=
  [(0x00, some auth.payerKey.toList), (0x01, some auth.channelId.toList),
    (0x02, some auth.merchantKey.toList), (0x03, some (Bytes.ofString auth.denom)),
    (0x04, some [auth.mode]), (0x05, some (encodeUint auth.limitL)),
    (0x06, some (encodeUint auth.limitE)), (0x07, some (encodeUint auth.thValue)),
    (0x08, some (encodeUint auth.thTime)), (0x09, auth.refundPtr.map Bytes.ofString),
    (0x0A, some (Bytes.ofString auth.baselineNet)), (0x0B, auth.rateSource.map Bytes.ofString),
    (0x0C, auth.rateDev.map encodeUint), (0x0D, some (encodeUint auth.schema)),
    (0x0E, some (buildCountPrefixed (auth.vector.map VectorEntry.encodeItem))),
    (0x0F, some (encodeUint auth.registryV)), (0x10, some auth.hs.toList),
    (0x12, auth.predecessor.map fun pred => pred.1.toList ++ pred.2.toList),
    (0x13, some (encodeUint auth.timestamp)), (0x14, some (Bytes.ofString auth.baselineAsset)),
    (0x15, some (encodeUint auth.contract)), (0x16, some (Bytes.ofString auth.finMeed)),
    (0x17, some (Bytes.ofString auth.finDenom)), (0x70, auth.sig.map List.Vector.toList)]

theorem slots_typed (auth : ChannelAuth) : Typed (auth.slots.map Prod.fst) := by
  show Typed [0x00, 0x01, 0x02, 0x03, 0x04, 0x05, 0x06, 0x07, 0x08, 0x09, 0x0A, 0x0B, 0x0C, 0x0D,
    0x0E, 0x0F, 0x10, 0x12, 0x13, 0x14, 0x15, 0x16, 0x17, 0x70]
  decide

theorem encode_eq_some {auth : ChannelAuth} {b : Bytes} :
    auth.encode suite = some b ↔ (auth.checkPresence = true ∧ auth.validateGrammar suite = true) ∧
      b = Tlv.encode (row auth.slots) := by
  unfold encode contentFields slots
  simp only [row_cons, optional_map, optional_some, Field.text_eq, Field.uint_eq, Field.array_eq]
  rw [Option.map_eq_some_iff]
  simp [row, and_assoc, eq_comm (a := b)]

theorem decodeMode_reads : Reads (fun _ : UInt8 => True) (fun mode => [mode]) decodeMode := by
  intro value mode
  unfold decodeMode
  split
  · simp
  · rename_i h
    simpa using h mode

theorem decodePredecessor_reads : Reads (fun _ : ByteArr 8 × ByteArr 32 => True)
    (fun pred => pred.1.toList ++ pred.2.toList) decodePredecessor := by
  rintro value ⟨id, ref⟩
  unfold decodePredecessor
  simp only [bind_eq_ok, require_eq_ok, pure_eq_ok, fixed_reads _ _ _, true_and, decide_eq_true_eq]
  constructor
  · rintro ⟨-, -, id, hid, ref, href, heq⟩
    cases heq
    rw [← hid, ← href, List.take_append_drop]
  · rintro rfl
    have hid := id.toList_length
    have href := ref.toList_length
    refine ⟨⟨⟩, by simp [hid, href], id, ?_, ref, ?_, rfl⟩
    · rw [List.take_left' hid]
    · rw [List.drop_left' hid]

/-- The numbers are what their types hold. -/
structure Ranged (auth : ChannelAuth) : Prop where
  limitL : auth.limitL ≤ 2 ^ 128 - 1
  limitE : auth.limitE ≤ 2 ^ 128 - 1
  thValue : auth.thValue ≤ 2 ^ 128 - 1
  thTime : auth.thTime ≤ 2 ^ 64 - 1
  rateDev : ∀ dev ∈ auth.rateDev, dev ≤ 2 ^ 128 - 1
  schema : auth.schema ≤ 2 ^ 32 - 1
  registryV : auth.registryV ≤ 2 ^ 32 - 1
  timestamp : auth.timestamp ≤ 2 ^ 64 - 1
  contract : auth.contract ≤ 2 ^ 32 - 1

/-- The texts that stand in fields of their own. -/
def texts (auth : ChannelAuth) : List String :=
  [auth.denom, auth.baselineNet, auth.baselineAsset, auth.finMeed, auth.finDenom] ++
    auth.refundPtr.toList ++ auth.rateSource.toList

/-- What the parser asks for and the signer does not. -/
structure Readable (suite : Suite) (auth : ChannelAuth) : Prop where
  thTime : auth.thTime ≤ 2 ^ 53 - 1
  timestamp : auth.timestamp ≤ 2 ^ 53 - 1
  texts : ∀ s ∈ auth.texts, suite.validateText s = true ∧ ShortText s
  dests : ∀ e ∈ auth.vector, suite.validateText e.dest = true
  roles : (auth.vector.map VectorEntry.role).Pairwise (· < ·)
  vector : (buildCountPrefixed (auth.vector.map VectorEntry.encodeItem)).length ≤ Leb128.MAX

theorem short_slots {auth : ChannelAuth} (hr : auth.Ranged) (h : auth.Readable suite) :
    Short auth.slots := by
  have htexts := h.texts
  have htime := h.thTime
  have hstamp := h.timestamp
  have hschema := hr.schema
  have hregistry := hr.registryV
  have hcontract := hr.contract
  simp only [ChannelAuth.texts, List.cons_append, List.nil_append, List.forall_mem_cons,
    List.forall_mem_append, Option.mem_toList] at htexts
  obtain ⟨hdenom, hnet, hasset, hmeed, hfin, hrefund, hsource⟩ := htexts
  unfold slots
  simp only [short_cons, short_some, List.Vector.toList_length, Option.mem_map,
    forall_exists_index, and_imp, forall_apply_eq_imp_iff₂, List.length_singleton,
    List.length_append]
  exact ⟨by decide, by decide, by decide, hdenom.2, by decide, length_encodeUint hr.limitL,
    length_encodeUint hr.limitE, length_encodeUint hr.thValue, length_encodeUint (by omega),
    fun s hs => (hrefund s hs).2, hnet.2, fun s hs => (hsource s hs).2,
    fun dev hdev => length_encodeUint (hr.rateDev dev hdev), length_encodeUint (by omega), h.vector,
    length_encodeUint (by omega), by decide, fun _ _ => by decide, length_encodeUint (by omega),
    hasset.2, length_encodeUint (by omega), hmeed.2, hfin.2, fun _ _ => by decide,
      List.forall_mem_nil _⟩

/-- The terms parse from what they encode to, where they are as the parser asks. -/
theorem parse_eq_ok {b : Bytes} {auth : ChannelAuth} : parse suite b = .ok auth ↔
    auth.Ranged ∧ auth.Readable suite ∧ auth.encode suite = some b := by
  unfold parse
  simp only [bind_eq_ok, pure_eq_ok, require_eq_ok, required_eq_ok (fixed_reads _),
    required_eq_ok (decodeText_reads _), required_eq_ok (decodeUintMax_reads _),
    optional_eq_ok (fixed_reads _), optional_eq_ok (decodeText_reads _),
    optional_eq_ok (decodeUintMax_reads _), required_eq_ok decodeMode_reads,
    optional_eq_ok decodePredecessor_reads, decodeUintTime, decodeUintU128, decodeUintU32,
    required_eq_ok (parseCountPrefixed_reads VectorEntry.parseItem_delimits
      fun e _ => e.encodeItem_ne_nil), encode_eq_some, decide_eq_true_eq]
  constructor
  · -- a few fields at a time: one pattern for all of them is slow
    intro h
    obtain ⟨o, hparse, u, hvalid, mode, ⟨-, hmode⟩, vector, ⟨⟨-, hdests⟩, hvector⟩, -, hroles, pred,
      ⟨-, hpred⟩, h⟩ := h
    obtain ⟨cid, ⟨-, hcid⟩, payer, ⟨-, hpayer⟩, merchant, ⟨-, hmerchant⟩, denom,
      ⟨htDenom, hdenom⟩, h⟩ := h
    obtain ⟨limitL, ⟨hleL, hlimitL⟩, limitE, ⟨hleE, hlimitE⟩, thValue, ⟨hleV, hthValue⟩, thTime,
      ⟨hleT, hthTime⟩, h⟩ := h
    obtain ⟨refund, ⟨htRefund, hrefund⟩, net, ⟨htNet, hnet⟩, source, ⟨htSource, hsource⟩, dev,
      ⟨hleDev, hdev⟩, h⟩ := h
    obtain ⟨schema, ⟨hleS, hschema⟩, registryV, ⟨hleR, hregistryV⟩, hs, ⟨-, hhs⟩, stamp,
      ⟨hleStamp, hstamp⟩, h⟩ := h
    obtain ⟨asset, ⟨htAsset, hasset⟩, contract, ⟨hleC, hcontract⟩, meed, ⟨htMeed, hmeed⟩, fin,
      ⟨htFin, hfin⟩, h⟩ := h
    obtain ⟨sig, ⟨-, hsig⟩, -, hpresence, -, hgrammar, rfl⟩ := h
    obtain ⟨hshort, hb, -⟩ := (parse_row_iff (slots_typed ⟨payer, cid, merchant, denom, mode,
      limitL, limitE, thValue, thTime, refund, net, source, dev, schema, vector, registryV, hs,
      pred, stamp, asset, contract, meed, fin, sig⟩)).1 ⟨hparse, hvalid, by
        simp only [slots, List.forall_mem_cons]
        exact ⟨hpayer, hcid, hmerchant, hdenom, hmode, hlimitL, hlimitE, hthValue, hthTime, hrefund,
          hnet, hsource, hdev, hschema, hvector, hregistryV, hhs, hpred, hstamp, hasset, hcontract,
          hmeed, hfin, hsig, List.forall_mem_nil _⟩⟩
    simp only [slots, short_cons, short_some, Option.mem_map, forall_exists_index, and_imp,
      forall_apply_eq_imp_iff₂] at hshort
    obtain ⟨-, -, -, hsDenom, -, -, -, -, -, hsRefund, hsNet, hsSource, -, -, hsVector, -, -, -, -,
      hsAsset, -, hsMeed, hsFin, -⟩ := hshort
    refine ⟨⟨hleL, hleE, hleV, hleT.trans (by decide), hleDev, hleS, hleR,
      hleStamp.trans (by decide), hleC⟩, ⟨hleT, hleStamp, ?_, fun e he => (hdests e he).1, hroles,
      hsVector⟩, ⟨hpresence, hgrammar⟩, hb⟩
    simp only [ChannelAuth.texts, List.cons_append, List.nil_append, List.forall_mem_cons,
      List.forall_mem_append, Option.mem_toList]
    exact ⟨⟨htDenom, hsDenom⟩, ⟨htNet, hsNet⟩, ⟨htAsset, hsAsset⟩, ⟨htMeed, hsMeed⟩,
      ⟨htFin, hsFin⟩, fun s hs => ⟨htRefund s hs, hsRefund s hs⟩,
      fun s hs => ⟨htSource s hs, hsSource s hs⟩⟩
  · rintro ⟨hr, h, ⟨hpresence, hgrammar⟩, hb⟩
    obtain ⟨o, hparse, hvalid, hget⟩ := parse_of_row (slots_typed auth) (short_slots hr h) hb
    have htexts := h.texts
    simp only [ChannelAuth.texts, List.cons_append, List.nil_append, List.forall_mem_cons,
      List.forall_mem_append, Option.mem_toList] at htexts
    obtain ⟨tDenom, tNet, tAsset, tMeed, tFin, tRefund, tSource⟩ := htexts
    obtain ⟨hcount, hshortDests⟩ := VectorEntry.shortText_dest h.vector
    simp only [slots, List.forall_mem_cons] at hget
    obtain ⟨hpayer, hcid, hmerchant, hdenom, hmode, hlimitL, hlimitE, hthValue, hthTime, hrefund,
      hnet, hsource, hdev, hschema, hvector, hregistryV, hhs, hpred, hstamp, hasset, hcontract,
      hmeed, hfin, hsig, -⟩ := hget
    exact ⟨o, hparse, _, hvalid, _, ⟨⟨⟩, hmode⟩, _,
      ⟨⟨hcount, fun e he => ⟨h.dests e he, hshortDests e he⟩⟩, hvector⟩, ⟨⟩, h.roles, _,
      ⟨fun _ _ => ⟨⟩, hpred⟩, _, ⟨⟨⟩, hcid⟩, _, ⟨⟨⟩, hpayer⟩, _, ⟨⟨⟩, hmerchant⟩, _,
      ⟨tDenom.1, hdenom⟩, _, ⟨hr.limitL, hlimitL⟩, _, ⟨hr.limitE, hlimitE⟩, _,
      ⟨hr.thValue, hthValue⟩, _, ⟨h.thTime, hthTime⟩, _, ⟨fun s hs => (tRefund s hs).1, hrefund⟩, _,
      ⟨tNet.1, hnet⟩, _, ⟨fun s hs => (tSource s hs).1, hsource⟩, _, ⟨hr.rateDev, hdev⟩, _,
      ⟨hr.schema, hschema⟩, _, ⟨hr.registryV, hregistryV⟩, _, ⟨⟨⟩, hhs⟩, _,
      ⟨h.timestamp, hstamp⟩, _, ⟨tAsset.1, hasset⟩, _, ⟨hr.contract, hcontract⟩, _,
      ⟨tMeed.1, hmeed⟩, _, ⟨tFin.1, hfin⟩, _, ⟨fun _ _ => ⟨⟩, hsig⟩, ⟨⟩, hpresence, ⟨⟩, hgrammar,
      rfl⟩

end ChannelAuth

namespace ChannelOpen

variable {suite : Suite}

def slots (suite : Suite) (o : ChannelOpen) : List (UInt8 × Option Bytes) :=
  [(0x00, some ((o.auth.encode suite).getD [])), (0x01, some o.sealed)]

theorem slots_typed (o : ChannelOpen) : Typed ((o.slots suite).map Prod.fst) := by
  show Typed [0x00, 0x01]
  decide

theorem encode_eq_some {o : ChannelOpen} {b : Bytes} : o.encode suite = some b ↔
    (o.auth.encode suite).isSome = true ∧ b = Tlv.encode (row (o.slots suite)) := by
  unfold encode slots
  rw [Option.map_eq_some_iff]
  rcases o.auth.encode suite with _ | auth
  · simp
  · simp [row, Field.optional, eq_comm (a := b)]

theorem auth_reads : Reads (fun auth : ChannelAuth =>
      auth.Ranged ∧ auth.Readable suite ∧ (auth.encode suite).isSome = true)
    (fun auth => (auth.encode suite).getD []) (ChannelAuth.parse suite) := by
  intro value auth
  rw [ChannelAuth.parse_eq_ok]
  rcases henc : auth.encode suite with _ | b
  · simp [henc]
  · simp [henc, and_assoc, eq_comm (a := value)]

theorem sealed_reads :
    Reads (fun _ : Bytes => True) id (pure : Bytes → Except WireError Bytes) := by
  intro value a
  simp [pure_eq_ok]

/-- The terms are as their parser asks and not too long, and the seal has its length. -/
def Readable (suite : Suite) (o : ChannelOpen) : Prop :=
  o.auth.Ranged ∧ o.auth.Readable suite ∧ o.sealed.length = 80 ∧
    ((o.auth.encode suite).getD []).length ≤ Leb128.MAX

theorem parse_eq_ok {b : Bytes} {o : ChannelOpen} :
    parse suite b = .ok o ↔ o.Readable suite ∧ o.encode suite = some b := by
  unfold parse
  simp only [bind_eq_ok, pure_eq_ok, require_eq_ok, required_eq_ok auth_reads,
    required_eq_ok sealed_reads, encode_eq_some, decide_eq_true_eq, id_eq]
  constructor
  · rintro ⟨o, hparse, u, hvalid, auth, ⟨⟨hr, hread, hsome⟩, hauth⟩, sealed, ⟨-, hsealed⟩, -, hlen,
      rfl⟩
    obtain ⟨hshort, hb, -⟩ := (parse_row_iff (slots_typed ⟨auth, sealed⟩)).1 ⟨hparse, hvalid, by
      simp only [slots, List.forall_mem_cons]
      exact ⟨hauth, hsealed, List.forall_mem_nil _⟩⟩
    simp only [slots, short_cons, short_some] at hshort
    exact ⟨⟨hr, hread, hlen, hshort.1⟩, hsome, hb⟩
  · rintro ⟨⟨hr, hread, hlen, hle⟩, hsome, hb⟩
    have hshort : Short (o.slots suite) := by
      unfold slots
      simp only [short_cons, short_some, hlen]
      exact ⟨hle, by decide, List.forall_mem_nil _⟩
    obtain ⟨obj, hparse, hvalid, hget⟩ := parse_of_row (slots_typed o) hshort hb
    simp only [slots, List.forall_mem_cons] at hget
    obtain ⟨hauth, hsealed, -⟩ := hget
    exact ⟨obj, hparse, _, hvalid, _, ⟨⟨hr, hread, hsome⟩, hauth⟩, _, ⟨⟨⟩, hsealed⟩, ⟨⟩, hlen, rfl⟩

end ChannelOpen

/-! ## What is received and what is emitted -/

/-- What is signed is what was received, less the signature's field. -/
def SignedOver (fields : Option (List Tlv.Field)) (sig : Option (ByteArr 64)) (b : Bytes) : Prop :=
  ∃ content, fields.map Tlv.encode = some content ∧
    b = content ++ Tlv.encode (Tlv.Field.optional (.array 0x70) sig)

theorem signedOver_of_encode {fields : Option (List Tlv.Field)} {sig : Option (ByteArr 64)}
    {b : Bytes} (h : fields.map (fun fields =>
      Tlv.encode (fields ++ Tlv.Field.optional (.array 0x70) sig)) = some b) :
    SignedOver fields sig b := by
  obtain ⟨fields, rfl, rfl⟩ := Option.map_eq_some_iff.1 h
  exact ⟨Tlv.encode fields, rfl, encode_append _ _⟩

/-- Every object that is parsed encodes to the bytes it was parsed from, and what its signature
covers, its hash digests and its seal is bound to is read off these bytes. -/
theorem establishment_canonical (suite : Suite) (validateNormalizedHost : String → Bool)
    (b : Bytes) :
    (∀ artifact, BindingArtifact.parse suite validateNormalizedHost b = .ok artifact →
      artifact.encode suite validateNormalizedHost = some b ∧
        SignedOver (artifact.contentFields suite validateNormalizedHost) artifact.sig b) ∧
    (∀ auth, ChannelAuth.parse suite b = .ok auth → auth.encode suite = some b ∧
      ∃ content, auth.canonicalContent suite = some content ∧
        auth.authHash suite = some (suite.sha256 (covered .chanAuth content)) ∧
        b = content ++ Tlv.encode (Tlv.Field.optional (.array 0x70) auth.sig)) ∧
    (∀ o, ChannelOpen.parse suite b = .ok o → o.encode suite = some b ∧
      ∃ auth content, ChannelAuth.parse suite auth = .ok o.auth ∧
        b = Tlv.encode [⟨0x00, false, auth⟩, ⟨0x01, false, o.sealed⟩] ∧
        o.auth.canonicalContent suite = some content ∧
        auth = content ++ Tlv.encode (Tlv.Field.optional (.array 0x70) o.auth.sig)) ∧
    (∀ ack, ChannelAck.parse suite b = .ok ack → ack.encode suite = some b ∧
      SignedOver (ack.contentFields suite) ack.sig b) ∧
    (∀ req, AckRequest.parse b = .ok req → req.encode = b ∧
      SignedOver (some req.contentFields) req.sig b) ∧
    (∀ fp, FundingProof.parse suite b = .ok fp → fp.encode suite = some b ∧
      SignedOver (fp.contentFields suite) fp.sig b) ∧
    (∀ close, Close.parse b = .ok close → close.encode = b ∧
      SignedOver (some close.contentFields) close.sig b) := by
  have hcontent : ∀ {auth : ChannelAuth} {b : Bytes}, auth.encode suite = some b →
      ∃ content, auth.canonicalContent suite = some content ∧
        b = content ++ Tlv.encode (Tlv.Field.optional (.array 0x70) auth.sig) :=
    fun henc => signedOver_of_encode henc
  refine ⟨fun artifact h => ?_, fun auth h => ?_, fun o h => ?_, fun ack h => ?_, fun req h => ?_,
    fun fp h => ?_, fun close h => ?_⟩
  · obtain ⟨-, henc⟩ := BindingArtifact.parse_eq_ok.1 h
    exact ⟨henc, signedOver_of_encode henc⟩
  · obtain ⟨-, -, henc⟩ := ChannelAuth.parse_eq_ok.1 h
    obtain ⟨content, hc, hb⟩ := hcontent henc
    refine ⟨henc, content, hc, ?_, hb⟩
    rw [ChannelAuth.authHash, hc]
    rfl
  · obtain ⟨⟨hr, hread, -⟩, henc⟩ := ChannelOpen.parse_eq_ok.1 h
    obtain ⟨auth, hauth, hb⟩ := Option.map_eq_some_iff.1 henc
    obtain ⟨content, hc, hac⟩ := hcontent hauth
    exact ⟨henc, auth, content, ChannelAuth.parse_eq_ok.2 ⟨hr, hread, hauth⟩, hb.symm, hc, hac⟩
  · obtain ⟨-, henc⟩ := ChannelAck.parse_eq_ok.1 h
    exact ⟨henc, signedOver_of_encode henc⟩
  · obtain ⟨-, rfl⟩ := AckRequest.parse_eq_ok.1 h
    exact ⟨rfl, signedOver_of_encode rfl⟩
  · obtain ⟨-, -, henc⟩ := FundingProof.parse_eq_ok.1 h
    exact ⟨henc, signedOver_of_encode henc⟩
  · obtain rfl := Close.parse_eq_ok.1 h
    exact ⟨rfl, signedOver_of_encode rfl⟩

/-- The opening of a prepay channel, received as it was sent. -/
theorem establishment_canonical_open : ∃ b o, ChannelOpen.parse keyedSuite b = .ok o ∧
    o.auth.timestamp = 1000 ∧ o.encode keyedSuite = some b := by
  let o : ChannelOpen :=
    { Sample.openOn (Sample.terms (Sample.cid 1) none 1000) with sealed := .replicate 80 0 }
  have hparse : ((ChannelOpen.parse keyedSuite ((o.encode keyedSuite).getD [])).toOption.any
      fun o => o.auth.timestamp == 1000) = true := by decide +kernel
  obtain ⟨received, hreceived, htime⟩ := (Option.any_eq_true _ _).1 hparse
  have hok := toOption_eq_some.1 hreceived
  exact ⟨_, received, hok, beq_iff_eq.1 htime,
    ((establishment_canonical keyedSuite (fun _ => true) _).2.2.1 received hok).1⟩

/-- What is signed and encoded is read back where the parser asks for no more than the signer: the
times stop at 2⁵³ - 1, the texts are valid, the roles ascend and the lengths can be written. -/
theorem establishment_symmetric_iff (suite : Suite) (validateNormalizedHost : String → Bool)
    (sk : ByteArr 32) (b : Bytes) :
    (∀ auth signed : ChannelAuth, auth.Ranged → auth.sign suite sk = some signed →
      signed.encode suite = some b →
      (ChannelAuth.parse suite b = .ok signed ↔ auth.Readable suite)) ∧
    (∀ artifact signed : BindingArtifact,
      artifact.sign suite validateNormalizedHost sk = some signed →
      signed.encode suite validateNormalizedHost = some b →
      (BindingArtifact.parse suite validateNormalizedHost b = .ok signed ↔ artifact.Readable)) ∧
    (∀ req : AckRequest, (req.sign suite sk).encode = b →
      (AckRequest.parse b = .ok (req.sign suite sk) ↔ req.timestamp ≤ 2 ^ 53 - 1)) ∧
    (∀ fp signed : FundingProof, fp.amount ≤ 2 ^ 128 - 1 → fp.sign suite sk = some signed →
      signed.encode suite = some b →
      (FundingProof.parse suite b = .ok signed ↔ ShortText fp.rail ∧ ShortText fp.txRef)) := by
  refine ⟨fun auth signed hr hs henc => ?_, fun artifact signed hs henc => ?_, fun req hb => ?_,
    fun fp signed hle hs henc => ?_⟩
  · obtain ⟨fields, -, rfl⟩ := Option.map_eq_some_iff.1 hs
    rw [ChannelAuth.parse_eq_ok]
    exact ⟨fun ⟨_, h, _⟩ => ⟨h.1, h.2, h.3, h.4, h.5, h.6⟩,
      fun h => ⟨⟨hr.1, hr.2, hr.3, hr.4, hr.5, hr.6, hr.7, hr.8, hr.9⟩,
        ⟨h.1, h.2, h.3, h.4, h.5, h.6⟩, henc⟩⟩
  · obtain ⟨fields, -, rfl⟩ := Option.map_eq_some_iff.1 hs
    rw [BindingArtifact.parse_eq_ok]
    exact ⟨fun h => h.1, fun h => ⟨h, henc⟩⟩
  · rw [AckRequest.parse_eq_ok]
    exact ⟨fun h => h.1, fun h => ⟨h, hb.symm⟩⟩
  · obtain ⟨fields, -, rfl⟩ := Option.map_eq_some_iff.1 hs
    rw [FundingProof.parse_eq_ok]
    exact ⟨fun h => h.2.1, fun h => ⟨hle, h, henc⟩⟩

/-- The terms of a prepay channel are read back as they were signed. -/
theorem establishment_symmetric_terms : ∃ signed b, (Sample.terms (Sample.cid 1) none 1000).sign
    keyedSuite Sample.payerSk = some signed ∧ ChannelAuth.parse keyedSuite b = .ok signed := by
  have hrun : (((Sample.terms (Sample.cid 1) none 1000).sign keyedSuite Sample.payerSk).bind
      fun signed => signed.encode keyedSuite).isSome = true := by decide +kernel
  obtain ⟨b, hb⟩ := Option.isSome_iff_exists.1 hrun
  obtain ⟨signed, hs, henc⟩ := Option.bind_eq_some_iff.1 hb
  have hranged : (Sample.terms (Sample.cid 1) none 1000).Ranged :=
    ⟨by decide, by decide, by decide, by decide, nofun, by decide, by decide, by decide, by decide⟩
  have hreadable : (Sample.terms (Sample.cid 1) none 1000).Readable keyedSuite :=
    ⟨by decide, by decide, by decide +kernel, by decide +kernel, by decide, by decide +kernel⟩
  exact ⟨signed, b, hs, ((establishment_symmetric_iff keyedSuite (fun _ => true) Sample.payerSk
    b).1 _ signed hranged hs henc).2 hreadable⟩

namespace Sample

/-- The suite with the destinations a release pins. -/
def releaseSuite : Suite :=
  { keyedSuite with
    osDestinationAccepted := fun _ dest =>
      dest == "eip155:8453:0x0000000000000000000000000000000000000011"
    devFundDest := "eip155:0:PLACEHOLDER-release-bound-dev-fund" }

def releaseEnv : Wallet.Env VirtualRail := { walletEnv with suite := releaseSuite }

def releaseTrust : Wallet.PayerChannelTrust :=
  { walletTrust with
    walletMeedDest := some "eip155:8453:0x0000000000000000000000000000000000000012" }

/-- The terms of a channel that settles after `thTime`. -/
def releaseParams (thTime : ℕ) : Wallet.ChannelOpenParams :=
  { openParams (cid 1) 10000 thTime tenThousand_le with
    denom := "eip155:8453/erc20:0x833589fCD6eDb6E08f4c7C32D4f71b54bdA02913"
    baselineAsset := "eip155:8453/erc20:0x833589fCD6eDb6E08f4c7C32D4f71b54bdA02913"
    baselineNet := "eip155:8453"
    refundPtr := some "eip155:8453:0x0000000000000000000000000000000000000001"
    vector :=
      [⟨ROLE_INTERACTION_LAYER, 50, "eip155:8453:0x0000000000000000000000000000000000000010"⟩,
        ⟨ROLE_OS, 10, "eip155:8453:0x0000000000000000000000000000000000000011"⟩,
        ⟨ROLE_WALLET, 30, "eip155:8453:0x0000000000000000000000000000000000000012"⟩,
        ⟨ROLE_DEV_FUND, 10, "eip155:0:PLACEHOLDER-release-bound-dev-fund"⟩] }

/-- The terms a wallet opens with, and their bytes. -/
def released (thTime : ℕ) : Option (ChannelAuth × Bytes) := do
  let (o, _) ← (Wallet.openInner releaseEnv releaseTrust 1000 .approve (releaseParams thTime)
    secret).toOption
  return (o.auth, ← o.auth.encode releaseSuite)

end Sample

open Sample in
/-- The wallet opens with a settlement time of 2⁵³ s, which the merchant's parser refuses. -/
theorem open_with_refused_time : ∃ o c b, Wallet.openInner releaseEnv releaseTrust 1000 .approve
    (releaseParams (2 ^ 53)) secret = .ok (o, c) ∧ o.auth.encode releaseSuite = some b ∧
      ChannelAuth.parse releaseSuite b = .error .fieldDomain := by
  have hrun : ((released (2 ^ 53)).any fun p =>
      decide (ChannelAuth.parse releaseSuite p.2 = .error .fieldDomain)) = true := by
    decide +kernel
  obtain ⟨⟨auth, b⟩, hreleased, hrefused⟩ := (Option.any_eq_true _ _).1 hrun
  simp only [released, Option.bind_eq_bind, Option.bind_eq_some_iff] at hreleased
  obtain ⟨⟨o, c⟩, hopen, b, henc, heq⟩ := hreleased
  cases heq
  exact ⟨o, c, b, toOption_eq_some.1 hopen, henc, of_decide_eq_true hrefused⟩

end Paytp
