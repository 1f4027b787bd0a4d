import Paytp.Proofs.Slots
import Paytp.Sample
import Paytp.SettleWire

/-!
# Settlement messages, read and written

The nested parts of a proposal first, then the messages. A message parses from what it encodes to
where its texts are valid and nothing is too long to be written; a notice of a draw also parses
where nobody signed it, and then it does not encode.
-/

namespace Paytp

open Tlv

/-! ## Items -/

theorem parseRoleItem_delimits : Delimits (fun e => e.2 ≤ VALUE_MAX) roleItem parseRoleItem := by
  intro bs e n
  rw [parseRoleItem, readByte_delimits.both readLpUint_delimits bs e n]
  simp only [true_and]
  rfl

theorem roleItem_ne_nil (e : UInt8 × ℕ) : roleItem e ≠ [] := List.cons_ne_nil _ _

/-- The bytes of a text are fewer than those of an item it stands in. -/
theorem shortText_of_pushLp {s : String} {n : ℕ} (h : (pushLp (Bytes.ofString s)).length ≤ n)
    (hn : n ≤ Leb128.MAX) : ShortText s :=
  ((length_le_pushLp _).trans h).trans hn

namespace Output

variable {suite : Suite}

/-- The texts of an output are valid. -/
def Texts (suite : Suite) (o : Output) : Prop :=
  suite.validateText o.asset = true ∧ suite.validateText o.dest = true

theorem parseItem_delimits : Delimits (fun o => o.amount ≤ VALUE_MAX ∧ o.Texts suite ∧
    ShortText o.asset ∧ ShortText o.dest) encodeItem (parseItem suite) := by
  have h : Delimits _ _ (parseItem suite) :=
    (readLpUint_delimits.both ((readLpText_delimits suite.validateText).both
      (readLpText_delimits suite.validateText))).mapItem
      (g := fun o => (o.amount, o.asset, o.dest)) (fun _ => rfl) (fun _ _ => rfl)
  intro bs o n
  rw [h bs o n]
  simp only [encodeItem, Texts, List.append_assoc]
  constructor
  · rintro ⟨⟨hle, ⟨hasset, hsa⟩, hdest, hsd⟩, hrest⟩
    exact ⟨⟨hle, ⟨hasset, hdest⟩, hsa, hsd⟩, hrest⟩
  · rintro ⟨⟨hle, ⟨hasset, hdest⟩, hsa, hsd⟩, hrest⟩
    exact ⟨⟨hle, ⟨hasset, hsa⟩, hdest, hsd⟩, hrest⟩

theorem encodeItem_ne_nil (o : Output) : o.encodeItem ≠ [] := by
  unfold encodeItem
  simp [pushLp_ne_nil]

theorem short_of_encodeItem {o : Output} (h : o.encodeItem.length ≤ Leb128.MAX) :
    ShortText o.asset ∧ ShortText o.dest := by
  unfold encodeItem at h
  rw [List.length_append, List.length_append] at h
  exact ⟨shortText_of_pushLp (by omega) h, shortText_of_pushLp (by omega) h⟩

end Output

namespace CreditedLeg

variable {suite : Suite}

/-- The texts of a credited leg are valid. -/
def Texts (suite : Suite) (c : CreditedLeg) : Prop :=
  suite.validateText c.rail = true ∧ suite.validateText c.reference = true ∧
    suite.validateText c.finality = true

theorem parseItem_delimits : Delimits (fun c => c.Texts suite ∧ ShortText c.rail ∧
    ShortText c.reference ∧ ShortText c.finality) encodeItem (parseItem suite) := by
  have h : Delimits _ _ (parseItem suite) :=
    (readByte_delimits.both ((readLpText_delimits suite.validateText).both
      ((readLpText_delimits suite.validateText).both
        (readLpText_delimits suite.validateText)))).mapItem
      (g := fun c => (c.kind, c.rail, c.reference, c.finality)) (fun _ => rfl) (fun _ _ => rfl)
  intro bs c n
  rw [h bs c n]
  simp only [encodeItem, Texts, List.append_assoc, List.singleton_append, true_and]
  constructor
  · rintro ⟨⟨⟨hrail, hsr⟩, ⟨href, hsf⟩, hfin, hsn⟩, hrest⟩
    exact ⟨⟨⟨hrail, href, hfin⟩, hsr, hsf, hsn⟩, hrest⟩
  · rintro ⟨⟨⟨hrail, href, hfin⟩, hsr, hsf, hsn⟩, hrest⟩
    exact ⟨⟨⟨hrail, hsr⟩, ⟨href, hsf⟩, hfin, hsn⟩, hrest⟩

theorem encodeItem_ne_nil (c : CreditedLeg) : c.encodeItem ≠ [] := List.cons_ne_nil _ _

theorem short_of_encodeItem {c : CreditedLeg} (h : c.encodeItem.length ≤ Leb128.MAX) :
    ShortText c.rail ∧ ShortText c.reference ∧ ShortText c.finality := by
  unfold encodeItem at h
  rw [List.length_cons, List.length_append, List.length_append] at h
  exact ⟨shortText_of_pushLp (by omega) h, shortText_of_pushLp (by omega) h,
    shortText_of_pushLp (by omega) h⟩

end CreditedLeg

namespace TxRef

variable {suite : Suite}

/-- The leg is one of the two. -/
def Legged (t : TxRef) : Bool := t.leg == 0x01 || t.leg == 0x02

/-- The texts of a reference are valid. -/
def Texts (suite : Suite) (t : TxRef) : Prop :=
  suite.validateText t.reference = true ∧ suite.validateText t.finality = true

theorem parseItem_delimits : Delimits (fun t => t.Legged = true ∧ t.Texts suite ∧
    ShortText t.reference ∧ ShortText t.finality) encodeItem (parseItem suite) := by
  have h : Delimits _ _ (parseItem suite) :=
    ((readByte_delimits.onlyItem (fun leg => leg == 0x01 || leg == 0x02)
      WireError.fieldDomain).both ((readLpText_delimits suite.validateText).both
        (readLpText_delimits suite.validateText))).mapItem
      (g := fun t => (t.leg, t.reference, t.finality)) (fun _ => rfl) (fun _ _ => rfl)
  intro bs t n
  rw [h bs t n]
  simp only [encodeItem, Texts, List.singleton_append, true_and]
  constructor
  · rintro ⟨⟨hleg, ⟨href, hsr⟩, hfin, hsf⟩, hrest⟩
    exact ⟨⟨hleg, ⟨href, hfin⟩, hsr, hsf⟩, hrest⟩
  · rintro ⟨⟨hleg, ⟨href, hfin⟩, hsr, hsf⟩, hrest⟩
    exact ⟨⟨hleg, ⟨href, hsr⟩, hfin, hsf⟩, hrest⟩

theorem encodeItem_ne_nil (t : TxRef) : t.encodeItem ≠ [] := List.cons_ne_nil _ _

theorem short_of_encodeItem {t : TxRef} (h : t.encodeItem.length ≤ Leb128.MAX) :
    ShortText t.reference ∧ ShortText t.finality := by
  unfold encodeItem at h
  rw [List.length_cons, List.length_append] at h
  exact ⟨shortText_of_pushLp (by omega) h, shortText_of_pushLp (by omega) h⟩

end TxRef

/-! ## Nested parts -/

/-- The slots of what parses are as short as the whole is. -/
theorem Tlv.short_of_encode {slots : List (UInt8 × Option Bytes)}
    (h : (Tlv.encode (row slots)).length ≤ Leb128.MAX) : Short slots := by
  intro s hs v hv
  have hmem : (⟨s.1, false, v⟩ : Tlv.Field) ∈ row slots := by
    rw [mem_row, ← hv]
    exact ⟨hs, rfl⟩
  have hsub : ((⟨s.1, false, v⟩ : Tlv.Field).encode).length ≤ (Tlv.encode (row slots)).length :=
    (List.sublist_flatten_of_mem (List.mem_map_of_mem hmem)).length_le
  have hvalue : v.length ≤ ((⟨s.1, false, v⟩ : Tlv.Field).encode).length := by
    unfold Tlv.Field.encode
    simp only [List.length_cons, List.length_append]
    omega
  omega

namespace InstanceLeg

variable {suite : Suite}

def slots (leg : InstanceLeg) : List (UInt8 × Option Bytes) :=
  [(0x00, some (encodeUint leg.amount)),
    (0x01, some (buildCountPrefixed (leg.credited.map CreditedLeg.encodeItem))),
    (0x02, some (buildCountPrefixed (leg.extinguished.map roleItem)))]

theorem slots_typed (leg : InstanceLeg) : Typed (leg.slots.map Prod.fst) := by
  show Typed [0x00, 0x01, 0x02]
  decide

theorem encode_eq_some {leg : InstanceLeg} {v : Bytes} :
    leg.encode = some v ↔ leg.validate = true ∧ v = Tlv.encode (row leg.slots) := by
  unfold encode
  by_cases h : leg.validate = true
  · rw [h]
    show some (Tlv.encode (row leg.slots)) = some v ↔ _
    simp [eq_comm (a := v)]
  · simp [h]

theorem validate_amounts {leg : InstanceLeg} (h : leg.validate = true) :
    leg.amount ≤ VALUE_MAX ∧ ∀ e ∈ leg.extinguished, e.2 ≤ VALUE_MAX := by
  unfold validate at h
  simp only [Bool.and_eq_true, decide_eq_true_eq, List.all_eq_true] at h
  obtain ⟨⟨⟨⟨⟨⟨⟨-, hle⟩, -⟩, hall⟩, -⟩, -⟩, -⟩, -⟩ := h
  exact ⟨hle, hall⟩

/-- The texts of the credited legs are valid. -/
def Texts (suite : Suite) (leg : InstanceLeg) : Prop := ∀ c ∈ leg.credited, c.Texts suite

theorem parse_eq_ok {v : Bytes} {leg : InstanceLeg} :
    parse suite v = .ok leg ↔ leg.Texts suite ∧ Short leg.slots ∧ leg.encode = some v := by
  unfold parse
  simp only [bind_eq_ok, pure_eq_ok, require_eq_ok, required_eq_ok (decodeUintMax_reads _),
    required_eq_ok (parseCountPrefixed_reads CreditedLeg.parseItem_delimits
      fun c _ => c.encodeItem_ne_nil),
    required_eq_ok (parseCountPrefixed_reads parseRoleItem_delimits fun e _ => roleItem_ne_nil e),
    decodeUintU128, encode_eq_some]
  constructor
  · rintro ⟨o, hparse, u, hvalid, amount, ⟨-, hamount⟩, credited, ⟨⟨-, hlegs⟩, hcredited⟩,
      extinguished, ⟨-, hext⟩, -, hval, rfl⟩
    obtain ⟨hshort, hb, -⟩ := (parse_row_iff (slots_typed ⟨amount, credited, extinguished⟩)).1
      ⟨hparse, hvalid, by
        simp only [slots, List.forall_mem_cons]
        exact ⟨hamount, hcredited, hext, List.forall_mem_nil _⟩⟩
    exact ⟨fun c hc => (hlegs c hc).1, hshort, hval, hb⟩
  · rintro ⟨htexts, hshort, hval, hb⟩
    obtain ⟨o, hparse, hvalid, hget⟩ := parse_of_row (slots_typed leg) hshort hb
    simp only [slots, short_cons, short_some, List.forall_mem_cons] at hshort hget
    obtain ⟨-, hsCredited, hsExt, -⟩ := hshort
    obtain ⟨hamount, hcredited, hext, -⟩ := hget
    obtain ⟨hle, hall⟩ := validate_amounts hval
    obtain ⟨hcount, hitems⟩ := length_le_counted CreditedLeg.encodeItem
      fun c (_ : c ∈ leg.credited) => c.encodeItem_ne_nil
    obtain ⟨hroles, -⟩ := length_le_counted roleItem
      fun e (_ : e ∈ leg.extinguished) => roleItem_ne_nil e
    refine ⟨o, hparse, _, hvalid, _, ⟨hle, hamount⟩, _, ⟨⟨hcount.trans hsCredited, fun c hc => ?_⟩,
      hcredited⟩, _, ⟨⟨hroles.trans hsExt, hall⟩, hext⟩, ⟨⟩, hval, rfl⟩
    exact ⟨htexts c hc, CreditedLeg.short_of_encodeItem ((hitems c hc).trans hsCredited)⟩

end InstanceLeg

namespace Conversion

variable {suite : Suite}

def slots (c : Conversion) : List (UInt8 × Option Bytes) :=
  [(0x00, some (Bytes.ofString c.rate)), (0x01, some (encodeUint c.rateTime)),
    (0x02, some (encodeUint c.rateExp)), (0x03, some (encodeUint c.rateGrace))]

theorem slots_typed (c : Conversion) : Typed (c.slots.map Prod.fst) := by
  show Typed [0x00, 0x01, 0x02, 0x03]
  decide

theorem encode_eq_some {c : Conversion} {v : Bytes} : c.encode suite = some v ↔
    validateRate suite c.rate = true ∧ v = Tlv.encode (row c.slots) := by
  unfold encode
  by_cases h : validateRate suite c.rate = true
  · rw [h]
    show some (Tlv.encode (row c.slots)) = some v ↔ _
    simp [eq_comm (a := v)]
  · simp [h]

/-- The times are what their type holds. -/
def Ranged (c : Conversion) : Prop :=
  c.rateTime ≤ 2 ^ 64 - 1 ∧ c.rateExp ≤ 2 ^ 64 - 1 ∧ c.rateGrace ≤ 2 ^ 64 - 1

theorem parse_eq_ok {v : Bytes} {c : Conversion} :
    parse suite v = .ok c ↔ c.Ranged ∧ Short c.slots ∧ c.encode suite = some v := by
  unfold parse
  simp only [bind_eq_ok, pure_eq_ok, require_eq_ok, required_eq_ok decodeUtf8_reads,
    required_eq_ok (decodeUintMax_reads _), decodeUintU64, encode_eq_some]
  constructor
  · rintro ⟨o, hparse, u, hvalid, rate, ⟨-, hrate⟩, -, hval, time, ⟨htime, hget⟩, exp,
      ⟨hexp, hgetExp⟩, grace, ⟨hgrace, hgetGrace⟩, rfl⟩
    obtain ⟨hshort, hb, -⟩ := (parse_row_iff (slots_typed ⟨rate, time, exp, grace⟩)).1
      ⟨hparse, hvalid, by
        simp only [slots, List.forall_mem_cons]
        exact ⟨hrate, hget, hgetExp, hgetGrace, List.forall_mem_nil _⟩⟩
    exact ⟨⟨htime, hexp, hgrace⟩, hshort, hval, hb⟩
  · rintro ⟨⟨htime, hexp, hgrace⟩, hshort, hval, hb⟩
    obtain ⟨o, hparse, hvalid, hget⟩ := parse_of_row (slots_typed c) hshort hb
    simp only [slots, List.forall_mem_cons] at hget
    obtain ⟨hrate, hgetTime, hgetExp, hgetGrace, -⟩ := hget
    exact ⟨o, hparse, _, hvalid, _, ⟨⟨⟩, hrate⟩, ⟨⟩, hval, _, ⟨htime, hgetTime⟩, _,
      ⟨hexp, hgetExp⟩, _, ⟨hgrace, hgetGrace⟩, rfl⟩

end Conversion

/-! ## Messages -/

namespace SettlementPropose

variable {suite : Suite}

def slots (suite : Suite) (p : SettlementPropose) : List (UInt8 × Option Bytes) :=
  [(0x00, some p.channelId.toList), (0x01, some p.ckptRef.toList),
    (0x02, some (buildCountPrefixed (p.outputs.map Output.encodeItem))),
    (0x03, p.instanceLeg.map fun leg => leg.encode.getD []),
    (0x04, p.conversion.map fun c => (c.encode suite).getD []),
    (0x70, p.sigPayer.map List.Vector.toList), (0x71, p.sigMerchant.map List.Vector.toList)]

theorem slots_typed (suite : Suite) (p : SettlementPropose) :
    Typed ((p.slots suite).map Prod.fst) := by
  show Typed [0x00, 0x01, 0x02, 0x03, 0x04, 0x70, 0x71]
  decide

/-- What the signer checks. -/
def Valid (suite : Suite) (p : SettlementPropose) : Prop :=
  Output.checkOutputs p.outputs = true ∧ (∀ leg ∈ p.instanceLeg, leg.encode.isSome = true) ∧
    ∀ c ∈ p.conversion, (c.encode suite).isSome = true

theorem mapM_optional {α β : Type} {f : α → Option β} {d : β} {value : Option α} {r : Option β} :
    value.mapM f = some r ↔
      (∀ a ∈ value, (f a).isSome = true) ∧ r = value.map fun a => (f a).getD d := by
  rcases value with _ | a
  · simp [eq_comm (a := r)]
  · rcases hf : f a with _ | b <;> simp [hf, eq_comm (a := r)]

theorem encode_eq_some {p : SettlementPropose} {b : Bytes} : p.encode suite = some b ↔
    p.Valid suite ∧ b = Tlv.encode (row (p.slots suite)) := by
  unfold encode contentFields Valid
  rw [Option.map_eq_some_iff]
  by_cases hout : Output.checkOutputs p.outputs = true
  · simp only [hout, Bool.not_true, Bool.false_eq_true, if_false, true_and, Option.bind_eq_bind,
      Option.bind_eq_some_iff, mapM_optional (d := []), Option.pure_def, Option.some.injEq]
    constructor
    · rintro ⟨_, ⟨_, ⟨hleg, rfl⟩, _, ⟨hconv, rfl⟩, rfl⟩, rfl⟩
      refine ⟨⟨hleg, hconv⟩, ?_⟩
      simp only [slots, row_cons, optional_some, optional_array]
      simp [row, Field.array_eq]
    · rintro ⟨⟨hleg, hconv⟩, rfl⟩
      refine ⟨_, ⟨_, ⟨hleg, rfl⟩, _, ⟨hconv, rfl⟩, rfl⟩, ?_⟩
      simp only [slots, row_cons, optional_some, optional_array]
      simp [row, Field.array_eq]
  · simp [hout]

/-- The texts of the outputs and of the credited legs are valid. -/
def Texts (suite : Suite) (p : SettlementPropose) : Prop :=
  (∀ o ∈ p.outputs, o.Texts suite) ∧ ∀ leg ∈ p.instanceLeg, leg.Texts suite

/-- The times of a conversion are what their type holds. -/
def Ranged (p : SettlementPropose) : Prop := ∀ c ∈ p.conversion, c.Ranged

theorem leg_reads : Reads
    (fun leg : InstanceLeg => leg.Texts suite ∧ Short leg.slots ∧ leg.encode.isSome = true)
    (fun leg => leg.encode.getD []) (InstanceLeg.parse suite) := by
  intro value leg
  rw [InstanceLeg.parse_eq_ok]
  rcases henc : leg.encode with _ | v
  · simp [henc]
  · simp [henc, and_assoc, eq_comm (a := value)]

theorem conversion_reads : Reads
    (fun c : Conversion => c.Ranged ∧ Short c.slots ∧ (c.encode suite).isSome = true)
    (fun c => (c.encode suite).getD []) (Conversion.parse suite) := by
  intro value c
  rw [Conversion.parse_eq_ok]
  rcases henc : c.encode suite with _ | v
  · simp [henc]
  · simp [henc, and_assoc, eq_comm (a := value)]

theorem amount_le {outputs : List Output} (h : Output.checkOutputs outputs = true) {o : Output}
    (ho : o ∈ outputs) : o.amount ≤ VALUE_MAX := by
  unfold Output.checkOutputs at h
  simp only [Bool.and_eq_true, List.all_eq_true, decide_eq_true_eq] at h
  exact (h.1 o ho).2

theorem parse_eq_ok {b : Bytes} {p : SettlementPropose} : parse suite b = .ok p ↔
    p.Ranged ∧ p.Texts suite ∧ Short (p.slots suite) ∧ p.encode suite = some b := by
  unfold parse
  simp only [bind_eq_ok, pure_eq_ok, require_eq_ok, required_eq_ok (fixed_reads _),
    required_eq_ok (parseCountPrefixed_reads Output.parseItem_delimits
      fun o _ => o.encodeItem_ne_nil), optional_eq_ok leg_reads, optional_eq_ok conversion_reads,
    optional_eq_ok (fixed_reads _), encode_eq_some]
  constructor
  · rintro ⟨o, hparse, u, hvalid, outputs, ⟨⟨-, houts⟩, houtputs⟩, -, hcheck, cid, ⟨-, hcid⟩, ref,
      ⟨-, href⟩, leg, ⟨hlegs, hleg⟩, conv, ⟨hconvs, hconv⟩, payer, ⟨-, hpayer⟩, merchant,
      ⟨-, hmerchant⟩, rfl⟩
    obtain ⟨hshort, hb, -⟩ := (parse_row_iff (slots_typed suite
      ⟨cid, ref, outputs, leg, conv, payer, merchant⟩)).1 ⟨hparse, hvalid, by
        simp only [slots, List.forall_mem_cons]
        exact ⟨hcid, href, houtputs, hleg, hconv, hpayer, hmerchant, List.forall_mem_nil _⟩⟩
    exact ⟨fun c hc => (hconvs c hc).1, ⟨fun o ho => (houts o ho).2.1,
      fun leg hleg => (hlegs leg hleg).1⟩, hshort,
      ⟨hcheck, fun leg hleg => (hlegs leg hleg).2.2, fun c hc => (hconvs c hc).2.2⟩, hb⟩
  · rintro ⟨hranged, ⟨houts, hlegs⟩, hshort, ⟨hcheck, hsome, hconvs⟩, hb⟩
    obtain ⟨o, hparse, hvalid, hget⟩ := parse_of_row (slots_typed suite p) hshort hb
    simp only [slots, short_cons, short_some, List.forall_mem_cons, Option.mem_map,
      forall_exists_index, and_imp, forall_apply_eq_imp_iff₂] at hshort hget
    obtain ⟨-, -, hsOut, hsLeg, hsConv, -⟩ := hshort
    obtain ⟨hcid, href, houtputs, hleg, hconv, hpayer, hmerchant, -⟩ := hget
    obtain ⟨hcount, hitems⟩ := length_le_counted Output.encodeItem
      fun o (_ : o ∈ p.outputs) => o.encodeItem_ne_nil
    -- a nested part is short because the field that holds it is
    have hlegShort : ∀ leg ∈ p.instanceLeg, Short leg.slots := fun leg hl => by
      obtain ⟨v, hv⟩ := Option.isSome_iff_exists.1 (hsome leg hl)
      have hle := hsLeg leg hl
      rw [hv, Option.getD_some, (InstanceLeg.encode_eq_some.1 hv).2] at hle
      exact short_of_encode hle
    have hconvShort : ∀ c ∈ p.conversion, Short c.slots := fun c hc => by
      obtain ⟨v, hv⟩ := Option.isSome_iff_exists.1 (hconvs c hc)
      have hle := hsConv c hc
      rw [hv, Option.getD_some, (Conversion.encode_eq_some.1 hv).2] at hle
      exact short_of_encode hle
    refine ⟨o, hparse, _, hvalid, _, ⟨⟨hcount.trans hsOut, fun o ho => ?_⟩, houtputs⟩, ⟨⟩, hcheck,
      _, ⟨⟨⟩, hcid⟩, _, ⟨⟨⟩, href⟩, _, ⟨fun leg hl => ?_, hleg⟩, _, ⟨fun c hc => ?_, hconv⟩, _,
      ⟨fun _ _ => ⟨⟩, hpayer⟩, _, ⟨fun _ _ => ⟨⟩, hmerchant⟩, rfl⟩
    · exact ⟨amount_le hcheck ho, houts o ho,
        Output.short_of_encodeItem ((hitems o ho).trans hsOut)⟩
    · exact ⟨hlegs leg hl, hlegShort leg hl, hsome leg hl⟩
    · exact ⟨hranged c hc, hconvShort c hc, hconvs c hc⟩

end SettlementPropose

/-- Exactly one of two signatures is there. -/
def OneSigned (payer merchant : Option (ByteArr 64)) : Prop :=
  (payer.isSome == merchant.isSome) = false

namespace SettlementProof

variable {suite : Suite}

def slots (proof : SettlementProof) : List (UInt8 × Option Bytes) :=
  [(0x00, some proof.channelId.toList), (0x01, some proof.proposalHash.toList),
    (0x02, some (buildCountPrefixed (proof.txRefs.map TxRef.encodeItem))),
    (0x70, proof.sigPayer.map List.Vector.toList), (0x71, proof.sigMerchant.map List.Vector.toList)]

theorem slots_typed (proof : SettlementProof) : Typed (proof.slots.map Prod.fst) := by
  show Typed [0x00, 0x01, 0x02, 0x70, 0x71]
  decide

/-- What the signer checks. -/
def Valid (proof : SettlementProof) : Prop :=
  OneSigned proof.sigPayer proof.sigMerchant ∧ (∀ t ∈ proof.txRefs, t.Legged = true) ∧
    proof.txRefs.Pairwise fun a b => a.leg < b.leg ∨ a.leg = b.leg ∧ a.reference < b.reference

theorem encode_eq_some {proof : SettlementProof} {b : Bytes} :
    proof.encode = some b ↔ proof.Valid ∧ b = Tlv.encode (row proof.slots) := by
  unfold encode contentFields Valid OneSigned
  rcases hsig : proof.sigPayer.isSome == proof.sigMerchant.isSome with _ | _
  · simp only [Bool.false_eq_true, if_false, true_and, Option.map_if, Bool.and_eq_true,
      List.all_eq_true, decide_eq_true_eq, Option.ite_none_right_eq_some, Option.some.injEq]
    have hrow : Tlv.encode ([.array 0x00 proof.channelId, .array 0x01 proof.proposalHash,
        ⟨0x02, false, buildCountPrefixed (proof.txRefs.map TxRef.encodeItem)⟩] ++
        Tlv.Field.optional (.array 0x70) proof.sigPayer ++
        Tlv.Field.optional (.array 0x71) proof.sigMerchant) = Tlv.encode (row proof.slots) := by
      simp only [slots, row_cons, optional_some, optional_array]
      simp [row, Field.array_eq]
    constructor
    · rintro ⟨hchecks, rfl⟩
      exact ⟨hchecks, hrow⟩
    · rintro ⟨hchecks, rfl⟩
      exact ⟨hchecks, hrow⟩
  · simp

/-- The texts are valid. -/
def Texts (suite : Suite) (proof : SettlementProof) : Prop := ∀ t ∈ proof.txRefs, t.Texts suite

theorem parse_eq_ok {b : Bytes} {proof : SettlementProof} : parse suite b = .ok proof ↔
    proof.Texts suite ∧ Short proof.slots ∧ proof.encode = some b := by
  unfold parse
  simp only [bind_eq_ok, pure_eq_ok, require_eq_ok, required_eq_ok (fixed_reads _),
    required_eq_ok (parseCountPrefixed_reads TxRef.parseItem_delimits
      fun t _ => t.encodeItem_ne_nil), optional_eq_ok (fixed_reads _), encode_eq_some,
    decide_eq_true_eq]
  constructor
  · rintro ⟨o, hparse, u, hvalid, -, hone, txRefs, ⟨⟨-, hrefs⟩, htxRefs⟩, -, horder, cid, ⟨-, hcid⟩,
      hash, ⟨-, hhash⟩, payer, ⟨-, hpayer⟩, merchant, ⟨-, hmerchant⟩, rfl⟩
    obtain ⟨hshort, hb, -⟩ := (parse_row_iff (slots_typed ⟨cid, hash, txRefs, payer, merchant⟩)).1
      ⟨hparse, hvalid, by
        simp only [slots, List.forall_mem_cons]
        exact ⟨hcid, hhash, htxRefs, hpayer, hmerchant, List.forall_mem_nil _⟩⟩
    have hsigned : OneSigned payer merchant := by
      rw [hpayer, hmerchant, Option.isSome_map, Option.isSome_map] at hone
      simpa [OneSigned] using hone
    exact ⟨fun t ht => (hrefs t ht).2.1, hshort, ⟨hsigned, fun t ht => (hrefs t ht).1, horder⟩, hb⟩
  · rintro ⟨htexts, hshort, ⟨hsigned, hlegs, horder⟩, hb⟩
    obtain ⟨o, hparse, hvalid, hget⟩ := parse_of_row (slots_typed proof) hshort hb
    simp only [slots, short_cons, short_some, List.forall_mem_cons] at hshort hget
    obtain ⟨-, -, hsRefs, -⟩ := hshort
    obtain ⟨hcid, hhash, htxRefs, hpayer, hmerchant, -⟩ := hget
    obtain ⟨hcount, hitems⟩ := length_le_counted TxRef.encodeItem
      fun t (_ : t ∈ proof.txRefs) => t.encodeItem_ne_nil
    refine ⟨o, hparse, _, hvalid, ⟨⟩, ?_, _, ⟨⟨hcount.trans hsRefs, fun t ht => ?_⟩, htxRefs⟩, ⟨⟩,
      horder, _, ⟨⟨⟩, hcid⟩, _, ⟨⟨⟩, hhash⟩, _, ⟨fun _ _ => ⟨⟩, hpayer⟩, _,
      ⟨fun _ _ => ⟨⟩, hmerchant⟩, rfl⟩
    · rw [hpayer, hmerchant, Option.isSome_map, Option.isSome_map]
      simpa [OneSigned] using hsigned
    · exact ⟨hlegs t ht, htexts t ht, TxRef.short_of_encodeItem ((hitems t ht).trans hsRefs)⟩

end SettlementProof

namespace SettlementConfirmed

def slots (c : SettlementConfirmed) : List (UInt8 × Option Bytes) :=
  [(0x00, some c.channelId.toList), (0x01, some c.proposalHash.toList),
    (0x70, c.sigPayer.map List.Vector.toList), (0x71, c.sigMerchant.map List.Vector.toList)]

theorem slots_typed (c : SettlementConfirmed) : Typed (c.slots.map Prod.fst) := by
  show Typed [0x00, 0x01, 0x70, 0x71]
  decide

theorem encode_eq_some {c : SettlementConfirmed} {b : Bytes} :
    c.encode = some b ↔ OneSigned c.sigPayer c.sigMerchant ∧ b = Tlv.encode (row c.slots) := by
  unfold encode contentFields OneSigned slots
  simp only [row_cons, optional_some, optional_array]
  rcases hsig : c.sigPayer.isSome == c.sigMerchant.isSome with _ | _
  · simp [row, Field.array_eq, eq_comm (a := b)]
  · simp

theorem parse_eq_ok {b : Bytes} {c : SettlementConfirmed} :
    parse b = .ok c ↔ c.encode = some b := by
  unfold parse
  simp only [bind_eq_ok, pure_eq_ok, require_eq_ok, required_eq_ok (fixed_reads _),
    optional_eq_ok (fixed_reads _), encode_eq_some]
  constructor
  · rintro ⟨o, hparse, u, hvalid, -, hone, cid, ⟨-, hcid⟩, hash, ⟨-, hhash⟩, payer, ⟨-, hpayer⟩,
      merchant, ⟨-, hmerchant⟩, rfl⟩
    obtain ⟨-, hb, -⟩ := (parse_row_iff (slots_typed ⟨cid, hash, payer, merchant⟩)).1
      ⟨hparse, hvalid, by
        simp only [slots, List.forall_mem_cons]
        exact ⟨hcid, hhash, hpayer, hmerchant, List.forall_mem_nil _⟩⟩
    rw [hpayer, hmerchant, Option.isSome_map, Option.isSome_map] at hone
    exact ⟨by simpa [OneSigned] using hone, hb⟩
  · rintro ⟨hsigned, hb⟩
    have hshort : Short c.slots := by
      unfold slots
      simp only [short_cons, short_some, List.Vector.toList_length]
      exact ⟨by decide, by decide, short_array _ (by decide), short_array _ (by decide),
        List.forall_mem_nil _⟩
    obtain ⟨o, hparse, hvalid, hget⟩ := parse_of_row (slots_typed c) hshort hb
    simp only [slots, List.forall_mem_cons] at hget
    obtain ⟨hcid, hhash, hpayer, hmerchant, -⟩ := hget
    refine ⟨o, hparse, _, hvalid, ⟨⟩, ?_, _, ⟨⟨⟩, hcid⟩, _, ⟨⟨⟩, hhash⟩, _,
      ⟨fun _ _ => ⟨⟩, hpayer⟩, _, ⟨fun _ _ => ⟨⟩, hmerchant⟩, rfl⟩
    rw [hpayer, hmerchant, Option.isSome_map, Option.isSome_map]
    simpa [OneSigned] using hsigned

end SettlementConfirmed

namespace PrepayDrawCompleted

variable {suite : Suite}

def slots (m : PrepayDrawCompleted) : List (UInt8 × Option Bytes) :=
  [(0x00, some m.channelId.toList), (0x01, some m.ckptRef.toList),
    (0x02, some (encodeUint m.amount)),
    (0x03, some (buildCountPrefixed (m.extinguished.map roleItem))),
    (0x04, some m.claimRecord.toList), (0x05, some (Bytes.ofString m.rail)),
    (0x06, some (Bytes.ofString m.txRef)), (0x07, some (Bytes.ofString m.finality)),
    (0x70, m.sigMerchant.map List.Vector.toList)]

theorem slots_typed (m : PrepayDrawCompleted) : Typed (m.slots.map Prod.fst) := by
  show Typed [0x00, 0x01, 0x02, 0x03, 0x04, 0x05, 0x06, 0x07, 0x70]
  decide

theorem encode_eq_some {m : PrepayDrawCompleted} {b : Bytes} : m.encode suite = some b ↔
    m.validate suite = true ∧ m.sigMerchant.isSome = true ∧ b = Tlv.encode (row m.slots) := by
  unfold encode contentFields slots
  simp only [row_cons, optional_some, Field.text_eq, Field.uint_eq, Field.array_eq]
  by_cases h : m.validate suite = true
  · rcases m.sigMerchant with _ | sig
    · simp
    · simp [h, row, Tlv.Field.optional, eq_comm (a := b)]
  · simp [h]

theorem parse_eq_ok {b : Bytes} {m : PrepayDrawCompleted} : parse suite b = .ok m ↔
    m.validate suite = true ∧ Short m.slots ∧ b = Tlv.encode (row m.slots) := by
  unfold parse
  simp only [bind_eq_ok, pure_eq_ok, require_eq_ok, required_eq_ok (fixed_reads _),
    required_eq_ok (parseCountPrefixed_reads parseRoleItem_delimits fun e _ => roleItem_ne_nil e),
    required_eq_ok decodeUintBiguint_reads, required_eq_ok decodeUtf8_reads,
    optional_eq_ok (fixed_reads _)]
  constructor
  · rintro ⟨o, hparse, u, hvalid, amount, ⟨-, hamount⟩, ext, ⟨-, hext⟩, cid, ⟨-, hcid⟩, ref,
      ⟨-, href⟩, record, ⟨-, hrecord⟩, rail, ⟨-, hrail⟩, tx, ⟨-, htx⟩, fin, ⟨-, hfin⟩, sig,
      ⟨-, hsig⟩, -, hval, rfl⟩
    obtain ⟨hshort, hb, -⟩ := (parse_row_iff (slots_typed
      ⟨cid, ref, amount, ext, record, rail, tx, fin, sig⟩)).1 ⟨hparse, hvalid, by
        simp only [slots, List.forall_mem_cons]
        exact ⟨hcid, href, hamount, hext, hrecord, hrail, htx, hfin, hsig, List.forall_mem_nil _⟩⟩
    exact ⟨hval, hshort, hb⟩
  · rintro ⟨hval, hshort, hb⟩
    obtain ⟨o, hparse, hvalid, hget⟩ := parse_of_row (slots_typed m) hshort hb
    simp only [slots, short_cons, short_some, List.forall_mem_cons] at hshort hget
    obtain ⟨-, -, -, hsExt, -⟩ := hshort
    obtain ⟨hcid, href, hamount, hext, hrecord, hrail, htx, hfin, hsig, -⟩ := hget
    have hall : ∀ e ∈ m.extinguished, e.2 ≤ VALUE_MAX := by
      have hval' := hval
      unfold validate validateAmounts at hval'
      simp only [Bool.and_eq_true, List.all_eq_true, decide_eq_true_eq] at hval'
      exact hval'.1.1.1.1.1.1.2
    obtain ⟨hroles, -⟩ := length_le_counted roleItem
      fun e (_ : e ∈ m.extinguished) => roleItem_ne_nil e
    exact ⟨o, hparse, _, hvalid, _, ⟨⟨⟩, hamount⟩, _, ⟨⟨hroles.trans hsExt, hall⟩, hext⟩, _,
      ⟨⟨⟩, hcid⟩, _, ⟨⟨⟩, href⟩, _, ⟨⟨⟩, hrecord⟩, _, ⟨⟨⟩, hrail⟩, _, ⟨⟨⟩, htx⟩, _, ⟨⟨⟩, hfin⟩, _,
      ⟨fun _ _ => ⟨⟩, hsig⟩, ⟨⟩, hval, rfl⟩

end PrepayDrawCompleted

/-! ## What is received and what is emitted -/

/-- Every message encodes to the bytes it was parsed from, but for a notice of a draw whose slot
is empty: that is parsed, and does not encode. -/
theorem settlement_canonical_iff (suite : Suite) (b : Bytes) :
    (∀ p, SettlementPropose.parse suite b = .ok p → p.encode suite = some b) ∧
    (∀ leg, InstanceLeg.parse suite b = .ok leg → leg.encode = some b) ∧
    (∀ c, Conversion.parse suite b = .ok c → c.encode suite = some b) ∧
    (∀ proof, SettlementProof.parse suite b = .ok proof → proof.encode = some b) ∧
    (∀ c, SettlementConfirmed.parse b = .ok c → c.encode = some b) ∧
    (∀ m, PrepayDrawCompleted.parse suite b = .ok m →
      (m.encode suite = some b ↔
        ∃ o, Tlv.Object.parse b = .ok o ∧ (o.get 0x70).isSome = true)) := by
  refine ⟨fun p h => (SettlementPropose.parse_eq_ok.1 h).2.2.2,
    fun leg h => (InstanceLeg.parse_eq_ok.1 h).2.2, fun c h => (Conversion.parse_eq_ok.1 h).2.2,
    fun proof h => (SettlementProof.parse_eq_ok.1 h).2.2,
    fun c h => SettlementConfirmed.parse_eq_ok.1 h, fun m h => ?_⟩
  obtain ⟨hval, hshort, hb⟩ := PrepayDrawCompleted.parse_eq_ok.1 h
  obtain ⟨o, hparse, -, hget⟩ := parse_of_row m.slots_typed hshort hb
  have hslot : o.get 0x70 = m.sigMerchant.map List.Vector.toList :=
    hget (0x70, m.sigMerchant.map List.Vector.toList) (by simp [PrepayDrawCompleted.slots])
  have hsome : (o.get 0x70).isSome = m.sigMerchant.isSome := by rw [hslot, Option.isSome_map]
  rw [PrepayDrawCompleted.encode_eq_some]
  constructor
  · rintro ⟨-, hsig, -⟩
    exact ⟨o, hparse, hsome.trans hsig⟩
  · rintro ⟨o', hparse', hsig⟩
    cases hparse.symm.trans hparse'
    exact ⟨hval, hsome.symm.trans hsig, hb⟩

namespace Sample

/-- The notice of a draw of 500, its slot empty. -/
def drawn : PrepayDrawCompleted where
  channelId := cid 1
  ckptRef := .replicate 32 1
  amount := 500
  extinguished := [(ROLE_INTERACTION_LAYER, 2500000), (ROLE_WALLET, 2500000)]
  claimRecord := .replicate 32 2
  rail := "eip155:8453"
  txRef := "0x5c504ed432cb51138bcf09aa5e8a410dd4a1e204ef84bfed1be16dfba1b22060"
  finality := "finalized"
  sigMerchant := none

end Sample

/-- A confirmation and a signed notice encode to what they were parsed from. -/
theorem settlement_canonical_signed : ∃ m : PrepayDrawCompleted, m.sigMerchant.isSome = true ∧
    ∃ b, PrepayDrawCompleted.parse keyedSuite b = .ok m ∧ m.encode keyedSuite = some b := by
  let m := Sample.drawn.signMerchant keyedSuite Sample.merchantSk
  have hparse : PrepayDrawCompleted.parse keyedSuite (Tlv.encode (row m.slots)) = .ok m := by
    decide +kernel
  refine ⟨m, rfl, _, hparse, ((settlement_canonical_iff keyedSuite _).2.2.2.2.2 m hparse).2 ?_⟩
  exact ⟨⟨row m.slots⟩, by decide +kernel, by decide +kernel⟩

/-- The unsigned notice is parsed and does not encode. -/
theorem unsigned_notice_not_encoded :
    PrepayDrawCompleted.parse keyedSuite (Tlv.encode Sample.drawn.contentFields) =
      .ok Sample.drawn ∧ Sample.drawn.encode keyedSuite = none := by
  decide +kernel

/-- What the parser of a proposal asks for and its signer does not. -/
structure SettlementPropose.Readable (suite : Suite) (p : SettlementPropose) : Prop where
  outputs : ∀ o ∈ p.outputs, suite.validateText o.asset = true ∧ suite.validateText o.dest = true
  credited : ∀ leg ∈ p.instanceLeg, ∀ c ∈ leg.credited, suite.validateText c.rail = true ∧
    suite.validateText c.reference = true ∧ suite.validateText c.finality = true
  outputsLength : (buildCountPrefixed (p.outputs.map Output.encodeItem)).length ≤ Leb128.MAX
  legLength : ∀ leg ∈ p.instanceLeg, ∀ v ∈ leg.encode, v.length ≤ Leb128.MAX
  conversionLength : ∀ c ∈ p.conversion, ∀ v ∈ c.encode suite, v.length ≤ Leb128.MAX

/-- What the parser of a proof asks for and its signer does not. -/
structure SettlementProof.Readable (suite : Suite) (proof : SettlementProof) : Prop where
  txRefs : ∀ t ∈ proof.txRefs,
    suite.validateText t.reference = true ∧ suite.validateText t.finality = true
  txRefsLength : (buildCountPrefixed (proof.txRefs.map TxRef.encodeItem)).length ≤ Leb128.MAX

/-- A proposal or a proof that encodes is read back where its texts are valid and the lengths can
be written. -/
theorem settlement_symmetric_iff (suite : Suite) (b : Bytes) :
    (∀ p : SettlementPropose, p.Ranged → p.encode suite = some b →
      (SettlementPropose.parse suite b = .ok p ↔ p.Readable suite)) ∧
    (∀ proof : SettlementProof, proof.encode = some b →
      (SettlementProof.parse suite b = .ok proof ↔ proof.Readable suite)) := by
  constructor
  · intro p hranged henc
    rw [SettlementPropose.parse_eq_ok]
    obtain ⟨⟨-, hlegs, hconvs⟩, -⟩ := SettlementPropose.encode_eq_some.1 henc
    unfold SettlementPropose.slots
    simp only [short_cons, short_some, List.Vector.toList_length, Option.mem_map,
      forall_exists_index, and_imp, forall_apply_eq_imp_iff₂]
    constructor
    · rintro ⟨-, ⟨houts, hcredited⟩, ⟨-, -, hlen, hleg, hconv, -⟩, -⟩
      refine ⟨houts, hcredited, hlen, fun leg hl v hv => ?_, fun c hc v hv => ?_⟩
      · simpa [Option.mem_def.1 hv] using hleg leg hl
      · simpa [Option.mem_def.1 hv] using hconv c hc
    · rintro ⟨houts, hcredited, hlen, hleg, hconv⟩
      refine ⟨hranged, ⟨houts, hcredited⟩, ⟨by decide, by decide, hlen, fun leg hl => ?_,
        fun c hc => ?_, fun _ _ => by decide, fun _ _ => by decide, List.forall_mem_nil _⟩, henc⟩
      · obtain ⟨v, hv⟩ := Option.isSome_iff_exists.1 (hlegs leg hl)
        simpa [hv] using hleg leg hl v hv
      · obtain ⟨v, hv⟩ := Option.isSome_iff_exists.1 (hconvs c hc)
        simpa [hv] using hconv c hc v hv
  · intro proof henc
    rw [SettlementProof.parse_eq_ok]
    unfold SettlementProof.slots
    simp only [short_cons, short_some, List.Vector.toList_length]
    constructor
    · rintro ⟨htexts, ⟨-, -, hlen, -⟩, -⟩
      exact ⟨htexts, hlen⟩
    · rintro ⟨htexts, hlen⟩
      exact ⟨htexts, ⟨by decide, by decide, hlen, short_array _ (by decide),
        short_array _ (by decide), List.forall_mem_nil _⟩, henc⟩

namespace Sample

/-- The suite whose texts are those of ASCII without control characters. -/
def asciiSuite : Suite :=
  { keyedSuite with
    validateText := fun s => s.toList.all fun c => decide (0x20 ≤ c.toNat ∧ c.toNat < 0x80) }

/-- A proposal that pays 100 of an asset to a destination. -/
def paying (dest : String) : SettlementPropose where
  channelId := cid 1
  ckptRef := .replicate 32 1
  outputs :=
    [{ amount := 100
       asset := "eip155:8453/erc20:0x833589fCD6eDb6E08f4c7C32D4f71b54bdA02913"
       dest }]
  instanceLeg := none
  conversion := none
  sigPayer := some (.replicate 64 3)
  sigMerchant := none

end Sample

/-- A proposal of a payment to an address is read back. -/
theorem settlement_symmetric_paying : ∃ b,
    (Sample.paying "eip155:8453:0x0000000000000000000000000000000000000001").encode
      Sample.asciiSuite = some b ∧
    SettlementPropose.parse Sample.asciiSuite b =
      .ok (Sample.paying "eip155:8453:0x0000000000000000000000000000000000000001") := by
  have henc : ((Sample.paying "eip155:8453:0x0000000000000000000000000000000000000001").encode
      Sample.asciiSuite).isSome = true := by decide +kernel
  obtain ⟨b, hb⟩ := Option.isSome_iff_exists.1 henc
  have hranged :
      (Sample.paying "eip155:8453:0x0000000000000000000000000000000000000001").Ranged :=
    fun c hc => absurd hc (Option.not_mem_none c)
  refine ⟨b, hb, ((settlement_symmetric_iff Sample.asciiSuite b).1 _ hranged hb).2 ?_⟩
  exact ⟨by decide +kernel, fun leg hleg => absurd hleg (Option.not_mem_none leg),
    by decide +kernel, fun leg hleg => absurd hleg (Option.not_mem_none leg),
    fun c hc => absurd hc (Option.not_mem_none c)⟩

/-- A destination with an escape character is emitted and refused. -/
theorem paying_escape_refused : ∃ b, (Sample.paying "eip155:8453:0x01\x1b").encode
      Sample.asciiSuite = some b ∧
    SettlementPropose.parse Sample.asciiSuite b = .error .textInvalid := by
  have hrun : (((Sample.paying "eip155:8453:0x01\x1b").encode Sample.asciiSuite).any fun b =>
      decide (SettlementPropose.parse Sample.asciiSuite b = .error .textInvalid)) = true := by
    decide +kernel
  obtain ⟨b, hb, hrefused⟩ := (Option.any_eq_true _ _).1 hrun
  exact ⟨b, hb, of_decide_eq_true hrefused⟩

end Paytp
