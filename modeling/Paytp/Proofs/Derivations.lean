import Paytp.Derivation
import Paytp.Lib.PrefixFree
import Paytp.Proofs.Establishment

/-!
# A name stands for one position

The words of the wire values are prefix-free, so the bytes of the address inputs tell the inputs
up to the order of the vector. A label ends at its delimiter, and the two names that share a label
hash bodies of different widths. What the program hashes is what the host hashes, byte for byte.
-/

namespace Paytp

/-- The strings that memory holds are shorter than this, and groups of seven bits are enough. -/
def BYTES_MAX : ℕ := 2 ^ 64

namespace Leb128

theorem encodeGroups_prefixFree : ∀ fuel : ℕ, PrefixFree (· < 128 ^ fuel) (encodeGroups fuel)
  | 0 => by
    intro v v' rest rest' hv hv' h
    rw [pow_zero, Nat.lt_one_iff] at hv hv'
    exact ⟨hv.trans hv'.symm, h⟩
  | fuel + 1 => by
    intro v v' rest rest' hv hv' h
    have hmore : ∀ {w w' : ℕ} {bs bs' : Bytes}, UInt8.ofNat (w % 128) :: bs ≠
        UInt8.ofNat (w' % 128 + 128) :: bs' := by
      intro w w' bs bs' heq
      have hbyte := congrArg UInt8.toNat (List.cons.inj heq).1
      rw [UInt8.toNat_ofNat', UInt8.toNat_ofNat'] at hbyte
      omega
    have hlow : ∀ {w w' : ℕ}, w < 256 → w' < 256 → UInt8.ofNat w = UInt8.ofNat w' → w = w' := by
      intro w w' hw hw' heq
      have hbyte := congrArg UInt8.toNat heq
      rwa [UInt8.toNat_ofNat', UInt8.toNat_ofNat', Nat.mod_eq_of_lt hw, Nat.mod_eq_of_lt hw']
        at hbyte
    have hdiv : ∀ {w : ℕ}, w < 128 ^ (fuel + 1) → w / 128 < 128 ^ fuel := by
      intro w hw
      rw [pow_succ] at hw
      exact Nat.div_lt_of_lt_mul (by omega)
    simp only [encodeGroups] at h
    split_ifs at h with hlast hlast' hlast'
    · obtain ⟨hbyte, hrest⟩ := List.cons.inj h
      exact ⟨by have := hlow (by omega) (by omega) hbyte; omega, hrest⟩
    · exact absurd h hmore
    · exact absurd h.symm hmore
    · obtain ⟨hbyte, hgroups⟩ := List.cons.inj h
      obtain ⟨hhigh, hrest⟩ := encodeGroups_prefixFree fuel (hdiv hv) (hdiv hv') hgroups
      exact ⟨by have := hlow (by omega) (by omega) hbyte; omega, hrest⟩

/-- Ten groups hold every length. -/
theorem encode_prefixFree : PrefixFree (· < BYTES_MAX) encode := by
  intro n n' rest rest' hn hn' h
  have hmax : BYTES_MAX ≤ 128 ^ 10 := by decide
  exact encodeGroups_prefixFree 10 (hn.trans_le hmax) (hn'.trans_le hmax) h

end Leb128

/-- The arrays of one length. -/
theorem toList_prefixFree (n : ℕ) : PrefixFree (fun _ : ByteArr n => True) List.Vector.toList :=
  .of_length (fun a _ => a.toList_length) fun _ _ _ _ h => List.Vector.toList_injective h

theorem toBE_prefixFree (w : ℕ) : PrefixFree (· < 256 ^ w) (toBE w) :=
  .of_length (fun n _ => length_toBE w n) fun n n' hn hn' h => by
    rw [← ofBE_toBE hn, h, ofBE_toBE hn']

namespace Tlv

theorem encodeUint_injective : Function.Injective encodeUint := fun n n' h => by
  rw [← (encodeUint_spec n).2, h, (encodeUint_spec n').2]

theorem pushLp_prefixFree : PrefixFree (fun v : Bytes => v.length < BYTES_MAX) pushLp :=
  Leb128.encode_prefixFree.lengthPrefixed

theorem typeByte_injective : ∀ {f f' : Field}, f.typeNum < 0x80 → f'.typeNum < 0x80 →
    f.typeByte = f'.typeByte → f.typeNum = f'.typeNum ∧ f.critical = f'.critical := by
  intro f f' hf hf' h
  obtain ⟨hnum, hflag, hcritNum, hcritFlag⟩ := typeByte_parts f.typeNum hf
  obtain ⟨hnum', hflag', hcritNum', hcritFlag'⟩ := typeByte_parts f'.typeNum hf'
  have htype := congrArg (· &&& 0x7f) h
  have hcrit := congrArg (fun b => decide (b &&& 0x80 = 0)) h
  unfold Field.typeByte at htype hcrit
  cases hc : f.critical <;> cases hc' : f'.critical <;> simp_all

/-- The number of a type has seven bits, and memory holds the value. -/
structure Field.Held (f : Field) : Prop where
  typeNum_lt : f.typeNum < 0x80
  length_lt : f.value.length < BYTES_MAX

theorem Field.encode_prefixFree : PrefixFree Field.Held Field.encode := by
  rintro ⟨typeNum, critical, value⟩ ⟨typeNum', critical', value'⟩ rest rest' hf hf' h
  simp only [Field.encode, List.cons_append] at h
  obtain ⟨hbyte, hvalue⟩ := List.cons.inj h
  obtain ⟨rfl, rfl⟩ := typeByte_injective hf.typeNum_lt hf'.typeNum_lt hbyte
  obtain ⟨rfl, hrest⟩ := pushLp_prefixFree hf.length_lt hf'.length_lt hvalue
  exact ⟨rfl, hrest⟩

/-- The bytes of an object tell its fields. -/
theorem encode_inj {fields fields' : List Field} (hnum : ∀ f ∈ fields, f.typeNum < 0x80)
    (hnum' : ∀ f ∈ fields', f.typeNum < 0x80) (hlen : (encode fields).length < BYTES_MAX)
    (h : encode fields = encode fields') : fields = fields' := by
  have hheld : ∀ {fields : List Field}, (∀ f ∈ fields, f.typeNum < 0x80) →
      (encode fields).length < BYTES_MAX → ∀ f ∈ fields, f.Held := by
    intro fields hnum hlen f hf
    have hsub : f.encode.Sublist (fields.map Field.encode).flatten :=
      List.sublist_flatten_of_mem (List.mem_map_of_mem hf)
    rw [← List.flatMap_def] at hsub
    have hle := hsub.length_le.trans_lt hlen
    rw [Field.encode, List.length_cons, List.length_append] at hle
    exact ⟨hnum f hf, by omega⟩
  exact Field.encode_prefixFree.flatMap_inj (fun f _ => List.cons_ne_nil _ _) (hheld hnum hlen)
    (hheld hnum' (h ▸ hlen)) h

end Tlv

namespace VectorEntry

theorem encodeItem_prefixFree :
    PrefixFree (fun e => (Bytes.ofString e.dest).length < BYTES_MAX) encodeItem := by
  rintro ⟨role, bp, dest⟩ ⟨role', bp', dest'⟩ rest rest' hlen hlen' h
  simp only [encodeItem, List.cons_append, List.append_assoc] at h
  obtain ⟨rfl, hmore⟩ := List.cons.inj h
  obtain ⟨hbp, hdest⟩ := toBE_prefixFree 2 bp.toNat_lt bp'.toNat_lt hmore
  obtain ⟨htext, hrest⟩ := Tlv.pushLp_prefixFree hlen hlen' hdest
  obtain rfl := UInt16.toNat_inj.1 hbp
  obtain rfl : dest = dest' := Bytes.ofString_injective htext
  exact ⟨rfl, hrest⟩

/-- The bytes of a vector tell its entries. -/
theorem buildCountPrefixed_inj {vector vector' : List VectorEntry}
    (hlen : (Tlv.buildCountPrefixed (vector.map encodeItem)).length < BYTES_MAX)
    (h : Tlv.buildCountPrefixed (vector.map encodeItem) =
      Tlv.buildCountPrefixed (vector'.map encodeItem)) : vector = vector' := by
  have hheld : ∀ {vector : List VectorEntry},
      (Tlv.buildCountPrefixed (vector.map encodeItem)).length < BYTES_MAX →
      vector.length < BYTES_MAX ∧ ∀ e ∈ vector, (Bytes.ofString e.dest).length < BYTES_MAX := by
    intro vector hlen
    obtain ⟨hcount, hitems⟩ := @Tlv.length_le_counted _ encodeItem vector
      fun e _ => e.encodeItem_ne_nil
    refine ⟨hcount.trans_lt hlen, fun e he => ?_⟩
    have hitem := (hitems e he).trans_lt hlen
    have hdest := Tlv.length_le_pushLp (Bytes.ofString e.dest)
    rw [encodeItem, List.length_cons, List.length_append] at hitem
    omega
  obtain ⟨hcount, hdests⟩ := hheld hlen
  obtain ⟨hcount', hdests'⟩ := hheld (h ▸ hlen)
  unfold Tlv.buildCountPrefixed at h
  obtain ⟨-, hitems⟩ := Leb128.encode_prefixFree (by simpa using hcount) (by simpa using hcount') h
  rw [← List.flatMap_def, ← List.flatMap_def] at hitems
  exact encodeItem_prefixFree.flatMap_inj (fun e _ => e.encodeItem_ne_nil) hdests hdests' hitems

theorem sortByRole_perm (vector : List VectorEntry) : (sortByRole vector).Perm vector :=
  List.perm_insertionSort _ vector

/-- Where no two entries have one role, the order of a vector does not matter. -/
theorem sortByRole_congr {vector vector' : List VectorEntry} (h : vector.Perm vector')
    (hroles : (vector.map role).Nodup) : sortByRole vector = sortByRole vector' := by
  have hsorted : ∀ vector : List VectorEntry,
      (sortByRole vector).Pairwise fun a b => a.role ≤ b.role := fun vector =>
    List.pairwise_insertionSort _ vector
  refine List.Perm.eq_of_pairwise (fun a b ha hb hab hba => ?_) (hsorted vector) (hsorted vector')
    ((sortByRole_perm vector).trans (h.trans (sortByRole_perm vector').symm))
  have hmem := (sortByRole_perm vector).mem_iff.1 ha
  have hmem' := h.mem_iff.2 ((sortByRole_perm vector').mem_iff.1 hb)
  exact List.inj_on_of_nodup_map hroles hmem hmem' (UInt8.le_antisymm hab hba)

end VectorEntry

namespace AddressInputs

/-! ## Address inputs -/

/-- The fields of the inputs on a sorted vector. -/
def contentFields (inputs : AddressInputs) : List Tlv.Field :=
  [.array 0x00 inputs.merchantKey, .text 0x01 inputs.asset, .uint 0x02 inputs.schema,
    ⟨0x03, false, Tlv.buildCountPrefixed
      ((VectorEntry.sortByRole inputs.vector).map VectorEntry.encodeItem)⟩,
    .uint 0x04 inputs.contract] ++ Tlv.Field.optional (.text 0x05) inputs.merchantNet

/-- What the inputs are refused for. -/
structure Valid (suite : Suite) (inputs : AddressInputs) : Prop where
  asset : suite.validateText inputs.asset = true
  roles : (inputs.vector.map VectorEntry.role).Nodup
  dests : ∀ e ∈ inputs.vector, suite.validateText e.dest = true
  merchantNet : inputs.merchantNet.all suite.validateText = true

theorem canonicalBytes_eq_some {suite : Suite} {inputs : AddressInputs} {bytes : Bytes} :
    inputs.canonicalBytes suite = some bytes ↔
      inputs.Valid suite ∧ bytes = Tlv.encode inputs.contentFields := by
  have hdests : (VectorEntry.sortByRole inputs.vector).all (fun e => suite.validateText e.dest) =
      true ↔ ∀ e ∈ inputs.vector, suite.validateText e.dest = true := by
    simp only [List.all_eq_true, (VectorEntry.sortByRole_perm inputs.vector).mem_iff]
  unfold canonicalBytes
  constructor
  · intro h
    simp only [Bool.not_eq_true', decide_eq_false_iff_not] at h
    split_ifs at h with hasset hroles hvector hnet
    cases h
    exact ⟨⟨by simpa using hasset, hroles, hdests.1 (by simpa using hvector),
      by simpa using hnet⟩, rfl⟩
  · rintro ⟨⟨hasset, hroles, hvector, hnet⟩, rfl⟩
    simp only [hasset, hroles, hdests.2 hvector, hnet]
    rfl

theorem typeNum_lt (inputs : AddressInputs) : ∀ f ∈ inputs.contentFields, f.typeNum < 0x80 := by
  intro f hf
  simp only [contentFields, Tlv.Field.optional, List.mem_append, List.mem_cons,
    List.not_mem_nil, or_false, Option.mem_toList, Option.map_eq_some_iff] at hf
  rcases hf with (rfl | rfl | rfl | rfl | rfl) | ⟨_, -, rfl⟩ <;>
    simp only [Tlv.Field.array, Tlv.Field.text, Tlv.Field.uint] <;> decide

/-- The bytes tell the inputs, but for the order of the vector. -/
theorem same_of_encode {inputs inputs' : AddressInputs}
    (hlen : (Tlv.encode inputs.contentFields).length < BYTES_MAX)
    (h : Tlv.encode inputs.contentFields = Tlv.encode inputs'.contentFields) :
    inputs.Same inputs' := by
  have hvalue : (Tlv.buildCountPrefixed
      ((VectorEntry.sortByRole inputs.vector).map VectorEntry.encodeItem)).length < BYTES_MAX := by
    refine lt_of_le_of_lt ?_ hlen
    simp [contentFields, Tlv.encode, Tlv.Field.encode]
    omega
  have hfields := Tlv.encode_inj inputs.typeNum_lt inputs'.typeNum_lt hlen h
  simp only [contentFields, Tlv.Field.array, Tlv.Field.text, Tlv.Field.uint, List.cons_append,
    List.nil_append, List.cons.injEq, Tlv.Field.mk.injEq, true_and] at hfields
  obtain ⟨hkey, hasset, hschema, hvector, hcontract, hnet⟩ := hfields
  have hsorted := VectorEntry.buildCountPrefixed_inj hvalue hvector
  refine ⟨List.Vector.toList_injective hkey, Bytes.ofString_injective hasset,
    Tlv.encodeUint_injective hschema, ?_, Tlv.encodeUint_injective hcontract, ?_⟩
  · exact (VectorEntry.sortByRole_perm inputs.vector).symm.trans
      (hsorted ▸ VectorEntry.sortByRole_perm inputs'.vector)
  · have htext : Function.Injective (Tlv.Field.text 0x05) := fun s s' hs =>
      Bytes.ofString_injective (congrArg Tlv.Field.value hs)
    have hlist : Function.Injective (Option.toList : Option Tlv.Field → List Tlv.Field) :=
      fun o o' ho => Option.ext fun f => by rw [← Option.mem_toList, ho, Option.mem_toList]
    exact Option.map_injective htext (hlist hnet)

theorem Same.encode_eq {inputs inputs' : AddressInputs} (h : inputs.Same inputs')
    (hroles : (inputs.vector.map VectorEntry.role).Nodup) :
    Tlv.encode inputs.contentFields = Tlv.encode inputs'.contentFields := by
  unfold contentFields
  rw [h.merchantKey, h.asset, h.schema, h.contract, h.merchantNet,
    VectorEntry.sortByRole_congr h.vector hroles]

theorem Same.valid {suite : Suite} {inputs inputs' : AddressInputs} (h : inputs.Same inputs')
    (hvalid : inputs.Valid suite) : inputs'.Valid suite where
  asset := h.asset ▸ hvalid.asset
  roles := (h.vector.map VectorEntry.role).nodup_iff.1 hvalid.roles
  dests := fun e he => hvalid.dests e (h.vector.mem_iff.2 he)
  merchantNet := h.merchantNet ▸ hvalid.merchantNet

/-- Other inputs have the same bytes exactly if they differ in the order of the vector only. -/
theorem canonicalBytes_eq_iff {suite : Suite} {inputs inputs' : AddressInputs} {bytes : Bytes}
    (hlen : bytes.length < BYTES_MAX) (h : inputs.canonicalBytes suite = some bytes) :
    inputs'.canonicalBytes suite = some bytes ↔ inputs.Same inputs' := by
  obtain ⟨hvalid, rfl⟩ := canonicalBytes_eq_some.1 h
  constructor
  · intro h'
    exact same_of_encode hlen (canonicalBytes_eq_some.1 h').2
  · intro hsame
    exact canonicalBytes_eq_some.2 ⟨hsame.valid hvalid, hsame.encode_eq hvalid.roles⟩

end AddressInputs

/-! ## Labels -/

/-- A labelled body tells the label and the body. -/
theorem labelled_inj {label label' : String} {body body' : Bytes}
    (hlabel : 0 ∉ Bytes.ofString label) (hlabel' : 0 ∉ Bytes.ofString label')
    (h : labelled label body = labelled label' body') : label = label' ∧ body = body' := by
  obtain ⟨hbytes, hbody⟩ := delimited_inj hlabel hlabel' h
  exact ⟨Bytes.ofString_injective hbytes, hbody⟩

namespace DomainLabel

/-- Every label in registry order. -/
def all : List DomainLabel :=
  [slice, chanAuth, chanAck, ckpt, ckptReq, funding, settlePropose, settleProof, settleConfirm,
    close, prepayDraw, reqs, receipt, artifact, ackReq, attest, cancel, registry]

theorem mem_all (label : DomainLabel) : label ∈ all := by
  cases label <;> simp [all]

theorem asStr_injective : Function.Injective asStr := fun label label' h =>
  List.inj_on_of_nodup_map (by decide : (all.map asStr).Nodup) label.mem_all label'.mem_all h

theorem zero_notMem (label : DomainLabel) : 0 ∉ Bytes.ofString label.asStr :=
  (by decide +kernel : ∀ label ∈ all, 0 ∉ Bytes.ofString label.asStr) label label.mem_all

end DomainLabel

/-- What is signed tells what it is signed as and its content. -/
theorem covered_inj {label label' : DomainLabel} {bytes bytes' : Bytes}
    (h : covered label bytes = covered label' bytes') : label = label' ∧ bytes = bytes' := by
  obtain ⟨hlabel, hbytes⟩ := labelled_inj label.zero_notMem label'.zero_notMem h
  exact ⟨DomainLabel.asStr_injective hlabel, hbytes⟩

namespace Derivation

variable {suite : Suite} {d d' : Derivation}

def labels : List String := ["PayTPv1-split", "PayTPv1-instance", "PayTPv1-entry", "PayTPv1-net"]

theorem label_mem (d : Derivation) : d.label ∈ labels := by
  cases d <;> simp [label, labels]

theorem zero_notMem (d : Derivation) : 0 ∉ Bytes.ofString d.label :=
  (by decide +kernel : ∀ label ∈ labels, 0 ∉ Bytes.ofString label) d.label d.label_mem

/-- Nothing that is signed carries the label of a derivation. -/
theorem label_ne (d : Derivation) (label : DomainLabel) : d.label ≠ label.asStr := by
  have hall : ∀ label ∈ DomainLabel.all, label.asStr ∉ labels := by decide
  exact fun h => hall label label.mem_all (h ▸ d.label_mem)

theorem preimage_ne_covered (d : Derivation) {pre : Bytes} (h : d.preimage suite = some pre)
    (label : DomainLabel) (bytes : Bytes) : pre ≠ covered label bytes := by
  obtain ⟨body, -, rfl⟩ := Option.map_eq_some_iff.1 h
  exact fun heq => d.label_ne label (labelled_inj d.zero_notMem label.zero_notMem heq).1

/-! ## Bodies -/

theorem entryIdBody_inj {seed seed' nonce nonce' : ByteArr 32} {amt amt' : Fin (2 ^ 128)}
    {tOpen tOpen' tLapse tLapse' contest contest' : UInt64}
    (h : entryIdBody seed nonce amt tOpen.toNat tLapse.toNat contest.toNat =
      entryIdBody seed' nonce' amt' tOpen'.toNat tLapse'.toNat contest'.toNat) :
    entry seed nonce amt tOpen tLapse contest =
      entry seed' nonce' amt' tOpen' tLapse' contest' := by
  have htime : ∀ t : UInt64, t.toNat < 256 ^ 8 := fun t => t.toNat_lt
  simp only [entryIdBody, List.append_assoc] at h
  obtain ⟨hseed, hterms⟩ := toList_prefixFree 32 trivial trivial h
  obtain ⟨hnonce, hnumbers⟩ := toList_prefixFree 32 trivial trivial hterms
  obtain ⟨hamt, htimes⟩ := toBE_prefixFree 16 amt.isLt amt'.isLt hnumbers
  obtain ⟨hopen, hlater⟩ := toBE_prefixFree 8 (htime tOpen) (htime tOpen') htimes
  obtain ⟨hlapse, hlast⟩ := toBE_prefixFree 8 (htime tLapse) (htime tLapse') hlater
  have hcontest := (toBE_prefixFree 8).inj (htime contest) (htime contest') hlast
  rw [hseed, hnonce, Fin.ext hamt, UInt64.toNat_inj.1 hopen, UInt64.toNat_inj.1 hlapse,
    UInt64.toNat_inj.1 hcontest]

theorem claimRecordIdBody_inj {seed seed' ckptRef ckptRef' : ByteArr 32}
    {channelId channelId' : ByteArr 8} {p p' : Fin (2 ^ 128)}
    (h : claimRecordIdBody seed channelId ckptRef p =
      claimRecordIdBody seed' channelId' ckptRef' p') :
    claim seed channelId ckptRef p = claim seed' channelId' ckptRef' p' := by
  simp only [claimRecordIdBody, List.append_assoc] at h
  obtain ⟨hseed, hround⟩ := toList_prefixFree 32 trivial trivial h
  obtain ⟨hchannel, hckpt⟩ := toList_prefixFree 8 trivial trivial hround
  obtain ⟨href, hp⟩ := toList_prefixFree 32 trivial trivial hckpt
  rw [hseed, hchannel, href, Fin.ext ((toBE_prefixFree 16).inj p.isLt p'.isLt hp)]

theorem settlementNetMemoBody_inj {ckptRef ckptRef' : ByteArr 32} {channelId channelId' : ByteArr 8}
    (h : settlementNetMemoBody channelId ckptRef = settlementNetMemoBody channelId' ckptRef') :
    net channelId ckptRef = net channelId' ckptRef' := by
  obtain ⟨hchannel, href⟩ := toList_prefixFree 8 trivial trivial h
  rw [hchannel, List.Vector.toList_injective href]

/-- The two bodies behind one label differ in their widths. -/
theorem entryIdBody_ne_claimRecordIdBody (seed seed' nonce ckptRef : ByteArr 32)
    (channelId : ByteArr 8) (amt tOpen tLapse contest p : ℕ) :
    entryIdBody seed nonce amt tOpen tLapse contest ≠
      claimRecordIdBody seed' channelId ckptRef p := by
  intro h
  have hlen := congrArg List.length h
  simp only [entryIdBody, claimRecordIdBody, List.length_append, List.Vector.toList_length,
    length_toBE] at hlen
  omega

/-! ## One name, one position -/

theorem split_body {inputs : AddressInputs} {bytes : Bytes} :
    (split inputs).body suite = some bytes ↔
      inputs.merchantNet.isSome = true ∧ inputs.canonicalBytes suite = some bytes := by
  rw [body]
  cases inputs.merchantNet <;> simp

theorem meedInstance_body {inputs : AddressInputs} {bytes : Bytes} :
    (meedInstance inputs).body suite = some bytes ↔
      inputs.merchantNet.isNone = true ∧ inputs.canonicalBytes suite = some bytes := by
  rw [body]
  cases inputs.merchantNet <;> simp

/-- Bodies behind one label are the same position's. -/
theorem same_of_body {bytes : Bytes} (hlen : bytes.length < BYTES_MAX)
    (hlabel : d.label = d'.label) (h : d.body suite = some bytes)
    (h' : d'.body suite = some bytes) : d.Same d' := by
  cases d with
  | split inputs =>
    cases d' with
    | split inputs' =>
      exact (AddressInputs.canonicalBytes_eq_iff hlen (split_body.1 h).2).1 (split_body.1 h').2
    | _ => simp [label] at hlabel
  | meedInstance inputs =>
    cases d' with
    | meedInstance inputs' =>
      exact (AddressInputs.canonicalBytes_eq_iff hlen (meedInstance_body.1 h).2).1
        (meedInstance_body.1 h').2
    | _ => simp [label] at hlabel
  | entry =>
    cases d' with
    | entry => exact entryIdBody_inj (Option.some.inj (h.trans h'.symm))
    | claim =>
      exact absurd (Option.some.inj (h.trans h'.symm))
        (entryIdBody_ne_claimRecordIdBody _ _ _ _ _ _ _ _ _ _)
    | _ => simp [label] at hlabel
  | claim =>
    cases d' with
    | claim => exact claimRecordIdBody_inj (Option.some.inj (h.trans h'.symm))
    | entry =>
      exact absurd (Option.some.inj (h'.trans h.symm))
        (entryIdBody_ne_claimRecordIdBody _ _ _ _ _ _ _ _ _ _)
    | _ => simp [label] at hlabel
  | net =>
    cases d' with
    | net => exact settlementNetMemoBody_inj (Option.some.inj (h.trans h'.symm))
    | _ => simp [label] at hlabel

theorem Same.label_eq (h : d.Same d') : d.label = d'.label := by
  unfold Same at h
  split at h
  · rfl
  · rfl
  · rw [h]

/-- One position has one body. -/
theorem Same.body_eq {bytes : Bytes} (h : d.Same d') (hlen : bytes.length < BYTES_MAX)
    (hbody : d.body suite = some bytes) : d'.body suite = some bytes := by
  unfold Same at h
  split at h
  · obtain ⟨hnet, hbytes⟩ := split_body.1 hbody
    exact split_body.2 ⟨h.merchantNet ▸ hnet,
      (AddressInputs.canonicalBytes_eq_iff hlen hbytes).2 h⟩
  · obtain ⟨hnet, hbytes⟩ := meedInstance_body.1 hbody
    exact meedInstance_body.2 ⟨h.merchantNet ▸ hnet,
      (AddressInputs.canonicalBytes_eq_iff hlen hbytes).2 h⟩
  · exact h ▸ hbody

theorem preimage_eq_iff {pre : Bytes} (hlen : pre.length < BYTES_MAX)
    (h : d.preimage suite = some pre) : d'.preimage suite = some pre ↔ d.Same d' := by
  obtain ⟨body, hbody, rfl⟩ := Option.map_eq_some_iff.1 h
  have hshort : body.length < BYTES_MAX := by
    rw [labelled, List.length_append, List.length_cons] at hlen
    omega
  constructor
  · intro h'
    obtain ⟨body', hbody', hpre⟩ := Option.map_eq_some_iff.1 h'
    obtain ⟨hlabel, rfl⟩ := labelled_inj d'.zero_notMem d.zero_notMem hpre
    exact same_of_body hshort hlabel.symm hbody hbody'
  · intro hsame
    rw [preimage, hsame.body_eq hshort hbody, Option.map_some, hsame.label_eq]

/-! ## The host's names and the program's -/

theorem name_eq (d : Derivation) :
    d.name suite = (d.body suite).map (suite.labelledHash d.label) := by
  rw [name, preimage, Option.map_map]
  rfl

theorem seedSplit_eq (inputs : AddressInputs) :
    inputs.seedSplit suite = (split inputs).name suite := by
  rw [name_eq, body, AddressInputs.seedSplit]
  split_ifs <;> rfl

theorem seedInstance_eq (inputs : AddressInputs) :
    inputs.seedInstance suite = (meedInstance inputs).name suite := by
  rw [name_eq, body, AddressInputs.seedInstance]
  split_ifs <;> rfl

theorem flatten_entryIdParts (seed nonce : ByteArr 32) (amt tOpen tLapse contest : ℕ) :
    (Kit.entryIdParts seed nonce amt tOpen tLapse contest).flatten =
      labelled "PayTPv1-entry" (entryIdBody seed nonce amt tOpen tLapse contest) := by
  simp [Kit.entryIdParts, labelled, entryIdBody]

theorem flatten_claimRecordIdParts (seed ckptRef : ByteArr 32) (channelId : ByteArr 8) (p : ℕ) :
    (Kit.claimRecordIdParts seed channelId ckptRef p).flatten =
      labelled "PayTPv1-entry" (claimRecordIdBody seed channelId ckptRef p) := by
  simp [Kit.claimRecordIdParts, labelled, claimRecordIdBody]

theorem flatten_seedSplitParts (bytes : Bytes) :
    (Kit.seedSplitParts bytes).flatten = labelled "PayTPv1-split" bytes := by
  simp [Kit.seedSplitParts, labelled]

theorem flatten_seedInstanceParts (bytes : Bytes) :
    (Kit.seedInstanceParts bytes).flatten = labelled "PayTPv1-instance" bytes := by
  simp [Kit.seedInstanceParts, labelled]

/-- The program's machine names entries by their parts. -/
theorem deriveEntryId_eq (crypto : Crypto) (seed : ByteArr 32) (t : Kit.EntryTerms) :
    Kit.deriveEntryId crypto seed t = Kit.hashv crypto
      (Kit.entryIdParts seed t.nonce t.amount t.tOpen t.tLapse t.contest) := by
  rw [Kit.hashv, flatten_entryIdParts]
  rfl

theorem seedInstance_program (rt : Kit.Runtime) (bytes : Bytes) :
    Kit.Program.seedInstance rt bytes = Kit.deriveSeedInstance rt.crypto bytes := by
  rw [Kit.deriveSeedInstance, Kit.hashv, flatten_seedInstanceParts]
  rfl

/-- The preimages of some positions. -/
def preimages (suite : Suite) (used : Set Derivation) : Set Bytes :=
  {pre | ∃ d ∈ used, d.preimage suite = some pre}

/-- Where no two of the preimages collide, a name is one position's. -/
theorem same_of_name {used : Set Derivation}
    (hlen : ∀ pre ∈ preimages suite used, pre.length < BYTES_MAX)
    (hfree : Set.InjOn suite.sha256 (preimages suite used)) (hd : d ∈ used) (hd' : d' ∈ used)
    {id : ByteArr 32} (h : d.name suite = some id) (h' : d'.name suite = some id) :
    d.Same d' := by
  obtain ⟨pre, hpre, rfl⟩ := Option.map_eq_some_iff.1 h
  obtain ⟨pre', hpre', hhash⟩ := Option.map_eq_some_iff.1 h'
  obtain rfl := hfree ⟨d', hd', hpre'⟩ ⟨d, hd, hpre⟩ hhash
  exact (preimage_eq_iff (hlen pre' ⟨d, hd, hpre⟩) hpre).1 hpre'

/-- The bytes of address inputs are the same up to the order of the vector only. A preimage is one
position's and nothing that is signed, which its label and content are told from; so where the
hash does not collide on the preimages of the positions in use, no name stands for two of them.
The host's functions hash these preimages, and the program's hash the same bytes. -/
theorem separated (suite : Suite) :
    (∀ inputs inputs' bytes, bytes.length < BYTES_MAX →
      AddressInputs.canonicalBytes suite inputs = some bytes →
      (AddressInputs.canonicalBytes suite inputs' = some bytes ↔ inputs.Same inputs')) ∧
    (∀ d d' : Derivation, ∀ pre, pre.length < BYTES_MAX → d.preimage suite = some pre →
      (d'.preimage suite = some pre ↔ d.Same d')) ∧
    (∀ d : Derivation, ∀ pre, d.preimage suite = some pre →
      ∀ label bytes, pre ≠ covered label bytes) ∧
    (∀ label label' bytes bytes', covered label bytes = covered label' bytes' →
      label = label' ∧ bytes = bytes') ∧
    (∀ used : Set Derivation, (∀ pre ∈ preimages suite used, pre.length < BYTES_MAX) →
      Set.InjOn suite.sha256 (preimages suite used) → ∀ d ∈ used, ∀ d' ∈ used, ∀ id,
      d.name suite = some id → d'.name suite = some id → d.Same d') ∧
    (∀ inputs : AddressInputs, inputs.seedSplit suite = (split inputs).name suite ∧
      inputs.seedInstance suite = (meedInstance inputs).name suite) ∧
    (∀ (seed nonce : ByteArr 32) (amt : Fin (2 ^ 128)) (tOpen tLapse contest : UInt64),
      some (suite.entryIdPurchase seed nonce amt tOpen.toNat tLapse.toNat contest.toNat) =
        (entry seed nonce amt tOpen tLapse contest).name suite ∧
      some (Kit.entryIdParts seed nonce amt tOpen.toNat tLapse.toNat contest.toNat).flatten =
        (entry seed nonce amt tOpen tLapse contest).preimage suite) ∧
    (∀ (seed ckptRef : ByteArr 32) (channelId : ByteArr 8) (p : Fin (2 ^ 128)),
      some (suite.claimRecordId seed channelId ckptRef p) =
        (claim seed channelId ckptRef p).name suite ∧
      some (Kit.claimRecordIdParts seed channelId ckptRef p).flatten =
        (claim seed channelId ckptRef p).preimage suite) ∧
    (∀ channelId ckptRef, some (suite.settlementNetMemo channelId ckptRef) =
      (net channelId ckptRef).name suite) ∧
    (∀ bytes, (Kit.seedSplitParts bytes).flatten = labelled "PayTPv1-split" bytes ∧
      (Kit.seedInstanceParts bytes).flatten = labelled "PayTPv1-instance" bytes) ∧
    (∀ (seed : ByteArr 32) (t : Kit.EntryTerms) (channelId : ByteArr 8) (ckptRef : ByteArr 32)
      (p : ℕ) (bytes : Bytes) (addr : Kit.Addresses) (program : ByteArr 32),
      Kit.deriveEntryId suite.toCrypto seed t =
        suite.entryIdPurchase seed t.nonce t.amount t.tOpen t.tLapse t.contest ∧
      Kit.deriveClaimRecordId suite.toCrypto seed channelId ckptRef p =
        suite.claimRecordId seed channelId ckptRef p ∧
      Kit.deriveSeedSplit suite.toCrypto bytes = suite.labelledHash "PayTPv1-split" bytes ∧
      Kit.Program.seedInstance ⟨suite.toCrypto, addr, program⟩ bytes =
        suite.labelledHash "PayTPv1-instance" bytes) := by
  refine ⟨fun inputs inputs' bytes hlen h => AddressInputs.canonicalBytes_eq_iff hlen h,
    fun d d' pre hlen h => preimage_eq_iff hlen h, fun d pre h => d.preimage_ne_covered h,
    fun label label' bytes bytes' h => covered_inj h,
    fun used hlen hfree d hd d' hd' id h h' => same_of_name hlen hfree hd hd' h h',
    fun inputs => ⟨seedSplit_eq inputs, seedInstance_eq inputs⟩, ?_, ?_, fun _ _ => rfl,
    fun bytes => ⟨flatten_seedSplitParts bytes, flatten_seedInstanceParts bytes⟩, ?_⟩
  · intro seed nonce amt tOpen tLapse contest
    rw [flatten_entryIdParts]
    exact ⟨rfl, rfl⟩
  · intro seed ckptRef channelId p
    rw [flatten_claimRecordIdParts]
    exact ⟨rfl, rfl⟩
  · intro seed t channelId ckptRef p bytes addr program
    refine ⟨?_, ?_, ?_, ?_⟩
    · rw [deriveEntryId_eq, Kit.hashv, flatten_entryIdParts]
      rfl
    · rw [Kit.deriveClaimRecordId, Kit.hashv, flatten_claimRecordIdParts]
      rfl
    · rw [Kit.deriveSeedSplit, Kit.hashv, flatten_seedSplitParts]
      rfl
    · rw [seedInstance_program, Kit.deriveSeedInstance, Kit.hashv, flatten_seedInstanceParts]
      rfl

/-- A split's inputs, on a vector in some order. -/
def splitInputs (vector : List VectorEntry) : AddressInputs where
  merchantKey := .ofNat 32 11
  asset := "usd"
  schema := 1
  vector
  contract := 1
  merchantNet := some "net"

def sampleVector : List VectorEntry := [⟨0x13, 10, "d3"⟩, ⟨0x10, 50, "d0"⟩]

/-- The bytes of a split whatever the order of its vector, which names one address. -/
theorem separated_split : ∃ bytes id,
    (splitInputs sampleVector).canonicalBytes keyedSuite = some bytes ∧
    (splitInputs sampleVector.reverse).canonicalBytes keyedSuite = some bytes ∧
    (split (splitInputs sampleVector)).name keyedSuite = some id ∧
    (split (splitInputs sampleVector.reverse)).name keyedSuite = some id ∧
    (split (splitInputs sampleVector)).Same (split (splitInputs sampleVector.reverse)) := by
  have hbytes : ∃ bytes, (labelled "PayTPv1-split" bytes).length < BYTES_MAX ∧
      (splitInputs sampleVector).canonicalBytes keyedSuite = some bytes := by
    refine ⟨((splitInputs sampleVector).canonicalBytes keyedSuite).getD [], ?_, ?_⟩ <;>
      decide +kernel
  have hname : ∃ id, (split (splitInputs sampleVector)).name keyedSuite = some id :=
    Option.isSome_iff_exists.1 (by decide +kernel)
  obtain ⟨bytes, hlabelled, hbytes⟩ := hbytes
  have hshort : bytes.length < BYTES_MAX := by
    rw [labelled, List.length_append, List.length_cons] at hlabelled
    omega
  obtain ⟨id, hname⟩ := hname
  obtain ⟨hcanonical, hpreimage, -, -, hnames, -⟩ := separated keyedSuite
  have hsame : (splitInputs sampleVector).Same (splitInputs sampleVector.reverse) :=
    ⟨rfl, rfl, rfl, (List.reverse_perm _).symm, rfl, rfl⟩
  have hbytes' := (hcanonical _ _ bytes hshort hbytes).2 hsame
  have hname' : (split (splitInputs sampleVector.reverse)).name keyedSuite = some id := by
    rw [name_eq, split_body.2 ⟨rfl, hbytes'⟩]
    rw [name_eq, split_body.2 ⟨rfl, hbytes⟩] at hname
    exact hname
  refine ⟨bytes, id, hbytes, hbytes', hname, hname', ?_⟩
  have hpre : ∀ pre ∈ preimages keyedSuite
      {split (splitInputs sampleVector), split (splitInputs sampleVector.reverse)},
      pre = labelled "PayTPv1-split" bytes := by
    rintro pre ⟨d, rfl | rfl, hd⟩
    · rw [preimage, split_body.2 ⟨rfl, hbytes⟩] at hd
      exact (Option.some.inj hd).symm
    · rw [preimage, split_body.2 ⟨rfl, hbytes'⟩] at hd
      exact (Option.some.inj hd).symm
  exact hnames _ (fun pre h => hpre pre h ▸ hlabelled)
    (fun pre h pre' h' _ => (hpre pre h).trans (hpre pre' h').symm) _ (.inl rfl) _ (.inr rfl) id
    hname hname'

end Derivation

end Paytp
