import Paytp.Quote
import Paytp.Signing

/-!
# Quotes read back

A merchant's signed quote reads back as itself, if the reader of documents gives its members and
Base64url is decoded as it was encoded.
-/

namespace Paytp

namespace Jcs

/-- The decimal digits of a positive number do not begin with a zero. -/
theorem toDigits_head : ∀ {n : ℕ}, 0 < n → ∃ c cs, Nat.toDigits 10 n = c :: cs ∧ c ≠ '0' := by
  intro n
  induction n using Nat.strong_induction_on with
  | _ n ih =>
    intro hpos
    by_cases hlt : n < 10
    · refine ⟨n.digitChar, [], Nat.toDigits_of_lt_base hlt, ?_⟩
      rw [ne_eq, Nat.digitChar_eq_zero]
      omega
    · obtain ⟨c, cs, hcs, hc⟩ := ih (n / 10) (by omega) (by omega)
      refine ⟨c, cs ++ [(n % 10).digitChar], ?_, hc⟩
      rw [Nat.toDigits_of_base_le (by decide) (by omega), hcs]
      rfl

theorem isDigit_of_mem {n : ℕ} {c : Char} (h : c ∈ Nat.toDigits 10 n) : c.isDigit = true :=
  Nat.isDigit_of_mem_toDigits (by decide) (by decide) h

theorem nonzero_range {c : Char} (hdigit : c.isDigit = true) (hc : c ≠ '0') :
    '1' ≤ c ∧ c ≤ '9' := by
  have hne : c.val ≠ '0'.val := fun h => hc (Char.ext h)
  simp only [Char.isDigit, Bool.and_eq_true, decide_eq_true_eq] at hdigit
  obtain ⟨hlow, hhigh⟩ := hdigit
  refine ⟨?_, hhigh⟩
  rw [Char.le_def, UInt32.le_iff_toNat_le]
  have hlow' := UInt32.le_iff_toNat_le.1 hlow
  have hne' : c.val.toNat ≠ '0'.val.toNat := fun h => hne (UInt32.toNat_inj.1 h)
  simp only [Char.reduceVal, UInt32.reduceToNat] at hlow' hne' ⊢
  omega

theorem validateUintString_repr (n : ℕ) : validateUintString n.repr = true := by
  unfold validateUintString
  rw [Nat.toList_repr]
  rcases Nat.eq_zero_or_pos n with rfl | hpos
  · rfl
  · obtain ⟨c, cs, hcs, hc⟩ := toDigits_head hpos
    have hrange := nonzero_range (isDigit_of_mem (hcs ▸ List.mem_cons_self)) hc
    have htail : cs.all Char.isDigit = true :=
      List.all_eq_true.2 fun d hd => isDigit_of_mem (hcs ▸ List.mem_cons_of_mem c hd)
    rw [hcs]
    split
    · contradiction
    · rename_i heq
      exact absurd (List.cons.inj heq).1 hc
    · rename_i heq
      obtain ⟨rfl, rfl⟩ := List.cons.inj heq
      rw [htail, decide_eq_true hrange]
      rfl

/-- A number is read back from its decimal text. -/
theorem parseCanonical_repr {max n : ℕ} (h : n ≤ max) : parseCanonical max n.repr = some n := by
  have hfold : (Nat.toDigits 10 n).foldl (fun n c => 10 * n + (c.toNat - 48)) 0 = n :=
    Nat.ofDigitChars_ten_toDigits
  unfold parseCanonical parseUnsigned
  rw [validateUintString_repr, Nat.toList_repr, if_pos rfl]
  rcases hcs : Nat.toDigits 10 n with _ | ⟨c, cs⟩
  · exact absurd hcs Nat.toDigits_ne_nil
  · have hall : (c :: cs).all Char.isDigit = true :=
      List.all_eq_true.2 fun d hd => isDigit_of_mem (hcs ▸ hd)
    have hplus : c ≠ '+' := by
      rintro rfl
      exact absurd (isDigit_of_mem (hcs ▸ List.mem_cons_self)) (by decide)
    rw [hcs] at hfold
    simp [hplus, hall, hfold, h]

end Jcs

namespace Quote

variable {codec : TextCodec} {suite : Suite}

/-- The fields of a quote are in their domains. -/
structure Typed (q : Quote) : Prop where
  version : q.v = "1"
  exp_le : q.exp ≤ MAX_TIME
  grace_le : q.grace ≤ MAX_TIME
  retry_le : q.retry ≤ MAX_TIME
  schema_le : q.schema ≤ U32_MAX
  contract_le : q.contract ≤ U32_MAX
  registry_le : q.registry ≤ U32_MAX
  idem_ne : q.idem ≠ []
  idem_short : q.idem.length ≤ 64

theorem vectorEntryOf_value (e : VectorEntry) : vectorEntryOf (vectorEntryValue e) = some e := by
  have hrole : Jcs.parseCanonical 255 e.role.toNat.repr = some e.role.toNat :=
    Jcs.parseCanonical_repr (Nat.le_of_lt_succ e.role.toNat_lt)
  have hbp : Jcs.parseCanonical 65535 e.bp.toNat.repr = some e.bp.toNat :=
    Jcs.parseCanonical_repr (Nat.le_of_lt_succ e.bp.toNat_lt)
  simp [vectorEntryOf, vectorEntryValue, StrictValue.memberStr, StrictValue.member,
    StrictValue.asStr, hrole, hbp]

theorem offerOf_value (o : Offer) : offerOf (offerValue o) = some o := by
  obtain ⟨accept, finality, merchantNet, twoLeg⟩ := o
  cases finality <;> cases merchantNet <;> cases twoLeg <;>
    simp [offerOf, offerValue, optionalStr, StrictValue.member, StrictValue.asStr]

theorem mapM_map {α β γ : Type} {f : β → Option γ} {g : α → β} {h : α → γ}
    (hfg : ∀ a, f (g a) = some (h a)) (as : List α) :
    (as.map g).mapM f = some (as.map h) := by
  induction as with
  | nil => rfl
  | cons a as ih => simp [hfg, ih]

theorem toValue_congr {codec' : TextCodec} (h : codec.b64 = codec'.b64) (q : Quote)
    (includeSig : Bool) : toValue codec q includeSig = toValue codec' q includeSig := by
  unfold toValue
  rw [h]

theorem sign_congr {codec' : TextCodec} (h : codec.b64 = codec'.b64) (q : Quote)
    (sk : ByteArr 32) : q.sign codec suite sk = q.sign codec' suite sk := by
  unfold sign
  rw [toValue_congr h]

theorem memberStr_signature (q : Quote) :
    (toValue codec q true).memberStr "signature" = q.signature.map fun s => codec.b64 s.toList := by
  rcases hsig : q.signature with _ | sig <;>
    simp [toValue, hsig, StrictValue.memberStr, StrictValue.member, StrictValue.asStr]

/-- A quote is read back from its members. -/
theorem fromMembers_toValue (hb64 : ∀ bytes, codec.b64Decode (codec.b64 bytes) = some bytes)
    {q : Quote} (h : q.Typed) : fromMembers codec (toValue codec q true) = some q := by
  have hvector : (q.vector.map vectorEntryValue).mapM vectorEntryOf = some q.vector := by
    simpa using mapM_map (h := id) vectorEntryOf_value q.vector
  have hoffers : (q.offers.map offerValue).mapM offerOf = some q.offers := by
    simpa using mapM_map (h := id) offerOf_value q.offers
  have hidem : ¬(q.idem = [] ∨ 64 < q.idem.length) := by
    rintro (hnil | hlong)
    · exact h.idem_ne hnil
    · exact absurd hlong (not_lt.2 h.idem_short)
  have hv := h.version
  obtain ⟨v, resource, nonce, exp, idem, schema, contract, registry, baseline, grace, retry,
    vector, offers, signature⟩ := q
  subst hv
  unfold fromMembers
  rw [memberStr_signature]
  cases signature <;>
    simp [toValue, StrictValue.memberStr, StrictValue.member, StrictValue.asStr, arrayOf, hb64,
      hidem, hvector, hoffers, ByteArr.ofBytes?_toList, Jcs.parseCanonical_repr h.exp_le,
      Jcs.parseCanonical_repr h.grace_le, Jcs.parseCanonical_repr h.retry_le,
      Jcs.parseCanonical_repr h.schema_le, Jcs.parseCanonical_repr h.contract_le,
      Jcs.parseCanonical_repr h.registry_le]

theorem signedMembers_toValue
    (hb64 : ∀ bytes, codec.b64Decode (codec.b64 bytes) = some bytes) {q : Quote}
    {sig : ByteArr 64} (hsig : q.signature = some sig) :
    signedMembers codec (toValue codec q true) = some (toValue codec q false, sig) := by
  unfold signedMembers
  rw [memberStr_signature, hsig]
  simp [toValue, hsig, hb64, ByteArr.ofBytes?_toList]

/-- A signed quote is read back under the key it was signed with. -/
theorem parseVerify_sign (hb64 : ∀ bytes, codec.b64Decode (codec.b64 bytes) = some bytes)
    (hsigns : suite.Signs) {q : Quote} (h : q.Typed) (sk : ByteArr 32) {json : String}
    (hread : codec.parseStrict json = some (toValue codec (q.sign codec suite sk) true)) :
    parseVerify codec suite json (suite.ed25519Public sk) = some (q.sign codec suite sk) := by
  have hmembers : signedMembers codec (toValue codec (q.sign codec suite sk) true) =
      some (toValue codec q false,
        suite.ed25519Sign sk (covered .reqs (Jcs.toJcs (toValue codec q false)))) :=
    signedMembers_toValue hb64 rfl
  have hfields := fromMembers_toValue (q := q.sign codec suite sk) hb64
    ⟨h.version, h.exp_le, h.grace_le, h.retry_le, h.schema_le, h.contract_le, h.registry_le,
      h.idem_ne, h.idem_short⟩
  have hverify := hsigns sk (covered .reqs (Jcs.toJcs (toValue codec q false)))
  unfold parseVerify
  simp only [hread, hmembers, hfields, hverify, Option.bind_eq_bind, Option.bind_some,
    Bool.not_true, Bool.false_eq_true, if_false]

end Quote

end Paytp
