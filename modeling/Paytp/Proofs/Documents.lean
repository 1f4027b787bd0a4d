import Paytp.Proofs.SignedContent
import Paytp.Proofs.StrictParsing

/-!
# Signed documents are read back

A quote or a receipt that is signed and written is read back under the key it was signed with, with
the members of what it mirrors in order.
-/

namespace Paytp

namespace StrictValue

/-- No two members of one name, and numbers that are read as they were written. -/
structure Kept (serde : Serde) (v : StrictValue) : Prop where
  distinct : v.Distinct
  keeps : ∀ text ∈ v.numbers, serde.Keeps text

theorem Kept.strict {serde : Serde} {v : StrictValue} (h : v.Kept serde) : v.Strict :=
  h.distinct.strict fun text ht => (h.keeps text ht).1

theorem kept_composes (serde : Serde) : Composes (Kept serde) where
  string s := ⟨.string s, by simp [numbers]⟩
  array items h := by
    refine ⟨.array fun v hv => (h v hv).distinct, fun text ht => ?_⟩
    obtain ⟨v, hv, ht⟩ := mem_numbers_array.1 ht
    exact (h v hv).keeps text ht
  object members nodup h := by
    refine ⟨.object nodup fun m hm => (h m hm).distinct, fun text ht => ?_⟩
    obtain ⟨m, hm, ht⟩ := mem_numbers_object.1 ht
    exact (h m hm).keeps text ht

/-- The same members, one by one. -/
theorem forall₂_members {members members' : List (String × StrictValue)}
    (names : members.map Prod.fst = members'.map Prod.fst)
    (h : List.Forall₂ Same (members.map Prod.snd) (members'.map Prod.snd)) :
    List.Forall₂ (fun m m' => m.1 = m'.1 ∧ m.2.Same m'.2) members members' := by
  rw [← List.forall₂_eq_eq_eq, List.forall₂_map_left_iff, List.forall₂_map_right_iff] at names
  rw [List.forall₂_map_left_iff, List.forall₂_map_right_iff] at h
  exact List.forall₂_iff_zip.2 ⟨names.length_eq, fun hmem =>
    ⟨List.forall₂_zip names hmem, List.forall₂_zip h hmem⟩⟩

theorem forall₂_filter {members members' : List (String × StrictValue)} (p : String → Bool)
    (h : List.Forall₂ (fun m m' => m.1 = m'.1 ∧ m.2.Same m'.2) members members') :
    List.Forall₂ (fun m m' => m.1 = m'.1 ∧ m.2.Same m'.2) (members.filter fun m => p m.1)
      (members'.filter fun m => p m.1) := by
  induction h with
  | nil => exact .nil
  | cons hm _ ih =>
    rw [List.filter_cons, List.filter_cons, hm.1]
    split_ifs
    · exact .cons hm ih
    · exact ih

/-- The members of some names are the same members. -/
theorem Same.filter {members members' : List (String × StrictValue)}
    (h : Same (.object members) (.object members')) (p : String → Bool) :
    Same (.object (members.filter fun m => p m.1)) (.object (members'.filter fun m => p m.1)) ∧
      (members.filter fun m => p m.1).length = (members'.filter fun m => p m.1).length := by
  cases h with
  | object order names hvalues =>
    have hfilter := forall₂_filter p (forall₂_members names hvalues)
    refine ⟨.object (order.filter _) ?_ ?_, (order.filter _).length_eq.trans hfilter.length_eq⟩
    · rw [← List.forall₂_eq_eq_eq, List.forall₂_map_left_iff, List.forall₂_map_right_iff]
      exact hfilter.imp fun _ _ hm => hm.1
    · rw [List.forall₂_map_left_iff, List.forall₂_map_right_iff]
      exact hfilter.imp fun _ _ hm => hm.2

end StrictValue

namespace Quote

variable {codec : TextCodec}

theorem signedMembers_same {v w unsigned : StrictValue} {sig : ByteArr 64} (hsame : v.Same w)
    (hv : v.Strict) (h : signedMembers codec v = some (unsigned, sig)) :
    ∃ unsigned', signedMembers codec w = some (unsigned', sig) ∧ unsigned.Same unsigned' := by
  have hsig := hsame.memberStr hv "signature"
  obtain ⟨members, rfl, hone, hread, rfl⟩ := signedMembers_eq_some.1 h
  cases hsame with
  | @object _ reordered members' order names hvalues =>
    have hfilter := fun p => StrictValue.Same.filter (.object order names hvalues) p
    refine ⟨_, signedMembers_eq_some.2 ⟨members', rfl, ?_, ?_, rfl⟩, (hfilter (· != "signature")).1⟩
    · rw [← hone]
      exact (hfilter (· == "signature")).2.symm
    · rw [← hsig, hread]

/-- The fields that are read of the same document. -/
theorem Fields.of_same {obj obj' : StrictValue} {q : Quote} (hobj : obj.Strict)
    (hsame : obj.Same obj') (h : Fields codec obj q) :
    ∃ offers, Fields codec obj' { q with offers } ∧ List.Forall₂ Offer.Same q.offers offers := by
  have hstr := hsame.memberStr hobj
  have hvectors := vectors_same hobj hsame
  have hofferss := offers_same hobj hsame
  obtain ⟨hv, hresource, hnonce, hexp, hidem, hschema, hcontract, hregistry, hbaseline, hgrace,
    hretry, hvector, hoffers⟩ := h
  rw [hvector] at hvectors
  rw [hoffers] at hofferss
  obtain ⟨vector, hvector', rfl⟩ := rel_some hvectors
  obtain ⟨offers, hoffers', hsameOffers⟩ := rel_some hofferss
  rw [hstr _] at hv hresource hnonce hexp hidem hschema hcontract hregistry hbaseline hgrace hretry
  exact ⟨offers, ⟨hv, hresource, hnonce, hexp, hidem, hschema, hcontract, hregistry, hbaseline,
    hgrace, hretry, hvector', hoffers'⟩, hsameOffers⟩

theorem fromMembers_of_fields {obj : StrictValue} {q : Quote} (h : Fields codec obj q)
    (hone : q.v = "1") (hidem : ¬(q.idem = [] ∨ q.idem.length > 64))
    (hsig : ((obj.memberStr "signature").elim (some none) fun s =>
      ((codec.b64Decode s).bind (ByteArr.ofBytes? 64)).map some) = some q.signature) :
    fromMembers codec obj = some q := by
  unfold fromMembers
  refine Option.bind_eq_some_iff.2 ⟨q.v, h.v, ?_⟩
  rw [if_neg (by simp [hone])]
  refine Option.bind_eq_some_iff.2 ⟨q.nonce, h.nonce, ?_⟩
  refine Option.bind_eq_some_iff.2 ⟨q.idem, h.idem, ?_⟩
  rw [if_neg hidem]
  refine Option.bind_eq_some_iff.2 ⟨q.vector, h.vector, ?_⟩
  refine Option.bind_eq_some_iff.2 ⟨q.offers, h.offers, ?_⟩
  rcases hs : obj.memberStr "signature" with _ | s <;> rw [hs] at hsig <;>
    refine Option.bind_eq_some_iff.2 ⟨q.signature, hsig, ?_⟩ <;>
    refine Option.bind_eq_some_iff.2 ⟨q.resource, h.resource, ?_⟩ <;>
    refine Option.bind_eq_some_iff.2 ⟨q.exp, h.exp, ?_⟩ <;>
    refine Option.bind_eq_some_iff.2 ⟨q.schema, h.schema, ?_⟩ <;>
    refine Option.bind_eq_some_iff.2 ⟨q.contract, h.contract, ?_⟩ <;>
    refine Option.bind_eq_some_iff.2 ⟨q.registry, h.registry, ?_⟩ <;>
    refine Option.bind_eq_some_iff.2 ⟨q.baseline, h.baseline, ?_⟩ <;>
    refine Option.bind_eq_some_iff.2 ⟨q.grace, h.grace, ?_⟩ <;>
    exact Option.bind_eq_some_iff.2 ⟨q.retry, h.retry, rfl⟩

/-- A quote that is read as the same document is the same quote. -/
theorem parseVerify_of_same (hb64 : ∀ bytes, codec.b64Decode (codec.b64 bytes) = some bytes)
    {suite : Suite} (hsigns : suite.Signs) {q : Quote} (h : q.Typed)
    (hoffers : ∀ o ∈ q.offers, o.Strict) (sk : ByteArr 32) {json : String} {w : StrictValue}
    (hread : codec.parseStrict json = some w)
    (hsame : (toValue codec (q.sign codec suite sk) true).Same w) :
    ∃ offers, parseVerify codec suite json (suite.ed25519Public sk) =
      some { q.sign codec suite sk with offers } ∧ List.Forall₂ Offer.Same q.offers offers := by
  have hstrict : (toValue codec (q.sign codec suite sk) true).Strict :=
    toValue_strict (q := q.sign codec suite sk) hoffers true
  have hw := hstrict.of_same hsame
  have hmembers : signedMembers codec (toValue codec (q.sign codec suite sk) true) =
      some (toValue codec q false,
        suite.ed25519Sign sk (covered .reqs (Jcs.toJcs (toValue codec q false)))) :=
    signedMembers_toValue hb64 rfl
  obtain ⟨unsigned, hunsigned, hsameUnsigned⟩ := signedMembers_same hsame hstrict hmembers
  have hbytes := (StrictValue.toJcs_eq_iff (toValue_strict hoffers false)
    (signedMembers_strict hunsigned hw)).2 hsameUnsigned
  have hverify := hsigns sk (covered .reqs (Jcs.toJcs (toValue codec q false)))
  have hwhole := fromMembers_toValue (q := q.sign codec suite sk) hb64
    ⟨h.version, h.exp_le, h.grace_le, h.retry_le, h.schema_le, h.contract_le, h.registry_le,
      h.idem_ne, h.idem_short⟩
  obtain ⟨offers, hfields, hsameOffers⟩ := (fromMembers_some hwhole).of_same hstrict hsame
  refine ⟨offers, ?_, hsameOffers⟩
  have hidem : ¬(q.idem = [] ∨ q.idem.length > 64) := by
    rintro (hnil | hlong)
    · exact h.idem_ne hnil
    · exact absurd hlong (not_lt.2 h.idem_short)
  have hsig : w.memberStr "signature" =
      (q.sign codec suite sk).signature.map fun s => codec.b64 s.toList :=
    (hsame.memberStr hstrict "signature").symm.trans (memberStr_signature _)
  have hfrom : fromMembers codec w = some { q.sign codec suite sk with offers } := by
    refine fromMembers_of_fields hfields h.version hidem ?_
    rw [hsig]
    simp [sign, hb64, ByteArr.ofBytes?_toList]
  unfold parseVerify
  simp only [hread, hunsigned, hfrom, ← hbytes, hverify, Option.bind_eq_bind, Option.bind_some,
    Bool.not_true, Bool.false_eq_true, if_false]

theorem exists_of_mapM {β γ : Type} {f : β → Option γ} {bs : List β} {cs : List γ}
    (h : bs.mapM f = some cs) {c : γ} (hc : c ∈ cs) : ∃ b ∈ bs, f b = some c := by
  induction bs generalizing cs with
  | nil =>
    obtain rfl := Option.some.inj h
    cases hc
  | cons b bs ih =>
    rw [List.mapM_cons] at h
    obtain ⟨c', hc', h⟩ := Option.bind_eq_some_iff.1 h
    obtain ⟨rest, hrest, h⟩ := Option.bind_eq_some_iff.1 h
    obtain rfl := Option.some.inj h
    rcases List.mem_cons.1 hc with rfl | hc
    · exact ⟨b, List.mem_cons_self, hc'⟩
    · obtain ⟨b', hb', hread⟩ := ih hrest hc
      exact ⟨b', List.mem_cons_of_mem _ hb', hread⟩

theorem Fields.offer_member {obj : StrictValue} {q : Quote} {o : Offer} (h : Fields codec obj q)
    (ho : o ∈ q.offers) : ∃ items item, obj.member "offers" = some (.array items) ∧
      item ∈ items ∧ item.member "accept" = some o.accept := by
  obtain ⟨items, hitems, hread⟩ := Option.bind_eq_some_iff.1 h.offers
  obtain ⟨v, hv, harray⟩ := Option.bind_eq_some_iff.1 hitems
  obtain ⟨item, hitem, hoffer⟩ := exists_of_mapM hread ho
  obtain ⟨accept, haccept, hrest⟩ := Option.bind_eq_some_iff.1 hoffer
  obtain ⟨finality, -, hrest⟩ := Option.bind_eq_some_iff.1 hrest
  obtain ⟨merchantNet, -, hrest⟩ := Option.bind_eq_some_iff.1 hrest
  obtain rfl := Option.some.inj hrest
  rcases v with _ | _ | _ | _ | items' | _
  case array =>
    obtain rfl := Option.some.inj harray
    exact ⟨items', item, hv, hitem, haccept⟩
  all_goals cases harray

/-- The numbers in what an offer mirrors are texts of number tokens. -/
theorem offered_numbers {serde : Serde} {suite : Suite}
    (hcodec : codec.parseStrict = Jcs.parseStrict serde) {json : String} {pk : ByteArr 32}
    {q : Quote} {o : Offer} (h : parseVerify codec suite json pk = some q) (ho : o ∈ q.offers) :
    ∀ text ∈ o.accept.numbers, ∃ token, Jcs.visitNumber serde token = some text := by
  obtain ⟨value, -, -, hread, -, -, hq⟩ := parseVerify_some h
  obtain ⟨items, item, hmember, hitem, haccept⟩ := (fromMembers_some hq).offer_member ho
  intro text ht
  refine Serde.parseStrict_numbers (hcodec ▸ hread) text ?_
  refine StrictValue.numbers_member hmember (StrictValue.mem_numbers_array.2 ⟨item, hitem, ?_⟩)
  exact StrictValue.numbers_member haccept ht

end Quote

namespace Receipt

variable {codec : TextCodec}

/-- The paid legs have a shape, just those of two legs have an entry, and the time is in its
domain. -/
structure Typed (r : Receipt) : Prop where
  paid : validatePaid r.rest.paid = true
  entry : r.rest.entry.isSome = (r.rest.paid.map PaidLeg.leg == ["meed", "net"])
  ts_le : r.rest.ts ≤ U64_MAX

theorem fields_toValue (hb64 : ∀ bytes, codec.b64Decode (codec.b64 bytes) = some bytes)
    {r : Receipt} (h : r.rest.ts ≤ U64_MAX) : Fields codec (toValue codec r true) r := by
  have hpaid : (r.rest.paid.map legValue).mapM paidLegOf = some r.rest.paid := by
    simpa using Quote.mapM_map (h := id) paidLegOf_value r.rest.paid
  have hts := Jcs.parseCanonical_repr h
  obtain ⟨nonce, idem, resource, accept, paid, entry, ts, signature⟩ := r
  cases entry <;> cases signature <;> constructor <;>
    simp [toValue, StrictValue.memberStr, StrictValue.member, StrictValue.asStr, Quote.arrayOf,
      hb64, ByteArr.ofBytes?_toList, hpaid, hts]

theorem memberStr_v (r : Receipt) (includeSig : Bool) :
    (toValue codec r includeSig).memberStr "v" = some "1" := by
  simp [toValue, StrictValue.memberStr, StrictValue.member, StrictValue.asStr]

theorem signedMembers_toValue (hb64 : ∀ bytes, codec.b64Decode (codec.b64 bytes) = some bytes)
    {r : Receipt} {sig : ByteArr 64} (hsig : r.rest.signature = some sig) :
    Quote.signedMembers codec (toValue codec r true) = some (toValue codec r false, sig) := by
  obtain ⟨nonce, idem, resource, accept, paid, entry, ts, signature⟩ := r
  obtain rfl : signature = some sig := hsig
  refine Quote.signedMembers_eq_some.2 ⟨_, rfl, ?_, ?_, ?_⟩
  · cases entry <;> simp
  · cases entry <;>
      simp [toValue, StrictValue.memberStr, StrictValue.member, StrictValue.asStr, hb64,
        ByteArr.ofBytes?_toList]
  · cases entry <;> simp [toValue]

/-- The fields that are read of the same document. -/
theorem Fields.of_same {obj obj' : StrictValue} {r : Receipt} (hobj : obj.Strict)
    (hsame : obj.Same obj') (h : Fields codec obj r) :
    ∃ accept, Fields codec obj' { r with rest := { r.rest with accept } } ∧
      r.rest.accept.Same accept := by
  have hstr := hsame.memberStr hobj
  have hmember := hsame.member hobj
  have hpaids := paid_same hobj hsame
  have haccepts := hmember "accept"
  have hentries := hmember "entry"
  obtain ⟨hnonce, hidem, hresource, haccept, hpaid, hentry, hts⟩ := h
  rw [hpaid] at hpaids
  rw [haccept] at haccepts
  obtain ⟨paid, hpaid', rfl⟩ := rel_some hpaids
  obtain ⟨accept, haccept', hsameAccept⟩ := rel_some haccepts
  rw [hstr _] at hnonce hidem hresource hts
  refine ⟨accept, ⟨hnonce, hidem, hresource, haccept', hpaid', ?_, hts⟩, hsameAccept⟩
  generalize obj.member "entry" = x at hentry hentries
  generalize obj'.member "entry" = y at hentries
  rcases hentries with hvw | _
  · rw [Option.elim_some, hvw.asStr] at hentry
    exact hentry
  · exact hentry

theorem parseVerify_of_fields {suite : Suite} {json : String} {pk : ByteArr 32}
    {value unsigned : StrictValue} {sig : ByteArr 64} {r : Receipt}
    (hread : codec.parseStrict json = some value)
    (hm : Quote.signedMembers codec value = some (unsigned, sig))
    (hverify : suite.ed25519VerifyStrict pk (covered .receipt (Jcs.toJcs unsigned)) sig = true)
    (hv : value.memberStr "v" = some "1") (h : Fields codec value r) (ht : r.Typed)
    (hsig : r.rest.signature = some sig) : parseVerify codec suite json pk = some r := by
  unfold parseVerify
  refine Option.bind_eq_some_iff.2 ⟨value, hread, ?_⟩
  refine Option.bind_eq_some_iff.2 ⟨(unsigned, sig), hm, ?_⟩
  simp only [hverify, Bool.not_true, Bool.false_eq_true, if_false]
  refine Option.bind_eq_some_iff.2 ⟨"1", hv, ?_⟩
  rw [if_neg (by simp)]
  refine Option.bind_eq_some_iff.2 ⟨r.nonce, h.nonce, ?_⟩
  refine Option.bind_eq_some_iff.2 ⟨r.rest.paid, h.paid, ?_⟩
  rw [if_neg (by simp [ht.paid])]
  have hentry := h.entry
  rcases he : value.member "entry" with _ | w
  all_goals
    rw [he] at hentry
    refine Option.bind_eq_some_iff.2 ⟨r.rest.entry, hentry, ?_⟩
    rw [if_neg (by simp [ht.entry])]
    refine Option.bind_eq_some_iff.2 ⟨r.rest.ts, h.ts, ?_⟩
    refine Option.bind_eq_some_iff.2 ⟨r.idem, h.idem, ?_⟩
    refine Option.bind_eq_some_iff.2 ⟨r.resource, h.resource, ?_⟩
    refine Option.bind_eq_some_iff.2 ⟨r.rest.accept, h.accept, ?_⟩
    rw [← hsig]
    rfl

/-- The order of members in the entry does not change what is written. -/
theorem toJcs_reorder {r : Receipt} {accept : StrictValue} (h : r.rest.accept.Same accept)
    (hr : r.rest.accept.Strict) (includeSig : Bool) :
    Jcs.toJcs (toValue codec { r with rest := { r.rest with accept } } includeSig) =
      Jcs.toJcs (toValue codec r includeSig) := by
  have hsame : (toValue codec r includeSig).Same
      (toValue codec { r with rest := { r.rest with accept } } includeSig) := by
    obtain ⟨nonce, idem, resource, accept', paid, entry, ts, signature⟩ := r
    refine .object (.refl _) (by cases entry <;> cases signature <;> cases includeSig <;> simp) ?_
    cases entry <;> cases signature <;> cases includeSig <;>
      simpa [StrictValue.same_array_iff] using
        ⟨h, fun p _ => (legValue_all StrictValue.strict_composes p).refl⟩
  have hstrict := @toValue_strict codec r hr includeSig
  exact ((StrictValue.toJcs_eq_iff hstrict (hstrict.of_same hsame)).2 hsame).symm

theorem toJson_reorder {r : Receipt} {accept : StrictValue} (h : r.rest.accept.Same accept)
    (hr : r.rest.accept.Strict) :
    toJson codec { r with rest := { r.rest with accept } } = toJson codec r :=
  toJcs_reorder h hr true

theorem toJson_sign_reorder {suite : Suite} {r : Receipt} {accept : StrictValue}
    (h : r.rest.accept.Same accept) (hr : r.rest.accept.Strict) (sk : ByteArr 32) :
    toJson codec (sign codec { r with rest := { r.rest with accept } } suite sk) =
      toJson codec (sign codec r suite sk) := by
  have hunsigned := @toJcs_reorder codec r accept h hr false
  have hsigned := @toJson_reorder codec (sign codec r suite sk) accept h hr
  rw [sign, hunsigned]
  exact hsigned

/-- A receipt that is read as the same document is the same receipt. -/
theorem parseVerify_of_same (hb64 : ∀ bytes, codec.b64Decode (codec.b64 bytes) = some bytes)
    {suite : Suite} (hsigns : suite.Signs) {r : Receipt} (h : r.Typed)
    (haccept : r.rest.accept.Strict) (sk : ByteArr 32) {json : String} {w : StrictValue}
    (hread : codec.parseStrict json = some w)
    (hsame : (toValue codec (r.sign codec suite sk) true).Same w) :
    ∃ accept, parseVerify codec suite json (suite.ed25519Public sk) =
      some { r.sign codec suite sk with rest := { (r.sign codec suite sk).rest with accept } } ∧
        r.rest.accept.Same accept := by
  have hstrict : (toValue codec (r.sign codec suite sk) true).Strict :=
    toValue_strict (r := r.sign codec suite sk) haccept true
  have hw := hstrict.of_same hsame
  have hmembers : Quote.signedMembers codec (toValue codec (r.sign codec suite sk) true) =
      some (toValue codec r false,
        suite.ed25519Sign sk (covered .receipt (Jcs.toJcs (toValue codec r false)))) :=
    signedMembers_toValue hb64 rfl
  obtain ⟨unsigned, hunsigned, hsameUnsigned⟩ := Quote.signedMembers_same hsame hstrict hmembers
  have hbytes := (StrictValue.toJcs_eq_iff (toValue_strict haccept false)
    (Quote.signedMembers_strict hunsigned hw)).2 hsameUnsigned
  have hverify := hsigns sk (covered .receipt (Jcs.toJcs (toValue codec r false)))
  rw [hbytes] at hverify hunsigned
  obtain ⟨accept, hfields, hsameAccept⟩ :=
    (fields_toValue (r := r.sign codec suite sk) hb64 h.ts_le).of_same hstrict hsame
  have hv : w.memberStr "v" = some "1" :=
    (hsame.memberStr hstrict "v").symm.trans (memberStr_v _ true)
  refine ⟨accept, ?_, hsameAccept⟩
  exact parseVerify_of_fields hread hunsigned hverify hv hfields ⟨h.paid, h.entry, h.ts_le⟩
    (by rw [sign, hbytes])

end Receipt

theorem Receipt.toValue_depth {codec : TextCodec} (r : Receipt) (includeSig : Bool) :
    (Receipt.toValue codec r includeSig).tree.depth ≤ r.rest.accept.tree.depth + 3 := by
  obtain ⟨members, hvalue, -, hmembers⟩ := @Receipt.toValue_members codec r includeSig
  rw [hvalue]
  refine StrictValue.depth_object_le.2 fun m hm => ?_
  obtain ⟨s, hs⟩ | haccept | hpaid := hmembers m hm
  · rw [hs]
    exact Nat.zero_le _
  · rw [haccept]
    omega
  · rw [hpaid]
    refine StrictValue.depth_array_le.2 fun v hv => ?_
    obtain ⟨p, -, rfl⟩ := List.mem_map.1 hv
    refine StrictValue.depth_object_le.2 fun n hn => ?_
    simp only [List.mem_cons, List.not_mem_nil, or_false] at hn
    rcases hn with rfl | rfl | rfl <;> exact Nat.zero_le _

/-! ## Round trips -/

section RoundTrips

variable {serde : Serde} {limit : ℕ∞} {codec : TextCodec} {suite : Suite}

/-- A quote that is signed and written is read back under its key, with the same offers. -/
theorem Quote.parseVerify_toJson (hreads : serde.Reads limit)
    (hcodec : codec.parseStrict = Jcs.parseStrict serde)
    (hb64 : ∀ bytes, codec.b64Decode (codec.b64 bytes) = some bytes) (hsigns : suite.Signs)
    {q : Quote} (h : q.Typed) (hoffers : ∀ o ∈ q.offers, o.All (StrictValue.Kept serde))
    (sk : ByteArr 32)
    (hdepth : ((q.sign codec suite sk).toValue codec true).tree.depth ≤ limit) :
    ∃ offers, Quote.parseVerify codec suite ((q.sign codec suite sk).toJson codec)
      (suite.ed25519Public sk) = some { q.sign codec suite sk with offers } ∧
        List.Forall₂ Offer.Same q.offers offers := by
  have hkept : ((q.sign codec suite sk).toValue codec true).Kept serde :=
    Quote.toValue_all (q := q.sign codec suite sk) (StrictValue.kept_composes serde) hoffers true
  obtain ⟨w, hw, hsame⟩ := hreads.parseStrict_write hkept.distinct hkept.keeps hdepth
  refine Quote.parseVerify_of_same hb64 hsigns h (fun o ho => ?_) sk (hcodec ▸ hw) hsame
  exact ⟨(hoffers o ho).accept.strict, fun tl htl => ((hoffers o ho).twoLeg tl htl).strict⟩

/-- A receipt that is signed and written is read back under its key, with the same entry, and is
written as before. -/
theorem Receipt.parseVerify_toJson (hreads : serde.Reads limit)
    (hcodec : codec.parseStrict = Jcs.parseStrict serde)
    (hb64 : ∀ bytes, codec.b64Decode (codec.b64 bytes) = some bytes) (hsigns : suite.Signs)
    {r : Receipt} (h : r.Typed) (haccept : r.rest.accept.Kept serde) (sk : ByteArr 32)
    (hdepth : (Receipt.toValue codec (r.sign codec suite sk) true).tree.depth ≤ limit) :
    ∃ accept, (Bytes.toString? (Receipt.toJson codec (r.sign codec suite sk))).bind
      (Receipt.parseVerify codec suite · (suite.ed25519Public sk)) =
        some { r.sign codec suite sk with rest := { (r.sign codec suite sk).rest with accept } } ∧
        r.rest.accept.Same accept ∧
        Receipt.toJson codec
          { r.sign codec suite sk with rest := { (r.sign codec suite sk).rest with accept } } =
            Receipt.toJson codec (r.sign codec suite sk) := by
  have hkept : (Receipt.toValue codec (r.sign codec suite sk) true).Kept serde :=
    Receipt.toValue_all (r := r.sign codec suite sk) (StrictValue.kept_composes serde) haccept true
  obtain ⟨w, hw, hsame⟩ := hreads.parseStrict_write hkept.distinct hkept.keeps hdepth
  obtain ⟨accept, hread, hsameAccept⟩ :=
    Receipt.parseVerify_of_same hb64 hsigns h haccept.strict sk (hcodec ▸ hw) hsame
  refine ⟨accept, ?_, hsameAccept,
    Receipt.toJson_reorder (r := r.sign codec suite sk) hsameAccept haccept.strict⟩
  rw [Receipt.toJson, Jcs.toJcs, Bytes.toString?_ofString, Option.bind_some]
  exact hread

/-- A receipt of another shape is signed and written, and refused by every reader. -/
theorem Receipt.parseVerify_misshapen (hreads : serde.Reads limit)
    (hcodec : codec.parseStrict = Jcs.parseStrict serde)
    (hb64 : ∀ bytes, codec.b64Decode (codec.b64 bytes) = some bytes) {r : Receipt}
    (hts : r.rest.ts ≤ U64_MAX)
    (hshape : r.rest.entry.isSome ≠ (r.rest.paid.map PaidLeg.leg == ["meed", "net"]))
    (haccept : r.rest.accept.Kept serde) (sk pk : ByteArr 32)
    (hdepth : (Receipt.toValue codec (r.sign codec suite sk) true).tree.depth ≤ limit) :
    (Bytes.toString? (Receipt.toJson codec (r.sign codec suite sk))).bind
      (Receipt.parseVerify codec suite · pk) = none := by
  have hkept : (Receipt.toValue codec (r.sign codec suite sk) true).Kept serde :=
    Receipt.toValue_all (r := r.sign codec suite sk) (StrictValue.kept_composes serde) haccept true
  obtain ⟨w, hw, hsame⟩ := hreads.parseStrict_write hkept.distinct hkept.keeps hdepth
  rw [Receipt.toJson, Jcs.toJcs, Bytes.toString?_ofString, Option.bind_some]
  refine Option.eq_none_iff_forall_not_mem.2 fun r' hr' => ?_
  obtain ⟨value, -, -, hread, -, -, hfields, -, hlegs⟩ := Receipt.parseVerify_some hr'
  obtain rfl : w = value := Option.some.inj (hw.symm.trans (hcodec ▸ hread))
  have hback := (Receipt.fields_toValue (r := r.sign codec suite sk) hb64 hts).same hkept.strict
    hsame hfields
  rw [← hback.paid, ← hback.entry] at hlegs
  exact hshape hlegs

end RoundTrips

end Paytp
