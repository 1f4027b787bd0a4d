import Paytp.Proofs.CanonicalJson
import Paytp.Proofs.Derivations
import Paytp.Proofs.Quotes
import Paytp.Redemption
import Paytp.SampleQuotes
import Paytp.Wallet.Offers

/-!
# What a signature says

The bytes that a merchant signs tell the content of a quote or of a receipt, up to the order of
members in the values it mirrors. Offers mirror each other exactly if their contents are the same.
-/

namespace Paytp

namespace StrictValue

@[simp] theorem same_string_iff {a b : String} : Same (.string a) (.string b) ↔ a = b := by
  constructor
  · rintro ⟨⟩
    rfl
  · rintro rfl
    exact .string a

theorem same_array_iff {vs ws : List StrictValue} :
    Same (.array vs) (.array ws) ↔ List.Forall₂ Same vs ws := by
  constructor
  · rintro (_ | _ | _ | _ | h)
    exact h
  · exact .array

theorem Strict.refl {v : StrictValue} (h : v.Strict) : v.Same v := h.same_of_tree rfl

/-- A member of a name that no other has is what is found by the name. -/
theorem find?_eq_some {α : Type} {members : List (String × α)}
    (hnodup : (members.map Prod.fst).Nodup) {key : String} {m : String × α} :
    members.find? (fun n => n.1 == key) = some m ↔ m ∈ members ∧ m.1 = key := by
  constructor
  · intro h
    exact ⟨List.mem_of_find?_eq_some h, by simpa using List.find?_some h⟩
  · rintro ⟨hmem, rfl⟩
    rcases hfind : members.find? (fun n => n.1 == m.1) with _ | n
    · exact absurd (List.find?_eq_none.1 hfind m hmem) (by simp)
    · have hname : n.1 = m.1 := by simpa using List.find?_some hfind
      rw [hfind, List.inj_on_of_nodup_map hnodup (List.mem_of_find?_eq_some hfind) hmem hname]

theorem rel_find? {members members' : List (String × StrictValue)} (key : String)
    (names : members.map Prod.fst = members'.map Prod.fst)
    (h : List.Forall₂ Same (members.map Prod.snd) (members'.map Prod.snd)) :
    Option.Rel Same ((members.find? fun n => n.1 == key).map Prod.snd)
      ((members'.find? fun n => n.1 == key).map Prod.snd) := by
  induction members generalizing members' with
  | nil =>
    obtain rfl : members' = [] := List.map_eq_nil_iff.1 names.symm
    exact .none
  | cons m members ih =>
    rcases members' with _ | ⟨m', members'⟩
    · simp at names
    · simp only [List.map_cons, List.cons.injEq, List.forall₂_cons] at names h
      rw [List.find?_cons, List.find?_cons, names.1]
      cases m'.1 == key
      · exact ih names.2 h.2
      · exact .some h.1

/-- The same values have the same members. -/
theorem Same.member {v w : StrictValue} (h : v.Same w) (hv : v.Strict) (key : String) :
    Option.Rel Same (v.member key) (w.member key) := by
  cases h with
  | object order names hvalues =>
    rename_i members reordered members'
    cases hv with
    | object nodup _ =>
      have hfind : members.find? (fun n => n.1 == key) = reordered.find? fun n => n.1 == key := by
        refine Option.ext fun m => ?_
        rw [find?_eq_some nodup, find?_eq_some ((order.map Prod.fst).nodup_iff.1 nodup),
          order.mem_iff]
      rw [StrictValue.member, StrictValue.member, hfind]
      exact rel_find? key names hvalues
  | _ => exact .none

theorem Strict.member {v w : StrictValue} (h : v.Strict) {key : String}
    (hw : v.member key = some w) : w.Strict := by
  cases h with
  | object _ h =>
    obtain ⟨m, hm, rfl⟩ := Option.map_eq_some_iff.1 hw
    exact h m (List.mem_of_find?_eq_some hm)
  | _ => simp [StrictValue.member] at hw

/-- A property of texts that arrays keep, and objects without two members of one name. -/
structure Composes (P : StrictValue → Prop) : Prop where
  string : ∀ s, P (.string s)
  array : ∀ items, (∀ v ∈ items, P v) → P (.array items)
  object : ∀ members, (members.map Prod.fst).Nodup → (∀ m ∈ members, P m.2) → P (.object members)

theorem strict_composes : Composes Strict :=
  ⟨.string, fun _ => .array, fun _ => .object⟩

theorem Same.asStr {v w : StrictValue} (h : v.Same w) : v.asStr = w.asStr := by
  cases h <;> rfl

theorem Same.memberStr {v w : StrictValue} (h : v.Same w) (hv : v.Strict) (key : String) :
    v.memberStr key = w.memberStr key := by
  have hmember := h.member hv key
  unfold StrictValue.memberStr
  generalize v.member key = x at hmember
  generalize w.member key = y at hmember
  cases hmember with
  | some hsame => exact hsame.asStr
  | none => rfl

end StrictValue

/-! ## Offers -/

/-- What the offer mirrors has a property. -/
structure Offer.All (P : StrictValue → Prop) (o : Offer) : Prop where
  accept : P o.accept
  twoLeg : ∀ tl ∈ o.twoLeg, P tl

abbrev Offer.Strict (o : Offer) : Prop := o.All StrictValue.Strict

/-- The same offer, but for the order of members in the values that it mirrors. -/
@[mk_iff]
structure Offer.Same (a b : Offer) : Prop where
  accept : a.accept.Same b.accept
  finality : a.finality = b.finality
  merchantNet : a.merchantNet = b.merchantNet
  twoLeg : Option.Rel StrictValue.Same a.twoLeg b.twoLeg

theorem Wallet.offerMirrors_iff {a b : Offer} (ha : a.Strict) (hb : b.Strict) :
    Wallet.offerMirrors a b = true ↔ a.Same b := by
  have haccept := StrictValue.toJcs_eq_iff ha.accept hb.accept
  rw [Offer.same_iff]
  unfold Wallet.offerMirrors
  rcases hx : a.twoLeg with _ | x <;> rcases hy : b.twoLeg with _ | y
  · simp only [Bool.and_eq_true, beq_iff_eq, haccept, Option.rel_none_none]
    tauto
  · simp
  · simp
  · have htwoLeg := StrictValue.toJcs_eq_iff (ha.twoLeg x hx) (hb.twoLeg y hy)
    simp only [Bool.and_eq_true, beq_iff_eq, haccept, htwoLeg, Option.rel_some_some]
    tauto

@[simp] theorem repr_inj {n m : ℕ} : n.repr = m.repr ↔ n = m := by
  constructor
  · intro h
    have hn := Jcs.parseCanonical_repr (le_max_left n m)
    rw [h, Jcs.parseCanonical_repr (le_max_right n m)] at hn
    exact (Option.some.inj hn).symm
  · rintro rfl
    rfl

theorem rel_some {α β : Type} {R : α → β → Prop} {a : α} {y : Option β}
    (h : Option.Rel R (some a) y) : ∃ b, y = some b ∧ R a b := by
  cases h with
  | some hab => exact ⟨_, rfl, hab⟩

theorem rel_mapM {α β : Type} {R : α → α → Prop} {S : β → β → Prop} {f : α → Option β}
    (hf : ∀ a b, R a b → Option.Rel S (f a) (f b)) {as bs : List α} (h : List.Forall₂ R as bs) :
    Option.Rel (List.Forall₂ S) (as.mapM f) (bs.mapM f) := by
  induction h with
  | nil => exact .some .nil
  | cons hab _ ih =>
    rename_i a b as bs _
    have hhead := hf a b hab
    rw [List.mapM_cons, List.mapM_cons]
    generalize f a = x at hhead
    generalize f b = y at hhead
    rcases hhead with hxy | _
    · generalize as.mapM f = xs at ih
      generalize bs.mapM f = ys at ih
      rcases ih with hrest | _
      · exact .some (.cons hxy hrest)
      · exact .none
    · exact .none

/-! ## Quotes -/

namespace Quote

open StrictValue

variable {codec : TextCodec}

/-- The same quote, but for its signature and the order of members in what its offers mirror. -/
structure Same (q q' : Quote) : Prop where
  offers : List.Forall₂ Offer.Same q.offers q'.offers
  fields : { q with offers := [], signature := none } = { q' with offers := [], signature := none }

theorem vectorEntryOf_same {v w : StrictValue} (h : v.Same w) (hv : v.Strict) :
    vectorEntryOf v = vectorEntryOf w := by
  unfold vectorEntryOf
  rw [h.memberStr hv "role", h.memberStr hv "bp", h.memberStr hv "dest"]

theorem optionalStr_same {v w : StrictValue} (h : v.Same w) (hv : v.Strict) (key : String) :
    optionalStr v key = optionalStr w key := by
  have hmember := h.member hv key
  unfold optionalStr
  generalize v.member key = x at hmember
  generalize w.member key = y at hmember
  rcases hmember with hsame | _
  · simp only [hsame.asStr]
  · rfl

theorem offerOf_same {v w : StrictValue} (h : v.Same w) (hv : v.Strict) :
    Option.Rel Offer.Same (offerOf v) (offerOf w) := by
  have haccept := h.member hv "accept"
  unfold offerOf
  rw [optionalStr_same h hv, optionalStr_same h hv]
  generalize v.member "accept" = x at haccept
  generalize w.member "accept" = y at haccept
  rcases haccept with hsame | _
  · rcases optionalStr w "finality" with _ | finality
    · exact .none
    · rcases optionalStr w "merchantNet" with _ | merchantNet
      · exact .none
      · exact .some ⟨hsame, rfl, rfl, h.member hv "twoLeg"⟩
  · exact .none

theorem vectorEntryValue_all {P : StrictValue → Prop} (hP : Composes P) (e : VectorEntry) :
    P (vectorEntryValue e) := by
  refine hP.object _ (by simp) fun m hm => ?_
  simp only [List.mem_cons, List.not_mem_nil, or_false] at hm
  rcases hm with rfl | rfl | rfl <;> exact hP.string _

theorem offerValue_all {P : StrictValue → Prop} (hP : Composes P) {o : Offer} (h : o.All P) :
    P (offerValue o) := by
  obtain ⟨haccept, htwoLeg⟩ := h
  obtain ⟨accept, finality, merchantNet, twoLeg⟩ := o
  refine hP.object _ ?_ fun m hm => ?_
  · cases finality <;> cases merchantNet <;> cases twoLeg <;> simp
  · simp only [List.mem_append, List.mem_singleton, Option.mem_toList, Option.map_eq_some_iff] at hm
    obtain ((rfl | ⟨f, -, rfl⟩) | ⟨mn, -, rfl⟩) | ⟨tl, htl, rfl⟩ := hm
    · exact haccept
    · exact hP.string f
    · exact hP.string mn
    · exact htwoLeg tl htl

theorem vectorEntryValue_same {e e' : VectorEntry}
    (h : (vectorEntryValue e).Same (vectorEntryValue e')) : e = e' := by
  have hread := vectorEntryOf_same h (vectorEntryValue_all strict_composes e)
  rw [vectorEntryOf_value, vectorEntryOf_value] at hread
  exact Option.some.inj hread

theorem offerValue_same {o o' : Offer} (ho : o.Strict) :
    (offerValue o).Same (offerValue o') ↔ o.Same o' := by
  constructor
  · intro h
    have hread := offerOf_same h (offerValue_all strict_composes ho)
    rw [offerOf_value, offerOf_value] at hread
    exact Option.rel_some_some.1 hread
  · rintro ⟨haccept, hfinality, hnet, htwoLeg⟩
    obtain ⟨accept, finality, merchantNet, twoLeg⟩ := o
    obtain ⟨accept', finality', merchantNet', twoLeg'⟩ := o'
    simp only at haccept hfinality hnet htwoLeg
    subst hfinality hnet
    refine .object (.refl _) ?_ ?_
    · cases htwoLeg <;> simp
    · cases htwoLeg <;> cases finality <;> cases merchantNet <;> simp [*]

theorem forall₂_offerValue {offers offers' : List Offer} (h : ∀ o ∈ offers, o.Strict) :
    List.Forall₂ (fun o o' => (offerValue o).Same (offerValue o')) offers offers' ↔
      List.Forall₂ Offer.Same offers offers' := by
  have hstrict : ∀ {R : Offer → Offer → Prop}, List.Forall₂ R offers offers' →
      List.Forall₂ (fun o o' => o.Strict ∧ R o o') offers offers' := fun hR =>
    (List.forall₂_and_left (p := Offer.Strict) offers offers').2 ⟨h, hR⟩
  constructor
  · intro hsame
    exact (hstrict hsame).imp fun _ _ ho => (offerValue_same ho.1).1 ho.2
  · intro hsame
    exact (hstrict hsame).imp fun _ _ ho => (offerValue_same ho.1).2 ho.2

theorem toValue_all {P : StrictValue → Prop} (hP : Composes P) {q : Quote}
    (h : ∀ o ∈ q.offers, o.All P) (includeSig : Bool) : P (toValue codec q includeSig) := by
  refine hP.object _ ?_ fun m hm => ?_
  · cases includeSig <;> cases q.signature <;> simp
  simp only [List.mem_append, List.mem_cons, List.not_mem_nil, or_false] at hm
  obtain (rfl | rfl | rfl | rfl | rfl | rfl | rfl | rfl | rfl | rfl | rfl | rfl | rfl) | hsig := hm
  case inl.inr.inr.inr.inr.inr.inr.inr.inr.inr.inr.inr.inl =>
    refine hP.array _ fun v hv => ?_
    obtain ⟨e, -, rfl⟩ := List.mem_map.1 hv
    exact vectorEntryValue_all hP e
  case inl.inr.inr.inr.inr.inr.inr.inr.inr.inr.inr.inr.inr =>
    refine hP.array _ fun v hv => ?_
    obtain ⟨o, ho, rfl⟩ := List.mem_map.1 hv
    exact offerValue_all hP (h o ho)
  case inr =>
    cases includeSig
    · simp at hsig
    · simp only [if_true, Option.mem_toList, Option.map_eq_some_iff] at hsig
      obtain ⟨sig, -, rfl⟩ := hsig
      exact hP.string _
  all_goals exact hP.string _

theorem toValue_strict {q : Quote} (h : ∀ o ∈ q.offers, o.Strict) (includeSig : Bool) :
    (toValue codec q includeSig).Strict := toValue_all strict_composes h includeSig

theorem toValue_same (hb64 : ∀ bytes, codec.b64Decode (codec.b64 bytes) = some bytes)
    {q q' : Quote} (h : ∀ o ∈ q.offers, o.Strict) :
    (toValue codec q false).Same (toValue codec q' false) ↔ q.Same q' := by
  have hb64inj : Function.Injective codec.b64 := fun a b hab =>
    Option.some.inj (by rw [← hb64 a, hab, hb64])
  constructor
  · intro hsame
    have hstr := hsame.memberStr (toValue_strict h false)
    have hmember := hsame.member (toValue_strict h false)
    have hvector := hmember "vector"
    have hoffers := hmember "offers"
    have hv := hstr "v"
    have hresource := hstr "resource"
    have hnonce := hstr "nonce"
    have hexp := hstr "exp"
    have hidem := hstr "idem"
    have hschema := hstr "schema"
    have hcontract := hstr "contract"
    have hregistry := hstr "registry"
    have hbaseline := hstr "baseline"
    have hgrace := hstr "grace"
    have hretry := hstr "retry"
    obtain ⟨v, resource, nonce, exp, idem, schema, contract, registry, baseline, grace, retry,
      vector, offers, signature⟩ := q
    obtain ⟨v', resource', nonce', exp', idem', schema', contract', registry', baseline', grace',
      retry', vector', offers', signature'⟩ := q'
    clear hsame hstr hmember
    simp [toValue, StrictValue.memberStr, StrictValue.member, StrictValue.asStr, same_array_iff,
      hb64inj.eq_iff, List.Vector.toList_injective.eq_iff] at *
    have hentries : vector = vector' :=
      List.forall₂_eq_eq_eq ▸ hvector.imp fun _ _ => vectorEntryValue_same
    refine ⟨(forall₂_offerValue h).1 hoffers, ?_⟩
    subst hv hresource hnonce hexp hidem hschema hcontract hregistry hbaseline hgrace hretry
    rw [hentries]
  · rintro ⟨hoffers, hfields⟩
    obtain ⟨v, resource, nonce, exp, idem, schema, contract, registry, baseline, grace, retry,
      vector, offers, signature⟩ := q
    obtain ⟨v', resource', nonce', exp', idem', schema', contract', registry', baseline', grace',
      retry', vector', offers', signature'⟩ := q'
    simp only [Quote.mk.injEq, and_true] at hoffers hfields h
    obtain ⟨rfl, rfl, rfl, rfl, rfl, rfl, rfl, rfl, rfl, rfl, rfl, rfl⟩ := hfields
    refine .object (.refl _) (by simp) ?_
    simpa [same_array_iff, forall₂_offerValue h] using
      ⟨fun e _ => (vectorEntryValue_all strict_composes e).refl, hoffers⟩

end Quote

/-! ## Receipts -/

namespace Receipt

open StrictValue

variable {codec : TextCodec}

/-- The same receipt, but for its signature and the order of members in the entry it mirrors. -/
structure Same (r r' : Receipt) : Prop where
  accept : r.rest.accept.Same r'.rest.accept
  nonce : r.nonce = r'.nonce
  idem : r.idem = r'.idem
  resource : r.resource = r'.resource
  paid : r.rest.paid = r'.rest.paid
  entry : r.rest.entry = r'.rest.entry
  ts : r.rest.ts = r'.rest.ts

theorem paidLegOf_value (p : PaidLeg) : paidLegOf (legValue p) = some p := by
  simp [paidLegOf, legValue, StrictValue.memberStr, StrictValue.member, StrictValue.asStr]

theorem paidLegOf_same {v w : StrictValue} (h : v.Same w) (hv : v.Strict) :
    paidLegOf v = paidLegOf w := by
  unfold paidLegOf
  rw [h.memberStr hv "leg", h.memberStr hv "network", h.memberStr hv "ref"]

theorem legValue_all {P : StrictValue → Prop} (hP : Composes P) (p : PaidLeg) :
    P (legValue p) := by
  refine hP.object _ (by simp) fun m hm => ?_
  simp only [List.mem_cons, List.not_mem_nil, or_false] at hm
  rcases hm with rfl | rfl | rfl <;> exact hP.string _

theorem legValue_same {p p' : PaidLeg} (h : (legValue p).Same (legValue p')) : p = p' := by
  have hread := paidLegOf_same h (legValue_all strict_composes p)
  rw [paidLegOf_value, paidLegOf_value] at hread
  exact Option.some.inj hread

/-- The members are texts, but for the entry and the legs. -/
theorem toValue_members (r : Receipt) (includeSig : Bool) :
    ∃ members, toValue codec r includeSig = .object members ∧ (members.map Prod.fst).Nodup ∧
      ∀ m ∈ members, (∃ s, m.2 = .string s) ∨ m.2 = r.rest.accept ∨
        m.2 = .array (r.rest.paid.map legValue) := by
  refine ⟨_, rfl, ?_, fun m hm => ?_⟩
  · cases r.rest.entry <;> cases includeSig <;> cases r.rest.signature <;> simp
  simp only [List.mem_append, List.mem_cons, List.not_mem_nil, or_false, Option.mem_toList,
    Option.map_eq_some_iff] at hm
  obtain (((rfl | rfl | rfl | rfl | rfl | rfl) | ⟨e, -, rfl⟩) | rfl) | hsig := hm
  case inl.inl.inl.inr.inr.inr.inr.inl => exact .inr (.inl rfl)
  case inl.inl.inl.inr.inr.inr.inr.inr => exact .inr (.inr rfl)
  case inl.inl.inr => exact .inl ⟨_, rfl⟩
  case inl.inr => exact .inl ⟨_, rfl⟩
  case inr =>
    cases includeSig
    · simp at hsig
    · simp only [if_true, Option.mem_toList, Option.map_eq_some_iff] at hsig
      obtain ⟨sig, -, rfl⟩ := hsig
      exact .inl ⟨_, rfl⟩
  all_goals exact .inl ⟨_, rfl⟩

theorem toValue_all {P : StrictValue → Prop} (hP : Composes P) {r : Receipt}
    (h : P r.rest.accept) (includeSig : Bool) : P (toValue codec r includeSig) := by
  obtain ⟨members, hvalue, hnodup, hmembers⟩ := @toValue_members codec r includeSig
  rw [hvalue]
  refine hP.object _ hnodup fun m hm => ?_
  obtain ⟨s, hs⟩ | haccept | hpaid := hmembers m hm
  · exact hs ▸ hP.string s
  · exact haccept ▸ h
  · rw [hpaid]
    refine hP.array _ fun v hv => ?_
    obtain ⟨p, -, rfl⟩ := List.mem_map.1 hv
    exact legValue_all hP p

theorem toValue_strict {r : Receipt} (h : r.rest.accept.Strict) (includeSig : Bool) :
    (toValue codec r includeSig).Strict := toValue_all strict_composes h includeSig

theorem toValue_same (hb64 : ∀ bytes, codec.b64Decode (codec.b64 bytes) = some bytes)
    {r r' : Receipt} (h : r.rest.accept.Strict) :
    (toValue codec r false).Same (toValue codec r' false) ↔ r.Same r' := by
  have hb64inj : Function.Injective codec.b64 := fun a b hab =>
    Option.some.inj (by rw [← hb64 a, hab, hb64])
  constructor
  · intro hsame
    have hstr := hsame.memberStr (toValue_strict h false)
    have hmember := hsame.member (toValue_strict h false)
    have haccept := hmember "accept"
    have hpaid := hmember "paid"
    have hnonce := hstr "nonce"
    have hidem := hstr "idem"
    have hresource := hstr "resource"
    have hentry := hstr "entry"
    have hts := hstr "ts"
    obtain ⟨nonce, idem, resource, accept, paid, entry, ts, signature⟩ := r
    obtain ⟨nonce', idem', resource', accept', paid', entry', ts', signature'⟩ := r'
    clear hsame hstr hmember
    cases entry <;> cases entry' <;>
      simp [toValue, StrictValue.memberStr, StrictValue.member, StrictValue.asStr, same_array_iff,
        hb64inj.eq_iff, List.Vector.toList_injective.eq_iff] at *
    all_goals
      have hlegs : paid = paid' := List.forall₂_eq_eq_eq ▸ hpaid.imp fun _ _ => legValue_same
      exact ⟨haccept, hnonce, hidem, hresource, hlegs, by simp [hentry], hts⟩
  · rintro ⟨haccept, hnonce, hidem, hresource, hpaid, hentry, hts⟩
    obtain ⟨nonce, idem, resource, accept, paid, entry, ts, signature⟩ := r
    obtain ⟨nonce', idem', resource', accept', paid', entry', ts', signature'⟩ := r'
    simp only at haccept hnonce hidem hresource hpaid hentry hts
    subst hnonce hidem hresource hpaid hentry hts
    refine .object (.refl _) (by cases entry <;> simp) ?_
    cases entry <;>
      simpa [same_array_iff] using ⟨haccept, fun p _ => (legValue_all strict_composes p).refl⟩

end Receipt

/-! ## Documents -/

namespace Quote

variable {codec : TextCodec}

/-- What the members of a document say of the quote that is read from it. -/
structure Fields (codec : TextCodec) (obj : StrictValue) (q : Quote) : Prop where
  v : obj.memberStr "v" = some q.v
  resource : obj.memberStr "resource" = some q.resource
  nonce : ((obj.memberStr "nonce").bind codec.b64Decode).bind (ByteArr.ofBytes? 32) = some q.nonce
  exp : (obj.memberStr "exp").bind (Jcs.parseCanonical MAX_TIME) = some q.exp
  idem : (obj.memberStr "idem").bind codec.b64Decode = some q.idem
  schema : (obj.memberStr "schema").bind (Jcs.parseCanonical U32_MAX) = some q.schema
  contract : (obj.memberStr "contract").bind (Jcs.parseCanonical U32_MAX) = some q.contract
  registry : (obj.memberStr "registry").bind (Jcs.parseCanonical U32_MAX) = some q.registry
  baseline : obj.memberStr "baseline" = some q.baseline
  grace : (obj.memberStr "grace").bind (Jcs.parseCanonical MAX_TIME) = some q.grace
  retry : (obj.memberStr "retry").bind (Jcs.parseCanonical MAX_TIME) = some q.retry
  vector : ((obj.member "vector").bind arrayOf).bind (·.mapM vectorEntryOf) = some q.vector
  offers : ((obj.member "offers").bind arrayOf).bind (·.mapM offerOf) = some q.offers

theorem fromMembers_some {obj : StrictValue} {q : Quote} (h : fromMembers codec obj = some q) :
    Fields codec obj q := by
  unfold fromMembers at h
  obtain ⟨v, hv, h⟩ := Option.bind_eq_some_iff.1 h
  by_cases hone : v != "1"
  · rw [if_pos hone] at h
    cases h
  rw [if_neg hone] at h
  obtain ⟨nonce, hnonce, h⟩ := Option.bind_eq_some_iff.1 h
  obtain ⟨idem, hidem, h⟩ := Option.bind_eq_some_iff.1 h
  by_cases hlen : idem = [] ∨ idem.length > 64
  · rw [if_pos hlen] at h
    cases h
  rw [if_neg hlen] at h
  obtain ⟨vector, hvector, h⟩ := Option.bind_eq_some_iff.1 h
  obtain ⟨offers, hoffers, h⟩ := Option.bind_eq_some_iff.1 h
  rcases hsig : obj.memberStr "signature" with _ | s <;> rw [hsig] at h <;>
    obtain ⟨signature, -, h⟩ := Option.bind_eq_some_iff.1 h <;>
    obtain ⟨resource, hresource, h⟩ := Option.bind_eq_some_iff.1 h <;>
    obtain ⟨exp, hexp, h⟩ := Option.bind_eq_some_iff.1 h <;>
    obtain ⟨schema, hschema, h⟩ := Option.bind_eq_some_iff.1 h <;>
    obtain ⟨contract, hcontract, h⟩ := Option.bind_eq_some_iff.1 h <;>
    obtain ⟨registry, hregistry, h⟩ := Option.bind_eq_some_iff.1 h <;>
    obtain ⟨baseline, hbaseline, h⟩ := Option.bind_eq_some_iff.1 h <;>
    obtain ⟨grace, hgrace, h⟩ := Option.bind_eq_some_iff.1 h <;>
    obtain ⟨retry, hretry, h⟩ := Option.bind_eq_some_iff.1 h <;>
    obtain rfl := Option.some.inj h <;>
    exact ⟨hv, hresource, hnonce, hexp, hidem, hschema, hcontract, hregistry, hbaseline, hgrace,
      hretry, hvector, hoffers⟩

theorem signedMembers_eq_some {value unsigned : StrictValue} {sig : ByteArr 64} :
    signedMembers codec value = some (unsigned, sig) ↔
      ∃ members, value = .object members ∧
        (members.filter fun m => m.1 == "signature").length = 1 ∧
        ((value.memberStr "signature").bind codec.b64Decode).bind (ByteArr.ofBytes? 64) =
          some sig ∧
        unsigned = .object (members.filter fun m => m.1 != "signature") := by
  rcases value with _ | _ | _ | _ | _ | members
  case object =>
    unfold signedMembers
    generalize (((StrictValue.object members).memberStr "signature").bind codec.b64Decode).bind
      (ByteArr.ofBytes? 64) = read
    by_cases hone : (members.filter fun m => m.1 == "signature").length = 1
    · cases read <;> simp [hone, and_comm, eq_comm]
    · simp [hone]
  all_goals simp [signedMembers]

/-- The members that are signed are those of the document. -/
theorem signedMembers_member {value unsigned : StrictValue} {sig : ByteArr 64}
    (h : signedMembers codec value = some (unsigned, sig)) {key : String}
    (hkey : key ≠ "signature") :
    value.member key = unsigned.member key := by
  obtain ⟨members, rfl, -, -, rfl⟩ := signedMembers_eq_some.1 h
  have hboth : ∀ m : String × StrictValue,
      decide ((m.1 != "signature") = true ∧ (m.1 == key) = true) = (m.1 == key) := by
    intro m
    by_cases hm : m.1 = key
    · simp [hm, hkey]
    · simp [hm]
  simp only [StrictValue.member, List.find?_filter, hboth]

theorem signedMembers_strict {value unsigned : StrictValue} {sig : ByteArr 64}
    (h : signedMembers codec value = some (unsigned, sig)) (hv : value.Strict) :
    unsigned.Strict := by
  obtain ⟨members, rfl, -, -, rfl⟩ := signedMembers_eq_some.1 h
  cases hv with
  | object nodup hmembers =>
    exact .object (nodup.sublist (List.filter_sublist.map Prod.fst)) fun m hm =>
      hmembers m (List.mem_filter.1 hm).1

theorem arrayOf_same {v w : StrictValue} (h : v.Same w) (hv : v.Strict) :
    Option.Rel (List.Forall₂ fun v w => v.Strict ∧ v.Same w) (arrayOf v) (arrayOf w) := by
  cases h with
  | array hitems =>
    cases hv with
    | array hstrict => exact .some ((List.forall₂_and_left _ _).2 ⟨hstrict, hitems⟩)
  | _ => exact .none

/-- Items of the same arrays are read alike. -/
theorem items_same {β : Type} {S : β → β → Prop} {f : StrictValue → Option β}
    (hf : ∀ v w, v.Strict ∧ v.Same w → Option.Rel S (f v) (f w)) {obj obj' : StrictValue}
    (hobj : obj.Strict) (h : obj.Same obj') (key : String) :
    Option.Rel (List.Forall₂ S) (((obj.member key).bind arrayOf).bind (·.mapM f))
      (((obj'.member key).bind arrayOf).bind (·.mapM f)) := by
  have hmember := h.member hobj key
  have hstrict : ∀ v, obj.member key = some v → v.Strict := fun _ => hobj.member
  generalize obj.member key = x at hmember hstrict
  generalize obj'.member key = y at hmember
  rcases hmember with hsame | _
  · rename_i v w
    have harray := arrayOf_same hsame (hstrict v rfl)
    simp only [Option.bind_some]
    generalize arrayOf v = xs at harray
    generalize arrayOf w = ys at harray
    rcases harray with hitems | _
    · exact rel_mapM hf hitems
    · exact .none
  · exact .none

theorem signedMembers_memberStr {value unsigned : StrictValue} {sig : ByteArr 64}
    (h : signedMembers codec value = some (unsigned, sig)) {key : String}
    (hkey : key ≠ "signature") :
    value.memberStr key = unsigned.memberStr key := by
  unfold StrictValue.memberStr
  rw [signedMembers_member h hkey]

theorem Fields.signed {value unsigned : StrictValue} {sig : ByteArr 64} {q : Quote}
    (hm : signedMembers codec value = some (unsigned, sig)) (h : Fields codec value q) :
    Fields codec unsigned q := by
  have hstr : ∀ key ≠ "signature", value.memberStr key = unsigned.memberStr key :=
    fun _ => signedMembers_memberStr hm
  have hmember : ∀ key ≠ "signature", value.member key = unsigned.member key :=
    fun _ => signedMembers_member hm
  obtain ⟨hv, hresource, hnonce, hexp, hidem, hschema, hcontract, hregistry, hbaseline, hgrace,
    hretry, hvector, hoffers⟩ := h
  rw [hstr _ (by decide)] at hv hresource hnonce hexp hidem hschema hcontract hregistry hbaseline
  rw [hstr _ (by decide)] at hgrace hretry
  rw [hmember _ (by decide)] at hvector hoffers
  exact ⟨hv, hresource, hnonce, hexp, hidem, hschema, hcontract, hregistry, hbaseline, hgrace,
    hretry, hvector, hoffers⟩

theorem vectors_same {obj obj' : StrictValue} (hobj : obj.Strict) (h : obj.Same obj') :
    Option.Rel Eq (((obj.member "vector").bind arrayOf).bind (·.mapM vectorEntryOf))
      (((obj'.member "vector").bind arrayOf).bind (·.mapM vectorEntryOf)) := by
  rw [← List.forall₂_eq_eq_eq]
  refine items_same (fun v w hvw => ?_) hobj h "vector"
  rw [vectorEntryOf_same hvw.2 hvw.1]
  rcases vectorEntryOf w with _ | e
  · exact .none
  · exact .some rfl

theorem offers_same {obj obj' : StrictValue} (hobj : obj.Strict) (h : obj.Same obj') :
    Option.Rel (List.Forall₂ Offer.Same)
      (((obj.member "offers").bind arrayOf).bind (·.mapM offerOf))
      (((obj'.member "offers").bind arrayOf).bind (·.mapM offerOf)) :=
  items_same (fun _ _ hvw => offerOf_same hvw.2 hvw.1) hobj h "offers"

theorem Fields.same {obj obj' : StrictValue} {q q' : Quote} (hobj : obj.Strict)
    (hsame : obj.Same obj') (h : Fields codec obj q) (h' : Fields codec obj' q') : q.Same q' := by
  have hstr := hsame.memberStr hobj
  have hvector := vectors_same hobj hsame
  have hoffers := offers_same hobj hsame
  rw [h.vector, h'.vector, Option.rel_some_some] at hvector
  rw [h.offers, h'.offers, Option.rel_some_some] at hoffers
  refine ⟨hoffers, ?_⟩
  obtain ⟨hv, hresource, hnonce, hexp, hidem, hschema, hcontract, hregistry, hbaseline, hgrace,
    hretry, -, -⟩ := h
  obtain ⟨hv', hresource', hnonce', hexp', hidem', hschema', hcontract', hregistry', hbaseline',
    hgrace', hretry', -, -⟩ := h'
  rw [hstr _] at hv hresource hnonce hexp hidem hschema hcontract hregistry hbaseline hgrace hretry
  have hall : ∀ {α : Type} {read : Option α} {a a' : α}, read = some a → read = some a' → a = a' :=
    fun ha ha' => Option.some.inj (ha.symm.trans ha')
  rw [hall hv hv', hall hresource hresource', hall hnonce hnonce', hall hexp hexp',
    hall hidem hidem', hall hschema hschema', hall hcontract hcontract', hall hregistry hregistry',
    hall hbaseline hbaseline', hall hgrace hgrace', hall hretry hretry', hvector]

theorem parseVerify_some {suite : Suite} {json : String} {pk : ByteArr 32} {q : Quote}
    (h : parseVerify codec suite json pk = some q) :
    ∃ value unsigned sig, codec.parseStrict json = some value ∧
      signedMembers codec value = some (unsigned, sig) ∧
      suite.ed25519VerifyStrict pk (covered .reqs (Jcs.toJcs unsigned)) sig = true ∧
      fromMembers codec value = some q := by
  unfold parseVerify at h
  obtain ⟨value, hvalue, h⟩ := Option.bind_eq_some_iff.1 h
  obtain ⟨⟨unsigned, sig⟩, hmembers, h⟩ := Option.bind_eq_some_iff.1 h
  rcases hverify : suite.ed25519VerifyStrict pk (covered .reqs (Jcs.toJcs unsigned)) sig with _ | _
  · simp [hverify] at h
  · simp only [hverify, Bool.not_true, Bool.false_eq_true, if_false] at h
    exact ⟨value, unsigned, sig, hvalue, hmembers, hverify, h⟩

end Quote

namespace Receipt

variable {codec : TextCodec}

/-- What the members of a document say of the receipt that is read from it. -/
structure Fields (codec : TextCodec) (obj : StrictValue) (r : Receipt) : Prop where
  nonce : ((obj.memberStr "nonce").bind codec.b64Decode).bind (ByteArr.ofBytes? 32) = some r.nonce
  idem : (obj.memberStr "idem").bind codec.b64Decode = some r.idem
  resource : obj.memberStr "resource" = some r.resource
  accept : obj.member "accept" = some r.rest.accept
  paid : ((obj.member "paid").bind Quote.arrayOf).bind (·.mapM paidLegOf) = some r.rest.paid
  entry : ((obj.member "entry").elim (some none) fun w =>
    ((w.asStr.bind codec.b64Decode).bind (ByteArr.ofBytes? 32)).map some) = some r.rest.entry
  ts : (obj.memberStr "ts").bind (Jcs.parseCanonical U64_MAX) = some r.rest.ts

theorem parseVerify_some {suite : Suite} {json : String} {pk : ByteArr 32} {r : Receipt}
    (h : parseVerify codec suite json pk = some r) :
    ∃ value unsigned sig, codec.parseStrict json = some value ∧
      Quote.signedMembers codec value = some (unsigned, sig) ∧
      suite.ed25519VerifyStrict pk (covered .receipt (Jcs.toJcs unsigned)) sig = true ∧
      Fields codec value r ∧ validatePaid r.rest.paid = true ∧
        r.rest.entry.isSome = (r.rest.paid.map PaidLeg.leg == ["meed", "net"]) := by
  unfold parseVerify at h
  obtain ⟨value, hvalue, h⟩ := Option.bind_eq_some_iff.1 h
  obtain ⟨⟨unsigned, sig⟩, hmembers, h⟩ := Option.bind_eq_some_iff.1 h
  rcases hverify : suite.ed25519VerifyStrict pk (covered .receipt (Jcs.toJcs unsigned)) sig with
    _ | _
  · simp [hverify] at h
  · simp only [hverify, Bool.not_true, Bool.false_eq_true, if_false] at h
    refine ⟨value, unsigned, sig, hvalue, hmembers, hverify, ?_⟩
    obtain ⟨v, -, h⟩ := Option.bind_eq_some_iff.1 h
    by_cases hone : v != "1"
    · rw [if_pos hone] at h
      cases h
    rw [if_neg hone] at h
    obtain ⟨nonce, hnonce, h⟩ := Option.bind_eq_some_iff.1 h
    obtain ⟨paid, hpaid, h⟩ := Option.bind_eq_some_iff.1 h
    by_cases hshape : !validatePaid paid
    · rw [if_pos hshape] at h
      cases h
    rw [if_neg hshape] at h
    rcases hentry : value.member "entry" with _ | w
    all_goals
      rw [hentry] at h
      obtain ⟨entry, he, h⟩ := Option.bind_eq_some_iff.1 h
      by_cases hlegs : entry.isSome != (paid.map PaidLeg.leg == ["meed", "net"])
      · rw [if_pos hlegs] at h
        cases h
      rw [if_neg hlegs] at h
      obtain ⟨ts, hts, h⟩ := Option.bind_eq_some_iff.1 h
      obtain ⟨idem, hidem, h⟩ := Option.bind_eq_some_iff.1 h
      obtain ⟨resource, hresource, h⟩ := Option.bind_eq_some_iff.1 h
      obtain ⟨accept, haccept, h⟩ := Option.bind_eq_some_iff.1 h
      obtain rfl := Option.some.inj h
      refine ⟨⟨hnonce, hidem, hresource, haccept, hpaid, by rw [hentry]; exact he, hts⟩, ?_, ?_⟩
      · simpa using hshape
      · simpa using hlegs

theorem Fields.signed {value unsigned : StrictValue} {sig : ByteArr 64} {r : Receipt}
    (hm : Quote.signedMembers codec value = some (unsigned, sig)) (h : Fields codec value r) :
    Fields codec unsigned r := by
  have hstr : ∀ key ≠ "signature", value.memberStr key = unsigned.memberStr key :=
    fun _ => Quote.signedMembers_memberStr hm
  have hmember : ∀ key ≠ "signature", value.member key = unsigned.member key :=
    fun _ => Quote.signedMembers_member hm
  obtain ⟨hnonce, hidem, hresource, haccept, hpaid, hentry, hts⟩ := h
  rw [hstr _ (by decide)] at hnonce hidem hresource hts
  rw [hmember _ (by decide)] at haccept hpaid hentry
  exact ⟨hnonce, hidem, hresource, haccept, hpaid, hentry, hts⟩

theorem paid_same {obj obj' : StrictValue} (hobj : obj.Strict) (h : obj.Same obj') :
    Option.Rel Eq (((obj.member "paid").bind Quote.arrayOf).bind (·.mapM paidLegOf))
      (((obj'.member "paid").bind Quote.arrayOf).bind (·.mapM paidLegOf)) := by
  rw [← List.forall₂_eq_eq_eq]
  refine Quote.items_same (fun v w hvw => ?_) hobj h "paid"
  rw [paidLegOf_same hvw.2 hvw.1]
  rcases paidLegOf w with _ | p
  · exact .none
  · exact .some rfl

theorem Fields.same {obj obj' : StrictValue} {r r' : Receipt} (hobj : obj.Strict)
    (hsame : obj.Same obj') (h : Fields codec obj r) (h' : Fields codec obj' r') : r.Same r' := by
  have hstr := hsame.memberStr hobj
  have hmember := hsame.member hobj
  have hpaid := paid_same hobj hsame
  have haccept := hmember "accept"
  rw [h.paid, h'.paid, Option.rel_some_some] at hpaid
  rw [h.accept, h'.accept, Option.rel_some_some] at haccept
  have hentry : r.rest.entry = r'.rest.entry := by
    have he := h.entry
    have he' := h'.entry
    have hrel := hmember "entry"
    generalize obj.member "entry" = x at he hrel
    generalize obj'.member "entry" = y at he' hrel
    rcases hrel with hvw | _
    · rw [Option.elim_some, hvw.asStr] at he
      exact Option.some.inj (he.symm.trans he')
    · exact Option.some.inj (he.symm.trans he')
  obtain ⟨hnonce, hidem, hresource, -, -, -, hts⟩ := h
  obtain ⟨hnonce', hidem', hresource', -, -, -, hts'⟩ := h'
  rw [hstr _] at hnonce hidem hresource hts
  have hall : ∀ {α : Type} {read : Option α} {a a' : α}, read = some a → read = some a' → a = a' :=
    fun ha ha' => Option.some.inj (ha.symm.trans ha')
  exact ⟨haccept, hall hnonce hnonce', hall hidem hidem', hall hresource hresource', hpaid, hentry,
    hall hts hts'⟩

end Receipt

/-! ## What is covered -/

/-- The bytes of a document that its signature covers. -/
def signedBytes (codec : TextCodec) (label : DomainLabel) (json : String) : Option Bytes := do
  let value ← codec.parseStrict json
  let signed ← Quote.signedMembers codec value
  return covered label (Jcs.toJcs signed.1)

section Covered

variable {codec : TextCodec} {suite : Suite}

theorem covered_eq_iff {label : DomainLabel} {v w : StrictValue} (hv : v.Strict) (hw : w.Strict) :
    covered label (Jcs.toJcs v) = covered label (Jcs.toJcs w) ↔ v.Same w := by
  rw [← StrictValue.toJcs_eq_iff hv hw]
  constructor
  · exact fun h => (covered_inj h).2
  · exact fun h => by rw [h]

/-- Documents of the same signed bytes have the same members. -/
theorem signedBytes_same {label : DomainLabel} {json json' : String}
    {value value' unsigned unsigned' : StrictValue} {sig sig' : ByteArr 64}
    (hread : codec.parseStrict json = some value) (hread' : codec.parseStrict json' = some value')
    (hm : Quote.signedMembers codec value = some (unsigned, sig))
    (hm' : Quote.signedMembers codec value' = some (unsigned', sig'))
    (hv : value.Strict) (hv' : value'.Strict)
    (h : signedBytes codec label json = signedBytes codec label json') :
    unsigned.Same unsigned' := by
  simp only [signedBytes, hread, hread', hm, hm', Option.bind_eq_bind, Option.bind_some,
    Option.pure_def, Option.some.injEq] at h
  exact (covered_eq_iff (Quote.signedMembers_strict hm hv) (Quote.signedMembers_strict hm' hv')).1 h

/-- Values are written in canonical bytes that tell them, up to the order of members. So no quotes
or receipts of different contents have the same signed bytes, be they to be signed or read, and
just the offers of the same content mirror each other. -/
theorem signed_content (hb64 : ∀ bytes, codec.b64Decode (codec.b64 bytes) = some bytes)
    (hstrict : ∀ json value, codec.parseStrict json = some value → value.Strict) :
    (∀ v w : StrictValue, v.Strict → w.Strict → (Jcs.toJcs v = Jcs.toJcs w ↔ v.Same w)) ∧
    (∀ q q' : Quote, (∀ o ∈ q.offers, o.Strict) → (∀ o ∈ q'.offers, o.Strict) →
      (covered .reqs (Jcs.toJcs (q.toValue codec false)) =
        covered .reqs (Jcs.toJcs (q'.toValue codec false)) ↔ q.Same q')) ∧
    (∀ r r' : Receipt, r.rest.accept.Strict → r'.rest.accept.Strict →
      (covered .receipt (Jcs.toJcs (Receipt.toValue codec r false)) =
        covered .receipt (Jcs.toJcs (Receipt.toValue codec r' false)) ↔ r.Same r')) ∧
    (∀ (q : Quote) (r : Receipt), covered .reqs (Jcs.toJcs (q.toValue codec false)) ≠
      covered .receipt (Jcs.toJcs (Receipt.toValue codec r false))) ∧
    (∀ json json' pk pk' q q', Quote.parseVerify codec suite json pk = some q →
      Quote.parseVerify codec suite json' pk' = some q' →
      signedBytes codec .reqs json = signedBytes codec .reqs json' → q.Same q') ∧
    (∀ json json' pk pk' r r', Receipt.parseVerify codec suite json pk = some r →
      Receipt.parseVerify codec suite json' pk' = some r' →
      signedBytes codec .receipt json = signedBytes codec .receipt json' → r.Same r') ∧
    ∀ a b : Offer, a.Strict → b.Strict → (Wallet.offerMirrors a b = true ↔ a.Same b) := by
  refine ⟨fun v w => StrictValue.toJcs_eq_iff, ?_, ?_, ?_, ?_, ?_, fun a b =>
    Wallet.offerMirrors_iff⟩
  · intro q q' hq hq'
    rw [covered_eq_iff (Quote.toValue_strict hq false) (Quote.toValue_strict hq' false)]
    exact Quote.toValue_same hb64 hq
  · intro r r' hr hr'
    rw [covered_eq_iff (Receipt.toValue_strict hr false) (Receipt.toValue_strict hr' false)]
    exact Receipt.toValue_same hb64 hr
  · intro q r h
    exact absurd (covered_inj h).1 (by decide)
  · intro json json' pk pk' q q' h h' hbytes
    obtain ⟨value, unsigned, sig, hread, hm, -, hq⟩ := Quote.parseVerify_some h
    obtain ⟨value', unsigned', sig', hread', hm', -, hq'⟩ := Quote.parseVerify_some h'
    have hv := hstrict json value hread
    have hsame := signedBytes_same hread hread' hm hm' hv (hstrict json' value' hread') hbytes
    exact ((Quote.fromMembers_some hq).signed hm).same (Quote.signedMembers_strict hm hv) hsame
      ((Quote.fromMembers_some hq').signed hm')
  · intro json json' pk pk' r r' h h' hbytes
    obtain ⟨value, unsigned, sig, hread, hm, -, hr, -⟩ := Receipt.parseVerify_some h
    obtain ⟨value', unsigned', sig', hread', hm', -, hr', -⟩ := Receipt.parseVerify_some h'
    have hv := hstrict json value hread
    have hsame := signedBytes_same hread hread' hm hm' hv (hstrict json' value' hread') hbytes
    exact (hr.signed hm).same (Quote.signedMembers_strict hm hv) hsame (hr'.signed hm')

end Covered

namespace Shop

theorem offerOf_strict (amount : ℕ) : (offerOf amount).Strict where
  accept := by
    refine .object (by simp) fun m hm => ?_
    simp only [List.mem_cons, List.not_mem_nil, or_false] at hm
    rcases hm with rfl | rfl | rfl | rfl | rfl | rfl | rfl | rfl | rfl
    case inr.inr.inr.inl => exact .number (by decide)
    all_goals exact .string _
  twoLeg := fun _ h => by cases h

theorem codecOf_strict {documents : List StrictValue} (h : ∀ v ∈ documents, v.Strict)
    (json : String) (value : StrictValue)
    (hread : (codecOf documents).parseStrict json = some value) :
    value.Strict :=
  h value (List.mem_of_find?_eq_some hread)

theorem readerOf_strict {q : Quote} (h : ∀ o ∈ q.offers, o.Strict) (json : String)
    (value : StrictValue) (hread : (readerOf q).parseStrict json = some value) : value.Strict := by
  refine codecOf_strict (fun v hv => ?_) json value hread
  rw [List.mem_singleton.1 hv]
  exact Quote.toValue_strict h true

/-- An offer for another amount is another one, and its quote is another quote. -/
theorem signed_content_offers :
    Wallet.offerMirrors (offerOf 100) (offerOf 101) = false ∧
      covered .reqs (Jcs.toJcs ((quoteOf 1 2 [offerOf 100]).toValue (readerOf quote) false)) ≠
        covered .reqs (Jcs.toJcs ((quoteOf 1 2 [offerOf 101]).toValue (readerOf quote) false)) := by
  have hoffers : ∀ amount, ∀ o ∈ [offerOf amount], o.Strict := fun amount o ho =>
    List.mem_singleton.1 ho ▸ offerOf_strict amount
  have hother : ¬(offerOf 100).Same (offerOf 101) := by
    rintro ⟨haccept, -⟩
    have hamount := haccept.memberStr (offerOf_strict 100).accept "maxAmountRequired"
    exact absurd hamount (by decide)
  obtain ⟨-, hquotes, -, -, -, -, hmirrors⟩ := @signed_content (readerOf quote) keyedSuite
    (codecOf_b64 _) (readerOf_strict (hoffers 100))
  constructor
  · rw [← Bool.not_eq_true, hmirrors _ _ (offerOf_strict 100) (offerOf_strict 101)]
    exact hother
  · intro hcovered
    have hsame := (hquotes _ _ (hoffers 100) (hoffers 101)).1 hcovered
    exact hother (List.forall₂_cons.1 hsame.offers).1

end Shop

end Paytp
