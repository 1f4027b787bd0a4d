import Paytp.Quote

/-!
# The offer that was approved

A wallet funds two legs on one offer of the signed quote only, which mirrors the whole offer that
was approved: their canonical texts are compared, so the order of members does not matter.
-/

namespace Paytp

namespace Wallet

def offerMirrors (a b : Offer) : Bool :=
  a.finality == b.finality && a.merchantNet == b.merchantNet &&
    Jcs.toJcs a.accept == Jcs.toJcs b.accept &&
    match a.twoLeg, b.twoLeg with
    | some x, some y => Jcs.toJcs x == Jcs.toJcs y
    | none, none => true
    | _, _ => false

/-- The one two-leg offer that mirrors the approved one. -/
def mirroredOffer (offers : List Offer) (approved : Offer) : Option Offer :=
  match offers.filter fun o => o.twoLeg.isSome && offerMirrors o approved with
  | [offer] => some offer
  | _ => none

theorem offerMirrors_refl (o : Offer) : offerMirrors o o = true := by
  unfold offerMirrors
  rcases o.twoLeg with _ | tl <;> simp

/-- The only offer of a quote is found if it is the one that was approved. -/
theorem mirroredOffer_singleton {o : Offer} (h : o.twoLeg.isSome = true) :
    mirroredOffer [o] o = some o := by
  unfold mirroredOffer
  rw [List.filter_cons, h, offerMirrors_refl]
  rfl

end Wallet

end Paytp
