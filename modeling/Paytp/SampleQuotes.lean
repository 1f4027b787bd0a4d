import Paytp.Proofs.Quotes
import Paytp.Proofs.Redemptions

/-!
# A merchant's quotes

Base64url, a reader of documents that are given beforehand, and a merchant who prices one resource
in a quote, with what pays it.
-/

namespace Paytp

namespace Shop

def base64Chars : List Char :=
  "ABCDEFGHIJKLMNOPQRSTUVWXYZabcdefghijklmnopqrstuvwxyz0123456789-_".toList

def base64Char (n : ℕ) : Char := base64Chars.getD (n % 64) 'A'

def base64Encode : Bytes → List Char
  | a :: b :: c :: rest =>
    let n := a.toNat * 65536 + b.toNat * 256 + c.toNat
    base64Char (n / 262144) :: base64Char (n / 4096) :: base64Char (n / 64) :: base64Char n ::
      base64Encode rest
  | [a, b] =>
    let n := (a.toNat * 256 + b.toNat) * 4
    [base64Char (n / 4096), base64Char (n / 64), base64Char n]
  | [a] => [base64Char (a.toNat / 4), base64Char (a.toNat * 16)]
  | [] => []

def base64Digit (c : Char) : Option ℕ := base64Chars.idxOf? c

def base64Decode : List Char → Option Bytes
  | a :: b :: c :: d :: rest => do
    let n := (← base64Digit a) * 262144 + (← base64Digit b) * 4096 + (← base64Digit c) * 64 +
      (← base64Digit d)
    return UInt8.ofNat (n / 65536) :: UInt8.ofNat (n / 256) :: UInt8.ofNat n ::
      (← base64Decode rest)
  | [a, b, c] => do
    let n := (← base64Digit a) * 4096 + (← base64Digit b) * 64 + (← base64Digit c)
    if n % 4 != 0 then none
    return [UInt8.ofNat (n / 1024), UInt8.ofNat (n / 4)]
  | [a, b] => do
    let n := (← base64Digit a) * 64 + (← base64Digit b)
    if n % 16 != 0 then none
    return [UInt8.ofNat (n / 16)]
  | [_] => none
  | [] => some []

theorem base64Digit_char (n : ℕ) : base64Digit (base64Char n) = some (n % 64) := by
  have hall : ∀ k < 64, base64Digit (base64Chars.getD k 'A') = some k := by decide
  exact hall _ (Nat.mod_lt n (by decide))

/-- What was encoded is decoded. -/
theorem base64Decode_encode (bs : Bytes) : base64Decode (base64Encode bs) = some bs := by
  fun_induction base64Encode bs with
  | case1 a b c rest n ih =>
    have ha := a.toNat_lt
    have hb := b.toNat_lt
    have hc := c.toNat_lt
    have hn : n / 262144 % 64 * 262144 + n / 4096 % 64 * 4096 + n / 64 % 64 * 64 + n % 64 = n := by
      omega
    have hfirst : UInt8.ofNat (n / 65536) = a := UInt8.toNat_inj.1 (by simp; omega)
    have hsecond : UInt8.ofNat (n / 256) = b := UInt8.toNat_inj.1 (by simp; omega)
    have hthird : UInt8.ofNat n = c := UInt8.toNat_inj.1 (by simp; omega)
    simp only [base64Decode, base64Digit_char, hn, ih, hfirst, hsecond, hthird,
      Option.bind_eq_bind, Option.bind_some, Option.pure_def]
  | case2 a b n =>
    have ha := a.toNat_lt
    have hb := b.toNat_lt
    have hn : n / 4096 % 64 * 4096 + n / 64 % 64 * 64 + n % 64 = n := by omega
    have hfirst : UInt8.ofNat (n / 1024) = a := UInt8.toNat_inj.1 (by simp; omega)
    have hsecond : UInt8.ofNat (n / 4) = b := UInt8.toNat_inj.1 (by simp; omega)
    have hrest : n % 4 = 0 := by omega
    simp [base64Decode, base64Digit_char, hn, hfirst, hsecond, hrest]
  | case3 a =>
    have ha := a.toNat_lt
    have hn : a.toNat / 4 % 64 * 64 + a.toNat * 16 % 64 = a.toNat * 16 := by omega
    simp [base64Decode, base64Digit_char, hn]
  | case4 => rfl

/-- The reader of the canonical texts of some documents. -/
def codecOf (documents : List StrictValue) : TextCodec where
  parseStrict text := documents.find? fun v => String.ofList (Jcs.writeJcs v) == text
  b64 bytes := String.ofList (base64Encode bytes)
  b64Decode text := base64Decode text.toList

def merchant : Merchant where
  signingKey := .ofNat 32 11
  key := .ofNat 32 11
  payout := "merchant"

def vector : List VectorEntry :=
  [⟨ROLE_INTERACTION_LAYER, 50, "layer"⟩, ⟨ROLE_OS, 10, "os"⟩, ⟨ROLE_WALLET, 30, "dev"⟩,
    ⟨ROLE_DEV_FUND, 10, "dev"⟩]

/-- A quote for one resource on a network, not signed yet. -/
def quoteOf (nonce : ℕ) (exp : ℕ) (offers : List Offer) : Quote where
  v := "1"
  resource := "https://shop.example/song"
  nonce := .ofNat 32 nonce
  exp
  idem := [7]
  schema := SCHEMA_V0_1
  contract := 1
  registry := 1
  baseline := "eip155:8453"
  grace := 300
  retry := 600
  vector
  offers
  signature := none

/-- The split that a quote of the merchant derives. -/
def splitAddress : String := "virt:0x2d6e61959694d26e041a879c966f2adb"

/-- An entry of the envelope that asks the split to be paid. -/
def acceptOf (amount : ℕ) : StrictValue :=
  .object [("asset", .string "usd"), ("description", .string ""),
    ("maxAmountRequired", .string (toString amount)), ("maxTimeoutSeconds", .number "60"),
    ("mimeType", .string "application/json"), ("network", .string "base"),
    ("payTo", .string splitAddress), ("resource", .string "https://shop.example/song"),
    ("scheme", .string "exact")]

def offerOf (amount : ℕ) : Offer where
  accept := acceptOf amount
  finality := some "final"
  merchantNet := some merchant.payout
  twoLeg := none

theorem codecOf_b64 (documents : List StrictValue) (bytes : Bytes) :
    (codecOf documents).b64Decode ((codecOf documents).b64 bytes) = some bytes := by
  show base64Decode (String.ofList (base64Encode bytes)).toList = some bytes
  rw [String.toList_ofList, base64Decode_encode]

theorem codecOf_reads (v : StrictValue) :
    (codecOf [v]).parseStrict (String.ofList (Jcs.writeJcs v)) = some v := by
  simp [codecOf]

theorem quoteOf_typed {nonce exp : ℕ} {offers : List Offer} (h : exp ≤ MAX_TIME) :
    (quoteOf nonce exp offers).Typed where
  version := rfl
  exp_le := h
  grace_le := (by decide : 300 ≤ MAX_TIME)
  retry_le := (by decide : 600 ≤ MAX_TIME)
  schema_le := (by decide : SCHEMA_V0_1 ≤ U32_MAX)
  contract_le := (by decide : 1 ≤ U32_MAX)
  registry_le := (by decide : 1 ≤ U32_MAX)
  idem_ne := (by decide : [7] ≠ ([] : Bytes))
  idem_short := (by decide : [7].length ≤ 64)

/-- Sign a quote. -/
def signed (q : Quote) : Quote := q.sign (codecOf []) keyedSuite merchant.signingKey

/-- The reader of one quote. -/
def readerOf (q : Quote) : TextCodec := codecOf [q.toValue (codecOf []) true]

/-- The text of a quote. -/
def textOf (q : Quote) : String := q.toJson (codecOf [])

theorem readerOf_b64 (q : Quote) : (readerOf q).b64 = (codecOf []).b64 := rfl

theorem signed_reads {q : Quote} (h : q.Typed) :
    Quote.parseVerify (readerOf (signed q)) keyedSuite (textOf (signed q)) merchant.key =
      some (signed q) := by
  have hsigned : signed q = q.sign (readerOf (signed q)) keyedSuite merchant.signingKey :=
    Quote.sign_congr (readerOf_b64 _).symm q _
  have hread : (readerOf (signed q)).parseStrict (textOf (signed q)) =
      some ((signed q).toValue (readerOf (signed q)) true) := by
    rw [Quote.toValue_congr (readerOf_b64 _)]
    exact codecOf_reads _
  have hb64 : ∀ bytes, (readerOf (signed q)).b64Decode ((readerOf (signed q)).b64 bytes) =
    some bytes := codecOf_b64 _
  have hkey : merchant.key = keyedSuite.ed25519Public merchant.signingKey := rfl
  rw [hkey]
  generalize readerOf (signed q) = codec at hsigned hread hb64 ⊢
  rw [hsigned] at hread ⊢
  exact Quote.parseVerify_sign hb64 keyedSuite_signs h merchant.signingKey hread

/-- A quote that prices the resource once. -/
def quote : Quote := signed (quoteOf 1 2000000000 [offerOf 100])

def transfer : Transfer where
  dest := splitAddress
  asset := "usd"
  amount := 100
  memo := none

/-- What the quote asks for. -/
def terms : Merchant.BaselineTerms where
  quote
  offer := offerOf 100
  payTo := splitAddress
  asset := "usd"
  amount := 100
  requiredFinality := "final"

/-- A rail with the split, where transfers are final at once. -/
def start : VirtualRail :=
  { VirtualRail.new 0 with
    splits := (∅ : HashMap String SplitState).insert splitAddress
      { recipients := [("layer", 50), ("os", 10), ("dev", 40), (merchant.payout, 9900)]
        vReceived := 0, paid := [0, 0, 0, 0] } }

/-- A new store. -/
def emptyWal : MerchantStore.Wal ReceiptRest where
  file := ⟨[], 0⟩
  len := 0
  poisoned := false
  toBooks := .empty

end Shop

end Paytp
