import KonfirmBackend.Lib.Numeral
import KonfirmBackend.Lib.QueryString
import KonfirmBackend.Payments

/-!
# The two checkout paths

`buildPayUri` writes the payment of a link into a SEP-7 URI, for a wallet that scans it as a
QR code; `prepareTx` builds the transaction itself. Both load the link by the same rules. The
SDK checks what goes into a transaction, and nothing checks what goes into a URI.

## Main definitions

- `createLink` — the links that the API creates
- `buildPayUri` — the URI
- `Sdk` — what the Stellar SDK takes
- `PathsAgree` — one path succeeds exactly when the other does, and they ask for one payment

## Main results

- `parse_payUri` — a wallet reads off the URI what has been written, whatever the `muxed_id`
- `paths_agree_iff` — for which requests the two paths agree
-/

namespace KonfirmBackend.Payments

/-! ## Links -/

/-- `/^\d+(\.\d{1,7})?$/` -/
def createLinkSchema (amount : String) : Bool :=
  match Numeral.splitPoint amount.toList with
  | (whole, none) => (Numeral.readNat whole).isSome
  | (whole, some frac) =>
    (Numeral.readNat whole).isSome && (Numeral.readNat frac).isSome && decide (frac.length ≤ 7)

/-- The text of a `NUMERIC(18,7)` column, from its value in units of the last place. -/
def numericText (units : ℕ) : String :=
  let frac := toString (units % 10 ^ 7)
  toString (units / 10 ^ 7) ++ "." ++ String.ofList (List.replicate (7 - frac.length) '0') ++ frac

/-- The value that the column stores, if it is within its precision. -/
def numericUnits (amount : String) : Option ℕ :=
  let (whole, frac) := Numeral.splitPoint amount.toList
  let digits := whole ++ (frac.getD []).rightpad 7 '0'
  (Numeral.readNat digits).filter (· < 10 ^ 18)

/-- `POST /links`, as far as a checkout reads the row; `none` is a request that is refused. -/
def createLink (amount currency : Option String) (stellarBaseAddress : Option String)
    (merchantStatus : MerchantStatus) : Option LinkRow := do
  guard (amount.all createLinkSchema)
  guard (currency.all (["USDC", "EURC", "XLM"].contains ·))
  let stored ← amount.mapM fun amount => (numericUnits amount).map numericText
  return {
    amountUsdc := stored
    currency := currency.getD "USDC"
    active := true
    expiresAt := none
    stellarBaseAddress := stellarBaseAddress
    merchantStatus := merchantStatus }

/-! ## The URI -/

/-- The characters that `encodeURIComponent` leaves as they are. -/
def uriComponentPlain (n : ℕ) : Bool :=
  decide (48 ≤ n ∧ n ≤ 57) || decide (65 ≤ n ∧ n ≤ 90) || decide (97 ≤ n ∧ n ≤ 122) ||
    ("-_.!~*'()".toList.map Char.toNat).contains n

def encodeURIComponent (s : String) : String :=
  String.ofList (QueryString.encode uriComponentPlain s)

/-- The parameters that name an asset; `asset.getIssuer()` of the native one is undefined. -/
def assetParts : Asset → List String
  | .native => []
  | .credit code issuer =>
    if issuer = "" then []
    else ["asset_code=" ++ encodeURIComponent code, "asset_issuer=" ++ encodeURIComponent issuer]

def payUriParts (link : PayableLink) (asset : Asset) (muxedId : String) : List String :=
  ["destination=" ++ encodeURIComponent link.destination,
    "amount=" ++ encodeURIComponent link.amount] ++ assetParts asset ++
  ["memo=" ++ encodeURIComponent muxedId, "memo_type=MEMO_ID",
    "network_passphrase=" ++ encodeURIComponent TESTNET]

/-- `buildPayUri`; `found` is the answer of the `SELECT`, `none` an exception. -/
def buildPayUri (found : Option (Option LinkRow)) (now : ℕ) (muxedId : String) :
    Except PrepareFailure String :=
  match loadPayableLink found now with
  | .error e => .error e
  | .ok link =>
    match resolveAsset link.currency with
    | .error e => .error (.badRequest e.message)
    | .ok asset => .ok ("web+stellar:pay?" ++ "&".intercalate (payUriParts link asset muxedId))

/-- What stands after the question mark. -/
def queryOf (uri : String) : List Char := (uri.toList.dropWhile (· != '?')).tail

theorem unreserved_uriComponentPlain : QueryString.Unreserved uriComponentPlain := by
  intro n hn
  have hmarks : "-_.!~*'()".toList.map Char.toNat = [45, 95, 46, 33, 126, 42, 39, 40, 41] := by
    decide
  simp only [uriComponentPlain, hmarks, Bool.or_eq_true, decide_eq_true_eq, List.contains_cons,
    beq_iff_eq, List.contains_nil, Bool.false_eq_true, or_false] at hn
  omega

/-- The names and values of an asset. -/
def assetParams : Asset → List (String × String)
  | .native => []
  | .credit code issuer => [("asset_code", code), ("asset_issuer", issuer)]

/-- The names and values of a payment with a memo id. -/
def payParams (destination : String) (asset : Asset) (amount memoId : String) :
    List (String × String) :=
  [("destination", destination), ("amount", amount)] ++ assetParams asset ++
    [("memo", memoId), ("memo_type", "MEMO_ID"), ("network_passphrase", TESTNET)]

/-- A parameter as the code writes it: its name as it is, then its value encoded. -/
theorem toList_param (pre name : String)
    (hpre : pre.toList = QueryString.encode uriComponentPlain name ++ ['=']) (value : String) :
    (pre ++ encodeURIComponent value).toList =
      QueryString.part uriComponentPlain (name, value) := by
  rw [String.toList_append, hpre, encodeURIComponent, String.toList_ofList, QueryString.part,
    List.append_assoc, List.singleton_append]

/-- The names need no encoding, and neither does `MEMO_ID`. -/
theorem toList_memoType :
    "memo_type=MEMO_ID".toList = QueryString.part uriComponentPlain ("memo_type", "MEMO_ID") := by
  decide +kernel

theorem payUriParts_toList (link : PayableLink) {asset : Asset} (muxedId : String)
    (hissuer : ∀ code issuer, asset = .credit code issuer → issuer ≠ "") :
    (payUriParts link asset muxedId).map String.toList =
      (payParams link.destination asset link.amount muxedId).map
        (QueryString.part uriComponentPlain) := by
  have hdestination := toList_param "destination=" "destination" (by decide +kernel)
  have hamount := toList_param "amount=" "amount" (by decide +kernel)
  have hmemo := toList_param "memo=" "memo" (by decide +kernel)
  have hnetwork := toList_param "network_passphrase=" "network_passphrase" (by decide +kernel)
  cases asset with
  | native =>
    simp only [payUriParts, assetParts, payParams, assetParams, List.map_cons, List.map_nil,
      List.map_append, hdestination, hamount, hmemo, hnetwork, toList_memoType]
  | credit code issuer =>
    have hcode := toList_param "asset_code=" "asset_code" (by decide +kernel)
    have hissuer' := toList_param "asset_issuer=" "asset_issuer" (by decide +kernel)
    simp only [payUriParts, assetParts, payParams, assetParams, List.map_cons, List.map_nil,
      List.map_append, if_neg (hissuer code issuer rfl), hdestination, hamount, hcode, hissuer',
      hmemo, hnetwork, toList_memoType]

theorem queryOf_payUri (query : String) : queryOf ("web+stellar:pay?" ++ query) = query.toList := by
  have hpre : "web+stellar:pay?".toList = "web+stellar:pay".toList ++ ['?'] := by decide +kernel
  have hall : ("web+stellar:pay".toList.all (· != '?')) = true := by decide +kernel
  rw [queryOf, String.toList_append, hpre, List.append_assoc,
    List.dropWhile_append_of_pos (List.all_eq_true.mp hall)]
  simp

theorem issuer_ne_empty_of_resolveAsset {currency : String} {asset : Asset}
    (h : resolveAsset currency = .ok asset) :
    ∀ code issuer, asset = .credit code issuer → issuer ≠ "" := by
  rintro code issuer rfl
  rw [resolveAsset] at h
  split at h
  · cases h
  · split at h
    · cases h
      decide
    · cases h

/-- **A wallet reads off the URI what has been written**: the payment and the memo, and no
parameter besides, whatever the `muxed_id`. -/
theorem parse_payUri {found : Option (Option LinkRow)} {now : ℕ} {muxedId uri : String}
    (h : buildPayUri found now muxedId = .ok uri) :
    ∃ link asset, loadPayableLink found now = .ok link ∧ resolveAsset link.currency = .ok asset ∧
      QueryString.parse (queryOf uri) =
        some (payParams link.destination asset link.amount muxedId) := by
  rw [buildPayUri] at h
  split at h
  · cases h
  · next link hlink =>
    split at h
    · cases h
    · next asset hasset =>
      cases h
      refine ⟨link, asset, hlink, hasset, ?_⟩
      have hparts := payUriParts_toList link muxedId (issuer_ne_empty_of_resolveAsset hasset)
      have hne : payParams link.destination asset link.amount muxedId ≠ [] := by simp [payParams]
      rw [queryOf_payUri, String.toList_intercalate, hparts]
      exact QueryString.parse_intercalate unreserved_uriComponentPlain hne

/-! ## The Stellar SDK -/

/-- What `Operation.payment` and `Memo.id` take, the addresses among it, and the envelope that
`build` makes of it. -/
structure Sdk where
  address : String → Bool
  payment : String → Asset → String → Bool
  memoId : String → Bool
  envelope : TransactionDraft → String

namespace Sdk

def operation (sdk : Sdk) : Operation → Bool
  | .changeTrust _ => true
  | .payment destination asset amount => sdk.payment destination asset amount

/-- The SDK throws what it does not take. -/
def toXdr (sdk : Sdk) (tx : TransactionDraft) : Option String :=
  if tx.operations.all sdk.operation && sdk.memoId tx.memoId then some (sdk.envelope tx)
  else none

/-- What is assumed of the SDK: it takes the positive amounts in units of 10⁻⁷ that fit 63 bits,
to an address, and no amount that is not positive; and it takes the memo ids of 64 bits, and none
without a digit, which is no number. -/
structure Documented (sdk : Sdk) : Prop where
  payment : ∀ destination asset amount, ∀ units : ℕ, sdk.address destination = true →
    Numeral.readDecimal amount.toList = some ((units : ℚ) / 10 ^ 7) → 0 < units → units < 2 ^ 63 →
    sdk.payment destination asset amount = true
  positive : ∀ destination asset amount q, Numeral.readDecimal amount.toList = some q → q ≤ 0 →
    sdk.payment destination asset amount = false
  memo : ∀ value n, Numeral.readNat value.toList = some n → n < 2 ^ 64 → sdk.memoId value = true
  number : ∀ value, (value.toList.any Char.isDigit) = false → sdk.memoId value = false

end Sdk

/-! ## Agreement -/

/-- What a wallet reads off a URI is the payment of a transaction. The memo is compared as the
string that the builder has been given. -/
def Describes (params : List (String × String)) (tx : TransactionDraft) : Prop :=
  ∃ destination asset amount, Operation.payment destination asset amount ∈ tx.operations ∧
    (∀ op ∈ tx.operations, op = .payment destination asset amount ∨
      ∃ trusted, op = .changeTrust trusted) ∧
    params = payParams destination asset amount tx.memoId

/-- The two paths agree on a request. -/
structure PathsAgree (sdk : Sdk) (a : PrepareAnswers) (muxedId payerAddress : String) : Prop where
  /-- One succeeds exactly when the other does. -/
  accepts : (∃ uri, buildPayUri a.link a.now muxedId = .ok uri) ↔
    ∃ tx, prepareTx sdk.toXdr a muxedId payerAddress = .ok tx
  /-- The URI has the parameters of the payment in the transaction, and no others. -/
  content : ∀ uri tx, buildPayUri a.link a.now muxedId = .ok uri →
    prepareTx sdk.toXdr a muxedId payerAddress = .ok tx →
      ∃ params draft, QueryString.parse (queryOf uri) = some params ∧
        sdk.toXdr draft = some tx.xdr ∧ Describes params draft

/-- The SDK takes the payment of the link, if it may be paid, and the memo. -/
def SdkTakes (sdk : Sdk) (found : Option (Option LinkRow)) (now : ℕ) (muxedId : String) : Prop :=
  ∀ link asset, loadPayableLink found now = .ok link → resolveAsset link.currency = .ok asset →
    sdk.payment link.destination asset link.amount = true ∧ sdk.memoId muxedId = true

/-- A link that may be paid, with an amount in units and a number for a memo. -/
theorem sdkTakes_of_documented {sdk : Sdk} {found : Option (Option LinkRow)} {now units n : ℕ}
    {muxedId : String} {link : PayableLink} (hdoc : sdk.Documented)
    (hlink : loadPayableLink found now = .ok link) (haddress : sdk.address link.destination = true)
    (hamount : Numeral.readDecimal link.amount.toList = some ((units : ℚ) / 10 ^ 7))
    (hpos : 0 < units) (hlt : units < 2 ^ 63)
    (hmemo : Numeral.readNat muxedId.toList = some n) (hn : n < 2 ^ 64) :
    SdkTakes sdk found now muxedId := by
  intro link' asset hlink' _
  obtain rfl : link = link' := Except.ok.inj (hlink.symm.trans hlink')
  exact ⟨hdoc.payment _ _ _ units haddress hamount hpos hlt, hdoc.memo _ n hmemo hn⟩

variable {sdk : Sdk} {a : PrepareAnswers} {muxedId payerAddress : String} {link : PayableLink}
  {asset : Asset} {account : PayerAccount}

theorem describes_draft : Describes (payParams link.destination asset link.amount muxedId)
    (draft link asset account muxedId payerAddress) := by
  refine ⟨link.destination, asset, link.amount, ?_, ?_, rfl⟩
  · exact List.mem_append_right _ (List.mem_singleton_self _)
  · intro op hop
    rcases List.mem_append.mp hop with htrust | hpay
    · right
      split at htrust
      · cases htrust
      · exact ⟨asset, List.mem_singleton.mp htrust⟩
    · exact .inl (List.mem_singleton.mp hpay)

theorem toXdr_draft : (∃ xdr, sdk.toXdr (draft link asset account muxedId payerAddress) = some xdr) ↔
    sdk.payment link.destination asset link.amount = true ∧ sdk.memoId muxedId = true := by
  have hops : (draft link asset account muxedId payerAddress).operations.all sdk.operation =
      sdk.payment link.destination asset link.amount := by
    show ((if hasTrustline account asset then [] else [Operation.changeTrust asset]) ++
      [Operation.payment link.destination asset link.amount]).all sdk.operation = _
    split <;> simp [Sdk.operation]
  have hmemo : (draft link asset account muxedId payerAddress).memoId = muxedId := rfl
  rw [Sdk.toXdr, hops, hmemo]
  simp

/-- The transaction of a payer who passes the screening and whose account loads. -/
theorem prepareTx_of_loads
    (hallowed : isPayerAllowed a.blocked a.check payerAddress = some true)
    (haccount : withRetry 2 8000 a.account = .ok account)
    (hlink : loadPayableLink a.link a.now = .ok link)
    (hasset : resolveAsset link.currency = .ok asset) :
    (∃ tx, prepareTx sdk.toXdr a muxedId payerAddress = .ok tx) ↔
      sdk.payment link.destination asset link.amount = true ∧ sdk.memoId muxedId = true := by
  have hdraft : (∃ xdr, sdk.toXdr (draft link asset account muxedId payerAddress) = some xdr) ↔
      sdk.payment link.destination asset link.amount = true ∧ sdk.memoId muxedId = true :=
    toXdr_draft
  rw [← hdraft]
  simp only [prepareTx, hlink, hallowed, hasset, haccount]
  cases sdk.toXdr (draft link asset account muxedId payerAddress) with
  | none => simp
  | some xdr => simp

theorem buildPayUri_of_loads (hlink : loadPayableLink a.link a.now = .ok link)
    (hasset : resolveAsset link.currency = .ok asset) :
    ∃ uri, buildPayUri a.link a.now muxedId = .ok uri := by
  simp only [buildPayUri, hlink, hasset]
  exact ⟨_, rfl⟩

/-- **When the two paths agree**: if the link may not be paid, or the SDK takes its payment
with that memo. -/
theorem paths_agree_iff
    (hallowed : isPayerAllowed a.blocked a.check payerAddress = some true)
    (haccount : withRetry 2 8000 a.account = .ok account) :
    PathsAgree sdk a muxedId payerAddress ↔ SdkTakes sdk a.link a.now muxedId := by
  constructor
  · intro hagree link asset hlink hasset
    have htx := hagree.accepts.mp (buildPayUri_of_loads hlink hasset)
    exact (prepareTx_of_loads hallowed haccount hlink hasset).mp htx
  · intro htakes
    refine ⟨⟨?uri, ?tx⟩, ?content⟩
    case uri =>
      rintro ⟨uri, huri⟩
      obtain ⟨link, asset, hlink, hasset, -⟩ := parse_payUri huri
      exact (prepareTx_of_loads hallowed haccount hlink hasset).mpr (htakes link asset hlink hasset)
    case tx =>
      rintro ⟨tx, htx⟩
      obtain ⟨link, asset, -, hlink, -, hasset, -⟩ := prepareTx_eq_ok htx
      exact buildPayUri_of_loads hlink hasset
    case content =>
      intro uri tx huri htx
      obtain ⟨link, asset, hlink, hasset, hparse⟩ := parse_payUri huri
      obtain ⟨link', asset', account', hlink', -, hasset', hxdr, -⟩ := prepareTx_eq_ok htx
      obtain rfl : link = link' := Except.ok.inj (hlink.symm.trans hlink')
      obtain rfl : asset = asset' := Except.ok.inj (hasset.symm.trans hasset')
      exact ⟨_, _, hparse, hxdr, describes_draft⟩

/-- A payable link of nothing keeps the paths apart. -/
theorem not_agree_of_not_positive (hdoc : sdk.Documented)
    (hallowed : isPayerAllowed a.blocked a.check payerAddress = some true)
    (haccount : withRetry 2 8000 a.account = .ok account)
    (hlink : loadPayableLink a.link a.now = .ok link)
    (hasset : resolveAsset link.currency = .ok asset) {q : ℚ}
    (hamount : Numeral.readDecimal link.amount.toList = some q) (hq : q ≤ 0) :
    ¬PathsAgree sdk a muxedId payerAddress := by
  rw [paths_agree_iff hallowed haccount]
  intro htakes
  have htaken := (htakes link asset hlink hasset).1
  rw [hdoc.positive _ _ _ q hamount hq] at htaken
  cases htaken

/-- So does a `muxed_id` that is no number. -/
theorem not_agree_of_no_digit (hdoc : sdk.Documented)
    (hallowed : isPayerAllowed a.blocked a.check payerAddress = some true)
    (haccount : withRetry 2 8000 a.account = .ok account)
    (hlink : loadPayableLink a.link a.now = .ok link)
    (hasset : resolveAsset link.currency = .ok asset)
    (hmemo : (muxedId.toList.any Char.isDigit) = false) :
    ¬PathsAgree sdk a muxedId payerAddress := by
  rw [paths_agree_iff hallowed haccount]
  intro htakes
  have htaken := (htakes link asset hlink hasset).2
  rw [hdoc.number _ hmemo] at htaken
  cases htaken

/-! ## A link of nothing, and a memo that is no number -/

/-- A checkout of a link that has been created with these fields. -/
def checkout (amount currency : Option String) : PrepareAnswers where
  link := (createLink amount currency (some "GMERCHANT") .active).map some
  now := 0
  blocked _ := some false
  check _ := .ready fun _ => .answered true
  account _ := .resolved ⟨41, []⟩

/-- An SDK that takes positive amounts and memo ids of digits. -/
def exampleSdk : Sdk where
  address destination := decide (destination = "GMERCHANT")
  payment _ _ amount := (Numeral.readDecimal amount.toList).any fun q => decide (0 < q)
  memoId value := (Numeral.readNat value.toList).isSome
  envelope _ := "AAAA"

/-- A digit that has been read is one. -/
theorem isDigit_of_digit {c : Char} {n : ℕ} (h : Numeral.digit c = some n) : c.isDigit = true := by
  rw [Numeral.digit] at h
  split at h
  case isTrue hc => exact Char.isDigit_iff_toNat.mpr hc
  case isFalse => cases h

theorem any_isDigit_of_readNat {cs : List Char} (h : (Numeral.readNat cs).isSome) :
    cs.any Char.isDigit = true := by
  cases cs with
  | nil => cases h
  | cons c cs =>
    obtain ⟨n, hn⟩ := Option.isSome_iff_exists.mp h
    obtain ⟨d, hd, -⟩ := Option.bind_eq_some_iff.mp hn
    rw [List.any_cons, isDigit_of_digit hd, Bool.true_or]

theorem exampleSdk_documented : exampleSdk.Documented where
  payment := by
    intro destination asset amount units _ hread hpos _
    simp [exampleSdk, hread, hpos]
  memo := by
    intro value n hread _
    simp [exampleSdk, hread]
  positive := by
    intro destination asset amount q hread hq
    simp [exampleSdk, hread, not_lt.mpr hq]
  number := by
    intro value hnone
    cases hread : (Numeral.readNat value.toList).isSome with
    | false => exact hread
    | true =>
      rw [any_isDigit_of_readNat hread] at hnone
      cases hnone

theorem load_five : loadPayableLink (checkout (some "5") none).link 0 =
    .ok ⟨"GMERCHANT", "5.0000000", "USDC"⟩ := by
  decide +kernel

theorem load_zero : loadPayableLink (checkout (some "0") none).link 0 =
    .ok ⟨"GMERCHANT", "0.0000000", "USDC"⟩ := by
  decide +kernel

/-- A link of five USDC is paid on both paths. -/
theorem paths_agree_five :
    PathsAgree exampleSdk (checkout (some "5") none) "123456789" "GPAYER" := by
  have haccount : withRetry 2 8000 (checkout (some "5") none).account = .ok ⟨41, []⟩ := rfl
  have hamount : Numeral.readDecimal "5.0000000".toList = some (((50000000 : ℕ) : ℚ) / 10 ^ 7) := by
    decide +kernel
  have hmemo : Numeral.readNat "123456789".toList = some 123456789 := by decide +kernel
  exact (paths_agree_iff (by decide) haccount).mpr
    (sdkTakes_of_documented exampleSdk_documented load_five (by decide) hamount (by norm_num)
      (by norm_num) hmemo (by norm_num))

/-- The SDK takes neither a payment of nothing nor the memo `abc`; a URI is built of both. -/
theorem checkout_paths_differ : exampleSdk.Documented ∧
    isPayerAllowed (checkout (some "0") none).blocked (checkout (some "0") none).check
      "GPAYER" = some true ∧
    ¬PathsAgree exampleSdk (checkout (some "5") none) "abc" "GPAYER" ∧
    ¬PathsAgree exampleSdk (checkout (some "0") none) "123456789" "GPAYER" := by
  have hfive : withRetry 2 8000 (checkout (some "5") none).account = .ok ⟨41, []⟩ := rfl
  have hzero : withRetry 2 8000 (checkout (some "0") none).account = .ok ⟨41, []⟩ := rfl
  have hasset : resolveAsset "USDC" = .ok (.credit "USDC" usdcTestnetIssuer) := rfl
  have hamount : Numeral.readDecimal "0.0000000".toList = some 0 := by decide +kernel
  exact ⟨exampleSdk_documented, by decide,
    not_agree_of_no_digit exampleSdk_documented (by decide) hfive load_five hasset (by decide),
    not_agree_of_not_positive exampleSdk_documented (by decide) hzero load_zero hasset hamount
      le_rfl⟩

end KonfirmBackend.Payments
