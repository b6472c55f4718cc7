import Mathlib.Data.List.Basic

/-!
# Supported assets

## Main definitions

- `Asset` — a Stellar asset
- `resolveAsset` — the asset a currency code stands for
-/

namespace KonfirmBackend

/-- `BadRequestException`. -/
structure BadRequest where
  message : String
deriving DecidableEq

inductive Asset
  | native
  | credit (code issuer : String)
deriving DecidableEq

def usdcTestnetIssuer : String := "GBBD47IF6LWK7P7MDEVSCWR7DPUWV3NY3DTQEVFL4NAT4AQH3ZLLFLA5"

def resolveAsset (currency : String) : Except BadRequest Asset :=
  if currency = "XLM" then .ok .native
  else if currency = "USDC" then .ok (.credit "USDC" usdcTestnetIssuer)
  else .error ⟨currency ++ " is not supported yet"⟩

end KonfirmBackend
