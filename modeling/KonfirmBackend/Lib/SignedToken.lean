import Mathlib.Data.List.Basic

/-!
# Signed tokens with a lifetime

An issuer signs a payload under a key and hands out the token; whoever presents the token
later is believed what the payload says, until its lifetime is over. Services that trust
different keys share the clients, and so the tokens that are going around.

## Main definitions

- `Scheme` — signing and verifying at a time
- `Scheme.Lawful` — a token verifies under its key while it lives
- `Scheme.Separate` — what one key signs does not verify under another one
- `Issue` — a token with what it was issued for
- `Unforged` — a token that verifies has been issued

## Main results

- `exists_issue_of_verify` — a payload that is believed has been issued for this key
-/

namespace SignedToken

/-- Signing may throw. Times and lifetimes are in one unit. -/
structure Scheme (κ π τ : Type*) where
  sign : κ → π → (lifetime now : ℕ) → Option τ
  verify : κ → (now : ℕ) → τ → Option π

variable {κ π τ : Type*}

/-- A token that has been handed out. -/
structure Issue (κ π τ : Type*) where
  key : κ
  payload : π
  lifetime : ℕ
  issuedAt : ℕ
  token : τ

def Issue.Alive (i : Issue κ π τ) (now : ℕ) : Prop := now < i.issuedAt + i.lifetime

/-- The token is what signing has given. -/
def Issue.Signed (S : Scheme κ π τ) (i : Issue κ π τ) : Prop :=
  S.sign i.key i.payload i.lifetime i.issuedAt = some i.token

/-- A token verifies under its key exactly while it lives, and then gives its payload back. -/
def Scheme.Lawful (S : Scheme κ π τ) : Prop :=
  ∀ i : Issue κ π τ, i.Signed S → ∀ now payload,
    S.verify i.key now i.token = some payload ↔ i.Alive now ∧ i.payload = payload

/-- No token of `k` verifies under `k'`. -/
def Scheme.Separate (S : Scheme κ π τ) (k k' : κ) : Prop :=
  ∀ i : Issue κ π τ, i.Signed S → i.key = k → ∀ now, S.verify k' now i.token = none

/-- If the token verifies, it is one of those that have been issued. -/
def Unforged (S : Scheme κ π τ) (issued : List (Issue κ π τ)) (k : κ) (now : ℕ) (token : τ) :
    Prop :=
  (S.verify k now token).isSome → ∃ i ∈ issued, i.token = token

instance [DecidableEq τ] (S : Scheme κ π τ) (issued : List (Issue κ π τ)) (k : κ) (now : ℕ)
    (token : τ) : Decidable (Unforged S issued k now token) :=
  inferInstanceAs (Decidable (_ → _))

variable {S : Scheme κ π τ} {issued : List (Issue κ π τ)} {k : κ} {now : ℕ} {token : τ}
  {payload : π}

/-- **What is believed has been said**: an unforged token that verifies under a key was issued
under that key for its payload, and lives. -/
theorem exists_issue_of_verify (hS : S.Lawful) (hsigned : ∀ i ∈ issued, i.Signed S)
    (hsep : ∀ i ∈ issued, i.key ≠ k → S.Separate i.key k) (hun : Unforged S issued k now token)
    (h : S.verify k now token = some payload) :
    ∃ i ∈ issued, i.token = token ∧ i.key = k ∧ i.payload = payload ∧ i.Alive now := by
  obtain ⟨i, hi, rfl⟩ := hun (Option.isSome_of_mem h)
  have hkey : i.key = k := by
    by_contra hne
    have hnone := hsep i hi hne i (hsigned i hi) rfl now
    rw [h] at hnone
    cases hnone
  subst hkey
  obtain ⟨halive, hpayload⟩ := (hS i (hsigned i hi) now payload).mp h
  exact ⟨i, hi, rfl, rfl, hpayload, halive⟩

/-- A token that lives is believed by everyone who trusts its key. -/
theorem verify_of_alive (hS : S.Lawful) {i : Issue κ π τ} (hi : i.Signed S)
    (halive : i.Alive now) : S.verify i.key now i.token = some i.payload :=
  (hS i hi now i.payload).mpr ⟨halive, rfl⟩

/-! ## Tokens that spell out what they say -/

section Transparent

variable [DecidableEq κ]

/-- Tokens that are their own issues. -/
structure Plain (κ π : Type*) where
  key : κ
  payload : π
  expires : ℕ
deriving DecidableEq

def Scheme.plain : Scheme κ π (Plain κ π) where
  sign k payload lifetime now := some ⟨k, payload, now + lifetime⟩
  verify k now token := if token.key = k ∧ now < token.expires then some token.payload else none

theorem Scheme.plain_lawful : (Scheme.plain : Scheme κ π (Plain κ π)).Lawful := by
  intro i hi now payload
  have htoken : i.token = ⟨i.key, i.payload, i.issuedAt + i.lifetime⟩ :=
    (Option.some.inj hi).symm
  rw [htoken]
  by_cases halive : i.Alive now
  · have hlt : now < i.issuedAt + i.lifetime := halive
    simp [Scheme.plain, hlt, halive]
  · have hlt : ¬now < i.issuedAt + i.lifetime := halive
    simp [Scheme.plain, hlt, halive]

theorem Scheme.plain_separate {k k' : κ} (hne : k ≠ k') :
    (Scheme.plain : Scheme κ π (Plain κ π)).Separate k k' := by
  rintro i hi rfl now
  have htoken : i.token = ⟨i.key, i.payload, i.issuedAt + i.lifetime⟩ :=
    (Option.some.inj hi).symm
  rw [htoken]
  simp [Scheme.plain, hne]

end Transparent

end SignedToken
