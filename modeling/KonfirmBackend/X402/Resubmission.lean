import KonfirmBackend.X402.Settlement

/-!
# Settling the same payload again

A resource server that has lost the answer to `settle` submits the payload once more. The
key of a settlement keeps the second attempt out of the log, but `settle` does not look at
the log: it verifies and settles the payload as if for the first time.

## Main definitions

- `Facilitator.callsScheme` — whether `settle` gets as far as `scheme.settle`
- `NoOp` — a settlement reported as successful without a call to `scheme.settle`
- `Resubmission` — a call of a run that repeats an earlier, successful one

## Main results

- `settle_eq_of_not_callsScheme`, `settle_of_callsScheme` — the answer in the two cases
- `callsScheme_of_success` — a success is the scheme's
- `resubmissions_noOp_iff` — in which runs resubmissions are no-ops
-/

namespace KonfirmBackend.X402

variable (F : Facilitator)

/-- `settle` calls `scheme.settle`: the verification has passed. -/
def Facilitator.callsScheme (blocked : List String) (req : Request) : Bool :=
  (F.verify blocked req).1.any VerifyResponse.isValid

/-- The payload is reported as settled by a call that does not settle it. -/
def NoOp (blocked : List String) (req : Request) : Prop :=
  F.callsScheme blocked req = false ∧
    ∃ result, (F.settle blocked req).1 = some result ∧ result.success

/-- The payload is reported as settled, for this payer. -/
def Settles (blocked : List String) (req : Request) (payer : String) : Prop :=
  ∃ result, (F.settle blocked req).1 = some result ∧ result.success ∧
    req.settledPayer result = some payer

/-- A request with the same payload. Its verification names no other payer, if it gets
that far. -/
def Request.Repeats (again req : Request) (payer : String) : Prop :=
  again.payload = req.payload ∧
    ∀ p ∈ known (again.schemeVerify.bind VerifyResponse.payer), p = payer

/-- In the run `cs`, the call after `before` repeats one that was successful. -/
def Resubmission (cs before : List Call) (again : Request) : Prop :=
  ∃ earlier req between rest payer, before = earlier ++ .settle req :: between ∧
    cs = before ++ .settle again :: rest ∧
    Settles F (run F .empty earlier).blocked req payer ∧ again.Repeats req payer

variable {F} {blocked : List String} {req : Request} {result : SettleResponse}

/-- Without a call to the scheme the answer does not depend on the scheme's. -/
theorem settle_eq_of_not_callsScheme (h : F.callsScheme blocked req = false)
    (schemeSettle : Option SettleResponse) :
    F.settle blocked { req with schemeSettle := schemeSettle } = F.settle blocked req := by
  have hverify : F.verify blocked { req with schemeSettle := schemeSettle } = F.verify blocked req :=
    rfl
  rw [Facilitator.settle_eq, Facilitator.settle_eq, hverify]
  cases hv : F.verify blocked req with
  | mk verified recorded =>
    cases verified with
    | none => rfl
    | some v =>
      have hinvalid : v.isValid = false := by simpa [Facilitator.callsScheme, hv] using h
      simp [hinvalid]

/-- With one, it is the scheme's, unless the call throws. -/
theorem settle_of_callsScheme (h : F.callsScheme blocked req) :
    ∃ v, (F.verify blocked req).1 = some v ∧
      (F.settle blocked req).1 = some (req.schemeSettle.getD
        ⟨false, some "settlement_error", v.payer, "", req.requirements.network⟩) := by
  obtain ⟨v, hv, hvalid⟩ := (Option.any_eq_true _ _).mp h
  refine ⟨v, hv, ?_⟩
  cases hverify : F.verify blocked req with
  | mk verified recorded =>
    rw [hverify] at hv
    obtain rfl : verified = some v := hv
    simp only [Facilitator.settle_eq, hverify, hvalid, Facilitator.settleVerified]
    cases req.schemeSettle <;> rfl

/-- A success is the scheme's. -/
theorem callsScheme_of_success (hres : (F.settle blocked req).1 = some result)
    (hsucc : result.success) : F.callsScheme blocked req ∧ req.schemeSettle = some result := by
  have hcalls : F.callsScheme blocked req := by
    by_contra hnot
    -- the scheme might as well have thrown, and then nothing succeeds
    have hsame := settle_eq_of_not_callsScheme (by simpa using hnot) none
    rw [← hsame] at hres
    rw [Facilitator.settle_eq] at hres
    split at hres
    · cases hres
    · split at hres
      · cases hres
        cases hsucc
      · cases hres
        cases hsucc
  refine ⟨hcalls, ?_⟩
  obtain ⟨v, -, hsettle⟩ := settle_of_callsScheme hcalls
  obtain rfl := Option.some.inj (hsettle.symm.trans hres)
  cases hscheme : req.schemeSettle with
  | none => simp [hscheme] at hsucc
  | some settled => rfl

/-- There are no such calls. -/
theorem not_noOp (blocked : List String) (req : Request) : ¬NoOp F blocked req := by
  rintro ⟨hnot, result, hres, hsucc⟩
  have hcalls := (callsScheme_of_success hres hsucc).1
  rw [hnot] at hcalls
  cases hcalls

/-- In no run is a resubmission a no-op: what holds of a run without resubmissions holds
of no other. -/
theorem resubmissions_noOp_iff (cs : List Call) :
    (∀ before again, Resubmission F cs before again →
        NoOp F (run F .empty before).blocked again) ↔
      ∀ before again, ¬Resubmission F cs before again := by
  constructor
  · intro h before again hre
    exact not_noOp _ _ (h before again hre)
  · intro h before again hre
    exact absurd hre (h before again)

/-- The payload is settled and submitted again. The scheme does not verify it a second
time, and the resource server is told that it has failed. -/
theorem resubmission_fails :
    Resubmission exampleFacilitator
        [.settle (exampleRequest (some exampleSuccess)),
          .settle { exampleRequest none with schemeVerify := some ⟨false, none, some "GPAYER"⟩ }]
        [.settle (exampleRequest (some exampleSuccess))]
        { exampleRequest none with schemeVerify := some ⟨false, none, some "GPAYER"⟩ } ∧
      (exampleFacilitator.settle
          (run exampleFacilitator .empty [.settle (exampleRequest (some exampleSuccess))]).blocked
          { exampleRequest none with schemeVerify := some ⟨false, none, some "GPAYER"⟩ }).1 =
        some ⟨false, none, some "GPAYER", "", "stellar:testnet"⟩ := by
  constructor
  · refine ⟨[], exampleRequest (some exampleSuccess), [], [], "GPAYER", rfl, rfl, ?_, rfl, ?_⟩
    · exact ⟨exampleSuccess, by decide, rfl, by decide⟩
    · intro p hp
      have hknown : known (some "GPAYER") = some "GPAYER" := by decide
      exact (Option.some.inj (hknown.symm.trans hp)).symm
  · decide

end KonfirmBackend.X402
