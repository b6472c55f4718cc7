import KonfirmBackend.Auth.SignupRuns

/-!
# The order of referrals

A signup looks its referrer up before it stores its own merchant, and ids are never reused. So
merchants are referred by those that were there before them, however the statements of the
calls interleave and whichever of them fail or are lost.

## Main definitions

- `AccountDb.position` — where a merchant stands in the order of the INSERTs
- `AccountDb.Attributes` — a `referrals` row names a merchant and an earlier one, whose code it has
- `Call.KnowsReferrer` — what a call knows of its referrer

## Main results

- `Call.KnowsReferrer.advance` — a statement keeps it
- `referral_forest` — nobody refers itself, not even through others
-/

namespace KonfirmBackend.Auth

open Transition

namespace AccountDb

def position (db : AccountDb) (id : ℕ) : ℕ := db.accounts.findIdx fun a => decide (a.id = id)

/-- The `referrals` table as a relation. -/
def Refers (db : AccountDb) (referrerId referredId : ℕ) : Prop :=
  ∃ r ∈ db.referrals, r.referrerId = referrerId ∧ r.referredId = referredId

/-- The merchant with this id has this referral code. -/
def HoldsCode (db : AccountDb) (id : ℕ) (code : String) : Prop :=
  ∃ a ∈ db.accounts, a.id = id ∧ a.referralCode = some code

structure Attributes (db : AccountDb) (r : ReferralRow) : Prop where
  code : db.HoldsCode r.referrerId r.code
  referred : db.HasId r.referredId
  earlier : db.position r.referrerId < db.position r.referredId

variable {db db' : AccountDb} {id : ℕ} {code : String} {r : ReferralRow}

theorem HoldsCode.hasId (h : db.HoldsCode id code) : db.HasId id := by
  obtain ⟨a, ha, hid, -⟩ := h
  exact ⟨a, ha, hid⟩

theorem position_lt (h : db.HasId id) : db.position id < db.accounts.length := by
  obtain ⟨a, ha, hid⟩ := h
  exact List.findIdx_lt_length_of_exists ⟨a, ha, by simpa using hid⟩

/-- INSERTs come after the rows that are there. -/
theorem position_extends (hext : db.accounts <+: db'.accounts) (h : db.HasId id) :
    db'.position id = db.position id := by
  obtain ⟨as, has⟩ := hext
  have hlt : db.accounts.findIdx (fun a => decide (a.id = id)) < db.accounts.length :=
    position_lt h
  rw [position, position, ← has, List.findIdx_append, if_pos hlt]

theorem HoldsCode.mono (h : db.HoldsCode id code) (hext : db.accounts <+: db'.accounts) :
    db'.HoldsCode id code := by
  obtain ⟨a, ha, hrest⟩ := h
  exact ⟨a, hext.subset ha, hrest⟩

theorem Attributes.mono (h : db.Attributes r) (hext : db.accounts <+: db'.accounts) :
    db'.Attributes r where
  code := h.code.mono hext
  referred := by
    obtain ⟨a, ha, hid⟩ := h.referred
    exact ⟨a, hext.subset ha, hid⟩
  earlier := by
    rw [position_extends hext h.code.hasId, position_extends hext h.referred]
    exact h.earlier

/-- A merchant that has just been stored comes after its referrer. -/
theorem attributes_of_insert {a : Account} (hins : db.insertAccount a = .ok db')
    (hfresh : ¬db.HasId a.id) (h : db.HoldsCode id code) (createdAt : ℕ) :
    db'.Attributes ⟨id, a.id, code, createdAt⟩ := by
  obtain ⟨rfl, -, -⟩ := insertAccount_eq_ok hins
  have hext : db.accounts <+: db.accounts ++ [a] := List.prefix_append _ _
  refine ⟨h.mono hext, (hasId_append _).mpr (.inr rfl), ?_⟩
  have hnone : db.accounts.findIdx (fun b => decide (b.id = a.id)) = db.accounts.length := by
    rw [List.findIdx_eq_length]
    intro b hb
    simpa using fun hid => hfresh ⟨b, hb, hid⟩
  show AccountDb.position _ id < AccountDb.position _ a.id
  have hkept : AccountDb.position { db with accounts := db.accounts ++ [a] } id = db.position id :=
    position_extends hext h.hasId
  rw [hkept]
  refine (position_lt h.hasId).trans_le ?_
  rw [position, List.findIdx_append, hnone, if_neg (Nat.lt_irrefl _)]
  exact Nat.le_add_left _ _

theorem referrerOf_eq_some (h : db.referrerOf code = some id) : db.HoldsCode id code := by
  obtain ⟨a, ha, rfl⟩ := Option.map_eq_some_iff.mp h
  exact ⟨a, List.mem_of_find?_eq_some ha, rfl, by simpa using List.find?_some ha⟩

/-- What precedes in one order does not refer to itself. -/
theorem not_transGen_refers (h : ∀ r ∈ db.referrals, db.Attributes r) (id : ℕ) :
    ¬Relation.TransGen db.Refers id id := by
  intro hcycle
  have hlt : Relation.TransGen (· < ·) (db.position id) (db.position id) := by
    refine hcycle.lift db.position ?_
    rintro a b ⟨r, hr, rfl, rfl⟩
    exact (h r hr).earlier
  rw [Relation.transGen_eq_self] at hlt
  exact Nat.lt_irrefl _ hlt

end AccountDb

variable {toUpperCase : String → String}

/-- The code of a signup, as its `referrals` row has it. -/
def SignupInput.code (toUpperCase : String → String) (input : SignupInput) : String :=
  toUpperCase (input.referralCode.getD "")

/-- What a call knows of its referrer. -/
def Call.KnowsReferrer (toUpperCase : String → String) (db : AccountDb) (c : Call) : Prop :=
  match c.phase with
  | .checkingEmail | .ended _ => True
  | .findingReferrer code => c.input.referralCode = some code
  | .hashing referrerId | .drawing referrerId _ _ | .inserting referrerId _ _ =>
    ∀ id ∈ referrerId, db.HoldsCode id (c.input.code toUpperCase)
  | .attributing referrerId merchant =>
    ∀ now, db.Attributes (c.input.referral toUpperCase referrerId merchant.id now)

namespace Call.KnowsReferrer

variable {db db' : AccountDb} {c c' : Call}

theorem mono (h : c.KnowsReferrer toUpperCase db) (hext : db.accounts <+: db'.accounts) :
    c.KnowsReferrer toUpperCase db' := by
  unfold Call.KnowsReferrer at h ⊢
  cases hp : c.phase with
  | checkingEmail | ended result => trivial
  | findingReferrer code => rwa [hp] at h
  | hashing referrerId | drawing referrerId | inserting referrerId =>
    rw [hp] at h
    exact fun id hid => (h id hid).mono hext
  | attributing referrerId merchant =>
    rw [hp] at h
    exact fun now => (h now).mono hext

theorem afterEmail (c : Call) : (c.goesTo c.afterEmail).KnowsReferrer toUpperCase db := by
  unfold Call.afterEmail
  split
  · exact fun id hid => absurd hid (Option.not_mem_none id)
  · case h_2 code hcode =>
    split
    · exact fun id hid => absurd hid (Option.not_mem_none id)
    · exact hcode

/-- After the merchant has been stored, its referrer stands before it. -/
theorem afterInsert {referrerId : Option ℕ} {passwordHash ownCode : String} {id now : ℕ}
    (h : c.KnowsReferrer toUpperCase db) (hp : c.phase = .inserting referrerId passwordHash ownCode)
    (hins : db.insertAccount (c.input.account referrerId passwordHash ownCode id now) = .ok db')
    (hfresh : ¬db.HasId id) (row : Option ℕ) :
    Call.KnowsReferrer toUpperCase db'
      { c with phase := c.afterInsert referrerId id, row := row } := by
  unfold Call.KnowsReferrer at h
  rw [hp] at h
  cases referrerId with
  | none => trivial
  | some referrer =>
    exact fun createdAt => AccountDb.attributes_of_insert hins hfresh (h referrer rfl) createdAt

/-- A statement inserts at the end of the tables, keeps what its call knows, and a row of
`referrals` that it inserts is one that the call knows of. -/
theorem advance (h : c.KnowsReferrer toUpperCase db) (hdb : db.Constrained) {event : Event}
    (hs : Auth.advance toUpperCase db c event = some (db', c')) :
    db'.Constrained ∧ db.accounts <+: db'.accounts ∧ c'.KnowsReferrer toUpperCase db' ∧
      ∀ r ∈ db'.referrals, r ∈ db.referrals ∨ db.Attributes r := by
  have hold : ∀ r ∈ db.referrals, r ∈ db.referrals ∨ db.Attributes r := fun r hr => .inl hr
  have hsame : db.accounts <+: db.accounts := List.prefix_rfl
  cases event with
  | emailSelected =>
    simp only [Auth.advance] at hs
    split at hs
    · split at hs <;> cases hs
      · exact ⟨hdb, hsame, trivial, hold⟩
      · exact ⟨hdb, hsame, afterEmail c, hold⟩
    · cases hs
  | referrerSelected =>
    simp only [Auth.advance] at hs
    split at hs
    case h_1 code hp =>
      cases hs
      refine ⟨hdb, hsame, fun id hid => ?_, hold⟩
      unfold Call.KnowsReferrer at h
      rw [hp] at h
      show db.HoldsCode id (c.input.code toUpperCase)
      rw [SignupInput.code, show c.input.referralCode = some code from h]
      exact AccountDb.referrerOf_eq_some hid
    · cases hs
  | hashed passwordHash =>
    simp only [Auth.advance] at hs
    split at hs
    case h_1 referrerId hp =>
      cases hs
      unfold Call.KnowsReferrer at h
      rw [hp] at h
      exact ⟨hdb, hsame, h, hold⟩
    · cases hs
  | codeSelected code =>
    simp only [Auth.advance] at hs
    split at hs
    case h_1 referrerId passwordHash attempt hp =>
      unfold Call.KnowsReferrer at h
      rw [hp] at h
      split at hs
      · cases hs
      · split at hs
        · cases hs
          exact ⟨hdb, hsame, h, hold⟩
        · split at hs <;> cases hs
          · exact ⟨hdb, hsame, h, hold⟩
          · exact ⟨hdb, hsame, trivial, hold⟩
    · cases hs
  | merchantInserted id now =>
    simp only [Auth.advance] at hs
    split at hs
    case h_1 referrerId passwordHash ownCode hp =>
      split at hs
      · cases hs
      case isFalse hfresh =>
        split at hs <;> cases hs
        · exact ⟨hdb, hsame, trivial, hold⟩
        case h_2 hins =>
          have hafter := h.afterInsert hp hins hfresh (some id)
          have hdb' := hdb.insertAccount hfresh hins
          obtain ⟨rfl, -, -⟩ := AccountDb.insertAccount_eq_ok hins
          exact ⟨hdb', List.prefix_append _ _, hafter, hold⟩
    · cases hs
  | merchantInsertLost id now =>
    simp only [Auth.advance] at hs
    split at hs
    case h_1 referrerId passwordHash ownCode hp =>
      split at hs
      · cases hs
      case isFalse hfresh =>
        split at hs <;> cases hs
        case h_2 hins =>
          have hdb' := hdb.insertAccount hfresh hins
          obtain ⟨rfl, -, -⟩ := AccountDb.insertAccount_eq_ok hins
          exact ⟨hdb', List.prefix_append _ _, trivial, hold⟩
    · cases hs
  | referralInserted now =>
    simp only [Auth.advance] at hs
    split at hs
    case h_1 referrerId merchant hp =>
      split at hs <;> cases hs
      · exact ⟨hdb, hsame, trivial, hold⟩
      case h_2 hins =>
        unfold Call.KnowsReferrer at h
        rw [hp] at h
        have hdb' := hdb.insertReferral hins
        obtain ⟨rfl, -⟩ := AccountDb.insertReferral_eq_ok hins
        refine ⟨hdb', hsame, trivial, fun r hr => ?_⟩
        refine (List.mem_append.mp hr).imp_right fun hnew => ?_
        rw [List.mem_singleton.mp hnew]
        exact h now
    · cases hs
  | referralInsertLost now =>
    simp only [Auth.advance] at hs
    split at hs
    case h_1 referrerId merchant hp =>
      split at hs <;> cases hs
      case h_2 hins =>
        unfold Call.KnowsReferrer at h
        rw [hp] at h
        have hdb' := hdb.insertReferral hins
        obtain ⟨rfl, -⟩ := AccountDb.insertReferral_eq_ok hins
        refine ⟨hdb', hsame, trivial, fun r hr => ?_⟩
        refine (List.mem_append.mp hr).imp_right fun hnew => ?_
        rw [List.mem_singleton.mp hnew]
        exact h now
    · cases hs
  | failed =>
    simp only [Auth.advance] at hs
    split at hs <;> cases hs
    exact ⟨hdb, hsame, trivial, hold⟩

end Call.KnowsReferrer

/-! ## Whole runs -/

structure World.Ordered (toUpperCase : String → String) (w : World) : Prop where
  constrained : w.db.Constrained
  calls : ∀ c ∈ w.calls, c.KnowsReferrer toUpperCase w.db
  referrals : ∀ r ∈ w.db.referrals, w.db.Attributes r

theorem World.Ordered.step {w v : World} {l : Label} (hw : w.Ordered toUpperCase)
    (hs : Auth.step toUpperCase w l = some v) : v.Ordered toUpperCase := by
  cases l with
  | start input =>
    cases hs
    refine ⟨hw.constrained, fun c hc => ?_, hw.referrals⟩
    cases List.mem_append.mp hc with
    | inl hold => exact hw.calls c hold
    | inr hnew =>
      rw [List.mem_singleton.mp hnew]
      trivial
  | event i event =>
    obtain ⟨c, db', c', hc, hadv, rfl⟩ := step_event hs
    obtain ⟨hdb', hext, hknows, hrows⟩ :=
      (hw.calls c (List.mem_of_getElem? hc)).advance hw.constrained hadv
    refine ⟨hdb', fun d hd => ?_, fun r hr => ?_⟩
    · cases List.mem_or_eq_of_mem_set hd with
      | inl hold => exact (hw.calls d hold).mono hext
      | inr hnew => exact hnew ▸ hknows
    · cases hrows r hr with
      | inl hold => exact (hw.referrals r hold).mono hext
      | inr hnew => exact hnew.mono hext

/-- **Referrals form a forest**: in every run of signups, also when statements fail or their
answers are lost, each `referrals` row has the code of its referrer, nobody is referred twice,
and nobody has referred itself, directly or through others. -/
theorem referral_forest {db : AccountDb} (hdb : db.Constrained)
    (hreferrals : ∀ r ∈ db.referrals, db.Attributes r) {ls : List Label} {w : World}
    (h : exec (step toUpperCase) (World.start db) ls = some w) :
    (∀ r ∈ w.db.referrals, w.db.HoldsCode r.referrerId r.code) ∧
      (w.db.referrals.map ReferralRow.referredId).Nodup ∧
      ∀ id, ¬Relation.TransGen w.db.Refers id id := by
  have hstart : (World.start db).Ordered toUpperCase :=
    ⟨hdb, fun _ hc => absurd hc List.not_mem_nil, hreferrals⟩
  have hw : w.Ordered toUpperCase := invariant_of_exec (H := fun _ => True) hstart
    (fun _ _ _ ha _ hs => ha.step hs) (fun _ _ => trivial) h
  exact ⟨fun r hr => (hw.referrals r hr).code, hw.constrained.referred,
    AccountDb.not_transGen_refers hw.referrals⟩

/-- A merchant that has been referred refers another one. -/
def exampleChain : List Label :=
  exampleSignups ++ [.start (exampleSignup "fourth@example.com" (some "bcdefghj")),
    .event 2 .emailSelected, .event 2 .referrerSelected, .event 2 (.hashed "hash"),
    .event 2 (.codeSelected "DEFGHJKL"), .event 2 (.merchantInserted 3 20),
    .event 2 (.referralInsertLost 21)]

theorem referral_forest_example :
    ∃ w, exec (step String.toUpper) (World.start exampleAccounts) exampleChain = some w ∧
      w.db.referrals.map ReferralRow.referredId = [1, 3] ∧
      ∀ id, ¬Relation.TransGen w.db.Refers id id := by
  obtain ⟨w, hw, hreferred⟩ :
      ∃ w, exec (step String.toUpper) (World.start exampleAccounts) exampleChain = some w ∧
        w.db.referrals.map ReferralRow.referredId = [1, 3] :=
    exists_exec_of_any (by decide +kernel)
  exact ⟨w, hw, hreferred, (referral_forest exampleAccounts_constrained
    (fun r hr => absurd hr List.not_mem_nil) hw).2.2⟩

end KonfirmBackend.Auth
