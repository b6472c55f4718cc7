import KonfirmBackend.Auth.Signup

/-!
# When signup is all or nothing

A call knows little of the database: that its e-mail was free when it looked, that its
referrer exists, that nobody has referred the merchant it has stored. The statements of the
other calls keep that, except that one of them may take the e-mail.

## Main definitions

- `Call.Sound` — what a call knows at each of its statements
- `Write` — what a statement writes
- `World.Sound` — what all calls know

## Main results

- `Call.Sound.advance` — a statement keeps what its own call knows
- `World.Sound.step` — undisturbed steps keep what the calls know
- `signup_all_or_nothing` — in undisturbed runs signup is all or nothing
-/

namespace KonfirmBackend.Auth

open Reconciler Referrals Transition

variable (toUpperCase : String → String)

/-! ## What a call knows -/

/-- What a call knows of the database at each of its statements. -/
def Call.Sound (db : AccountDb) (c : Call) : Prop :=
  match c.phase with
  | .checkingEmail => c.row = none
  | .findingReferrer _ => c.row = none ∧ ¬db.HasEmail c.input.email
  | .hashing referrerId | .drawing referrerId _ _ | .inserting referrerId _ _ =>
    c.row = none ∧ ¬db.HasEmail c.input.email ∧ ∀ id ∈ referrerId, db.HasId id
  | .attributing referrerId merchant =>
    c.row = some merchant.id ∧ db.HasId referrerId ∧ ¬db.IsReferred merchant.id ∧
      ∃ a ∈ db.accounts, a.id = merchant.id ∧ a.email = c.input.email ∧ a.promoFeeBps.isSome
  | .ended _ => c.Whole db

/-- What a statement writes, for the call `c` that becomes `c'`. -/
inductive Write (db : AccountDb) (c : Call) (event : Event) (c' : Call) : AccountDb → Prop
  | nothing (hrow : c'.row = c.row) : Write db c event c' db
  | merchant {db' : AccountDb} (referrerId : Option ℕ) (passwordHash ownCode : String)
    (id now : ℕ)
    (hevent : event = .merchantInserted id now ∨ event = .merchantInsertLost id now)
    (hp : c.phase = .inserting referrerId passwordHash ownCode)
    (hins : db.insertAccount (c.input.account referrerId passwordHash ownCode id now) = .ok db')
    (hfresh : ¬db.HasId id) (hrow : c'.row = some id) : Write db c event c' db'
  | referral {db' : AccountDb} (r : ReferralRow) (hins : db.insertReferral r = .ok db')
    (hrow : c.row = some r.referredId) (hrow' : c'.row = c.row) : Write db c event c' db'

namespace Call.Sound

variable {db db' : AccountDb} {c d : Call} {a : Account} {r : ReferralRow}

/-- Another call's merchant does not touch what a call knows, unless it takes the e-mail
that the call has found free. -/
theorem insertAccount (h : d.Sound db) (hins : db.insertAccount a = .ok db')
    (hfree : d.phase = .checkingEmail ∨ d.Ended ∨ d.input.email ≠ a.email) : d.Sound db' := by
  obtain ⟨rfl, -, -⟩ := AccountDb.insertAccount_eq_ok hins
  have hemail : d.phase ≠ .checkingEmail → (∀ result, d.phase ≠ .ended result) →
      ¬db.HasEmail d.input.email →
      ¬AccountDb.HasEmail { db with accounts := db.accounts ++ [a] } d.input.email := by
    intro hnot hended hnone hhas
    rcases (AccountDb.hasEmail_append _).mp hhas with hhas | hhas
    · exact hnone hhas
    · refine (hfree.resolve_left hnot).resolve_left ?_ hhas.symm
      rintro ⟨result, hr⟩
      exact hended result hr
  unfold Call.Sound at h ⊢
  cases hp : d.phase with
  | checkingEmail => rw [hp] at h; exact h
  | findingReferrer code =>
    rw [hp] at h
    exact ⟨h.1, hemail (by simp [hp]) (by simp [hp]) h.2⟩
  | hashing referrerId | drawing referrerId | inserting referrerId =>
    rw [hp] at h
    refine ⟨h.1, hemail (by simp [hp]) (by simp [hp]) h.2.1, ?_⟩
    exact fun id hmem => (AccountDb.hasId_append _).mpr (.inl (h.2.2 id hmem))
  | attributing referrerId merchant =>
    rw [hp] at h
    obtain ⟨hrow, hreferrer, hnot, b, hb, hid', hemail', hpromo⟩ := h
    exact ⟨hrow, (AccountDb.hasId_append _).mpr (.inl hreferrer), hnot, b,
      List.mem_append_left _ hb, hid', hemail', hpromo⟩
  | ended result =>
    rw [hp] at h
    intro id hmem
    obtain ⟨b, hb, hrest⟩ := h id hmem
    exact ⟨b, List.mem_append_left _ hb, hrest⟩

/-- Another call's attribution does not touch what a call knows. -/
theorem insertReferral (h : d.Sound db) (hins : db.insertReferral r = .ok db')
    (hother : ∀ id ∈ d.row, id ≠ r.referredId) : d.Sound db' := by
  obtain ⟨rfl, -, -⟩ := AccountDb.insertReferral_eq_ok hins
  have hreferred : ∀ id ∈ d.row,
      (AccountDb.IsReferred { db with referrals := db.referrals ++ [r] } id ↔
        db.IsReferred id) := by
    intro id hmem
    rw [AccountDb.isReferred_append]
    exact or_iff_left (Ne.symm (hother id hmem))
  unfold Call.Sound at h ⊢
  cases hp : d.phase with
  | checkingEmail | findingReferrer | hashing | drawing | inserting => rw [hp] at h; exact h
  | attributing referrerId merchant =>
    rw [hp] at h
    exact ⟨h.1, h.2.1, fun hnew => h.2.2.1 ((hreferred _ h.1).mp hnew), h.2.2.2⟩
  | ended result =>
    rw [hp] at h
    intro id hmem
    obtain ⟨b, hb, hid, hemail, hiff⟩ := h id hmem
    exact ⟨b, hb, hid, hemail, hiff.trans (hreferred id hmem).symm⟩

/-- A call without a merchant may end in any way. -/
theorem of_row_eq_none (hrow : c.row = none) (result : Except SignupError MerchantClaims) :
    Call.Sound db { c with phase := .ended result } := by
  intro id hmem
  rw [hrow] at hmem
  cases hmem

theorem row_eq_none (h : c.Sound db) {referrerId : Option ℕ} {passwordHash ownCode : String}
    (hp : c.phase = .inserting referrerId passwordHash ownCode) : c.row = none := by
  rw [Call.Sound, hp] at h
  exact h.1

/-- A merchant that has just been stored: it is referred by nobody yet. -/
theorem merchant_stored (hdb : db.Constrained) (h : c.Sound db) {referrerId : Option ℕ}
    {passwordHash ownCode : String} {id now : ℕ}
    (hp : c.phase = .inserting referrerId passwordHash ownCode) (hid : ¬db.HasId id)
    (hins : db.insertAccount (c.input.account referrerId passwordHash ownCode id now) =
      .ok db') :
    Call.Sound db' { c with phase := c.afterInsert referrerId id, row := some id } := by
  rw [Call.Sound, hp] at h
  obtain ⟨-, -, hreferrer⟩ := h
  obtain ⟨rfl, -, -⟩ := AccountDb.insertAccount_eq_ok hins
  have hmem : c.input.account referrerId passwordHash ownCode id now ∈
      db.accounts ++ [c.input.account referrerId passwordHash ownCode id now] :=
    List.mem_append_right _ (List.mem_singleton_self _)
  have hnot : ¬db.IsReferred id := hdb.not_isReferred hid
  cases referrerId with
  | none =>
    intro id' hid'
    obtain rfl : id = id' := Option.some.inj hid'
    exact ⟨_, hmem, rfl, rfl, iff_of_false Bool.false_ne_true hnot⟩
  | some referrer =>
    exact ⟨rfl, (AccountDb.hasId_append _).mpr (.inl (hreferrer referrer rfl)), hnot, _, hmem,
      rfl, rfl, rfl⟩

/-- A merchant that has just been attributed. -/
theorem merchant_attributed (h : c.Sound db) {referrerId now : ℕ} {merchant : MerchantClaims}
    (hp : c.phase = .attributing referrerId merchant)
    (hins : db.insertReferral (c.input.referral toUpperCase referrerId merchant.id now) =
      .ok db') (result : Except SignupError MerchantClaims) :
    Call.Sound db' { c with phase := .ended result } := by
  rw [Call.Sound, hp] at h
  obtain ⟨hrow, -, -, a, ha, hid, hemail, hpromo⟩ := h
  obtain ⟨rfl, -⟩ := AccountDb.insertReferral_eq_ok hins
  intro id hmem
  obtain rfl : merchant.id = id := Option.some.inj (hrow.symm.trans hmem)
  refine ⟨a, ha, hid, hemail, iff_of_true hpromo ?_⟩
  exact (AccountDb.isReferred_append _).mpr (.inr rfl)

/-- The INSERT of an attribution is not refused. -/
theorem insertReferral_ok (h : c.Sound db) {referrerId : ℕ} {merchant : MerchantClaims}
    (hp : c.phase = .attributing referrerId merchant) (now : ℕ) :
    ∃ db', db.insertReferral (c.input.referral toUpperCase referrerId merchant.id now) =
      .ok db' := by
  rw [Call.Sound, hp] at h
  obtain ⟨-, hreferrer, hnot, a, ha, hid, -⟩ := h
  exact ⟨_, (if_neg hnot).trans (if_pos ⟨hreferrer, ⟨a, ha, hid⟩⟩)⟩

theorem row_of_attributing (h : c.Sound db) {referrerId : ℕ} {merchant : MerchantClaims}
    (hp : c.phase = .attributing referrerId merchant) : c.row = some merchant.id := by
  rw [Call.Sound, hp] at h
  exact h.1

/-- A referrer that the lookup finds exists. -/
theorem hasId_of_referrerOf {code : String} {id : ℕ} (h : id ∈ db.referrerOf code) :
    db.HasId id := by
  obtain ⟨a, ha, rfl⟩ := Option.map_eq_some_iff.mp h
  exact ⟨a, List.mem_of_find?_eq_some ha, rfl⟩

/-- A call that has found its e-mail free. -/
theorem email_free (hrow : c.row = none) (hfree : ¬db.HasEmail c.input.email) :
    Call.Sound db { c with phase := c.afterEmail } := by
  unfold Call.afterEmail
  split
  · exact ⟨hrow, hfree, by simp⟩
  · split
    · exact ⟨hrow, hfree, by simp⟩
    · exact ⟨hrow, hfree⟩

/-- One statement keeps what its own call knows, if no answer is lost that matters. -/
theorem advance (h : c.Sound db) (hdb : db.Constrained) {event : Event} {c' : Call}
    (hs : Auth.advance toUpperCase db c event = some (db', c'))
    (hattributed : event = .failed → ∀ r m, c.phase ≠ .attributing r m)
    (hreturned : ∀ id now, event = .merchantInsertLost id now →
      ∀ r hash code, c.phase ≠ .inserting (some r) hash code) :
    c'.Sound db' ∧ c'.input = c.input ∧ Write db c event c' db' := by
  cases event with
  | emailSelected =>
    simp only [Auth.advance] at hs
    split at hs
    case h_1 hp =>
      rw [Call.Sound, hp] at h
      split at hs
      case isTrue => cases hs; exact ⟨of_row_eq_none h _, rfl, .nothing rfl⟩
      case isFalse hfree =>
        cases hs
        exact ⟨email_free h hfree, rfl, .nothing rfl⟩
    case h_2 => cases hs
  | referrerSelected =>
    simp only [Auth.advance] at hs
    split at hs
    case h_1 code hp =>
      rw [Call.Sound, hp] at h
      cases hs
      exact ⟨⟨h.1, h.2, fun id hid => hasId_of_referrerOf hid⟩, rfl, .nothing rfl⟩
    case h_2 => cases hs
  | hashed passwordHash =>
    simp only [Auth.advance] at hs
    split at hs
    case h_1 referrerId hp =>
      rw [Call.Sound, hp] at h
      cases hs
      exact ⟨h, rfl, .nothing rfl⟩
    case h_2 => cases hs
  | codeSelected code =>
    simp only [Auth.advance] at hs
    split at hs
    case h_1 referrerId passwordHash attempt hp =>
      rw [Call.Sound, hp] at h
      split at hs
      · cases hs
      · split at hs
        · cases hs
          exact ⟨h, rfl, .nothing rfl⟩
        · split at hs
          · cases hs
            exact ⟨h, rfl, .nothing rfl⟩
          · cases hs
            exact ⟨of_row_eq_none h.1 _, rfl, .nothing rfl⟩
    case h_2 => cases hs
  | merchantInserted id now =>
    simp only [Auth.advance] at hs
    split at hs
    case h_1 referrerId passwordHash ownCode hp =>
      split at hs
      case isTrue => cases hs
      case isFalse hid =>
        split at hs
        case h_1 => cases hs; exact ⟨of_row_eq_none (h.row_eq_none hp) _, rfl, .nothing rfl⟩
        case h_2 db₁ hins =>
          cases hs
          exact ⟨merchant_stored hdb h hp hid hins, rfl,
            .merchant _ _ _ id now (.inl rfl) hp hins hid rfl⟩
    case h_2 => cases hs
  | merchantInsertLost id now =>
    simp only [Auth.advance] at hs
    split at hs
    case h_1 referrerId passwordHash ownCode hp =>
      split at hs
      case isTrue => cases hs
      case isFalse hid =>
        split at hs
        case h_1 => cases hs
        case h_2 db₁ hins =>
          cases hs
          cases referrerId with
          | some r => exact absurd hp (hreturned id now rfl r _ _)
          | none =>
            exact ⟨merchant_stored hdb h hp hid hins, rfl,
              .merchant _ _ _ id now (.inr rfl) hp hins hid rfl⟩
    case h_2 => cases hs
  | referralInserted now =>
    simp only [Auth.advance] at hs
    split at hs
    case h_1 referrerId merchant hp =>
      obtain ⟨db₁, hins⟩ := insertReferral_ok toUpperCase h hp now
      rw [hins] at hs
      cases hs
      exact ⟨merchant_attributed toUpperCase h hp hins _, rfl,
        .referral _ hins (h.row_of_attributing hp) rfl⟩
    case h_2 => cases hs
  | referralInsertLost now =>
    simp only [Auth.advance] at hs
    split at hs
    case h_1 referrerId merchant hp =>
      obtain ⟨db₁, hins⟩ := insertReferral_ok toUpperCase h hp now
      rw [hins] at hs
      cases hs
      exact ⟨merchant_attributed toUpperCase h hp hins _, rfl,
        .referral _ hins (h.row_of_attributing hp) rfl⟩
    case h_2 => cases hs
  | failed =>
    cases hp : c.phase with
    | attributing r m => exact absurd hp (hattributed rfl r m)
    | ended =>
      simp only [Auth.advance, hp] at hs
      cases hs
    | checkingEmail =>
      simp only [Auth.advance, hp] at hs
      rw [Call.Sound, hp] at h
      cases hs
      exact ⟨of_row_eq_none h _, rfl, .nothing rfl⟩
    | findingReferrer | hashing | drawing | inserting =>
      simp only [Auth.advance, hp] at hs
      rw [Call.Sound, hp] at h
      cases hs
      exact ⟨of_row_eq_none h.1 _, rfl, .nothing rfl⟩

end Call.Sound

/-! ## Whole runs -/

/-- What the calls know, and that no two of them have stored one merchant. -/
structure World.Sound (w : World) : Prop where
  constrained : w.db.Constrained
  calls : ∀ c ∈ w.calls, c.Sound w.db
  stored : ∀ c ∈ w.calls, ∀ id ∈ c.row, w.db.HasId id
  distinct : ∀ (i j : ℕ) (c d : Call), w.calls[i]? = some c → w.calls[j]? = some d → j ≠ i →
    ∀ id ∈ d.row, id ∉ c.row

theorem World.Sound.start {db : AccountDb} (hdb : db.Constrained) : (World.start db).Sound where
  constrained := hdb
  calls := fun _ hc => absurd hc List.not_mem_nil
  stored := fun _ hc => absurd hc List.not_mem_nil
  distinct := fun _ _ _ _ hc => absurd (List.mem_of_getElem? hc) List.not_mem_nil

variable {toUpperCase} {w w' : World}

/-- A step is a new call or one statement of a call. -/
theorem step_event {i : ℕ} {event : Event} (hs : step toUpperCase w (.event i event) = some w') :
    ∃ c db' c', w.calls[i]? = some c ∧ advance toUpperCase w.db c event = some (db', c') ∧
      w' = { db := db', calls := w.calls.set i c' } := by
  simp only [step, Option.bind_eq_bind, Option.bind_eq_some_iff] at hs
  obtain ⟨c, hc, ⟨db', c'⟩, hadv, hw⟩ := hs
  exact ⟨c, db', c', hc, hadv, (Option.some.inj hw).symm⟩

/-- The calls after a statement of call `i`. -/
theorem getElem?_set_cases {calls : List Call} {i j : ℕ} {c' d : Call}
    (h : (calls.set i c')[j]? = some d) : j = i ∧ d = c' ∨ j ≠ i ∧ calls[j]? = some d := by
  rw [List.getElem?_set] at h
  split at h
  case isTrue hij =>
    split at h
    · exact .inl ⟨hij.symm, (Option.some.inj h).symm⟩
    · cases h
  case isFalse hij => exact .inr ⟨fun hji => hij hji.symm, h⟩

/-- The calls after a new one. -/
theorem getElem?_append_cases {calls : List Call} {j : ℕ} {c' d : Call}
    (h : (calls ++ [c'])[j]? = some d) : d = c' ∨ calls[j]? = some d := by
  rcases List.mem_append.mp (List.mem_of_getElem? h) with hd | hd
  · rw [List.getElem?_append] at h
    split at h
    · exact .inr h
    · exact .inl (List.mem_singleton.mp (List.mem_of_getElem? h))
  · exact .inl (List.mem_singleton.mp hd)

/-- The rows of the calls stay distinct if the call that moves keeps its row or stores a
merchant that is not there yet. -/
theorem World.Sound.distinct_set (h : w.Sound) {i : ℕ} {c c' : Call}
    (hc : w.calls[i]? = some c) (hrow : c'.row = c.row ∨ ∀ id ∈ c'.row, ¬w.db.HasId id)
    (j k : ℕ) (d e : Call) (hd : (w.calls.set i c')[j]? = some d)
    (he : (w.calls.set i c')[k]? = some e) (hjk : k ≠ j) : ∀ id ∈ e.row, id ∉ d.row := by
  intro id hide hidd
  rcases getElem?_set_cases hd with ⟨hj, hd'⟩ | ⟨hj, hd'⟩ <;>
    rcases getElem?_set_cases he with ⟨hk, he'⟩ | ⟨hk, he'⟩
  · exact hjk (hk.trans hj.symm)
  · subst hj hd'
    rcases hrow with hsame | hfresh
    · exact h.distinct j k c e hc he' hjk id hide (hsame ▸ hidd)
    · exact hfresh id hidd (h.stored e (List.mem_of_getElem? he') id hide)
  · subst hk he'
    rcases hrow with hsame | hfresh
    · exact h.distinct j k d c hd' hc hjk id (hsame ▸ hide) hidd
    · exact hfresh id hide (h.stored d (List.mem_of_getElem? hd') id hidd)
  · exact h.distinct j k d e hd' he' hjk id hide hidd

/-- The merchants that the calls have stored are there, as long as the call that moves stores
no other. -/
theorem World.Sound.stored_set (h : w.Sound) {i : ℕ} {c c' : Call} (hc : w.calls[i]? = some c)
    (hrow : c'.row = c.row) : ∀ d ∈ w.calls.set i c', ∀ id ∈ d.row, w.db.HasId id := by
  intro d hd id hid
  rcases List.mem_or_eq_of_mem_set hd with hd | rfl
  · exact h.stored d hd id hid
  · exact h.stored c (List.mem_of_getElem? hc) id (hrow ▸ hid)

/-- **Step lemma**: an undisturbed step keeps what the calls know. -/
theorem World.Sound.step {l : Label} (h : w.Sound) (hl : Undisturbed (w, l, w'))
    (hs : Auth.step toUpperCase w l = some w') : w'.Sound := by
  cases l with
  | start input =>
    cases hs
    refine ⟨h.constrained, ?calls, ?stored, ?distinct⟩
    case calls =>
      intro c hc
      rcases List.mem_append.mp hc with hc | hc
      · exact h.calls c hc
      · rw [List.mem_singleton.mp hc]
        rfl
    case stored =>
      intro c hc id hid
      rcases List.mem_append.mp hc with hc | hc
      · exact h.stored c hc id hid
      · rw [List.mem_singleton.mp hc] at hid
        cases hid
    case distinct =>
      intro i j c d hc hd hij id hidd hidc
      rcases getElem?_append_cases hc with rfl | hc'
      · cases hidc
      · rcases getElem?_append_cases hd with rfl | hd'
        · cases hidd
        · exact h.distinct i j c d hc' hd' hij id hidd hidc
  | event i event =>
    obtain ⟨c, db', c', hc, hadv, rfl⟩ := step_event hs
    have hmem : c ∈ w.calls := List.mem_of_getElem? hc
    obtain ⟨hsound, hinput, hwrite⟩ := (h.calls c hmem).advance toUpperCase h.constrained hadv
      (fun hev r m => hl.attributed i c r m (congrArg (Label.event i) hev) hc)
      (fun id now hev r hash code =>
        hl.returned i c id now r hash code (congrArg (Label.event i) hev) hc)
    cases hwrite with
    | nothing hrow =>
      refine ⟨h.constrained, ?_, h.stored_set hc hrow, h.distinct_set hc (.inl hrow)⟩
      intro d hd
      rcases List.mem_or_eq_of_mem_set hd with hd | rfl
      · exact h.calls d hd
      · exact hsound
    | merchant referrerId passwordHash ownCode id now hevent hp hins hfresh hrow =>
      obtain ⟨hdb', -, hcode⟩ := AccountDb.insertAccount_eq_ok hins
      refine ⟨h.constrained.insertAccount hfresh hins, ?calls, ?stored, h.distinct_set hc ?rows⟩
      case rows =>
        refine .inr fun id' hid' => ?_
        obtain rfl : id = id' := Option.some.inj (hrow.symm.trans hid')
        exact hfresh
      case calls =>
        intro d hd
        obtain ⟨j, hj⟩ := List.mem_iff_getElem?.mp hd
        rcases getElem?_set_cases hj with ⟨-, rfl⟩ | ⟨hji, hj'⟩
        · exact hsound
        · refine (h.calls d (List.mem_of_getElem? hj')).insertAccount hins ?_
          by_cases hemail : d.input.email = c.input.email
          · have hothers := hl.alone i j c d id now referrerId passwordHash ownCode
              (hevent.imp (congrArg (Label.event i)) (congrArg (Label.event i))) hc hp
              (hcode ownCode rfl) hj' hji hemail
            exact hothers.imp_right .inl
          · exact .inr (.inr hemail)
      case stored =>
        intro d hd id' hid'
        show db'.HasId id'
        rw [hdb', AccountDb.hasId_append]
        rcases List.mem_or_eq_of_mem_set hd with hd | rfl
        · exact .inl (h.stored d hd id' hid')
        · exact .inr (Option.some.inj (hrow.symm.trans hid'))
    | referral r hins hrow hrow' =>
      obtain ⟨hdb', -⟩ := AccountDb.insertReferral_eq_ok hins
      refine ⟨h.constrained.insertReferral hins, ?calls, ?stored,
        h.distinct_set hc (.inl hrow')⟩
      case calls =>
        intro d hd
        obtain ⟨j, hj⟩ := List.mem_iff_getElem?.mp hd
        rcases getElem?_set_cases hj with ⟨-, rfl⟩ | ⟨hji, hj'⟩
        · exact hsound
        · refine (h.calls d (List.mem_of_getElem? hj')).insertReferral hins ?_
          rintro id hid rfl
          exact h.distinct i j c d hc hj' hji _ hid hrow
      case stored =>
        subst hdb'
        exact h.stored_set hc hrow'

/-- A sound call that has ended is whole. -/
theorem World.Sound.allOrNothing (h : w.Sound) : AllOrNothing w := by
  rintro c hc ⟨result, hp⟩
  have hsound := h.calls c hc
  rw [Call.Sound, hp] at hsound
  exact hsound

/-- A call without a merchant that has found its e-mail free still has it to itself. -/
theorem Call.Sound.checkingEmail_of_hasEmail {db : AccountDb} {c : Call} (h : c.Sound db)
    (hended : ¬c.Ended) (hrow : c.row = none) (hemail : db.HasEmail c.input.email) :
    c.phase = .checkingEmail := by
  unfold Call.Sound at h
  cases hp : c.phase with
  | checkingEmail => rfl
  | findingReferrer code => rw [hp] at h; exact absurd hemail h.2
  | hashing | drawing | inserting => rw [hp] at h; exact absurd hemail h.2.1
  | attributing => rw [hp, hrow] at h; cases h.1
  | ended result => exact absurd ⟨result, hp⟩ hended

/-- **Step lemma**: an undisturbed step ends a call whose e-mail is registered in the conflict. -/
theorem World.Sound.conflictOnly {l : Label} (h : w.Sound) (hl : Undisturbed (w, l, w'))
    (hs : Auth.step toUpperCase w l = some w') : ConflictOnly (w, l, w') := by
  intro i c c' hc hc' hended hrow hemail result hresult
  have hmoved : w.calls[i]? ≠ some c' := by
    intro hsame
    obtain rfl : c = c' := Option.some.inj (hc.symm.trans hsame)
    exact hended ⟨result, hresult⟩
  cases l with
  | start input =>
    cases hs
    rcases getElem?_append_cases hc' with rfl | hsame
    · cases hresult
    · exact absurd hsame hmoved
  | event j event =>
    obtain ⟨c₀, db', c₁, hc₀, hadv, rfl⟩ := step_event hs
    rcases getElem?_set_cases hc' with ⟨rfl, rfl⟩ | ⟨-, hsame⟩
    case inr => exact absurd hsame hmoved
    case inl =>
      obtain rfl : c = c₀ := Option.some.inj (hc.symm.trans hc₀)
      have hsound := h.calls c (List.mem_of_getElem? hc)
      obtain ⟨-, -, hwrite⟩ := hsound.advance toUpperCase h.constrained hadv
        (fun hev r m => hl.attributed i c r m (congrArg (Label.event i) hev) hc)
        (fun id now hev r hash code =>
          hl.returned i c id now r hash code (congrArg (Label.event i) hev) hc)
      have hnone : c.row = none := by
        cases hwrite with
        | nothing hsame => exact hsame.symm.trans hrow
        | merchant _ _ _ _ _ _ _ _ _ hrow' => cases hrow'.symm.trans hrow
        | referral _ _ _ hsame => exact hsame.symm.trans hrow
      have hp := hsound.checkingEmail_of_hasEmail hended hnone hemail
      cases event with
      | emailSelected =>
        simp only [advance, hp, if_pos hemail] at hadv
        cases hadv
        exact (Phase.ended.inj hresult).symm
      | failed => exact absurd hemail (hl.answered i c rfl hc hp)
      | referrerSelected | hashed | codeSelected | merchantInserted | merchantInsertLost
      | referralInserted | referralInsertLost =>
        simp only [advance, hp] at hadv
        cases hadv

/-- **Signup is all or nothing** in every run whose steps are undisturbed, and a call that
finds its e-mail registered ends in the conflict. -/
theorem signup_all_or_nothing {db : AccountDb} (hdb : db.Constrained) {ls : List Label}
    (hl : ∀ e ∈ trace (step toUpperCase) (World.start db) ls, Undisturbed e) :
    ∀ e ∈ trace (step toUpperCase) (World.start db) ls,
      AllOrNothing e.2.2 ∧ ConflictOnly e := by
  have hiff := trace_forall_congr (I := World.Sound) (Q := fun _ => True)
    (P := fun e => AllOrNothing e.2.2 ∧ ConflictOnly e) (World.Sound.start hdb)
    (fun _ _ _ h hl hs => h.step hl hs)
    (fun _ _ _ h hl hs =>
      iff_of_true ⟨(h.step hl hs).allOrNothing, h.conflictOnly hl hs⟩ trivial) hl
  exact hiff.mpr fun _ _ => trivial

/-- The statement of a label is answered, or has no answer to lose. -/
def Label.isAnswered : Label → Bool
  | .event _ .failed | .event _ (.merchantInsertLost _ _) => false
  | .start _ | .event _ _ => true

/-- Calls for different e-mails whose statements are answered do not disturb each other. -/
theorem Undisturbed.of_isAnswered {e : World × Label × World} (hl : e.2.1.isAnswered)
    (hemails : (e.1.calls.map fun c => c.input.email).Nodup) : Undisturbed e where
  answered := fun i c hev => by rw [hev] at hl; cases hl
  attributed := fun i c r m hev => by rw [hev] at hl; cases hl
  returned := fun i c id now r hash code hev => by rw [hev] at hl; cases hl
  alone := by
    intro i j c d id now r hash code _ hc _ _ hd hji hemail
    refine absurd ?_ hji
    have hi : (e.1.calls.map fun c => c.input.email)[i]? = some c.input.email := by
      rw [List.getElem?_map, hc]
      rfl
    have hj : (e.1.calls.map fun c => c.input.email)[j]? = some c.input.email := by
      rw [List.getElem?_map, hd, ← hemail]
      rfl
    have hlt : j < (e.1.calls.map fun c => c.input.email).length :=
      (List.getElem?_eq_some_iff.mp hj).1
    exact (List.getElem?_inj hlt hemails).mp (hj.trans hi.symm)

/-! ## Two merchants -/

def exampleSignup (email : String) (referralCode : Option String) : SignupInput where
  email := email
  password := "correct-horse-battery-staple"
  name := "Test Merchant"
  stellarBaseAddress := "GBXBABMFZIJPTOFI6STUXA2FMEXDBB4URBD3VS5XDHKMFHGLJZ5WPQBB"
  referralCode := referralCode

/-- One merchant, whose code is `ABCDEFGH`. -/
def exampleAccounts : AccountDb where
  accounts := [(exampleSignup "first@example.com" none).account none "hash" "ABCDEFGH" 0 0]
  referrals := []
  payments := []

theorem exampleAccounts_constrained : exampleAccounts.Constrained where
  ids := List.nodup_singleton _
  emails := List.nodup_singleton _
  codes := List.nodup_singleton _
  referred := List.nodup_nil
  references := fun _ hr => absurd hr List.not_mem_nil

/-- A referred merchant and another one sign up side by side. -/
def exampleSignups : List Label :=
  [.start (exampleSignup "second@example.com" (some "abcdefgh")),
    .start (exampleSignup "third@example.com" none),
    .event 0 .emailSelected, .event 0 .referrerSelected, .event 1 .emailSelected,
    .event 0 (.hashed "hash"), .event 0 (.codeSelected "BCDEFGHJ"),
    .event 0 (.merchantInserted 1 10), .event 1 (.hashed "hash"),
    .event 0 (.referralInserted 11), .event 1 (.codeSelected "CDEFGHJK"),
    .event 1 (.merchantInserted 2 12)]

theorem signup_all_or_nothing_example :
    (trace (step String.toUpper) (World.start exampleAccounts) exampleSignups).length = 12 ∧
      ∀ e ∈ trace (step String.toUpper) (World.start exampleAccounts) exampleSignups,
        AllOrNothing e.2.2 ∧ ConflictOnly e := by
  have hcheck : ∀ e ∈ trace (step String.toUpper) (World.start exampleAccounts) exampleSignups,
      e.2.1.isAnswered ∧ (e.1.calls.map fun c => c.input.email).Nodup := by
    decide +kernel
  exact ⟨by decide +kernel, signup_all_or_nothing exampleAccounts_constrained
    fun e he => .of_isAnswered (hcheck e he).1 (hcheck e he).2⟩

example : ((exec (step String.toUpper) (World.start exampleAccounts) exampleSignups).map fun w =>
    (w.calls.map Call.row, w.db.referrals)) =
      some ([some 1, some 2], [⟨0, 1, "ABCDEFGH", 11⟩]) := by
  decide +kernel

/-- The INSERT into `referrals` fails: the merchant keeps its trial, nobody has referred it. -/
def unattributed : List Label :=
  [.start (exampleSignup "second@example.com" (some "abcdefgh")), .event 0 .emailSelected,
    .event 0 .referrerSelected, .event 0 (.hashed "hash"), .event 0 (.codeSelected "BCDEFGHJ"),
    .event 0 (.merchantInserted 1 10), .event 0 .failed]

/-- Two signups for one e-mail: both find it free. -/
def racing : List Label :=
  [.start (exampleSignup "second@example.com" none),
    .start (exampleSignup "second@example.com" none),
    .event 0 .emailSelected, .event 1 .emailSelected, .event 0 (.hashed "hash"),
    .event 1 (.hashed "hash"), .event 0 (.codeSelected "BCDEFGHJ"),
    .event 1 (.codeSelected "CDEFGHJK"), .event 0 (.merchantInserted 1 10),
    .event 1 (.merchantInserted 2 10)]

theorem signup_breaks : exampleAccounts.Constrained ∧
    (∃ e ∈ trace (step String.toUpper) (World.start exampleAccounts) unattributed,
      ¬AllOrNothing e.2.2) ∧
    ∃ e ∈ trace (step String.toUpper) (World.start exampleAccounts) racing,
      ¬ConflictOnly e := by
  refine ⟨exampleAccounts_constrained, by decide +kernel, ?_⟩
  obtain ⟨e, he, c, hc, c', hc', hended, hrow, hemail, hresult⟩ :
      ∃ e ∈ trace (step String.toUpper) (World.start exampleAccounts) racing,
        ∃ c ∈ e.1.calls[1]?, ∃ c' ∈ e.2.2.calls[1]?, ¬c.Ended ∧ c'.row = none ∧
          e.1.db.HasEmail c.input.email ∧ c'.phase = .ended (.error (.postgres "23505")) := by
    decide +kernel
  refine ⟨e, he, fun honly => ?_⟩
  cases honly 1 c c' hc hc' hended hrow hemail _ hresult

end KonfirmBackend.Auth
