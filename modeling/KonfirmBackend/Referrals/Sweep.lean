import KonfirmBackend.Reconciler.Watch
import Mathlib.Data.List.Perm.Subperm

/-!
# Overlapping referral sweeps

`ReferralRewardsService.sweep` claims the referrals whose merchant has been paid in one
`UPDATE … RETURNING`, and then grants each referrer a promo in a statement of its own. Runs
overlap. A claim works on the snapshot its statement began with; a row that another claim
has locked makes it wait, and is then checked again, by the condition of the `UPDATE` alone:
the ids that the snapshot selected.

## Main definitions

- `ReferralTable` — the referrals, by unique ids
- `Sweeps`, `step` — the tables, and the runs in their two phases
- `AtMostOnce` — no referral is claimed or rewarded twice
- `Observed` — the runs, with the claims that have committed since the snapshot of each claim
- `CommitsAlone` — what a claim has selected, no claim that has committed since had selected

## Main results

- `move_of_step` — every step is one of the cases
- `inv_of_step`, `tracks_of_observed_step` — what every run keeps
- `at_most_once_iff` — in which runs each referral is claimed at most once
-/

namespace KonfirmBackend.Referrals

open Reconciler Transition

structure Referral where
  id : ℕ
  referrerId : ℕ
  referredId : ℕ
  rewardGrantedAt : Option ℕ
deriving DecidableEq

/-- The committed rows of `referrals`. -/
structure ReferralTable where
  rows : List Referral
  nodup : (rows.map Referral.id).Nodup
deriving DecidableEq

/-- What the claim returns of a row. -/
structure Claimed where
  id : ℕ
  referrerId : ℕ
deriving DecidableEq

/-- `UPDATE … SET reward_granted_at` of one row. -/
def Referral.grantedAt (now : ℕ) (ids : List ℕ) (r : Referral) : Referral :=
  if r.id ∈ ids then { r with rewardGrantedAt := some now } else r

@[simp] theorem Referral.id_grantedAt (now : ℕ) (ids : List ℕ) (r : Referral) :
    (r.grantedAt now ids).id = r.id := by
  rw [grantedAt]
  split <;> rfl

namespace ReferralTable

def setGranted (t : ReferralTable) (now : ℕ) (ids : List ℕ) : ReferralTable where
  rows := t.rows.map (Referral.grantedAt now ids)
  nodup := by
    rw [List.map_map]
    exact (List.map_congr_left fun r _ => Referral.id_grantedAt now ids r) ▸ t.nodup

/-- The `INSERT` of a signup with a referral code; the id of the row is new. -/
def insert (t : ReferralTable) (id referrerId referredId : ℕ) : Option ReferralTable :=
  if h : id ∉ t.rows.map Referral.id then
    some ⟨t.rows ++ [⟨id, referrerId, referredId, none⟩], by
      rw [List.map_append]
      exact List.concat_eq_append ▸ t.nodup.concat h⟩
  else none

def find (t : ReferralTable) (id : ℕ) : Option Referral := t.rows.find? fun r => decide (r.id = id)

/-- The CTE `activated`. -/
def activated (t : ReferralTable) (db : Database) : List Referral :=
  t.rows.filter fun r => decide (r.rewardGrantedAt = none ∧
    ∃ p ∈ db.payments, p.merchantId = r.referredId ∧ p.status = .paid)

/-- Nobody has claimed the referral. -/
def Unclaimed (t : ReferralTable) (id : ℕ) : Prop :=
  ∃ r ∈ t.rows, r.id = id ∧ r.rewardGrantedAt = none

instance (t : ReferralTable) (id : ℕ) : Decidable (t.Unclaimed id) :=
  inferInstanceAs (Decidable (∃ r ∈ t.rows, _))

end ReferralTable

/-! ## The runs -/

/-- A claiming `UPDATE` under way: when it began, the ids its snapshot selected, those it
has yet to visit, and the rows it has updated, and locked, so far. -/
structure ClaimStatement where
  startedAt : ℕ
  activated : List ℕ
  todo : List ℕ
  updated : List Claimed
deriving DecidableEq

def ClaimStatement.Locks (c : ClaimStatement) (id : ℕ) : Prop := ∃ u ∈ c.updated, u.id = id

instance (c : ClaimStatement) (id : ℕ) : Decidable (c.Locks id) :=
  inferInstanceAs (Decidable (∃ u ∈ c.updated, _))

/-- The statement updates the row as it is committed now, if that satisfies
`id IN (SELECT id FROM activated)`. -/
def ClaimStatement.visit (c : ClaimStatement) (t : ReferralTable) (id : ℕ) : ClaimStatement where
  startedAt := c.startedAt
  activated := c.activated
  todo := c.todo.erase id
  updated := c.updated ++
    (((t.find id).filter fun r => decide (r.id ∈ c.activated)).map fun r =>
      ⟨r.id, r.referrerId⟩).toList

/-- The tables and the runs. `returned` and `granted` are history: what the claims have
returned, and the grants made for it, oldest first. -/
structure Sweeps where
  db : Database
  referrals : ReferralTable
  claims : List ClaimStatement
  /-- runs in their loop over the claimed rows, with those still to be granted -/
  grants : List (List Claimed)
  returned : List Claimed
  granted : List Claimed
deriving DecidableEq

inductive SweepAction
  /-- the claim begins: the snapshot is taken and the CTE evaluated -/
  | begin (now : ℕ)
  /-- the claim visits a row, which no other claim has locked -/
  | visit (i : ℕ) (id : ℕ)
  /-- the claim commits and returns its rows -/
  | commit (i : ℕ)
  /-- a claim that fails is rolled back -/
  | rollback (i : ℕ)
  /-- the next `UPDATE` of a referrer -/
  | grant (i : ℕ) (now : ℕ)
  /-- a run that fails in its loop -/
  | abort (i : ℕ)
  /-- a signup with a referral code -/
  | refer (id referrerId referredId : ℕ)
  /-- anything that happens to the other tables -/
  | write (db : Database)

/-- A referrer's reward lasts thirty days, in milliseconds. -/
def REWARD_DAYS : ℕ := 30

def MS_PER_DAY : ℕ := 24 * 60 * 60 * 1000

def REWARD_DISCOUNT_DIVISOR : ℕ := 2

/-- `GREATEST(FLOOR(fee_bps / 2), 0)`. -/
def rewardFeeBps (feeBps : FeeBps) : FeeBps :=
  ⟨max (feeBps.val / REWARD_DISCOUNT_DIVISOR) 0, by
    rw [Nat.max_zero]
    exact (Nat.div_le_self _ _).trans feeBps.le⟩

/-- The row after a grant at time `now`: all three promo columns are overwritten. -/
def reward (row : MerchantRow) (now : ℕ) : MerchantRow :=
  row.grantPromo (rewardFeeBps row.feeBps) (now + REWARD_DAYS * MS_PER_DAY)

def rewardReferrer (db : Database) (now referrerId : ℕ) : Database :=
  { db with merchants := db.merchants.map fun m => if m.id = referrerId then reward m now else m }

def step (s : Sweeps) : SweepAction → Option Sweeps
  | .begin now =>
    let ids := (s.referrals.activated s.db).map Referral.id
    some { s with claims := s.claims ++ [⟨now, ids, ids, []⟩] }
  | .visit i id =>
    (s.claims[i]?).bind fun c =>
      if id ∈ c.todo ∧ ∀ d ∈ s.claims.eraseIdx i, ¬d.Locks id then
        some { s with claims := s.claims.set i (c.visit s.referrals id) }
      else none
  | .commit i =>
    (s.claims[i]?).bind fun c =>
      if c.todo = [] then
        some { s with
          referrals := s.referrals.setGranted c.startedAt (c.updated.map Claimed.id)
          claims := s.claims.eraseIdx i
          grants := s.grants ++ [c.updated]
          returned := s.returned ++ c.updated }
      else none
  | .rollback i => some { s with claims := s.claims.eraseIdx i }
  | .grant i now =>
    match s.grants[i]? with
    | some (c :: rest) =>
      some { s with
        db := rewardReferrer s.db now c.referrerId
        grants := s.grants.set i rest
        granted := s.granted ++ [c] }
    | _ => none
  | .abort i => some { s with grants := s.grants.eraseIdx i }
  | .refer id referrerId referredId =>
    (s.referrals.insert id referrerId referredId).map fun t => { s with referrals := t }
  | .write db => some { s with db := db }

/-- No run under way. -/
def Sweeps.start (db : Database) (referrals : ReferralTable) : Sweeps :=
  ⟨db, referrals, [], [], [], []⟩

/-- No referral has been returned by two claims, or granted twice. -/
def AtMostOnce (s : Sweeps) : Prop :=
  (s.returned.map Claimed.id).Nodup ∧ (s.granted.map Claimed.id).Nodup

instance (s : Sweeps) : Decidable (AtMostOnce s) := inferInstanceAs (Decidable (_ ∧ _))

/-- A claim under way: the ids that its snapshot selected, and those that the claims that have
committed since had selected. -/
structure Overlap where
  selected : List ℕ
  since : List ℕ
deriving DecidableEq

/-- The runs, with the overlaps of the claims under way. -/
structure Observed where
  sweeps : Sweeps
  overlaps : List Overlap
deriving DecidableEq

namespace Observed

def start (db : Database) (referrals : ReferralTable) : Observed := ⟨.start db referrals, []⟩

/-- The runs move to `t` with the step `a`. -/
def next (x : Observed) (a : SweepAction) (t : Sweeps) : Observed where
  sweeps := t
  overlaps := match a with
    | .begin _ => x.overlaps ++ [⟨(x.sweeps.referrals.activated x.sweeps.db).map Referral.id, []⟩]
    | .commit i =>
      (x.overlaps.eraseIdx i).map fun o =>
        { o with since := o.since ++ (x.overlaps[i]?).elim [] Overlap.selected }
    | .rollback i => x.overlaps.eraseIdx i
    | _ => x.overlaps

def step (x : Observed) (a : SweepAction) : Option Observed :=
  (Referrals.step x.sweeps a).map (x.next a)

end Observed

/-- When a claim commits, no claim that has committed since its snapshot had selected one of the
referrals that it had selected. -/
def CommitsAlone : Observed × SweepAction × Observed → Prop
  | (x, .commit i, _) => ∀ o ∈ x.overlaps[i]?, ∀ id ∈ o.selected, id ∉ o.since
  | _ => True

/-! ## What the claims know -/

namespace ReferralTable

variable {t t' : ReferralTable} {now id : ℕ} {ids : List ℕ}

/-- A claim of the referral has committed. -/
def Granted (t : ReferralTable) (id : ℕ) : Prop :=
  ∃ r ∈ t.rows, r.id = id ∧ r.rewardGrantedAt ≠ none

theorem Granted.not_unclaimed (h : t.Granted id) : ¬t.Unclaimed id := by
  rintro ⟨r, hr, hid, hnone⟩
  obtain ⟨r', hr', hid', hsome⟩ := h
  obtain rfl : r = r' := List.inj_on_of_nodup_map t.nodup hr hr' (hid.trans hid'.symm)
  exact hsome hnone

theorem Granted.setGranted (h : t.Granted id) : (t.setGranted now ids).Granted id := by
  obtain ⟨r, hr, hid, hsome⟩ := h
  refine ⟨r.grantedAt now ids, List.mem_map_of_mem hr, by simpa using hid, ?_⟩
  rw [Referral.grantedAt]
  split
  · simp
  · exact hsome

/-- What a claim commits is granted. -/
theorem granted_setGranted (hmem : id ∈ ids) (h : t.Unclaimed id) :
    (t.setGranted now ids).Granted id := by
  obtain ⟨r, hr, hid, -⟩ := h
  refine ⟨r.grantedAt now ids, List.mem_map_of_mem hr, by simpa using hid, ?_⟩
  rw [Referral.grantedAt, if_pos (hid ▸ hmem)]
  simp

/-- The other rows are left alone. -/
theorem unclaimed_setGranted (hmem : id ∉ ids) (h : t.Unclaimed id) :
    (t.setGranted now ids).Unclaimed id := by
  obtain ⟨r, hr, hid, hnone⟩ := h
  refine ⟨r.grantedAt now ids, List.mem_map_of_mem hr, by simpa using hid, ?_⟩
  rw [Referral.grantedAt, if_neg (hid ▸ hmem)]
  exact hnone

theorem subset_of_insert {referrerId referredId : ℕ}
    (h : t.insert id referrerId referredId = some t') : t.rows ⊆ t'.rows := by
  simp only [insert] at h
  split at h
  · obtain rfl := Option.some.inj h
    exact List.subset_append_left _ _
  · simp at h

/-- The inserted row is new, and not marked. -/
theorem mem_or_unmarked_of_insert {referrerId referredId : ℕ} {r : Referral}
    (h : t.insert id referrerId referredId = some t') (hr : r ∈ t'.rows) :
    r ∈ t.rows ∨ r.rewardGrantedAt = none := by
  simp only [insert] at h
  split at h
  · obtain rfl := Option.some.inj h
    rcases List.mem_append.mp hr with hr | hr
    · exact .inl hr
    · exact .inr (by rw [List.mem_singleton.mp hr])
  · simp at h

theorem Granted.mono (hsub : t.rows ⊆ t'.rows) (h : t.Granted id) : t'.Granted id := by
  obtain ⟨r, hr, hrest⟩ := h
  exact ⟨r, hsub hr, hrest⟩

theorem Unclaimed.mono (hsub : t.rows ⊆ t'.rows) (h : t.Unclaimed id) : t'.Unclaimed id := by
  obtain ⟨r, hr, hrest⟩ := h
  exact ⟨r, hsub hr, hrest⟩

/-- The snapshot selects unclaimed rows. -/
theorem unclaimed_of_activated {db : Database} (h : id ∈ (t.activated db).map Referral.id) :
    t.Unclaimed id := by
  obtain ⟨r, hr, rfl⟩ := List.mem_map.mp h
  obtain ⟨hmem, hsel⟩ := List.mem_filter.mp hr
  exact ⟨r, hmem, rfl, (of_decide_eq_true hsel).1⟩

theorem nodup_activated (t : ReferralTable) (db : Database) :
    ((t.activated db).map Referral.id).Nodup :=
  t.nodup.sublist (List.filter_sublist.map _)

end ReferralTable

/-- A claim visits each row that its snapshot selected once. -/
structure ClaimStatement.Sound (c : ClaimStatement) : Prop where
  rows : (c.todo ++ c.updated.map Claimed.id).Perm c.activated
  nodup : c.activated.Nodup

theorem ReferralTable.find_of_mem {t : ReferralTable} {id : ℕ} (h : ∃ r ∈ t.rows, r.id = id) :
    ∃ r, t.find id = some r ∧ r.id = id := by
  obtain ⟨r₀, hr₀, hid⟩ := h
  cases hfind : t.find id with
  | none => exact absurd (decide_eq_true hid) (List.find?_eq_none.mp hfind r₀ hr₀)
  | some r => exact ⟨r, rfl, by simpa using List.find?_some hfind⟩

namespace ClaimStatement

variable {c : ClaimStatement} {id : ℕ}

theorem Sound.nodup_updated (hc : c.Sound) : (c.updated.map Claimed.id).Nodup :=
  (List.nodup_append.mp (hc.rows.nodup_iff.mpr hc.nodup)).2.1

/-- A claim that has visited all rows has updated those that its snapshot selected. -/
theorem Sound.mem_updated_iff (hc : c.Sound) (htodo : c.todo = []) :
    id ∈ c.updated.map Claimed.id ↔ id ∈ c.activated := by
  have hperm := hc.rows
  rw [htodo, List.nil_append] at hperm
  exact hperm.mem_iff

theorem Sound.mem_activated (hc : c.Sound) {u : Claimed} (hu : u ∈ c.updated) :
    u.id ∈ c.activated :=
  hc.rows.subset (List.mem_append_right _ (List.mem_map_of_mem hu))

/-- The row is there, and its id is one that the snapshot selected. -/
theorem Sound.visit (hc : c.Sound) {t : ReferralTable} (hrow : ∃ r ∈ t.rows, r.id = id)
    (hid : id ∈ c.todo) : (c.visit t id).Sound := by
  refine ⟨?_, hc.nodup⟩
  have hselected : id ∈ c.activated := hc.rows.subset (List.mem_append_left _ hid)
  obtain ⟨r, hfind, rfl⟩ := ReferralTable.find_of_mem hrow
  have hfilter : (t.find r.id).filter (fun r => decide (r.id ∈ c.activated)) = some r := by
    rw [hfind, Option.filter_some, if_pos (decide_eq_true hselected)]
  have herase : (r.id :: c.todo.erase r.id ++ c.updated.map Claimed.id).Perm c.activated :=
    ((List.perm_cons_erase hid).symm.append_right _).trans hc.rows
  rw [ClaimStatement.visit, hfilter]
  simp only [Option.map_some, Option.toList_some, List.map_append, List.map_singleton,
    ← List.append_assoc]
  exact (List.perm_append_singleton _ _).trans herase

end ClaimStatement

/-- The steps, by what they do to the sweeps. -/
inductive Move (s : Sweeps) : SweepAction → Sweeps → Prop
  | began (now : ℕ) (ids : List ℕ) (hids : ids = (s.referrals.activated s.db).map Referral.id) :
      Move s (.begin now) { s with claims := s.claims ++ [⟨now, ids, ids, []⟩] }
  | visited (i id : ℕ) (c : ClaimStatement) (hc : s.claims[i]? = some c) (hid : id ∈ c.todo)
      (hfree : ∀ d ∈ s.claims.eraseIdx i, ¬d.Locks id) :
      Move s (.visit i id) { s with claims := s.claims.set i (c.visit s.referrals id) }
  | committed (i : ℕ) (c : ClaimStatement) (hc : s.claims[i]? = some c) (htodo : c.todo = []) :
      Move s (.commit i) { s with
        referrals := s.referrals.setGranted c.startedAt (c.updated.map Claimed.id)
        claims := s.claims.eraseIdx i
        grants := s.grants ++ [c.updated]
        returned := s.returned ++ c.updated }
  | rolledBack (i : ℕ) : Move s (.rollback i) { s with claims := s.claims.eraseIdx i }
  | granted (i now : ℕ) (c : Claimed) (rest : List Claimed)
      (hget : s.grants[i]? = some (c :: rest)) :
      Move s (.grant i now) { s with
        db := rewardReferrer s.db now c.referrerId
        grants := s.grants.set i rest
        granted := s.granted ++ [c] }
  | aborted (i : ℕ) : Move s (.abort i) { s with grants := s.grants.eraseIdx i }
  | referred (id referrerId referredId : ℕ) (table : ReferralTable)
      (hins : s.referrals.insert id referrerId referredId = some table) :
      Move s (.refer id referrerId referredId) { s with referrals := table }
  | wrote (db : Database) : Move s (.write db) { s with db := db }

/-- The invariant of every run of the sweeps. -/
structure Sweeps.Inv (s : Sweeps) : Prop where
  claims : ∀ c ∈ s.claims, c.Sound
  /-- what a snapshot has selected is unclaimed still, or has been returned since -/
  selected : ∀ c ∈ s.claims, ∀ id ∈ c.activated,
    s.referrals.Unclaimed id ∨ id ∈ s.returned.map Claimed.id
  returned : ∀ id ∈ s.returned.map Claimed.id, s.referrals.Granted id
  pending : (s.granted ++ s.grants.flatten).Subperm s.returned

variable {s t : Sweeps} {a : SweepAction}

theorem move_of_step (h : step s a = some t) : Move s a t := by
  cases a with
  | begin now =>
    obtain rfl := Option.some.inj h
    exact .began now _ rfl
  | visit i id =>
    obtain ⟨c, hc, h⟩ := Option.bind_eq_some_iff.mp h
    split at h
    case isTrue hid =>
      obtain rfl := Option.some.inj h
      exact .visited i id c hc hid.1 hid.2
    case isFalse => cases h
  | commit i =>
    obtain ⟨c, hc, h⟩ := Option.bind_eq_some_iff.mp h
    split at h
    case isTrue htodo =>
      obtain rfl := Option.some.inj h
      exact .committed i c hc htodo
    case isFalse => cases h
  | rollback i =>
    obtain rfl := Option.some.inj h
    exact .rolledBack i
  | grant i now =>
    simp only [step] at h
    split at h
    case h_1 c rest hget =>
      obtain rfl := Option.some.inj h
      exact .granted i now c rest hget
    case h_2 => cases h
  | abort i =>
    obtain rfl := Option.some.inj h
    exact .aborted i
  | refer id referrerId referredId =>
    obtain ⟨table, hins, rfl⟩ := Option.map_eq_some_iff.mp h
    exact .referred id referrerId referredId table hins
  | write db =>
    obtain rfl := Option.some.inj h
    exact .wrote db

theorem Sweeps.inv_start (db : Database) (referrals : ReferralTable) :
    (Sweeps.start db referrals).Inv := by
  constructor <;> simp [Sweeps.start]

/-- What a snapshot has selected is still there. -/
theorem Sweeps.Inv.row_of_selected (hs : s.Inv) {c : ClaimStatement} (hc : c ∈ s.claims) {id : ℕ}
    (hid : id ∈ c.activated) : ∃ r ∈ s.referrals.rows, r.id = id := by
  obtain ⟨r, hr, hrid, -⟩ | hret := hs.selected c hc id hid
  · exact ⟨r, hr, hrid⟩
  · obtain ⟨r, hr, hrid, -⟩ := hs.returned id hret
    exact ⟨r, hr, hrid⟩

/-- Taking the next row out of a run. -/
theorem flatten_set_perm {α : Type} {l : List (List α)} {i : ℕ} {c : α} {rest : List α}
    (h : l[i]? = some (c :: rest)) : (c :: (l.set i rest).flatten).Perm l.flatten := by
  induction l generalizing i with
  | nil => simp at h
  | cons x l ih =>
    cases i with
    | zero =>
      obtain rfl : x = c :: rest := by simpa using h
      exact .refl _
    | succ i =>
      have hi : l[i]? = some (c :: rest) := by simpa using h
      exact List.perm_middle.symm.trans ((ih hi).append_left x)

theorem inv_of_step (hs : s.Inv) (h : step s a = some t) : t.Inv := by
  cases move_of_step h with
  | began now ids hids =>
    refine ⟨?_, ?_, hs.returned, hs.pending⟩
    · intro c hc
      rcases List.mem_append.mp hc with hc | hc
      · exact hs.claims c hc
      · rw [List.mem_singleton.mp hc, hids]
        exact ⟨by simp, s.referrals.nodup_activated s.db⟩
    · intro c hc id hid
      rcases List.mem_append.mp hc with hc | hc
      · exact hs.selected c hc id hid
      · rw [List.mem_singleton.mp hc, hids] at hid
        exact .inl (ReferralTable.unclaimed_of_activated hid)
  | visited i id c hc hid hfree =>
    have hmem : c ∈ s.claims := List.mem_of_getElem? hc
    refine ⟨?_, ?_, hs.returned, hs.pending⟩
    · intro d hd
      rcases List.mem_or_eq_of_mem_set hd with hd | rfl
      · exact hs.claims d hd
      · have hselected : id ∈ c.activated :=
          (hs.claims c hmem).rows.subset (List.mem_append_left _ hid)
        exact (hs.claims c hmem).visit (hs.row_of_selected hmem hselected) hid
    · intro d hd
      rcases List.mem_or_eq_of_mem_set hd with hd | rfl
      · exact hs.selected d hd
      · exact hs.selected c hmem
  | committed i c hc htodo =>
    have hmem : c ∈ s.claims := List.mem_of_getElem? hc
    refine ⟨?_, ?_, ?_, ?_⟩
    · intro d hd
      exact hs.claims d (List.mem_of_mem_eraseIdx hd)
    · intro d hd id hid
      simp only [List.map_append, List.mem_append]
      by_cases hupdated : id ∈ c.updated.map Claimed.id
      · exact .inr (.inr hupdated)
      · rcases hs.selected d (List.mem_of_mem_eraseIdx hd) id hid with hun | hret
        · exact .inl (ReferralTable.unclaimed_setGranted hupdated hun)
        · exact .inr (.inl hret)
    · intro id hid
      simp only [List.map_append, List.mem_append] at hid
      rcases hid with hret | hupdated
      · exact (hs.returned id hret).setGranted
      · obtain ⟨u, hu, rfl⟩ := List.mem_map.mp hupdated
        rcases hs.selected c hmem u.id ((hs.claims c hmem).mem_activated hu) with hun | hret
        · exact ReferralTable.granted_setGranted hupdated hun
        · exact (hs.returned u.id hret).setGranted
    · simp only [List.flatten_append, List.flatten_singleton, ← List.append_assoc]
      exact hs.pending.append (List.Subperm.refl _)
  | rolledBack i =>
    exact ⟨fun c hc => hs.claims c (List.mem_of_mem_eraseIdx hc),
      fun c hc => hs.selected c (List.mem_of_mem_eraseIdx hc), hs.returned, hs.pending⟩
  | granted i now c rest hget =>
    refine ⟨hs.claims, hs.selected, hs.returned, ?_⟩
    rw [List.append_assoc, List.singleton_append]
    exact ((flatten_set_perm hget).append_left _).subperm.trans hs.pending
  | aborted i =>
    refine ⟨hs.claims, hs.selected, hs.returned, ?_⟩
    have hsub : (s.grants.eraseIdx i).flatten.Sublist s.grants.flatten :=
      (List.eraseIdx_sublist _ i).flatten
    exact (hsub.append_left _).subperm.trans hs.pending
  | referred id referrerId referredId table hins =>
    have hsub := ReferralTable.subset_of_insert hins
    exact ⟨hs.claims, fun c hc id hid => (hs.selected c hc id hid).imp_left (.mono hsub),
      fun id hid => (hs.returned id hid).mono hsub, hs.pending⟩
  | wrote db => exact ⟨hs.claims, hs.selected, hs.returned, hs.pending⟩

/-! ## Overlaps -/

variable {x y : Observed}

/-- The overlaps are those of the claims under way, and of what a claim has selected, others have
returned what they have committed since. -/
structure Observed.Tracks (x : Observed) : Prop where
  inv : x.sweeps.Inv
  selected : x.overlaps.map Overlap.selected = x.sweeps.claims.map ClaimStatement.activated
  since : ∀ o ∈ x.overlaps, ∀ id ∈ o.selected,
    id ∈ x.sweeps.returned.map Claimed.id ↔ id ∈ o.since

theorem Observed.tracks_start (db : Database) (referrals : ReferralTable) :
    (Observed.start db referrals).Tracks :=
  ⟨Sweeps.inv_start db referrals, rfl, by simp [Observed.start]⟩

/-- The overlaps of a claim. -/
theorem Observed.Tracks.getElem? (hx : x.Tracks) {i : ℕ} {c : ClaimStatement}
    (hc : x.sweeps.claims[i]? = some c) :
    ∃ o, x.overlaps[i]? = some o ∧ o.selected = c.activated := by
  have hop : (x.overlaps.map Overlap.selected)[i]? = some c.activated := by
    rw [hx.selected, List.getElem?_map, hc, Option.map_some]
  rw [List.getElem?_map] at hop
  exact Option.map_eq_some_iff.mp hop

theorem tracks_of_observed_step (hx : x.Tracks) (h : x.step a = some y) : y.Tracks := by
  obtain ⟨t, ht, rfl⟩ := Option.map_eq_some_iff.mp h
  have hinv := inv_of_step hx.inv ht
  cases move_of_step ht with
  | began now ids hids =>
    refine ⟨hinv, ?_, ?_⟩
    · simp [Observed.next, hx.selected, hids]
    · intro o ho id hid
      rcases List.mem_append.mp ho with ho | ho
      · exact hx.since o ho id hid
      · -- nobody has returned what the new snapshot selects
        rw [List.mem_singleton.mp ho] at hid ⊢
        refine iff_of_false (fun hret => ?_) List.not_mem_nil
        exact (hx.inv.returned id hret).not_unclaimed (ReferralTable.unclaimed_of_activated hid)
  | visited i id c hc hid hfree =>
    refine ⟨hinv, ?_, hx.since⟩
    show x.overlaps.map Overlap.selected = (x.sweeps.claims.set i _).map ClaimStatement.activated
    rw [hx.selected, List.map_set]
    refine (List.ext_getElem? fun j => ?_).symm
    rw [List.getElem?_set]
    by_cases hij : i = j
    · subst hij
      have hlt : i < x.sweeps.claims.length := (List.getElem?_eq_some_iff.mp hc).1
      rw [if_pos rfl, if_pos (by rwa [List.length_map]), List.getElem?_map, hc]
      rfl
    · rw [if_neg hij]
  | committed i c hc htodo =>
    obtain ⟨o, ho, hsel⟩ := hx.getElem? hc
    have hmem : c ∈ x.sweeps.claims := List.mem_of_getElem? hc
    refine ⟨hinv, ?_, ?_⟩
    · show ((x.overlaps.eraseIdx i).map _).map Overlap.selected =
        (x.sweeps.claims.eraseIdx i).map ClaimStatement.activated
      rw [List.map_map]
      show (x.overlaps.eraseIdx i).map Overlap.selected = _
      rw [← List.eraseIdx_map, hx.selected, List.eraseIdx_map]
    · intro o' ho' id hid
      obtain ⟨o₀, ho₀, rfl⟩ := List.mem_map.mp ho'
      show id ∈ (x.sweeps.returned ++ c.updated).map Claimed.id ↔ id ∈ o₀.since ++ _
      rw [ho, Option.elim_some, hsel, List.map_append, List.mem_append, List.mem_append,
        (hx.inv.claims c hmem).mem_updated_iff htodo,
        hx.since o₀ (List.mem_of_mem_eraseIdx ho₀) id hid]
  | rolledBack i =>
    refine ⟨hinv, ?_, fun o ho => hx.since o (List.mem_of_mem_eraseIdx ho)⟩
    show (x.overlaps.eraseIdx i).map Overlap.selected =
      (x.sweeps.claims.eraseIdx i).map ClaimStatement.activated
    rw [← List.eraseIdx_map, hx.selected, List.eraseIdx_map]
  | granted | aborted | referred | wrote => exact ⟨hinv, hx.selected, hx.since⟩

/-- A claim returns only referrals that no claim has returned exactly when what it had selected,
no claim that has committed since its snapshot had. -/
theorem nodup_returned_step_iff (hx : x.Tracks)
    (hnodup : (x.sweeps.returned.map Claimed.id).Nodup) (h : x.step a = some y) :
    (y.sweeps.returned.map Claimed.id).Nodup ↔ CommitsAlone (x, a, y) := by
  obtain ⟨t, ht, rfl⟩ := Option.map_eq_some_iff.mp h
  cases move_of_step ht with
  | committed i c hc htodo =>
    obtain ⟨o, ho, hsel⟩ := hx.getElem? hc
    have hsound := hx.inv.claims c (List.mem_of_getElem? hc)
    simp only [CommitsAlone, ho, Option.mem_def, Option.some.injEq, forall_eq']
    show ((x.sweeps.returned ++ c.updated).map Claimed.id).Nodup ↔ _
    rw [List.map_append]
    constructor
    · intro hnew id hid hsince
      have hreturned := (hx.since o (List.mem_of_getElem? ho) id hid).mpr hsince
      have hupdated := (hsound.mem_updated_iff htodo).mpr (hsel ▸ hid)
      exact List.disjoint_of_nodup_append hnew hreturned hupdated
    · intro halone
      refine hnodup.append hsound.nodup_updated ?_
      intro id hreturned hupdated
      have hid : id ∈ o.selected := hsel ▸ (hsound.mem_updated_iff htodo).mp hupdated
      exact halone id hid ((hx.since o (List.mem_of_getElem? ho) id hid).mp hreturned)
  | began | visited | rolledBack | granted | aborted | referred | wrote =>
    exact iff_of_true hnodup trivial

/-- Each returned referral is granted at most once. -/
theorem Sweeps.Inv.atMostOnce_iff (hs : s.Inv) :
    AtMostOnce s ↔ (s.returned.map Claimed.id).Nodup := by
  refine ⟨fun h => h.1, fun h => ⟨h, ?_⟩⟩
  obtain ⟨l, hperm, hsub⟩ := (List.sublist_append_left _ _).subperm.trans hs.pending
  exact (hperm.map Claimed.id).nodup_iff.mp (h.sublist (hsub.map Claimed.id))

/-- However the runs of the sweep overlap, each referral is returned by at most one claim and
granted at most once, exactly when no two claims commit that have selected the same referral,
the one between the snapshot and the commit of the other. -/
theorem at_most_once_iff (db : Database) (referrals : ReferralTable) (ls : List SweepAction) :
    (∀ e ∈ trace step (.start db referrals) ls, AtMostOnce e.2.2) ↔
      ∀ e ∈ trace Observed.step (.start db referrals) ls, CommitsAlone e := by
  have herase : trace step (.start db referrals) ls =
      (trace Observed.step (.start db referrals) ls).map
        fun e => (e.1.sweeps, e.2.1, e.2.2.sweeps) := by
    have hstep : ∀ (x : Observed) (a : SweepAction), step x.sweeps a =
        (x.step a).map Observed.sweeps := by
      intro x a
      rw [Observed.step, Option.map_map]
      exact Option.map_id'.symm
    exact trace_map Observed.sweeps hstep (.start db referrals) ls
  have hinv : ∀ e ∈ trace Observed.step (.start db referrals) ls, e.2.2.Tracks :=
    trace_invariant_of_forall (H := fun _ => True) (Observed.tracks_start db referrals)
      (fun _ _ _ hx _ h => tracks_of_observed_step hx h) fun _ _ => trivial
  have hiff := trace_invariant_iff
    (I := fun x : Observed => x.Tracks ∧ (x.sweeps.returned.map Claimed.id).Nodup)
    (Q := CommitsAlone) ⟨Observed.tracks_start db referrals, List.nodup_nil⟩
    (fun x a y hx h => by
      rw [← nodup_returned_step_iff hx.1 hx.2 h]
      exact and_iff_right (tracks_of_observed_step hx.1 h)) ls
  rw [herase, List.forall_mem_map, ← hiff]
  exact forall₂_congr fun e he =>
    (hinv e he).inv.atMostOnce_iff.trans (and_iff_right (hinv e he)).symm

/-- A merchant's first payment, of two dollars. -/
def examplePaid (merchantId : ℕ) : Payment where
  id := 0
  merchantId := merchantId
  linkId := none
  muxedId := 7
  muxedAddress := "GREFERRED"
  payerAddress := "GPAYER"
  assetCode := "USDC"
  assetIssuer := some "GISSUER"
  amounts := ⟨⟨20000000, by decide⟩, ⟨0, by decide⟩, ⟨20000000, by decide⟩⟩
  fxRateToUsd := none
  channel := .hostedCheckout
  status := .paid
  pagingToken := 1
  txHash := "tx"
  ledgerSequence := 0

/-- One referral, by merchant 1, of merchant 2. -/
def exampleReferrals : ReferralTable := ⟨[⟨0, 1, 2, none⟩], by decide⟩

/-- The claims of two runs begin before either commits: the second one waits for the row,
finds its id still among those it selected, and returns it again. -/
theorem two_claims_return_referral :
    ∃ s, exec step (.start { exampleDb with payments := [examplePaid 2] } exampleReferrals)
        [.begin 0, .begin 1, .visit 0 0, .commit 0, .visit 0 0, .commit 0] =
          some s ∧
      s.returned = [⟨0, 1⟩, ⟨0, 1⟩] ∧ ¬AtMostOnce s :=
  exists_exec_of_any (by decide +kernel)

end KonfirmBackend.Referrals
