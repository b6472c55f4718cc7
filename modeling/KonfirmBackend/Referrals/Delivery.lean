import KonfirmBackend.Referrals.Sweep

/-!
# Claimed rewards and delivered rewards

One statement marks a whole batch of referrals as rewarded, and a loop then rewards the
referrers one by one. The marks keep every later sweep from selecting these referrals again,
so what a run leaves when it fails in its loop has to be delivered by some other run that
claimed the same referral, or it is not delivered at all.

## Main definitions

- `Rewards` — a step commits a referrer's promo for a referral
- `Delivered` — each referral that a sweep has marked is rewarded, or a run is about to
- `AbandonsNothing` — what a failing run leaves is rewarded by others
- `Lost` — a marked referral that nobody is going to reward

## Main results

- `rewards_delivered_iff` — in which runs every claimed reward is delivered
- `lost_forever` — no later sweep rewards a lost referral
-/

namespace KonfirmBackend.Referrals

open Reconciler Transition

/-- What a claim returns of the row. -/
def Referral.claimed (r : Referral) : Claimed := ⟨r.id, r.referrerId⟩

/-- A run in its loop has the referral still to reward. -/
def Sweeps.Owes (s : Sweeps) (c : Claimed) : Prop := c ∈ s.grants.flatten

/-- Between the two states of `merchants`, the referrer has been given half its fee as its promo
rate, from `now` for thirty days and without a cap. -/
def PromoCommitted (before after : Database) (now referrerId : ℕ) : Prop :=
  ∀ m ∈ before.merchants, m.id = referrerId → ∃ m' ∈ after.merchants, m'.id = m.id ∧
    m'.promoFeeBps.map FeeBps.val = some (m.feeBps.val / 2) ∧
    m'.promoExpiresAt = some (now + 30 * 24 * 60 * 60 * 1000) ∧ m'.promoVolumeCapUsdc = none

instance (before after : Database) (now referrerId : ℕ) :
    Decidable (PromoCommitted before after now referrerId) :=
  inferInstanceAs (Decidable (∀ m ∈ before.merchants, _ → ∃ m' ∈ after.merchants, _))

/-- A step is the `UPDATE` of the referrer for the referral `c`, the next one in a run's loop. -/
def Rewards (c : Claimed) : Sweeps × SweepAction × Sweeps → Prop
  | (s, .grant i now, t) => (s.grants[i]?).bind List.head? = some c ∧
      PromoCommitted s.db t.db now c.referrerId
  | _ => False

instance (c : Claimed) : DecidablePred (Rewards c)
  | (_, .grant _ _, _) => inferInstanceAs (Decidable (_ ∧ _))
  | (_, .begin _, _) | (_, .visit _ _, _) | (_, .commit _, _) | (_, .rollback _, _)
  | (_, .abort _, _) | (_, .refer _ _ _, _) | (_, .write _, _) => inferInstanceAs (Decidable False)

/-- After these steps, each referral that a sweep has marked since the start has been rewarded
in one of them, or a run in its loop is about to do so. -/
def Delivered (referrals₀ : ReferralTable) (steps : List (Sweeps × SweepAction × Sweeps))
    (s : Sweeps) : Prop :=
  ∀ r ∈ s.referrals.rows, r.rewardGrantedAt ≠ none → ¬referrals₀.Granted r.id →
    (∃ e ∈ steps, Rewards r.claimed e) ∨ s.Owes r.claimed

instance (table : ReferralTable) (id : ℕ) : Decidable (table.Granted id) :=
  inferInstanceAs (Decidable (∃ r ∈ table.rows, _))

instance (s : Sweeps) (c : Claimed) : Decidable (s.Owes c) :=
  inferInstanceAs (Decidable (c ∈ _))

instance (referrals₀ : ReferralTable) (steps : List (Sweeps × SweepAction × Sweeps)) (s : Sweeps) :
    Decidable (Delivered referrals₀ steps s) :=
  inferInstanceAs (Decidable (∀ r ∈ s.referrals.rows, _))

/-- A run that fails in its loop leaves only referrals that another run has rewarded or has
still to reward. -/
def AbandonsNothing : Sweeps × SweepAction × Sweeps → Prop
  | (s, .abort i, _) => ∀ run ∈ s.grants[i]?, ∀ c ∈ run,
      c ∈ s.granted ∨ c ∈ (s.grants.eraseIdx i).flatten
  | _ => True

/-! ## What is marked has been returned -/

/-- Claims return the rows that they mark, and nothing that was marked before. -/
structure Marks (referrals₀ : ReferralTable) (s : Sweeps) : Prop where
  inv : s.Inv
  kept : ∀ id, referrals₀.Granted id → s.referrals.Granted id
  selected : ∀ c ∈ s.claims, ∀ id ∈ c.activated, ¬referrals₀.Granted id
  updated : ∀ c ∈ s.claims, ∀ u ∈ c.updated, ∃ r ∈ s.referrals.rows, r.claimed = u
  returned : ∀ u ∈ s.returned, ¬referrals₀.Granted u.id ∧ ∃ r ∈ s.referrals.rows, r.claimed = u
  marked : ∀ r ∈ s.referrals.rows, r.rewardGrantedAt ≠ none →
    referrals₀.Granted r.id ∨ r.claimed ∈ s.returned

variable {s t : Sweeps} {a : SweepAction} {referrals₀ : ReferralTable}

@[simp] theorem Referral.claimed_grantedAt (now : ℕ) (ids : List ℕ) (r : Referral) :
    (r.grantedAt now ids).claimed = r.claimed := by
  rw [grantedAt]
  split <;> rfl

theorem marks_start (db : Database) (referrals : ReferralTable) :
    Marks referrals (.start db referrals) := by
  refine ⟨Sweeps.inv_start db referrals, fun _ h => h, by simp [Sweeps.start],
    by simp [Sweeps.start], by simp [Sweeps.start], ?_⟩
  intro r hr hsome
  exact .inl ⟨r, hr, rfl, hsome⟩

/-- Marking keeps the rows, as claims return them. -/
theorem exists_claimed_setGranted {table : ReferralTable} {now : ℕ} {ids : List ℕ} {u : Claimed}
    (h : ∃ r ∈ table.rows, r.claimed = u) :
    ∃ r ∈ (table.setGranted now ids).rows, r.claimed = u := by
  obtain ⟨r, hr, rfl⟩ := h
  exact ⟨r.grantedAt now ids, List.mem_map_of_mem hr, by simp⟩

/-- A claim picks up the row that it visits. -/
theorem exists_claimed_of_mem_visit {c : ClaimStatement} {table : ReferralTable} {id : ℕ}
    (hc : ∀ u ∈ c.updated, ∃ r ∈ table.rows, r.claimed = u) :
    ∀ u ∈ (c.visit table id).updated, ∃ r ∈ table.rows, r.claimed = u := by
  intro u hu
  rcases List.mem_append.mp hu with hu | hu
  · exact hc u hu
  · rw [Option.mem_toList, Option.map_eq_some_iff] at hu
    obtain ⟨r, hr, rfl⟩ := hu
    exact ⟨r, List.mem_of_find?_eq_some (Option.filter_eq_some_iff.mp hr).1, rfl⟩

/-- A commit marks what it returns. -/
theorem marked_setGranted {table : ReferralTable} {c : ClaimStatement} {returned : List Claimed}
    (hmarked : ∀ r ∈ table.rows, r.rewardGrantedAt ≠ none →
      referrals₀.Granted r.id ∨ r.claimed ∈ returned)
    (hupdated : ∀ u ∈ c.updated, ∃ r ∈ table.rows, r.claimed = u) :
    ∀ r ∈ (table.setGranted c.startedAt (c.updated.map Claimed.id)).rows,
      r.rewardGrantedAt ≠ none → referrals₀.Granted r.id ∨ r.claimed ∈ returned ++ c.updated := by
  intro r hr hsome
  obtain ⟨r, hmem, rfl⟩ := List.mem_map.mp hr
  rw [Referral.id_grantedAt, Referral.claimed_grantedAt, List.mem_append]
  by_cases hid : r.id ∈ c.updated.map Claimed.id
  · -- the row it updated under this id is the one with this id
    obtain ⟨u, hu, huid⟩ := List.mem_map.mp hid
    obtain ⟨r', hr', rfl⟩ := hupdated u hu
    obtain rfl : r' = r := List.inj_on_of_nodup_map table.nodup hr' hmem huid
    exact .inr (.inr hu)
  · rw [Referral.grantedAt, if_neg hid] at hsome
    exact (hmarked r hmem hsome).imp_right .inl

theorem marks_of_step (hs : Marks referrals₀ s) (h : step s a = some t) : Marks referrals₀ t := by
  have hinv := inv_of_step hs.inv h
  cases move_of_step h with
  | began now ids hids =>
    refine ⟨hinv, hs.kept, ?_, ?_, hs.returned, hs.marked⟩
    · intro c hc id hid
      rcases List.mem_append.mp hc with hc | hc
      · exact hs.selected c hc id hid
      · rw [List.mem_singleton.mp hc, hids] at hid
        intro hgranted
        exact (hs.kept id hgranted).not_unclaimed (ReferralTable.unclaimed_of_activated hid)
    · intro c hc u hu
      rcases List.mem_append.mp hc with hc | hc
      · exact hs.updated c hc u hu
      · rw [List.mem_singleton.mp hc] at hu
        simp at hu
  | visited i id c hc hid hfree =>
    have hmem : c ∈ s.claims := List.mem_of_getElem? hc
    refine ⟨hinv, hs.kept, ?_, ?_, hs.returned, hs.marked⟩
    · intro d hd
      rcases List.mem_or_eq_of_mem_set hd with hd | rfl
      · exact hs.selected d hd
      · exact hs.selected c hmem
    · intro d hd
      rcases List.mem_or_eq_of_mem_set hd with hd | rfl
      · exact hs.updated d hd
      · exact exists_claimed_of_mem_visit (hs.updated c hmem)
  | committed i c hc htodo =>
    have hmem : c ∈ s.claims := List.mem_of_getElem? hc
    refine ⟨hinv, fun id hid => (hs.kept id hid).setGranted, ?_, ?_, ?_, ?_⟩
    · intro d hd
      exact hs.selected d (List.mem_of_mem_eraseIdx hd)
    · intro d hd u hu
      exact exists_claimed_setGranted (hs.updated d (List.mem_of_mem_eraseIdx hd) u hu)
    · intro u hu
      rcases List.mem_append.mp hu with hu | hu
      · exact ⟨(hs.returned u hu).1, exists_claimed_setGranted (hs.returned u hu).2⟩
      · exact ⟨hs.selected c hmem u.id ((hs.inv.claims c hmem).mem_activated hu),
          exists_claimed_setGranted (hs.updated c hmem u hu)⟩
    · exact marked_setGranted hs.marked (hs.updated c hmem)
  | rolledBack i =>
    exact ⟨hinv, hs.kept, fun d hd => hs.selected d (List.mem_of_mem_eraseIdx hd),
      fun d hd => hs.updated d (List.mem_of_mem_eraseIdx hd), hs.returned, hs.marked⟩
  | referred id referrerId referredId table hins =>
    have hsub := ReferralTable.subset_of_insert hins
    have hrows : ∀ u : Claimed, (∃ r ∈ s.referrals.rows, r.claimed = u) →
        ∃ r ∈ table.rows, r.claimed = u := by
      rintro u ⟨r, hr, hu⟩
      exact ⟨r, hsub hr, hu⟩
    refine ⟨hinv, fun id hid => (hs.kept id hid).mono hsub, hs.selected,
      fun c hc u hu => hrows u (hs.updated c hc u hu),
      fun u hu => ⟨(hs.returned u hu).1, hrows u (hs.returned u hu).2⟩, ?_⟩
    intro r hr hsome
    rcases ReferralTable.mem_or_unmarked_of_insert hins hr with hr | hnone
    · exact hs.marked r hr hsome
    · exact absurd hnone hsome
  | granted | aborted | wrote =>
    exact ⟨hinv, hs.kept, hs.selected, hs.updated, hs.returned, hs.marked⟩

/-! ## What is granted has been committed -/

/-- The `UPDATE` of a referrer does what the reward is. -/
theorem promoCommitted_rewardReferrer (db : Database) (now referrerId : ℕ) :
    PromoCommitted db (rewardReferrer db now referrerId) now referrerId := by
  intro m hm hid
  refine ⟨reward m now, ?_, rfl, ?_, rfl, rfl⟩
  · show reward m now ∈ db.merchants.map _
    exact List.mem_map.mpr ⟨m, hm, if_pos hid⟩
  · show some (max (m.feeBps.val / REWARD_DISCOUNT_DIVISOR) 0) = some (m.feeBps.val / 2)
    rw [Nat.max_zero]
    rfl

/-- The grants that are recorded are the steps that reward a referrer. -/
def Recorded (steps : List (Sweeps × SweepAction × Sweeps)) (s : Sweeps) : Prop :=
  ∀ c, c ∈ s.granted ↔ ∃ e ∈ steps, Rewards c e

theorem recorded_of_step {steps : List (Sweeps × SweepAction × Sweeps)} (hs : Recorded steps s)
    (h : step s a = some t) : Recorded (steps ++ [(s, a, t)]) t := by
  intro c
  simp only [List.mem_append, List.mem_singleton, or_and_right, exists_or, exists_eq_left]
  rw [← hs c]
  cases move_of_step h with
  | granted i now u rest hget =>
    show c ∈ s.granted ++ [u] ↔ c ∈ s.granted ∨ (s.grants[i]?).bind List.head? = some c ∧ _
    rw [List.mem_append, List.mem_singleton, hget, Option.bind_some, List.head?_cons,
      Option.some_inj]
    refine or_congr_right ⟨?_, fun hc => hc.1.symm⟩
    rintro rfl
    exact ⟨rfl, promoCommitted_rewardReferrer s.db now c.referrerId⟩
  | began | visited | committed | rolledBack | aborted | referred | wrote =>
    exact (or_iff_left id).symm

/-! ## What is returned is delivered -/

/-- Each referral that a sweep has marked is granted, or about to be. -/
def Accounted (referrals₀ : ReferralTable) (s : Sweeps) : Prop :=
  ∀ r ∈ s.referrals.rows, r.rewardGrantedAt ≠ none → ¬referrals₀.Granted r.id →
    r.claimed ∈ s.granted ∨ s.Owes r.claimed

theorem Recorded.delivered_iff {steps : List (Sweeps × SweepAction × Sweeps)}
    (hs : Recorded steps s) : Delivered referrals₀ steps s ↔ Accounted referrals₀ s := by
  simp only [Delivered, Accounted, hs _]

/-- The marked referrals are the returned ones. -/
theorem Marks.accounted_iff (hs : Marks referrals₀ s) :
    Accounted referrals₀ s ↔ ∀ u ∈ s.returned, u ∈ s.granted ∨ s.Owes u := by
  constructor
  · intro hd u hu
    obtain ⟨hnew, r, hr, rfl⟩ := hs.returned u hu
    obtain ⟨r', hr', hid, hsome⟩ := hs.inv.returned r.id (List.mem_map_of_mem hu)
    obtain rfl : r' = r := List.inj_on_of_nodup_map s.referrals.nodup hr' hr hid
    exact hd r' hr hsome hnew
  · intro hall r hr hsome hnew
    exact hall r.claimed ((hs.marked r hr hsome).resolve_left hnew)

/-- What the runs have still to reward is with the run that leaves, or with the others. -/
theorem mem_flatten_eraseIdx_or {l : List (List Claimed)} {u : Claimed} (h : u ∈ l.flatten)
    (i : ℕ) : (∃ run ∈ l[i]?, u ∈ run) ∨ u ∈ (l.eraseIdx i).flatten := by
  obtain ⟨run, hrun, hu⟩ := List.mem_flatten.mp h
  obtain ⟨j, hj⟩ := List.getElem?_of_mem hrun
  by_cases hji : j = i
  · rw [hji] at hj
    exact .inl ⟨run, hj, hu⟩
  · exact .inr (List.mem_flatten.mpr ⟨run, List.mem_eraseIdx_iff_getElem?.mpr ⟨j, hji, hj⟩, hu⟩)

/-- Only a failing run takes a reward away. -/
theorem accounted_step_iff (hs : Marks referrals₀ s) (hd : Accounted referrals₀ s)
    (h : step s a = some t) : Accounted referrals₀ t ↔ AbandonsNothing (s, a, t) := by
  rw [hs.accounted_iff] at hd
  rw [(marks_of_step hs h).accounted_iff]
  cases move_of_step h with
  | committed i c hc htodo =>
    refine iff_of_true ?_ trivial
    intro u hu
    rw [Sweeps.Owes, List.flatten_append, List.mem_append, List.flatten_singleton]
    rcases List.mem_append.mp hu with hu | hu
    · exact (hd u hu).imp_right .inl
    · exact .inr (.inr hu)
  | granted i now c rest hget =>
    refine iff_of_true ?_ trivial
    intro u hu
    rw [List.mem_append, List.mem_singleton, Sweeps.Owes]
    rcases hd u hu with hgranted | howed
    · exact .inl (.inl hgranted)
    · rcases List.mem_cons.mp ((flatten_set_perm hget).mem_iff.mpr howed) with rfl | hrest
      · exact .inl (.inr rfl)
      · exact .inr hrest
  | aborted i =>
    constructor
    · intro hall run hrun c hc
      have howed : c ∈ s.grants.flatten :=
        List.mem_flatten.mpr ⟨run, List.mem_of_getElem? hrun, hc⟩
      exact hall c (hs.inv.pending.subset (List.mem_append_right _ howed))
    · intro hleft u hu
      rcases hd u hu with hgranted | howed
      · exact .inl hgranted
      · rcases mem_flatten_eraseIdx_or howed i with ⟨run, hrun, hmem⟩ | hrest
        · exact hleft run hrun u hmem
        · exact .inr hrest
  | began | visited | rolledBack | referred | wrote => exact iff_of_true hd trivial

/-- **A claimed reward is a delivered reward** all along a run exactly when no run of the sweep
fails with referrals left that nobody else rewards. -/
theorem rewards_delivered_iff (db : Database) (referrals : ReferralTable) (ls : List SweepAction) :
    (∀ before e after, trace step (.start db referrals) ls = before ++ e :: after →
      Delivered referrals (before ++ [e]) e.2.2) ↔
      ∀ e ∈ trace step (.start db referrals) ls, AbandonsNothing e := by
  have hmarks : ∀ e ∈ trace step (.start db referrals) ls, Marks referrals e.2.2 :=
    trace_invariant_of_forall (H := fun _ => True) (marks_start db referrals)
      (fun _ _ _ hs _ h => marks_of_step hs h) fun _ _ => trivial
  have hstart : Accounted referrals (.start db referrals) :=
    fun r hr hsome hnew => absurd ⟨r, hr, rfl, hsome⟩ hnew
  have hiff := trace_invariant_iff (I := fun s => Marks referrals s ∧ Accounted referrals s)
    (Q := AbandonsNothing) ⟨marks_start db referrals, hstart⟩
    (fun s a t hs h => by
      rw [← accounted_step_iff hs.1 hs.2 h]
      exact and_iff_right (marks_of_step hs.1 h)) ls
  -- the history up to a step says what has been committed by then
  have hrecorded : ∀ before e after, trace step (.start db referrals) ls = before ++ e :: after →
      Recorded (before ++ [e]) e.2.2 := fun before e after hsplit =>
    history_of_trace (I := Recorded) (fun c => by simp [Sweeps.start])
      (fun _ _ _ _ hs h => recorded_of_step hs h) hsplit
  rw [← hiff]
  constructor
  · intro hall e he
    obtain ⟨before, after, hsplit⟩ := List.append_of_mem he
    exact ⟨hmarks e he,
      (hrecorded before e after hsplit).delivered_iff.mp (hall before e after hsplit)⟩
  · intro hall before e after hsplit
    have he : e ∈ trace step (.start db referrals) ls := by
      rw [hsplit]
      exact List.mem_append_right _ List.mem_cons_self
    exact (hrecorded before e after hsplit).delivered_iff.mpr (hall e he).2

/-! ## What is lost stays lost -/

/-- The referral is marked, has not been rewarded, and no run and no claim under way has it. -/
structure Lost (s : Sweeps) (id : ℕ) : Prop where
  marked : s.referrals.Granted id
  unrewarded : ∀ c ∈ s.granted, c.id ≠ id
  unowed : ∀ c, s.Owes c → c.id ≠ id
  unselected : ∀ c ∈ s.claims, id ∉ c.activated

theorem lost_of_step {id : ℕ} (hs : s.Inv) (hlost : Lost s id) (h : step s a = some t) :
    Lost t id := by
  cases move_of_step h with
  | began now ids hids =>
    refine ⟨hlost.marked, hlost.unrewarded, hlost.unowed, ?_⟩
    intro c hc
    rcases List.mem_append.mp hc with hc | hc
    · exact hlost.unselected c hc
    · rw [List.mem_singleton.mp hc, hids]
      -- the mark keeps it out of the snapshot
      exact fun hid => hlost.marked.not_unclaimed (ReferralTable.unclaimed_of_activated hid)
  | visited i id' c hc hid hfree =>
    refine ⟨hlost.marked, hlost.unrewarded, hlost.unowed, ?_⟩
    intro d hd
    rcases List.mem_or_eq_of_mem_set hd with hd | rfl
    · exact hlost.unselected d hd
    · exact hlost.unselected c (List.mem_of_getElem? hc)
  | committed i c hc htodo =>
    have hmem : c ∈ s.claims := List.mem_of_getElem? hc
    refine ⟨hlost.marked.setGranted, hlost.unrewarded, ?_,
      fun d hd => hlost.unselected d (List.mem_of_mem_eraseIdx hd)⟩
    intro u hu
    rw [Sweeps.Owes, List.flatten_append, List.mem_append, List.flatten_singleton] at hu
    rcases hu with hu | hu
    · exact hlost.unowed u hu
    · rintro rfl
      exact hlost.unselected c hmem ((hs.claims c hmem).mem_activated hu)
  | rolledBack i =>
    exact ⟨hlost.marked, hlost.unrewarded, hlost.unowed,
      fun c hc => hlost.unselected c (List.mem_of_mem_eraseIdx hc)⟩
  | granted i now c rest hget =>
    have howed : ∀ u ∈ c :: (s.grants.set i rest).flatten, u.id ≠ id :=
      fun u hu => hlost.unowed u ((flatten_set_perm hget).subset hu)
    refine ⟨hlost.marked, ?_, fun u hu => howed u (List.mem_cons_of_mem _ hu),
      hlost.unselected⟩
    intro u hu
    rcases List.mem_append.mp hu with hu | hu
    · exact hlost.unrewarded u hu
    · rw [List.mem_singleton.mp hu]
      exact howed c List.mem_cons_self
  | aborted i =>
    exact ⟨hlost.marked, hlost.unrewarded,
      fun u hu => hlost.unowed u ((List.eraseIdx_sublist _ i).flatten.subset hu),
      hlost.unselected⟩
  | referred id' referrerId referredId table hins =>
    exact ⟨hlost.marked.mono (ReferralTable.subset_of_insert hins), hlost.unrewarded,
      hlost.unowed, hlost.unselected⟩
  | wrote db => exact ⟨hlost.marked, hlost.unrewarded, hlost.unowed, hlost.unselected⟩

/-- No later sweep completes a failed one. -/
theorem lost_forever {ok : SweepAction → Prop} {id : ℕ} (hs : s.Inv) (hlost : Lost s id)
    (h : Reaches step ok s t) : Lost t id := by
  have hboth : t.Inv ∧ Lost t id := h.invariant (I := fun u => u.Inv ∧ Lost u id) ⟨hs, hlost⟩
    fun _ _ _ _ hu hstep => ⟨inv_of_step hu.1 hstep, lost_of_step hu.1 hu.2 hstep⟩
  exact hboth.2

/-- Merchant 0 has referred merchant 2, who has been paid. -/
def exampleActivated : Database :=
  { exampleDb with
    merchants :=
      [⟨0, some "GREFERRER", ⟨10, FeeBps.ten_le⟩, none, none, none⟩,
        ⟨2, some "GREFERRED", ⟨10, FeeBps.ten_le⟩, none, none, none⟩]
    payments := [examplePaid 2] }

def exampleReferral : ReferralTable := ⟨[⟨0, 0, 2, none⟩], List.nodup_singleton _⟩

def lostReward : List SweepAction :=
  [.begin 1, .visit 0 0, .commit 0, .abort 0, .begin 2, .commit 0]

/-- A sweep marks the referral and fails before it rewards the referrer; the next sweep has
nothing to do, and neither has any later one. -/
theorem reward_lost :
    ∃ s, exec step (.start exampleActivated exampleReferral) lostReward = some s ∧
      (∃ r ∈ s.referrals.rows, r.rewardGrantedAt = some 1) ∧
      (∀ m ∈ s.db.merchants, m.promoFeeBps = none) ∧
      ¬Delivered exampleReferral
        (trace step (.start exampleActivated exampleReferral) lostReward) s ∧
      ∀ later t, exec step s later = some t → Lost t 0 := by
  obtain ⟨s, hs, hmarked, hpromo, hgranted, hgrants, hclaims, hnot⟩ : ∃ s,
      exec step (.start exampleActivated exampleReferral) lostReward = some s ∧
      (∃ r ∈ s.referrals.rows, r.id = 0 ∧ r.rewardGrantedAt = some 1) ∧
      (∀ m ∈ s.db.merchants, m.promoFeeBps = none) ∧ s.granted = [] ∧ s.grants = [[]] ∧
      s.claims = [] ∧ ¬Delivered exampleReferral
        (trace step (.start exampleActivated exampleReferral) lostReward) s :=
    exists_exec_of_any (by decide +kernel)
  obtain ⟨r, hr, hid, hsome⟩ := hmarked
  have hlost : Lost s 0 := by
    refine ⟨⟨r, hr, hid, by simp [hsome]⟩, ?_, ?_, ?_⟩
    · simp [hgranted]
    · simp [Sweeps.Owes, hgrants]
    · simp [hclaims]
  have hany : ∀ labels : List SweepAction, ∀ a ∈ labels, (fun _ : SweepAction => True) a :=
    fun _ _ _ => trivial
  have hinv : s.Inv := (Reaches.of_exec (hany _) hs).invariant (Sweeps.inv_start _ _)
    fun _ _ _ _ hs h => inv_of_step hs h
  refine ⟨s, hs, ⟨r, hr, hsome⟩, hpromo, hnot, fun later t ht => ?_⟩
  exact lost_forever hinv hlost (Reaches.of_exec (hany later) ht)

end KonfirmBackend.Referrals
